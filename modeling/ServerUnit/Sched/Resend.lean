import ServerUnit.Sched.Removal
import ServerUnit.WorkerNode.Sending

/-!
# How timed-out packets are sent again

A pass of `execute` hands each packet that has timed out to `pushToFront` of its worker, which
moves it to the front of the pending queue and sets the re-send flag. The next call of
`getQueuedPacket` returns the front and clears the flag. One flag stands for all packets handed
over, so the others stay where they are.
-/

namespace ServerUnit

open Lib

namespace Worker

/-- The timer hands over the packets, one after the other. -/
def pushAll (w : Worker) (ps : List OutPacketRef) : Outcome Worker := ps.foldlM pushToFront w

/-- So many calls of `getQueuedPacket`, with the JSONs that they return. -/
def reads (mem : Heap OutPacket) (timer : Timeout) (w : Worker) :
    ℕ → Outcome (Worker × List (Option ServerPacket))
  | 0     => return (w, [])
  | n + 1 => do
    let (w, timer, out) ← w.getQueuedPacket mem timer
    let (w, outs) ← reads mem timer w n
    return (w, out :: outs)

/-- The packets handed over are returned once each by as many calls, and nothing else is. -/
def Resent (mem : Heap OutPacket) (timer : Timeout) (w : Worker) (ps : List OutPacketRef) : Prop :=
  (∀ p ∈ ps, ∃ o, mem.get p = some o) ∧ ∃ w₁ w₂ outs,
    w.pushAll ps = .ok w₁ ∧ w₁.reads mem timer ps.length = .ok (w₂, outs) ∧
    outs.Perm (ps.map fun p => (mem.get p).map OutPacket.packet) ∧ w₂.senderQueue = w.senderQueue

variable {mem : Heap OutPacket} {timer timer' : Timeout} {w w' : Worker} {p : OutPacketRef}
  {ps : List OutPacketRef} {out : Option ServerPacket} {outs : List (Option ServerPacket)}

lemma pushAll_cons_eq_ok :
    w.pushAll (p :: ps) = .ok w' ↔ ∃ v, w.pushToFront p = .ok v ∧ v.pushAll ps = .ok w' := by
  rw [pushAll, List.foldlM_cons, Outcome.bind_eq_ok]
  rfl

/-- Handing packets over leaves the queue alone; the flag is set, and something is pending. -/
lemma pushAll_frame (h : w.pushAll ps = .ok w') :
    w'.senderQueue = w.senderQueue ∧
      (ps ≠ [] → w'.ackPacketPop = true ∧ w'.ackPendingQueue ≠ []) := by
  induction ps generalizing w with
  | nil =>
    cases h
    exact ⟨rfl, fun hne => absurd rfl hne⟩
  | cons p ps ih =>
    obtain ⟨v, hpush, hrest⟩ := pushAll_cons_eq_ok.mp h
    obtain ⟨-, rfl⟩ := pushToFront_eq_ok.mp hpush
    obtain ⟨hsender, hflag⟩ := ih hrest
    refine ⟨hsender, fun _ => ?_⟩
    cases ps with
    | nil =>
      cases hrest
      exact ⟨rfl, List.cons_ne_nil _ _⟩
    | cons q ps => exact hflag (List.cons_ne_nil _ _)

lemma reads_succ_eq_ok {n : ℕ} : w.reads mem timer (n + 1) = .ok (w', outs) ↔
    ∃ v timer' out rest, w.getQueuedPacket mem timer = .ok (v, timer', out) ∧
      v.reads mem timer' n = .ok (w', rest) ∧ outs = out :: rest := by
  simp only [reads, Outcome.bind_eq_ok, Outcome.pure_eq_ok, Prod.exists, Prod.mk.injEq]
  constructor
  · rintro ⟨v, timer', out, hget, v', rest, hrest, rfl, rfl⟩
    exact ⟨v, timer', out, rest, hget, hrest, rfl⟩
  · rintro ⟨v, timer', out, rest, hget, hrest, rfl⟩
    exact ⟨v, timer', out, hget, w', rest, hrest, rfl, rfl⟩

/-! ### What successive calls return -/

/-- A call never lengthens the queue. -/
lemma getQueuedPacket_length (h : w.getQueuedPacket mem timer = .ok (w', timer', out)) :
    w'.senderQueue.length ≤ w.senderQueue.length := by
  cases TakeRule.of_getQueuedPacket h with
  | nothing hq => rw [hq]
  | front p queue o hq hq' => rw [hq, hq', List.length_cons]; omega
  | skipped before after p hskips _ hq' =>
    rw [hskips.queue, hq', List.length_append, List.length_append, List.length_cons]
    omega

lemma reads_length {n : ℕ} (h : w.reads mem timer n = .ok (w', outs)) :
    w'.senderQueue.length ≤ w.senderQueue.length := by
  induction n generalizing w timer outs with
  | zero =>
    cases h
    exact le_rfl
  | succ n ih =>
    obtain ⟨v, timer', out, rest, hget, hrest, rfl⟩ := reads_succ_eq_ok.mp h
    exact (ih hrest).trans (getQueuedPacket_length hget)

/-- With something pending, a call clears the flag and leaves the queues as they are. -/
lemma getQueuedPacket_of_flag (hflag : w.ackPacketPop = true) (hpending : w.ackPendingQueue ≠ [])
    (h : w.getQueuedPacket mem timer = .ok (w', timer', out)) :
    w' = { w with ackPacketPop := false } := by
  cases GetRule.of_getQueuedPacket h with
  | resend => rfl
  | unlocked _ _ _ _ _ hq => exact absurd hq hpending
  | locked _ _ _ _ _ hclear =>
    rw [hflag] at hclear
    cases hclear

/-- With the flag clear, a call returns nothing or takes a packet off the queue. -/
lemma getQueuedPacket_of_clear (hclear : w.ackPacketPop = false)
    (h : w.getQueuedPacket mem timer = .ok (w', timer', out)) :
    out = none ∨ w'.senderQueue.length < w.senderQueue.length := by
  cases GetRule.of_getQueuedPacket h with
  | resend _ _ _ _ hflag | unlocked _ _ _ _ hflag =>
    rw [hclear] at hflag
    cases hflag
  | locked _ _ _ _ _ _ hrule =>
    cases hrule with
    | idle | limited => exact .inl rfl
    | skipped _ _ _ _ _ _ _ hq | acked _ _ _ _ hq | plain _ _ _ hq =>
      right
      dsimp only at hq ⊢
      simp [hq]

/-- One flag brings back one packet. -/
lemma Resent.length_le_one (h : Resent mem timer w ps) : ps.length ≤ 1 := by
  obtain ⟨hthere, w₁, w₂, outs, hpush, hreads, hperm, hsender⟩ := h
  match ps, hthere, hpush, hreads, hperm with
  | [], _, _, _, _ => exact Nat.zero_le 1
  | [p], _, _, _, _ => exact le_rfl
  | p :: q :: ps, hthere, hpush, hreads, hperm =>
    exfalso
    obtain ⟨hsame, hflag⟩ := pushAll_frame hpush
    obtain ⟨hset, hpending⟩ := hflag (List.cons_ne_nil _ _)
    obtain ⟨v, timer₁, out₁, rest, hfirst, hrest, rfl⟩ := reads_succ_eq_ok.mp hreads
    obtain rfl := getQueuedPacket_of_flag hset hpending hfirst
    obtain ⟨v', timer₂, out₂, rest', hsecond, hrest', rfl⟩ := reads_succ_eq_ok.mp hrest
    -- the second call finds the flag clear
    rcases getQueuedPacket_of_clear rfl hsecond with rfl | hshorter
    · have hnone := hperm.mem_iff.mp (List.mem_cons_of_mem _ List.mem_cons_self)
      obtain ⟨r, hr, hnone⟩ := List.mem_map.mp hnone
      obtain ⟨o, ho⟩ := hthere r hr
      rw [ho] at hnone
      cases hnone
    · have hle := reads_length hrest'
      rw [hsender, ← hsame] at hle
      exact absurd hle (Nat.not_le.mpr hshorter)

lemma resent_singleton {o : OutPacket} (hlock : 0 < w.workerLock) (ho : mem.get p = some o) :
    Resent mem timer w [p] := by
  refine ⟨fun q hq => ⟨o, by rwa [List.mem_singleton.mp hq]⟩, ?_⟩
  have hpush := pushToFront_eq_ok (p := p).mpr ⟨hlock, rfl⟩
  have hget : getQueuedPacket mem timer { w with
      ackPendingQueue := p :: w.ackPendingQueue.filter (· ≠ p)
      ackPacketPop := true } = _ := getQueuedPacket_resend hlock rfl rfl ho
  refine ⟨_, _, [some o.packet], pushAll_cons_eq_ok.mpr ⟨_, hpush, rfl⟩,
    reads_succ_eq_ok.mpr ⟨_, timer, _, [], hget, rfl, rfl⟩, ?_, rfl⟩
  rw [List.map_singleton, ho, Option.map_some]

/-- The packets handed over are sent again exactly when there is one at most. -/
theorem resent_iff : Resent mem timer w ps ↔
    ps = [] ∨ ∃ p o, ps = [p] ∧ mem.get p = some o ∧ 0 < w.workerLock := by
  constructor
  · intro h
    have hlength := h.length_le_one
    obtain ⟨hthere, w₁, w₂, outs, hpush, -⟩ := h
    rcases ps with _ | ⟨p, _ | ⟨q, ps⟩⟩
    · exact .inl rfl
    · obtain ⟨o, ho⟩ := hthere p List.mem_cons_self
      obtain ⟨v, hpush, -⟩ := pushAll_cons_eq_ok.mp hpush
      exact .inr ⟨p, o, rfl, ho, (pushToFront_eq_ok.mp hpush).1⟩
    · simp at hlength
  · rintro (rfl | ⟨p, o, rfl, ho, hlock⟩)
    · exact ⟨by simp, w, w, [], rfl, rfl, .refl _, rfl⟩
    · exact resent_singleton hlock ho

end Worker

namespace Server

variable {s s' t : Server} {worker b : WorkerRef} {w w' : Worker} {p : OutPacketRef}
  {timedPackets : List OutPacketRef} {returned : Bool}

/-! ### What a pass of `execute` hands over -/

/-- What the loop does to a worker that it does not remove is to hand it some of the packets, in
their order; their tables name the worker. -/
lemma exists_pushAll_of_executeLoop (h : s.executeLoop timedPackets = .ok (s', returned))
    (hw : s.getWorker worker = some w) (hw' : s'.getWorker worker = some w') :
    ∃ ps, ps.Sublist timedPackets ∧ (∀ p ∈ ps, s.Names p worker) ∧ w.pushAll ps = .ok w' := by
  induction timedPackets generalizing s w with
  | nil =>
    cases h
    cases hw.symm.trans hw'
    exact ⟨[], .refl _, by simp, rfl⟩
  | cons p timedPackets ih =>
    cases LoopRule.of_executeLoop h with
    | checkOut o ho hstatus hloop =>
      obtain ⟨ps, hsub, hnames, hpush⟩ :=
        ih (s := { s with outPackets := s.outPackets.put p o.checkOut }) hloop hw
      exact ⟨ps, hsub.cons p, fun q hq => (SameTables.checkOut ho).names.mp (hnames q hq), hpush⟩
    | resend b timer t hresends hpush hloop =>
      have hsame := SameTables.pushToFront hresends.timed hpush
      obtain ⟨v, hv, hlock, rfl⟩ := pushToFront_eq_ok.mp hpush
      by_cases hb : worker = b
      · subst hb
        cases hw.symm.trans hv
        obtain ⟨ps, hsub, hnames, hrest⟩ := ih hloop (Heap.get_put_self hw)
        refine ⟨p :: ps, hsub.cons_cons p, fun q hq => ?_, ?_⟩
        · rcases List.mem_cons.mp hq with rfl | hq
          · exact hresends.names
          · exact hsame.names.mp (hnames q hq)
        · exact Worker.pushAll_cons_eq_ok.mpr ⟨_, Worker.pushToFront_eq_ok.mpr ⟨hlock, rfl⟩, hrest⟩
      · obtain ⟨ps, hsub, hnames, hrest⟩ := ih hloop ((Heap.get_put_of_ne hb).trans hw)
        exact ⟨ps, hsub.cons p, fun q hq => hsame.names.mp (hnames q hq), hrest⟩
    | remove b timer hstruck hsecond htimed hremove hreturned =>
      obtain ⟨v, -, -, rfl⟩ := removeWorker_eq_ok.mp hremove
      by_cases hb : worker = b
      · subst hb
        cases (Heap.get_free_self _ worker).symm.trans hw'
      · cases hw.symm.trans ((Heap.get_free_of_ne hb).symm.trans hw')
        exact ⟨[], List.nil_sublist _, by simp, rfl⟩

/-- A pass of `execute` hands a worker that it does not remove some of the timed packets. -/
lemma exists_pushAll_of_execute (h : s.execute = .ok s') (hw : s.getWorker worker = some w)
    (hw' : s'.getWorker worker = some w') :
    ∃ ps, ps.Sublist s.packetTimeout.timedPackets ∧ (∀ p ∈ ps, s.Names p worker) ∧
      w.pushAll ps = .ok w' := by
  obtain ⟨lock, lock', t, returned, hloop, rfl⟩ := execute_loop h
  have hw : getWorker { s with
      packetTimeout := { s.packetTimeout with timeoutListLock := lock } } worker = some w := hw
  obtain ⟨ps, hsub, hnames, hpush⟩ := exists_pushAll_of_executeLoop hloop hw hw'
  exact ⟨ps, hsub, hnames, hpush⟩

/-- The worker `1` with two packets sent, which both have timed out. -/
def twoTimedOut : Server :=
  { init (fun _ => false) (fun _ => 0) with
    outPackets := ⟨[some ⟨⟨.spDataSent, "1", .userData "A" .lowPriority "T" "1,2"⟩, some 0, true, false⟩,
      some ⟨⟨.spDataSent, "1", .userData "B" .lowPriority "T" "3,4"⟩, some 1, true, false⟩]⟩
    outgoingDataRegistry :=
      ⟨[0, 1], ⟨[some ⟨"A", .dataReady, some 0⟩, some ⟨"B", .dataReady, some 0⟩]⟩⟩
    workerRegistry := ⟨⟨[some { Worker.new "1" with ackPendingQueue := [0, 1] }]⟩, [0], [], false⟩
    packetTimeout := ⟨[], [0, 1], 1⟩ }

/-- A pass of `execute` hands the worker both packets, and two calls do not return them. -/
theorem execute_not_resent : ∃ s' w w', twoTimedOut.execute = .ok s' ∧
    twoTimedOut.getWorker 0 = some w ∧ s'.getWorker 0 = some w' ∧ w.pushAll [0, 1] = .ok w' ∧
    ¬ w.Resent s'.outPackets s'.packetTimeout [0, 1] := by
  obtain ⟨s', h, hw'⟩ : ∃ s', twoTimedOut.execute = .ok s' ∧ s'.getWorker 0 =
      some { Worker.new "1" with ackPendingQueue := [1, 0], ackPacketPop := true } :=
    Outcome.exists_ok_of_eval (by decide)
  exact ⟨s', _, _, h, rfl, hw', rfl, fun hresent => by simpa using hresent.length_le_one⟩

end Server

end ServerUnit
