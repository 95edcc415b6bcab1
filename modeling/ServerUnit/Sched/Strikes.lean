import ServerUnit.Sched.Resend
import ServerUnit.Server.Reachable

/-!
# The strikes of a worker

A worker that is absent when one of its packets times out gets a strike, and is removed at the
second one. Nothing takes a strike back: the list of the workers struck is not told when a worker
checks in, and one pass may strike a worker for each of its packets.

The machine below makes any calls of `execute`, check-ins and check-outs, sends and
acknowledgements. Next to the server it keeps which workers have a strike of an earlier call and
have not checked in since, and which workers were removed without one.
-/

namespace ServerUnit

open Lib

namespace Server

/-- `worker->checkIn()`. -/
def checkIn (s : Server) (worker : WorkerRef) : Outcome Server := do
  let w ← s.workerRegistry.workers.deref worker
  return s.putWorker worker w.checkIn

/-- `worker->checkOut()`. -/
def checkOut (s : Server) (worker : WorkerRef) : Outcome Server := do
  let w ← s.workerRegistry.workers.deref worker
  return s.putWorker worker w.checkOut

/-- `outPacket->outData->worker`. -/
def packetWorker (s : Server) (outPacket : OutPacketRef) : Outcome WorkerRef := do
  let o ← s.outPackets.deref outPacket
  let outData ← Outcome.ofOption o.outData
  let outDataState ← s.outgoingDataRegistry.states.deref outData
  Outcome.ofOption outDataState.worker

/-- `outPacket->checkIn()`. -/
def checkInPacket (s : Server) (outPacket : OutPacketRef) : Outcome Server := do
  let worker ← s.packetWorker outPacket
  let s ← s.checkIn worker
  let o ← s.outPackets.deref outPacket
  return { s with outPackets := s.outPackets.put outPacket o.checkIn }

end Server

/-! ### Which worker is removed -/

namespace Server

variable {s s' t : Server} {worker : WorkerRef} {w : Worker} {p : OutPacketRef}
  {timedPackets : List OutPacketRef} {returned : Bool}

/-- The worker gets the first of the second strikes. -/
def RemovesAt (s : Server) (timedPackets : List OutPacketRef) (worker : WorkerRef) : Prop :=
  ∃ before p after, timedPackets = before ++ p :: after ∧ ¬ s.SecondStrike before ∧
    s.StruckTwice before p worker

lemma not_secondStrike_nil : ¬ s.SecondStrike [] := by
  rw [secondStrike_iff]
  exact not_exists_place_nil

lemma Round.removesAt_iff (h : Round s p t) :
    t.RemovesAt timedPackets worker ↔ s.RemovesAt (p :: timedPackets) worker := by
  simp only [RemovesAt, exists_place_cons, h.secondStrike_iff, h.struckTwice_iff,
    h.not_struckTwice, and_false, false_or]

/-- A second strike at the first packet is the first one. -/
lemma removesAt_of_struckTwice {b : WorkerRef} (h : s.StruckTwice [] p b) :
    s.RemovesAt (p :: timedPackets) worker ↔ worker = b := by
  have hsecond : ∀ before, s.SecondStrike (p :: before) := fun before =>
    secondStrike_iff.mpr (exists_place_cons.mpr (.inl ⟨b, h⟩))
  simp only [RemovesAt, exists_place_cons, hsecond, not_true_eq_false, false_and, and_false,
    exists_false, or_false, not_secondStrike_nil, not_false_eq_true, true_and]
  constructor
  · exact fun h' => h'.1.names.unique h.1.names
  · rintro rfl
    exact h

/-- The loop removes the worker that gets the first of the second strikes, and no other. -/
lemma removed_iff (h : s.executeLoop timedPackets = .ok (s', returned)) :
    ((∃ w, s.getWorker worker = some w) ∧ s'.getWorker worker = none) ↔
      s.RemovesAt timedPackets worker := by
  induction timedPackets generalizing s with
  | nil =>
    cases h
    refine iff_of_false ?_ not_exists_place_nil
    rintro ⟨⟨w, hw⟩, hgone⟩
    cases hw.symm.trans hgone
  | cons p timedPackets ih =>
    rcases exists_round h with ⟨t, hround, hloop⟩ | ⟨b, w, hw, habsent, hsecond, hremove, -⟩
    · rw [← hround.removesAt_iff, ← ih hloop]
      have hthere : (∃ w, t.getWorker worker = some w) ↔ ∃ w, s.getWorker worker = some w := by
        rw [← Option.isSome_iff_exists, ← Option.isSome_iff_exists,
          ← Option.isSome_map (f := Worker.attendance), hround.attendance, Option.isSome_map]
      rw [hthere]
    · have htwice : s.StruckTwice [] p b :=
        struckTwice_nil.mpr ⟨hw.struck_iff.mpr ⟨rfl, habsent⟩, hsecond⟩
      rw [removesAt_of_struckTwice htwice]
      obtain ⟨v, -, -, rfl⟩ := removeWorker_eq_ok.mp hremove
      dsimp only [getWorker, unstrike]
      constructor
      · rintro ⟨⟨w', hw'⟩, hgone⟩
        by_contra hne
        rw [Heap.get_free_of_ne hne] at hgone
        cases hw'.symm.trans hgone
      · rintro rfl
        exact ⟨⟨w, hw.worker⟩, Heap.get_free_self _ worker⟩

/-- A call of `execute` removes the worker that gets the first of the second strikes. -/
lemma execute_removed_iff (h : s.execute = .ok s') :
    ((∃ w, s.getWorker worker = some w) ∧ s'.getWorker worker = none) ↔
      s.RemovesAt s.packetTimeout.timedPackets worker := by
  obtain ⟨lock, lock', t, returned, hloop, rfl⟩ := execute_loop h
  have hremoves : (s.withListLock lock).RemovesAt s.packetTimeout.timedPackets worker ↔
      s.RemovesAt s.packetTimeout.timedPackets worker := by
    simp only [RemovesAt, secondStrike_withListLock, struckTwice_withListLock]
  exact (removed_iff hloop).trans hremoves

end Server

structure StrikeLog where
  server : Server
  /-- The workers with a strike of an earlier call of `execute` and no check-in since. -/
  strikes : List WorkerRef
  /-- The workers that `execute` removed without such a strike. -/
  unfair : List WorkerRef

inductive StrikeEvent where
  | execute
  | checkIn (worker : WorkerRef)
  | checkOut (worker : WorkerRef)
  | checkInPacket (outPacket : OutPacketRef)
  | queuePacket (worker : WorkerRef) (packet : OutPacket)
  | getQueuedPacket (workerUid : String)
  | matchAckablePacket (worker : WorkerRef) (id : String)

namespace StrikeLog

/-- The strikes found at the start are of earlier calls. -/
def start (s : Server) : StrikeLog :=
  { server := s, strikes := s.packetTimeout.timedoutWorkerRegistry, unfair := [] }

/-- The workers with a strike after a call: of this call, or standing from before. -/
def struckAfter (x : StrikeLog) (s' : Server) : List WorkerRef :=
  s'.packetTimeout.timedoutWorkerRegistry.filter fun b =>
    b ∈ x.strikes ∨ b ∉ x.server.packetTimeout.timedoutWorkerRegistry

/-- The workers removed by a call that had no standing strike. -/
def unfairlyRemoved (x : StrikeLog) (s' : Server) : List WorkerRef :=
  (List.range x.server.workerRegistry.workers.next).filter fun b =>
    (x.server.getWorker b).isSome ∧ (s'.getWorker b).isNone ∧ b ∉ x.strikes

def step (x : StrikeLog) : StrikeEvent → Outcome StrikeLog
  | .execute => do
    let server ← x.server.execute
    return {
      server
      strikes := x.struckAfter server
      unfair := x.unfair ++ x.unfairlyRemoved server }
  | .checkIn worker => do
    let server ← x.server.checkIn worker
    return { x with server, strikes := x.strikes.filter (· ≠ worker) }
  | .checkOut worker => do
    let server ← x.server.checkOut worker
    return { x with server }
  | .checkInPacket outPacket => do
    let worker ← x.server.packetWorker outPacket
    let server ← x.server.checkInPacket outPacket
    return { x with server, strikes := x.strikes.filter (· ≠ worker) }
  | .queuePacket worker packet => do
    let (server, _) ← x.server.queuePacket worker packet
    return { x with server }
  | .getQueuedPacket workerUid => do
    let (server, _) ← x.server.getQueuedPacket workerUid
    return { x with server }
  | .matchAckablePacket worker id => do
    let (server, _) ← x.server.matchAckablePacket worker id
    return { x with server }

/-- The pass finds two packets of one absent worker, before it removes any. -/
def StrikesTwice (s : Server) (timedPackets : List OutPacketRef) : Prop :=
  ∃ before p after, timedPackets = before ++ p :: after ∧ ¬ s.SecondStrike before ∧
    ∃ worker, s.Struck before p worker ∧
      ∃ before' q after', before = before' ++ q :: after' ∧ s.Struck before' q worker

/-- The pass finds a packet of an absent worker that has a strike, but has checked in since,
before it removes any worker. -/
def StrikesStale (x : StrikeLog) (timedPackets : List OutPacketRef) : Prop :=
  ∃ before p after, timedPackets = before ++ p :: after ∧ ¬ x.server.SecondStrike before ∧
    ∃ worker, x.server.Struck before p worker ∧
      worker ∈ x.server.packetTimeout.timedoutWorkerRegistry ∧ worker ∉ x.strikes

/-- The pass gives no worker two strikes, and counts no strike that a check-in should have taken
back. -/
def Fair (x : StrikeLog) : StrikeEvent → Prop
  | .execute => ¬ StrikesTwice x.server x.server.packetTimeout.timedPackets ∧
      ¬ x.StrikesStale x.server.packetTimeout.timedPackets
  | _ => True

/-! ### When a removal is fair -/

variable {x x' : StrikeLog} {s' : Server} {b : WorkerRef} {timedPackets : List OutPacketRef}

lemma mem_unfairlyRemoved (h : x.server.execute = .ok s') : b ∈ x.unfairlyRemoved s' ↔
    x.server.RemovesAt x.server.packetTimeout.timedPackets b ∧ b ∉ x.strikes := by
  rw [← Server.execute_removed_iff h, unfairlyRemoved, List.mem_filter, List.mem_range,
    decide_eq_true_eq, Option.isSome_iff_exists, Option.isNone_iff_eq_none, ← and_assoc, ← and_assoc]
  refine and_congr_left' (and_congr_left' (and_iff_right_of_imp ?_))
  rintro ⟨w, hw⟩
  exact Heap.lt_next_of_get hw

/-- With the standing strikes all on the list, a removal without one is a worker struck twice by
this pass, or one with a stale strike. -/
lemma exists_unfair_iff (hstrikes : ∀ b ∈ x.strikes, b ∈ x.server.packetTimeout.timedoutWorkerRegistry) :
    (∃ b, x.server.RemovesAt timedPackets b ∧ b ∉ x.strikes) ↔
      StrikesTwice x.server timedPackets ∨ x.StrikesStale timedPackets := by
  constructor
  · rintro ⟨b, ⟨before, p, after, heq, hfirst, hstruck, hmem | hearlier⟩, hnot⟩
    · exact .inr ⟨before, p, after, heq, hfirst, b, hstruck, hmem, hnot⟩
    · exact .inl ⟨before, p, after, heq, hfirst, b, hstruck, hearlier⟩
  · rintro (⟨before, p, after, heq, hfirst, b, hstruck, before', q, after', hbefore, hearlier⟩ |
      ⟨before, p, after, heq, hfirst, b, hstruck, hmem, hnot⟩)
    · refine ⟨b, ⟨before, p, after, heq, hfirst, hstruck, .inr ⟨before', q, after', hbefore, hearlier⟩⟩,
        fun hmem => hfirst ?_⟩
      -- a standing strike would have removed the worker at its packet before
      exact Server.secondStrike_iff.mpr
        ⟨before', q, after', hbefore, b, hearlier, .inl (hstrikes b hmem)⟩
    · exact ⟨b, ⟨before, p, after, heq, hfirst, hstruck, .inl hmem⟩, hnot⟩

/-- The standing strikes are on the list of the workers struck. -/
def Listed (x : StrikeLog) : Prop :=
  ∀ b ∈ x.strikes, b ∈ x.server.packetTimeout.timedoutWorkerRegistry

lemma listed_start (s : Server) : (start s).Listed := fun _ hb => hb

/-- Apart from `execute`, no call touches the list, and a check-in takes a standing strike back. -/
lemma step_frame {e : StrikeEvent} (he : e ≠ .execute) (h : x.step e = .ok x') :
    x'.server.packetTimeout.timedoutWorkerRegistry = x.server.packetTimeout.timedoutWorkerRegistry ∧
      (∀ b ∈ x'.strikes, b ∈ x.strikes) ∧ x'.unfair = x.unfair := by
  cases e with
  | execute => exact absurd rfl he
  | checkIn worker =>
    simp only [step, Server.checkIn, Outcome.bind_eq_ok, Outcome.pure_eq_ok] at h
    obtain ⟨_, ⟨w, -, rfl⟩, rfl⟩ := h
    exact ⟨rfl, fun b hb => (List.mem_filter.mp hb).1, rfl⟩
  | checkOut worker =>
    simp only [step, Server.checkOut, Outcome.bind_eq_ok, Outcome.pure_eq_ok] at h
    obtain ⟨_, ⟨w, -, rfl⟩, rfl⟩ := h
    exact ⟨rfl, fun _ hb => hb, rfl⟩
  | checkInPacket outPacket =>
    simp only [step, Server.checkInPacket, Server.checkIn, Outcome.bind_eq_ok,
      Outcome.pure_eq_ok] at h
    obtain ⟨worker, -, _, ⟨_, -, _, ⟨w, -, rfl⟩, o, -, rfl⟩, rfl⟩ := h
    exact ⟨rfl, fun b hb => (List.mem_filter.mp hb).1, rfl⟩
  | queuePacket worker packet =>
    simp only [step, Outcome.bind_eq_ok, Outcome.pure_eq_ok] at h
    obtain ⟨⟨s', rc⟩, hq, rfl⟩ := h
    obtain ⟨w, -, ⟨-, -, rfl⟩ | ⟨-, -, -, rfl⟩⟩ := Server.queuePacket_cases hq
    · exact ⟨rfl, fun _ hb => hb, rfl⟩
    · exact ⟨rfl, fun _ hb => hb, rfl⟩
  | getQueuedPacket workerUid =>
    simp only [step, Outcome.bind_eq_ok, Outcome.pure_eq_ok] at h
    obtain ⟨⟨s', packet⟩, hg, rfl⟩ := h
    obtain ⟨worker, w, w', timer, -, -, hget, rfl⟩ := Server.getQueuedPacket_eq_ok.mp hg
    obtain ⟨hmove, -⟩ := Worker.getQueuedPacket_move hget
    exact ⟨hmove.timedoutWorkerRegistry, fun _ hb => hb, rfl⟩
  | matchAckablePacket worker id =>
    simp only [step, Outcome.bind_eq_ok, Outcome.pure_eq_ok] at h
    obtain ⟨⟨s', found⟩, hm, rfl⟩ := h
    obtain ⟨w, -, ⟨-, before, after, p, -, -, rfl⟩ | ⟨-, rfl⟩⟩ := Server.matchAckablePacket_cases hm
    · exact ⟨rfl, fun _ hb => hb, rfl⟩
    · exact ⟨rfl, fun _ hb => hb, rfl⟩

lemma Listed.step {e : StrikeEvent} (h : x.Listed) (hs : x.step e = .ok x') : x'.Listed := by
  by_cases he : e = .execute
  · subst he
    simp only [StrikeLog.step, Outcome.bind_eq_ok, Outcome.pure_eq_ok] at hs
    obtain ⟨s', -, rfl⟩ := hs
    exact fun b hb => (List.mem_filter.mp hb).1
  · obtain ⟨hregistry, hstrikes, -⟩ := step_frame he hs
    intro b hb
    rw [hregistry]
    exact h b (hstrikes b hb)

/-- A call adds no unfair removal exactly when it is fair. -/
lemma step_unfair_iff {e : StrikeEvent} (h : x.Listed) (hfair : x.unfair = [])
    (hs : x.step e = .ok x') : x'.unfair = [] ↔ x.Fair e := by
  by_cases he : e = .execute
  · subst he
    simp only [step, Outcome.bind_eq_ok, Outcome.pure_eq_ok] at hs
    obtain ⟨s', hexecute, rfl⟩ := hs
    dsimp only
    rw [hfair, List.nil_append, List.eq_nil_iff_forall_not_mem, ← not_exists]
    simp only [mem_unfairlyRemoved hexecute, exists_unfair_iff h, not_or, Fair]
  · obtain ⟨-, -, hsame⟩ := step_frame he hs
    rw [hsame]
    refine iff_of_true hfair ?_
    cases e with
    | execute => exact absurd rfl he
    | checkIn | checkOut | checkInPacket | queuePacket | getQueuedPacket | matchAckablePacket =>
      trivial

/-- In any run: no worker is removed without a strike of an earlier call of `execute`, after its
last check-in, exactly when no pass strikes a worker twice and no pass counts a stale strike. -/
theorem run_unfair_iff {s : Server} {es : List StrikeEvent} (h : run step (start s) es = .ok x) :
    (∀ es₁ y, es₁ <+: es → run step (start s) es₁ = .ok y → y.unfair = []) ↔
      Meets step Fair (start s) es := by
  have hstep : ∀ y e y', y.Listed → y.unfair = [] → step y e = .ok y' →
      (y'.unfair = [] ↔ y.Fair e) := fun _ _ _ hlisted hfair hs => step_unfair_iff hlisted hfair hs
  apply Iff.symm
  apply meets_iff_of_invariant (fun _ _ _ hlisted hs => hlisted.step hs) hstep _ _ h
  · exact listed_start s
  · rfl

/-- The worker `1` with one packet sent. -/
def oneTimed : Server :=
  { Server.init (fun _ => false) (fun _ => 0) with
    outPackets := ⟨[some (.new ⟨.spDataSent, "1", .userData "A" .lowPriority "T" "1,2"⟩ (some 0) true)]⟩
    outgoingDataRegistry := ⟨[0], ⟨[some ⟨"A", .dataReady, some 0⟩]⟩⟩
    workerRegistry := ⟨⟨[some { Worker.new "1" with ackPendingQueue := [0] }]⟩, [0], [], false⟩
    packetTimeout := ⟨[], [0], 1⟩ }

/-- The worker stays away for three passes. -/
theorem run_unfair_iff_oneTimed : ∃ x,
    run step (start oneTimed) [.checkOut 0, .execute, .execute, .execute] = .ok x ∧
    ((∀ es₁ y, es₁ <+: [.checkOut 0, .execute, .execute, .execute] →
        run step (start oneTimed) es₁ = .ok y → y.unfair = []) ↔
      Meets step Fair (start oneTimed) [.checkOut 0, .execute, .execute, .execute]) :=
  Outcome.exists_ok_and (by decide) fun _ h => run_unfair_iff h

/-- A worker with two packets overdue is removed by one pass; and one that came back after its
strike is removed the next time it is away. -/
theorem run_unfair :
    (∃ x, run step (start Server.twoTimedOut) [.checkOut 0, .execute] = .ok x ∧ x.unfair = [0]) ∧
      ∃ x, run step (start oneTimed)
        [.checkOut 0, .execute, .execute, .checkIn 0, .checkOut 0, .execute] = .ok x ∧
        x.unfair = [0] :=
  ⟨Outcome.exists_ok_of_eval (by decide), Outcome.exists_ok_of_eval (by decide)⟩

end StrikeLog

/-! ### Silent workers

The server never checks a worker out, so that every worker it knows attends: no pass of `execute`
gives it a strike, however long it is silent. -/

namespace Server

variable {s s' : Server} {worker : WorkerRef} {n : ℕ}

/-- So many passes in a row. -/
def executes (s : Server) : ℕ → Outcome Server
  | 0     => return s
  | n + 1 => do
    let s ← s.execute
    s.executes n

/-- The worker has a packet under the timer, and the packet's table is not final. -/
def UnderTimer (s : Server) (worker : WorkerRef) : Prop :=
  ∃ p ∈ s.packetTimeout.timedPackets, ∃ o ∈ s.outPackets.get p, ∃ i ∈ o.outData,
    ∃ st ∈ s.outgoingDataRegistry.states.get i,
      st.worker = some worker ∧ st.taskStatus ≠ .dataFinal

/-- The passes take the worker off the list, and its packets are pending. -/
def RemovedBy (s : Server) (worker : WorkerRef) (n : ℕ) : Prop :=
  ∃ w s', s.getWorker worker = some w ∧ s.executes n = .ok s' ∧
    worker ∉ s'.workerRegistry.currentWorkerList ∧
    ∀ p ∈ w.ackPendingQueue ++ w.senderQueue, p ∈ s'.senderCoreData.pendingPacketsList

/-- From a reachable state, passes of `execute` leave the workers as they are. -/
lemma Evolves.executes (hs : s.Sound) (h : s.executes n = .ok s') : Evolves s s' := by
  induction n generalizing s with
  | zero =>
    cases h
    exact .refl _
  | succ n ih =>
    simp only [Server.executes, Outcome.bind_eq_ok] at h
    obtain ⟨t, hexecute, h⟩ := h
    have hpass := Evolves.execute hs.registered hexecute
    exact hpass.trans (ih (hpass.sound hs) h)

/-- In every reachable state: a registered worker is never removed, by four passes of `execute` in a
row or by any number of them. -/
theorem not_removedBy {addFlag : ℕ → Bool} {starveCounter : ℕ → UInt8} {js : List ServerJob}
    (h : run work (init addFlag starveCounter) js = .ok s)
    (hlisted : worker ∈ s.workerRegistry.currentWorkerList) (n : ℕ) :
    ¬ s.RemovedBy worker n := by
  rintro ⟨w, s', -, hexecutes, hgone, -⟩
  rw [(Evolves.executes (sound_of_run h) hexecutes).list] at hgone
  exact hgone hlisted

/-- The only worker has been sent the only template. -/
theorem not_removedBy_sent : ∃ s,
    run work (init (fun _ => false) (fun _ => 0))
      [.call (.registerWorker [1]), .call (.updateTemplates [⟨"T", 0, some "rule"⟩]),
       .startSenderCore, .call (.getQueuedPacket "1")] = .ok s ∧
    0 ∈ s.workerRegistry.currentWorkerList ∧ s.UnderTimer 0 ∧ ¬ s.RemovedBy 0 4 := by
  obtain ⟨s, hs, hlisted, htimed⟩ : ∃ s, run work (init (fun _ => false) (fun _ => 0))
      [.call (.registerWorker [1]), .call (.updateTemplates [⟨"T", 0, some "rule"⟩]),
       .startSenderCore, .call (.getQueuedPacket "1")] = .ok s ∧
      (0 ∈ s.workerRegistry.currentWorkerList ∧
        ∃ p ∈ s.packetTimeout.timedPackets, ∃ o ∈ s.outPackets.get p, ∃ i ∈ o.outData,
          ∃ st ∈ s.outgoingDataRegistry.states.get i,
            st.worker = some 0 ∧ st.taskStatus ≠ .dataFinal) :=
    Outcome.exists_ok_of_eval (by decide)
  exact ⟨s, hs, hlisted, htimed, not_removedBy hs hlisted 4⟩

/-- Four passes return, and the worker, which has been silent all along, is still on the list. -/
theorem executes_silent : ∃ s s',
    run work (init (fun _ => false) (fun _ => 0))
      [.call (.registerWorker [1]), .call (.updateTemplates [⟨"T", 0, some "rule"⟩]),
       .startSenderCore, .call (.getQueuedPacket "1")] = .ok s ∧
    s.UnderTimer 0 ∧ s.executes 4 = .ok s' ∧ 0 ∈ s'.workerRegistry.currentWorkerList := by
  obtain ⟨s, hs, htimed, hcall⟩ : ∃ s, run work (init (fun _ => false) (fun _ => 0))
      [.call (.registerWorker [1]), .call (.updateTemplates [⟨"T", 0, some "rule"⟩]),
       .startSenderCore, .call (.getQueuedPacket "1")] = .ok s ∧
      ((∃ p ∈ s.packetTimeout.timedPackets, ∃ o ∈ s.outPackets.get p, ∃ i ∈ o.outData,
          ∃ st ∈ s.outgoingDataRegistry.states.get i,
            st.worker = some 0 ∧ st.taskStatus ≠ .dataFinal) ∧
        (s.executes 4).toOption.any fun s' => decide (0 ∈ s'.workerRegistry.currentWorkerList)) :=
    Outcome.exists_ok_of_eval (by decide)
  obtain ⟨s', hs', hstays⟩ := Outcome.exists_ok_of_eval hcall
  exact ⟨s, s', hs, htimed, hs', hstays⟩

end Server

end ServerUnit
