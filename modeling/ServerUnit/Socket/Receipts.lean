import ServerUnit.Socket.Protocol

/-!
# What becomes of the packets received

The receiver sink is pushed to with the lowest priority only, so that it is a queue. When the calls
on it are one step, the packets it took are processed in the order of their arrival, each once, and as
long as one waits in it a validator is there to process it, or a session is about to add one.
-/

namespace ServerUnit

open Lib

/-! ### The receiver sink -/

/-- No item is less starved than one of the lowest priority, so that goes to the end. -/
lemma Sink.place_lowest {α : Type} (item : SinkItem α) (items : List (SinkItem α)) :
    place item (calculateStarveCounter .defaultPriority) items = items ++ [item] := by
  have hnone : items.findIdx?
      (fun i => i.starveCounter.toNat < calculateStarveCounter .defaultPriority) = none := by
    simp [List.findIdx?_eq_none_iff, calculateStarveCounter]
  rw [place, hnone]

namespace Server

variable {s s' : Server}

/-- A packet is refused by a full sink, and else is the last one in it. -/
lemma receivePacket_objects {packet : Json} (h : s.receivePacket packet = .ok s') :
    s'.receiverSink.objects =
      if s.receiverSink.getCurrentSinkSpace < MAX_POOL_SIZE then s.receiverSink.objects ++ [packet]
      else s.receiverSink.objects := by
  simp only [receivePacket, Outcome.bind_eq_ok, Outcome.pure_eq_ok, Prod.exists] at h
  obtain ⟨sink, rc, hpush, rfl⟩ := h
  rcases Sink.pushObject_cases hpush with ⟨hfull, rfl, -⟩ | ⟨hroom, -, -, rfl⟩
  · have hspace : ¬ s.receiverSink.getCurrentSinkSpace < MAX_POOL_SIZE := Nat.not_lt.mpr hfull
    rw [if_neg hspace]
  · have hspace : s.receiverSink.getCurrentSinkSpace < MAX_POOL_SIZE := hroom
    rw [if_pos hspace, Sink.objects, Sink.place_lowest, List.map_append]
    rfl

/-- A validator takes the first packet. -/
lemma startValidator_objects {status : JobStatus} (h : s.startValidator = .ok (s', status)) :
    s.receiverSink.objects = s.receiverSink.objects.take 1 ++ s'.receiverSink.objects := by
  simp only [startValidator, Outcome.bind_eq_ok, Prod.exists] at h
  obtain ⟨sink, object, hpop, h⟩ := h
  rcases Sink.popObject_cases hpop with ⟨hnil, rfl, rfl⟩ | ⟨item, items, hcons, rfl, rfl⟩
  · cases h
    simp [Sink.objects, hnil]
  · simp only [Outcome.bind_eq_ok, Outcome.pure_eq_ok, Prod.mk.injEq] at h
    obtain ⟨t, ht, rfl, -⟩ := h
    have hsink := (ValidatorRule.of_frame (f := Server.receiverSink)
      fun _ _ _ _ _ _ _ _ => rfl).processPacket ht
    simp [Sink.objects, hsink, hcons]

lemma executeLoop_receiverSink {timedPackets : List OutPacketRef} {returned : Bool}
    (hs : s.Sound) (h : s.executeLoop timedPackets = .ok (s', returned)) :
    s'.receiverSink = s.receiverSink := by
  induction timedPackets generalizing s with
  | nil =>
    cases h
    rfl
  | cons p timedPackets ih =>
    cases ExecuteRule.of_executeLoop h with
    | checkOut o ho hstatus hloop =>
      have hput : Evolves s { s with outPackets := s.outPackets.put p o.checkOut } :=
        .of_frame rfl (Heap.next_put _ _ _) rfl
      have hrest := ih (hput.sound hs) hloop
      exact hrest
    | resend o i st worker w t ho hstatus hdata hst hworker hw hpush hloop =>
      rw [ih ((Evolves.pushToFront hpush).sound hs) hloop]
      obtain ⟨_, -, -, rfl⟩ := pushToFront_eq_ok.mp hpush
      rfl
    | absent worker w hw habsent =>
      rw [hs.registered.attends worker w hw] at habsent
      cases habsent

lemma getQueuedPacketOf_receiverSink {worker : WorkerRef} {packet : Option ServerPacket}
    (h : s.getQueuedPacketOf worker = .ok (s', packet)) : s'.receiverSink = s.receiverSink := by
  simp only [getQueuedPacketOf, Outcome.bind_eq_ok, Outcome.pure_eq_ok, Prod.mk.injEq] at h
  obtain ⟨w, -, ⟨w', timer, out⟩, -, rfl, -⟩ := h
  rfl

/-- The threads in the background leave the receiver sink alone. -/
lemma step_receiverSink {e : ServerEvent} (he : e.isBackground = true) (hs : s.Sound)
    (h : s.step e = .ok s') : s'.receiverSink = s.receiverSink := by
  cases e with
  | updateTemplates templateStruct =>
    obtain ⟨_, _, _, -, rfl⟩ := updateTemplates_eq_ok.mp h
    rfl
  | pushUserTable userDataTable =>
    obtain ⟨_, _, _, _, rfl⟩ := pushUserTable_frame h
    rfl
  | execute =>
    obtain ⟨lock, lock', t, returned, hloop, rfl⟩ := execute_loop h
    have hlock : Evolves s { s with
        packetTimeout := { s.packetTimeout with timeoutListLock := lock } } :=
      .of_frame rfl rfl rfl
    have hrest := executeLoop_receiverSink (hlock.sound hs) hloop
    exact hrest
  | registerWorker | pushInstanceToWorkerQueue | pushUserDataToWorkerQueue | getQueuedPacket
  | acknowledge => cases he

end Server

namespace Reception

variable {n : ℕ} {r r' : Reception n}

/-- The server does what does not touch the sink. -/
lemma Inv.server {server : Server} (h : r.Inv)
    (hsink : server.receiverSink = r.server.receiverSink) : Inv { r with server } := by
  refine ⟨h.consistent, h.senderCore, fun hne => h.attended ?_⟩
  rwa [← hsink]

end Reception

namespace Program

variable {n : ℕ} {x x' : Program n} {c : SessionRef} {s : Session}

/-- What the receiver sink accepted was processed or waits, in one order; it was a packet in a message
of some session. -/
structure Ordered (x : Program n) : Prop where
  inOrder : x.accepted = x.processed ++ x.server.receiverSink.objects
  bounded : x.server.receiverSink.objects.length ≤ MAX_POOL_SIZE
  origin : ∀ packet ∈ x.accepted, validateJson packet = true ∧
    ∃ c s, x.connections.get c = some s ∧ packet ∈ s.messages

/-- While packets wait a validator is there, or a session is about to add one. -/
structure Receipts (x : Program n) : Prop extends Ordered x where
  attended : x.server.receiverSink.objects ≠ [] →
    x.sched.Attends ∨ ∃ c s, x.connections.get c = some s ∧ s.pc.isPushed = true

/-- The sessions that the reception counts are those about to call `init_validator`. -/
structure Counted (x : Program n) : Prop where
  reception : x.toReception.Inv
  sessions : x.sessions = x.connections.countP fun s => s.pc.isPushed

lemma Counted.receipts (h : x.Counted) (hordered : x.Ordered) : x.Receipts := by
  refine ⟨hordered, fun hne => ?_⟩
  have hitems : x.server.receiverSink.sinkItemList ≠ [] := by
    intro hnil
    rw [Sink.objects, hnil] at hne
    exact hne rfl
  refine (h.reception.attended hitems).imp_right fun hpos => ?_
  rw [h.sessions] at hpos
  exact Heap.exists_of_countP_pos hpos

lemma counted_init (addFlag : ℕ → Bool) (starveCounter : ℕ → UInt8) (totalThreads : ℤ) :
    (init (.init addFlag starveCounter) n totalThreads).Counted ∧
      (init (.init addFlag starveCounter) n totalThreads).Ordered := by
  refine ⟨⟨.init rfl, rfl⟩, ⟨rfl, Nat.zero_le _, ?_⟩⟩
  intro packet hmem
  cases hmem

/-- The sessions keep what they have read. -/
lemma Ordered.origin_of_put (h : x.Ordered) (hs : x.connections.get c = some s) (s' : Session)
    (hpre : s.messages <+: s'.messages) {packet : Json} (hmem : packet ∈ x.accepted) :
    validateJson packet = true ∧
      ∃ d t, (x.connections.put c s').get d = some t ∧ packet ∈ t.messages := by
  obtain ⟨hvalid, d, t, ht, hpacket⟩ := h.origin packet hmem
  refine ⟨hvalid, d, ?_⟩
  rw [Heap.get_put hs]
  split_ifs with heq
  · subst heq
    cases hs.symm.trans ht
    exact ⟨s', rfl, hpre.mem hpacket⟩
  · exact ⟨t, ht, hpacket⟩

lemma taken_startProc {i : Fin n} {r : JobRef} {timer : JobTimer} {job : QueueJob ServerProcess}
    (hcur : x.sched.currentJob i = .ok (r, timer)) (hjob : x.sched.jobs.get r = some job) :
    x.taken (.startProc i) =
      if job.args = .validator then x.server.receiverSink.objects.take 1 else [] := by
  simp [taken, hcur, Heap.deref, hjob, Outcome.ofOption]

variable [NeZero n]

/-- A step of the scheduler and its threads takes a packet off the sink or none, and the sessions go
on without it. -/
lemma objects_of_step {e : ReceptionEvent n} {reception : Reception n}
    (he : e.isScheduled = true) (h : x.toReception.step e = .ok reception) :
    x.server.receiverSink.objects = x.taken e ++ reception.server.receiverSink.objects ∧
      reception.sessions = x.sessions := by
  have hquiet : ∀ {e : SchedEvent ServerProcess n} {y}, x.toReception.schedule e = .ok y →
      y.server = x.server ∧ y.sessions = x.sessions := by
    intro e y hy
    obtain ⟨sched, -, rfl⟩ := Reception.schedule_cases hy
    exact ⟨rfl, rfl⟩
  cases e with
  | start =>
    simp only [Reception.step, Outcome.guard_eq_ok, Outcome.bind_eq_ok, Outcome.pure_eq_ok] at h
    obtain ⟨-, y, hy, rfl⟩ := h
    obtain ⟨hserver, hsessions⟩ := hquiet hy
    exact ⟨by simp [taken, hserver], hsessions⟩
  | startProc i =>
    simp only [Reception.step, Reception.startProc, Outcome.bind_eq_ok, Heap.deref_eq_ok,
      Outcome.pure_eq_ok, Prod.exists] at h
    obtain ⟨r, timer, hcur, job, hjob, server, status, hstart, y, hy, rfl⟩ := h
    refine ⟨?_, (hquiet hy).2⟩
    rw [taken_startProc hcur hjob]
    cases hargs : job.args with
    | senderCore =>
      rw [hargs] at hstart
      rw [if_neg (by decide), Sink.objects, Sink.objects,
        ← Server.startSenderCore_receiverSink hstart]
      rfl
    | validator =>
      rw [hargs] at hstart
      rw [if_pos rfl]
      exact Server.startValidator_objects hstart
  | receivePacket | initValidator => cases he
  | countSlots | place | pauseProc | endProc | advance | timer =>
    obtain ⟨hserver, hsessions⟩ := hquiet h
    exact ⟨by simp [taken, hserver], hsessions⟩

/-! ### What a handler does with the packet -/

/-- The other statements of a handler leave the sink and the scheduler alone. -/
def LeavesSink (x : Program n) (c : SessionRef) (s : Session) (x' : Program n) : Prop :=
  ∃ server s', x'.toReception = { x.toReception with server } ∧
    server.receiverSink = x.server.receiverSink ∧ x'.accepted = x.accepted ∧
    x'.processed = x.processed ∧ x'.connections = x.connections.put c s' ∧
    s.pc.isPushed = false ∧ s'.pc.isPushed = false ∧ s.messages <+: s'.messages

/-- A handler pushes its packet, or adds a validator, or does neither. -/
lemma Handled.receipt (h : Handled x c s x') :
    (∃ worker reception, s.pc = .modeSet worker ∧
      x.toReception.step (.receivePacket s.packet) = .ok reception ∧
      x' = { x.putSession c { s with pc := .pushed worker } with
        toReception := reception
        accepted :=
          if x.server.receiverSink.getCurrentSinkSpace < MAX_POOL_SIZE then
            x.accepted ++ [s.packet]
          else x.accepted }) ∨
    (∃ worker reception, s.pc = .pushed worker ∧
      x.toReception.step .initValidator = .ok reception ∧
      x' = { x.putSession c { s with pc := .polling worker } with toReception := reception }) ∨
    LeavesSink x c s x' := by
  cases h with
  | pushed worker reception hpc hstep => exact .inl ⟨worker, reception, hpc, hstep, rfl⟩
  | scheduled worker reception hpc hstep => exact .inr (.inl ⟨worker, reception, hpc, hstep, rfl⟩)
  | refused _ _ hpc | stranger _ _ _ hpc | known _ _ _ _ hpc =>
    exact .inr (.inr ⟨_, _, rfl, rfl, rfl, rfl, rfl, by rw [hpc]; rfl, rfl, List.prefix_append _ _⟩)
  | disconnected _ hpc | quick _ _ hpc | again _ _ hpc | written _ hpc | rewritten _ _ hpc
  | broken _ _ hpc =>
    exact .inr (.inr ⟨_, _, rfl, rfl, rfl, rfl, rfl, by rw [hpc]; rfl, rfl, List.prefix_refl _⟩)
  | registered _ _ _ hpc =>
    exact .inr (.inr ⟨_, _, rfl, rfl, rfl, rfl, rfl, by rw [hpc]; rfl, rfl, List.prefix_refl _⟩)
  | modeSet worker server hpc hmode =>
    obtain ⟨w, quick, -, -, rfl⟩ := Server.setMode_eq_ok hmode
    exact .inr (.inr ⟨_, _, rfl, rfl, rfl, rfl, rfl, by rw [hpc]; rfl, rfl, List.prefix_refl _⟩)
  | idle worker server hpc hget =>
    have hsink := Server.getQueuedPacketOf_receiverSink hget
    exact .inr (.inr ⟨_, _, rfl, hsink, rfl, rfl, rfl, by rw [hpc]; rfl, rfl, List.prefix_refl _⟩)
  | served worker server outPacket hpc hget =>
    have hsink := Server.getQueuedPacketOf_receiverSink hget
    exact .inr (.inr ⟨_, _, rfl, hsink, rfl, rfl, rfl, by rw [hpc]; rfl, rfl, List.prefix_refl _⟩)

/-! ### Every run -/

namespace Counted

lemma handled (h : x.Counted) (hs : x.connections.get c = some s) (hhandled : Handled x c s x') :
    x'.Counted := by
  have hcount : ∀ s' : Session,
      (x.connections.put c s').countP (fun s => s.pc.isPushed) +
          (if s.pc.isPushed then 1 else 0) =
        x.sessions + if s'.pc.isPushed then 1 else 0 := by
    intro s'
    rw [h.sessions]
    exact Heap.countP_put hs
  rcases hhandled.receipt with ⟨worker, reception, hpc, hstep, rfl⟩ |
    ⟨worker, reception, hpc, hstep, rfl⟩ |
    ⟨server, s', hreception, hsink, -, -, hconnections, hpushed, hpushed', -⟩
  · refine ⟨h.reception.step hstep, ?_⟩
    have hput := hcount { s with pc := .pushed worker }
    simp only [Reception.step, Outcome.bind_eq_ok, Outcome.pure_eq_ok] at hstep
    obtain ⟨server, -, rfl⟩ := hstep
    rw [hpc] at hput
    exact hput.symm
  · refine ⟨h.reception.step hstep, ?_⟩
    have hput := hcount { s with pc := .polling worker }
    simp only [Reception.step, Outcome.guard_eq_ok, Outcome.bind_eq_ok, Outcome.pure_eq_ok]
      at hstep
    obtain ⟨hpos, y, -, rfl⟩ := hstep
    rw [hpc] at hput
    exact (Nat.eq_sub_of_add_eq hput).symm
  · have hput := hcount s'
    rw [hpushed, hpushed'] at hput
    refine ⟨?_, ?_⟩
    · rw [hreception]
      exact h.reception.server hsink
    · rw [hconnections, hreception]
      exact hput.symm

lemma step (h : x.Counted) (hkept : x.Kept) (hstep : Stepped x x') : x'.Counted := by
  cases hstep with
  | connected =>
    refine ⟨h.reception, ?_⟩
    rw [Heap.countP_alloc]
    exact h.sessions
  | processed e reception he hstep =>
    refine ⟨h.reception.step hstep, ?_⟩
    show reception.sessions = _
    rw [(objects_of_step he hstep).2]
    exact h.sessions
  | called e server he hstep =>
    exact ⟨h.reception.server (Server.step_receiverSink he hkept.sound hstep), h.sessions⟩
  | handled c s _ hs hhandled => exact h.handled hs hhandled

end Counted

namespace Ordered

lemma handled (h : x.Ordered) (hkept : x.Kept) (hs : x.connections.get c = some s)
    (hhandled : Handled x c s x') : x'.Ordered := by
  rcases hhandled.receipt with ⟨worker, reception, hpc, hstep, rfl⟩ |
    ⟨worker, reception, hpc, hstep, rfl⟩ |
    ⟨server, s', hreception, hsink, haccepted, hprocessed, hconnections, -, -, hpre⟩
  · have hkeep := fun packet =>
      @origin_of_put _ _ _ _ h hs { s with pc := .pushed worker } (List.prefix_refl _) packet
    simp only [Reception.step, Outcome.bind_eq_ok, Outcome.pure_eq_ok] at hstep
    obtain ⟨server, hpush, rfl⟩ := hstep
    have hobjects := Server.receivePacket_objects hpush
    have hfollows := hkept.follows c s hs
    by_cases hroom : x.server.receiverSink.getCurrentSinkSpace < MAX_POOL_SIZE
    · rw [if_pos hroom] at hobjects
      refine ⟨?_, ?_, fun packet hmem => ?_⟩
      · simp only [if_pos hroom, hobjects, h.inOrder, List.append_assoc]
        rfl
      · simp only [hobjects, List.length_append, List.length_singleton]
        rw [Sink.objects, List.length_map]
        exact hroom
      · simp only [if_pos hroom] at hmem
        rcases List.mem_append.mp hmem with hmem | hmem
        · exact hkeep packet hmem
        · rw [List.mem_singleton.mp hmem]
          refine ⟨hfollows.valid (by rw [hpc]; rfl), c, _, Heap.get_put_self hs, ?_⟩
          show s.packet ∈ s.messages
          rw [hfollows.messages, Session.unanswered, hpc]
          exact List.mem_append_right _ (List.mem_singleton_self _)
    · rw [if_neg hroom] at hobjects
      refine ⟨?_, ?_, fun packet hmem => ?_⟩
      · simp only [if_neg hroom, hobjects, h.inOrder]
        rfl
      · rw [hobjects]
        exact h.bounded
      · simp only [if_neg hroom] at hmem
        exact hkeep packet hmem
  · simp only [Reception.step, Outcome.guard_eq_ok, Outcome.bind_eq_ok, Outcome.pure_eq_ok]
      at hstep
    obtain ⟨-, y, hy, rfl⟩ := hstep
    obtain ⟨sched, -, rfl⟩ := Reception.schedule_cases hy
    have hkeep := fun packet =>
      @origin_of_put _ _ _ _ h hs { s with pc := .polling worker } (List.prefix_refl _) packet
    exact ⟨h.inOrder, h.bounded, hkeep⟩
  · have hobjects : x'.server.receiverSink.objects = x.server.receiverSink.objects := by
      rw [hreception, hsink]
    refine ⟨?_, ?_, fun packet hmem => ?_⟩
    · rw [haccepted, hprocessed, hobjects]
      exact h.inOrder
    · rw [hobjects]
      exact h.bounded
    · rw [haccepted] at hmem
      rw [hconnections]
      exact h.origin_of_put hs s' hpre hmem

lemma step (h : x.Ordered) (hkept : x.Kept) (hstep : Stepped x x') : x'.Ordered := by
  cases hstep with
  | connected =>
    refine ⟨h.inOrder, h.bounded, fun packet hmem => ?_⟩
    obtain ⟨hvalid, d, t, ht, hpacket⟩ := h.origin packet hmem
    exact ⟨hvalid, d, t, Heap.get_alloc_of_get ht, hpacket⟩
  | processed e reception he hstep =>
    have hobjects := (objects_of_step he hstep).1
    refine ⟨?_, ?_, h.origin⟩
    · rw [List.append_assoc, ← hobjects]
      exact h.inOrder
    · have hbounded := h.bounded
      rw [hobjects, List.length_append] at hbounded
      exact (Nat.le_add_left _ _).trans hbounded
  | called e server he hstep =>
    have hsink := Server.step_receiverSink he hkept.sound hstep
    refine ⟨?_, ?_, h.origin⟩
    · rw [hsink]
      exact h.inOrder
    · rw [hsink]
      exact h.bounded
  | handled c s _ hs hhandled => exact h.handled hkept hs hhandled

end Ordered

lemma counted_of_run {addFlag : ℕ → Bool} {starveCounter : ℕ → UInt8} {totalThreads : ℤ}
    {es : List (ProgramEvent n)}
    (h : run step (init (.init addFlag starveCounter) n totalThreads) es = .ok x) :
    x.Kept ∧ x.Counted ∧ x.Ordered := by
  refine run_invariant (I := fun y : Program n => y.Kept ∧ y.Counted ∧ y.Ordered) ?_ ?_ h
  · intro y e y' hI hstep
    obtain ⟨hkept, hcounted, hordered⟩ := hI
    have hstepped := Stepped.of_step hstep
    exact ⟨hkept.step hstepped, hcounted.step hkept hstepped, hordered.step hkept hstepped⟩
  · exact ⟨kept_init _ _ _, counted_init _ _ _⟩

end Program

end ServerUnit
