import ServerUnit.WorkerNode.Acknowledgement

/-!
# The order in which packets go under acknowledgement

Packets that need no acknowledgement may leave the queue from its middle, re-sends reorder the
pending queue, and acknowledgements leave it from anywhere. None of this touches the order of
the ackable packets of the queue: they are first sent in the order in which they were accepted.

The machine makes any calls on one worker. The packets are there from the start, as `made`; an
acknowledgement destroys one. The tables and the timer are as the call finds them. Next to the
worker it records which ackable packets `queuePacket` accepted and which ones `getQueuedPacket`
put on the pending queue.
-/

namespace ServerUnit

open Lib

structure SendLog where
  mem : Heap OutPacket
  worker : Worker
  /-- The ackable packets that `queuePacket` accepted, in their order. -/
  accepted : List OutPacketRef
  /-- The packets that went from the queue to the pending queue, in their order. -/
  moved : List OutPacketRef

inductive SendEvent where
  | queuePacket (packet : OutPacketRef)
  | getQueuedPacket (timer : Timeout)
  | matchAckablePacket (states : Heap OutgoingDataState) (timer : Timeout) (id : String)
  | pushToFront (outPacket : OutPacketRef)

namespace SendLog

open Solo (isAckable)

def new (made : Heap OutPacket) (workerUID : String) : SendLog :=
  { mem := made, worker := .new workerUID, accepted := [], moved := [] }

/-- One call. What `getQueuedPacket` moves is what the pending queue has behind its old end. -/
def step (made : Heap OutPacket) (s : SendLog) : SendEvent → Outcome SendLog
  | .queuePacket packet => do
    let (worker, rc) ← s.worker.queuePacket packet
    return { s with
      worker
      accepted := if rc = 0 ∧ isAckable made packet then s.accepted ++ [packet] else s.accepted }
  | .getQueuedPacket timer => do
    let (worker, _, _) ← s.worker.getQueuedPacket s.mem timer
    return { s with
      worker
      moved := s.moved ++ worker.ackPendingQueue.drop s.worker.ackPendingQueue.length }
  | .matchAckablePacket states timer id => do
    let (worker, _, mem, _) ← s.worker.matchAckablePacket s.mem states timer id
    return { s with mem, worker }
  | .pushToFront outPacket => do
    let worker ← s.worker.pushToFront outPacket
    return { s with worker }

/-- The ackable packets that are still in the queue. -/
def waiting (made : Heap OutPacket) (s : SendLog) : List OutPacketRef :=
  s.worker.senderQueue.filter (isAckable made)

/-! ### The invariant -/

structure Inv (made : Heap OutPacket) (s : SendLog) : Prop where
  /-- A packet that is still there is as it was made. -/
  object : ∀ p o, s.mem.get p = some o → made.get p = some o
  order : s.moved ++ s.waiting made = s.accepted

variable {made : Heap OutPacket} {s s' : SendLog}

lemma inv_new (workerUID : String) : Inv made (new made workerUID) :=
  ⟨fun _ _ ho => ho, rfl⟩

namespace Inv

lemma isAckable_eq (h : Inv made s) {p : OutPacketRef} {o : OutPacket} (ho : s.mem.get p = some o) :
    isAckable made p = o.ackable := by
  rw [isAckable, h.object p o ho, Option.any_some]

/-- An accepted packet joins both ends of the equation, if it is ackable. -/
lemma queuePacket (h : Inv made s) {packet : OutPacketRef}
    (hs : step made s (.queuePacket packet) = .ok s') : Inv made s' := by
  simp only [step, Outcome.bind_eq_ok, Outcome.pure_eq_ok] at hs
  obtain ⟨⟨worker, rc⟩, hq, rfl⟩ := hs
  refine ⟨h.object, ?_⟩
  rcases Worker.queuePacket_cases hq with ⟨-, rfl, rfl⟩ | ⟨-, -, rfl, rfl⟩
  · simpa using h.order
  · simp only [waiting, List.filter_append, List.filter_singleton]
    cases hack : isAckable made packet with
    | false => simpa [waiting] using h.order
    | true =>
      rw [cond_true, ← List.append_assoc, ← h.order]
      rfl

/-- The front of the queue crosses over; a packet that leaves from the middle is not ackable. -/
lemma getQueuedPacket (h : Inv made s) {timer : Timeout}
    (hs : step made s (.getQueuedPacket timer) = .ok s') : Inv made s' := by
  simp only [step, Outcome.bind_eq_ok, Outcome.pure_eq_ok] at hs
  obtain ⟨⟨worker, timer', out⟩, hg, rfl⟩ := hs
  obtain ⟨hmove, -⟩ := Worker.getQueuedPacket_move hg
  have horder := h.order
  refine ⟨h.object, ?_⟩
  simp only [waiting] at horder ⊢
  generalize worker.senderQueue = queue' at hmove ⊢
  generalize worker.ackPendingQueue = pending' at hmove ⊢
  generalize s.worker.senderQueue = queue at hmove horder
  generalize s.worker.ackPendingQueue = pending at hmove ⊢
  cases hmove with
  | stay =>
    rw [List.drop_length, List.append_nil]
    exact horder
  | toPending p queue o hlimit hq ho hack =>
    rw [hq, List.filter_cons_of_pos ((h.isAckable_eq ho).trans hack)] at horder
    rw [List.drop_left, List.append_assoc, List.singleton_append]
    exact horder
  | leave before after p o hq ho hack =>
    have hnot : ¬ isAckable made p = true := by
      rw [h.isAckable_eq ho, hack]
      exact Bool.false_ne_true
    rw [hq, List.filter_append, List.filter_cons_of_neg hnot, ← List.filter_append] at horder
    rw [List.drop_length, List.append_nil]
    exact horder

/-- An acknowledgement destroys a packet and leaves the queue as it is. -/
lemma matchAckablePacket (h : Inv made s) {states : Heap OutgoingDataState} {timer : Timeout}
    {id : String} (hs : step made s (.matchAckablePacket states timer id) = .ok s') :
    Inv made s' := by
  simp only [step, Outcome.bind_eq_ok, Outcome.pure_eq_ok] at hs
  obtain ⟨⟨worker, timer', mem, found⟩, hm, rfl⟩ := hs
  rcases Worker.matchAckablePacket_cases hm with
    ⟨-, before, after, p, -, -, rfl, -, rfl⟩ | ⟨-, -, rfl, -, rfl⟩
  · refine ⟨fun q o ho => ?_, h.order⟩
    dsimp only at ho
    by_cases hqp : q = p
    · rw [hqp, Heap.get_free_self] at ho
      cases ho
    · rw [Heap.get_free_of_ne hqp] at ho
      exact h.object q o ho
  · exact h

lemma step (h : Inv made s) {e : SendEvent} (hs : step made s e = .ok s') : Inv made s' := by
  cases e with
  | queuePacket packet => exact h.queuePacket hs
  | getQueuedPacket timer => exact h.getQueuedPacket hs
  | matchAckablePacket states timer id => exact h.matchAckablePacket hs
  | pushToFront outPacket =>
    simp only [SendLog.step, Outcome.bind_eq_ok, Worker.pushToFront_eq_ok,
      Outcome.pure_eq_ok] at hs
    obtain ⟨_, ⟨-, rfl⟩, rfl⟩ := hs
    exact ⟨h.object, h.order⟩

end Inv

/-- After any calls on one worker: the packets that went under acknowledgement, in their order, and
then the ackable packets still queued are the ackable packets accepted, in the order in which they
were accepted. -/
theorem run_send_order (workerUID : String) (es : List SendEvent)
    (h : run (step made) (new made workerUID) es = .ok s) :
    s.moved ++ s.waiting made = s.accepted :=
  (run_invariant (fun _ _ _ hI hs => hI.step hs) (inv_new workerUID) h : Inv made s).order

/-- Two packets of the table `T`, with one in between that needs no acknowledgement. -/
def twoTables : Heap OutPacket :=
  ⟨[some (.new ⟨.spDataSent, "1000", .empty⟩ (some 0) true),
    some (.new ⟨.spDataSent, "1000", .empty⟩ none false),
    some (.new ⟨.spDataSent, "1000", .empty⟩ (some 0) true)]⟩

/-- The first packet is sent, timed out and acknowledged while the others wait. -/
theorem run_send_order_resend : ∃ s,
    run (step twoTables) (new twoTables "1000")
      [.queuePacket 0, .queuePacket 1, .queuePacket 2, .getQueuedPacket .new, .pushToFront 0,
       .matchAckablePacket ⟨[some ⟨"T", .dataReady, some 0⟩]⟩ ⟨[], [0], 1⟩ "T"] = .ok s ∧
    s.moved ++ s.waiting twoTables = s.accepted :=
  Outcome.exists_ok_and (by decide) fun _ hs => run_send_order "1000" _ hs

end SendLog

end ServerUnit
