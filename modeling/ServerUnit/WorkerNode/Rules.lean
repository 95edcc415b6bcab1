import ServerUnit.WorkerNode.Basic

/-!
# What the calls on a worker can do

Each call of `worker.cpp` has one lemma here that lists its outcomes, as the rules of an
inductive relation where there are several. Later files case on these and never unfold
the calls.
-/

namespace ServerUnit

open Lib

namespace Worker

variable {mem : Heap OutPacket} {states : Heap OutgoingDataState} {timer timer' : Timeout}
  {w w' : Worker} {p : OutPacketRef}

/-! ### `queuePacket`, `pushToFront`, `shutDown` -/

lemma queuePacket_cases {rc : ℕ} (h : w.queuePacket p = .ok (w', rc)) :
    (WORKER_QUEUE_SIZE < w.senderQueue.length ∧ w' = w ∧ rc = 1) ∨
    (w.senderQueue.length ≤ WORKER_QUEUE_SIZE ∧ 0 < w.workerLock ∧ rc = 0 ∧
      w' = { w with senderQueue := w.senderQueue ++ [p] }) := by
  unfold queuePacket at h
  split_ifs at h with hfull
  · left
    simp only [Outcome.pure_eq_ok, Prod.mk.injEq] at h
    exact ⟨hfull, h.1.symm, h.2.symm⟩
  · right
    simp only [Outcome.bind_eq_ok, semWait_eq_ok, Outcome.pure_eq_ok, Prod.mk.injEq] at h
    obtain ⟨lock, hlock, rfl, rfl⟩ := h
    refine ⟨by omega, by omega, rfl, ?_⟩
    rw [semPost, ← hlock]

@[simp] lemma pushToFront_eq_ok :
    w.pushToFront p = .ok w' ↔ 0 < w.workerLock ∧
      w' = { w with
        ackPendingQueue := p :: w.ackPendingQueue.filter (· ≠ p)
        ackPacketPop := true } := by
  simp only [pushToFront, Outcome.bind_eq_ok, semWait_eq_ok, Outcome.pure_eq_ok]
  constructor
  · rintro ⟨lock, hlock, rfl⟩
    exact ⟨by omega, by rw [semPost, ← hlock]⟩
  · rintro ⟨hpos, rfl⟩
    exact ⟨w.workerLock - 1, by omega, by simp [semPost, Nat.sub_add_cancel hpos]⟩

@[simp] lemma shutDown_eq_ok {ps : List OutPacketRef} :
    w.shutDown = .ok (w', ps) ↔
      0 < w.workerLock ∧ w' = w ∧ ps = w.ackPendingQueue ++ w.senderQueue := by
  simp only [shutDown, Outcome.bind_eq_ok, semWait_eq_ok, Outcome.pure_eq_ok, Prod.mk.injEq]
  constructor
  · rintro ⟨lock, hlock, rfl, rfl⟩
    refine ⟨by omega, ?_, rfl⟩
    simp [semPost, ← hlock]
  · rintro ⟨hpos, rfl, rfl⟩
    exact ⟨w'.workerLock - 1, by omega, by simp [semPost, Nat.sub_add_cancel hpos], rfl⟩

/-! ### `getQueuedPacket` -/

/-- The test by which the full queue is searched for a packet that needs no acknowledgement. -/
lemma notAckable_eq_ok {q : OutPacketRef} {b : Bool} :
    (do return !(← mem.deref q).ackable : Outcome Bool) = .ok b ↔
      ∃ o, mem.get q = some o ∧ (!o.ackable) = b := by
  simp

/-- The outcomes of the second half of `getQueuedPacket`. -/
inductive SendRule (mem : Heap OutPacket) (timer : Timeout) (w : Worker) :
    Worker → Timeout → Option ServerPacket → Prop where
  /-- Nothing is queued. -/
  | idle (hq : w.senderQueue = []) :
      SendRule mem timer w { w with workerLock := w.workerLock + 1 } timer none
  /-- The pending queue is over its limit and every queued packet needs an acknowledgement. -/
  | limited (hlimit : WORKER_QUEUE_SIZE / 2 < w.ackPendingQueue.length)
      (hall : ∀ q ∈ w.senderQueue, ∃ o, mem.get q = some o ∧ o.ackable = true) :
      SendRule mem timer w { w with workerLock := w.workerLock + 1 } timer none
  /-- The pending queue is over its limit: the first packet that needs no acknowledgement
  leaves, and the JSON of the packet before it is returned. -/
  | skipped (before after : List OutPacketRef) (p previous : OutPacketRef) (o o' : OutPacket)
      (hlimit : WORKER_QUEUE_SIZE / 2 < w.ackPendingQueue.length)
      (hq : w.senderQueue = before ++ p :: after)
      (hbefore : ∀ q ∈ before, ∃ o, mem.get q = some o ∧ o.ackable = true)
      (ho : mem.get p = some o) (hack : o.ackable = false)
      (hlast : before.getLast? = some previous) (ho' : mem.get previous = some o') :
      SendRule mem timer w
        { w with senderQueue := before ++ after, workerLock := w.workerLock + 1 }
        timer (some o'.packet)
  /-- The front is sent and waits for its acknowledgement. -/
  | acked (p : OutPacketRef) (queue : List OutPacketRef) (o : OutPacket)
      (hlimit : w.ackPendingQueue.length ≤ WORKER_QUEUE_SIZE / 2)
      (hq : w.senderQueue = p :: queue) (ho : mem.get p = some o) (hack : o.ackable = true)
      (hlock : 0 < timer.timeoutListLock) :
      SendRule mem timer w
        { w with
          senderQueue := queue
          ackPendingQueue := w.ackPendingQueue ++ [p]
          workerLock := w.workerLock + 1 }
        { timer with timedPackets := timer.timedPackets ++ [p] } (some o.packet)
  /-- The front is sent and needs no acknowledgement. -/
  | plain (p : OutPacketRef) (queue : List OutPacketRef) (o : OutPacket)
      (hq : w.senderQueue = p :: queue) (ho : mem.get p = some o) (hack : o.ackable = false) :
      SendRule mem timer w { w with senderQueue := queue, workerLock := w.workerLock + 1 }
        timer (some o.packet)

lemma SendRule.of_sendQueued {out : Option ServerPacket}
    (h : w.sendQueued mem timer = .ok (w', timer', out)) :
    SendRule mem timer w w' timer' out := by
  unfold sendQueued at h
  split at h
  next hq =>
    simp only [Outcome.pure_eq_ok, Prod.mk.injEq] at h
    obtain ⟨rfl, rfl, rfl⟩ := h
    exact .idle hq
  next p queue hq =>
    simp only [Outcome.bind_eq_ok, Heap.deref_eq_ok] at h
    obtain ⟨o, ho, h⟩ := h
    split_ifs at h with hack hlimit
    · simp only [Outcome.bind_eq_ok] at h
      obtain ⟨split, hsplit, h⟩ := h
      cases split with
      | none =>
        simp only [Outcome.pure_eq_ok, Prod.mk.injEq] at h
        obtain ⟨rfl, rfl, rfl⟩ := h
        refine .limited hlimit fun q hmem => ?_
        obtain ⟨o, ho, hb⟩ := notAckable_eq_ok.mp (splitFirst_eq_none hsplit q hmem)
        exact ⟨o, ho, by simpa using hb⟩
      | some found =>
        obtain ⟨before, r, after⟩ := found
        simp only [Outcome.bind_eq_ok, Outcome.ofOption_eq_ok, Heap.deref_eq_ok,
          Outcome.pure_eq_ok, Prod.mk.injEq] at h
        obtain ⟨previous, hlast, o', ho', rfl, rfl, rfl⟩ := h
        obtain ⟨hsq, hbefore, hr⟩ := splitFirst_eq_some hsplit
        obtain ⟨or, hor, hb⟩ := notAckable_eq_ok.mp hr
        refine .skipped before after r previous or o' hlimit hsq (fun q hmem => ?_) hor
          (by simpa using hb) hlast ho'
        obtain ⟨oq, hoq, hbq⟩ := notAckable_eq_ok.mp (hbefore q hmem)
        exact ⟨oq, hoq, by simpa using hbq⟩
    · simp only [Outcome.bind_eq_ok, Timeout.addPacket_eq_ok, Outcome.pure_eq_ok,
        Prod.mk.injEq] at h
      obtain ⟨_, ⟨hlock, rfl⟩, rfl, rfl, rfl⟩ := h
      exact .acked p queue o (by omega) hq ho hack hlock
    · simp only [Outcome.pure_eq_ok, Prod.mk.injEq] at h
      obtain ⟨rfl, rfl, rfl⟩ := h
      exact .plain p queue o hq ho (by simpa using hack)

/-- The outcomes of `getQueuedPacket`. -/
inductive GetRule (mem : Heap OutPacket) (timer : Timeout) (w : Worker) :
    Worker → Timeout → Option ServerPacket → Prop where
  /-- The front of the pending queue is returned once more. -/
  | resend (p : OutPacketRef) (rest : List OutPacketRef) (o : OutPacket)
      (hlock : 0 < w.workerLock) (hflag : w.ackPacketPop = true)
      (hq : w.ackPendingQueue = p :: rest) (ho : mem.get p = some o) :
      GetRule mem timer w { w with ackPacketPop := false } timer (some o.packet)
  /-- The re-send flag was set with nothing pending: the lock has been posted already. -/
  | unlocked (w' : Worker) (timer' : Timeout) (out : Option ServerPacket)
      (hlock : 0 < w.workerLock) (hflag : w.ackPacketPop = true)
      (hq : w.ackPendingQueue = [])
      (h : SendRule mem timer { w with ackPacketPop := false } w' timer' out) :
      GetRule mem timer w w' timer' out
  | locked (w' : Worker) (timer' : Timeout) (out : Option ServerPacket) (lock : ℕ)
      (hlock : w.workerLock = lock + 1) (hflag : w.ackPacketPop = false)
      (h : SendRule mem timer { w with workerLock := lock } w' timer' out) :
      GetRule mem timer w w' timer' out

lemma GetRule.of_getQueuedPacket {out : Option ServerPacket}
    (h : w.getQueuedPacket mem timer = .ok (w', timer', out)) :
    GetRule mem timer w w' timer' out := by
  simp only [getQueuedPacket, Outcome.bind_eq_ok, semWait_eq_ok] at h
  obtain ⟨lock, hlock, h⟩ := h
  split_ifs at h with hflag
  · split at h
    next p rest hq =>
      simp only [Outcome.bind_eq_ok, Heap.deref_eq_ok, Outcome.pure_eq_ok, Prod.mk.injEq] at h
      obtain ⟨o, ho, rfl, rfl, rfl⟩ := h
      have hrule : GetRule mem timer w _ _ _ := .resend p rest o (by omega) hflag hq ho
      rwa [semPost, ← hlock]
    next hq =>
      have hw : ({ w with ackPacketPop := false, workerLock := semPost lock } : Worker) =
          { w with ackPacketPop := false } := by rw [semPost, ← hlock]
      rw [hw] at h
      exact .unlocked w' timer' out (by omega) hflag hq (.of_sendQueued h)
  · exact .locked w' timer' out lock hlock (by simpa using hflag) (.of_sendQueued h)

/-- What a call of `getQueuedPacket` does to the two queues and the timer list. -/
inductive QueueMove (mem : Heap OutPacket) (timer : Timeout)
    (senderQueue ackPendingQueue : List OutPacketRef) :
    List OutPacketRef → List OutPacketRef → Timeout → Prop where
  /-- They stay. -/
  | stay : QueueMove mem timer senderQueue ackPendingQueue senderQueue ackPendingQueue timer
  /-- The front goes to the pending queue and under the timer. -/
  | toPending (p : OutPacketRef) (queue : List OutPacketRef) (o : OutPacket)
      (hlimit : ackPendingQueue.length ≤ WORKER_QUEUE_SIZE / 2)
      (hq : senderQueue = p :: queue) (ho : mem.get p = some o) (hack : o.ackable = true) :
      QueueMove mem timer senderQueue ackPendingQueue queue (ackPendingQueue ++ [p])
        { timer with timedPackets := timer.timedPackets ++ [p] }
  /-- A packet that needs no acknowledgement leaves. -/
  | leave (before after : List OutPacketRef) (p : OutPacketRef) (o : OutPacket)
      (hq : senderQueue = before ++ p :: after) (ho : mem.get p = some o)
      (hack : o.ackable = false) :
      QueueMove mem timer senderQueue ackPendingQueue (before ++ after) ackPendingQueue timer

/-- A packet in one of the queues was in one of them before. -/
lemma QueueMove.queued {senderQueue ackPendingQueue senderQueue' ackPendingQueue' : List OutPacketRef}
    (h : QueueMove mem timer senderQueue ackPendingQueue senderQueue' ackPendingQueue' timer')
    (hp : p ∈ senderQueue' ++ ackPendingQueue') : p ∈ senderQueue ++ ackPendingQueue := by
  cases h with
  | stay => exact hp
  | toPending q queue o hlimit hq =>
    simp only [hq, List.mem_append, List.mem_cons, List.not_mem_nil, or_false] at hp ⊢
    tauto
  | leave before after q o hq =>
    simp only [hq, List.mem_append, List.mem_cons] at hp ⊢
    tauto

lemma QueueMove.timedoutWorkerRegistry
    {senderQueue ackPendingQueue senderQueue' ackPendingQueue' : List OutPacketRef}
    (h : QueueMove mem timer senderQueue ackPendingQueue senderQueue' ackPendingQueue' timer') :
    timer'.timedoutWorkerRegistry = timer.timedoutWorkerRegistry := by
  cases h with
  | stay | toPending | leave => rfl

lemma SendRule.move {out : Option ServerPacket} (h : SendRule mem timer w w' timer' out) :
    QueueMove mem timer w.senderQueue w.ackPendingQueue w'.senderQueue w'.ackPendingQueue
        timer' ∧
      w' = { w with
        senderQueue := w'.senderQueue
        ackPendingQueue := w'.ackPendingQueue
        workerLock := w'.workerLock } := by
  cases h with
  | idle | limited => exact ⟨.stay, rfl⟩
  | skipped before after p previous o o' hlimit hq hbefore ho hack =>
    exact ⟨.leave before after p o hq ho hack, rfl⟩
  | acked p queue o hlimit hq ho hack => exact ⟨.toPending p queue o hlimit hq ho hack, rfl⟩
  | plain p queue o hq ho hack => exact ⟨.leave [] queue p o hq ho hack, rfl⟩

/-- `getQueuedPacket` changes the queues as one of the moves, and of the worker's other fields
only the re-send flag and the lock. -/
lemma getQueuedPacket_move {out : Option ServerPacket}
    (h : w.getQueuedPacket mem timer = .ok (w', timer', out)) :
    QueueMove mem timer w.senderQueue w.ackPendingQueue w'.senderQueue w'.ackPendingQueue
        timer' ∧
      w' = { w with
        senderQueue := w'.senderQueue
        ackPendingQueue := w'.ackPendingQueue
        ackPacketPop := false
        workerLock := w'.workerLock } := by
  cases GetRule.of_getQueuedPacket h with
  | resend => exact ⟨.stay, rfl⟩
  | unlocked _ _ _ _ _ _ hrule => exact hrule.move
  | locked _ _ _ _ _ hflag hrule =>
    obtain ⟨hmove, hw⟩ := hrule.move
    exact ⟨hmove, hw.trans (by simp [hflag])⟩

/-! ### `matchAckablePacket` -/

lemma hasId_eq_ok {id : String} {b : Bool} :
    hasId mem states id p = .ok b ↔
      ∃ o r st, mem.get p = some o ∧ o.outData = some r ∧ states.get r = some st ∧
        (st.id == id) = b := by
  simp [hasId]

/-- Either the first pending packet with the id is taken off the queue and the timer and
destroyed, or there is none and nothing changes. -/
lemma matchAckablePacket_cases {mem' : Heap OutPacket} {id : String} {found : Bool}
    (h : w.matchAckablePacket mem states timer id = .ok (w', timer', mem', found)) :
    (found = true ∧ ∃ before after p,
      w.ackPendingQueue = before ++ p :: after ∧ hasId mem states id p = .ok true ∧
      w' = { w with ackPendingQueue := before ++ after } ∧
      timer' = { timer with timedPackets := timer.timedPackets.filter (· ≠ p) } ∧
      mem' = mem.free p) ∨
    (found = false ∧ (∀ p ∈ w.ackPendingQueue, hasId mem states id p = .ok false) ∧
      w' = w ∧ timer' = timer ∧ mem' = mem) := by
  simp only [matchAckablePacket, Outcome.bind_eq_ok, semWait_eq_ok] at h
  obtain ⟨lock, hlock, split, hsplit, h⟩ := h
  cases split with
  | none =>
    right
    simp only [Outcome.pure_eq_ok, Prod.mk.injEq] at h
    obtain ⟨rfl, rfl, rfl, rfl⟩ := h
    refine ⟨rfl, splitFirst_eq_none hsplit, ?_, rfl, rfl⟩
    rw [semPost, ← hlock]
  | some found =>
    obtain ⟨before, p, after⟩ := found
    left
    simp only [Outcome.bind_eq_ok, Timeout.popPacket_eq_ok, Outcome.pure_eq_ok,
      Prod.mk.injEq] at h
    obtain ⟨_, ⟨_, rfl⟩, rfl, rfl, rfl, rfl⟩ := h
    obtain ⟨hq, -, hp⟩ := splitFirst_eq_some hsplit
    refine ⟨rfl, before, after, p, hq, hp, ?_, rfl, rfl⟩
    rw [semPost, ← hlock]

end Worker

end ServerUnit
