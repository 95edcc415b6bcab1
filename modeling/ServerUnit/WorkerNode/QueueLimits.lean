import ServerUnit.WorkerNode.Balance

/-!
# The limits of the worker queues

`senderQueue` is to hold at most `WORKER_QUEUE_SIZE` packets and `ackPendingQueue` half as many.
Both tests compare with `>` before one more packet is put in, so each queue takes one packet too
many when it is exactly full. A run is any sequence of calls on one worker, where only a packet
that is pending is pushed to the front.
-/

namespace ServerUnit

open Lib

namespace Worker

def limitedCall (w : Worker) (e : QueueCall) : Outcome Worker :=
  match e with
  | .pushToFront outPacket => Outcome.guard (outPacket ∈ w.ackPendingQueue) (w.call e)
  | _                      => w.call e

structure WithinLimits (w : Worker) : Prop where
  sender : w.senderQueue.length ≤ WORKER_QUEUE_SIZE
  pending : w.ackPendingQueue.length ≤ WORKER_QUEUE_SIZE / 2

/-- `queuePacket` returns 1 exactly when the queue is full, and then leaves the worker as it is. -/
def RefusesWhenFull (w : Worker) (packet : OutPacketRef) : Prop :=
  ∀ w' rc, w.queuePacket packet = .ok (w', rc) →
    (rc = 1 ↔ w.senderQueue.length = WORKER_QUEUE_SIZE) ∧ (rc = 1 → w' = w)

/-- After the call the queues are within their limits, and a full one has refused its packet. -/
def LimitsKept (w : Worker) (e : QueueCall) : Prop :=
  (∀ w', w.limitedCall e = .ok w' → w'.WithinLimits) ∧
    match e with
    | .queuePacket packet => w.RefusesWhenFull packet
    | _                   => True

/-- The front of the queue needs an acknowledgement, and no packet is to be sent again first. -/
def SendsAckable (mem : Heap OutPacket) (w : Worker) : Prop :=
  ¬ (w.ackPacketPop = true ∧ w.ackPendingQueue ≠ []) ∧
    ∃ p queue o, w.senderQueue = p :: queue ∧ mem.get p = some o ∧ o.ackable = true

/-- The queue that the call puts a packet in is not full. -/
def HasRoom (w : Worker) : QueueCall → Prop
  | .queuePacket _         => w.senderQueue.length < WORKER_QUEUE_SIZE
  | .getQueuedPacket mem _ =>
    w.SendsAckable mem → w.ackPendingQueue.length < WORKER_QUEUE_SIZE / 2
  | _                      => True

variable {mem : Heap OutPacket} {timer timer' : Timeout} {w w' : Worker} {p : OutPacketRef}
  {out : Option ServerPacket}

lemma WithinLimits.new (workerUID : String) : (new workerUID).WithinLimits :=
  ⟨Nat.zero_le _, Nat.zero_le _⟩

/-! ### `queuePacket` -/

/-- Below its limit the queue takes the packet. -/
lemma queuePacket_of_lt (hroom : w.senderQueue.length < WORKER_QUEUE_SIZE) {rc : ℕ}
    (h : w.queuePacket p = .ok (w', rc)) :
    rc = 0 ∧ w' = { w with senderQueue := w.senderQueue ++ [p] } := by
  rcases queuePacket_cases h with ⟨hfull, -⟩ | ⟨-, -, rfl, rfl⟩
  · omega
  · exact ⟨rfl, rfl⟩

/-- A queue that is exactly full takes one more. -/
lemma queuePacket_of_eq (hfull : w.senderQueue.length = WORKER_QUEUE_SIZE) {rc : ℕ}
    (h : w.queuePacket p = .ok (w', rc)) :
    rc = 0 ∧ w' = { w with senderQueue := w.senderQueue ++ [p] } := by
  rcases queuePacket_cases h with ⟨hover, -⟩ | ⟨-, -, rfl, rfl⟩
  · omega
  · exact ⟨rfl, rfl⟩

/-! ### `getQueuedPacket` -/

/-- The second half of `getQueuedPacket` stays within the limits, if the pending queue has room for
a front that needs an acknowledgement. -/
lemma SendRule.withinLimits (h : SendRule mem timer w w' timer' out) (hw : w.WithinLimits)
    (hroom : ∀ p queue o, w.senderQueue = p :: queue → mem.get p = some o → o.ackable = true →
      w.ackPendingQueue.length < WORKER_QUEUE_SIZE / 2) : w'.WithinLimits := by
  have hsender := hw.sender
  cases h with
  | idle | limited => exact ⟨hw.sender, hw.pending⟩
  | skipped before after p previous o o' hlimit hq =>
    rw [hq, List.length_append, List.length_cons] at hsender
    refine ⟨?_, hw.pending⟩
    rw [List.length_append]
    omega
  | acked p queue o hlimit hq ho hack =>
    have hlt := hroom p queue o hq ho hack
    rw [hq, List.length_cons] at hsender
    refine ⟨by dsimp only; omega, ?_⟩
    rw [List.length_append, List.length_singleton]
    exact hlt
  | plain p queue o hq =>
    rw [hq, List.length_cons] at hsender
    exact ⟨by dsimp only; omega, hw.pending⟩

/-- A front that needs an acknowledgement moves to a pending queue that is exactly full. -/
lemma SendRule.pending_of_full (h : SendRule mem timer w w' timer' out) {queue : List OutPacketRef}
    {o : OutPacket} (hq : w.senderQueue = p :: queue) (ho : mem.get p = some o)
    (hack : o.ackable = true) (hfull : w.ackPendingQueue.length = WORKER_QUEUE_SIZE / 2) :
    w'.ackPendingQueue.length = WORKER_QUEUE_SIZE / 2 + 1 := by
  cases h with
  | idle hidle =>
    rw [hq] at hidle
    cases hidle
  | limited hlimit => omega
  | skipped _ _ _ _ _ _ hlimit => omega
  | acked => rw [List.length_append, List.length_singleton, hfull]
  | plain _ _ _ hq' ho' hack' =>
    rw [hq] at hq'
    cases hq'
    cases ho.symm.trans ho'
    rw [hack] at hack'
    cases hack'

/-- A read of the queues within their limits stays within them exactly when it has room. -/
lemma getQueuedPacket_withinLimits (hw : w.WithinLimits)
    (h : w.getQueuedPacket mem timer = .ok (w', timer', out)) :
    w'.WithinLimits ↔
      (w.SendsAckable mem → w.ackPendingQueue.length < WORKER_QUEUE_SIZE / 2) := by
  cases GetRule.of_getQueuedPacket h with
  | resend p rest o hlock hflag hq ho =>
    refine iff_of_true ⟨hw.sender, hw.pending⟩ fun hsends => ?_
    exact absurd ⟨hflag, by simp [hq]⟩ hsends.1
  | unlocked _ _ _ hlock hflag hq hrule =>
    have hroom : w.ackPendingQueue.length < WORKER_QUEUE_SIZE / 2 := by
      rw [hq]
      decide
    exact iff_of_true (hrule.withinLimits ⟨hw.sender, hw.pending⟩ fun _ _ _ _ _ _ => hroom)
      fun _ => hroom
  | locked _ _ _ lock hlock hflag hrule =>
    constructor
    · rintro hw' ⟨-, p, queue, o, hq, ho, hack⟩
      by_contra hfull
      have hpending := hw.pending
      have hover := hrule.pending_of_full hq ho hack (by dsimp only; omega)
      have hpending' := hw'.pending
      omega
    · intro hroom
      refine hrule.withinLimits ⟨hw.sender, hw.pending⟩ fun p queue o hq ho hack => ?_
      exact hroom ⟨by simp [hflag], p, queue, o, hq, ho, hack⟩

/-! ### Calls and runs -/

/-- A packet moved to the front of the pending queue is not one more. -/
lemma length_cons_filter_ne {ps : List OutPacketRef} (hp : p ∈ ps) :
    (p :: ps.filter (· ≠ p)).length ≤ ps.length := by
  have hlt : (ps.filter (· ≠ p)).length < ps.length :=
    List.length_filter_lt_length_iff_exists.mpr ⟨p, hp, by simp⟩
  rw [List.length_cons]
  omega

/-- A call on a worker within its limits keeps the limits exactly when it has room. -/
lemma limitsKept_iff {e : QueueCall} (hw : w.WithinLimits) (h : w.limitedCall e = .ok w') :
    w.LimitsKept e ↔ w.HasRoom e := by
  have hafter : (∀ v, w.limitedCall e = .ok v → v.WithinLimits) ↔ w'.WithinLimits := by
    rw [h]
    simp
  unfold LimitsKept
  rw [hafter]
  cases e with
  | queuePacket packet =>
    simp only [limitedCall, call, Outcome.bind_eq_ok, Outcome.pure_eq_ok] at h
    obtain ⟨⟨v, rc⟩, hqueue, rfl⟩ := h
    constructor
    · rintro ⟨hwithin, hrefuses⟩
      refine lt_of_le_of_ne hw.sender fun hfull => ?_
      -- a full queue returns 0 and takes the packet
      have hone := (hrefuses v rc hqueue).1.mpr hfull
      rw [(queuePacket_of_eq hfull hqueue).1] at hone
      cases hone
    · intro hroom
      have hlt : w.senderQueue.length < WORKER_QUEUE_SIZE := hroom
      obtain ⟨-, rfl⟩ := queuePacket_of_lt hlt hqueue
      refine ⟨⟨?_, hw.pending⟩, fun v' rc' hqueue' => ?_⟩
      · rw [List.length_append, List.length_singleton]
        exact hlt
      · obtain ⟨rfl, -⟩ := queuePacket_of_lt hlt hqueue'
        exact ⟨iff_of_false (by decide) hlt.ne, fun hone => by cases hone⟩
  | getQueuedPacket mem timer =>
    simp only [limitedCall, call, Outcome.bind_eq_ok, Outcome.pure_eq_ok] at h
    obtain ⟨⟨v, timer', out⟩, hget, rfl⟩ := h
    exact (and_iff_left trivial).trans (getQueuedPacket_withinLimits hw hget)
  | matchAckablePacket mem states timer id =>
    simp only [limitedCall, call, Outcome.bind_eq_ok, Outcome.pure_eq_ok] at h
    obtain ⟨⟨v, timer', mem', found⟩, hmatch, rfl⟩ := h
    refine iff_of_true ⟨?_, trivial⟩ trivial
    rcases matchAckablePacket_cases hmatch with ⟨-, before, after, p, hq, -, rfl, -⟩ | ⟨-, -, rfl, -⟩
    · have hpending := hw.pending
      rw [hq, List.length_append, List.length_cons] at hpending
      refine ⟨hw.sender, ?_⟩
      rw [List.length_append]
      omega
    · exact hw
  | pushToFront outPacket =>
    simp only [limitedCall, call, Outcome.guard_eq_ok, pushToFront_eq_ok] at h
    obtain ⟨hmem, -, rfl⟩ := h
    refine iff_of_true ⟨⟨hw.sender, ?_⟩, trivial⟩ trivial
    exact (length_cons_filter_ne hmem).trans hw.pending

/-- Over any run of calls on a new worker the limits are kept exactly when no call puts a packet in
a full queue. -/
theorem run_limitsKept_iff {workerUID : String} {es : List QueueCall}
    (h : run limitedCall (new workerUID) es = .ok w') :
    Meets limitedCall LimitsKept (new workerUID) es ↔
      Meets limitedCall HasRoom (new workerUID) es := by
  refine Meets.congr (I := WithinLimits) ?_ ?_ (.new workerUID) (.of_run h)
  · rintro w e hw ⟨v, hv⟩
    exact limitsKept_iff hw hv
  · intro w e v _ hkept hv
    exact hkept.1 v hv

theorem run_limitsKept_iff_acknowledged :
    ∃ w', run limitedCall (new "1000") lateAcknowledgement = .ok w' ∧
      (Meets limitedCall LimitsKept (new "1000") lateAcknowledgement ↔
        Meets limitedCall HasRoom (new "1000") lateAcknowledgement) :=
  Outcome.exists_ok_and (by decide) fun _ h => run_limitsKept_iff h

/-- A run that keeps the limits ends within them. -/
lemma withinLimits_of_meets {workerUID : String} {es : List QueueCall}
    (hmeets : Meets limitedCall LimitsKept (new workerUID) es)
    (h : run limitedCall (new workerUID) es = .ok w') : w'.WithinLimits := by
  refine run_induct (I := WithinLimits) ?_ (.new workerUID) hmeets h
  intro w e v _ hkept hv
  exact hkept.1 v hv

/-- One packet more than the queue may hold. -/
def overfill : List QueueCall := (List.range (WORKER_QUEUE_SIZE + 1)).map .queuePacket

/-- Packets that need an acknowledgement. -/
def tablesHeap : Heap OutPacket :=
  ⟨List.replicate (WORKER_QUEUE_SIZE / 2 + 1)
    (some (.new ⟨.spDataSent, "1000", .empty⟩ (some 0) true))⟩

/-- They are queued and sent one by one, one more than may be pending. -/
def oversend : List QueueCall :=
  (List.range (WORKER_QUEUE_SIZE / 2 + 1)).flatMap fun p =>
    [.queuePacket p, .getQueuedPacket tablesHeap .new]

/-- Each queue can be brought over its limit. -/
theorem run_over_limits :
    (∃ w', run limitedCall (new "1000") overfill = .ok w' ∧ w'.senderQueue.length = 21) ∧
    (∃ w', run limitedCall (new "1000") oversend = .ok w' ∧ w'.ackPendingQueue.length = 11) ∧
    ¬ Meets limitedCall LimitsKept (new "1000") overfill ∧
    ¬ Meets limitedCall LimitsKept (new "1000") oversend := by
  have hfill : ∃ w', run limitedCall (new "1000") overfill = .ok w' ∧
      w'.senderQueue.length = 21 := Outcome.exists_ok_of_eval (by decide)
  have hsend : ∃ w', run limitedCall (new "1000") oversend = .ok w' ∧
      w'.ackPendingQueue.length = 11 := Outcome.exists_ok_of_eval (by decide)
  refine ⟨hfill, hsend, fun hmeets => ?_, fun hmeets => ?_⟩
  · obtain ⟨w', hrun, hlength⟩ := hfill
    have hlimit := (withinLimits_of_meets hmeets hrun).sender
    rw [hlength] at hlimit
    exact absurd hlimit (by decide)
  · obtain ⟨w', hrun, hlength⟩ := hsend
    have hlimit := (withinLimits_of_meets hmeets hrun).pending
    rw [hlength] at hlimit
    exact absurd hlimit (by decide)

end Worker

end ServerUnit
