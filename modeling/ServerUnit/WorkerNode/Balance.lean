import ServerUnit.Lib.Machine
import ServerUnit.WorkerNode.Rules

/-!
# The balance of the worker lock

`workerLock` guards the two queues of a worker, and each call on the worker is to leave it as it
was. A run here is any sequence of calls on one worker, each with the packets, the tables and the
timer as it finds them.

`getQueuedPacket` posts the lock on each of its ways out, and on one of them twice: with the
re-send flag set and nothing pending it posts the lock, goes on, and posts it again.
-/

namespace ServerUnit

open Lib

/-- A call on a worker, with what it finds around the worker. -/
inductive QueueCall where
  | queuePacket (packet : OutPacketRef)
  | getQueuedPacket (mem : Heap OutPacket) (timer : Timeout)
  | matchAckablePacket (mem : Heap OutPacket) (states : Heap OutgoingDataState) (timer : Timeout)
      (id : String)
  | pushToFront (outPacket : OutPacketRef)

namespace Worker

def call (w : Worker) : QueueCall → Outcome Worker
  | .queuePacket packet => do
    let (w, _) ← w.queuePacket packet
    return w
  | .getQueuedPacket mem timer => do
    let (w, _, _) ← w.getQueuedPacket mem timer
    return w
  | .matchAckablePacket mem states timer id => do
    let (w, _, _, _) ← w.matchAckablePacket mem states timer id
    return w
  | .pushToFront outPacket => w.pushToFront outPacket

/-- The re-send flag has outlived the packets it was set for. -/
def StaleFlag (w : Worker) : Prop := w.ackPacketPop = true ∧ w.ackPendingQueue = []

/-- The call does not read the queues while the re-send flag is stale. -/
def FlagBacked (w : Worker) : QueueCall → Prop
  | .getQueuedPacket _ _ => ¬ w.StaleFlag
  | _ => True

variable {mem : Heap OutPacket} {timer timer' : Timeout} {w w' : Worker}
  {out : Option ServerPacket}

/-- The second half of `getQueuedPacket` posts the lock once, on each of its ways out. -/
lemma SendRule.workerLock (h : SendRule mem timer w w' timer' out) :
    w'.workerLock = w.workerLock + 1 := by
  cases h with
  | idle | limited | skipped | acked | plain => rfl

/-- The whole call returns the unit that it took, and one more when the flag was stale. -/
lemma getQueuedPacket_workerLock (h : w.getQueuedPacket mem timer = .ok (w', timer', out)) :
    (w.StaleFlag → w'.workerLock = w.workerLock + 1) ∧
      (¬ w.StaleFlag → w'.workerLock = w.workerLock) := by
  cases GetRule.of_getQueuedPacket h with
  | resend p rest o hlock hflag hq ho =>
    refine ⟨fun hstale => ?_, fun _ => rfl⟩
    rw [hstale.2] at hq
    cases hq
  | unlocked _ _ _ hlock hflag hq hrule =>
    exact ⟨fun _ => hrule.workerLock, fun hnot => absurd ⟨hflag, hq⟩ hnot⟩
  | locked _ _ _ lock hlock hflag hrule =>
    refine ⟨fun hstale => ?_, fun _ => hrule.workerLock.trans hlock.symm⟩
    rw [hstale.1] at hflag
    cases hflag

/-- A call on a worker whose lock is free leaves it free exactly when it does not read the queues
under a stale flag. -/
lemma call_workerLock {e : QueueCall} (hw : w.workerLock = 1) (h : w.call e = .ok w') :
    w'.workerLock = 1 ↔ w.FlagBacked e := by
  cases e with
  | queuePacket packet =>
    simp only [call, Outcome.bind_eq_ok, Outcome.pure_eq_ok] at h
    obtain ⟨⟨v, rc⟩, hq, rfl⟩ := h
    refine iff_of_true ?_ trivial
    rcases queuePacket_cases hq with ⟨-, rfl, -⟩ | ⟨-, -, -, rfl⟩
    · exact hw
    · exact hw
  | getQueuedPacket mem timer =>
    simp only [call, Outcome.bind_eq_ok, Outcome.pure_eq_ok] at h
    obtain ⟨⟨v, timer', out⟩, hg, rfl⟩ := h
    obtain ⟨hstale, hbacked⟩ := getQueuedPacket_workerLock hg
    dsimp only [FlagBacked]
    constructor
    · intro hone hs
      have htwo := hstale hs
      omega
    · intro hs
      rw [hbacked hs, hw]
  | matchAckablePacket mem states timer id =>
    simp only [call, Outcome.bind_eq_ok, Outcome.pure_eq_ok] at h
    obtain ⟨⟨v, timer', mem', found⟩, hm, rfl⟩ := h
    refine iff_of_true ?_ trivial
    rcases matchAckablePacket_cases hm with ⟨-, _, _, _, -, -, rfl, -⟩ | ⟨-, -, rfl, -⟩
    · exact hw
    · exact hw
  | pushToFront outPacket =>
    obtain ⟨-, rfl⟩ := pushToFront_eq_ok.mp h
    exact iff_of_true hw trivial

/-- Over any run of calls on a worker whose lock is free: it is free after each of them exactly when
none of them reads the queues while the re-send flag is set with nothing pending. -/
theorem run_workerLock_iff {es : List QueueCall} (hw : w.workerLock = 1)
    (h : run call w es = .ok w') :
    (∀ es₁ v, es₁ <+: es → run call w es₁ = .ok v → v.workerLock = 1) ↔
      Meets call FlagBacked w es := by
  symm
  apply meets_iff_forall_prefix (I := fun v => v.workerLock = 1) ?_ hw h
  exact fun _ _ _ hone hcall => call_workerLock hone hcall

/-- A packet of the table `T`. -/
def tableHeap : Heap OutPacket := ⟨[some (.new ⟨.spDataSent, "1000", .empty⟩ (some 0) true)]⟩

/-- The packet is sent, times out and is acknowledged before it is sent again; the next read of
the queues finds the flag still set. -/
def lateAcknowledgement : List QueueCall :=
  [.queuePacket 0, .getQueuedPacket tableHeap .new, .pushToFront 0,
   .matchAckablePacket tableHeap ⟨[some ⟨"T", .dataReady, some 0⟩]⟩ ⟨[], [0], 1⟩ "T",
   .getQueuedPacket ⟨[none]⟩ .new]

theorem run_workerLock_iff_late : ∃ w', run call (new "1000") lateAcknowledgement = .ok w' ∧
    ((∀ es₁ v, es₁ <+: lateAcknowledgement → run call (new "1000") es₁ = .ok v →
      v.workerLock = 1) ↔ Meets call FlagBacked (new "1000") lateAcknowledgement) :=
  Outcome.exists_ok_and (by decide) fun _ h => run_workerLock_iff rfl h

theorem run_workerLock_late : ∃ w', run call (new "1000") lateAcknowledgement = .ok w' ∧
    w'.workerLock = 2 :=
  Outcome.exists_ok_of_eval (by decide)

end Worker

end ServerUnit
