import ServerUnit.Lib.Semaphore
import ServerUnit.Server.Steps
import ServerUnit.Server.Threads

/-!
# Worker locks and the lock of the timer list

A call takes its worker's lock and then, on some branches, the lock of the timer list. The timer
takes them the other way round. So there are interleavings in which each waits for the other,
and this file says which.
-/

namespace ServerUnit

open Lib

/-! ### Who holds what, and who waits for what -/

namespace ThreadPc

/-- The worker whose lock the call holds. -/
def holdsLock : ThreadPc → Option WorkerRef
  | .resend worker => some worker
  | .addPacket worker _ true => some worker
  | .addPacketPost worker _ true => some worker
  | .popPacket worker _ => some worker
  | .popPacketPost worker _ => some worker
  | .unlockWorker worker true _ => some worker
  | _ => none

/-- The worker whose lock the call waits for. -/
def awaitsLock : ThreadPc → Option WorkerRef
  | .lockWorker worker _ => some worker
  | _ => none

def holdsList : ThreadPc → Bool
  | .addPacketPost .. | .popPacketPost .. => true
  | _ => false

def awaitsList : ThreadPc → Bool
  | .addPacket .. | .popPacket .. => true
  | _ => false

/-- The worker whose lock the call holds while it waits for the list. -/
def stuckOn (pc : ThreadPc) : Option WorkerRef := if pc.awaitsList then pc.holdsLock else none

end ThreadPc

namespace TimerPc

def holdsLock : TimerPc → Option WorkerRef
  | .pushToFrontPost worker _ => some worker
  | _ => none

def awaitsLock : TimerPc → Option WorkerRef
  | .pushToFront worker _ _ => some worker
  | _ => none

def holdsList : TimerPc → Bool
  | .idle => false
  | _ => true

end TimerPc

namespace Threads

variable {Tid : Type}

/-- The worker whose lock a thread, or the timer (`none`), holds. -/
def holdsLock (s : Threads Tid) : Option Tid → Option WorkerRef
  | some tid => (s.pc tid).holdsLock
  | none => s.timer.holdsLock

def awaitsLock (s : Threads Tid) : Option Tid → Option WorkerRef
  | some tid => (s.pc tid).awaitsLock
  | none => s.timer.awaitsLock

def holdsList (s : Threads Tid) : Option Tid → Bool
  | some tid => (s.pc tid).holdsList
  | none => s.timer.holdsList

/-- The timer waits for the list when it starts. -/
def awaitsList (s : Threads Tid) : Option Tid → Bool
  | some tid => (s.pc tid).awaitsList
  | none => s.timer = .idle

/-- One holds a worker's lock and waits for the list, the other holds the list and waits for that
lock. -/
def Deadlocked (s : Threads Tid) : Prop :=
  ∃ a b worker, s.holdsLock a = some worker ∧ s.awaitsList a = true ∧ s.holdsList b = true ∧
    s.awaitsLock b = some worker

/-- Only a call and the timer can be in each other's way. -/
lemma deadlocked_iff {s : Threads Tid} : s.Deadlocked ↔
    ∃ tid worker, (s.pc tid).stuckOn = some worker ∧ s.timer.awaitsLock = some worker := by
  constructor
  · rintro ⟨a, b, worker, hlock, hlist, hheld, hawaited⟩
    cases b with
    | some tid =>
      -- a thread that has the list is past its wait for the lock
      simp only [holdsList, awaitsLock] at hheld hawaited
      cases hpc : s.pc tid <;> simp [hpc, ThreadPc.holdsList, ThreadPc.awaitsLock] at hheld hawaited
    | none =>
      cases a with
      | none =>
        simp only [holdsLock, awaitsLock] at hlock hawaited
        cases hpc : s.timer <;> simp [hpc, TimerPc.holdsLock, TimerPc.awaitsLock] at hlock hawaited
      | some tid =>
        simp only [holdsLock, awaitsList] at hlock hlist
        exact ⟨tid, worker, by rw [ThreadPc.stuckOn, if_pos hlist, hlock], hawaited⟩
  · rintro ⟨tid, worker, hstuck, hawaited⟩
    unfold ThreadPc.stuckOn at hstuck
    split_ifs at hstuck with hlist
    refine ⟨some tid, none, worker, hstuck, hlist, ?_, hawaited⟩
    simp only [holdsList]
    cases hpc : s.timer <;> simp [hpc, TimerPc.awaitsLock, TimerPc.holdsList] at hawaited ⊢

end Threads

/-! ### Which steps go on to the other lock -/

namespace Server

/-- The branch that a call takes, once it has the worker's lock, uses the timer list. -/
def UsesList (s : Server) (w : Worker) : WorkerCall → Prop
  | .getQueuedPacket => w.ackPacketPop = false ∧ ∃ p ∈ w.senderQueue.head?,
      ∃ o ∈ s.outPackets.get p, o.ackable = true ∧
        w.ackPendingQueue.length ≤ WORKER_QUEUE_SIZE / 2
  | .matchAckablePacket id => ∃ p ∈ w.ackPendingQueue,
      Worker.hasId s.outPackets s.outgoingDataRegistry.states id p = .ok true

/-- The worker that is recorded for the first of the timed packets that was not checked in. The
loop checks out those before it. -/
def nextResend (mem : Heap OutPacket) (states : Heap OutgoingDataState) :
    List OutPacketRef → Option WorkerRef
  | [] => none
  | p :: timedPackets =>
    (mem.get p).bind fun o =>
      if o.status then nextResend (mem.put p o.checkOut) states timedPackets
      else o.outData.bind fun i => (states.get i).bind fun st => st.worker

/-- The timed packets that the timer's next step looks at. -/
def upcoming (s : Server) : TimerPc → List OutPacketRef
  | .idle => s.packetTimeout.timedPackets
  | .pushToFrontPost _ rest => rest
  | _ => []

variable {s s' : Server} {worker : WorkerRef} {w : Worker} {locked : Bool} {pc pc' : ThreadPc}
  {t t' : TimerPc} {timedPackets : List OutPacketRef}

/-- Without the worker's lock the call is in nobody's way. -/
lemma chooseQueued_stuckOn (h : s.chooseQueued worker w locked = .ok (s', pc)) (b : WorkerRef) :
    pc.stuckOn = some b ↔ locked = true ∧ worker = b ∧ ∃ p ∈ w.senderQueue.head?,
      ∃ o ∈ s.outPackets.get p, o.ackable = true ∧
        w.ackPendingQueue.length ≤ WORKER_QUEUE_SIZE / 2 := by
  unfold chooseQueued at h
  split at h
  next hnil =>
    cases h
    simp [ThreadPc.stuckOn, ThreadPc.awaitsList, hnil]
  next p queue hcons =>
    simp only [Outcome.bind_eq_ok, Heap.deref_eq_ok] at h
    obtain ⟨o, ho, h⟩ := h
    split_ifs at h with hack hfull
    · -- the pending queue is too full
      have hlong : ¬ w.ackPendingQueue.length ≤ WORKER_QUEUE_SIZE / 2 := by omega
      simp only [Outcome.bind_eq_ok] at h
      obtain ⟨found, -, h⟩ := h
      split at h
      · simp only [Outcome.bind_eq_ok] at h
        obtain ⟨previous, -, h⟩ := h
        cases h
        simp [ThreadPc.stuckOn, ThreadPc.awaitsList, hlong]
      · cases h
        simp [ThreadPc.stuckOn, ThreadPc.awaitsList, hlong]
    · cases h
      have hshort : w.ackPendingQueue.length ≤ WORKER_QUEUE_SIZE / 2 := by omega
      cases locked <;>
        simp [ThreadPc.stuckOn, ThreadPc.awaitsList, ThreadPc.holdsLock, hcons, ho, hack, hshort]
    · cases h
      simp [ThreadPc.stuckOn, ThreadPc.awaitsList, hcons, ho, hack]

/-- With the lock of a worker taken, the call waits for the list when its branch uses the list. -/
lemma lockWorker_stuckOn {call : WorkerCall} (h : s.lockWorker worker w call = .ok (s', pc))
    (b : WorkerRef) : pc.stuckOn = some b ↔ worker = b ∧ s.UsesList w call := by
  cases call with
  | getQueuedPacket =>
    simp only [lockWorker, Outcome.bind_eq_ok, semWait_eq_ok] at h
    obtain ⟨lock, -, h⟩ := h
    split_ifs at h with hflag
    · cases h
      simp [ThreadPc.stuckOn, ThreadPc.awaitsList, UsesList, hflag]
    · rw [chooseQueued_stuckOn h]
      simp [UsesList, hflag]
  | matchAckablePacket id =>
    simp only [lockWorker, Outcome.bind_eq_ok, semWait_eq_ok] at h
    obtain ⟨lock, -, found, hfound, h⟩ := h
    cases found with
    | some found =>
      obtain ⟨before, p, after⟩ := found
      cases h
      obtain ⟨hlist, -, hp⟩ := splitFirst_eq_some hfound
      have huses : s.UsesList w (.matchAckablePacket id) := ⟨p, by rw [hlist]; simp, hp⟩
      simp [ThreadPc.stuckOn, ThreadPc.awaitsList, ThreadPc.holdsLock, huses]
    | none =>
      cases h
      have hnone := splitFirst_eq_none hfound
      have hnot : ¬ s.UsesList w (.matchAckablePacket id) := by
        rintro ⟨p, hp, htrue⟩
        exact absurd ((hnone p hp).symm.trans htrue) (by simp)
      simp [ThreadPc.stuckOn, ThreadPc.awaitsList, hnot]

/-- A step leaves a call waiting for the list with a worker's lock exactly when it takes that
lock and goes on to the list. -/
lemma threadStep_stuckOn (h : s.threadStep pc = .ok (s', pc')) (b : WorkerRef) :
    pc'.stuckOn = some b ↔
      ∃ call w, pc = .lockWorker b call ∧ s.getWorker b = some w ∧ s.UsesList w call := by
  cases pc with
  | lockWorker worker call =>
    simp only [threadStep, Outcome.bind_eq_ok, Heap.deref_eq_ok] at h
    obtain ⟨w, hw, h⟩ := h
    rw [lockWorker_stuckOn h]
    constructor
    · rintro ⟨rfl, huses⟩
      exact ⟨call, w, rfl, hw, huses⟩
    · rintro ⟨_, w', heq, hw', huses⟩
      cases heq
      cases hw.symm.trans hw'
      exact ⟨rfl, huses⟩
  | resendTest worker =>
    simp only [threadStep, Outcome.bind_eq_ok, Heap.deref_eq_ok] at h
    obtain ⟨w, -, h⟩ := h
    refine iff_of_false ?_ (by simp)
    split at h
    · simp only [Outcome.bind_eq_ok] at h
      obtain ⟨o, -, h⟩ := h
      cases h
      simp [ThreadPc.stuckOn, ThreadPc.awaitsList]
    · rw [chooseQueued_stuckOn h]
      simp
  | idle last => cases h
  | resend worker =>
    simp only [threadStep, Outcome.bind_eq_ok] at h
    obtain ⟨w, -, h⟩ := h
    cases h
    simp [ThreadPc.stuckOn, ThreadPc.awaitsList]
  | addPacket worker p locked =>
    simp only [threadStep, Outcome.bind_eq_ok] at h
    obtain ⟨lock, -, h⟩ := h
    cases h
    simp [ThreadPc.stuckOn, ThreadPc.awaitsList]
  | popPacket worker p =>
    simp only [threadStep, Outcome.bind_eq_ok] at h
    obtain ⟨lock, -, h⟩ := h
    cases h
    simp [ThreadPc.stuckOn, ThreadPc.awaitsList]
  | addPacketPost worker p locked =>
    simp only [threadStep, Outcome.bind_eq_ok] at h
    obtain ⟨w, -, front, -, h⟩ := h
    cases h
    simp [ThreadPc.stuckOn, ThreadPc.awaitsList]
  | popPacketPost worker p =>
    simp only [threadStep, Outcome.bind_eq_ok] at h
    obtain ⟨w, -, h⟩ := h
    cases h
    simp [ThreadPc.stuckOn, ThreadPc.awaitsList]
  | unlockWorker worker locked value =>
    simp only [threadStep, Outcome.bind_eq_ok] at h
    obtain ⟨w, -, reply, -, h⟩ := h
    cases h
    simp [ThreadPc.stuckOn, ThreadPc.awaitsList]

/-- The loop comes to the worker of the first packet that was not checked in. -/
lemma scanTimed_awaitsLock (h : s.scanTimed timedPackets = .ok (s', t')) :
    t'.awaitsLock = nextResend s.outPackets s.outgoingDataRegistry.states timedPackets := by
  induction timedPackets generalizing s with
  | nil =>
    cases h
    rfl
  | cons p timedPackets ih =>
    simp only [scanTimed, Outcome.bind_eq_ok, Heap.deref_eq_ok, Outcome.ofOption_eq_ok] at h
    obtain ⟨o, ho, i, hi, st, hst, h⟩ := h
    rw [nextResend, ho, Option.bind_some]
    split_ifs at h ⊢ with hstatus
    · exact ih (Outcome.guard_eq_ok.mp h).2
    · simp only [Outcome.bind_eq_ok, Outcome.ofOption_eq_ok, Heap.deref_eq_ok] at h
      obtain ⟨worker, hworker, w, -, h⟩ := h
      rw [hi, Option.bind_some, hst, Option.bind_some, hworker]
      split_ifs at h with hatt
      · cases h
        rfl
      · obtain ⟨-, h⟩ := Outcome.guard_eq_ok.mp h
        cases h
        rfl

lemma timerStep_awaitsLock (h : s.timerStep t = .ok (s', t')) :
    t'.awaitsLock = nextResend s.outPackets s.outgoingDataRegistry.states (s.upcoming t) := by
  cases t with
  | idle =>
    simp only [timerStep, Outcome.bind_eq_ok] at h
    obtain ⟨lock, -, h⟩ := h
    have hscan := scanTimed_awaitsLock h
    exact hscan
  | pushToFront worker p rest =>
    simp only [timerStep, Outcome.bind_eq_ok] at h
    obtain ⟨w, -, lock, -, h⟩ := h
    cases h
    rfl
  | pushToFrontPost worker rest =>
    simp only [timerStep, Outcome.bind_eq_ok] at h
    obtain ⟨w, -, h⟩ := h
    have hscan := scanTimed_awaitsLock h
    exact hscan
  | unlockList =>
    cases h
    rfl

end Server

/-! ### Every run -/

namespace Threads

variable {Tid : Type} [DecidableEq Tid] {s s' : Threads Tid} {tid : Tid}

/-- A call does not take the lock the timer waits for, unless it can do without the list; and the
timer does not go for the lock of a worker that a call holds while it waits for the list. -/
def InOrder (s : Threads Tid) : ThreadEvent Tid → Prop
  | .call _ _ _ => True
  | .go tid => ∀ worker call w, s.pc tid = .lockWorker worker call →
      s.server.getWorker worker = some w → s.timer.awaitsLock = some worker →
      ¬ s.server.UsesList w call
  | .timer => ∀ worker tid, Server.nextResend s.server.outPackets
      s.server.outgoingDataRegistry.states (s.server.upcoming s.timer) = some worker →
      (s.pc tid).stuckOn ≠ some worker

/-- A step runs into a deadlock exactly when it is out of order. -/
lemma step_deadlocked_iff {e : ThreadEvent Tid} (hs : ¬ s.Deadlocked)
    (h : s.step e = .ok s') : ¬ s'.Deadlocked ↔ s.InOrder e := by
  rw [deadlocked_iff] at hs ⊢
  cases e with
  | call tid worker call =>
    refine iff_of_true ?_ trivial
    simp only [step] at h
    split at h
    · cases h
      rintro ⟨tid', b, hstuck, hawaited⟩
      dsimp only at hstuck
      rw [Function.update_apply] at hstuck
      split_ifs at hstuck
      · cases hstuck
      · exact hs ⟨tid', b, hstuck, hawaited⟩
    · cases h
  | go tid =>
    simp only [step, Outcome.bind_eq_ok] at h
    obtain ⟨⟨server, pc⟩, hpc, h⟩ := h
    cases h
    have hiff := Server.threadStep_stuckOn hpc
    constructor
    · intro hnot worker call w hcall hw hawaited huses
      refine hnot ⟨tid, worker, ?_, hawaited⟩
      dsimp only
      rw [Function.update_self, hiff]
      exact ⟨call, w, hcall, hw, huses⟩
    · rintro hcond ⟨tid', b, hstuck, hawaited⟩
      dsimp only at hstuck
      rw [Function.update_apply] at hstuck
      split_ifs at hstuck
      · obtain ⟨call, w, hcall, hw, huses⟩ := (hiff b).mp hstuck
        exact hcond b call w hcall hw hawaited huses
      · exact hs ⟨tid', b, hstuck, hawaited⟩
  | timer =>
    simp only [step, Outcome.bind_eq_ok] at h
    obtain ⟨⟨server, timer⟩, htimer, h⟩ := h
    cases h
    have heq := Server.timerStep_awaitsLock htimer
    constructor
    · intro hnot worker tid hnext hstuck
      exact hnot ⟨tid, worker, hstuck, heq.trans hnext⟩
    · rintro hcond ⟨tid, worker, hstuck, hawaited⟩
      exact hcond worker tid (heq.symm.trans hawaited) hstuck

/-- A run comes to no deadlock exactly when all of its steps are in order. -/
theorem run_noDeadlock_iff {server : Server} {es : List (ThreadEvent Tid)}
    (h : run step (start server) es = .ok s) :
    Meets step InOrder (start server) es ↔ ∀ es₁ t, es₁ <+: es →
      run step (start server) es₁ = .ok t → ¬ t.Deadlocked := by
  refine meets_iff_forall_prefix (fun s e s' => step_deadlocked_iff) ?_ h
  rw [deadlocked_iff]
  rintro ⟨tid, worker, hstuck, -⟩
  cases hstuck

/-- The worker has one packet on the timer list, which timed out, and one to be sent. -/
def withTimedPacket : Outcome Server :=
  run Server.step (.init (fun _ => false) (fun _ => 0))
    [.registerWorker [1],
     .updateTemplates [⟨"T", 0, some "rule"⟩, ⟨"U", 0, some "rule"⟩],
     .pushInstanceToWorkerQueue ["1"], .getQueuedPacket "1", .execute]

/-- The call is over before the timer starts. -/
theorem run_noDeadlock_alone : ∃ server s, withTimedPacket = .ok server ∧
    run step (start server : Threads ℕ) [.call 0 0 .getQueuedPacket, .go 0, .go 0, .go 0, .go 0,
      .timer, .timer, .timer, .timer] = .ok s ∧
    (Meets step InOrder (start server : Threads ℕ) [.call 0 0 .getQueuedPacket, .go 0, .go 0,
        .go 0, .go 0, .timer, .timer, .timer, .timer] ↔
      ∀ es₁ t, es₁ <+: [.call 0 0 .getQueuedPacket, .go 0, .go 0, .go 0, .go 0, .timer, .timer,
        .timer, .timer] → run step (start server : Threads ℕ) es₁ = .ok t → ¬ t.Deadlocked) := by
  have hserver : ∃ server, withTimedPacket = .ok server ∧
      (run step (start server : Threads ℕ) [.call 0 0 .getQueuedPacket, .go 0, .go 0, .go 0,
        .go 0, .timer, .timer, .timer, .timer]).toBool = true :=
    Outcome.exists_ok_of_eval (by decide)
  obtain ⟨server, hserver, hrun⟩ := hserver
  obtain ⟨s, hs, hiff⟩ := Outcome.exists_ok_and hrun fun s hs => run_noDeadlock_iff hs
  exact ⟨server, s, hserver, hs, hiff⟩

/-- The timer takes the list and comes to the worker; before it has the worker's lock, a call
takes that and goes for the list. -/
theorem run_deadlock : ∃ server s, withTimedPacket = .ok server ∧
    run step (start server : Threads ℕ) [.call 0 0 .getQueuedPacket, .timer, .go 0] = .ok s ∧
    s.Deadlocked ∧ (s.step (.go 0)).isBlocked = true ∧ (s.step .timer).isBlocked = true := by
  have hserver : ∃ server, withTimedPacket = .ok server ∧
      (run step (start server : Threads ℕ) [.call 0 0 .getQueuedPacket, .timer,
        .go 0]).toOption.any fun s => decide (
          ((s.pc 0).stuckOn = some 0 ∧ s.timer.awaitsLock = some 0) ∧
          (s.step (.go 0)).isBlocked = true ∧ (s.step .timer).isBlocked = true) :=
    Outcome.exists_ok_of_eval (by decide)
  obtain ⟨server, hserver, hrun⟩ := hserver
  obtain ⟨s, hs, ⟨hstuck, hawaited⟩, hblocked⟩ := Outcome.exists_ok_of_eval hrun
  exact ⟨server, s, hserver, hs, deadlocked_iff.mpr ⟨0, 0, hstuck, hawaited⟩, hblocked⟩

end Threads

/-! ### The lock of the list -/

namespace Server

variable {s s' : Server} {worker : WorkerRef} {w : Worker} {locked : Bool} {pc pc' : ThreadPc}
  {t t' : TimerPc} {timedPackets : List OutPacketRef}

lemma chooseQueued_list (h : s.chooseQueued worker w locked = .ok (s', pc)) :
    s'.packetTimeout = s.packetTimeout ∧ pc.holdsList = false := by
  unfold chooseQueued at h
  split at h
  · cases h
    exact ⟨rfl, rfl⟩
  · simp only [Outcome.bind_eq_ok, Heap.deref_eq_ok] at h
    obtain ⟨o, -, h⟩ := h
    split_ifs at h
    · simp only [Outcome.bind_eq_ok] at h
      obtain ⟨found, -, h⟩ := h
      split at h
      · simp only [Outcome.bind_eq_ok] at h
        obtain ⟨previous, -, h⟩ := h
        cases h
        exact ⟨rfl, rfl⟩
      · cases h
        exact ⟨rfl, rfl⟩
    all_goals
      cases h
      exact ⟨rfl, rfl⟩

lemma lockWorker_list {call : WorkerCall} (h : s.lockWorker worker w call = .ok (s', pc)) :
    s'.packetTimeout = s.packetTimeout ∧ pc.holdsList = false := by
  cases call with
  | getQueuedPacket =>
    simp only [lockWorker, Outcome.bind_eq_ok] at h
    obtain ⟨lock, -, h⟩ := h
    split_ifs at h
    · cases h
      exact ⟨rfl, rfl⟩
    · have hchoose := chooseQueued_list h
      exact hchoose
  | matchAckablePacket id =>
    simp only [lockWorker, Outcome.bind_eq_ok] at h
    obtain ⟨lock, -, found, -, h⟩ := h
    cases found with
    | some found =>
      obtain ⟨before, p, after⟩ := found
      cases h
      exact ⟨rfl, rfl⟩
    | none =>
      cases h
      exact ⟨rfl, rfl⟩

/-- A call posts the lock of the list only after it waited on it. -/
lemma threadStep_list (h : s.threadStep pc = .ok (s', pc')) :
    LockMove s.packetTimeout.timeoutListLock s'.packetTimeout.timeoutListLock pc.holdsList
      pc'.holdsList := by
  cases pc with
  | idle last => cases h
  | lockWorker worker call =>
    simp only [threadStep, Outcome.bind_eq_ok] at h
    obtain ⟨w, -, h⟩ := h
    obtain ⟨htimer, hpc⟩ := lockWorker_list h
    exact .keep (by rw [htimer]) hpc
  | resend worker =>
    simp only [threadStep, Outcome.bind_eq_ok] at h
    obtain ⟨w, -, h⟩ := h
    cases h
    exact .keep rfl rfl
  | resendTest worker =>
    simp only [threadStep, Outcome.bind_eq_ok] at h
    obtain ⟨w, -, h⟩ := h
    split at h
    · simp only [Outcome.bind_eq_ok] at h
      obtain ⟨o, -, h⟩ := h
      cases h
      exact .keep rfl rfl
    · obtain ⟨htimer, hpc⟩ := chooseQueued_list h
      exact .keep (by rw [htimer]) hpc
  | addPacket worker p locked =>
    simp only [threadStep, Outcome.bind_eq_ok, semWait_eq_ok] at h
    obtain ⟨lock, hlock, h⟩ := h
    cases h
    exact .wait hlock rfl rfl
  | addPacketPost worker p locked =>
    simp only [threadStep, Outcome.bind_eq_ok] at h
    obtain ⟨w, -, front, -, h⟩ := h
    cases h
    exact .post rfl rfl rfl
  | popPacket worker p =>
    simp only [threadStep, Outcome.bind_eq_ok, semWait_eq_ok] at h
    obtain ⟨lock, hlock, h⟩ := h
    cases h
    exact .wait hlock rfl rfl
  | popPacketPost worker p =>
    simp only [threadStep, Outcome.bind_eq_ok] at h
    obtain ⟨w, -, h⟩ := h
    cases h
    exact .post rfl rfl rfl
  | unlockWorker worker locked value =>
    simp only [threadStep, Outcome.bind_eq_ok] at h
    obtain ⟨w, -, reply, -, h⟩ := h
    cases h
    exact .keep rfl rfl

lemma scanTimed_list (h : s.scanTimed timedPackets = .ok (s', t')) :
    s'.packetTimeout.timeoutListLock = s.packetTimeout.timeoutListLock ∧
      t'.holdsList = true := by
  induction timedPackets generalizing s with
  | nil =>
    cases h
    exact ⟨rfl, rfl⟩
  | cons p timedPackets ih =>
    simp only [scanTimed, Outcome.bind_eq_ok] at h
    obtain ⟨o, -, i, -, st, -, h⟩ := h
    split_ifs at h
    · have hrest := ih (Outcome.guard_eq_ok.mp h).2
      exact hrest
    · simp only [Outcome.bind_eq_ok] at h
      obtain ⟨worker, -, w, -, h⟩ := h
      split_ifs at h
      · cases h
        exact ⟨rfl, rfl⟩
      · obtain ⟨-, h⟩ := Outcome.guard_eq_ok.mp h
        cases h
        refine ⟨?_, rfl⟩
        unfold Timeout.isWorkerRegistered
        split_ifs <;> rfl

/-- The timer keeps the lock from its wait to its post. -/
lemma timerStep_list (h : s.timerStep t = .ok (s', t')) :
    LockMove s.packetTimeout.timeoutListLock s'.packetTimeout.timeoutListLock t.holdsList
      t'.holdsList := by
  cases t with
  | idle =>
    simp only [timerStep, Outcome.bind_eq_ok, semWait_eq_ok] at h
    obtain ⟨lock, hlock, h⟩ := h
    obtain ⟨hkept, hheld⟩ := scanTimed_list h
    exact .wait (by rw [hkept, hlock]) rfl hheld
  | pushToFront worker p rest =>
    simp only [timerStep, Outcome.bind_eq_ok] at h
    obtain ⟨w, -, lock, -, h⟩ := h
    cases h
    exact .keep rfl rfl
  | pushToFrontPost worker rest =>
    simp only [timerStep, Outcome.bind_eq_ok] at h
    obtain ⟨w, -, h⟩ := h
    obtain ⟨hkept, hheld⟩ := scanTimed_list h
    exact .keep hkept hheld
  | unlockList =>
    cases h
    exact .post rfl rfl rfl

end Server

namespace Threads

variable {Tid : Type} [DecidableEq Tid] {s s' : Threads Tid}

/-- The lock of the list is used as a lock by all calls and the timer. -/
def ListExclusive (s : Threads Tid) : Prop :=
  Exclusive s.server.packetTimeout.timeoutListLock s.holdsList

lemma ListExclusive.step (hs : s.ListExclusive) {e : ThreadEvent Tid} (h : s.step e = .ok s') :
    s'.ListExclusive := by
  cases e with
  | call tid worker call =>
    simp only [Threads.step] at h
    split at h
    next last hidle =>
      cases h
      have hheld : Threads.holdsList
          { s with pc := Function.update s.pc tid (.lockWorker worker call) } = s.holdsList := by
        funext a
        cases a with
        | none => rfl
        | some tid' =>
          simp only [holdsList, Function.update_apply]
          split_ifs with heq
          · rw [heq, hidle]
            rfl
          · rfl
      rw [ListExclusive, hheld]
      exact hs
    next => cases h
  | go tid =>
    simp only [Threads.step, Outcome.bind_eq_ok] at h
    obtain ⟨⟨server, pc⟩, hpc, h⟩ := h
    cases h
    have hmove := Exclusive.move (a := some tid) hs (Server.threadStep_list hpc)
    have hheld : Threads.holdsList { s with server := server, pc := Function.update s.pc tid pc } =
        Function.update s.holdsList (some tid) pc.holdsList := by
      funext a
      cases a with
      | none => rfl
      | some tid' =>
        simp only [holdsList, Function.update_apply, Option.some.injEq]
        split_ifs <;> rfl
    rw [ListExclusive, hheld]
    exact hmove
  | timer =>
    simp only [Threads.step, Outcome.bind_eq_ok] at h
    obtain ⟨⟨server, timer⟩, htimer, h⟩ := h
    cases h
    have hmove := Exclusive.move (a := none) hs (Server.timerStep_list htimer)
    have hheld : Threads.holdsList { s with server := server, timer := timer } =
        Function.update s.holdsList none timer.holdsList := by
      funext a
      cases a <;> simp [holdsList]
    rw [ListExclusive, hheld]
    exact hmove

/-- At most one of the threads and the timer has the list, in every run. -/
theorem run_listExclusive {server : Server} {es : List (ThreadEvent Tid)}
    (hlock : server.packetTimeout.timeoutListLock = 1)
    (h : run step (start server) es = .ok s) : s.ListExclusive := by
  refine run_invariant (fun _ _ _ hI hs => ListExclusive.step hI hs) ?_ h
  have hnobody : Threads.holdsList (start server : Threads Tid) = fun _ => false := by
    funext a
    cases a <;> rfl
  rw [ListExclusive, hnobody]
  dsimp only [start]
  rw [hlock]
  exact .none

/-- In a deadlock the call is blocked. -/
lemma ListExclusive.blocked (hs : s.ListExclusive) {tid : Tid} {worker : WorkerRef}
    (hstuck : (s.pc tid).stuckOn = some worker) (hawaited : s.timer.awaitsLock = some worker) :
    s.step (.go tid) = .error .blocked := by
  have hheld : s.holdsList none = true := by
    simp only [holdsList]
    cases hpc : s.timer <;> simp [hpc, TimerPc.awaitsLock, TimerPc.holdsList] at hawaited ⊢
  have hzero := hs.held none hheld
  cases hpc : s.pc tid <;> simp [hpc, ThreadPc.stuckOn, ThreadPc.awaitsList] at hstuck
  · simp [Threads.step, hpc, Server.threadStep, hzero, semWait]
  · simp [Threads.step, hpc, Server.threadStep, hzero, semWait]

end Threads

end ServerUnit
