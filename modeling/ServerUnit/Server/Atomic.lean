import ServerUnit.Server.Threads
import Mathlib.Logic.Relation

/-!
# Calls that run alone

A call whose steps are not interleaved with any others does what its function of the sequential
model says.
-/

namespace ServerUnit

open Lib

namespace Server

/-- Steps of one call with nothing in between. -/
def CallSteps : Server × ThreadPc → Server × ThreadPc → Prop :=
  Relation.ReflTransGen fun x y => x.1.threadStep x.2 = .ok y

/-- Steps of the timer with nothing in between. -/
def TimerSteps : Server × TimerPc → Server × TimerPc → Prop :=
  Relation.ReflTransGen fun x y => x.1.timerStep x.2 = .ok y

variable {s s' : Server} {worker : WorkerRef} {w w₀ w' : Worker} {timer' : Timeout}
  {out : Option ServerPacket}

/-- A worker that is stored twice around a change of the timer. -/
lemma putWorker_timer_putWorker (timer : Timeout) :
    { s.putWorker worker w with packetTimeout := timer }.putWorker worker w' =
      { s with packetTimeout := timer }.putWorker worker w' := by
  simp [putWorker]

/-- The last step posts the worker's lock and returns. -/
lemma unlockWorker_alone (locked : Bool) {value : ReturnValue} {reply : Reply}
    (hw : s.getWorker worker = some w) (hreply : value.reply s.outPackets = .ok reply) :
    CallSteps (s, .unlockWorker worker locked value)
      (s.putWorker worker { w with workerLock := semPost w.workerLock }, .idle (some reply)) := by
  refine .single ?_
  have hderef := Heap.deref_eq_ok.mpr hw
  simp only [threadStep, hderef, hreply, Outcome.ok_bind]
  rfl

/-- `addPacket` between the two halves of the queue's move. -/
lemma addPacket_alone (locked : Bool) {p : OutPacketRef} {queue : List OutPacketRef}
    {o : OutPacket} (hw : s.getWorker worker = some w) (hq : w.senderQueue = p :: queue)
    (ho : s.outPackets.get p = some o) (hlock : 0 < s.packetTimeout.timeoutListLock) :
    CallSteps (s, .addPacket worker p locked)
      ({ s with packetTimeout := { s.packetTimeout with
          timedPackets := s.packetTimeout.timedPackets ++ [p] } }.putWorker worker
          { w with
            senderQueue := queue
            ackPendingQueue := w.ackPendingQueue ++ [p]
            workerLock := semPost w.workerLock },
        .idle (some (.packet (some o.packet)))) := by
  obtain ⟨lock, hlock⟩ : ∃ lock, s.packetTimeout.timeoutListLock = lock + 1 :=
    ⟨_, (Nat.succ_pred_eq_of_pos hlock).symm⟩
  have hderef := Heap.deref_eq_ok.mpr hw
  -- wait on the list's lock, and post it
  refine .head (b := ({ s with packetTimeout := { s.packetTimeout with
    timedPackets := s.packetTimeout.timedPackets ++ [p], timeoutListLock := lock } },
    .addPacketPost worker p locked)) ?_ (.head (b := ({ s with packetTimeout :=
      { s.packetTimeout with timedPackets := s.packetTimeout.timedPackets ++ [p] } }.putWorker worker
      { w with senderQueue := queue, ackPendingQueue := w.ackPendingQueue ++ [p] },
    .unlockWorker worker locked (.packet p))) ?_ ?_)
  · simp only [threadStep, hlock, semWait, Outcome.ok_bind]
    rfl
  · simp only [threadStep, hderef, hq, Outcome.ok_bind, List.head?_cons, List.tail_cons,
      Outcome.ofOption, semPost, ← hlock]
    rfl
  · have hreply : ReturnValue.reply s.outPackets (.packet p) =
        .ok (.packet (some o.packet)) := by
      simp only [ReturnValue.reply, Heap.deref_eq_ok.mpr ho, Outcome.ok_bind]
      rfl
    have hsteps := unlockWorker_alone locked (s := { s with packetTimeout := { s.packetTimeout with
        timedPackets := s.packetTimeout.timedPackets ++ [p] } }.putWorker worker
        { w with senderQueue := queue, ackPendingQueue := w.ackPendingQueue ++ [p] })
      (Heap.get_put_self hw) hreply
    rwa [putWorker_putWorker] at hsteps

/-- The second half of `getQueuedPacket`. -/
lemma chooseQueued_alone (locked : Bool) (hw₀ : s.getWorker worker = some w₀)
    (h : w.sendQueued s.outPackets s.packetTimeout = .ok (w', timer', out)) :
    ∃ x, s.chooseQueued worker w locked = .ok x ∧
      CallSteps x ({ s with packetTimeout := timer' }.putWorker worker w',
        .idle (some (.packet out))) := by
  -- once the queues are settled, only the worker's lock is left to post
  have hunlock : ∀ {w : Worker} {value : ReturnValue},
      value.reply s.outPackets = .ok (.packet out) →
      CallSteps (s.putWorker worker w, .unlockWorker worker locked value)
        (s.putWorker worker { w with workerLock := semPost w.workerLock },
          .idle (some (.packet out))) := by
    intro w value hreply
    have hsteps := unlockWorker_alone locked (getWorker_putWorker (w := w) hw₀) hreply
    rwa [putWorker_putWorker] at hsteps
  obtain ⟨uid, queue, pending, attendance, pop, quick, ready, lock, stats⟩ := w
  cases queue with
  | nil =>
    cases h
    exact ⟨_, rfl, hunlock rfl⟩
  | cons p queue =>
    simp only [Worker.sendQueued, Outcome.bind_eq_ok] at h
    obtain ⟨o, ho, h⟩ := h
    simp only [chooseQueued, ho, Outcome.ok_bind]
    split_ifs at h ⊢ with hack hlimit
    · simp only [Outcome.bind_eq_ok] at h
      obtain ⟨found, hfound, h⟩ := h
      simp only [hfound, Outcome.ok_bind]
      cases found with
      | some found =>
        obtain ⟨before, _, after⟩ := found
        simp only [Outcome.bind_eq_ok] at h
        obtain ⟨previous, hprevious, o', ho', h⟩ := h
        cases h
        simp only [hprevious, Outcome.ok_bind]
        refine ⟨_, rfl, hunlock ?_⟩
        simp only [ReturnValue.reply, ho', Outcome.ok_bind]
        rfl
      | none =>
        cases h
        exact ⟨_, rfl, hunlock rfl⟩
    · simp only [Outcome.bind_eq_ok, Timeout.addPacket_eq_ok] at h
      obtain ⟨_, ⟨hlock, rfl⟩, h⟩ := h
      cases h
      refine ⟨_, rfl, ?_⟩
      have hsteps := addPacket_alone locked (getWorker_putWorker hw₀
        (w := ⟨uid, p :: queue, pending, attendance, pop, quick, ready, lock, stats⟩)) rfl
        (Heap.deref_eq_ok.mp ho) hlock
      rwa [putWorker_timer_putWorker] at hsteps
    · cases h
      refine ⟨_, rfl, hunlock ?_⟩
      simp only [ReturnValue.reply, ho, Outcome.ok_bind]
      rfl

lemma resendTest_cons {p : OutPacketRef} {rest : List OutPacketRef} {o : OutPacket}
    (hw : s.getWorker worker = some w) (hq : w.ackPendingQueue = p :: rest)
    (ho : s.outPackets.deref p = .ok o) :
    s.threadStep (.resendTest worker) = .ok (s, .idle (some (.packet (some o.packet)))) := by
  simp only [threadStep, Heap.deref_eq_ok.mpr hw, Outcome.ok_bind, hq, ho]
  rfl

lemma resendTest_nil (hw : s.getWorker worker = some w) (hq : w.ackPendingQueue = []) :
    s.threadStep (.resendTest worker) = s.chooseQueued worker w false := by
  simp only [threadStep, Heap.deref_eq_ok.mpr hw, Outcome.ok_bind, hq]

/-- A call of `getQueuedPacket` that runs alone. -/
theorem getQueuedPacket_alone (hw : s.getWorker worker = some w)
    (h : w.getQueuedPacket s.outPackets s.packetTimeout = .ok (w', timer', out)) :
    CallSteps (s, .lockWorker worker .getQueuedPacket)
      ({ s with packetTimeout := timer' }.putWorker worker w', .idle (some (.packet out))) := by
  have hderef := Heap.deref_eq_ok.mpr hw
  simp only [Worker.getQueuedPacket, Outcome.bind_eq_ok] at h
  obtain ⟨lock, hlock, h⟩ := h
  cases hflag : w.ackPacketPop with
  | false =>
    simp only [hflag, Bool.false_eq_true, if_false] at h
    obtain ⟨x, hx, hsteps⟩ := chooseQueued_alone true hw h
    refine .head ?_ hsteps
    simp only [threadStep, hderef, lockWorker, hlock, hflag, Outcome.ok_bind, Bool.false_eq_true,
      if_false]
    exact hx
  | true =>
    simp only [hflag, if_true] at h
    -- the worker as the re-send branch leaves it
    let v : Worker := { w with ackPacketPop := false, workerLock := lock }
    have hget : (s.putWorker worker v).getWorker worker = some v := getWorker_putWorker hw
    have hpost := Heap.deref_eq_ok.mpr hget
    have hposted := getWorker_putWorker (w := { v with workerLock := semPost v.workerLock }) hw
    refine .head (b := (s.putWorker worker v, .resend worker)) ?_
      (.head (b := (s.putWorker worker { v with workerLock := semPost v.workerLock },
        .resendTest worker)) ?_ ?_)
    · simp only [threadStep, hderef, lockWorker, hlock, hflag, Outcome.ok_bind, if_true]
      rfl
    · simp only [threadStep, hpost, Outcome.ok_bind, putWorker_putWorker]
      rfl
    · split at h
      next p rest hq =>
        simp only [Outcome.bind_eq_ok] at h
        obtain ⟨o, ho, h⟩ := h
        cases h
        exact .single (resendTest_cons hposted hq ho)
      next hq =>
        obtain ⟨x, hx, hsteps⟩ := chooseQueued_alone false
          hposted h
        rw [putWorker_timer_putWorker] at hsteps
        exact .head ((resendTest_nil hposted hq).trans hx) hsteps

/-- A call of `matchAckablePacket` that runs alone. -/
theorem matchAckablePacket_alone {id : String} {mem' : Heap OutPacket} {found : Bool}
    (hw : s.getWorker worker = some w)
    (h : w.matchAckablePacket s.outPackets s.outgoingDataRegistry.states s.packetTimeout id =
      .ok (w', timer', mem', found)) :
    CallSteps (s, .lockWorker worker (.matchAckablePacket id))
      ({ s with packetTimeout := timer', outPackets := mem' }.putWorker worker w',
        .idle (some (.found found))) := by
  have hderef := Heap.deref_eq_ok.mpr hw
  simp only [Worker.matchAckablePacket, Outcome.bind_eq_ok] at h
  obtain ⟨lock, hlock, split, hsplit, h⟩ := h
  let v : Worker := { w with workerLock := lock }
  have hget : (s.putWorker worker v).getWorker worker = some v := getWorker_putWorker hw
  cases split with
  | none =>
    cases h
    have hreply : ReturnValue.reply (s.putWorker worker v).outPackets (.found false) =
        .ok (.found false) := rfl
    have hunlock := unlockWorker_alone true hget hreply
    rw [putWorker_putWorker] at hunlock
    refine .head ?_ hunlock
    simp only [threadStep, hderef, lockWorker, hlock, Outcome.ok_bind, putWorker_outPackets,
      putWorker_outgoingDataRegistry, hsplit]
    rfl
  | some found =>
    obtain ⟨before, p, after⟩ := found
    simp only [Outcome.bind_eq_ok, Timeout.popPacket_eq_ok] at h
    obtain ⟨timer, ⟨hlist, rfl⟩, h⟩ := h
    cases h
    obtain ⟨hq, hbefore, hp⟩ := splitFirst_eq_some hsplit
    -- the iterator is at the first copy of the pointer
    have herase : w.ackPendingQueue.erase p = before ++ after := by
      rw [hq, List.erase_append_right, List.erase_cons_head]
      intro hmem
      exact absurd ((hbefore p hmem).symm.trans hp) (by simp)
    obtain ⟨lock', hlist⟩ : ∃ lock', s.packetTimeout.timeoutListLock = lock' + 1 :=
      ⟨_, (Nat.succ_pred_eq_of_pos hlist).symm⟩
    have hpost := Heap.deref_eq_ok.mpr hget
    let timer : Timeout := { s.packetTimeout with
      timedPackets := s.packetTimeout.timedPackets.filter (· ≠ p) }
    let u : Worker := { v with ackPendingQueue := before ++ after }
    refine .head (b := (s.putWorker worker v, .popPacket worker p)) ?_
      (.head (b := ({ s with packetTimeout := { timer with timeoutListLock := lock' } }.putWorker
        worker v, .popPacketPost worker p)) ?_
      (.head (b := ({ s with packetTimeout := timer, outPackets := s.outPackets.free p }.putWorker
        worker u, .unlockWorker worker true (.found true))) ?_ ?_))
    · simp only [threadStep, hderef, lockWorker, hlock, Outcome.ok_bind, putWorker_outPackets,
        putWorker_outgoingDataRegistry, hsplit]
      rfl
    · simp only [threadStep, putWorker_packetTimeout, hlist, semWait, Outcome.ok_bind]
      rfl
    · have hstored : ({ s with packetTimeout := { timer with timeoutListLock := lock' } }.putWorker
          worker v).workerRegistry.workers.deref worker = .ok v := Heap.deref_eq_ok.mpr hget
      simp only [threadStep, hstored, Outcome.ok_bind]
      have hsame : v.ackPendingQueue.erase p = before ++ after := herase
      rw [hsame]
      simp only [putWorker, Heap.put_put, semPost, ← hlist]
      rfl
    · have hreply : ReturnValue.reply (s.outPackets.free p) (.found true) =
          .ok (.found true) := rfl
      have hunlock := unlockWorker_alone true (w := u)
        (s := { s with packetTimeout := timer, outPackets := s.outPackets.free p }.putWorker worker u)
        (Heap.get_put_self hw) hreply
      rwa [putWorker_putWorker] at hunlock

/-- `pushToFront` is two steps of the timer; the second goes on with the loop. -/
lemma pushToFront_alone {p : OutPacketRef} {rest : List OutPacketRef} {x : Server × TimerPc}
    (h : s.pushToFront worker p = .ok s') (hscan : s'.scanTimed rest = .ok x) :
    TimerSteps (s, .pushToFront worker p rest) x := by
  simp only [pushToFront, Worker.pushToFront, Outcome.bind_eq_ok] at h
  obtain ⟨w, hw, w', ⟨lock, hlock, hw'⟩, h⟩ := h
  cases hw'
  cases h
  let v : Worker := { w with
    ackPendingQueue := p :: w.ackPendingQueue.filter (· ≠ p)
    ackPacketPop := true
    workerLock := lock }
  have hstored : (s.putWorker worker v).workerRegistry.workers.deref worker = .ok v :=
    Heap.deref_eq_ok.mpr (Heap.get_put_self (Heap.deref_eq_ok.mp hw))
  refine .head (b := (s.putWorker worker v, .pushToFrontPost worker rest)) ?_ (.single ?_)
  · simp only [timerStep, hw, hlock, Outcome.ok_bind]
    rfl
  · simp only [timerStep, hstored, Outcome.ok_bind, putWorker_putWorker]
    exact hscan

/-- The loop of `execute`, when it runs alone and does not return early. -/
lemma executeLoop_alone {timedPackets : List OutPacketRef}
    (h : s.executeLoop timedPackets = .ok (s', false)) :
    ∃ x, s.scanTimed timedPackets = .ok x ∧ TimerSteps x (s', .unlockList) := by
  induction timedPackets generalizing s with
  | nil =>
    cases h
    exact ⟨_, rfl, .refl⟩
  | cons p timedPackets ih =>
    simp only [executeLoop, Outcome.bind_eq_ok] at h
    obtain ⟨o, ho, i, hi, st, hst, h⟩ := h
    simp only [scanTimed, ho, hi, hst, Outcome.ok_bind]
    split_ifs at h ⊢ with hstatus hfinal
    · simp only [Outcome.bind_eq_ok] at h
      obtain ⟨_, -, h⟩ := h
      cases h
    · simp only [Outcome.guard, ne_eq, hfinal, not_false_eq_true, if_true]
      exact ih h
    · simp only [Outcome.bind_eq_ok] at h
      obtain ⟨worker, hworker, w, hw, h⟩ := h
      simp only [hworker, hw, Outcome.ok_bind]
      split_ifs at h ⊢ with hatt hsecond
      · simp only [Outcome.bind_eq_ok] at h
        obtain ⟨t, ht, h⟩ := h
        obtain ⟨x, hx, hsteps⟩ := ih h
        exact ⟨_, rfl, (pushToFront_alone ht hx).trans hsteps⟩
      · -- the second strike makes the call return early
        simp only [Outcome.bind_eq_ok] at h
        obtain ⟨t, -, h⟩ := h
        cases h
      · simp only [Outcome.bind_eq_ok] at h
        obtain ⟨t, ht, h⟩ := h
        obtain ⟨x, hx, hsteps⟩ := ih h
        have hfirst : (s.packetTimeout.isWorkerRegistered worker).2 = false := by simpa using hsecond
        simp only [Outcome.guard, hfirst, if_true]
        exact ⟨_, rfl, (pushToFront_alone ht hx).trans hsteps⟩

/-- A call of `execute` that runs alone and posts the lock of the list in the end. -/
theorem execute_alone {t : Server} {lock : ℕ}
    (hlock : semWait s.packetTimeout.timeoutListLock = .ok lock)
    (hloop : { s with packetTimeout := { s.packetTimeout with timeoutListLock := lock } }.executeLoop
      s.packetTimeout.timedPackets = .ok (t, false))
    (h : s.execute = .ok s') : TimerSteps (s, .idle) (s', .idle) := by
  simp only [execute, hlock, Outcome.ok_bind, hloop] at h
  cases h
  obtain ⟨x, hx, hsteps⟩ := executeLoop_alone hloop
  refine .head (b := x) ?_ (hsteps.tail rfl)
  simp only [timerStep, hlock, Outcome.ok_bind]
  exact hx

/-! ### As runs of all threads -/

variable {Tid : Type} [DecidableEq Tid]

/-- The steps of one call are a run in which only its thread goes on. -/
theorem CallSteps.run {x y : Server × ThreadPc} (h : CallSteps x y) {all : Threads Tid}
    {tid : Tid} (hserver : all.server = x.1) (hpc : all.pc tid = x.2) :
    ∃ n, Lib.run Threads.step all (List.replicate n (.go tid)) =
      .ok { all with server := y.1, pc := Function.update all.pc tid y.2 } := by
  induction h using Relation.ReflTransGen.head_induction_on generalizing all with
  | refl =>
    refine ⟨0, ?_⟩
    rw [← hserver, ← hpc, Function.update_eq_self]
    rfl
  | @head x z hstep hsteps ih =>
    obtain ⟨n, hn⟩ := @ih { all with server := z.1, pc := Function.update all.pc tid z.2 } rfl
      (Function.update_self ..)
    rw [Function.update_idem] at hn
    refine ⟨n + 1, ?_⟩
    rw [List.replicate_succ, run_cons_eq_ok]
    refine ⟨_, ?_, hn⟩
    simp only [Threads.step, hserver, hpc, hstep, Outcome.ok_bind]
    rfl

theorem TimerSteps.run {x y : Server × TimerPc} (h : TimerSteps x y) {all : Threads Tid}
    (hserver : all.server = x.1) (htimer : all.timer = x.2) :
    ∃ n, Lib.run Threads.step all (List.replicate n .timer) =
      .ok { all with server := y.1, timer := y.2 } := by
  induction h using Relation.ReflTransGen.head_induction_on generalizing all with
  | refl =>
    refine ⟨0, ?_⟩
    rw [← hserver, ← htimer]
    rfl
  | @head x z hstep hsteps ih =>
    obtain ⟨n, hn⟩ := @ih { all with server := z.1, timer := z.2 } rfl rfl
    refine ⟨n + 1, ?_⟩
    rw [List.replicate_succ, run_cons_eq_ok]
    refine ⟨_, ?_, hn⟩
    simp only [Threads.step, hserver, htimer, hstep, Outcome.ok_bind]
    rfl

end Server

end ServerUnit
