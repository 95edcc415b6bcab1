import ServerUnit.Sched.Conservation
import ServerUnit.Server.Calls
import ServerUnit.Server.Reachable

/-!
# Received packets and validator jobs

A session pushes the packet it read into the receiver sink and then adds a validator task to the
pool; that the pool may refuse it is ignored. A validator job goes on until it finds the sink
empty. The pool refuses a task only when it is full, and all tasks but one are validators: a
packet in the sink never waits for nobody.
-/

namespace ServerUnit

open Lib

/-- Which of the two processes a task runs; it stands for the task's arguments. -/
inductive ServerProcess where
  | senderCore | validator
  deriving DecidableEq, Repr

lemma ServerProcess.senderCore_or_validator (p : ServerProcess) :
    p = .senderCore ∨ p = .validator := by
  cases p
  · exact .inl rfl
  · exact .inr rfl

/-- The task of `SenderCore::run`. -/
def senderCoreTask : TaskStruct ServerProcess := ⟨⟨true⟩, .senderCore⟩

/-- The task of `init_validator`. -/
def validatorTask : TaskStruct ServerProcess := ⟨⟨true⟩, .validator⟩

/-- The `start_proc` of a process. -/
def Server.startProcess (s : Server) : ServerProcess → Outcome (Server × JobStatus)
  | .senderCore => s.startSenderCore
  | .validator  => s.startValidator

/-- The server with its scheduler. Some sessions are between `pushObject` and `init_validator`. -/
structure Reception (n : ℕ) where
  server : Server
  sched : Scheduler ServerProcess n
  sessions : ℕ
  /-- `SenderCore::run` was called. -/
  started : Bool

inductive ReceptionEvent (n : ℕ) where
  /-- `SenderCore::run`. -/
  | start
  /-- A session pushes a packet. -/
  | receivePacket (packet : Json)
  /-- A session that has pushed its packet calls `init_validator`. -/
  | initValidator
  | countSlots
  | place
  /-- A thread calls `start_proc` of its job. -/
  | startProc (i : Fin n)
  | pauseProc (i : Fin n)
  | endProc (i : Fin n)
  | advance (i : Fin n)
  | timer (i : Fin n)

namespace Reception

variable {n : ℕ}

def init (s : Server) (n : ℕ) : Reception n := ⟨s, .init ServerProcess n, 0, false⟩

/-- The scheduler takes a step. -/
def schedule [NeZero n] (x : Reception n) (e : SchedEvent ServerProcess n) :
    Outcome (Reception n) := do
  let sched ← x.sched.step e
  return { x with sched }

/-- The job that the thread comes to is started: what the process reports is the job's status. -/
def startProc [NeZero n] (x : Reception n) (i : Fin n) : Outcome (Reception n) := do
  let (r, _) ← x.sched.currentJob i
  let job ← x.sched.jobs.deref r
  let (server, status) ← x.server.startProcess job.args
  let x' ← x.schedule (.startProc i status)
  return { x' with server }

def step [NeZero n] (x : Reception n) : ReceptionEvent n → Outcome (Reception n)
  | .start =>
    Outcome.guard (!x.started) do
      let x' ← x.schedule (.addTask senderCoreTask .lowPriority)
      return { x' with started := true }
  | .receivePacket packet => do
    let server ← x.server.receivePacket packet
    return { x with server, sessions := x.sessions + 1 }
  | .initValidator =>
    Outcome.guard (0 < x.sessions) do
      let x' ← x.schedule (.addTask validatorTask .mediumPriority)
      return { x' with sessions := x.sessions - 1 }
  | .countSlots => x.schedule .countSlots
  | .place => x.schedule .place
  | .startProc i => x.startProc i
  -- `pause_valdiator` and `end_valdidator` return these, and so do those of the sender core
  | .pauseProc i => x.schedule (.pauseProc i .jobPending)
  | .endProc i => x.schedule (.endProc i .jobDone)
  | .advance i => x.schedule (.advance i)
  | .timer i => x.schedule (.timer i)

end Reception

namespace Scheduler

variable {n : ℕ}

/-- A validator is in the pool, or in a slot that is not done, with a job that is not over. -/
def Attends (s : Scheduler ServerProcess n) : Prop :=
  (∃ waiting, s.pool.Holds waiting ∧ ∃ w ∈ waiting, w.1.args = .validator) ∨
    ∃ x r job, s.busy x = some r ∧ s.jobs.get r = some job ∧ job.args = .validator ∧
      job.jobStatus.isOver = false

end Scheduler

/-- A packet in the receiver sink has a validator, or will have: a session is about to add one. -/
def Reception.Attended {n : ℕ} (x : Reception n) : Prop :=
  x.server.receiverSink.sinkItemList ≠ [] → x.sched.Attends ∨ 0 < x.sessions

/-! ### The receiver sink -/

namespace Server

variable {s s' : Server} {status : JobStatus}

/-- The sender core leaves the receiver sink alone. -/
lemma startSenderCore_receiverSink (h : s.startSenderCore = .ok (s', status)) :
    s'.receiverSink = s.receiverSink :=
  (SenderCoreRule.of_frame (f := Server.receiverSink) (fun _ _ _ _ _ _ _ => rfl)
    fun _ _ _ _ => rfl).startSenderCore h

/-- A validator job is done only when it finds the sink empty. -/
lemma startValidator_isOver (h : s.startValidator = .ok (s', status))
    (hover : status.isOver = true) : s'.receiverSink.sinkItemList = [] := by
  simp only [startValidator, Outcome.bind_eq_ok] at h
  obtain ⟨⟨sink, object⟩, hpop, h⟩ := h
  cases object with
  | none =>
    cases h
    rcases Sink.popObject_cases hpop with ⟨hnil, rfl, -⟩ | ⟨_, _, -, hsome, -⟩
    · exact hnil
    · cases hsome
  | some packet =>
    simp only [Outcome.bind_eq_ok, Outcome.pure_eq_ok, Prod.mk.injEq] at h
    obtain ⟨_, -, -, rfl⟩ := h
    cases hover

end Server

/-! ### Who attends to it -/

namespace Scheduler

variable {n : ℕ} {s s' : Scheduler ServerProcess n} {waiting : List (TaskPool.Waiting ServerProcess)}
  {x : Slot n} {r : JobRef} {job : QueueJob ServerProcess} {i : Fin n} {j qSlots : ℕ}
  {status : JobStatus}

/-- Of the tasks in a full pool, which has room for more than one, one is a validator. -/
lemma exists_validator (hfull : TaskPool.maxTaskPoolSize ≤ waiting.length)
    (hcount : waiting.countP (·.1.args = .senderCore) ≤ 1) :
    ∃ w ∈ waiting, w.1.args = .validator := by
  by_contra hnone
  have hall : waiting.countP (·.1.args = .senderCore) = waiting.length := by
    rw [List.countP_eq_length]
    intro w hw
    cases hargs : w.1.args with
    | senderCore => rfl
    | validator => exact absurd ⟨w, hw, hargs⟩ hnone
  have hone : 1 < TaskPool.maxTaskPoolSize := by decide
  omega

namespace Attends

lemma of_waiting (hpool : s.pool.Holds waiting) {w : TaskPool.Waiting ServerProcess}
    (hw : w ∈ waiting) (hargs : w.1.args = .validator) : s.Attends :=
  .inl ⟨waiting, hpool, w, hw, hargs⟩

lemma of_busy (hx : s.busy x = some r) (hjob : s.jobs.get r = some job)
    (hargs : job.args = .validator) (hover : job.jobStatus.isOver = false) : s.Attends :=
  .inr ⟨x, r, job, hx, hjob, hargs, hover⟩

/-- The job of a validator that is not over is not one of the others. -/
lemma ne_of_other {r' : JobRef} {job' : QueueJob ServerProcess} (hjob : s.jobs.get r = some job)
    (hother : job.args = .senderCore ∨ job.jobStatus.isOver = true)
    (hjob' : s.jobs.get r' = some job') (hargs : job'.args = .validator)
    (hover : job'.jobStatus.isOver = false) : r' ≠ r := by
  rintro rfl
  cases hjob.symm.trans hjob'
  rcases hother with hother | hother
  · rw [hargs] at hother
    cases hother
  · rw [hover] at hother
    cases hother

/-- A procedure of another job is called. -/
lemma called (h : s.Attends) (hjob : s.jobs.get r = some job) (hargs : job.args = .senderCore)
    (job' : QueueJob ServerProcess) (call : ProcCall) : (s.called r job' call).Attends := by
  rcases h with hpool | ⟨y, r', job₁, hy, hjob₁, hargs₁, hover₁⟩
  · exact .inl hpool
  · have hne : r' ≠ r := ne_of_other hjob (.inl hargs) hjob₁ hargs₁ hover₁
    exact of_busy hy ((Heap.get_put_of_ne hne).trans hjob₁) hargs₁ hover₁

/-- The slot of a job that is over is released. -/
lemma released (h : s.Attends) (hx : s.busy x = some r) (hjob : s.jobs.get r = some job)
    (hover : job.jobStatus.isOver = true) : (s.released x r job status).Attends := by
  rcases h with hpool | ⟨y, r', job₁, hy, hjob₁, hargs₁, hover₁⟩
  · exact .inl hpool
  · have hne : r' ≠ r := ne_of_other hjob (.inr hover) hjob₁ hargs₁ hover₁
    have hyx : y ≠ x := by
      rintro rfl
      exact hne (Option.some.inj (hy.symm.trans hx))
    refine of_busy (x := y) ?_ ((Heap.get_put_of_ne hne).trans hjob₁) hargs₁ hover₁
    rw [busy_released, if_neg hyx]
    exact hy

/-- The oldest task goes to a free slot: it may be the validator. -/
lemma inserted {w : TaskPool.Waiting ServerProcess} {pool : TaskPool ServerProcess}
    {jobs : Heap (QueueJob ServerProcess)} (h : s.Attends) (hs : s.Consistent (w :: waiting))
    (hx : s.slotDone x = true) (hpool : pool.Holds waiting)
    (hkeep : ∀ y ≠ x, ∀ r, s.slotHead y = some r → jobs.get r = s.jobs.get r) :
    (s.inserted x pool jobs (newJob w) w.2).Attends := by
  rcases h with ⟨all, hall, v, hv, hargs⟩ | ⟨y, r, job, hy, hjob, hargs, hover⟩
  · cases hall.unique hs.pool
    rcases List.mem_cons.mp hv with rfl | hv
    · refine of_busy (x := x) ?_ (Heap.get_alloc_self _ _) hargs rfl
      rw [busy_inserted, if_pos rfl]
    · exact of_waiting hpool hv hargs
  · have hyx : y ≠ x := ne_of_busy hx hy
    refine of_busy (x := y) (r := r) ?_ ?_ hargs hover
    · rw [busy_inserted, if_neg hyx, hy]
    · exact (hs.get_alloc hkeep _ hyx (busy_eq_some.mp hy).2).1.trans hjob

/-- A task is added to the pool. -/
lemma added {pool : TaskPool ServerProcess} {w : TaskPool.Waiting ServerProcess}
    {accepted : List (TaskPool.Waiting ServerProcess)} (h : s.Attends) (hs : s.Consistent waiting)
    (hpool : pool.Holds (waiting ++ [w])) : Attends { s with pool, accepted } := by
  rcases h with ⟨all, hall, v, hv, hargs⟩ | hbusy
  · cases hall.unique hs.pool
    exact of_waiting hpool (List.mem_append_left _ hv) hargs
  · exact .inr hbusy

end Attends

/-- A step that neither adds a task nor calls `start_proc` keeps the tasks accepted, and whoever
attends to the sink. -/
lemma step_quiet [NeZero n] {e : SchedEvent ServerProcess n} (hs : s.Consistent waiting)
    (hadd : ∀ task loadType, e ≠ .addTask task loadType) (hstart : ∀ i status, e ≠ .startProc i status)
    (hstep : s.step e = .ok s') : s'.accepted = s.accepted ∧ (s.Attends → s'.Attends) := by
  cases e with
  | addTask task loadType => exact absurd rfl (hadd task loadType)
  | startProc i status => exact absurd rfl (hstart i status)
  | countSlots =>
    simp only [Scheduler.step, Outcome.guard_eq_ok, Outcome.pure_eq_ok] at hstep
    obtain ⟨-, rfl⟩ := hstep
    exact ⟨rfl, id⟩
  | place =>
    cases hsched : s.sched with
    | waiting =>
      simp only [Scheduler.step, hsched] at hstep
      cases hstep
    | placing j qSlots =>
      simp only [Scheduler.step, hsched] at hstep
      cases waiting with
      | nil =>
        obtain ⟨hplace, -⟩ := hs.place_nil j qSlots
        rw [hstep] at hplace
        cases hplace
        exact ⟨rfl, id⟩
      | cons w waiting =>
        rcases hs.place_cases hstep with rfl | ⟨x, pool, jobs, hx, hpool, -, hkeep, rfl⟩
        · exact ⟨rfl, id⟩
        · exact ⟨rfl, fun h => h.inserted hs hx hpool hkeep⟩
  | pauseProc i status => exact absurd hstep hs.not_pauseProc
  | endProc i status =>
    simp only [Scheduler.step, Scheduler.endProc, Outcome.bind_eq_ok, Heap.deref_eq_ok,
      Outcome.guard_eq_ok, Outcome.pure_eq_ok, Prod.exists, Bool.and_eq_true] at hstep
    obtain ⟨r, timer, hcur, job, hjob, ⟨-, hover⟩, rfl⟩ := hstep
    exact ⟨rfl, fun h => h.released (hs.of_currentJob hcur).1 hjob hover⟩
  | advance i =>
    simp only [Scheduler.step, Scheduler.advance, Outcome.guard_eq_ok, Outcome.pure_eq_ok] at hstep
    obtain ⟨-, rfl⟩ := hstep
    exact ⟨rfl, id⟩
  | timer i =>
    simp only [Scheduler.step, Scheduler.fireTimer] at hstep
    cases hpc : (s.threads i).pc with
    | inJob r timer =>
      simp only [hpc, Outcome.pure_eq_ok] at hstep
      rw [← hstep]
      exact ⟨rfl, id⟩
    | atHead =>
      rw [hpc] at hstep
      cases hstep
    | leaving =>
      rw [hpc] at hstep
      cases hstep

end Scheduler

/-! ### One step -/

namespace Reception

variable {n : ℕ} {x x' : Reception n} {waiting : List (TaskPool.Waiting ServerProcess)}

/-- The invariant: the scheduler is consistent, at most one task accepted is the sender core's, and
the sink is attended. -/
structure Inv (x : Reception n) : Prop where
  consistent : ∃ waiting, x.sched.Consistent waiting
  senderCore : x.sched.accepted.countP (·.1.args = .senderCore) ≤ x.started.toNat
  attended : x.Attended

lemma Inv.init {s : Server} (hs : s.receiverSink.sinkItemList = []) : (init s n).Inv where
  consistent := ⟨[], .init ServerProcess n⟩
  senderCore := Nat.le_refl 0
  attended hne := absurd hs hne

variable [NeZero n]

lemma schedule_cases {e : SchedEvent ServerProcess n} (h : x.schedule e = .ok x') :
    ∃ sched, x.sched.step e = .ok sched ∧ x' = { x with sched } := by
  simp only [schedule, Outcome.bind_eq_ok, Outcome.pure_eq_ok] at h
  obtain ⟨sched, hsched, rfl⟩ := h
  exact ⟨sched, hsched, rfl⟩

namespace Inv

/-- The scheduler and its threads go on. -/
lemma quiet {e : SchedEvent ServerProcess n} (hI : x.Inv)
    (hadd : ∀ task loadType, e ≠ .addTask task loadType)
    (hstart : ∀ i status, e ≠ .startProc i status) (h : x.schedule e = .ok x') : x'.Inv := by
  obtain ⟨sched, hsched, rfl⟩ := schedule_cases h
  obtain ⟨waiting, hs⟩ := hI.consistent
  obtain ⟨haccepted, hattends⟩ := Scheduler.step_quiet hs hadd hstart hsched
  refine ⟨hs.step hsched, ?_, fun hne => (hI.attended hne).imp_left hattends⟩
  rw [haccepted]
  exact hI.senderCore

/-- A job is started: a validator that is done leaves an empty sink, and one that is not goes on
attending. -/
lemma startProc {i : Fin n} (hI : x.Inv) (h : x.startProc i = .ok x') : x'.Inv := by
  simp only [Reception.startProc, Outcome.bind_eq_ok, Heap.deref_eq_ok, Outcome.pure_eq_ok,
    Prod.exists] at h
  obtain ⟨r, timer, hcur, job, hjob, server, status, hstart, x₁, hx₁, rfl⟩ := h
  obtain ⟨sched, hsched, rfl⟩ := schedule_cases hx₁
  obtain ⟨waiting, hs⟩ := hI.consistent
  have hcons := hs.step hsched
  simp only [Scheduler.step, Scheduler.startProc, Outcome.bind_eq_ok, Heap.deref_eq_ok,
    Outcome.guard_eq_ok, Outcome.pure_eq_ok, Prod.exists] at hsched
  obtain ⟨r', timer', hcur', job', hjob', -, rfl⟩ := hsched
  cases hcur.symm.trans hcur'
  cases hjob.symm.trans hjob'
  refine ⟨hcons, hI.senderCore, fun hne => ?_⟩
  change server.receiverSink.sinkItemList ≠ [] at hne
  rcases ServerProcess.senderCore_or_validator job.args with hargs | hargs
  · rw [hargs] at hstart
    rw [Server.startSenderCore_receiverSink hstart] at hne
    have hcalled : ∀ job' call, x.sched.Attends → (x.sched.called r job' call).Attends :=
      fun job' call hattends => hattends.called hjob hargs job' call
    exact (hI.attended hne).imp_left (hcalled { job with jobStatus := status } (.startProc status))
  · rw [hargs] at hstart
    cases hover : status.isOver with
    | true => exact absurd (Server.startValidator_isOver hstart hover) hne
    | false =>
      exact .inl (.of_busy (hs.of_currentJob hcur).1 (Heap.get_put_self hjob) hargs hover)

/-- The sender core's task is added, once. -/
lemma start (hI : x.Inv) (hnot : x.started = false)
    (h : x.schedule (.addTask senderCoreTask .lowPriority) = .ok x') :
    Inv { x' with started := true } := by
  obtain ⟨sched, hsched, rfl⟩ := schedule_cases h
  obtain ⟨waiting, hs⟩ := hI.consistent
  have hcount : x.sched.accepted.countP (·.1.args = .senderCore) ≤ 0 := by
    simpa [hnot] using hI.senderCore
  rcases hs.addTask senderCoreTask .lowPriority with ⟨-, ht⟩ | ⟨pool, ht, hcons⟩
  · cases hsched.symm.trans ht
    exact ⟨⟨waiting, hs⟩, hcount.trans (Nat.zero_le 1), hI.attended⟩
  · cases hsched.symm.trans ht
    refine ⟨⟨_, hcons⟩, ?_, fun hne => (hI.attended hne).imp_left ?_⟩
    · show (x.sched.accepted ++ [(senderCoreTask, TaskPriority.lowPriority)]).countP _ ≤ 1
      rw [List.countP_append]
      exact Nat.add_le_add hcount (List.countP_le_length)
    · exact fun hattends => hattends.added hs hcons.pool

/-- A session adds a validator task. If the pool is full, another one is waiting in it. -/
lemma initValidator (hI : x.Inv)
    (h : x.schedule (.addTask validatorTask .mediumPriority) = .ok x') (sessions : ℕ) :
    Inv { x' with sessions } := by
  obtain ⟨sched, hsched, rfl⟩ := schedule_cases h
  obtain ⟨waiting, hs⟩ := hI.consistent
  rcases hs.addTask validatorTask .mediumPriority with ⟨hfull, ht⟩ | ⟨pool, ht, hcons⟩
  · cases hsched.symm.trans ht
    have hone : waiting.countP (·.1.args = .senderCore) ≤ 1 := by
      have hle := hI.senderCore.trans (Bool.toNat_le x.started)
      rw [hs.order, List.countP_append] at hle
      exact (Nat.le_add_left _ _).trans hle
    obtain ⟨w, hw, hargs⟩ := Scheduler.exists_validator hfull hone
    exact ⟨⟨waiting, hs⟩, hI.senderCore, fun _ => .inl (.of_waiting hs.pool hw hargs)⟩
  · cases hsched.symm.trans ht
    have hmem : (validatorTask, TaskPriority.mediumPriority) ∈
        waiting ++ [(validatorTask, TaskPriority.mediumPriority)] :=
      List.mem_append_right _ (List.mem_singleton_self _)
    refine ⟨⟨_, hcons⟩, ?_, fun _ => .inl (.of_waiting hcons.pool hmem rfl)⟩
    show (x.sched.accepted ++ [(validatorTask, TaskPriority.mediumPriority)]).countP _ ≤ _
    rw [List.countP_append]
    exact hI.senderCore

lemma step {e : ReceptionEvent n} (hI : x.Inv) (h : x.step e = .ok x') : x'.Inv := by
  cases e with
  | start =>
    simp only [Reception.step, Outcome.guard_eq_ok, Outcome.bind_eq_ok, Outcome.pure_eq_ok,
      Bool.not_eq_true'] at h
    obtain ⟨hnot, x₁, hx₁, rfl⟩ := h
    exact hI.start hnot hx₁
  | receivePacket packet =>
    simp only [Reception.step, Outcome.bind_eq_ok, Outcome.pure_eq_ok] at h
    obtain ⟨server, -, rfl⟩ := h
    exact ⟨hI.consistent, hI.senderCore, fun _ => .inr (Nat.succ_pos _)⟩
  | initValidator =>
    simp only [Reception.step, Outcome.guard_eq_ok, Outcome.bind_eq_ok, Outcome.pure_eq_ok] at h
    obtain ⟨-, x₁, hx₁, rfl⟩ := h
    exact hI.initValidator hx₁ _
  | startProc i => exact hI.startProc h
  | countSlots => exact hI.quiet (by rintro _ _ ⟨⟩) (by rintro _ _ ⟨⟩) h
  | place => exact hI.quiet (by rintro _ _ ⟨⟩) (by rintro _ _ ⟨⟩) h
  | pauseProc i => exact hI.quiet (by rintro _ _ ⟨⟩) (by rintro _ _ ⟨⟩) h
  | endProc i => exact hI.quiet (by rintro _ _ ⟨⟩) (by rintro _ _ ⟨⟩) h
  | advance i => exact hI.quiet (by rintro _ _ ⟨⟩) (by rintro _ _ ⟨⟩) h
  | timer i => exact hI.quiet (by rintro _ _ ⟨⟩) (by rintro _ _ ⟨⟩) h

end Inv

/-- In every run no packet in the receiver sink is stranded. -/
theorem run_attended {s : Server} (hs : s.receiverSink.sinkItemList = [])
    {es : List (ReceptionEvent n)} (h : run step (init s n) es = .ok x) : x.Attended :=
  (run_invariant (I := fun y : Reception n => y.Inv) (fun _ _ _ hI hstep => hI.step hstep)
    (.init hs) h).attended

/-- An acknowledgement of the worker `1`. -/
def ackPacket : Json :=
  .obj [("head", .int 4), ("id", .str "1"), ("body", .obj [("id", .str "T")])]

/-- Two packets come in; the first validator handles one while the second task waits. -/
theorem run_attended_twoPackets : ∃ x,
    run step (init (Server.init (fun _ => false) fun _ => 0) 2)
      [.start, .receivePacket ackPacket, .receivePacket ackPacket, .initValidator, .countSlots,
        .place, .startProc 0, .place, .startProc 1] = .ok x ∧ x.Attended :=
  Outcome.exists_ok_and (by decide) fun _ h => run_attended rfl h

end Reception

end ServerUnit
