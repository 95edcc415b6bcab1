import ServerUnit.Lib.Machine
import ServerUnit.Sched.TaskPool
import Mathlib.Algebra.BigOperators.Group.Finset.Basic
import Mathlib.Algebra.GroupWithZero.Nat
import Mathlib.Data.Fintype.BigOperators
import Mathlib.Data.Fintype.Prod

/-!
# The scheduler and its threads (`sched/task_scheduler.cpp`)

`sched_task` counts the free slots of all queues and places as many tasks, if there are, each in
the first free slot of the quickest queue. Each thread goes round the slots of its queue: it
calls `start_proc` of the job it finds until the job is done or has failed, and `end_proc`, which
frees the slot, when it comes round to the job again. A procedure's return value is the
environment's choice, and so is the time at which the condition variable wakes the scheduler.
-/

namespace ServerUnit

open Lib

/-- An address of a `queue_job`. -/
abbrev JobRef := ℕ

/-- `QUEUE_SIZE` -/
abbrev queueSize : ℕ := 4

instance : NeZero queueSize := ⟨by decide⟩

/-- `queue_job` -/
structure QueueJob (τ : Type) where
  proc : Process
  args : τ
  cpuSliceMs : ℕ
  jobStatus : JobStatus
  deriving DecidableEq, Repr

/-- `job_timer`. The slice is set for a job that can be paused only. -/
structure JobTimer where
  allowedCpuSlice : Option ℕ
  jobShouldPause : Bool
  deriving DecidableEq, Repr

/-- `thread_queue` -/
structure ThreadQueue where
  queueHead : Fin queueSize → Option JobRef
  qSlotDone : Fin queueSize → Bool
  totalJobsInQueue : ℕ

/-- Where a thread stands in the loop of `thread_task`. -/
inductive TaskPc where
  /-- About to look at the slot at its head. -/
  | atHead
  /-- In the inner loop, after a call of `start_proc` that left the job pending. -/
  | inJob (job : JobRef) (timer : JobTimer)
  /-- About to advance its head. -/
  | leaving
  deriving DecidableEq

structure ThreadTask where
  head : Fin queueSize
  pc : TaskPc
  deriving DecidableEq

/-- Where `sched_task` stands: before the count of a pass, or before a round of its loop. -/
inductive SchedPc where
  | waiting
  | placing (j qSlots : ℕ)
  deriving DecidableEq

/-- A call of a job's procedure, with the status it returned. -/
inductive ProcCall where
  | startProc (status : JobStatus)
  | pauseProc (status : JobStatus)
  | endProc (status : JobStatus)
  deriving DecidableEq

/-- `n` threads with their queues. The histories are not in the source: the tasks that `addTask`
accepted and those that left the pool, the calls made for each job, and the jobs whose slots
`thread_task` released, all oldest first. -/
structure Scheduler (τ : Type) (n : ℕ) where
  pool : TaskPool τ
  jobs : Heap (QueueJob τ)
  queues : Fin n → ThreadQueue
  threads : Fin n → ThreadTask
  sched : SchedPc
  accepted : List (TaskPool.Waiting τ)
  left : List (TaskPool.Waiting τ)
  calls : List (JobRef × ProcCall)
  finished : List (JobRef × TaskStruct τ)

inductive SchedEvent (τ : Type) (n : ℕ) where
  | addTask (task : TaskStruct τ) (loadType : TaskPriority)
  | countSlots
  | place
  | startProc (i : Fin n) (status : JobStatus)
  | pauseProc (i : Fin n) (status : JobStatus)
  | endProc (i : Fin n) (status : JobStatus)
  | advance (i : Fin n)
  | timer (i : Fin n)

/-- A job that `start_proc` is not called for again. -/
def JobStatus.isOver (status : JobStatus) : Bool := status = .jobDone || status = .jobFailed

/-- `get_cpu_slice` -/
def getCpuSlice : TaskPriority → ℕ
  | .nonPreemtable  => 0
  | .highPriority   => 6 * 1000000
  | .mediumPriority => 4 * 1000000
  | .lowPriority    => 2 * 1000000

variable {τ : Type} {n : ℕ}

/-- The task that a job is made of. -/
def QueueJob.task (job : QueueJob τ) : TaskStruct τ := ⟨job.proc, job.args⟩

/-- `init_timer` -/
def initTimer (job : QueueJob τ) : JobTimer :=
  if job.proc.pauseProc then ⟨some job.cpuSliceMs, false⟩ else ⟨none, false⟩

/-- `start_job_timer`, after its sleep. -/
def startJobTimer (jTimer : JobTimer) : JobTimer := { jTimer with jobShouldPause := false }

/-- `init_job` -/
def initJob (task : TaskPoolNode τ) : Outcome (QueueJob τ) := do
  let taskItem ← Outcome.ofOption task.taskItem
  return ⟨taskItem.proc, taskItem.args, getCpuSlice task.taskType, .jobPending⟩

/-- `dealloc_job`, for a slot that has a job. -/
def deallocJob (jobs : Heap (QueueJob τ)) : Option JobRef → Outcome (Heap (QueueJob τ))
  | none     => return jobs
  | some job => do
    let _ ← jobs.deref job
    return jobs.free job

namespace Scheduler

/-- `init_sched`: all slots are free, and the threads have started. -/
def init (τ : Type) (n : ℕ) : Scheduler τ n :=
  { pool := .init τ
    jobs := .empty
    queues := fun _ => ⟨fun _ => none, fun _ => true, 0⟩
    threads := fun _ => ⟨0, .atHead⟩
    sched := .waiting
    accepted := []
    left := []
    calls := []
    finished := [] }

/-- A slot of one of the queues. -/
abbrev Slot (n : ℕ) := Fin n × Fin queueSize

def slotHead (s : Scheduler τ n) (x : Slot n) : Option JobRef := (s.queues x.1).queueHead x.2

def slotDone (s : Scheduler τ n) (x : Slot n) : Bool := (s.queues x.1).qSlotDone x.2

def setQueue (s : Scheduler τ n) (i : Fin n) (q : ThreadQueue) : Scheduler τ n :=
  { s with queues := Function.update s.queues i q }

def setThread (s : Scheduler τ n) (i : Fin n) (t : ThreadTask) : Scheduler τ n :=
  { s with threads := Function.update s.threads i t }

/-! ### `sched_task` -/

/-- The free slots of a queue. -/
def freeSlots (q : ThreadQueue) : ℕ := (Finset.univ.filter fun j => q.qSlotDone j).card

/-- `get_total_empty_slots` -/
def getTotalEmptySlots (s : Scheduler τ n) : ℕ := ∑ i, freeSlots (s.queues i)

/-- The time that a slot adds to the wait time of its queue. There are four slots. -/
def slotWaitTime (s : Scheduler τ n) (q : ThreadQueue) (slot : ℕ) : Outcome ℕ :=
  if h : slot < queueSize then
    if q.qSlotDone ⟨slot, h⟩ then
      return 0
    else do
      let r ← Outcome.ofOption (q.queueHead ⟨slot, h⟩)
      let job ← s.jobs.deref r
      return if job.cpuSliceMs = 0 then 999 else job.cpuSliceMs
  else
    .error .undefined

/-- The first `j` rounds of the inner loop of `get_quickest_queue`. It goes over the threads, not
over the slots, and each round reads the slot whose number is the thread's. -/
def totalWaitTime (s : Scheduler τ n) (i : Fin n) : ℕ → Outcome ℕ
  | 0     => return 0
  | j + 1 => do
    let total ← s.totalWaitTime i j
    let waitTime ← s.slotWaitTime (s.queues i) i
    return total + waitTime

/-- The outer loop of `get_quickest_queue`. -/
def quickestQueueLoop (s : Scheduler τ n) :
    List (Fin n) → (threadID : Fin n) → (lowestWaitTime : ℕ) → Outcome (Fin n)
  | [], threadID, _ => return threadID
  | i :: is, threadID, lowestWaitTime =>
    if queueSize ≤ (s.queues i).totalJobsInQueue then
      s.quickestQueueLoop is threadID lowestWaitTime
    else do
      let totalWaitTime ← s.totalWaitTime i n
      if totalWaitTime < lowestWaitTime then
        s.quickestQueueLoop is i totalWaitTime
      else
        s.quickestQueueLoop is threadID lowestWaitTime

/-- `INT_MAX` -/
abbrev intMax : ℕ := 2147483647

/-- `get_quickest_queue` -/
def getQuickestQueue [NeZero n] (s : Scheduler τ n) : Outcome (Fin n) :=
  s.quickestQueueLoop (List.finRange n) 0 intMax

/-- The first free slot of a queue. -/
def firstFreeSlot (q : ThreadQueue) : Option (Fin queueSize) :=
  (List.finRange queueSize).find? fun k => q.qSlotDone k

/-- A queue with a new job in a slot. The count is a byte. -/
def insertSlot (q : ThreadQueue) (k : Fin queueSize) (job : JobRef) : ThreadQueue :=
  { queueHead := Function.update q.queueHead k (some job)
    qSlotDone := Function.update q.qSlotDone k false
    totalJobsInQueue := (q.totalJobsInQueue + 1) % 256 }

/-- A popped task has become the new job in a slot. -/
def inserted (s : Scheduler τ n) (x : Slot n) (pool : TaskPool τ) (jobs : Heap (QueueJob τ))
    (job : QueueJob τ) (taskType : TaskPriority) : Scheduler τ n :=
  { s.setQueue x.1 (insertSlot (s.queues x.1) x.2 jobs.next) with
    pool
    jobs := jobs.alloc job
    left := s.left ++ [(job.task, taskType)] }

/-- The loop of `sched_task` over the slots of one queue: the oldest task goes to the first free
one. -/
def insertJob (s : Scheduler τ n) (i : Fin n) : Outcome (Scheduler τ n) :=
  match firstFreeSlot (s.queues i) with
  | none   => return s
  | some k => do
    let jobs ← deallocJob s.jobs ((s.queues i).queueHead k)
    let (pool, node) ← s.pool.popTask
    let job ← initJob node
    return s.inserted (i, k) pool jobs job node.taskType

/-- A round of the loop is over: another one, or the wait for a signal. -/
def nextRound (j qSlots : ℕ) : SchedPc :=
  if j + 1 < qSlots then .placing (j + 1) qSlots else .waiting

/-- One round of the loop of `sched_task`. -/
def place [NeZero n] (s : Scheduler τ n) (j qSlots : ℕ) : Outcome (Scheduler τ n) :=
  if 0 < s.pool.getTaskPoolSize then do
    let i ← s.getQuickestQueue
    let s ← s.insertJob i
    return { s with sched := nextRound j qSlots }
  else
    return { s with sched := .waiting }

/-! ### `thread_task` -/

/-- The test at the head of the loop: there is a job in the slot. -/
def jobAtHead (s : Scheduler τ n) (i : Fin n) : Bool :=
  !(s.queues i).qSlotDone (s.threads i).head && (s.queues i).totalJobsInQueue ≠ 0

/-- The job that the thread is in, or else comes to at the head of its queue, with its timer. -/
def currentJob (s : Scheduler τ n) (i : Fin n) : Outcome (JobRef × JobTimer) :=
  match (s.threads i).pc with
  | .atHead =>
    Outcome.guard (s.jobAtHead i) do
      let r ← Outcome.ofOption ((s.queues i).queueHead (s.threads i).head)
      let job ← s.jobs.deref r
      return (r, initTimer job)
  | .inJob r timer => return (r, timer)
  | .leaving => .error .disabled

/-- A procedure of a job was called and has returned. -/
def called (s : Scheduler τ n) (r : JobRef) (job : QueueJob τ) (call : ProcCall) :
    Scheduler τ n :=
  { s with jobs := s.jobs.put r job, calls := s.calls ++ [(r, call)] }

/-- A round of the inner loop with a call of `start_proc`. -/
def startProc (s : Scheduler τ n) (i : Fin n) (status : JobStatus) : Outcome (Scheduler τ n) := do
  let (r, timer) ← s.currentJob i
  let job ← s.jobs.deref r
  Outcome.guard (!timer.jobShouldPause && !job.jobStatus.isOver) <|
    return (s.called r { job with jobStatus := status } (.startProc status)).setThread i
      ⟨(s.threads i).head, if status.isOver then .leaving else .inJob r timer⟩

/-- The inner loop ends because of the timer; `pause_proc` may be null. -/
def pauseProc (s : Scheduler τ n) (i : Fin n) (status : JobStatus) : Outcome (Scheduler τ n) := do
  let (r, timer) ← s.currentJob i
  let job ← s.jobs.deref r
  Outcome.guard timer.jobShouldPause <|
    return (if job.proc.pauseProc then s.called r job (.pauseProc status) else s).setThread i
      ⟨(s.threads i).head, .leaving⟩

/-- A queue with a slot released. The count is a byte. -/
def releaseSlot (q : ThreadQueue) (k : Fin queueSize) : ThreadQueue :=
  { q with
    qSlotDone := Function.update q.qSlotDone k true
    totalJobsInQueue := (q.totalJobsInQueue + 255) % 256 }

/-- `end_proc` was called for the job in a slot, and the slot is released. -/
def released (s : Scheduler τ n) (x : Slot n) (r : JobRef) (job : QueueJob τ)
    (status : JobStatus) : Scheduler τ n :=
  { (s.called r { job with jobStatus := status } (.endProc status)).setQueue x.1
      (releaseSlot (s.queues x.1) x.2) with
    finished := s.finished ++ [(r, job.task)] }

/-- A round of the inner loop with a call of `end_proc`. -/
def endProc (s : Scheduler τ n) (i : Fin n) (status : JobStatus) : Outcome (Scheduler τ n) := do
  let (r, timer) ← s.currentJob i
  let job ← s.jobs.deref r
  Outcome.guard (!timer.jobShouldPause && job.jobStatus.isOver) <|
    return (s.released (i, (s.threads i).head) r job status).setThread i
      ⟨(s.threads i).head, .leaving⟩

/-- `head = ++head % QUEUE_SIZE`, after the inner loop or past a slot without a job. -/
def advance (s : Scheduler τ n) (i : Fin n) : Outcome (Scheduler τ n) :=
  Outcome.guard ((s.threads i).pc = .leaving ∨ (s.threads i).pc = .atHead ∧ !s.jobAtHead i) <|
    return s.setThread i ⟨(s.threads i).head + 1, .atHead⟩

/-- The timer of the job that the thread is in. Any other one is not read any more. -/
def fireTimer (s : Scheduler τ n) (i : Fin n) : Outcome (Scheduler τ n) :=
  match (s.threads i).pc with
  | .inJob r timer => return s.setThread i ⟨(s.threads i).head, .inJob r (startJobTimer timer)⟩
  | _ => .error .disabled

def step [NeZero n] (s : Scheduler τ n) : SchedEvent τ n → Outcome (Scheduler τ n)
  | .addTask task loadType => do
    let (pool, rc) ← s.pool.addTask task loadType
    return { s with
      pool
      accepted := if rc = 0 then s.accepted ++ [(task, loadType)] else s.accepted }
  | .countSlots =>
    Outcome.guard (s.sched = .waiting) <|
      let qSlots := s.getTotalEmptySlots
      return { s with sched := if 0 < qSlots then .placing 0 qSlots else .waiting }
  | .place =>
    match s.sched with
    | .waiting => .error .disabled
    | .placing j qSlots => s.place j qSlots
  | .startProc i status => s.startProc i status
  | .pauseProc i status => s.pauseProc i status
  | .endProc i status => s.endProc i status
  | .advance i => s.advance i
  | .timer i => s.fireTimer i

/-! ### What conservation says -/

/-- The job in a slot that is not done. -/
def busy (s : Scheduler τ n) (x : Slot n) : Option JobRef :=
  if s.slotDone x then none else s.slotHead x

/-- The task of the job in a slot that is not done. -/
def slotTasks (s : Scheduler τ n) (x : Slot n) : Multiset (TaskStruct τ) :=
  match (s.busy x).bind s.jobs.get with
  | none     => 0
  | some job => {job.task}

/-- The slots of a queue that are not done. -/
def pendingSlots (q : ThreadQueue) : ℕ := (Finset.univ.filter fun j => q.qSlotDone j = false).card

/-- The calls made for a job, oldest first. -/
def callsOf (s : Scheduler τ n) (r : JobRef) : List ProcCall :=
  (s.calls.filter fun c => c.1 = r).map Prod.snd

/-- `start_proc` was called, and never reported `JOB_DONE` or `JOB_FAILED`. -/
def Running (calls : List ProcCall) : Prop :=
  ∀ c ∈ calls, ∃ status : JobStatus, c = .startProc status ∧ status.isOver = false

/-- The last call of `start_proc`, and no other, reported `JOB_DONE` or `JOB_FAILED`. -/
def Over (calls : List ProcCall) : Prop :=
  ∃ (before : List ProcCall) (status : JobStatus),
    Running before ∧ status.isOver = true ∧ calls = before ++ [.startProc status]

/-- After that `end_proc` was called, once, and nothing else. -/
def Finished (calls : List ProcCall) : Prop :=
  ∃ (before : List ProcCall) (status : JobStatus),
    Over before ∧ calls = before ++ [.endProc status]

/-- The calls that a job in a slot has seen go with its status. -/
def Phase (job : QueueJob τ) (calls : List ProcCall) : Prop :=
  if job.jobStatus.isOver then Over calls else Running calls

/-- The job that a task of the pool becomes. -/
def newJob (w : TaskPool.Waiting τ) : QueueJob τ :=
  ⟨w.1.proc, w.1.args, getCpuSlice w.2, .jobPending⟩

/-- One task has left the pool for one slot that was free, in a new job. All other slots, and the
jobs in those that are not done, are as before. -/
def PlacesOne (s : Scheduler τ n) (w : TaskPool.Waiting τ) (s' : Scheduler τ n) : Prop :=
  s'.left = s.left ++ [w] ∧
    ∃ x, s.busy x = none ∧ s'.busy x = some s.jobs.next ∧
      s'.jobs.get s.jobs.next = some (newJob w) ∧
      (∀ y ≠ x, s'.busy y = s.busy y) ∧
      ∀ y r, s.busy y = some r → s'.jobs.get r = s.jobs.get r

/-- Where all tasks are, what was called for their jobs, and what the scheduler and the threads
can do next. -/
structure Conserved [NeZero n] (s : Scheduler τ n) (waiting : List (TaskPool.Waiting τ)) :
    Prop where
  pool : s.pool.Holds waiting
  /-- Every task accepted waits, or is in a slot that is not done, or has finished. -/
  tasks : (s.accepted.map Prod.fst : Multiset (TaskStruct τ)) =
    waiting.map Prod.fst + ∑ x, s.slotTasks x + s.finished.map Prod.snd
  order : s.accepted = s.left ++ waiting
  places : ∀ w rest, waiting = w :: rest → s.sched ≠ .waiting →
    ∃ s', s.step .place = .ok s' ∧ s.PlacesOne w s' ∧ s'.pool.Holds rest
  busy : ∀ x, s.slotDone x = false → ∃ r job, s.busy x = some r ∧ s.jobs.get r = some job ∧
    Phase job (s.callsOf r)
  finished : (s.finished.map Prod.fst).Nodup ∧
    ∀ r ∈ s.finished.map Prod.fst, Finished (s.callsOf r)
  /-- No job has been lost. -/
  jobs : ∀ r < s.jobs.next, (∃! x, s.busy x = some r) ∨ r ∈ s.finished.map Prod.fst
  count : ∀ i, (s.queues i).totalJobsInQueue = pendingSlots (s.queues i)
  /-- No step goes wrong. -/
  safe : ∀ e, (s.step e).Safe

end Scheduler

end ServerUnit
