import ServerUnit.Sched.TaskScheduler

/-!
# The hand-over of a job (`sched/task_scheduler.cpp`, statement by statement)

The scheduler puts a job into a slot of a queue, and the thread that owns the queue gives the slot
back with `qSlotDone[head] = 1`. It then goes on reading the job, up to the test of `pause_proc`,
while the scheduler may take the slot again and destroy the job.
-/

namespace ServerUnit

open Lib

/-- The statements of `sched_task` that place a task in a queue. -/
inductive PlacementPc where
  /-- Somewhere else, or with another queue. -/
  | elsewhere
  /-- `if(queue->qSlotDone[i])` -/
  | testSlot (i : Fin queueSize)
  /-- `if(queue->queueHead[i] && queue->qSlotDone[i])` -/
  | testHead (i : Fin queueSize)
  | deallocJob (i : Fin queueSize)
  /-- `job = init_job(globalTaskPool->popTask())` -/
  | initJob (i : Fin queueSize)
  /-- `queue->queueHead[i] = job` -/
  | setHead (i : Fin queueSize) (job : JobRef)
  /-- `queue->qSlotDone[i] = 0` -/
  | clearDone (i : Fin queueSize)
  /-- `queue->totalJobsInQueue++` -/
  | increment
  deriving DecidableEq

/-- The statements of one iteration of `thread_task`. -/
inductive IterationPc where
  /-- `if(!queue->qSlotDone[head] && queue->totalJobsInQueue)` -/
  | testSlot
  /-- `job = queue->queueHead[head]` -/
  | readHead
  /-- `timer = init_timer(job)` -/
  | initTimer
  /-- `while(!timer->jobShouldPause)` -/
  | testTimer
  /-- `if(job->jobStatus == JOB_DONE || job->jobStatus == JOB_FAILED)` -/
  | testStatus
  /-- `job->jobStatus = job->proc->end_proc(job->args, job->jobStatus)` -/
  | endProc
  /-- `queue->qSlotDone[head] = 1` -/
  | setDone
  /-- `queue->totalJobsInQueue--` -/
  | decrement
  /-- `pthread_cond_signal(&cond)`, and `break`. -/
  | signal
  /-- `job->jobStatus = job->proc->start_proc(job->args)` -/
  | startProc
  /-- `if(job->jobStatus == JOB_DONE)` -/
  | testDone
  /-- `else if (job->jobStatus == JOB_FAILED)` -/
  | testFailed
  /-- `job->jobErrorHandle = 1`, which nobody reads, and `break`. -/
  | setErrorHandle
  /-- `if(job->proc->pause_proc && timer->jobShouldPause)` -/
  | testPause
  /-- `job->proc->pause_proc(job->args)` -/
  | pauseProc
  /-- `head = ++head % QUEUE_SIZE` -/
  | advance
  deriving DecidableEq

/-- The thread has taken up the job at its head and may read it again. -/
def IterationPc.inHand : IterationPc → Bool
  | testSlot | readHead | advance => false
  | _ => true

/-- The local variables of `thread_task`. -/
structure ThreadLocals where
  head : Fin queueSize
  job : Option JobRef
  timer : JobTimer
  pc : IterationPc
  deriving DecidableEq

/-- The scheduler and one thread with its queue. -/
structure Handover (τ : Type) where
  jobs : Heap (QueueJob τ)
  queue : ThreadQueue
  sched : PlacementPc
  thread : ThreadLocals

inductive HandoverEvent (τ : Type) where
  /-- The scheduler's next statement; the task is the one popped, if one is. -/
  | sched (w : TaskPool.Waiting τ)
  /-- The thread's next statement; the status is what the procedure returned, if one is called. -/
  | thread (status : JobStatus)
  /-- The job timer of this iteration. -/
  | timer

namespace Handover

variable {τ : Type}

def init (τ : Type) : Handover τ :=
  { jobs := .empty
    queue := ⟨fun _ => none, fun _ => true, 0⟩
    sched := .elsewhere
    thread := ⟨0, none, ⟨none, false⟩, .testSlot⟩ }

/-- The next round of the loop over the slots. -/
def nextSlot (i : Fin queueSize) : PlacementPc :=
  if h : i + 1 < queueSize then .testSlot ⟨i + 1, h⟩ else .elsewhere

def schedStep (x : Handover τ) (w : TaskPool.Waiting τ) : Outcome (Handover τ) :=
  match x.sched with
  -- `get_quickest_queue` has returned this queue
  | .elsewhere => return { x with sched := .testSlot 0 }
  | .testSlot i =>
    return { x with sched := if x.queue.qSlotDone i then .testHead i else nextSlot i }
  | .testHead i =>
    return { x with sched :=
      if (x.queue.queueHead i).isSome && x.queue.qSlotDone i then .deallocJob i else .initJob i }
  | .deallocJob i => do
    let jobs ← ServerUnit.deallocJob x.jobs (x.queue.queueHead i)
    return { x with jobs, sched := .initJob i }
  | .initJob i => do
    let job ← ServerUnit.initJob (TaskPool.node w)
    return { x with jobs := x.jobs.alloc job, sched := .setHead i x.jobs.next }
  | .setHead i job =>
    return { x with
      queue := { x.queue with queueHead := Function.update x.queue.queueHead i (some job) }
      sched := .clearDone i }
  | .clearDone i =>
    return { x with
      queue := { x.queue with qSlotDone := Function.update x.queue.qSlotDone i false }
      sched := .increment }
  | .increment =>
    return { x with
      queue := { x.queue with totalJobsInQueue := (x.queue.totalJobsInQueue + 1) % 256 }
      sched := .elsewhere }

/-- The thread goes on at another statement. -/
def goto (x : Handover τ) (pc : IterationPc) : Handover τ :=
  { x with thread := { x.thread with pc } }

/-- The job that the thread's pointer refers to. -/
def readJob (x : Handover τ) : Outcome (JobRef × QueueJob τ) := do
  let r ← Outcome.ofOption x.thread.job
  let job ← x.jobs.deref r
  return (r, job)

/-- A statement that reads the job, which decides where the thread goes on. -/
def branch (x : Handover τ) (pc : QueueJob τ → IterationPc) : Outcome (Handover τ) := do
  let (_, job) ← x.readJob
  return x.goto (pc job)

/-- A call of one of the job's procedures that stores the status it returns. -/
def callProc (x : Handover τ) (status : JobStatus) (pc : IterationPc) : Outcome (Handover τ) := do
  let (r, job) ← x.readJob
  return { x with jobs := x.jobs.put r { job with jobStatus := status } }.goto pc

def threadStep (x : Handover τ) (status : JobStatus) : Outcome (Handover τ) :=
  match x.thread.pc with
  | .testSlot =>
    return x.goto <|
      if !x.queue.qSlotDone x.thread.head && x.queue.totalJobsInQueue ≠ 0 then .readHead
      else .advance
  | .readHead =>
    return { x with thread :=
      { x.thread with job := x.queue.queueHead x.thread.head, pc := .initTimer } }
  | .initTimer => do
    let (_, job) ← x.readJob
    return { x with thread := { x.thread with timer := ServerUnit.initTimer job } }.goto .testTimer
  | .testTimer => return x.goto (if x.thread.timer.jobShouldPause then .testPause else .testStatus)
  | .testStatus => x.branch fun job => if job.jobStatus.isOver then .endProc else .startProc
  | .endProc => x.callProc status .setDone
  | .setDone =>
    return { x with queue :=
      { x.queue with qSlotDone := Function.update x.queue.qSlotDone x.thread.head true } }.goto
        .decrement
  | .decrement =>
    return { x with queue :=
      { x.queue with totalJobsInQueue := (x.queue.totalJobsInQueue + 255) % 256 } }.goto .signal
  | .signal => return x.goto .testPause
  | .startProc => x.callProc status .testDone
  | .testDone => x.branch fun job => if job.jobStatus = .jobDone then .testPause else .testFailed
  | .testFailed =>
    x.branch fun job => if job.jobStatus = .jobFailed then .setErrorHandle else .testTimer
  | .setErrorHandle => x.branch fun _ => .testPause
  | .testPause =>
    x.branch fun job =>
      if job.proc.pauseProc && x.thread.timer.jobShouldPause then .pauseProc else .advance
  | .pauseProc => x.branch fun _ => .advance
  | .advance =>
    return { x with thread := { x.thread with head := x.thread.head + 1, pc := .testSlot } }

def step (x : Handover τ) : HandoverEvent τ → Outcome (Handover τ)
  | .sched w       => x.schedStep w
  | .thread status => x.threadStep status
  | .timer         =>
    return { x with thread := { x.thread with timer := startJobTimer x.thread.timer } }

/-- Whatever the thread does next, it reads no job that was destroyed. -/
def ReadsLive (x : Handover τ) : Prop := ∀ status, (x.step (.thread status)).Safe

/-- The scheduler destroys no job of the slot that the thread is at while the thread has its job in
hand. -/
def DeallocsLeft (x : Handover τ) : HandoverEvent τ → Prop
  | .sched _ => x.sched = .deallocJob x.thread.head → x.thread.pc.inHand = false
  | _        => True

/-! ### The invariant -/

/-- The job is there, and in no slot but the one that the thread is at. -/
structure Held (x : Handover τ) (r : JobRef) : Prop where
  live : ∃ job, x.jobs.get r = some job
  slot : ∀ k, x.queue.queueHead k = some r → k = x.thread.head

/-- What the scheduler relies on before each of its statements. -/
def Placing (x : Handover τ) : PlacementPc → Prop
  | .elsewhere | .testSlot _ | .increment => True
  | .testHead i | .deallocJob i | .initJob i => x.queue.qSlotDone i = true
  | .setHead i r => x.queue.qSlotDone i = true ∧ (∃ job, x.jobs.get r = some job) ∧
      x.thread.job ≠ some r ∧ ∀ k, x.queue.queueHead k ≠ some r
  | .clearDone i => ∃ r job, x.queue.queueHead i = some r ∧ x.jobs.get r = some job

structure Inv (x : Handover τ) : Prop where
  /-- A slot that is not done has a job. -/
  filled : ∀ k, x.queue.qSlotDone k = false →
    ∃ r job, x.queue.queueHead k = some r ∧ x.jobs.get r = some job
  distinct : ∀ k k' r, x.queue.queueHead k = some r → x.queue.queueHead k' = some r → k = k'
  /-- No pointer is to an address not used yet. -/
  heads : ∀ k r, x.queue.queueHead k = some r → r < x.jobs.next
  job : ∀ r, x.thread.job = some r → r < x.jobs.next
  placing : x.Placing x.sched
  /-- The thread has seen that the slot is not done, and only the thread sets it done. -/
  reading : x.thread.pc = .readHead → x.queue.qSlotDone x.thread.head = false
  held : x.thread.pc.inHand = true → ∃ r, x.thread.job = some r ∧ x.Held r

variable {x x' : Handover τ} {r : JobRef} {job : QueueJob τ} {i : Fin queueSize}

/-- What the scheduler relies on stays when no job is lost, and no slot is taken away. -/
lemma Placing.mono {pc : PlacementPc} (h : x.Placing pc)
    (hdone : ∀ k, x.queue.qSlotDone k = true → x'.queue.qSlotDone k = true)
    (hlive : ∀ r, (∃ job, x.jobs.get r = some job) → ∃ job, x'.jobs.get r = some job)
    (hheads : x'.queue.queueHead = x.queue.queueHead)
    (hjob : ∀ r, x'.thread.job = some r →
      x.thread.job = some r ∨ ∃ k, x.queue.queueHead k = some r) : x'.Placing pc := by
  cases pc with
  | elsewhere | testSlot | increment => trivial
  | testHead i | deallocJob i | initJob i => exact hdone i h
  | setHead i r =>
    obtain ⟨hi, hr, hnot, hslots⟩ := h
    refine ⟨hdone i hi, hlive r hr, fun heq => ?_, hheads ▸ hslots⟩
    rcases hjob r heq with heq | ⟨k, hk⟩
    · exact hnot heq
    · exact hslots k hk
  | clearDone i =>
    obtain ⟨r, job, hr, hjob⟩ := h
    obtain ⟨job', hjob'⟩ := hlive r ⟨job, hjob⟩
    exact ⟨r, job', hheads ▸ hr, hjob'⟩

namespace Inv

lemma init (τ : Type) : (init τ).Inv := by
  constructor <;> simp [Handover.init, Placing, IterationPc.inHand]

/-! ### The thread -/

/-- The thread goes on with the job it has in hand, if it has one afterwards. -/
lemma goto (h : x.Inv) {pc : IterationPc} (hread : pc ≠ .readHead)
    (hhand : pc.inHand = true → x.thread.pc.inHand = true) : (x.goto pc).Inv where
  __ := h
  placing := h.placing
  reading hpc := absurd hpc hread
  held hpc := by
    obtain ⟨r, hr, hheld⟩ := h.held (hhand hpc)
    exact ⟨r, hr, hheld.live, hheld.slot⟩

lemma setTimer (h : x.Inv) (timer : JobTimer) :
    Inv { x with thread := { x.thread with timer } } where
  __ := h
  placing := h.placing
  held hpc := by
    obtain ⟨r, hr, hheld⟩ := h.held hpc
    exact ⟨r, hr, hheld.live, hheld.slot⟩

/-- The count decides what the thread does next, but no job depends on it. -/
lemma setCount (h : x.Inv) (totalJobsInQueue : ℕ) :
    Inv { x with queue := { x.queue with totalJobsInQueue } } where
  __ := h
  placing := h.placing
  held hpc := by
    obtain ⟨r, hr, hheld⟩ := h.held hpc
    exact ⟨r, hr, hheld.live, hheld.slot⟩

/-- The job in hand can be read. -/
lemma readJob (h : x.Inv) (hpc : x.thread.pc.inHand = true) :
    ∃ r job, x.readJob = .ok (r, job) ∧ x.jobs.get r = some job := by
  obtain ⟨r, hr, ⟨job, hjob⟩, -⟩ := h.held hpc
  refine ⟨r, job, ?_, hjob⟩
  simp only [Handover.readJob, hr, Outcome.ofOption, Heap.deref, hjob, Outcome.ok_bind]
  rfl

/-- A procedure of a job has returned. -/
lemma put (h : x.Inv) (hjob : x.jobs.get r = some job) (job' : QueueJob τ) :
    Inv { x with jobs := x.jobs.put r job' } := by
  have hlive : ∀ r', (∃ j, x.jobs.get r' = some j) → ∃ j, (x.jobs.put r job').get r' = some j := by
    rintro r' ⟨j, hj⟩
    rw [Heap.get_put hjob]
    split_ifs with hr
    · exact ⟨job', rfl⟩
    · exact ⟨j, hj⟩
  refine ⟨fun k hk => ?_, h.distinct, ?_, ?_, ?_, h.reading, fun hpc => ?_⟩
  · obtain ⟨r', j, hr', hj⟩ := h.filled k hk
    obtain ⟨j', hj'⟩ := hlive r' ⟨j, hj⟩
    exact ⟨r', j', hr', hj'⟩
  · simpa only [Heap.next_put] using h.heads
  · simpa only [Heap.next_put] using h.job
  · exact h.placing.mono (fun _ hk => hk) hlive rfl fun _ hr' => .inl hr'
  · obtain ⟨r', hr', hheld⟩ := h.held hpc
    exact ⟨r', hr', hlive r' hheld.live, hheld.slot⟩

/-- The thread gives its slot back. -/
lemma setDone (h : x.Inv) (hpc : x.thread.pc ≠ .readHead) :
    Inv { x with queue :=
      { x.queue with qSlotDone := Function.update x.queue.qSlotDone x.thread.head true } } := by
  have hdone : ∀ k, x.queue.qSlotDone k = true →
      Function.update x.queue.qSlotDone x.thread.head true k = true := by
    intro k hk
    by_cases hhead : k = x.thread.head
    · rw [hhead, Function.update_self]
    · rw [Function.update_of_ne hhead, hk]
  refine ⟨fun k hk => ?_, h.distinct, h.heads, h.job, ?_, fun hread => absurd hread hpc,
    fun hhand => ?_⟩
  · apply h.filled k
    by_contra hnot
    cases hk.symm.trans (hdone k (Bool.eq_true_of_not_eq_false hnot))
  · exact h.placing.mono hdone (fun _ hr => hr) rfl fun _ hr => .inl hr
  · obtain ⟨r, hr, hheld⟩ := h.held hhand
    exact ⟨r, hr, hheld.live, hheld.slot⟩

/-- The thread takes up the job of its slot. -/
lemma readHead (h : x.Inv) (hpc : x.thread.pc = .readHead) :
    Inv { x with thread :=
      { x.thread with job := x.queue.queueHead x.thread.head, pc := .initTimer } } := by
  obtain ⟨r, job, hr, hjob⟩ := h.filled _ (h.reading hpc)
  refine ⟨h.filled, h.distinct, h.heads, h.heads _, ?_, nofun, fun _ => ?_⟩
  · exact h.placing.mono (fun _ hk => hk) (fun _ hr => hr) rfl fun _ hr => .inr ⟨_, hr⟩
  · exact ⟨r, hr, ⟨job, hjob⟩, fun k hk => h.distinct _ _ r hk hr⟩

lemma advance (h : x.Inv) :
    Inv { x with thread := { x.thread with head := x.thread.head + 1, pc := .testSlot } } where
  __ := h
  placing := h.placing
  reading := nofun
  held := nofun

lemma testSlot (h : x.Inv) :
    Inv (x.goto (if !x.queue.qSlotDone x.thread.head && x.queue.totalJobsInQueue ≠ 0 then .readHead
      else .advance)) := by
  split_ifs with htest
  · rw [Bool.and_eq_true, Bool.not_eq_true'] at htest
    exact { h with placing := h.placing, reading := fun _ => htest.1, held := nofun }
  · exact h.goto nofun nofun

lemma branch (h : x.Inv) (hhand : x.thread.pc.inHand = true) {pc : QueueJob τ → IterationPc}
    (hpc : ∀ job, pc job ≠ .readHead) : ∃ x', x.branch pc = .ok x' ∧ x'.Inv := by
  obtain ⟨r, job, hread, -⟩ := h.readJob hhand
  rw [Handover.branch, hread]
  exact ⟨_, rfl, h.goto (hpc job) fun _ => hhand⟩

lemma callProc (h : x.Inv) (hhand : x.thread.pc.inHand = true) (status : JobStatus)
    {pc : IterationPc} (hpc : pc ≠ .readHead) :
    ∃ x', x.callProc status pc = .ok x' ∧ x'.Inv := by
  obtain ⟨r, job, hread, hjob⟩ := h.readJob hhand
  rw [Handover.callProc, hread]
  exact ⟨_, rfl, (h.put hjob { job with jobStatus := status }).goto hpc fun _ => hhand⟩

/-- The thread's next statement reads nothing that is not there. -/
lemma threadStep (h : x.Inv) (status : JobStatus) :
    ∃ x', x.threadStep status = .ok x' ∧ x'.Inv := by
  have hhand : ∀ pc, x.thread.pc = pc → pc.inHand = true → x.thread.pc.inHand = true :=
    fun pc hpc hin => hpc ▸ hin
  cases hpc : x.thread.pc with
  | testSlot =>
    simp only [Handover.threadStep, hpc]
    exact ⟨_, rfl, h.testSlot⟩
  | readHead =>
    simp only [Handover.threadStep, hpc]
    exact ⟨_, rfl, h.readHead hpc⟩
  | initTimer =>
    obtain ⟨r, job, hread, -⟩ := h.readJob (hhand _ hpc rfl)
    simp only [Handover.threadStep, hpc, hread, Outcome.ok_bind]
    exact ⟨_, rfl, (h.setTimer (ServerUnit.initTimer job)).goto nofun fun _ => hhand _ hpc rfl⟩
  | testTimer =>
    simp only [Handover.threadStep, hpc]
    refine ⟨_, rfl, h.goto ?_ fun _ => hhand _ hpc rfl⟩
    split_ifs <;> nofun
  | testStatus =>
    simp only [Handover.threadStep, hpc]
    exact h.branch (hhand _ hpc rfl) fun _ => by split_ifs <;> nofun
  | endProc =>
    simp only [Handover.threadStep, hpc]
    exact h.callProc (hhand _ hpc rfl) status nofun
  | setDone =>
    simp only [Handover.threadStep, hpc]
    exact ⟨_, rfl, (h.setDone (hpc ▸ nofun)).goto nofun fun _ => hhand _ hpc rfl⟩
  | decrement =>
    simp only [Handover.threadStep, hpc]
    exact ⟨_, rfl, (h.setCount _).goto nofun fun _ => hhand _ hpc rfl⟩
  | signal =>
    simp only [Handover.threadStep, hpc]
    exact ⟨_, rfl, h.goto nofun fun _ => hhand _ hpc rfl⟩
  | startProc =>
    simp only [Handover.threadStep, hpc]
    exact h.callProc (hhand _ hpc rfl) status nofun
  | testDone =>
    simp only [Handover.threadStep, hpc]
    exact h.branch (hhand _ hpc rfl) fun _ => by split_ifs <;> nofun
  | testFailed =>
    simp only [Handover.threadStep, hpc]
    exact h.branch (hhand _ hpc rfl) fun _ => by split_ifs <;> nofun
  | setErrorHandle =>
    simp only [Handover.threadStep, hpc]
    exact h.branch (hhand _ hpc rfl) fun _ => nofun
  | testPause =>
    simp only [Handover.threadStep, hpc]
    exact h.branch (hhand _ hpc rfl) fun _ => by split_ifs <;> nofun
  | pauseProc =>
    simp only [Handover.threadStep, hpc]
    exact h.branch (hhand _ hpc rfl) fun _ => nofun
  | advance =>
    simp only [Handover.threadStep, hpc]
    exact ⟨_, rfl, h.advance⟩

/-! ### The scheduler -/

/-- The scheduler goes on at another statement. -/
lemma setSched (h : x.Inv) {pc : PlacementPc} (hpc : x.Placing pc) : Inv { x with sched := pc } where
  __ := h
  placing := hpc
  held hhand := by
    obtain ⟨r, hr, hheld⟩ := h.held hhand
    exact ⟨r, hr, hheld.live, hheld.slot⟩

lemma placing_nextSlot (x : Handover τ) (i : Fin queueSize) : x.Placing (nextSlot i) := by
  rw [nextSlot]
  split_ifs <;> trivial

/-- The old job of a slot is destroyed: the thread does not have it in hand. -/
lemma dealloc (h : x.Inv) (hdone : x.queue.qSlotDone i = true)
    (hr : x.queue.queueHead i = some r)
    (hleft : i = x.thread.head → x.thread.pc.inHand = false) :
    Inv { x with jobs := x.jobs.free r, sched := .initJob i } := by
  refine ⟨fun k hk => ?_, h.distinct, ?_, ?_, hdone, h.reading, fun hhand => ?_⟩
  · obtain ⟨r', job, hr', hjob⟩ := h.filled k hk
    have hne : r' ≠ r := by
      rintro rfl
      rw [h.distinct _ _ _ hr' hr, hdone] at hk
      cases hk
    exact ⟨r', job, hr', (Heap.get_free_of_ne hne).trans hjob⟩
  · simpa only [Heap.next_free] using h.heads
  · simpa only [Heap.next_free] using h.job
  · obtain ⟨r', hr', ⟨job, hjob⟩, hslot⟩ := h.held hhand
    have hne : r' ≠ r := by
      rintro rfl
      cases (hleft (hslot i hr)).symm.trans hhand
    exact ⟨r', hr', ⟨job, (Heap.get_free_of_ne hne).trans hjob⟩, hslot⟩

/-- A new job, at an address that no pointer is to. -/
lemma alloc (h : x.Inv) (hdone : x.queue.qSlotDone i = true) (job : QueueJob τ) :
    Inv { x with jobs := x.jobs.alloc job, sched := .setHead i x.jobs.next } := by
  have hnext : ∀ r, r < x.jobs.next → r < (x.jobs.alloc job).next := by
    intro r hr
    rw [Heap.next_alloc]
    exact Nat.lt_succ_of_lt hr
  refine ⟨fun k hk => ?_, h.distinct, fun k r hr => hnext r (h.heads k r hr),
    fun r hr => hnext r (h.job r hr), ?_, h.reading, fun hhand => ?_⟩
  · obtain ⟨r, job', hr, hjob⟩ := h.filled k hk
    exact ⟨r, job', hr, Heap.get_alloc_of_get hjob⟩
  · exact ⟨hdone, ⟨job, Heap.get_alloc_self _ _⟩, fun hr => lt_irrefl _ (h.job _ hr),
      fun k hr => lt_irrefl _ (h.heads k _ hr)⟩
  · obtain ⟨r, hr, ⟨job', hjob⟩, hslot⟩ := h.held hhand
    exact ⟨r, hr, ⟨job', Heap.get_alloc_of_get hjob⟩, hslot⟩

/-- The new job comes into its slot. -/
lemma setHead (h : x.Inv) (hplacing : x.Placing (.setHead i r)) :
    Inv { x with
      queue := { x.queue with queueHead := Function.update x.queue.queueHead i (some r) }
      sched := .clearDone i } := by
  obtain ⟨hdone, ⟨job, hjob⟩, hnot, hslots⟩ := hplacing
  have hhead : ∀ k r', Function.update x.queue.queueHead i (some r) k = some r' →
      k = i ∧ r' = r ∨ k ≠ i ∧ x.queue.queueHead k = some r' := by
    intro k r' hr'
    by_cases hk : k = i
    · rw [hk, Function.update_self, Option.some.injEq] at hr'
      exact .inl ⟨hk, hr'.symm⟩
    · rw [Function.update_of_ne hk] at hr'
      exact .inr ⟨hk, hr'⟩
  refine ⟨fun k hk => ?_, fun k k' r' hr hr' => ?_, fun k r' hr' => ?_, h.job, ?_, h.reading,
    fun hhand => ?_⟩
  · have hne : k ≠ i := by
      rintro rfl
      cases hk.symm.trans hdone
    obtain ⟨r', job', hr', hjob'⟩ := h.filled k hk
    exact ⟨r', job', (Function.update_of_ne hne _ _).trans hr', hjob'⟩
  · rcases hhead k r' hr with ⟨hk, rfl⟩ | ⟨-, hold⟩
    · rcases hhead k' r' hr' with ⟨hk', -⟩ | ⟨-, hold'⟩
      · rw [hk, hk']
      · exact absurd hold' (hslots k')
    · rcases hhead k' r' hr' with ⟨-, rfl⟩ | ⟨-, hold'⟩
      · exact absurd hold (hslots k)
      · exact h.distinct k k' r' hold hold'
  · rcases hhead k r' hr' with ⟨-, rfl⟩ | ⟨-, hr'⟩
    · exact Heap.lt_next_of_get hjob
    · exact h.heads k r' hr'
  · exact ⟨r, job, Function.update_self _ _ _, hjob⟩
  · obtain ⟨r', hr', hlive, hslot⟩ := h.held hhand
    refine ⟨r', hr', hlive, fun k hk => ?_⟩
    rcases hhead k r' hk with ⟨-, rfl⟩ | ⟨-, hk⟩
    · exact absurd hr' hnot
    · exact hslot k hk

/-- The slot is not done any more. -/
lemma clearDone (h : x.Inv) (hplacing : x.Placing (.clearDone i)) :
    Inv { x with
      queue := { x.queue with qSlotDone := Function.update x.queue.qSlotDone i false }
      sched := .increment } := by
  have hdone : ∀ k, k ≠ i → Function.update x.queue.qSlotDone i false k = x.queue.qSlotDone k :=
    fun k hk => Function.update_of_ne hk _ _
  refine ⟨fun k hk => ?_, h.distinct, h.heads, h.job, trivial, fun hpc => ?_, fun hhand => ?_⟩
  · by_cases hki : k = i
    · rw [hki]
      exact hplacing
    · exact h.filled k ((hdone k hki).symm.trans hk)
  · show Function.update x.queue.qSlotDone i false x.thread.head = false
    by_cases hki : x.thread.head = i
    · rw [hki, Function.update_self]
    · exact (hdone _ hki).trans (h.reading hpc)
  · obtain ⟨r, hr, hlive, hslot⟩ := h.held hhand
    exact ⟨r, hr, hlive, hslot⟩

/-- One statement of the scheduler. -/
lemma schedStep (h : x.Inv) {w : TaskPool.Waiting τ} (hleft : x.DeallocsLeft (.sched w))
    (hs : x.schedStep w = .ok x') : x'.Inv := by
  have hplacing := h.placing
  generalize hpc : x.sched = pc at hplacing
  cases pc with
  | elsewhere =>
    simp only [Handover.schedStep, hpc, Outcome.pure_eq_ok] at hs
    subst hs
    exact h.setSched trivial
  | testSlot i =>
    simp only [Handover.schedStep, hpc, Outcome.pure_eq_ok] at hs
    subst hs
    apply h.setSched
    split_ifs with hdone
    · exact hdone
    · exact placing_nextSlot x i
  | testHead i =>
    simp only [Handover.schedStep, hpc, Outcome.pure_eq_ok] at hs
    subst hs
    apply h.setSched
    split_ifs <;> exact hplacing
  | deallocJob i =>
    simp only [Handover.schedStep, hpc, Outcome.bind_eq_ok, Outcome.pure_eq_ok] at hs
    obtain ⟨jobs, hdealloc, rfl⟩ := hs
    cases hr : x.queue.queueHead i with
    | none =>
      rw [hr] at hdealloc
      cases hdealloc
      exact h.setSched hplacing
    | some r =>
      rw [hr] at hdealloc
      simp only [ServerUnit.deallocJob, Outcome.bind_eq_ok, Outcome.pure_eq_ok] at hdealloc
      obtain ⟨_, -, rfl⟩ := hdealloc
      refine h.dealloc hplacing hr fun hhead => hleft ?_
      rw [hpc, hhead]
  | initJob i =>
    simp only [Handover.schedStep, hpc, Outcome.bind_eq_ok, Outcome.pure_eq_ok] at hs
    obtain ⟨job, -, rfl⟩ := hs
    exact h.alloc hplacing job
  | setHead i r =>
    simp only [Handover.schedStep, hpc, Outcome.pure_eq_ok] at hs
    subst hs
    exact h.setHead hplacing
  | clearDone i =>
    simp only [Handover.schedStep, hpc, Outcome.pure_eq_ok] at hs
    subst hs
    exact h.clearDone hplacing
  | increment =>
    simp only [Handover.schedStep, hpc, Outcome.pure_eq_ok] at hs
    subst hs
    apply (h.setCount ((x.queue.totalJobsInQueue + 1) % 256)).setSched
    trivial

/-! ### All runs -/

lemma step {e : HandoverEvent τ} (h : x.Inv) (hleft : x.DeallocsLeft e) (hs : x.step e = .ok x') :
    x'.Inv := by
  cases e with
  | sched w => exact h.schedStep hleft hs
  | thread status =>
    obtain ⟨t, ht, hI⟩ := h.threadStep status
    cases ht.symm.trans hs
    exact hI
  | timer =>
    cases hs
    exact h.setTimer _

lemma readsLive (h : x.Inv) : x.ReadsLive := by
  intro status
  obtain ⟨t, ht, -⟩ := h.threadStep status
  exact .of_ok ⟨t, ht⟩

end Inv

/-- In a run in which the scheduler never destroys the job of the slot that the thread is at while
the thread has it in hand, the thread reads no job that was destroyed. -/
theorem run_readsLive {es : List (HandoverEvent τ)} (hC : Meets step DeallocsLeft (init τ) es)
    (h : run step (init τ) es = .ok x) : x.ReadsLive :=
  (run_induct (I := fun y : Handover τ => y.Inv) (fun _ _ _ hI hleft hs => hI.step hleft hs)
    (.init τ) hC h).readsLive

instance (x : Handover τ) (e : HandoverEvent τ) : Decidable (x.DeallocsLeft e) :=
  match e with
  | .sched _ => inferInstanceAs (Decidable (_ → _))
  | .thread _ | .timer => isTrue trivial

/-- A task goes to the first slot, the thread does it, comes round and gives the slot back. -/
def firstJob : List (HandoverEvent ℕ) :=
  List.replicate 7 (.sched (⟨⟨true⟩, 1⟩, .lowPriority)) ++ List.replicate 22 (.thread .jobDone)

/-- The thread leaves the slot before another task goes there. -/
theorem run_readsLive_reused : ∃ x : Handover ℕ,
    run step (init ℕ) (firstJob ++ List.replicate 4 (.thread .jobDone) ++
      List.replicate 8 (.sched (⟨⟨true⟩, 2⟩, .lowPriority))) = .ok x ∧ x.ReadsLive :=
  Outcome.exists_ok_and (by decide) fun _ h => run_readsLive (by decide) h

/-- The scheduler destroys the job before the thread has come to the test of `pause_proc`. -/
theorem run_not_readsLive : ∃ x : Handover ℕ,
    run step (init ℕ) (firstJob ++ List.replicate 4 (.sched (⟨⟨true⟩, 2⟩, .lowPriority)) ++
      List.replicate 2 (.thread .jobPending)) = .ok x ∧ ¬ x.ReadsLive := by
  obtain ⟨x, hrun, hpc, hjob, hdead⟩ : ∃ x : Handover ℕ,
      run step (init ℕ) (firstJob ++ List.replicate 4 (.sched (⟨⟨true⟩, 2⟩, .lowPriority)) ++
        List.replicate 2 (.thread .jobPending)) = .ok x ∧
      x.thread.pc = .testPause ∧ x.thread.job = some 0 ∧ x.jobs.get 0 = none :=
    Outcome.exists_ok_of_eval (by decide)
  refine ⟨x, hrun, fun hlive => ?_⟩
  have hread : x.readJob = .error .undefined := by
    simp only [readJob, hjob, Outcome.ofOption, Heap.deref, hdead, Outcome.ok_bind,
      Outcome.error_bind]
  have hstep : x.step (.thread .jobPending) = .error .undefined := by
    simp only [step, threadStep, hpc, branch, hread, Outcome.error_bind]
  cases hlive .jobPending .undefined hstep

end Handover

end ServerUnit
