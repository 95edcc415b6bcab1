import ServerUnit.Sched.QuickestQueue
import Mathlib.Tactic.Abel

/-!
# Conservation of tasks and the life of a job

Every run of the scheduler and its threads is conserved: the invariant ties the linked list of
the pool, the slots with their jobs, the two occupancy counts and the histories of calls. Each
kind of step has one lemma.
-/

namespace ServerUnit

open Lib

namespace Scheduler

variable {τ : Type} {n : ℕ} {s s' : Scheduler τ n} {waiting : List (TaskPool.Waiting τ)}
  {w : TaskPool.Waiting τ} {i : Fin n} {x y : Slot n} {r : JobRef} {job : QueueJob τ}
  {status : JobStatus} {timer : JobTimer} {j qSlots : ℕ}

/-- The slot at the head of a thread. -/
def headSlot (s : Scheduler τ n) (i : Fin n) : Slot n := (i, (s.threads i).head)

/-- The invariant of the runs, for a pool that holds the tasks `waiting`. -/
structure Consistent (s : Scheduler τ n) (waiting : List (TaskPool.Waiting τ)) : Prop
    extends s.Stored, s.Counted, s.Recorded where
  pool : s.pool.Holds waiting
  tasks : (s.accepted.map Prod.fst : Multiset (TaskStruct τ)) =
    waiting.map Prod.fst + ∑ x, s.slotTasks x + s.finished.map Prod.snd
  order : s.accepted = s.left ++ waiting
  /-- The job that a thread is in is the one at its head. -/
  running : ∀ i r timer, (s.threads i).pc = .inJob r timer →
    s.busy (s.headSlot i) = some r ∧ timer.jobShouldPause = false

namespace Consistent

lemma init (τ : Type) (n : ℕ) : (init τ n).Consistent [] where
  toStored := .init τ n
  toCounted := .init τ n
  toRecorded := .init τ n
  pool := .init τ
  tasks := by simp [Scheduler.init, slotTasks, busy, slotDone]
  order := rfl
  running := by simp [Scheduler.init]

/-! ### The steps of a thread -/

/-- A thread goes to a place where it has no job in hand, or the one at its head. -/
lemma setThread (h : s.Consistent waiting) {t : ThreadTask}
    (ht : ∀ r timer, t.pc = .inJob r timer →
      s.busy (i, t.head) = some r ∧ timer.jobShouldPause = false) :
    (s.setThread i t).Consistent waiting where
  __ := h
  running := by
    intro a r timer hpc
    by_cases ha : a = i
    · subst ha
      rw [threads_setThread_self] at hpc
      rw [headSlot, threads_setThread_self]
      exact ht r timer hpc
    · rw [threads_setThread_of_ne ha] at hpc
      rw [headSlot, threads_setThread_of_ne ha]
      exact h.running a r timer hpc

/-- The job that a thread takes up is in the slot at its head, and the timer does not stop it. -/
lemma of_currentJob (h : s.Consistent waiting) (hcur : s.currentJob i = .ok (r, timer)) :
    s.busy (s.headSlot i) = some r ∧ timer.jobShouldPause = false := by
  rw [currentJob] at hcur
  cases hpc : (s.threads i).pc with
  | atHead =>
    rw [hpc] at hcur
    simp only [Outcome.guard_eq_ok, Outcome.bind_eq_ok, Outcome.ofOption_eq_ok,
      Heap.deref_eq_ok, Outcome.pure_eq_ok, Prod.mk.injEq] at hcur
    obtain ⟨hat, _, hhead, job, -, rfl, rfl⟩ := hcur
    rw [jobAtHead, Bool.and_eq_true, Bool.not_eq_true'] at hat
    refine ⟨busy_eq_some.mpr ⟨hat.1, hhead⟩, ?_⟩
    rw [initTimer]
    split_ifs <;> rfl
  | inJob r' timer' =>
    rw [hpc] at hcur
    cases hcur
    exact h.running i r timer hpc
  | leaving =>
    rw [hpc] at hcur
    cases hcur

lemma currentJob_safe (h : s.Consistent waiting) : (s.currentJob i).Safe := by
  rw [currentJob]
  cases hpc : (s.threads i).pc with
  | atHead =>
    apply Outcome.Safe.guard
    intro hat
    rw [jobAtHead, Bool.and_eq_true, Bool.not_eq_true'] at hat
    obtain ⟨r, hr⟩ := h.filled (s.headSlot i) hat.1
    obtain ⟨job, hjob, -⟩ := h.stored _ r hr
    change (s.queues i).queueHead (s.threads i).head = some r at hr
    simp only [hr, Outcome.ofOption, Heap.deref, hjob, Outcome.ok_bind]
    exact .ok _
  | inJob r timer => exact .ok _
  | leaving => exact .disabled

/-- A call for a job that is in a slot and not done. -/
lemma called (h : s.Consistent waiting) {call : ProcCall} (hx : s.busy x = some r)
    (hjob : s.jobs.get r = some job)
    (hphase : Phase { job with jobStatus := status } (s.callsOf r ++ [call])) :
    (s.called r { job with jobStatus := status } call).Consistent waiting where
  __ := h
  toStored := h.toStored.called hjob status call
  toCounted := ⟨h.count, h.room⟩
  toRecorded := h.toRecorded.called hx hjob hphase
  tasks := by
    simp only [slotTasks_called hjob]
    exact h.tasks

/-- `start_proc` is called for the job at the head of a thread, or in its hand. -/
lemma startProc (h : s.Consistent waiting) (hstep : s.startProc i status = .ok s') :
    s'.Consistent waiting := by
  simp only [Scheduler.startProc, Outcome.bind_eq_ok, Heap.deref_eq_ok, Outcome.guard_eq_ok,
    Outcome.pure_eq_ok, Prod.exists, Bool.and_eq_true, Bool.not_eq_true'] at hstep
  obtain ⟨r, timer, hcur, job, hjob, ⟨hpause, hover⟩, rfl⟩ := hstep
  obtain ⟨hbusy, -⟩ := h.of_currentJob hcur
  have hcalled := h.called hbusy hjob ((h.phase _ _ _ hbusy hjob).startProc status hover)
  apply hcalled.setThread
  intro r' timer' hpc
  change (if status.isOver then TaskPc.leaving else .inJob r timer) = .inJob r' timer' at hpc
  split_ifs at hpc
  cases hpc
  exact ⟨hbusy, hpause⟩

/-- The timer never stops a job. -/
lemma not_pauseProc (h : s.Consistent waiting) : s.pauseProc i status ≠ .ok s' := by
  intro hstep
  simp only [Scheduler.pauseProc, Outcome.bind_eq_ok, Outcome.guard_eq_ok, Prod.exists] at hstep
  obtain ⟨r, timer, hcur, job, -, hpause, -⟩ := hstep
  have hnot := (h.of_currentJob hcur).2
  rw [hpause] at hnot
  cases hnot

lemma advance (h : s.Consistent waiting) (hstep : s.advance i = .ok s') :
    s'.Consistent waiting := by
  simp only [Scheduler.advance, Outcome.guard_eq_ok, Outcome.pure_eq_ok] at hstep
  obtain ⟨-, rfl⟩ := hstep
  apply h.setThread
  intro r timer hpc
  cases hpc

lemma fireTimer (h : s.Consistent waiting) (hstep : s.fireTimer i = .ok s') :
    s'.Consistent waiting := by
  rw [Scheduler.fireTimer] at hstep
  cases hpc : (s.threads i).pc with
  | inJob r timer =>
    simp only [hpc, Outcome.pure_eq_ok] at hstep
    rw [← hstep]
    apply h.setThread
    intro r' timer' heq
    cases heq
    exact ⟨(h.running i r timer hpc).1, rfl⟩
  | atHead =>
    rw [hpc] at hstep
    cases hstep
  | leaving =>
    rw [hpc] at hstep
    cases hstep

/-- The task of a slot that is released has finished. -/
lemma tasks_released (h : s.Consistent waiting) (hx : s.busy x = some r)
    (hjob : s.jobs.get r = some job) :
    (s.accepted.map Prod.fst : Multiset (TaskStruct τ)) =
      waiting.map Prod.fst + ∑ y, (s.released x r job status).slotTasks y +
        (s.finished ++ [(r, job.task)]).map Prod.snd := by
  have hdone : (s.released x r job status).slotDone x = true := by
    rw [slotDone_released, if_pos rfl]
  have hsum := sum_add_eq_sum_add (f := s.slotTasks) (g := (s.released x r job status).slotTasks)
    x fun y hy => slotTasks_released hjob hy
  rw [slotTasks_of_busy hx hjob, slotTasks_of_done hdone, add_zero] at hsum
  rw [List.map_append, ← Multiset.coe_add, h.tasks, ← hsum]
  show _ = _ + _ + (_ + {job.task})
  abel

/-- `end_proc` is called for the job in a slot, and the slot is released. The thread that was in
the job is not in it any more. -/
lemma released (h : s.Consistent waiting) (hx : s.busy x = some r) (hjob : s.jobs.get r = some job)
    (hover : job.jobStatus.isOver = true) {t : ThreadTask} (hleaving : t.pc = .leaving) :
    ((s.released x r job status).setThread x.1 t).Consistent waiting := by
  have hstored : (s.released x r job status).Stored := h.toStored.released hjob
  have hcounted : (s.released x r job status).Counted :=
    h.toCounted.released (busy_eq_some.mp hx).1
  have hrecorded : (s.released x r job status).Recorded :=
    h.toRecorded.released h.toStored hx hjob hover
  refine ⟨⟨hstored.filled, hstored.stored, hstored.distinct⟩, ⟨hcounted.count, hcounted.room⟩,
    ⟨hrecorded.phase, hrecorded.finishedNodup, hrecorded.finished, hrecorded.jobs,
      hrecorded.fresh⟩, h.pool, h.tasks_released hx hjob, h.order, ?_⟩
  intro i r' timer hpc
  by_cases hi : i = x.1
  · subst hi
    rw [threads_setThread_self, hleaving] at hpc
    cases hpc
  · rw [threads_setThread_of_ne hi] at hpc
    have hne : s.headSlot i ≠ x := by
      rintro rfl
      exact hi rfl
    rw [headSlot, threads_setThread_of_ne hi]
    show (s.released x r job status).busy (s.headSlot i) = _ ∧ _
    rw [busy_released, if_neg hne]
    exact h.running i r' timer hpc

/-- `end_proc` is called for the job that a thread comes to. -/
lemma endProc (h : s.Consistent waiting) (hstep : s.endProc i status = .ok s') :
    s'.Consistent waiting := by
  simp only [Scheduler.endProc, Outcome.bind_eq_ok, Heap.deref_eq_ok, Outcome.guard_eq_ok,
    Outcome.pure_eq_ok, Prod.exists, Bool.and_eq_true, Bool.not_eq_true'] at hstep
  obtain ⟨r, timer, hcur, job, hjob, ⟨-, hover⟩, rfl⟩ := hstep
  exact h.released (h.of_currentJob hcur).1 hjob hover rfl

/-! ### The quickest queue -/

lemma toFilled (h : s.Consistent waiting) : s.Filled := h.toStored.filled_of_count h.count

/-- Whatever it adds up, the call returns a queue that is not full when there is one. -/
lemma getQuickestQueue [NeZero n] (h : s.Consistent waiting) (hn : n ≤ queueSize)
    (hslots : 0 < s.getTotalEmptySlots) :
    ∃ i, s.getQuickestQueue = .ok i ∧ (s.queues i).totalJobsInQueue < queueSize := by
  obtain ⟨i, -, hi⟩ := Finset.exists_ne_zero_of_sum_ne_zero hslots.ne'
  have hsum := pendingSlots_add_freeSlots (s.queues i)
  have hroom : (s.queues i).totalJobsInQueue < queueSize := by
    rw [h.count i]
    omega
  obtain ⟨i', hi', hfirst⟩ := h.toFilled.getQuickestQueue hn ⟨i, h.toFilled.hasFree_iff.mpr hroom⟩
  exact ⟨i', hi', h.toFilled.hasFree_iff.mp hfirst.1⟩

/-- A queue that is not full has a first free slot. -/
lemma firstFreeSlot (h : s.Consistent waiting)
    (hroom : (s.queues i).totalJobsInQueue < queueSize) :
    ∃ k, Scheduler.firstFreeSlot (s.queues i) = some k ∧ s.slotDone (i, k) = true := by
  have hfree := pendingSlots_add_freeSlots (s.queues i)
  rw [h.count i] at hroom
  have hpos : 0 < freeSlots (s.queues i) := by omega
  obtain ⟨k, hk⟩ := Finset.card_pos.mp hpos
  rw [Finset.mem_filter] at hk
  cases hfirst : Scheduler.firstFreeSlot (s.queues i) with
  | none =>
    rw [Scheduler.firstFreeSlot, List.find?_eq_none] at hfirst
    exact absurd hk.2 (hfirst k (List.mem_finRange k))
  | some k' =>
    have hdone : (s.queues i).qSlotDone k' = true := List.find?_some hfirst
    exact ⟨k', rfl, hdone⟩

/-! ### The placement of a task -/

/-- The task that leaves the pool is in the slot that is taken. -/
lemma tasks_inserted (h : s.Consistent (w :: waiting)) (hx : s.slotDone x = true)
    (pool : TaskPool τ) {jobs : Heap (QueueJob τ)}
    (hkeep : ∀ y ≠ x, ∀ r, s.slotHead y = some r → jobs.get r = s.jobs.get r) :
    (s.accepted.map Prod.fst : Multiset (TaskStruct τ)) =
      waiting.map Prod.fst + ∑ y, (s.inserted x pool jobs (newJob w) w.2).slotTasks y +
        s.finished.map Prod.snd := by
  have hbusy : (s.inserted x pool jobs (newJob w) w.2).busy x = some jobs.next := by
    rw [busy_inserted, if_pos rfl]
  have hsum := sum_add_eq_sum_add (f := s.slotTasks)
    (g := (s.inserted x pool jobs (newJob w) w.2).slotTasks) x fun y hy =>
      slotTasks_inserted (fun r hr => (h.get_alloc hkeep _ hy (busy_eq_some.mp hr).2).1) hy
  rw [slotTasks_of_busy hbusy (Heap.get_alloc_self _ _), slotTasks_of_done hx, add_zero] at hsum
  change _ = _ + {w.1} at hsum
  rw [h.tasks, hsum, List.map_cons, ← Multiset.cons_coe, ← Multiset.singleton_add]
  abel

/-- The oldest task becomes the new job in a free slot. -/
lemma inserted (h : s.Consistent (w :: waiting)) (hx : s.slotDone x = true) {pool : TaskPool τ}
    (hpool : pool.Holds waiting) {jobs : Heap (QueueJob τ)} (hnext : jobs.next = s.jobs.next)
    (hkeep : ∀ y ≠ x, ∀ r, s.slotHead y = some r → jobs.get r = s.jobs.get r)
    (hsched : s.sched = .placing j qSlots) :
    Consistent { s.inserted x pool jobs (newJob w) w.2 with sched := nextRound j qSlots }
      waiting := by
  have hstored : (s.inserted x pool jobs (newJob w) w.2).Stored := h.toStored.inserted hkeep
  have hrecorded : (s.inserted x pool jobs (newJob w) w.2).Recorded :=
    h.toRecorded.inserted h.toStored hx hnext hkeep
  refine ⟨⟨hstored.filled, hstored.stored, hstored.distinct⟩, h.toCounted.inserted hx hsched,
    ⟨hrecorded.phase, hrecorded.finishedNodup, hrecorded.finished, hrecorded.jobs,
      hrecorded.fresh⟩, hpool, h.tasks_inserted hx pool hkeep, ?_, ?_⟩
  · show s.accepted = s.left ++ [w] ++ waiting
    rw [h.order, List.append_assoc, List.singleton_append]
  · intro i r timer hpc
    obtain ⟨hbusy, hpause⟩ := h.running i r timer hpc
    show (s.inserted x pool jobs (newJob w) w.2).busy (s.headSlot i) = some r ∧ _
    rw [busy_inserted, if_neg (ne_of_busy hx hbusy)]
    exact ⟨hbusy, hpause⟩

/-- The loop over the slots of a queue finds a free one: the oldest task goes there. -/
lemma insertJob {k : Fin queueSize} (h : s.Consistent (w :: waiting))
    (hfirst : Scheduler.firstFreeSlot (s.queues i) = some k) :
    ∃ pool jobs, s.insertJob i = .ok (s.inserted (i, k) pool jobs (newJob w) w.2) ∧
      pool.Holds waiting ∧ jobs.next = s.jobs.next ∧
      ∀ y ≠ (i, k), ∀ r, s.slotHead y = some r → jobs.get r = s.jobs.get r := by
  obtain ⟨jobs, hdealloc, hnext, hkeep⟩ := h.deallocJob (i, k)
  obtain ⟨pool, hpop, hpool⟩ := h.pool.popTask
  refine ⟨pool, jobs, ?_, hpool, hnext, hkeep⟩
  change ServerUnit.deallocJob s.jobs ((s.queues i).queueHead k) = .ok jobs at hdealloc
  simp only [Scheduler.insertJob, hfirst, hdealloc, hpop, initJob, TaskPool.node,
    Outcome.ofOption, Outcome.ok_bind]
  rfl

lemma getTaskPoolSize_pos (h : s.Consistent (w :: waiting)) : 0 < s.pool.getTaskPoolSize := by
  rw [TaskPool.getTaskPoolSize, h.pool.count]
  exact Nat.succ_pos _

/-- A round of the loop finds a task: it goes to one slot, which was free. -/
lemma place [NeZero n] (h : s.Consistent (w :: waiting)) (hn : n ≤ queueSize)
    (hsched : s.sched = .placing j qSlots) :
    ∃ s', s.place j qSlots = .ok s' ∧ s.PlacesOne w s' ∧ s'.Consistent waiting := by
  obtain ⟨hj, hroom⟩ := h.room j qSlots hsched
  obtain ⟨i, hqueue, hfull⟩ := h.getQuickestQueue hn (by omega)
  obtain ⟨k, hfirst, hdone⟩ := h.firstFreeSlot hfull
  obtain ⟨pool, jobs, hinsert, hpool, hnext, hkeep⟩ := h.insertJob hfirst
  refine ⟨_, ?_, ?_, h.inserted hdone hpool hnext hkeep hsched⟩
  · rw [Scheduler.place, if_pos h.getTaskPoolSize_pos]
    simp only [hqueue, hinsert, Outcome.ok_bind]
    rfl
  · refine ⟨rfl, (i, k), busy_eq_none_of_done hdone, ?_, ?_, ?_, ?_⟩
    · show (s.inserted (i, k) pool jobs (newJob w) w.2).busy (i, k) = _
      rw [busy_inserted, if_pos rfl, hnext]
    · show (jobs.alloc (newJob w)).get s.jobs.next = _
      rw [← hnext, Heap.get_alloc_self]
    · intro y hy
      show (s.inserted (i, k) pool jobs (newJob w) w.2).busy y = _
      rw [busy_inserted, if_neg hy]
    · intro y r hy
      exact (h.get_alloc hkeep _ (ne_of_busy hdone hy) (busy_eq_some.mp hy).2).1

/-- A round that comes to its end with a task in the pool: the quickest queue has no free slot
after all, or the task has gone to one. -/
lemma place_cases [NeZero n] (h : s.Consistent (w :: waiting))
    (hstep : s.place j qSlots = .ok s') :
    s' = { s with sched := nextRound j qSlots } ∨
      ∃ x pool jobs, s.slotDone x = true ∧ pool.Holds waiting ∧ jobs.next = s.jobs.next ∧
        (∀ y ≠ x, ∀ r, s.slotHead y = some r → jobs.get r = s.jobs.get r) ∧
        s' = { s.inserted x pool jobs (newJob w) w.2 with sched := nextRound j qSlots } := by
  rw [Scheduler.place, if_pos h.getTaskPoolSize_pos] at hstep
  simp only [Outcome.bind_eq_ok, Outcome.pure_eq_ok] at hstep
  obtain ⟨i, -, t, hinsert, rfl⟩ := hstep
  cases hfirst : Scheduler.firstFreeSlot (s.queues i) with
  | none =>
    simp only [Scheduler.insertJob, hfirst, Outcome.pure_eq_ok] at hinsert
    subst hinsert
    exact .inl rfl
  | some k =>
    have hdone : (s.queues i).qSlotDone k = true := List.find?_some hfirst
    obtain ⟨pool, jobs, hok, hpool, hnext, hkeep⟩ := h.insertJob hfirst
    rw [hok] at hinsert
    cases hinsert
    exact .inr ⟨(i, k), pool, jobs, hdone, hpool, hnext, hkeep, rfl⟩

/-- A round that takes no slot leaves those that were counted. -/
lemma nextRound (h : s.Consistent waiting) (hsched : s.sched = .placing j qSlots) :
    Consistent { s with sched := nextRound j qSlots } waiting where
  __ := h
  room := by
    intro j' qSlots' heq
    change Scheduler.nextRound j qSlots = .placing j' qSlots' at heq
    rw [Scheduler.nextRound] at heq
    split_ifs at heq with hlt
    cases heq
    obtain ⟨-, hroom⟩ := h.room j qSlots hsched
    exact ⟨hlt, hroom.trans (Nat.add_le_add_right (Nat.le_succ j) _)⟩

/-- A round of the loop finds no task: the pass is over. -/
lemma place_nil [NeZero n] (h : s.Consistent []) (j qSlots : ℕ) :
    s.place j qSlots = .ok { s with sched := .waiting } ∧
      Consistent { s with sched := .waiting } [] := by
  have hsize : ¬ 0 < s.pool.getTaskPoolSize := by
    rw [TaskPool.getTaskPoolSize, h.pool.count]
    exact lt_irrefl 0
  refine ⟨?_, { h with room := ?_ }⟩
  · rw [Scheduler.place, if_neg hsize]
    rfl
  · intro j qSlots heq
    cases heq

lemma countSlots (h : s.Consistent waiting) :
    Consistent { s with
      sched := if 0 < s.getTotalEmptySlots then .placing 0 s.getTotalEmptySlots else .waiting }
      waiting where
  __ := h
  room := by
    intro j qSlots heq
    change (if 0 < s.getTotalEmptySlots then _ else _) = _ at heq
    split_ifs at heq with hpos
    cases heq
    exact ⟨hpos, (Nat.zero_add _).ge⟩

/-- The pool is full and nothing changes, or a task is added last. -/
lemma addTask [NeZero n] (h : s.Consistent waiting) (task : TaskStruct τ)
    (loadType : TaskPriority) :
    (TaskPool.maxTaskPoolSize ≤ waiting.length ∧ s.step (.addTask task loadType) = .ok s) ∨
      ∃ pool,
        s.step (.addTask task loadType) =
          .ok { s with pool, accepted := s.accepted ++ [(task, loadType)] } ∧
        Consistent { s with pool, accepted := s.accepted ++ [(task, loadType)] }
          (waiting ++ [(task, loadType)]) := by
  rcases Nat.lt_or_ge waiting.length TaskPool.maxTaskPoolSize with hroom | hfull
  · obtain ⟨pool, hadd, hpool⟩ := h.pool.addTask task loadType hroom
    refine .inr ⟨pool, ?_, { h with pool := hpool, tasks := ?_, order := ?_ }⟩
    · simp only [step, hadd, Outcome.ok_bind]
      rfl
    · show ((s.accepted ++ [(task, loadType)]).map Prod.fst : Multiset (TaskStruct τ)) =
        (waiting ++ [(task, loadType)]).map Prod.fst + ∑ x, s.slotTasks x +
          s.finished.map Prod.snd
      rw [List.map_append, List.map_append, ← Multiset.coe_add, ← Multiset.coe_add, h.tasks]
      abel
    · show s.accepted ++ _ = _
      rw [h.order, List.append_assoc]
  · refine .inl ⟨hfull, ?_⟩
    simp only [step, h.pool.addTask_full task loadType hfull, Outcome.ok_bind]
    rfl

/-! ### All steps -/

lemma step [NeZero n] (h : s.Consistent waiting) {e : SchedEvent τ n}
    (hstep : s.step e = .ok s') : ∃ waiting', s'.Consistent waiting' := by
  cases e with
  | addTask task loadType =>
    rcases h.addTask task loadType with ⟨-, ht⟩ | ⟨pool, ht, hcons⟩
    · rw [hstep] at ht
      cases ht
      exact ⟨waiting, h⟩
    · rw [hstep] at ht
      cases ht
      exact ⟨_, hcons⟩
  | countSlots =>
    simp only [Scheduler.step, Outcome.guard_eq_ok, Outcome.pure_eq_ok] at hstep
    obtain ⟨-, rfl⟩ := hstep
    exact ⟨waiting, h.countSlots⟩
  | place =>
    cases hsched : s.sched with
    | waiting =>
      simp only [Scheduler.step, hsched] at hstep
      cases hstep
    | placing j qSlots =>
      simp only [Scheduler.step, hsched] at hstep
      cases waiting with
      | nil =>
        obtain ⟨ht, hcons⟩ := h.place_nil j qSlots
        rw [hstep] at ht
        cases ht
        exact ⟨[], hcons⟩
      | cons w waiting =>
        rcases h.place_cases hstep with rfl | ⟨x, pool, jobs, hx, hpool, hnext, hkeep, rfl⟩
        · exact ⟨w :: waiting, h.nextRound hsched⟩
        · exact ⟨waiting, h.inserted hx hpool hnext hkeep hsched⟩
  | startProc i status => exact ⟨waiting, h.startProc hstep⟩
  | pauseProc i status => exact absurd hstep h.not_pauseProc
  | endProc i status => exact ⟨waiting, h.endProc hstep⟩
  | advance i => exact ⟨waiting, h.advance hstep⟩
  | timer i => exact ⟨waiting, h.fireTimer hstep⟩

/-- The job that a thread comes to is there to be read. -/
lemma deref_safe (h : s.Consistent waiting) (hcur : s.currentJob i = .ok (r, timer)) :
    (s.jobs.deref r).Safe := by
  obtain ⟨job, hjob, -⟩ := h.stored _ r (busy_eq_some.mp (h.of_currentJob hcur).1).2
  exact .of_ok ⟨job, Heap.deref_eq_ok.mpr hjob⟩

lemma step_safe [NeZero n] (h : s.Consistent waiting) (hn : n ≤ queueSize) (e : SchedEvent τ n) :
    (s.step e).Safe := by
  cases e with
  | addTask task loadType =>
    rcases h.addTask task loadType with ⟨-, ht⟩ | ⟨pool, ht, -⟩
    · exact .of_ok ⟨s, ht⟩
    · exact .of_ok ⟨_, ht⟩
  | countSlots => exact .guard fun _ => .ok _
  | place =>
    cases hsched : s.sched with
    | waiting =>
      simp only [Scheduler.step, hsched]
      exact .disabled
    | placing j qSlots =>
      simp only [Scheduler.step, hsched]
      cases waiting with
      | nil =>
        exact .of_ok ⟨_, (h.place_nil j qSlots).1⟩
      | cons w waiting =>
        obtain ⟨t, ht, -⟩ := h.place hn hsched
        exact .of_ok ⟨t, ht⟩
  | startProc i status =>
    exact h.currentJob_safe.bind fun _ hcur => (h.deref_safe hcur).bind fun _ _ =>
      .guard fun _ => .ok _
  | pauseProc i status =>
    exact h.currentJob_safe.bind fun _ hcur => (h.deref_safe hcur).bind fun _ _ =>
      .guard fun _ => .ok _
  | endProc i status =>
    exact h.currentJob_safe.bind fun _ hcur => (h.deref_safe hcur).bind fun _ _ =>
      .guard fun _ => .ok _
  | advance i => exact .guard fun _ => .ok _
  | timer i =>
    simp only [Scheduler.step, Scheduler.fireTimer]
    cases (s.threads i).pc with
    | inJob r timer => exact .ok _
    | atHead => exact .disabled
    | leaving => exact .disabled

lemma conserved [NeZero n] (h : s.Consistent waiting) (hn : n ≤ queueSize) :
    s.Conserved waiting where
  pool := h.pool
  tasks := h.tasks
  order := h.order
  places := by
    intro w rest hwaiting hsched
    subst hwaiting
    cases hpc : s.sched with
    | waiting => exact absurd hpc hsched
    | placing j qSlots =>
      obtain ⟨s', hplace, hone, hcons⟩ := h.place hn hpc
      refine ⟨s', ?_, hone, hcons.pool⟩
      simp only [Scheduler.step, hpc]
      exact hplace
  busy := by
    intro x hx
    obtain ⟨r, job, hbusy, hjob⟩ := h.exists_busy hx
    exact ⟨r, job, hbusy, hjob, h.phase x r job hbusy hjob⟩
  finished := ⟨h.finishedNodup, h.finished⟩
  jobs := by
    intro r hr
    rcases h.jobs r hr with ⟨x, hx⟩ | hmem
    · exact .inl ⟨x, hx, fun y hy => h.busy_injective hy hx⟩
    · exact .inr hmem
  count := h.count
  safe := h.step_safe hn

end Consistent

lemma exists_consistent_of_run [NeZero n] {es : List (SchedEvent τ n)}
    (h : run step (init τ n) es = .ok s) : ∃ waiting, s.Consistent waiting := by
  refine run_invariant (I := fun t : Scheduler τ n => ∃ waiting, t.Consistent waiting) ?_
    ⟨[], Consistent.init τ n⟩ h
  rintro s e s' ⟨waiting, hs⟩ hstep
  exact hs.step hstep

/-- With at most as many threads as a queue has slots, every state that is reached is conserved. -/
theorem run_conserved [NeZero n] (hn : n ≤ queueSize) {es : List (SchedEvent τ n)}
    (h : run step (init τ n) es = .ok s) : ∃ waiting, s.Conserved waiting := by
  obtain ⟨waiting, hcons⟩ := exists_consistent_of_run h
  exact ⟨waiting, hcons.conserved hn⟩

/-- Two threads: a task is placed, done and finished while a second one is on its way. -/
def twoThreads : List (SchedEvent ℕ 2) :=
  [.addTask ⟨⟨true⟩, 1⟩ .lowPriority, .addTask ⟨⟨false⟩, 2⟩ .nonPreemtable, .countSlots, .place,
    .startProc 0 .jobPending, .place, .startProc 0 .jobDone, .advance 0, .advance 0, .advance 0,
    .advance 0, .endProc 0 .jobFinished]

theorem run_conserved_twoThreads :
    ∃ s, run step (init ℕ 2) twoThreads = .ok s ∧ s.finished = [(0, ⟨⟨true⟩, 1⟩)] ∧
      ∃ waiting, s.Conserved waiting := by
  obtain ⟨s, hs, hfinished⟩ := Outcome.exists_ok_of_eval (x := run step (init ℕ 2) twoThreads)
    (P := fun s => s.finished = [(0, ⟨⟨true⟩, 1⟩)]) (by decide)
  exact ⟨s, hs, hfinished, run_conserved (by decide) hs⟩

end Scheduler

end ServerUnit
