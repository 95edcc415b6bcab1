import ServerUnit.Sched.Conservation

/-!
# A job that does not end (`sched/task_scheduler.cpp`)

`thread_task` leaves a job when `start_proc` reports that it is over, or when the timer says so,
which it never does. A thread that is in a job that is not over any more keeps to its slot: what
waits in the other slots of its queue stays there and nothing is called for it.
-/

namespace ServerUnit

open Lib

namespace Scheduler

variable {τ : Type} {n : ℕ} {s s' t t' : Scheduler τ n} {waiting : List (TaskPool.Waiting τ)}
  {i a : Fin n} {r : JobRef} {job : QueueJob τ}

/-- A thread is in the inner loop, with a job that is not over. -/
structure InJob (s : Scheduler τ n) (i : Fin n) (r : JobRef) (job : QueueJob τ) : Prop where
  pc : ∃ timer, (s.threads i).pc = .inJob r timer
  stored : s.jobs.get r = some job
  pending : job.jobStatus.isOver = false

/-- Since the state `s` the thread has not left its job. The jobs in the slots of its queue are in
them still, and nothing was called for the others that are there now. -/
structure StaysIn (i : Fin n) (r : JobRef) (args : τ) (s t : Scheduler τ n) : Prop where
  inJob : ∃ job, t.InJob i r job ∧ job.args = args
  kept : ∀ k r', s.busy (i, k) = some r' → t.busy (i, k) = some r'
  uncalled : ∀ k r', t.busy (i, k) = some r' → r' ≠ r → t.callsOf r' = s.callsOf r'
  next : s.jobs.next ≤ t.jobs.next

namespace StaysIn

variable {args : τ}

lemma refl (h : s.InJob i r job) : StaysIn i r job.args s s where
  inJob := ⟨job, h, rfl⟩
  kept _ _ hk := hk
  uncalled _ _ _ _ := rfl
  next := Nat.le_refl _

/-- A step that takes no slot of the queue and releases none. -/
lemma frame (h : StaysIn i r args s t) (hpc : ∃ timer, (t'.threads i).pc = .inJob r timer)
    (hjob : ∀ job, t.InJob i r job → ∃ job', t'.jobs.get r = some job' ∧
      job'.jobStatus.isOver = false ∧ job'.args = job.args)
    (hbusy : ∀ k, t'.busy (i, k) = t.busy (i, k))
    (hcalls : ∀ k r', t.busy (i, k) = some r' → r' ≠ r → t'.callsOf r' = t.callsOf r')
    (hnext : t'.jobs.next = t.jobs.next) : StaysIn i r args s t' where
  inJob := by
    obtain ⟨job, hin, hargs⟩ := h.inJob
    obtain ⟨job', hget, hpending, hargs'⟩ := hjob job hin
    exact ⟨job', ⟨hpc, hget, hpending⟩, hargs'.trans hargs⟩
  kept := by
    intro k r' hk
    rw [hbusy]
    exact h.kept k r' hk
  uncalled := by
    intro k r' hk hne
    rw [hbusy] at hk
    rw [hcalls k r' hk hne]
    exact h.uncalled k r' hk hne
  next := by
    rw [hnext]
    exact h.next

/-- A step of the pool or of the scheduler's count. -/
lemma of_slots (h : StaysIn i r args s t) (hqueues : t'.queues = t.queues)
    (hthreads : t'.threads i = t.threads i) (hjobs : t'.jobs = t.jobs) (hcalls : t'.calls = t.calls) :
    StaysIn i r args s t' := by
  obtain ⟨_, hin, -⟩ := h.inJob
  refine h.frame ?_ ?_ ?_ ?_ ?_
  · rw [hthreads]
    exact hin.pc
  · intro job hjob
    exact ⟨job, hjobs ▸ hjob.stored, hjob.pending, rfl⟩
  · intro k
    rw [busy, busy, slotDone, slotDone, slotHead, slotHead, hqueues]
  · intro k r' _ _
    rw [callsOf, callsOf, hcalls]
  · rw [hjobs]

/-- The job of another thread is in no slot of this queue. -/
lemma ne_of_other (ht : t.Consistent waiting) {x : Slot n} {r' : JobRef} (hx : t.busy x = some r')
    (hi : x.1 ≠ i) {k : Fin queueSize} {r'' : JobRef} (hk : t.busy (i, k) = some r'') : r'' ≠ r' := by
  rintro rfl
  cases ht.busy_injective hx hk
  exact hi rfl

/-- A procedure of a job of another queue was called. -/
lemma called (h : StaysIn i r args s t) (ht : t.Consistent waiting) {x : Slot n} {r' : JobRef}
    (hx : t.busy x = some r') (hi : x.1 ≠ i) (job' : QueueJob τ) (call : ProcCall) :
    StaysIn i r args s (t.called r' job' call) := by
  obtain ⟨job, hin, -⟩ := h.inJob
  obtain ⟨timer, hpc⟩ := hin.pc
  have hne : r ≠ r' := ne_of_other ht hx hi (ht.running i r timer hpc).1
  refine h.frame hin.pc ?_ (fun _ => rfl) ?_ (Heap.next_put _ _ _)
  · intro job hjob
    exact ⟨job, (Heap.get_put_of_ne hne).trans hjob.stored, hjob.pending, rfl⟩
  · intro k r'' hk _
    rw [callsOf_called, if_neg (ne_of_other ht hx hi hk)]

/-- Another thread goes on. -/
lemma setThread (h : StaysIn i r args s t) (ha : i ≠ a) (task : ThreadTask) :
    StaysIn i r args s (t.setThread a task) :=
  h.of_slots rfl (threads_setThread_of_ne ha) rfl rfl

/-- A thread that is in a job has it in hand. -/
lemma currentJob (h : StaysIn i r args s t) {r' : JobRef} {timer : JobTimer}
    (hcur : t.currentJob i = .ok (r', timer)) :
    r' = r ∧ (t.threads i).pc = .inJob r timer := by
  obtain ⟨job, hin, -⟩ := h.inJob
  obtain ⟨timer', hpc⟩ := hin.pc
  rw [Scheduler.currentJob, hpc] at hcur
  cases hcur
  exact ⟨rfl, hpc⟩

lemma startProc {status : JobStatus} (h : StaysIn i r args s t) (ht : t.Consistent waiting)
    (hpending : a = i → status.isOver = false) (hstep : t.startProc a status = .ok t') :
    StaysIn i r args s t' := by
  simp only [Scheduler.startProc, Outcome.bind_eq_ok, Heap.deref_eq_ok, Outcome.guard_eq_ok,
    Outcome.pure_eq_ok, Prod.exists] at hstep
  obtain ⟨r', timer, hcur, job', hjob', -, rfl⟩ := hstep
  by_cases ha : a = i
  · subst ha
    obtain ⟨rfl, hpc⟩ := h.currentJob hcur
    have hnot : status.isOver = false := hpending rfl
    refine h.frame ⟨timer, ?_⟩ ?_ (fun _ => rfl) ?_ (Heap.next_put _ _ _)
    · simp [hnot]
    · intro job hjob
      cases hjob.stored.symm.trans hjob'
      exact ⟨_, Heap.get_put_self hjob', hnot, rfl⟩
    · intro k r'' _ hne
      show (t.called r' { job' with jobStatus := status } (.startProc status)).callsOf r'' = _
      rw [callsOf_called, if_neg hne]
  · have hcalled := h.called ht (ht.of_currentJob hcur).1 ha { job' with jobStatus := status }
      (.startProc status)
    exact hcalled.setThread (Ne.symm ha) _

lemma endProc {status : JobStatus} (h : StaysIn i r args s t) (ht : t.Consistent waiting)
    (hstep : t.endProc a status = .ok t') : StaysIn i r args s t' := by
  simp only [Scheduler.endProc, Outcome.bind_eq_ok, Heap.deref_eq_ok, Outcome.guard_eq_ok,
    Outcome.pure_eq_ok, Prod.exists, Bool.and_eq_true] at hstep
  obtain ⟨r', timer, hcur, job', hjob', ⟨-, hover⟩, rfl⟩ := hstep
  by_cases ha : a = i
  · subst ha
    obtain ⟨rfl, -⟩ := h.currentJob hcur
    obtain ⟨job, hin, -⟩ := h.inJob
    cases hin.stored.symm.trans hjob'
    rw [hin.pending] at hover
    cases hover
  · have hx := (ht.of_currentJob hcur).1
    have hcalled := h.called ht hx ha { job' with jobStatus := status } (.endProc status)
    have hreleased : StaysIn i r args s (t.released (t.headSlot a) r' job' status) := by
      obtain ⟨_, hin, -⟩ := hcalled.inJob
      refine hcalled.frame hin.pc ?_ ?_ (fun _ _ _ _ => rfl) rfl
      · intro job hjob
        exact ⟨job, hjob.stored, hjob.pending, rfl⟩
      · intro k
        have hne : (i, k) ≠ t.headSlot a := fun heq => ha (congrArg Prod.fst heq).symm
        rw [busy_released, if_neg hne]
        rfl
    exact hreleased.setThread (Ne.symm ha) _

lemma advance (h : StaysIn i r args s t) (hstep : t.advance a = .ok t') :
    StaysIn i r args s t' := by
  simp only [Scheduler.advance, Outcome.guard_eq_ok, Outcome.pure_eq_ok] at hstep
  obtain ⟨hpc, rfl⟩ := hstep
  refine h.setThread ?_ _
  rintro rfl
  obtain ⟨_, hin, -⟩ := h.inJob
  obtain ⟨timer, hin⟩ := hin.pc
  rw [hin] at hpc
  rcases hpc with hpc | ⟨hpc, -⟩ <;> cases hpc

lemma fireTimer (h : StaysIn i r args s t) (hstep : t.fireTimer a = .ok t') :
    StaysIn i r args s t' := by
  rw [Scheduler.fireTimer] at hstep
  cases hpc : (t.threads a).pc with
  | inJob r' timer =>
    simp only [hpc, Outcome.pure_eq_ok] at hstep
    rw [← hstep]
    by_cases ha : i = a
    · subst ha
      obtain ⟨_, hin, -⟩ := h.inJob
      obtain ⟨timer', hin⟩ := hin.pc
      cases hpc.symm.trans hin
      refine h.frame ⟨startJobTimer timer, ?_⟩ ?_ (fun _ => rfl) (fun _ _ _ _ => rfl) rfl
      · rw [threads_setThread_self]
      · intro job hjob
        exact ⟨job, hjob.stored, hjob.pending, rfl⟩
    · exact h.setThread ha _
  | atHead =>
    rw [hpc] at hstep
    cases hstep
  | leaving =>
    rw [hpc] at hstep
    cases hstep

/-- A new job goes to a slot that was free. Nothing was called for it. -/
lemma inserted {w : TaskPool.Waiting τ} {x : Slot n} {pool : TaskPool τ}
    {jobs : Heap (QueueJob τ)} {sched : SchedPc} (hs : s.Recorded) (h : StaysIn i r args s t)
    (ht : t.Consistent waiting) (hx : t.slotDone x = true) (hnext : jobs.next = t.jobs.next)
    (hkeep : ∀ y ≠ x, ∀ r, t.slotHead y = some r → jobs.get r = t.jobs.get r) :
    StaysIn i r args s { t.inserted x pool jobs (newJob w) w.2 with sched } where
  inJob := by
    obtain ⟨job, hin, hargs⟩ := h.inJob
    obtain ⟨timer, hpc⟩ := hin.pc
    have hr := (ht.running i r timer hpc).1
    have hget := (ht.get_alloc hkeep (newJob w) (ne_of_busy hx hr) (busy_eq_some.mp hr).2).1
    exact ⟨job, ⟨hin.pc, hget.trans hin.stored, hin.pending⟩, hargs⟩
  kept := by
    intro k r' hk
    have hk' := h.kept k r' hk
    show (t.inserted x pool jobs (newJob w) w.2).busy (i, k) = some r'
    rw [busy_inserted, if_neg (ne_of_busy hx hk')]
    exact hk'
  uncalled := by
    intro k r' hk hne
    change (t.inserted x pool jobs (newJob w) w.2).busy (i, k) = some r' at hk
    show t.callsOf r' = s.callsOf r'
    rw [busy_inserted] at hk
    split_ifs at hk with heq
    · cases hk
      rw [hnext, ht.fresh _ (Nat.le_refl _), hs.fresh _ h.next]
    · exact h.uncalled k r' hk hne
  next := by
    show s.jobs.next ≤ (jobs.alloc (newJob w)).next
    rw [Heap.next_alloc, hnext]
    exact h.next.trans (Nat.le_succ _)

variable [NeZero n]

/-- A step of the scheduler or of a thread leaves the thread where it is, if its calls leave the
job pending. -/
lemma step {e : SchedEvent τ n} (hs : s.Recorded) (h : StaysIn i r args s t)
    (ht : t.Consistent waiting)
    (hpending : ∀ status, e = .startProc i status → status.isOver = false)
    (hstep : t.step e = .ok t') : StaysIn i r args s t' := by
  cases e with
  | addTask task loadType =>
    rcases ht.addTask task loadType with ⟨-, ht'⟩ | ⟨pool, ht', -⟩
    · cases hstep.symm.trans ht'
      exact h
    · cases hstep.symm.trans ht'
      exact h.of_slots rfl rfl rfl rfl
  | countSlots =>
    simp only [Scheduler.step, Outcome.guard_eq_ok, Outcome.pure_eq_ok] at hstep
    obtain ⟨-, rfl⟩ := hstep
    exact h.of_slots rfl rfl rfl rfl
  | place =>
    cases hsched : t.sched with
    | waiting =>
      simp only [Scheduler.step, hsched] at hstep
      cases hstep
    | placing j qSlots =>
      simp only [Scheduler.step, hsched] at hstep
      cases waiting with
      | nil =>
        cases hstep.symm.trans (ht.place_nil j qSlots).1
        exact h.of_slots rfl rfl rfl rfl
      | cons w waiting =>
        rcases ht.place_cases hstep with rfl | ⟨x, pool, jobs, hx, -, hnext, hkeep, rfl⟩
        · exact h.of_slots rfl rfl rfl rfl
        · exact h.inserted hs ht hx hnext hkeep
  | startProc a status =>
    refine h.startProc ht ?_ hstep
    rintro rfl
    exact hpending status rfl
  | pauseProc a status => exact absurd hstep ht.not_pauseProc
  | endProc a status => exact h.endProc ht hstep
  | advance a => exact h.advance hstep
  | timer a => exact h.fireTimer hstep

end StaysIn

end Scheduler

end ServerUnit
