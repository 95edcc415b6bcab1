import ServerUnit.Sched.JobSlots

/-!
# What holds of slots, counts and histories

Three invariants of the scheduler that do not depend on where its threads stand: each job is in
one slot, the counts agree with the slots, and the calls made for a job agree with its status.
Each is kept by a call of a procedure, by the release of a slot and by the insertion of a job.
-/

namespace ServerUnit

open Lib

namespace Scheduler

variable {τ : Type} {n : ℕ} {s : Scheduler τ n} {w : TaskPool.Waiting τ} {x y : Slot n}
  {r : JobRef} {job : QueueJob τ} {status : JobStatus} {pool : TaskPool τ}
  {jobs : Heap (QueueJob τ)} {j qSlots : ℕ}

/-- The longest slice of `get_cpu_slice`. -/
abbrev maxCpuSlice : ℕ := 6 * 1000000

lemma getCpuSlice_le (priority : TaskPriority) : getCpuSlice priority ≤ maxCpuSlice := by
  cases priority <;> decide

/-! ### The jobs in the slots -/

/-- The jobs in the slots are there to be read, and each is in one slot only. -/
structure Stored (s : Scheduler τ n) : Prop where
  /-- A slot has a job unless it has never been used. -/
  filled : ∀ x, s.slotDone x = false → ∃ r, s.slotHead x = some r
  stored : ∀ x r, s.slotHead x = some r →
    ∃ job, s.jobs.get r = some job ∧ job.cpuSliceMs ≤ maxCpuSlice
  distinct : ∀ x y r, s.slotHead x = some r → s.slotHead y = some r → x = y

namespace Stored

lemma init (τ : Type) (n : ℕ) : (init τ n).Stored := by
  constructor <;> simp [Scheduler.init, slotDone, slotHead]

lemma exists_job (h : s.Stored) (hx : s.busy x = some r) : ∃ job, s.jobs.get r = some job := by
  obtain ⟨job, hjob, -⟩ := h.stored x r (busy_eq_some.mp hx).2
  exact ⟨job, hjob⟩

/-- A slot that is not done has a job. -/
lemma exists_busy (h : s.Stored) (hx : s.slotDone x = false) :
    ∃ r job, s.busy x = some r ∧ s.jobs.get r = some job := by
  obtain ⟨r, hr⟩ := h.filled x hx
  have hbusy : s.busy x = some r := busy_eq_some.mpr ⟨hx, hr⟩
  obtain ⟨job, hjob⟩ := h.exists_job hbusy
  exact ⟨r, job, hbusy, hjob⟩

lemma busy_injective (h : s.Stored) (hx : s.busy x = some r) (hy : s.busy y = some r) : x = y :=
  h.distinct x y r (busy_eq_some.mp hx).2 (busy_eq_some.mp hy).2

/-- A call leaves all jobs where they are. -/
lemma called (h : s.Stored) (hjob : s.jobs.get r = some job) (status : JobStatus)
    (call : ProcCall) : (s.called r { job with jobStatus := status } call).Stored where
  __ := h
  stored := by
    intro y r' hy
    obtain ⟨job', hjob', hslice⟩ := h.stored y r' hy
    by_cases hr : r' = r
    · subst hr
      rw [hjob, Option.some.injEq] at hjob'
      subst hjob'
      exact ⟨_, Heap.get_put_self hjob, hslice⟩
    · exact ⟨job', (Heap.get_put_of_ne hr).trans hjob', hslice⟩

/-- The job of a released slot stays there until the slot is used again. -/
lemma released (h : s.Stored) (hjob : s.jobs.get r = some job) :
    (s.released x r job status).Stored where
  filled := by
    intro y hy
    rw [slotDone_released] at hy
    rw [slotHead_released]
    split_ifs at hy
    exact h.filled y hy
  stored := by
    intro y r' hy
    rw [slotHead_released] at hy
    exact (h.called hjob status (.endProc status)).stored y r' hy
  distinct := by
    intro y z r' hy hz
    rw [slotHead_released] at hy hz
    exact h.distinct y z r' hy hz

/-- What `dealloc_job` does for a slot that is to be used again: only the job in this slot is
lost. -/
lemma deallocJob (h : s.Stored) (x : Slot n) :
    ∃ jobs, ServerUnit.deallocJob s.jobs (s.slotHead x) = .ok jobs ∧ jobs.next = s.jobs.next ∧
      ∀ y ≠ x, ∀ r, s.slotHead y = some r → jobs.get r = s.jobs.get r := by
  cases hold : s.slotHead x with
  | none => exact ⟨s.jobs, rfl, rfl, fun _ _ _ _ => rfl⟩
  | some old =>
    obtain ⟨job, hjob, -⟩ := h.stored x old hold
    refine ⟨s.jobs.free old, ?_, Heap.next_free _ _, ?_⟩
    · simp only [ServerUnit.deallocJob, Heap.deref, hjob, Outcome.ofOption, Outcome.ok_bind]
      rfl
    · intro y hy r hr
      apply Heap.get_free_of_ne
      rintro rfl
      exact hy (h.distinct y x r hr hold)

/-- The jobs in the other slots are still there when a new one is allocated, at an address that
none of them has. -/
lemma get_alloc (h : s.Stored)
    (hkeep : ∀ y ≠ x, ∀ r, s.slotHead y = some r → jobs.get r = s.jobs.get r) (job : QueueJob τ)
    (hy : y ≠ x) (hr : s.slotHead y = some r) :
    (jobs.alloc job).get r = s.jobs.get r ∧ r < jobs.next := by
  obtain ⟨job', hjob', -⟩ := h.stored y r hr
  have hget := (hkeep y hy r hr).trans hjob'
  exact ⟨(Heap.get_alloc_of_get hget).trans hjob'.symm, Heap.lt_next_of_get hget⟩

lemma inserted (h : s.Stored)
    (hkeep : ∀ y ≠ x, ∀ r, s.slotHead y = some r → jobs.get r = s.jobs.get r) :
    (s.inserted x pool jobs (newJob w) w.2).Stored where
  filled := by
    intro y hy
    rw [slotDone_inserted] at hy
    rw [slotHead_inserted]
    split_ifs at hy ⊢
    · exact ⟨_, rfl⟩
    · exact h.filled y hy
  stored := by
    intro y r hy
    show ∃ job, (jobs.alloc (newJob w)).get r = some job ∧ _
    rw [slotHead_inserted] at hy
    split_ifs at hy with hyx
    · cases hy
      exact ⟨newJob w, Heap.get_alloc_self _ _, getCpuSlice_le w.2⟩
    · obtain ⟨job, hjob, hslice⟩ := h.stored y r hy
      exact ⟨job, (h.get_alloc hkeep _ hyx hy).1.trans hjob, hslice⟩
  distinct := by
    intro y z r hy hz
    rw [slotHead_inserted] at hy hz
    split_ifs at hy hz with hyx hzx hzx
    · rw [hyx, hzx]
    · cases hy
      exact absurd (h.get_alloc hkeep (newJob w) hzx hz).2 (lt_irrefl _)
    · cases hz
      exact absurd (h.get_alloc hkeep (newJob w) hyx hy).2 (lt_irrefl _)
    · exact h.distinct y z r hy hz

end Stored

/-! ### The two occupancy counts -/

/-- The counts agree with the slots. -/
structure Counted (s : Scheduler τ n) : Prop where
  count : ∀ i, (s.queues i).totalJobsInQueue = pendingSlots (s.queues i)
  /-- The slots counted and not used yet are still free: only the scheduler takes slots. -/
  room : ∀ j qSlots, s.sched = .placing j qSlots →
    j < qSlots ∧ qSlots ≤ j + s.getTotalEmptySlots

namespace Counted

lemma init (τ : Type) (n : ℕ) : (init τ n).Counted := by
  constructor <;> simp [Scheduler.init, pendingSlots]

/-- A queue that changes keeps its count. -/
lemma setQueue (h : s.Counted) {i : Fin n} {q : ThreadQueue}
    (hq : q.totalJobsInQueue = pendingSlots q) (a : Fin n) :
    ((s.setQueue i q).queues a).totalJobsInQueue = pendingSlots ((s.setQueue i q).queues a) := by
  by_cases ha : a = i
  · subst ha
    rwa [queues_setQueue_self]
  · rw [queues_setQueue_of_ne ha]
    exact h.count a

lemma released (h : s.Counted) (hx : s.slotDone x = false) :
    (s.released x r job status).Counted where
  count := by
    apply h.setQueue
    have hcount := h.count x.1
    have hpending := pendingSlots_releaseSlot hx
    have hle : pendingSlots (s.queues x.1) + freeSlots (s.queues x.1) = 4 :=
      pendingSlots_add_freeSlots _
    show ((s.queues x.1).totalJobsInQueue + 255) % 256 = _
    omega
  room := by
    intro j qSlots hsched
    obtain ⟨hj, hroom⟩ := h.room j qSlots hsched
    refine ⟨hj, hroom.trans (Nat.add_le_add_left ?_ j)⟩
    show _ ≤ (s.setQueue x.1 (releaseSlot (s.queues x.1) x.2)).getTotalEmptySlots
    have hslots := getTotalEmptySlots_setQueue s x.1 (releaseSlot (s.queues x.1) x.2)
    have hpending : pendingSlots (releaseSlot (s.queues x.1) x.2) + 1 =
      pendingSlots (s.queues x.1) := pendingSlots_releaseSlot hx
    have hfree := pendingSlots_add_freeSlots (s.queues x.1)
    have hfree' := pendingSlots_add_freeSlots (releaseSlot (s.queues x.1) x.2)
    omega

/-- The round that takes a slot is one of those that were counted. -/
lemma inserted (h : s.Counted) (hx : s.slotDone x = true) (hsched : s.sched = .placing j qSlots) :
    Counted { s.inserted x pool jobs job w.2 with sched := nextRound j qSlots } where
  count := by
    apply h.setQueue
    have hcount := h.count x.1
    have hpending := pendingSlots_insertSlot (r := jobs.next) hx
    have hle : pendingSlots (insertSlot (s.queues x.1) x.2 jobs.next) +
      freeSlots (insertSlot (s.queues x.1) x.2 jobs.next) = 4 := pendingSlots_add_freeSlots _
    show ((s.queues x.1).totalJobsInQueue + 1) % 256 = _
    omega
  room := by
    intro j' qSlots' heq
    change nextRound j qSlots = .placing j' qSlots' at heq
    rw [nextRound] at heq
    split_ifs at heq with hlt
    cases heq
    show _ ∧ _ ≤ _ + (s.setQueue x.1 (insertSlot (s.queues x.1) x.2 jobs.next)).getTotalEmptySlots
    obtain ⟨-, hroom⟩ := h.room j qSlots hsched
    have hslots := getTotalEmptySlots_setQueue s x.1 (insertSlot (s.queues x.1) x.2 jobs.next)
    have hpending : pendingSlots (insertSlot (s.queues x.1) x.2 jobs.next) =
      pendingSlots (s.queues x.1) + 1 := pendingSlots_insertSlot hx
    have hfree := pendingSlots_add_freeSlots (s.queues x.1)
    have hfree' := pendingSlots_add_freeSlots (insertSlot (s.queues x.1) x.2 jobs.next)
    exact ⟨hlt, by omega⟩

end Counted

/-! ### The histories of the jobs -/

/-- The calls made for a job agree with its status and with whether it has finished. -/
structure Recorded (s : Scheduler τ n) : Prop where
  phase : ∀ x r job, s.busy x = some r → s.jobs.get r = some job → Phase job (s.callsOf r)
  finishedNodup : (s.finished.map Prod.fst).Nodup
  finished : ∀ r ∈ s.finished.map Prod.fst, Finished (s.callsOf r)
  jobs : ∀ r < s.jobs.next, (∃ x, s.busy x = some r) ∨ r ∈ s.finished.map Prod.fst
  /-- Nothing was called for a job that does not exist yet. -/
  fresh : ∀ r, s.jobs.next ≤ r → s.callsOf r = []

namespace Recorded

lemma init (τ : Type) (n : ℕ) : (init τ n).Recorded := by
  constructor <;> simp [Scheduler.init, busy, slotDone, callsOf]

/-- A job that has finished is in no slot that is not done. -/
lemma notMem_finished (h : s.Recorded) (hx : s.busy x = some r) (hjob : s.jobs.get r = some job) :
    r ∉ s.finished.map Prod.fst := by
  intro hmem
  exact (h.phase x r job hx hjob).not_finished (h.finished r hmem)

/-- A call for a job that exists is none for one that does not exist yet. -/
lemma fresh_called (h : s.Recorded) (hjob : s.jobs.get r = some job) (job' : QueueJob τ)
    (call : ProcCall) {r' : JobRef} (hr' : (s.jobs.put r job').next ≤ r') :
    (s.called r job' call).callsOf r' = [] := by
  rw [Heap.next_put] at hr'
  have hne : r' ≠ r := ((Heap.lt_next_of_get hjob).trans_le hr').ne'
  rw [callsOf_called, if_neg hne]
  exact h.fresh r' hr'

/-- A call for a job in a slot that is not done. -/
lemma called (h : s.Recorded) {call : ProcCall} (hx : s.busy x = some r)
    (hjob : s.jobs.get r = some job)
    (hphase : Phase { job with jobStatus := status } (s.callsOf r ++ [call])) :
    (s.called r { job with jobStatus := status } call).Recorded where
  phase := by
    intro y r' job' hy hjob'
    rw [callsOf_called]
    split_ifs with hr
    · subst hr
      rw [Scheduler.called, Heap.get_put_self hjob, Option.some.injEq] at hjob'
      rwa [← hjob']
    · rw [Scheduler.called, Heap.get_put_of_ne hr] at hjob'
      exact h.phase y r' job' hy hjob'
  finishedNodup := h.finishedNodup
  finished := by
    intro r' hr'
    have hne : r' ≠ r := by
      rintro rfl
      exact h.notMem_finished hx hjob hr'
    rw [callsOf_called, if_neg hne]
    exact h.finished r' hr'
  jobs := by
    intro r' hr'
    rw [Scheduler.called, Heap.next_put] at hr'
    exact h.jobs r' hr'
  fresh := fun r' hr' => h.fresh_called hjob _ call hr'

/-- The job of the slot that is released has finished. -/
lemma released (h : s.Recorded) (hstored : s.Stored) (hx : s.busy x = some r)
    (hjob : s.jobs.get r = some job) (hover : job.jobStatus.isOver = true) :
    (s.released x r job status).Recorded where
  phase := by
    intro y r' job' hy hjob'
    rw [busy_released] at hy
    split_ifs at hy with hyx
    have hne : r' ≠ r := by
      rintro rfl
      exact hyx (hstored.busy_injective hy hx)
    show Phase job' ((s.called r job (.endProc status)).callsOf r')
    rw [callsOf_called, if_neg hne]
    exact h.phase y r' job' hy ((Heap.get_put_of_ne hne).symm.trans hjob')
  finishedNodup := by
    show ((s.finished ++ [(r, job.task)]).map Prod.fst).Nodup
    rw [List.map_append]
    apply List.Nodup.append h.finishedNodup (List.nodup_singleton r)
    rw [List.disjoint_singleton]
    exact h.notMem_finished hx hjob
  finished := by
    intro r' hr'
    change r' ∈ (s.finished ++ [(r, job.task)]).map Prod.fst at hr'
    show Finished ((s.called r job (.endProc status)).callsOf r')
    rw [callsOf_called]
    split_ifs with hne
    · exact (h.phase x r job hx hjob).endProc status hover
    · rw [List.map_append, List.mem_append] at hr'
      rcases hr' with hr' | hr'
      · exact h.finished r' hr'
      · exact absurd (List.mem_singleton.mp hr') hne
  jobs := by
    intro r' hr'
    change r' < (s.jobs.put r _).next at hr'
    show _ ∨ r' ∈ (s.finished ++ [(r, job.task)]).map Prod.fst
    rw [Heap.next_put] at hr'
    rw [List.map_append, List.mem_append]
    rcases h.jobs r' hr' with ⟨y, hy⟩ | hmem
    · by_cases hyx : y = x
      · subst hyx
        rw [hx, Option.some.injEq] at hy
        exact .inr (.inr (List.mem_singleton.mpr hy.symm))
      · refine .inl ⟨y, ?_⟩
        rw [busy_released, if_neg hyx, hy]
    · exact .inr (.inl hmem)
  fresh := fun r' hr' => h.fresh_called hjob _ (.endProc status) hr'

/-- A new job has no history. -/
lemma inserted (h : s.Recorded) (hstored : s.Stored) (hx : s.slotDone x = true)
    (hnext : jobs.next = s.jobs.next)
    (hkeep : ∀ y ≠ x, ∀ r, s.slotHead y = some r → jobs.get r = s.jobs.get r) :
    (s.inserted x pool jobs (newJob w) w.2).Recorded where
  phase := by
    intro y r job hy hjob
    change (jobs.alloc (newJob w)).get r = some job at hjob
    show Phase job (s.callsOf r)
    rw [busy_inserted] at hy
    split_ifs at hy with hyx
    · cases hy
      rw [Heap.get_alloc_self, Option.some.injEq] at hjob
      rw [h.fresh _ hnext.ge, ← hjob]
      exact Running.nil
    · rw [(hstored.get_alloc hkeep _ hyx (busy_eq_some.mp hy).2).1] at hjob
      exact h.phase y r job hy hjob
  finishedNodup := h.finishedNodup
  finished := h.finished
  jobs := by
    intro r hr
    change r < (jobs.alloc (newJob w)).next at hr
    rw [Heap.next_alloc] at hr
    rcases Nat.lt_succ_iff_lt_or_eq.mp hr with hr | rfl
    · rw [hnext] at hr
      rcases h.jobs r hr with ⟨y, hy⟩ | hmem
      · refine .inl ⟨y, ?_⟩
        rw [busy_inserted, if_neg (ne_of_busy hx hy), hy]
      · exact .inr hmem
    · refine .inl ⟨x, ?_⟩
      rw [busy_inserted, if_pos rfl]
  fresh := by
    intro r hr
    change (jobs.alloc (newJob w)).next ≤ r at hr
    rw [Heap.next_alloc, hnext] at hr
    exact h.fresh r (Nat.le_of_succ_le hr)

end Recorded

end Scheduler

end ServerUnit
