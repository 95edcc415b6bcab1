import ServerUnit.Lib.Counting
import ServerUnit.Sched.TaskScheduler

/-!
# Slots and the calls of their jobs

What the placement of a job and the release of a slot do to the slots, to the two counts of a
queue and to sums over all slots, and what a call does to the history of its job.
-/

namespace ServerUnit

open Lib

namespace Scheduler

variable {τ : Type} {n : ℕ} {s : Scheduler τ n} {k : Fin queueSize} {q : ThreadQueue}
  {x y : Slot n} {r : JobRef} {job : QueueJob τ} {calls : List ProcCall} {status : JobStatus}

/-! ### Histories of calls -/

lemma Running.nil : Running [] := by
  intro c hc
  cases hc

lemma Running.startProc (h : Running calls) (hstatus : status.isOver = false) :
    Running (calls ++ [.startProc status]) := by
  intro c hc
  rw [List.mem_append, List.mem_singleton] at hc
  rcases hc with hc | rfl
  · exact h c hc
  · exact ⟨status, rfl, hstatus⟩

/-- A call of `start_proc` for a job that is not over. -/
lemma Phase.startProc (h : Phase job calls) (status : JobStatus) (hjob : job.jobStatus.isOver = false) :
    Phase { job with jobStatus := status } (calls ++ [.startProc status]) := by
  rw [Phase, hjob, if_neg Bool.false_ne_true] at h
  rw [Phase]
  split_ifs with hstatus
  · exact ⟨calls, status, h, hstatus, rfl⟩
  · exact h.startProc (Bool.eq_false_of_not_eq_true hstatus)

/-- A call of `end_proc` for a job that is over. -/
lemma Phase.endProc (h : Phase job calls) (status : JobStatus) (hjob : job.jobStatus.isOver = true) :
    Finished (calls ++ [.endProc status]) := by
  rw [Phase, if_pos hjob] at h
  exact ⟨calls, status, h, rfl⟩

/-- A history that goes with a status has no call of `end_proc`. -/
lemma Phase.not_finished (h : Phase job calls) : ¬ Finished calls := by
  rintro ⟨before, status, -, rfl⟩
  rw [Phase] at h
  split_ifs at h with hjob
  · obtain ⟨before', status', -, -, heq⟩ := h
    have := (List.append_inj' heq rfl).2
    cases this
  · obtain ⟨status', heq, -⟩ := h (.endProc status) (List.mem_append_right _ List.mem_cons_self)
    cases heq

lemma callsOf_called {call : ProcCall} {r' : JobRef} :
    (s.called r job call).callsOf r' = if r' = r then s.callsOf r ++ [call] else s.callsOf r' := by
  simp only [callsOf, called, List.filter_append, List.map_append]
  split_ifs with h
  · rw [h]
    simp
  · simp [Ne.symm h]

/-! ### Queues and slots -/

@[simp] lemma queues_setQueue_self (s : Scheduler τ n) (i : Fin n) (q : ThreadQueue) :
    (s.setQueue i q).queues i = q := Function.update_self _ _ _

lemma queues_setQueue_of_ne {i a : Fin n} (ha : a ≠ i) :
    (s.setQueue i q).queues a = s.queues a := Function.update_of_ne ha _ _

@[simp] lemma threads_setThread_self (s : Scheduler τ n) (i : Fin n) (t : ThreadTask) :
    (s.setThread i t).threads i = t := Function.update_self _ _ _

lemma threads_setThread_of_ne {i a : Fin n} {t : ThreadTask} (ha : a ≠ i) :
    (s.setThread i t).threads a = s.threads a := Function.update_of_ne ha _ _

/-- Two functions that differ at one point have sums that differ as their values there. -/
lemma sum_add_eq_sum_add {ι M : Type*} [Fintype ι] [DecidableEq ι] [AddCommMonoid M] {f g : ι → M}
    (a : ι) (h : ∀ b ≠ a, g b = f b) : ∑ b, g b + f a = ∑ b, f b + g a := by
  have hrest : ∑ b ∈ Finset.univ.erase a, g b = ∑ b ∈ Finset.univ.erase a, f b := by
    apply Finset.sum_congr rfl
    intro b hb
    exact h b (Finset.ne_of_mem_erase hb)
  rw [← Finset.add_sum_erase _ g (Finset.mem_univ a), ← Finset.add_sum_erase _ f
    (Finset.mem_univ a), hrest, add_right_comm, add_comm (g a), add_right_comm]

lemma pendingSlots_add_freeSlots (q : ThreadQueue) : pendingSlots q + freeSlots q = queueSize := by
  have h := Finset.card_filter_add_card_filter_not (s := Finset.univ) fun j => q.qSlotDone j = false
  simpa [pendingSlots, freeSlots] using h

lemma pendingSlots_eq_countWhere (q : ThreadQueue) :
    pendingSlots q = countWhere (fun done => !done) q.qSlotDone := by
  simp [pendingSlots, countWhere]

/-- A slot that is taken is one more that is not done. -/
lemma pendingSlots_insertSlot (hk : q.qSlotDone k = true) :
    pendingSlots (insertSlot q k r) = pendingSlots q + 1 := by
  rw [pendingSlots_eq_countWhere, pendingSlots_eq_countWhere]
  apply countWhere_update_of_true _ rfl
  rw [hk, Bool.not_true]

/-- A slot that is released is one less. -/
lemma pendingSlots_releaseSlot (hk : q.qSlotDone k = false) :
    pendingSlots (releaseSlot q k) + 1 = pendingSlots q := by
  rw [pendingSlots_eq_countWhere, pendingSlots_eq_countWhere]
  apply countWhere_update_of_false _ rfl
  rw [hk, Bool.not_false]

/-- With one queue replaced, the free slots change by those of this queue. -/
lemma getTotalEmptySlots_setQueue (s : Scheduler τ n) (i : Fin n) (q : ThreadQueue) :
    (s.setQueue i q).getTotalEmptySlots + freeSlots (s.queues i) =
      s.getTotalEmptySlots + freeSlots q := by
  have hsum := sum_add_eq_sum_add (f := fun a => freeSlots (s.queues a))
    (g := fun a => freeSlots ((s.setQueue i q).queues a)) i
    fun a ha => by rw [queues_setQueue_of_ne ha]
  rwa [queues_setQueue_self] at hsum

section inserted

variable {pool : TaskPool τ} {jobs : Heap (QueueJob τ)} {taskType : TaskPriority}

lemma slotHead_inserted : (s.inserted x pool jobs job taskType).slotHead y =
    if y = x then some jobs.next else s.slotHead y := by
  obtain ⟨i, k⟩ := x
  obtain ⟨a, b⟩ := y
  by_cases hi : a = i
  · subst hi
    by_cases hk : b = k <;> simp [slotHead, inserted, setQueue, insertSlot, hk]
  · simp [slotHead, inserted, setQueue, hi]

lemma slotDone_inserted : (s.inserted x pool jobs job taskType).slotDone y =
    if y = x then false else s.slotDone y := by
  obtain ⟨i, k⟩ := x
  obtain ⟨a, b⟩ := y
  by_cases hi : a = i
  · subst hi
    by_cases hk : b = k <;> simp [slotDone, inserted, setQueue, insertSlot, hk]
  · simp [slotDone, inserted, setQueue, hi]

lemma busy_inserted : (s.inserted x pool jobs job taskType).busy y =
    if y = x then some jobs.next else s.busy y := by
  by_cases hy : y = x <;> simp [busy, slotDone_inserted, slotHead_inserted, hy]

end inserted

lemma slotHead_released : (s.released x r job status).slotHead y = s.slotHead y := by
  by_cases hi : y.1 = x.1
  · simp [slotHead, released, setQueue, releaseSlot, hi]
  · simp [slotHead, released, setQueue, called, hi]

lemma slotDone_released : (s.released x r job status).slotDone y =
    if y = x then true else s.slotDone y := by
  obtain ⟨i, k⟩ := x
  obtain ⟨a, b⟩ := y
  by_cases hi : a = i
  · subst hi
    by_cases hk : b = k <;> simp [slotDone, released, setQueue, releaseSlot, hk]
  · simp [slotDone, released, setQueue, called, hi]

lemma busy_released : (s.released x r job status).busy y =
    if y = x then none else s.busy y := by
  by_cases hy : y = x <;> simp [busy, slotDone_released, slotHead_released, hy]

lemma busy_eq_some : s.busy x = some r ↔ s.slotDone x = false ∧ s.slotHead x = some r := by
  rw [busy]
  cases s.slotDone x <;> simp

lemma busy_eq_none_of_done (h : s.slotDone x = true) : s.busy x = none := by
  rw [busy, if_pos h]

/-- A slot with a job is not one that is done. -/
lemma ne_of_busy (hx : s.slotDone x = true) (hy : s.busy y = some r) : y ≠ x := by
  rintro rfl
  rw [busy_eq_none_of_done hx] at hy
  cases hy

lemma slotTasks_of_busy (hbusy : s.busy x = some r) (hjob : s.jobs.get r = some job) :
    s.slotTasks x = {job.task} := by
  simp [slotTasks, hbusy, hjob]

lemma slotTasks_of_done (h : s.slotDone x = true) : s.slotTasks x = 0 := by
  simp [slotTasks, busy_eq_none_of_done h]

/-- A call leaves the task of its job. -/
lemma slotTasks_called (hjob : s.jobs.get r = some job) (status : JobStatus) (call : ProcCall)
    (y : Slot n) :
    (s.called r { job with jobStatus := status } call).slotTasks y = s.slotTasks y := by
  have hbusy : (s.called r { job with jobStatus := status } call).busy y = s.busy y := rfl
  rw [slotTasks, slotTasks, hbusy]
  cases s.busy y with
  | none => rfl
  | some r' =>
    by_cases hr : r' = r
    · subst hr
      simp only [called, Option.bind_some, Heap.get_put_self hjob, hjob]
      rfl
    · simp only [called, Option.bind_some, Heap.get_put_of_ne hr]

/-- The other slots keep their tasks when one is released. -/
lemma slotTasks_released (hjob : s.jobs.get r = some job) (hy : y ≠ x) :
    (s.released x r job status).slotTasks y = s.slotTasks y := by
  have hcalled := slotTasks_called hjob status (.endProc status) y
  rw [← hcalled, slotTasks, slotTasks, busy_released, if_neg hy]
  rfl

/-- The other slots keep their tasks when a job is inserted, if it does not replace one of theirs. -/
lemma slotTasks_inserted {pool : TaskPool τ} {jobs : Heap (QueueJob τ)} {taskType : TaskPriority}
    (hkeep : ∀ r, s.busy y = some r → (jobs.alloc job).get r = s.jobs.get r) (hy : y ≠ x) :
    (s.inserted x pool jobs job taskType).slotTasks y = s.slotTasks y := by
  rw [slotTasks, slotTasks, busy_inserted, if_neg hy]
  cases hbusy : s.busy y with
  | none => rfl
  | some r => rw [Option.bind_some, Option.bind_some, inserted, hkeep r hbusy]

end Scheduler

end ServerUnit
