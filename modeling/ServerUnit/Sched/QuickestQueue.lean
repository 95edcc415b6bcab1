import ServerUnit.Lib.RunningMin
import ServerUnit.Sched.Occupancy

/-!
# What `get_quickest_queue` returns

The inner loop goes over the threads and reads the slot whose number is the queue's own, so the
time it adds up is that of one slot, as often as there are threads. The outer loop keeps the first
queue for which this is least. Whether this is also the queue whose unfinished slots take least
time is another question.
-/

namespace ServerUnit

open Lib

namespace Scheduler

variable {τ : Type} {n : ℕ} {s : Scheduler τ n} {i : Fin n}

/-- There is room in the queue. -/
def HasFree (s : Scheduler τ n) (i : Fin n) : Prop := ∃ k, s.slotDone (i, k) = true

instance : Decidable (s.HasFree i) := inferInstanceAs (Decidable (∃ _, _))

/-- The time of the job in a slot, `999` for a slice of `0`, if the slot is not done. -/
def slotTime (s : Scheduler τ n) (x : Slot n) : ℕ :=
  match (s.busy x).bind s.jobs.get with
  | none     => 0
  | some job => if job.cpuSliceMs = 0 then 999 else job.cpuSliceMs

/-- The time of all jobs in the slots of a queue that are not done. -/
def waitTime (s : Scheduler τ n) (i : Fin n) : ℕ := ∑ k, s.slotTime (i, k)

/-- The time of the slot whose number is the queue's own. -/
def ownTime (s : Scheduler τ n) (i : Fin n) : ℕ :=
  if h : (i : ℕ) < queueSize then s.slotTime (i, ⟨i, h⟩) else 0

/-- The counts are right, and the slots that are not done have jobs. Of their slices it only
matters that `get_cpu_slice` gives none that is longer than `maxCpuSlice`. -/
structure Filled (s : Scheduler τ n) : Prop where
  count : ∀ i, (s.queues i).totalJobsInQueue = pendingSlots (s.queues i)
  jobs : ∀ x, s.slotDone x = false → ∃ job ∈ (s.slotHead x).bind s.jobs.get,
    job.cpuSliceMs ≤ maxCpuSlice

instance : Decidable s.Filled :=
  decidable_of_iff (_ ∧ _) ⟨fun h => Filled.mk h.1 h.2, fun h => ⟨h.count, h.jobs⟩⟩

/-- The first of the queues with room for which the time of the own slot is least. -/
def OwnFirst (s : Scheduler τ n) (i : Fin n) : Prop :=
  s.HasFree i ∧ ∀ j, s.HasFree j →
    s.ownTime i < s.ownTime j ∨ s.ownTime i = s.ownTime j ∧ i ≤ j

/-- No queue with room takes less time than this one. -/
def Quickest (s : Scheduler τ n) (i : Fin n) : Prop :=
  s.HasFree i ∧ ∀ j, s.HasFree j → s.waitTime i ≤ s.waitTime j

instance : Decidable (s.Quickest i) := inferInstanceAs (Decidable (_ ∧ _))

lemma slotTime_of_done {x : Slot n} (hx : s.slotDone x = true) : s.slotTime x = 0 := by
  rw [slotTime, busy_eq_none_of_done hx]
  rfl

lemma slotTime_of_busy {x : Slot n} {r : JobRef} {job : QueueJob τ} (hx : s.busy x = some r)
    (hjob : s.jobs.get r = some job) :
    s.slotTime x = if job.cpuSliceMs = 0 then 999 else job.cpuSliceMs := by
  rw [slotTime, hx, Option.bind_some, hjob]

lemma Stored.filled_of_count (h : s.Stored)
    (hcount : ∀ i, (s.queues i).totalJobsInQueue = pendingSlots (s.queues i)) : s.Filled where
  count := hcount
  jobs := by
    intro x hx
    obtain ⟨r, hr⟩ := h.filled x hx
    obtain ⟨job, hjob, hslice⟩ := h.stored x r hr
    exact ⟨job, Option.bind_eq_some_iff.mpr ⟨r, hr, hjob⟩, hslice⟩

namespace Filled

/-- There is a job to be read in a slot that is not done. -/
lemma exists_job (h : s.Filled) {x : Slot n} (hx : s.slotDone x = false) :
    ∃ r job, s.slotHead x = some r ∧ s.jobs.get r = some job ∧ job.cpuSliceMs ≤ maxCpuSlice := by
  obtain ⟨job, hmem, hslice⟩ := h.jobs x hx
  obtain ⟨r, hr, hjob⟩ := Option.bind_eq_some_iff.mp hmem
  exact ⟨r, job, hr, hjob, hslice⟩

/-- A queue has room when it is not full. -/
lemma hasFree_iff (h : s.Filled) : s.HasFree i ↔ (s.queues i).totalJobsInQueue < queueSize := by
  have hsum := pendingSlots_add_freeSlots (s.queues i)
  have hpos : s.HasFree i ↔ 0 < freeSlots (s.queues i) := by
    rw [freeSlots, Finset.card_pos]
    constructor
    · rintro ⟨k, hk⟩
      exact ⟨k, Finset.mem_filter.mpr ⟨Finset.mem_univ k, hk⟩⟩
    · rintro ⟨k, hk⟩
      exact ⟨k, (Finset.mem_filter.mp hk).2⟩
  rw [hpos, h.count i]
  omega

lemma slotTime_le (h : s.Filled) (x : Slot n) : s.slotTime x ≤ maxCpuSlice := by
  cases hx : s.slotDone x with
  | true =>
    rw [slotTime_of_done hx]
    exact Nat.zero_le _
  | false =>
    obtain ⟨r, job, hr, hjob, hslice⟩ := h.exists_job hx
    rw [slotTime_of_busy (busy_eq_some.mpr ⟨hx, hr⟩) hjob]
    split_ifs
    · decide
    · exact hslice

lemma ownTime_le (h : s.Filled) (i : Fin n) : s.ownTime i ≤ maxCpuSlice := by
  rw [ownTime]
  split_ifs
  · exact h.slotTime_le _
  · exact Nat.zero_le _

/-- A round of the inner loop, whatever its number. -/
lemma slotWaitTime (h : s.Filled) (hn : n ≤ queueSize) (i : Fin n) :
    s.slotWaitTime (s.queues i) i = .ok (s.ownTime i) := by
  have hi : (i : ℕ) < queueSize := i.isLt.trans_le hn
  rw [Scheduler.slotWaitTime, ownTime, dif_pos hi, dif_pos hi]
  split_ifs with hdone
  · rw [slotTime_of_done (x := (i, ⟨i, hi⟩)) hdone]
    rfl
  · have hpending : s.slotDone (i, ⟨i, hi⟩) = false := Bool.eq_false_of_not_eq_true hdone
    obtain ⟨r, job, hr, hjob, -⟩ := h.exists_job hpending
    rw [slotTime_of_busy (busy_eq_some.mpr ⟨hpending, hr⟩) hjob]
    change (s.queues i).queueHead ⟨i, hi⟩ = some r at hr
    simp only [hr, Outcome.ofOption, Heap.deref, hjob, Outcome.ok_bind]
    rfl

lemma totalWaitTime (h : s.Filled) (hn : n ≤ queueSize) (i : Fin n) (j : ℕ) :
    s.totalWaitTime i j = .ok (j * s.ownTime i) := by
  induction j with
  | zero =>
    rw [Nat.zero_mul]
    rfl
  | succ j ih =>
    simp only [Scheduler.totalWaitTime, ih, h.slotWaitTime hn i, Outcome.ok_bind]
    rw [Nat.succ_mul]
    rfl

/-- The outer loop keeps the least, among the queues with room. -/
lemma quickestQueueLoop (h : s.Filled) (hn : n ≤ queueSize) (is : List (Fin n)) (threadID : Fin n)
    (lowestWaitTime : ℕ) :
    s.quickestQueueLoop is threadID lowestWaitTime =
      .ok ((is.filter fun i => s.HasFree i).foldl (keepLess fun i => n * s.ownTime i)
        (threadID, lowestWaitTime)).1 := by
  induction is generalizing threadID lowestWaitTime with
  | nil => rfl
  | cons i is ih =>
    rw [Scheduler.quickestQueueLoop]
    by_cases hfree : s.HasFree i
    · rw [if_neg (not_le.mpr (h.hasFree_iff.mp hfree)), h.totalWaitTime hn i n, Outcome.ok_bind,
        List.filter_cons_of_pos (p := fun i => decide (s.HasFree i)) (decide_eq_true hfree),
        List.foldl_cons, keepLess]
      split_ifs with hless
      · exact ih i (n * s.ownTime i)
      · exact ih threadID lowestWaitTime
    · rw [if_pos (not_lt.mp (mt h.hasFree_iff.mpr hfree)),
        List.filter_cons_of_neg (p := fun i => decide (s.HasFree i)) (by simpa using hfree)]
      exact ih threadID lowestWaitTime

/-- What the call returns has room, and its own slot takes the least time. -/
lemma getQuickestQueue [NeZero n] (h : s.Filled) (hn : n ≤ queueSize)
    (hfree : ∃ i, s.HasFree i) :
    ∃ i, s.getQuickestQueue = .ok i ∧ s.OwnFirst i := by
  obtain ⟨k, hk⟩ := hfree
  have hmem : ∀ j, s.HasFree j ↔ j ∈ (List.finRange n).filter fun i => s.HasFree i := by
    intro j
    rw [List.mem_filter, decide_eq_true_iff]
    exact (and_iff_right (List.mem_finRange j)).symm
  have hbound : ∀ j ∈ (List.finRange n).filter fun i => s.HasFree i,
      n * s.ownTime j < intMax := by
    intro j _
    have hle : n * s.ownTime j ≤ queueSize * maxCpuSlice := Nat.mul_le_mul hn (h.ownTime_le j)
    exact hle.trans_lt (by decide)
  obtain ⟨before, i, after, hlist, hfirst, hfold⟩ :=
    exists_firstMin (List.ne_nil_of_mem ((hmem k).mp hk)) (c := 0) hbound
  refine ⟨i, ?_, (hmem i).mpr ?_, fun j hj => ?_⟩
  · rw [Scheduler.getQuickestQueue, h.quickestQueueLoop hn, hfold]
  · rw [hlist]
    exact List.mem_append_right _ List.mem_cons_self
  · have hsorted : (before ++ i :: after).Pairwise (· < ·) := by
      rw [← hlist]
      exact (List.pairwise_lt_finRange n).filter _
    rw [hmem j, hlist] at hj
    have hpos : 0 < n := Nat.pos_of_neZero n
    refine (hfirst.lt_or_eq hsorted hj).imp (fun hlt => Nat.lt_of_mul_lt_mul_left hlt) ?_
    exact fun heq => ⟨Nat.eq_of_mul_eq_mul_left hpos heq.1, heq.2⟩

end Filled

lemma OwnFirst.unique {j : Fin n} (hi : s.OwnFirst i) (hj : s.OwnFirst j) : i = j := by
  have hij := hi.2 j hj.1
  have hji := hj.2 i hi.1
  omega

/-- The queue returned has room. It is the quickest exactly when the first queue with room whose
own slot takes the least time is the quickest. -/
theorem getQuickestQueue_quickest_iff [NeZero n] (hn : n ≤ queueSize) (h : s.Filled)
    (hfree : ∃ i, s.HasFree i) : ∃ i, s.getQuickestQueue = .ok i ∧ s.HasFree i ∧
      (s.Quickest i ↔ ∀ k, s.OwnFirst k → ∀ j, s.HasFree j → s.waitTime k ≤ s.waitTime j) := by
  obtain ⟨i, hi, hfirst⟩ := h.getQuickestQueue hn hfree
  refine ⟨i, hi, hfirst.1, fun hquickest k hk => ?_, fun hall => ⟨hfirst.1, hall i hfirst⟩⟩
  rw [hk.unique hfirst]
  exact hquickest.2

/-- A short job and a long one are placed in different queues. -/
def shortAndLong : List (SchedEvent ℕ 2) :=
  [.addTask ⟨⟨true⟩, 1⟩ .lowPriority, .addTask ⟨⟨true⟩, 2⟩ .highPriority, .countSlots, .place,
    .place]

theorem getQuickestQueue_quickest_iff_two : ∃ s, run step (init ℕ 2) shortAndLong = .ok s ∧
    ∃ i, s.getQuickestQueue = .ok i ∧ s.HasFree i ∧ (s.Quickest i ↔
      ∀ k, s.OwnFirst k → ∀ j, s.HasFree j → s.waitTime k ≤ s.waitTime j) := by
  obtain ⟨s, hs, hfilled, hfree⟩ : ∃ s, run step (init ℕ 2) shortAndLong = .ok s ∧
      s.Filled ∧ s.HasFree 0 := Outcome.exists_ok_of_eval (by decide)
  exact ⟨s, hs, getQuickestQueue_quickest_iff (by decide) hfilled ⟨0, hfree⟩⟩

/-- The next job goes to the queue that has the long one in its first slot: its second slot is
free. -/
theorem getQuickestQueue_not_quickest : ∃ s, run step (init ℕ 2) shortAndLong = .ok s ∧
    s.Filled ∧ s.getQuickestQueue = .ok 1 ∧ s.HasFree 0 ∧ s.waitTime 0 = 2 * 1000000 ∧
    s.waitTime 1 = 6 * 1000000 ∧ ¬ s.Quickest 1 :=
  Outcome.exists_ok_of_eval (by decide)

end Scheduler

end ServerUnit
