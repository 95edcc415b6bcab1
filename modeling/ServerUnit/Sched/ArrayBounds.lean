import ServerUnit.Sched.Conservation
import Mathlib.Algebra.BigOperators.Fin

/-!
# The arrays of the scheduler

`list` has a place for ten threads and each queue has four slots, and `init_sched` takes any byte as
the number of threads. Here the functions that go over `list` do so by index, each access with its
bound. They are the functions of the scheduler as long as the indices fit.
-/

namespace ServerUnit

open Lib

/-- `MAX_THREAD` -/
abbrev maxThread : ℕ := 10

/-- The conversion of an `int` to `std::uint8_t`. -/
def toUInt8 (maxThreads : ℤ) : ℕ := (maxThreads % 256).toNat

namespace Scheduler

variable {τ : Type} {n : ℕ} {s s' : Scheduler τ n} {i : Fin n} {e : SchedEvent τ n}

/-! ### The functions, by index -/

/-- The first `i` rounds of the loop of `init_sched`. The loop over the slots of the new queue has
`QUEUE_SIZE` rounds; then the queue goes to `list[i]`. -/
def initList : ℕ → Outcome Unit
  | 0     => return ()
  | i + 1 => do
    initList i
    if i < maxThread then return () else .error .undefined

/-- `init_sched` with what it writes to `list`. -/
def initSched (τ : Type) (max_thread : ℕ) : Outcome (Scheduler τ max_thread) := do
  initList max_thread
  return .init τ max_thread

/-- `list[i]`, which is null past the queues that `init_sched` made. -/
def listAt (n i : ℕ) : Outcome (Option (Fin n)) :=
  if i < maxThread then
    return if h : i < n then some ⟨i, h⟩ else none
  else
    .error .undefined

/-- The first `i` rounds of `get_total_empty_slots`; a null queue has no slots to read. -/
def readTotalEmptySlots (s : Scheduler τ n) : ℕ → Outcome ℕ
  | 0     => return 0
  | i + 1 => do
    let totalSlots ← s.readTotalEmptySlots i
    let queue ← Outcome.ofOption (← listAt n i)
    return totalSlots + freeSlots (s.queues queue)

/-- The outer loop of `get_quickest_queue` over indices of `list`. -/
def readQuickestLoop (s : Scheduler τ n) :
    List ℕ → (threadID lowestWaitTime : ℕ) → Outcome ℕ
  | [], threadID, _ => return threadID
  | i :: is, threadID, lowestWaitTime => do
    let queue ← Outcome.ofOption (← listAt n i)
    if queueSize ≤ (s.queues queue).totalJobsInQueue then
      s.readQuickestLoop is threadID lowestWaitTime
    else
      let totalWaitTime ← s.totalWaitTime queue n
      if totalWaitTime < lowestWaitTime then
        s.readQuickestLoop is i totalWaitTime
      else
        s.readQuickestLoop is threadID lowestWaitTime

/-- `get_quickest_queue`, which returns `list[threadID]`. -/
def readQuickestQueue (s : Scheduler τ n) : Outcome (Option (Fin n)) := do
  listAt n (← s.readQuickestLoop (List.range n) 0 intMax)

/-- The steps of the scheduler with its accesses to `list`, for any number of threads, none
included. -/
def arrayStep (s : Scheduler τ n) : SchedEvent τ n → Outcome (Scheduler τ n)
  | .addTask task loadType => do
    let (pool, rc) ← s.pool.addTask task loadType
    return { s with
      pool
      accepted := if rc = 0 then s.accepted ++ [(task, loadType)] else s.accepted }
  | .countSlots =>
    Outcome.guard (s.sched = .waiting) do
      let qSlots ← s.readTotalEmptySlots n
      return { s with sched := if 0 < qSlots then .placing 0 qSlots else .waiting }
  | .place =>
    match s.sched with
    | .waiting => .error .disabled
    | .placing j qSlots =>
      if 0 < s.pool.getTaskPoolSize then do
        let queue ← Outcome.ofOption (← s.readQuickestQueue)
        let s ← s.insertJob queue
        return { s with sched := nextRound j qSlots }
      else
        return { s with sched := .waiting }
  | .startProc i status => s.startProc i status
  | .pauseProc i status => s.pauseProc i status
  | .endProc i status => s.endProc i status
  | .advance i => s.advance i
  | .timer i => s.fireTimer i

/-- With `n` threads no access is out of range and no null entry is followed: not in `init_sched`,
and not in any step from a state that is reached, nor when the free slots are counted there. -/
def InRange (τ : Type) (n : ℕ) : Prop :=
  ∃ s₀, initSched τ n = .ok s₀ ∧ ∀ es s, run arrayStep s₀ es = .ok s →
    (∃ totalSlots, s.readTotalEmptySlots n = .ok totalSlots) ∧ ∀ e, (s.arrayStep e).Safe

/-! ### As long as the indices fit -/

lemma initList_eq_ok : initList n = .ok () ↔ n ≤ maxThread := by
  induction n with
  | zero => exact iff_of_true rfl (Nat.zero_le _)
  | succ n ih =>
    rw [initList, Outcome.bind_eq_ok]
    constructor
    · rintro ⟨-, -, h⟩
      split_ifs at h with hlt
      exact hlt
    · intro hle
      exact ⟨(), ih.mpr (Nat.le_of_succ_le hle), if_pos hle⟩

lemma initSched_eq_ok : initSched τ n = .ok s ↔ n ≤ maxThread ∧ s = .init τ n := by
  rw [initSched, Outcome.bind_eq_ok]
  constructor
  · rintro ⟨⟨⟩, hlist, h⟩
    exact ⟨initList_eq_ok.mp hlist, (Outcome.pure_eq_ok.mp h).symm⟩
  · rintro ⟨hle, rfl⟩
    exact ⟨(), initList_eq_ok.mpr hle, rfl⟩

lemma listAt_val (hn : n ≤ maxThread) (i : Fin n) : listAt n i = .ok (some i) := by
  rw [listAt, if_pos (i.isLt.trans_le hn), dif_pos i.isLt]
  rfl

lemma readTotalEmptySlots_eq (hn : n ≤ maxThread) (s : Scheduler τ n) {m : ℕ} (hm : m ≤ n) :
    s.readTotalEmptySlots m = .ok (∑ i : Fin m, freeSlots (s.queues (i.castLE hm))) := by
  induction m with
  | zero => rfl
  | succ m ih =>
    have hqueue : listAt n m = .ok (some ⟨m, hm⟩) := listAt_val hn ⟨m, hm⟩
    rw [readTotalEmptySlots, ih (Nat.le_of_succ_le hm), Outcome.ok_bind, hqueue,
      Fin.sum_univ_castSucc]
    rfl

/-- The loop over indices is the loop over queues. -/
lemma readQuickestLoop_map (hn : n ≤ maxThread) (s : Scheduler τ n) (is : List (Fin n))
    (threadID : Fin n) (lowestWaitTime : ℕ) :
    s.readQuickestLoop (is.map Fin.val) threadID lowestWaitTime =
      Fin.val <$> s.quickestQueueLoop is threadID lowestWaitTime := by
  induction is generalizing threadID lowestWaitTime with
  | nil => rfl
  | cons i is ih =>
    rw [List.map_cons, readQuickestLoop, quickestQueueLoop, listAt_val hn i]
    simp only [Outcome.ok_bind, Outcome.ofOption]
    split_ifs with hfull
    · exact ih threadID lowestWaitTime
    · cases s.totalWaitTime i n with
      | error fault => rfl
      | ok total =>
        simp only [Outcome.ok_bind]
        split_ifs with hless
        · exact ih i total
        · exact ih threadID lowestWaitTime

lemma readQuickestQueue_eq [NeZero n] (hn : n ≤ maxThread) (s : Scheduler τ n) :
    s.readQuickestQueue = some <$> s.getQuickestQueue := by
  have hmap := readQuickestLoop_map hn s (List.finRange n) 0 intMax
  rw [List.map_coe_finRange_eq_range, Fin.val_zero] at hmap
  rw [readQuickestQueue, getQuickestQueue, hmap]
  cases s.quickestQueueLoop (List.finRange n) 0 intMax with
  | error fault => rfl
  | ok i => exact listAt_val hn i

/-- With a place in `list` for each thread, the steps are those of the scheduler. -/
lemma arrayStep_eq_step [NeZero n] (hn : n ≤ maxThread) (s : Scheduler τ n) :
    s.arrayStep e = s.step e := by
  cases e with
  | addTask | startProc | pauseProc | endProc | advance | timer => rfl
  | countSlots =>
    rw [arrayStep, step, readTotalEmptySlots_eq hn s le_rfl]
    rfl
  | place =>
    cases hsched : s.sched with
    | waiting => simp only [arrayStep, step, hsched]
    | placing j qSlots =>
      simp only [arrayStep, step, hsched, place, readQuickestQueue_eq hn]
      split_ifs with hpos
      · cases s.getQuickestQueue with
        | error fault => rfl
        | ok queue => rfl
      · rfl

/-! ### Up to four threads -/

/-- Without threads no slot is free and no task is placed. -/
structure Idle (s : Scheduler τ 0) : Prop where
  pool : ∃ waiting, s.pool.Holds waiting
  waiting : s.sched = .waiting

namespace Idle

variable {s s' : Scheduler τ 0} {e : SchedEvent τ 0}

lemma init (τ : Type) : (init τ 0).Idle := ⟨⟨[], .init τ⟩, rfl⟩

/-- A step that is made at all returns, and nothing starts. -/
lemma step (h : s.Idle) (e : SchedEvent τ 0) :
    s.arrayStep e = .error .disabled ∨ ∃ s', s.arrayStep e = .ok s' ∧ s'.Idle := by
  cases e with
  | addTask task loadType =>
    obtain ⟨waiting, hpool⟩ := h.pool
    right
    rcases Nat.lt_or_ge waiting.length TaskPool.maxTaskPoolSize with hroom | hfull
    · obtain ⟨pool, hadd, hpool⟩ := hpool.addTask task loadType hroom
      simp only [arrayStep, hadd, Outcome.ok_bind]
      exact ⟨_, rfl, ⟨_, hpool⟩, h.waiting⟩
    · simp only [arrayStep, hpool.addTask_full task loadType hfull, Outcome.ok_bind]
      exact ⟨_, rfl, ⟨_, hpool⟩, h.waiting⟩
  | countSlots =>
    right
    simp only [arrayStep, h.waiting, Outcome.guard, if_true]
    exact ⟨_, rfl, h.pool, rfl⟩
  | place =>
    left
    simp only [arrayStep, h.waiting]
  | startProc i | pauseProc i | endProc i | advance i | timer i => exact i.elim0

end Idle

lemma inRange_zero (τ : Type) : InRange τ 0 := by
  refine ⟨init τ 0, rfl, fun es s hrun => ⟨⟨0, rfl⟩, fun e => ?_⟩⟩
  have hidle : s.Idle := by
    refine run_invariant (I := Idle) (fun s e s' hs hstep => ?_) (Idle.init τ) hrun
    rcases hs.step e with hdisabled | ⟨t, ht, hidle⟩
    · rw [hdisabled] at hstep
      cases hstep
    · rw [ht, Except.ok.injEq] at hstep
      rwa [← hstep]
  rcases hidle.step e with hdisabled | ⟨t, ht, -⟩
  · rw [hdisabled]
    exact .disabled
  · exact .of_ok ⟨t, ht⟩

/-- As many threads as a queue has slots, or fewer, never go out of range. -/
lemma inRange_of_le [NeZero n] (hn : n ≤ queueSize) : InRange τ n := by
  have hlist : n ≤ maxThread := hn.trans (by decide)
  refine ⟨init τ n, initSched_eq_ok.mpr ⟨hlist, rfl⟩, fun es s hrun => ⟨?_, fun e => ?_⟩⟩
  · exact ⟨_, readTotalEmptySlots_eq hlist s le_rfl⟩
  · have hsame : (arrayStep : Scheduler τ n → _) = step := by
      funext s e
      exact arrayStep_eq_step hlist s
    rw [hsame] at hrun ⊢
    obtain ⟨waiting, hcons⟩ := exists_consistent_of_run hrun
    exact hcons.step_safe hn e

/-! ### More than four threads -/

/-- A slot is read, or reading it is undefined. -/
lemma slotWaitTime_eq_error {q : ThreadQueue} {slot : ℕ} {fault : Fault}
    (h : s.slotWaitTime q slot = .error fault) : fault = .undefined := by
  unfold slotWaitTime at h
  split_ifs at h with hslot hdone
  · cases h
  · cases hr : q.queueHead ⟨slot, hslot⟩ with
    | none =>
      rw [hr] at h
      cases h
      rfl
    | some r =>
      cases hjob : s.jobs.get r with
      | none =>
        simp only [hr, Outcome.ofOption, Heap.deref, hjob, Outcome.ok_bind] at h
        cases h
        rfl
      | some job =>
        simp only [hr, Outcome.ofOption, Heap.deref, hjob, Outcome.ok_bind] at h
        cases h
  · cases h
    rfl

lemma totalWaitTime_eq_error {j : ℕ} {fault : Fault} (h : s.totalWaitTime i j = .error fault) :
    fault = .undefined := by
  induction j with
  | zero => cases h
  | succ j ih =>
    rw [totalWaitTime] at h
    cases htotal : s.totalWaitTime i j with
    | error fault' =>
      rw [htotal, Outcome.error_bind, Except.error.injEq] at h
      subst h
      exact ih htotal
    | ok total =>
      cases hslot : s.slotWaitTime (s.queues i) i with
      | error fault' =>
        rw [htotal, Outcome.ok_bind, hslot, Outcome.error_bind, Except.error.injEq] at h
        subst h
        exact slotWaitTime_eq_error hslot
      | ok waitTime =>
        rw [htotal, Outcome.ok_bind, hslot] at h
        cases h

/-- A queue past the fourth has no slot of its number. -/
lemma totalWaitTime_of_ge (hi : queueSize ≤ (i : ℕ)) {j : ℕ} (hj : 0 < j) :
    s.totalWaitTime i j = .error .undefined := by
  obtain ⟨j, rfl⟩ := Nat.exists_eq_succ_of_ne_zero hj.ne'
  cases hend : s.totalWaitTime i (j + 1) with
  | error fault => rw [totalWaitTime_eq_error hend]
  | ok total =>
    simp only [totalWaitTime, Outcome.bind_eq_ok] at hend
    obtain ⟨-, -, waitTime, hslot, -⟩ := hend
    rw [slotWaitTime, dif_neg hi.not_gt] at hslot
    cases hslot

/-- As soon as such a queue is not full, the loop reads past the end of its slots. -/
lemma quickestQueueLoop_of_ge (hi : queueSize ≤ (i : ℕ))
    (hroom : (s.queues i).totalJobsInQueue < queueSize) {is : List (Fin n)} (hmem : i ∈ is)
    (threadID : Fin n) (lowestWaitTime : ℕ) :
    s.quickestQueueLoop is threadID lowestWaitTime = .error .undefined := by
  have hn : 0 < n := i.pos
  induction is generalizing threadID lowestWaitTime with
  | nil => cases hmem
  | cons a is ih =>
    rw [quickestQueueLoop]
    by_cases ha : a = i
    · rw [ha, if_neg hroom.not_ge, totalWaitTime_of_ge hi hn]
      rfl
    · have htail : i ∈ is := (List.mem_cons.mp hmem).resolve_left (Ne.symm ha)
      split_ifs
      · exact ih htail threadID lowestWaitTime
      · cases htotal : s.totalWaitTime a n with
        | error fault => rw [totalWaitTime_eq_error htotal, Outcome.error_bind]
        | ok total =>
          rw [Outcome.ok_bind]
          split_ifs
          · exact ih htail a total
          · exact ih htail threadID lowestWaitTime

/-- So does the scheduler, when it has a task to place. -/
lemma arrayStep_place_of_ge [NeZero n] (hlist : n ≤ maxThread) {j qSlots : ℕ}
    (hsched : s.sched = .placing j qSlots) (hpool : 0 < s.pool.getTaskPoolSize)
    (hi : queueSize ≤ (i : ℕ)) (hroom : (s.queues i).totalJobsInQueue < queueSize) :
    s.arrayStep .place = .error .undefined := by
  have hloop : s.getQuickestQueue = .error .undefined :=
    quickestQueueLoop_of_ge hi hroom (List.mem_finRange i) 0 intMax
  rw [arrayStep_eq_step hlist]
  simp only [step, hsched, place, hpool, if_true, hloop, Outcome.error_bind]

/-- A task is added, and the free slots are counted. -/
def addAndCount (task : TaskStruct τ) (n : ℕ) : List (SchedEvent τ n) :=
  [.addTask task .lowPriority, .countSlots]

/-- The scheduler is about to place the task. -/
lemma exists_run_addAndCount [NeZero n] (hlist : n ≤ maxThread) (task : TaskStruct τ) :
    ∃ s qSlots, run arrayStep (init τ n) (addAndCount task n) = .ok s ∧
      s.sched = .placing 0 qSlots ∧ 0 < s.pool.getTaskPoolSize ∧
      ∀ i, (s.queues i).totalJobsInQueue = 0 := by
  obtain ⟨pool, hadd, hpool⟩ :=
    (TaskPool.Holds.init τ).addTask task .lowPriority (Nat.succ_pos 19)
  have hslots : 0 < (init τ n).getTotalEmptySlots := by
    have hfree : ∀ i, freeSlots ((init τ n).queues i) = queueSize := fun _ => rfl
    rw [getTotalEmptySlots, Finset.sum_congr rfl fun i _ => hfree i, Finset.sum_const,
      Finset.card_univ, Fintype.card_fin]
    exact Nat.mul_pos (Nat.pos_of_neZero n) (by decide)
  have hcount : 0 < pool.getTaskPoolSize := by
    rw [TaskPool.getTaskPoolSize, hpool.count]
    exact Nat.one_pos
  have hadded : (init τ n).arrayStep (.addTask task .lowPriority) =
      .ok { init τ n with pool, accepted := [(task, .lowPriority)] } := by
    simp only [arrayStep, init, hadd, Outcome.ok_bind]
    rfl
  have hcounted : arrayStep { init τ n with pool, accepted := [(task, .lowPriority)] } .countSlots =
      .ok { init τ n with
        pool
        accepted := [(task, .lowPriority)]
        sched := .placing 0 (init τ n).getTotalEmptySlots } := by
    rw [arrayStep_eq_step hlist]
    refine Outcome.guard_eq_ok.mpr ⟨rfl, Outcome.pure_eq_ok.mpr ?_⟩
    change Scheduler.mk _ _ _ _ (if 0 < (init τ n).getTotalEmptySlots then _ else _) _ _ _ _ = _
    rw [if_pos hslots]
    rfl
  exact ⟨_, _, run_cons_eq_ok.mpr ⟨_, hadded, run_cons_eq_ok.mpr ⟨_, hcounted, rfl⟩⟩, rfl, hcount,
    fun _ => rfl⟩

/-- With five threads or more the first task is not placed. -/
lemma not_inRange_of_lt [Inhabited τ] (hn : queueSize < n) : ¬ InRange τ n := by
  rintro ⟨s₀, hinit, hsafe⟩
  obtain ⟨hlist, rfl⟩ := initSched_eq_ok.mp hinit
  have : NeZero n := ⟨(Nat.zero_lt_of_lt hn).ne'⟩
  obtain ⟨s, qSlots, hrun, hsched, hpool, hempty⟩ :=
    exists_run_addAndCount hlist (⟨⟨true⟩, default⟩ : TaskStruct τ)
  have hplace := arrayStep_place_of_ge hlist hsched hpool (i := ⟨queueSize, hn⟩) le_rfl
    (by rw [hempty]; decide)
  have hdisabled := (hsafe _ s hrun).2 .place .undefined hplace
  cases hdisabled

/-- No access of the scheduler is out of range exactly when the byte that becomes the number of
threads is at most the number of slots of a queue. -/
theorem inRange_iff [Inhabited τ] (maxThreads : ℤ) :
    InRange τ (toUInt8 maxThreads) ↔ toUInt8 maxThreads ≤ queueSize := by
  constructor
  · intro hrange
    by_contra hmany
    exact not_inRange_of_lt (not_le.mp hmany) hrange
  · intro hle
    rcases Nat.eq_zero_or_pos (toUInt8 maxThreads) with hzero | hpos
    · rw [hzero]
      exact inRange_zero τ
    · have : NeZero (toUInt8 maxThreads) := ⟨hpos.ne'⟩
      exact inRange_of_le hle

/-- Five threads go wrong when the first task is placed, and eleven in `init_sched`. -/
theorem not_inRange_five :
    (∃ s, run arrayStep (init ℕ 5) (addAndCount ⟨⟨true⟩, 1⟩ 5) = .ok s ∧
      s.readQuickestQueue = .error .undefined ∧ s.arrayStep .place = .error .undefined) ∧
    ¬ InRange ℕ (toUInt8 5) ∧ initSched ℕ (toUInt8 11) = .error .undefined := by
  refine ⟨?_, not_inRange_of_lt (by decide), rfl⟩
  obtain ⟨s, hs, hread, hsched, hpool⟩ : ∃ s,
      run arrayStep (init ℕ 5) (addAndCount ⟨⟨true⟩, 1⟩ 5) = .ok s ∧
        s.readQuickestQueue = .error .undefined ∧ s.sched = .placing 0 20 ∧
        0 < s.pool.getTaskPoolSize := Outcome.exists_ok_of_eval (by decide)
  refine ⟨s, hs, hread, ?_⟩
  simp only [arrayStep, hsched, hpool, if_true, hread, Outcome.error_bind]

end Scheduler

end ServerUnit
