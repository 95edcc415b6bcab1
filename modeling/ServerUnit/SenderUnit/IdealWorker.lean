import ServerUnit.Lib.RunningMin
import ServerUnit.SenderUnit.SenderCore
import Mathlib.Algebra.BigOperators.Group.List.Basic
import Mathlib.Tactic.Ring

/-!
# The choice of `findIdealWorker`

`findIdealWorker` goes over the registered workers and keeps the best one so far. Fewer points are
better; between equal points the sizes that `getQueueSize` returns are compared. That size is
`WORKER_QUEUE_SIZE * (1 / 2)`, which is `0`, less the number of packets, so that the worker with
more packets has the smaller one, and is kept.
-/

namespace ServerUnit

open Lib

/-- There are no counts, or there is one for each priority, and a thread. -/
def WorkerStats.Measured (stats : WorkerStats) : Prop :=
  stats.taskQueue = [] ∨ 4 ≤ stats.taskQueue.length ∧ 0 < stats.totalAvilableThreads

namespace Worker

variable (taskPriority : TaskPriority)

/-- `avgQueueTime` times the tasks of the priorities up to the given one, for each thread. -/
def points (w : Worker) : ℚ :=
  w.workerStats.avgQueueTime * ((w.workerStats.taskQueue.take (taskPriority.toNat + 1)).sum : ℤ) /
    w.workerStats.totalAvilableThreads

/-- The number of packets in both queues. -/
def packetCount (w : Worker) : ℕ := w.senderQueue.length + w.ackPendingQueue.length

/-- The worker can be chosen: it is ready, and has sent its stats. -/
def eligible (w : Worker) : Bool := w.workerReady && !w.workerStats.taskQueue.isEmpty

/-- What the workers are compared by. -/
def key (w : Worker) : ℚ ×ₗ ℤ := toLex (w.points taskPriority, w.getQueueSize)

/-- The worker as the loop keeps it. -/
def toCandidate (w : Worker) : Candidate :=
  ⟨w.workerUID, w.getQueueSize, toLex (0, w.points taskPriority)⟩

end Worker

namespace WorkerRegistry

/-- The workers that can be chosen, in the order of the list. -/
def candidates (registry : WorkerRegistry) : List Worker :=
  (registry.currentWorkerList.filterMap registry.workers.get).filter Worker.eligible

/-- The listed workers are there, under different UIDs, and their stats can be used. -/
structure Measured (registry : WorkerRegistry) : Prop where
  there : ∀ b ∈ registry.currentWorkerList, ∃ w, registry.workers.get b = some w
  distinct : ∀ a ∈ registry.currentWorkerList, ∀ b ∈ registry.currentWorkerList, ∀ wa wb,
    registry.workers.get a = some wa → registry.workers.get b = some wb →
    wa.workerUID = wb.workerUID → a = b
  stats : ∀ b ∈ registry.currentWorkerList, ∀ w, registry.workers.get b = some w →
    w.workerStats.Measured

/-- The call returns; it finds no worker exactly when none can be chosen, and else one with the
fewest packets of those with the least points. -/
def PicksBest (registry : WorkerRegistry) (taskPriority : TaskPriority) : Prop :=
  ∃ found, findIdealWorker registry taskPriority = .ok found ∧
    (found = none ↔ registry.candidates = []) ∧
    ∀ worker, found = some worker → worker ∈ registry.currentWorkerList ∧
      ∃ w ∈ registry.candidates, registry.workers.get worker = some w ∧
        (∀ v ∈ registry.candidates, w.points taskPriority ≤ v.points taskPriority) ∧
        ∀ v ∈ registry.candidates, v.points taskPriority = w.points taskPriority →
          w.packetCount ≤ v.packetCount

/-- The last worker with the least points and, of these, the least `getQueueSize`, has a UID and
the fewest packets. -/
def LastIsBest (registry : WorkerRegistry) (taskPriority : TaskPriority) : Prop :=
  ∀ before w after, registry.candidates = before ++ w :: after →
    LastMin (Worker.key taskPriority) before w after →
    w.workerUID ≠ "" ∧ ∀ v ∈ registry.candidates,
      v.points taskPriority = w.points taskPriority → w.packetCount ≤ v.packetCount

/-- The workers with the least points have equally many packets. -/
def EvenPackets (registry : WorkerRegistry) (taskPriority : TaskPriority) : Prop :=
  ∀ v ∈ registry.candidates, ∀ w ∈ registry.candidates,
    (∀ u ∈ registry.candidates, v.points taskPriority ≤ u.points taskPriority) →
    w.points taskPriority = v.points taskPriority → w.packetCount = v.packetCount

end WorkerRegistry

variable {taskPriority : TaskPriority} {w : Worker} {registry : WorkerRegistry}
  {workers : Heap Worker} {list : List WorkerRef}

/-! ### The points -/

/-- The loop over the priorities adds up the tasks; it leaves out those that are `0`. -/
lemma avgTimeLoop_eq {avgQueueTime : ℚ} {taskMapVector : List ℤ} {n : ℕ} {avgTime : ℚ}
    (hn : n ≤ taskMapVector.length) : avgTimeLoop avgQueueTime taskMapVector n avgTime =
      .ok (avgTime + avgQueueTime * ((taskMapVector.take n).sum : ℤ)) := by
  induction n generalizing avgTime with
  | zero => simp [avgTimeLoop]
  | succ n ih =>
    have hlt : n < taskMapVector.length := hn
    have hadd : (if taskMapVector[n] ≠ 0 then avgTime + avgQueueTime * taskMapVector[n]
        else avgTime) = avgTime + avgQueueTime * taskMapVector[n] := by
      split_ifs with hzero
      · rfl
      · simp [not_ne_iff.mp hzero]
    rw [avgTimeLoop, List.getElem?_eq_getElem hlt, Outcome.ofOption, Outcome.ok_bind, hadd,
      ih hlt.le, List.take_succ_eq_append_getElem hlt, List.sum_append, List.sum_singleton]
    congr 1
    push_cast
    ring

lemma workerPoints_eq (hlength : taskPriority.toNat + 1 ≤ w.workerStats.taskQueue.length)
    (hthreads : 0 < w.workerStats.totalAvilableThreads) :
    workerPoints w.workerStats taskPriority = .ok (toLex (0, w.points taskPriority)) := by
  rw [workerPoints, avgTimeLoop_eq hlength, Outcome.ok_bind, zero_add, tempPoints,
    if_neg hthreads.ne', Worker.points]
  split_ifs with hzero
  · rw [hzero, zero_div]
    rfl
  · rfl

lemma toNat_lt_four : taskPriority.toNat + 1 ≤ 4 := by
  cases taskPriority <;> decide

/-! ### The loop -/

lemma key_le_key {v : Worker} : w.key taskPriority ≤ v.key taskPriority ↔
    w.points taskPriority ≤ v.points taskPriority ∧
      (w.points taskPriority = v.points taskPriority → w.getQueueSize ≤ v.getQueueSize) :=
  Prod.Lex.toLex_le_toLex'

/-- One round: a worker that can be chosen is compared by its key. -/
lemma considerWorker_eq (hstats : w.workerStats.Measured) (final : Option Worker) :
    considerWorker taskPriority (final.map (Worker.toCandidate taskPriority)) w =
      .ok ((if w.eligible then takeMin (Worker.key taskPriority) final w else final).map
        (Worker.toCandidate taskPriority)) := by
  rw [considerWorker, Worker.eligible]
  cases hready : w.workerReady with
  | false => rfl
  | true =>
    rcases hstats with hempty | ⟨hlength, hthreads⟩
    · simp [hempty, pure, Except.pure]
    · have hne : w.workerStats.taskQueue ≠ [] := List.ne_nil_of_length_pos (by omega)
      have hpoints : workerPoints w.workerStats taskPriority = _ :=
        workerPoints_eq (toNat_lt_four.trans hlength) hthreads
      simp only [Bool.not_true, Bool.false_eq_true, if_false, List.length_eq_zero_iff, hne, hpoints,
        Outcome.ok_bind, Bool.true_and, List.isEmpty_eq_false_iff.mpr hne, Bool.not_false, if_true]
      cases final with
      | none => rfl
      | some c =>
        have hle : toLex ((0 : ℤ), w.points taskPriority) ≤ toLex (0, c.points taskPriority) ↔
            w.points taskPriority ≤ c.points taskPriority := by
          simp [Prod.Lex.toLex_le_toLex']
        have heq : toLex ((0 : ℤ), w.points taskPriority) = toLex (0, c.points taskPriority) ↔
            w.points taskPriority = c.points taskPriority := by
          simp
        simp only [Option.map_some, takeMin, key_le_key, Worker.toCandidate, hle, heq]
        by_cases hpts : w.points taskPriority ≤ c.points taskPriority
        · by_cases hsize : w.points taskPriority = c.points taskPriority →
              w.getQueueSize ≤ c.getQueueSize
          · have hkeep : ¬ (w.points taskPriority = c.points taskPriority ∧
                w.getQueueSize > c.getQueueSize) := fun h => absurd (hsize h.1) (not_le.mpr h.2)
            rw [if_pos hpts, if_neg hkeep, if_pos ⟨hpts, hsize⟩]
            rfl
          · have hkeep : w.points taskPriority = c.points taskPriority ∧
                w.getQueueSize > c.getQueueSize := by
              simpa using hsize
            rw [if_pos hpts, if_pos hkeep, if_neg fun h => hsize h.2]
            rfl
        · rw [if_neg hpts, if_neg fun h => hpts h.1]
          rfl

/-- The loop keeps the best of the workers that can be chosen. -/
lemma chooseWorker_eq (hthere : ∀ b ∈ list, ∃ w, workers.get b = some w)
    (hstats : ∀ b ∈ list, ∀ w, workers.get b = some w → w.workerStats.Measured)
    (final : Option Worker) :
    chooseWorker workers taskPriority (final.map (Worker.toCandidate taskPriority)) list =
      .ok ((((list.filterMap workers.get).filter Worker.eligible).foldl
        (takeMin (Worker.key taskPriority)) final).map (Worker.toCandidate taskPriority)) := by
  induction list generalizing final with
  | nil => rfl
  | cons b list ih =>
    obtain ⟨w, hw⟩ := hthere b List.mem_cons_self
    rw [chooseWorker, Heap.deref, hw, Outcome.ofOption, Outcome.ok_bind,
      considerWorker_eq (hstats b List.mem_cons_self w hw), Outcome.ok_bind,
      ih (fun b' hb' => hthere b' (List.mem_cons_of_mem _ hb'))
        (fun b' hb' => hstats b' (List.mem_cons_of_mem _ hb')),
      List.filterMap_cons_some hw, List.filter_cons]
    split_ifs <;> rfl

/-! ### The worker found -/

namespace WorkerRegistry

lemma mem_candidates : w ∈ registry.candidates ↔
    (∃ b ∈ registry.currentWorkerList, registry.workers.get b = some w) ∧ w.eligible = true := by
  rw [candidates, List.mem_filter, List.mem_filterMap]

/-- The call finds the best worker, unless that one has no UID. -/
lemma Measured.findIdealWorker_eq (h : registry.Measured) :
    findIdealWorker registry taskPriority =
      match runningMin (Worker.key taskPriority) registry.candidates with
      | none => .ok none
      | some w => if w.workerUID.isEmpty then .ok none
        else registry.getWorkerFromUid w.workerUID := by
  have hchoose : chooseWorker registry.workers taskPriority none registry.currentWorkerList =
      .ok ((runningMin (Worker.key taskPriority) registry.candidates).map
        (Worker.toCandidate taskPriority)) := chooseWorker_eq h.there h.stats none
  rw [findIdealWorker, hchoose, Outcome.ok_bind]
  cases runningMin (Worker.key taskPriority) registry.candidates <;> rfl

/-- No worker can be chosen, and none is found. -/
lemma Measured.picksBest_of_none (h : registry.Measured)
    (hmin : runningMin (Worker.key taskPriority) registry.candidates = none) :
    registry.PicksBest taskPriority := by
  refine ⟨none, ?_, ?_, ?_⟩
  · rw [h.findIdealWorker_eq, hmin]
  · simpa using runningMin_eq_none.mp hmin
  · rintro worker ⟨⟩

/-- The last of the best workers is the one that counts. -/
lemma Measured.picksBest_of_some (h : registry.Measured)
    (hmin : runningMin (Worker.key taskPriority) registry.candidates = some w) :
    registry.PicksBest taskPriority ↔ w.workerUID ≠ "" ∧ ∀ v ∈ registry.candidates,
      v.points taskPriority = w.points taskPriority → w.packetCount ≤ v.packetCount := by
  obtain ⟨before, after, hlist, hlast⟩ := exists_lastMin hmin
  have hmem : w ∈ registry.candidates := by
    rw [hlist]
    simp
  have hleast : ∀ v ∈ registry.candidates, w.points taskPriority ≤ v.points taskPriority := by
    intro v hv
    rw [hlist] at hv
    exact (key_le_key.mp (hlast.le hv)).1
  obtain ⟨⟨b, hb, hw⟩, -⟩ := mem_candidates.mp hmem
  have hfind : findIdealWorker registry taskPriority =
      .ok (if w.workerUID = "" then none else some b) := by
    rw [h.findIdealWorker_eq, hmin]
    have hget : registry.getWorkerFromUid w.workerUID = .ok (some b) :=
      getWorkerFromUid_eq h.there
        (fun a ha v hv huid => h.distinct a ha b hb v w hv hw huid) hb hw
    simp only [hget, String.isEmpty_iff]
    split_ifs <;> rfl
  constructor
  · rintro ⟨found, hfound, hnone, hsome⟩
    cases hfind.symm.trans hfound
    split_ifs at hnone hsome with hempty
    · exact absurd (hnone.mp rfl) (List.ne_nil_of_mem hmem)
    · obtain ⟨-, v, hv, hget, -, hfew⟩ := hsome b rfl
      cases hw.symm.trans hget
      exact ⟨hempty, hfew⟩
  · rintro ⟨huid, hfew⟩
    rw [if_neg huid] at hfind
    refine ⟨some b, hfind, by simpa using List.ne_nil_of_mem hmem, ?_⟩
    rintro worker ⟨⟩
    exact ⟨hb, w, hmem, hw, hleast, hfew⟩

lemma lastIsBest_of_some
    (hmin : runningMin (Worker.key taskPriority) registry.candidates = some w) :
    registry.LastIsBest taskPriority ↔ w.workerUID ≠ "" ∧ ∀ v ∈ registry.candidates,
      v.points taskPriority = w.points taskPriority → w.packetCount ≤ v.packetCount := by
  constructor
  · intro hbest
    obtain ⟨before, after, hlist, hlast⟩ := exists_lastMin hmin
    exact hbest before w after hlist hlast
  · intro hbest before v after hlist hlast
    have hv : runningMin (Worker.key taskPriority) registry.candidates = some v :=
      runningMin_eq_some.mpr ⟨before, after, hlist, hlast⟩
    cases hmin.symm.trans hv
    exact hbest

lemma lastIsBest_of_none
    (hmin : runningMin (Worker.key taskPriority) registry.candidates = none) :
    registry.LastIsBest taskPriority := by
  intro before v after hlist hlast
  have hv : runningMin (Worker.key taskPriority) registry.candidates = some v :=
    runningMin_eq_some.mpr ⟨before, after, hlist, hlast⟩
  cases hmin.symm.trans hv

lemma Measured.picksBest_iff_lastIsBest (h : registry.Measured) :
    registry.PicksBest taskPriority ↔ registry.LastIsBest taskPriority := by
  cases hmin : runningMin (Worker.key taskPriority) registry.candidates with
  | none => exact iff_of_true (h.picksBest_of_none hmin) (lastIsBest_of_none hmin)
  | some w => exact (h.picksBest_of_some hmin).trans (lastIsBest_of_some hmin).symm

/-! ### The queue sizes -/

/-- `1 / 2` is `0`: more packets, smaller size. -/
lemma getQueueSize_eq (hsmall : w.packetCount < 2 ^ 31) : w.getQueueSize = -w.packetCount := by
  rw [Worker.packetCount] at hsmall ⊢
  rw [Worker.getQueueSize, Int.bmod_eq_of_le_mul_two] <;> push_cast <;> omega

/-- The worker with the most packets is kept, and has the fewest if all have equally many. -/
lemma lastIsBest_iff_evenPackets
    (hsmall : ∀ w ∈ registry.candidates, w.workerUID ≠ "" ∧ w.packetCount < 2 ^ 31) :
    registry.LastIsBest taskPriority ↔ registry.EvenPackets taskPriority := by
  cases hmin : runningMin (Worker.key taskPriority) registry.candidates with
  | none =>
    refine iff_of_true (lastIsBest_of_none hmin) fun v hv => ?_
    rw [runningMin_eq_none.mp hmin] at hv
    exact absurd hv List.not_mem_nil
  | some w =>
    obtain ⟨before, after, hlist, hlast⟩ := exists_lastMin hmin
    have hmem : w ∈ registry.candidates := by
      rw [hlist]
      simp
    have hkey : ∀ v ∈ registry.candidates, w.key taskPriority ≤ v.key taskPriority :=
      fun v hv => hlast.le (hlist ▸ hv)
    have hmost : ∀ v ∈ registry.candidates, v.points taskPriority = w.points taskPriority →
        v.packetCount ≤ w.packetCount := by
      intro v hv hpoints
      have hsize := (key_le_key.mp (hkey v hv)).2 hpoints.symm
      rw [getQueueSize_eq (hsmall w hmem).2, getQueueSize_eq (hsmall v hv).2] at hsize
      omega
    rw [lastIsBest_of_some hmin]
    constructor
    · rintro ⟨-, hfew⟩ u hu v hv hleast hpoints
      have hw : u.points taskPriority = w.points taskPriority :=
        le_antisymm (hleast w hmem) (key_le_key.mp (hkey u hu)).1
      have hv' := hpoints.trans hw
      rw [le_antisymm (hmost v hv hv') (hfew v hv hv'), le_antisymm (hmost u hu hw) (hfew u hu hw)]
    · intro heven
      refine ⟨(hsmall w hmem).1, fun v hv hpoints => ?_⟩
      exact (heven w hmem v hv (fun u hu => (key_le_key.mp (hkey u hu)).1) hpoints).ge

/-- With workers of different UIDs and stats that can be used, the call picks the best worker
exactly when the last one with the least points and size is; without wrapped sizes, exactly when
the workers with the least points have equally many packets. -/
theorem picksBest_iff (taskPriority : TaskPriority) (h : registry.Measured) :
    (registry.PicksBest taskPriority ↔ registry.LastIsBest taskPriority) ∧
      ((∀ w ∈ registry.candidates, w.workerUID ≠ "" ∧ w.packetCount < 2 ^ 31) →
        (registry.PicksBest taskPriority ↔ registry.EvenPackets taskPriority)) := by
  constructor
  · exact h.picksBest_iff_lastIsBest
  · intro hsmall
    exact h.picksBest_iff_lastIsBest.trans (lastIsBest_iff_evenPackets hsmall)

/-- Two workers without tasks, the second with the given packets on the server. -/
def twoIdle (senderQueue : List OutPacketRef) : WorkerRegistry :=
  let idle : Worker := { Worker.new "1" with
    workerReady := true, workerStats := ⟨1, [0, 0, 0, 0], 1⟩ }
  ⟨⟨[some idle, some { idle with workerUID := "2", senderQueue }]⟩, [0, 1], [], false⟩

/-- Both are candidates and have the same points. -/
lemma twoIdle_points (senderQueue : List OutPacketRef) :
    ∀ w ∈ (twoIdle senderQueue).candidates, w.points .lowPriority = 0 := by
  intro w hw
  rcases List.mem_cons.mp (List.mem_filter.mp hw).1 with rfl | hw
  · simp [Worker.points, TaskPriority.toNat]
  · rw [List.mem_singleton.mp hw]
    simp [Worker.points, TaskPriority.toNat]

lemma measured_twoIdle (senderQueue : List OutPacketRef) : (twoIdle senderQueue).Measured where
  there := by
    intro b hb
    rcases List.mem_pair.mp hb with rfl | rfl
    · exact ⟨_, rfl⟩
    · exact ⟨_, rfl⟩
  distinct := by
    intro a ha b hb wa wb hwa hwb huid
    rcases List.mem_pair.mp ha with rfl | rfl <;> rcases List.mem_pair.mp hb with rfl | rfl <;>
      cases hwa <;> cases hwb
    · rfl
    · exact absurd huid (by decide : "1" ≠ "2")
    · exact absurd huid (by decide : "2" ≠ "1")
    · rfl
  stats := by
    intro b hb w hw
    right
    rcases List.mem_pair.mp hb with rfl | rfl <;> cases hw <;> simp

/-- With no packets on the server the choice is right. -/
theorem picksBest_iff_even : (twoIdle []).PicksBest .lowPriority := by
  have hsmall : ∀ w ∈ (twoIdle []).candidates, w.workerUID ≠ "" ∧ w.packetCount < 2 ^ 31 := by
    decide
  apply ((picksBest_iff .lowPriority (measured_twoIdle [])).2 hsmall).mpr
  have hnone : ∀ w ∈ (twoIdle []).candidates, w.packetCount = 0 := by decide
  intro v hv w hw _ _
  rw [hnone v hv, hnone w hw]

/-- The worker with a packet is chosen over the one without. -/
theorem not_picksBest : findIdealWorker (twoIdle [0]) .lowPriority = .ok (some 1) ∧
    ¬ (twoIdle [0]).PicksBest .lowPriority := by
  have hfind : findIdealWorker (twoIdle [0]) .lowPriority = .ok (some 1) := by
    obtain ⟨found, hfound, rfl⟩ : ∃ found, findIdealWorker (twoIdle [0]) .lowPriority = .ok found ∧
        found = some 1 := Outcome.exists_ok_of_eval (by decide)
    exact hfound
  refine ⟨hfind, ?_⟩
  rintro ⟨found, hfound, -, hsome⟩
  cases hfind.symm.trans hfound
  obtain ⟨-, w, hw, hget, -, hfew⟩ := hsome 1 rfl
  obtain ⟨v, hv, hv0⟩ : ∃ v ∈ (twoIdle [0]).candidates, v.packetCount = 0 := by decide
  have hle := hfew v hv ((twoIdle_points [0] v hv).trans (twoIdle_points [0] w hw).symm)
  cases hget
  rw [hv0] at hle
  exact absurd hle (by decide)

end WorkerRegistry

end ServerUnit
