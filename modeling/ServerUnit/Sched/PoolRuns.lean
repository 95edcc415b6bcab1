import ServerUnit.Sched.TaskPool
import ServerUnit.Lib.BoundedQueue

/-!
# Runs of calls on the pool of tasks

The pool, a linked list with a counter beside it, answers every run of `addTask` and `popTask` as a
bounded queue does.
-/

namespace ServerUnit

open Lib

namespace TaskPool

variable {τ : Type} {t t' : TaskPool τ} {waiting : List (Waiting τ)}

/-- What a call returns. -/
inductive PoolAnswer (τ : Type) where
  | code (rc : ℤ)
  | node (n : TaskPoolNode τ)

/-- A call on the pool: a task is added with its priority, or one is popped. -/
def call (t : TaskPool τ) : BoundedQueue.Call (Waiting τ) → Outcome (TaskPool τ × PoolAnswer τ)
  | .add w => do
    let (t, rc) ← t.addTask w.1 w.2
    return (t, .code rc)
  | .pop => do
    let (t, n) ← t.popTask
    return (t, .node n)

/-- The pool's word for an answer of the queue: an empty queue gives an empty node. -/
def PoolAnswer.ofQueue : BoundedQueue.Answer (Waiting τ) → PoolAnswer τ
  | .accepted        => .code 0
  | .refused         => .code (-1)
  | .popped none     => .node (.default τ)
  | .popped (some w) => .node (TaskPool.node w)

/-- An empty pool gives an empty node, wherever `headNode` points. -/
lemma popTask_of_count_zero (h : t.taskPoolCount = 0) :
    t.popTask = .ok (t, .default τ) := by
  rw [popTask, if_pos h]
  rfl

namespace Holds

/-- One call is answered as by the queue of the tasks that wait. -/
lemma call (h : t.Holds waiting) (c : BoundedQueue.Call (Waiting τ)) :
    ∃ t', t.call c = .ok (t', .ofQueue (BoundedQueue.answer maxTaskPoolSize waiting c).2) ∧
      t'.Holds (BoundedQueue.answer maxTaskPoolSize waiting c).1 := by
  cases c with
  | add w =>
    by_cases hroom : waiting.length < maxTaskPoolSize
    · obtain ⟨t', ht', hholds⟩ := h.addTask w.1 w.2 hroom
      rw [BoundedQueue.answer, if_pos hroom]
      refine ⟨t', ?_, hholds⟩
      rw [TaskPool.call, ht']
      rfl
    · rw [BoundedQueue.answer, if_neg hroom]
      refine ⟨t, ?_, h⟩
      rw [TaskPool.call, h.addTask_full w.1 w.2 (not_lt.mp hroom)]
      rfl
  | pop =>
    cases waiting with
    | nil =>
      refine ⟨t, ?_, h⟩
      rw [TaskPool.call, popTask_of_count_zero h.count]
      rfl
    | cons w waiting =>
      obtain ⟨t', ht', hholds⟩ := h.popTask
      refine ⟨t', ?_, hholds⟩
      rw [TaskPool.call, ht']
      rfl

/-- A task is refused exactly by a full pool, which it leaves as it was. -/
lemma addTask_eq_ok (h : t.Holds waiting) {task : TaskStruct τ} {loadType : TaskPriority} {rc : ℤ}
    (hle : waiting.length ≤ maxTaskPoolSize) (hadd : t.addTask task loadType = .ok (t', rc)) :
    (rc = -1 ↔ t.taskPoolCount = maxTaskPoolSize) ∧ (rc = -1 → t' = t) := by
  rcases hle.lt_or_eq with hroom | hfull
  · obtain ⟨t'', ht'', -⟩ := h.addTask task loadType hroom
    cases ht''.symm.trans hadd
    refine ⟨iff_of_false (by decide) ?_, fun hrc => ?_⟩
    · rw [h.count]
      exact hroom.ne
    · exact absurd hrc (by decide)
  · cases (h.addTask_full task loadType hfull.ge).symm.trans hadd
    exact ⟨iff_of_true rfl (h.count.trans hfull), fun _ => rfl⟩

end Holds

/-- Over every run from the empty pool: it answers as a queue bounded by `MAX_TASK_POOL_SIZE` does,
which gives the tasks back in the order in which it took them; the nodes from `headNode` on are a
chain without repetition, which holds what the queue does and is as long as the counter says; a task
is refused exactly when the chain has its full length, and nothing changes then; and an empty pool
gives an empty node whatever `headNode` is. -/
theorem run_refines_queue (calls : List (BoundedQueue.Call (Waiting τ))) :
    ∃ t l queue answers, BoundedQueue.answers maxTaskPoolSize [] calls = (queue, answers) ∧
      runAnswers call (init τ) calls = .ok (t, answers.map .ofQueue) ∧
      BoundedQueue.taken calls answers = BoundedQueue.given answers ++ queue ∧
      Chain t.nodes t.headNode l ∧ (l.map Prod.fst).Nodup ∧ l.map Prod.snd = queue.map node ∧
      l.length = t.taskPoolCount ∧ t.taskPoolCount ≤ maxTaskPoolSize ∧
      (∀ task loadType t' rc, t.addTask task loadType = .ok (t', rc) →
        (rc = -1 ↔ t.taskPoolCount = maxTaskPoolSize) ∧ (rc = -1 → t' = t)) ∧
      ∀ headNode, t.taskPoolCount = 0 →
        { t with headNode }.popTask = .ok ({ t with headNode }, .default τ) := by
  obtain ⟨t, hrun, hholds⟩ := BoundedQueue.exists_runAnswers
    (fun _ _ c h => Holds.call h c) (Holds.init τ) calls
  obtain ⟨l, hl, hmap⟩ := hholds.chain
  have hle : (BoundedQueue.answers maxTaskPoolSize [] calls).1.length ≤ maxTaskPoolSize :=
    BoundedQueue.length_answers_le (Nat.zero_le _)
  have hlength : l.length = t.taskPoolCount := by
    rw [hholds.count, ← List.length_map (f := Prod.snd), hmap, List.length_map]
  refine ⟨t, l, _, _, rfl, hrun, ?_, hl, hl.nodup, hmap, hlength, ?_, ?_, ?_⟩
  · exact BoundedQueue.append_taken_eq maxTaskPoolSize [] calls
  · rw [hholds.count]
    exact hle
  · intro task loadType t' rc
    exact hholds.addTask_eq_ok hle
  · intro headNode hzero
    exact popTask_of_count_zero hzero

end TaskPool

end ServerUnit
