import ServerUnit.Lib.LinkedList
import ServerUnit.Task

/-!
# The pool of tasks (`include/process.hpp`, `sched/task_pool.cpp`)

Tasks wait for the scheduler in a linked list: a new one is added at its tail, and the one at
the head is popped. `TaskPool.Holds` says which tasks wait, in which order.
-/

namespace ServerUnit

open Lib

/-- `process`: what its procedures do is the environment's choice. Only `pause_proc` may be
null. -/
structure Process where
  pauseProc : Bool
  deriving DecidableEq, Repr

/-- `taskStruct`: a process and what it is called with. -/
structure TaskStruct (τ : Type) where
  proc : Process
  args : τ
  deriving DecidableEq, Repr

/-- `taskPoolNode`, whose `next` is with the list. -/
structure TaskPoolNode (τ : Type) where
  taskItem : Option (TaskStruct τ)
  taskType : TaskPriority
  deriving DecidableEq, Repr

/-- The node that `taskPoolNode()` makes. -/
def TaskPoolNode.default (τ : Type) : TaskPoolNode τ := ⟨none, .defaultPriority⟩

structure TaskPool (τ : Type) where
  nodes : Heap (Node (TaskPoolNode τ))
  headNode : Option ℕ
  taskPoolCount : ℕ
  taskPoolLock : ℕ
  deriving DecidableEq, Repr

namespace TaskPool

variable {τ : Type}

/-- `MAX_TASK_POOL_SIZE` -/
abbrev maxTaskPoolSize : ℕ := 20

def init (τ : Type) : TaskPool τ :=
  { nodes := .empty, headNode := none, taskPoolCount := 0, taskPoolLock := 1 }

/-- A full pool reports `-1`. -/
def addTask (t : TaskPool τ) (task : TaskStruct τ) (loadType : TaskPriority) :
    Outcome (TaskPool τ × ℤ) :=
  if maxTaskPoolSize ≤ t.taskPoolCount then
    return (t, -1)
  else do
    let lock ← semWait t.taskPoolLock
    let nodes := t.nodes.alloc ⟨⟨some task, loadType⟩, none⟩
    match t.headNode with
    | none =>
      return ({ nodes
                headNode := some t.nodes.next
                taskPoolCount := t.taskPoolCount + 1
                taskPoolLock := semPost lock }, 0)
    | some head => do
      let tail ← lastNode t.nodes t.nodes.next head
      let node ← t.nodes.deref tail
      return ({ nodes := nodes.put tail { node with next := some t.nodes.next }
                headNode := some head
                taskPoolCount := t.taskPoolCount + 1
                taskPoolLock := semPost lock }, 0)

def popTask (t : TaskPool τ) : Outcome (TaskPool τ × TaskPoolNode τ) :=
  if t.taskPoolCount = 0 then
    return (t, TaskPoolNode.default τ)
  else do
    let lock ← semWait t.taskPoolLock
    let temp ← Outcome.ofOption t.headNode
    let node ← t.nodes.deref temp
    return ({ nodes := t.nodes.free temp
              headNode := node.next
              taskPoolCount := t.taskPoolCount - 1
              taskPoolLock := semPost lock }, node.value)

def getTaskPoolSize (t : TaskPool τ) : ℕ := t.taskPoolCount

/-! ### The tasks that wait -/

/-- A task with its priority, as it waits in the pool. -/
abbrev Waiting (τ : Type) := TaskStruct τ × TaskPriority

/-- The node that a task waits in. -/
def node (w : Waiting τ) : TaskPoolNode τ := ⟨some w.1, w.2⟩

/-- These tasks wait in the pool, the oldest first. -/
structure Holds (t : TaskPool τ) (waiting : List (Waiting τ)) : Prop where
  chain : ∃ l, Chain t.nodes t.headNode l ∧ l.map Prod.snd = waiting.map node
  count : t.taskPoolCount = waiting.length
  unlocked : t.taskPoolLock = 1

variable {t t' : TaskPool τ} {waiting waiting' : List (Waiting τ)}

lemma node_injective : Function.Injective (node : Waiting τ → TaskPoolNode τ) := by
  rintro ⟨task, priority⟩ ⟨task', priority'⟩ h
  rw [node, node, TaskPoolNode.mk.injEq, Option.some.injEq] at h
  exact Prod.ext h.1 h.2

namespace Holds

lemma init (τ : Type) : (init τ).Holds [] :=
  ⟨⟨[], .nil, rfl⟩, rfl, rfl⟩

/-- A pool holds one list of tasks. -/
lemma unique (h : t.Holds waiting) (h' : t.Holds waiting') : waiting = waiting' := by
  obtain ⟨l, hl, hmap⟩ := h.chain
  obtain ⟨l', hl', hmap'⟩ := h'.chain
  obtain rfl := hl.unique hl'
  apply List.map_injective_iff.mpr node_injective
  rw [← hmap, ← hmap']

/-- A pool of `MAX_TASK_POOL_SIZE` tasks takes no more. -/
lemma addTask_full (h : t.Holds waiting) (task : TaskStruct τ) (loadType : TaskPriority)
    (hfull : maxTaskPoolSize ≤ waiting.length) :
    t.addTask task loadType = .ok (t, -1) := by
  rw [addTask, if_pos (h.count ▸ hfull)]
  rfl

/-- Any other takes the task last. -/
lemma addTask (h : t.Holds waiting) (task : TaskStruct τ) (loadType : TaskPriority)
    (hroom : waiting.length < maxTaskPoolSize) :
    ∃ t', t.addTask task loadType = .ok (t', 0) ∧ t'.Holds (waiting ++ [(task, loadType)]) := by
  obtain ⟨l, hl, hmap⟩ := h.chain
  have hcount : t.taskPoolCount + 1 = (waiting ++ [(task, loadType)]).length := by
    rw [List.length_append, List.length_singleton, h.count]
  rw [TaskPool.addTask, if_neg (by rw [h.count]; exact hroom.not_ge), h.unlocked]
  cases hhead : t.headNode with
  | none =>
    rw [hhead] at hl
    obtain rfl := hl.eq_nil
    refine ⟨_, rfl, ⟨⟨_, .singleton _ _, ?_⟩, hcount, rfl⟩⟩
    rw [List.map_nil, List.nil_eq, List.map_eq_nil_iff] at hmap
    rw [hmap]
    rfl
  | some head =>
    rw [hhead] at hl
    -- the nodes before the last one, and the last one
    have hne : l ≠ [] := by
      rintro rfl
      cases hl
    obtain ⟨init, ⟨tail, value⟩, rfl⟩ := List.eq_nil_or_concat l |>.resolve_left hne
    rw [List.concat_eq_append] at hl hmap
    have hfuel : init.length < t.nodes.next := by
      have hle := hl.length_le_next
      rwa [List.length_append, List.length_singleton] at hle
    obtain ⟨hlast, htail⟩ := hl.lastNode_eq hfuel
    have hconcat := hl.concat (a := node (task, loadType))
    refine ⟨⟨_, some head, t.taskPoolCount + 1, 1⟩, ?_, ⟨⟨_, hconcat, ?_⟩, hcount, rfl⟩⟩
    · simp only [semWait, hlast, Heap.deref, htail, Outcome.ofOption, Outcome.ok_bind]
      rfl
    · rw [List.map_append, List.map_append, ← hmap]
      simp

/-- The oldest task is popped. -/
lemma popTask {w : Waiting τ} (h : t.Holds (w :: waiting)) :
    ∃ t', t.popTask = .ok (t', node w) ∧ t'.Holds waiting := by
  obtain ⟨l, hl, hmap⟩ := h.chain
  have hpos : t.taskPoolCount ≠ 0 := by
    rw [h.count]
    exact Nat.succ_ne_zero _
  rw [TaskPool.popTask, if_neg hpos, h.unlocked]
  generalize hhead : t.headNode = head at hl
  cases hl with
  | nil => exact absurd hmap (by simp)
  | @cons p a next l hp htail =>
    rw [List.map_cons, List.map_cons, List.cons.injEq] at hmap
    obtain ⟨rfl, hmap⟩ := hmap
    refine ⟨⟨t.nodes.free p, next, t.taskPoolCount - 1, 1⟩, ?_,
      ⟨⟨l, htail.free_head hp, hmap⟩, ?_, rfl⟩⟩
    · simp only [semWait, Outcome.ofOption, Heap.deref, hp, Outcome.ok_bind]
      rfl
    · rw [h.count]
      rfl

end Holds

end TaskPool

end ServerUnit
