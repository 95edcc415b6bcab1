import ServerUnit.Lib.Outcome
import ServerUnit.Task
import Mathlib.Data.List.Basic
import Mathlib.Data.List.Perm.Basic

/-!
# Sinks (`sink/sink_stack.cpp`)

A sink holds objects of one type. The constructor of `SinkItem` assigns to its parameter
instead of the field `starveCounter`, so the field keeps whatever value it had: `pushObject`
takes that value as an argument.
-/

namespace ServerUnit

open Lib

abbrev MAX_POOL_SIZE : ℕ := 20

/-- Calculate and return the starvation value based on data items priority. -/
def calculateStarveCounter : TaskPriority → ℕ
  | .highPriority   => 6
  | .mediumPriority => 4
  | _               => 0

variable {α : Type}

/-- `SinkItem`; the object is never null, since `pushObject` refuses null. -/
structure SinkItem (α : Type) where
  dataObject : α
  taskPriority : TaskPriority
  starveCounter : UInt8

/-- `ExportSinkItem`, of an object that is not null. -/
structure ExportSinkItem (α : Type) where
  dataObject : α
  taskPriority : TaskPriority
  deriving DecidableEq

/-- The field `sinkItem`. -/
def SinkItem.sinkItem (i : SinkItem α) : ExportSinkItem α := ⟨i.dataObject, i.taskPriority⟩

structure Sink (α : Type) where
  sinkItemList : List (SinkItem α)
  sinkLock : ℕ
  sinkLimit : ℕ

namespace Sink

def new (maxSinkSize : ℕ) : Sink α := ⟨[], 1, maxSinkSize⟩

/-- Where `pushObject` puts a new item. The iterator is moved back by one before the insertion,
so an item goes in front of the predecessor of the first item less starved than it; from the
first position the iterator wraps around to the end. -/
def place (item : SinkItem α) (starve : ℕ) (items : List (SinkItem α)) : List (SinkItem α) :=
  match items.findIdx? (fun i => i.starveCounter.toNat < starve) with
  | some (k + 1) => items.insertIdx k item
  | some 0       => items ++ [item]
  | none         => items ++ [item]

def pushObject (s : Sink α) (object : Option α) (priority : TaskPriority)
    (starveCounter : UInt8) : Outcome (Sink α × ℤ) :=
  match object with
  | none => return (s, -1)
  | some object =>
    if s.sinkItemList.length ≥ MAX_POOL_SIZE then
      return (s, -1)
    else do
      let lock ← semWait s.sinkLock
      let item : SinkItem α := ⟨object, priority, starveCounter⟩
      return ({ s with
        sinkItemList := place item (calculateStarveCounter priority) s.sinkItemList
        sinkLock := semPost lock }, 0)

/-- The object is null when the sink is empty. -/
def popObject (s : Sink α) : Outcome (Sink α × Option α) :=
  match s.sinkItemList with
  | [] => return (s, none)
  | item :: items => do
    let lock ← semWait s.sinkLock
    return ({ s with sinkItemList := items, sinkLock := semPost lock }, some item.dataObject)

/-- `popObject` with all that it returns: the object and its priority. -/
def popExport (s : Sink α) : Outcome (Sink α × Option (ExportSinkItem α)) :=
  match s.sinkItemList with
  | [] => return (s, none)
  | item :: items => do
    let lock ← semWait s.sinkLock
    return ({ s with sinkItemList := items, sinkLock := semPost lock }, some item.sinkItem)

/-- Most callers only look at the object. -/
lemma popObject_eq (s : Sink α) :
    s.popObject = (fun (s', item) => (s', item.map ExportSinkItem.dataObject)) <$> s.popExport := by
  unfold popObject popExport
  cases s.sinkItemList with
  | nil => rfl
  | cons item items => cases semWait s.sinkLock <;> rfl

def getCurrentSinkSpace (s : Sink α) : ℕ := s.sinkItemList.length

def isSinkFull (s : Sink α) : Bool := s.sinkItemList.length > s.sinkLimit

def isSinkEmpty (s : Sink α) : Bool := s.sinkItemList.length == 0

/-- `front()` of an empty list is undefined. -/
def getTopTaskPriority (s : Sink α) : Outcome TaskPriority :=
  match s.sinkItemList with
  | [] => .error .undefined
  | item :: _ => return item.taskPriority

/-- The objects in the sink, front first. -/
def objects (s : Sink α) : List α := s.sinkItemList.map SinkItem.dataObject

/-- What would be popped, front first. -/
def exports (s : Sink α) : List (ExportSinkItem α) := s.sinkItemList.map SinkItem.sinkItem

/-! ### What the calls can do -/

/-- Wherever the new item is put, the others stay. -/
lemma place_perm (item : SinkItem α) (starve : ℕ) (items : List (SinkItem α)) :
    (place item starve items).Perm (item :: items) := by
  unfold place
  split
  next k hk =>
    obtain ⟨hlt, -⟩ := List.findIdx?_eq_some_iff_getElem.mp hk
    exact List.perm_insertIdx item items (by omega)
  all_goals exact List.perm_append_singleton item items

@[simp] lemma length_place (item : SinkItem α) (starve : ℕ) (items : List (SinkItem α)) :
    (place item starve items).length = items.length + 1 := by
  rw [(place_perm item starve items).length_eq, List.length_cons]

variable {s s' : Sink α}

lemma pushObject_none (priority : TaskPriority) (starveCounter : UInt8) :
    s.pushObject none priority starveCounter = .ok (s, -1) := rfl

lemma pushObject_of_full (hfull : MAX_POOL_SIZE ≤ s.sinkItemList.length) (object : α)
    (priority : TaskPriority) (starveCounter : UInt8) :
    s.pushObject (some object) priority starveCounter = .ok (s, -1) := by
  simp only [pushObject, ge_iff_le, hfull, if_true]
  rfl

lemma pushObject_of_room (hroom : s.sinkItemList.length < MAX_POOL_SIZE) (hlock : 0 < s.sinkLock)
    (object : α) (priority : TaskPriority) (starveCounter : UInt8) :
    s.pushObject (some object) priority starveCounter = .ok ({ s with
      sinkItemList := place ⟨object, priority, starveCounter⟩ (calculateStarveCounter priority)
        s.sinkItemList }, 0) := by
  obtain ⟨lock, hlock⟩ := Nat.exists_eq_succ_of_ne_zero hlock.ne'
  simp only [pushObject, ge_iff_le, not_le.mpr hroom, if_false, hlock, semWait, Outcome.ok_bind]
  rfl

lemma popExport_nil (hnil : s.sinkItemList = []) : s.popExport = .ok (s, none) := by
  unfold popExport
  rw [hnil]
  rfl

lemma popExport_cons {top : SinkItem α} {items : List (SinkItem α)}
    (hcons : s.sinkItemList = top :: items) (hlock : 0 < s.sinkLock) :
    s.popExport = .ok ({ s with sinkItemList := items }, some top.sinkItem) := by
  obtain ⟨lock, hlock⟩ := Nat.exists_eq_succ_of_ne_zero hlock.ne'
  unfold popExport
  rw [hcons]
  simp only [hlock, semWait, Outcome.ok_bind]
  rfl

lemma pushObject_cases {object : α} {priority : TaskPriority} {starveCounter : UInt8} {rc : ℤ}
    (h : s.pushObject (some object) priority starveCounter = .ok (s', rc)) :
    (MAX_POOL_SIZE ≤ s.sinkItemList.length ∧ s' = s ∧ rc = -1) ∨
    (s.sinkItemList.length < MAX_POOL_SIZE ∧ 0 < s.sinkLock ∧ rc = 0 ∧
      s' = { s with
        sinkItemList :=
          place ⟨object, priority, starveCounter⟩ (calculateStarveCounter priority)
            s.sinkItemList }) := by
  simp only [pushObject] at h
  split_ifs at h with hfull
  · left
    simp only [Outcome.pure_eq_ok, Prod.mk.injEq] at h
    exact ⟨hfull, h.1.symm, h.2.symm⟩
  · right
    simp only [Outcome.bind_eq_ok, semWait_eq_ok, Outcome.pure_eq_ok, Prod.mk.injEq] at h
    obtain ⟨lock, hlock, rfl, rfl⟩ := h
    refine ⟨by omega, by omega, rfl, ?_⟩
    rw [semPost, ← hlock]

lemma popObject_cases {object : Option α} (h : s.popObject = .ok (s', object)) :
    (s.sinkItemList = [] ∧ s' = s ∧ object = none) ∨
    (∃ item items, s.sinkItemList = item :: items ∧ object = some item.dataObject ∧
      s' = { s with sinkItemList := items }) := by
  unfold popObject at h
  split at h
  next hnil =>
    left
    simp only [Outcome.pure_eq_ok, Prod.mk.injEq] at h
    exact ⟨hnil, h.1.symm, h.2.symm⟩
  next item items hcons =>
    right
    simp only [Outcome.bind_eq_ok, semWait_eq_ok, Outcome.pure_eq_ok, Prod.mk.injEq] at h
    obtain ⟨lock, hlock, rfl, rfl⟩ := h
    refine ⟨item, items, hcons, rfl, ?_⟩
    rw [semPost, ← hlock]

lemma popExport_cases {item : Option (ExportSinkItem α)} (h : s.popExport = .ok (s', item)) :
    (s.sinkItemList = [] ∧ s' = s ∧ item = none) ∨
    (∃ top items, s.sinkItemList = top :: items ∧ 0 < s.sinkLock ∧ item = some top.sinkItem ∧
      s' = { s with sinkItemList := items }) := by
  unfold popExport at h
  split at h
  next hnil =>
    left
    simp only [Outcome.pure_eq_ok, Prod.mk.injEq] at h
    exact ⟨hnil, h.1.symm, h.2.symm⟩
  next top items hcons =>
    right
    simp only [Outcome.bind_eq_ok, semWait_eq_ok, Outcome.pure_eq_ok, Prod.mk.injEq] at h
    obtain ⟨lock, hlock, rfl, rfl⟩ := h
    refine ⟨top, items, hcons, by omega, rfl, ?_⟩
    rw [semPost, ← hlock]

lemma objects_perm_of_pushObject {object : α} {priority : TaskPriority} {starveCounter : UInt8}
    {rc : ℤ} (h : s.pushObject (some object) priority starveCounter = .ok (s', rc)) :
    s'.objects.Perm
      (if s.sinkItemList.length < MAX_POOL_SIZE then object :: s.objects else s.objects) := by
  rcases pushObject_cases h with ⟨hfull, rfl, -⟩ | ⟨hroom, -, -, rfl⟩
  · rw [if_neg (by omega)]
  · rw [if_pos hroom]
    exact (place_perm _ _ _).map _

end Sink

end ServerUnit
