import ServerUnit.Lib.Machine
import ServerUnit.Sink.Basic
import Mathlib.Algebra.Order.Group.Multiset

/-!
# Calls on a sink

`pushObject` and `popObject` in any order, one at a time. Nothing is lost or comes twice, wherever
`pushObject` puts an item. The size that a sink is made with only counts for `isSinkFull`.
-/

namespace ServerUnit

open Lib

variable {α : Type}

/-- A call, with the value that the field `starveCounter` of a new item happens to have. -/
inductive SinkCall (α : Type) where
  | pushObject (object : Option α) (priority : TaskPriority) (starveCounter : UInt8)
  | popObject

/-- A sink with what was accepted and what was popped so far, oldest first. -/
structure SinkLog (α : Type) where
  sink : Sink α
  accepted : List (ExportSinkItem α)
  popped : List (ExportSinkItem α)

namespace SinkLog

/-- A new sink. -/
def init (α : Type) (maxSinkSize : ℕ) : SinkLog α := ⟨.new maxSinkSize, [], []⟩

def step (x : SinkLog α) : SinkCall α → Outcome (SinkLog α)
  | .pushObject object priority starveCounter => do
    let (sink, rc) ← x.sink.pushObject object priority starveCounter
    return { x with
      sink
      accepted :=
        if rc = 0 then x.accepted ++ (object.map (ExportSinkItem.mk · priority)).toList
        else x.accepted }
  | .popObject => do
    let (sink, item) ← x.sink.popExport
    return { x with sink, popped := x.popped ++ item.toList }

variable {x x' : SinkLog α} {maxSinkSize : ℕ}

/-! ### The outcomes of a step -/

lemma step_pushObject_none (priority : TaskPriority) (starveCounter : UInt8) :
    x.step (.pushObject none priority starveCounter) = .ok x := by
  simp only [step, Sink.pushObject_none, Outcome.ok_bind]
  rfl

lemma step_pushObject_of_full (hfull : MAX_POOL_SIZE ≤ x.sink.sinkItemList.length) (object : α)
    (priority : TaskPriority) (starveCounter : UInt8) :
    x.step (.pushObject (some object) priority starveCounter) = .ok x := by
  simp only [step, Sink.pushObject_of_full hfull, Outcome.ok_bind]
  rfl

lemma step_pushObject_of_room (hroom : x.sink.sinkItemList.length < MAX_POOL_SIZE)
    (hlock : 0 < x.sink.sinkLock) (object : α) (priority : TaskPriority) (starveCounter : UInt8) :
    x.step (.pushObject (some object) priority starveCounter) = .ok
      ⟨{ x.sink with
        sinkItemList := Sink.place ⟨object, priority, starveCounter⟩
          (calculateStarveCounter priority) x.sink.sinkItemList },
      x.accepted ++ [⟨object, priority⟩], x.popped⟩ := by
  simp only [step, Sink.pushObject_of_room hroom hlock, Outcome.ok_bind]
  rfl

lemma step_popObject_nil (hnil : x.sink.sinkItemList = []) : x.step .popObject = .ok x := by
  simp only [step, Sink.popExport_nil hnil, Outcome.ok_bind, Option.toList_none, List.append_nil]
  rfl

lemma step_popObject_cons {top : SinkItem α} {items : List (SinkItem α)}
    (hcons : x.sink.sinkItemList = top :: items) (hlock : 0 < x.sink.sinkLock) :
    x.step .popObject = .ok
      ⟨{ x.sink with sinkItemList := items }, x.accepted, x.popped ++ [top.sinkItem]⟩ := by
  simp only [step, Sink.popExport_cons hcons hlock, Outcome.ok_bind]
  rfl

/-! ### Conservation -/

/-- What was accepted is what was popped and what is left, and `pushObject` refuses null and full
sinks only. -/
structure Accounts (x : SinkLog α) : Prop where
  bounded : x.sink.sinkItemList.length ≤ MAX_POOL_SIZE
  items : (x.accepted : Multiset (ExportSinkItem α)) = x.popped + x.sink.exports
  pushes : ∀ (object : Option α) priority starveCounter, ∃ sink rc,
    x.sink.pushObject object priority starveCounter = .ok (sink, rc) ∧
      (rc = 0 ↔ object.isSome ∧ x.sink.sinkItemList.length < MAX_POOL_SIZE) ∧
      (rc ≠ 0 → sink = x.sink)

/-- The invariant: the lock is free between two calls. -/
structure Kept (x : SinkLog α) : Prop where
  unlocked : x.sink.sinkLock = 1
  bounded : x.sink.sinkItemList.length ≤ MAX_POOL_SIZE
  items : (x.accepted : Multiset (ExportSinkItem α)) = x.popped + x.sink.exports

namespace Kept

lemma init : (init α maxSinkSize).Kept := ⟨rfl, Nat.zero_le _, rfl⟩

lemma lock_pos (h : x.Kept) : 0 < x.sink.sinkLock := by
  rw [h.unlocked]
  exact Nat.one_pos

/-- Every call returns. -/
lemma step (h : x.Kept) (call : SinkCall α) : ∃ x', x.step call = .ok x' ∧ x'.Kept := by
  cases call with
  | pushObject object priority starveCounter =>
    cases object with
    | none => exact ⟨x, step_pushObject_none priority starveCounter, h⟩
    | some object =>
      rcases Nat.lt_or_ge x.sink.sinkItemList.length MAX_POOL_SIZE with hroom | hfull
      · refine ⟨_, step_pushObject_of_room hroom h.lock_pos object priority starveCounter,
          h.unlocked, ?_, ?_⟩
        · rw [Sink.length_place]
          exact hroom
        · have hplace : Sink.exports { x.sink with
              sinkItemList := Sink.place ⟨object, priority, starveCounter⟩
                (calculateStarveCounter priority) x.sink.sinkItemList }
              |>.Perm (x.sink.exports ++ [⟨object, priority⟩]) :=
            ((Sink.place_perm _ _ _).map SinkItem.sinkItem).trans
              (List.perm_append_singleton _ _).symm
          rw [← Multiset.coe_add, h.items, add_assoc, Multiset.coe_add x.sink.exports,
            Multiset.coe_eq_coe.mpr hplace]
      · exact ⟨x, step_pushObject_of_full hfull object priority starveCounter, h⟩
  | popObject =>
    cases hitems : x.sink.sinkItemList with
    | nil => exact ⟨x, step_popObject_nil hitems, h⟩
    | cons top items =>
      refine ⟨_, step_popObject_cons hitems h.lock_pos, h.unlocked, ?_, ?_⟩
      · have hbounded := h.bounded
        rw [hitems, List.length_cons] at hbounded
        exact Nat.le_of_succ_le hbounded
      · have hexports : x.sink.exports = [top.sinkItem] ++ items.map SinkItem.sinkItem := by
          rw [Sink.exports, hitems]
          rfl
        rw [h.items, hexports, ← Multiset.coe_add, ← Multiset.coe_add, add_assoc]
        rfl

lemma of_step (h : x.Kept) {call : SinkCall α} (hstep : x.step call = .ok x') : x'.Kept := by
  obtain ⟨t, ht, hkept⟩ := h.step call
  cases ht.symm.trans hstep
  exact hkept

lemma accounts (h : x.Kept) : x.Accounts where
  bounded := h.bounded
  items := h.items
  pushes := by
    intro object priority starveCounter
    cases object with
    | none => exact ⟨_, _, Sink.pushObject_none priority starveCounter, by simp, fun _ => rfl⟩
    | some object =>
      rcases Nat.lt_or_ge x.sink.sinkItemList.length MAX_POOL_SIZE with hroom | hfull
      · exact ⟨_, _, Sink.pushObject_of_room hroom h.lock_pos object priority starveCounter,
          by simpa using hroom, fun hrc => absurd rfl hrc⟩
      · exact ⟨_, _, Sink.pushObject_of_full hfull object priority starveCounter,
          by simpa using hfull, fun _ => rfl⟩

end Kept

lemma exists_kept_run (maxSinkSize : ℕ) (calls : List (SinkCall α)) :
    ∃ x, run step (init α maxSinkSize) calls = .ok x ∧ x.Kept :=
  exists_run (C := fun _ => True) (fun _ call h _ => h.step call) .init fun _ _ => trivial

/-- Every sequence of calls returns, with everything accounted for at its end. -/
theorem run_accounts (maxSinkSize : ℕ) (calls : List (SinkCall α)) :
    ∃ x, run step (init α maxSinkSize) calls = .ok x ∧ x.Accounts := by
  obtain ⟨x, hx, hkept⟩ := exists_kept_run maxSinkSize calls
  exact ⟨x, hx, hkept.accounts⟩

end SinkLog

/-! ### Fullness -/

namespace Sink

/-- The sink says that it is full exactly when it would refuse an object, and holds no more than it
was made for. -/
def FullAgrees (s : Sink α) : Prop :=
  (∀ object priority starveCounter s' rc,
    s.pushObject (some object) priority starveCounter = .ok (s', rc) →
      (s.isSinkFull = true ↔ rc = -1)) ∧
  s.sinkItemList.length ≤ s.sinkLimit

variable {s : Sink α}

/-- The test and the push use different limits, so that they never agree at the one of the push. -/
lemma fullAgrees_iff (object : α) (hlock : 0 < s.sinkLock) : s.FullAgrees ↔
    s.sinkItemList.length < MAX_POOL_SIZE ∧ s.sinkItemList.length ≤ s.sinkLimit := by
  constructor
  · rintro ⟨hagrees, hlimit⟩
    refine ⟨?_, hlimit⟩
    by_contra hfull
    have hpush := pushObject_of_full (not_lt.mp hfull) object .defaultPriority 0
    have hsays := (hagrees _ _ _ _ _ hpush).mpr rfl
    rw [isSinkFull, decide_eq_true_iff] at hsays
    omega
  · rintro ⟨hroom, hlimit⟩
    refine ⟨fun object priority starveCounter s' rc hpush => ?_, hlimit⟩
    rw [pushObject_of_room hroom hlock, Except.ok.injEq, Prod.mk.injEq] at hpush
    rw [isSinkFull, decide_eq_true_iff, ← hpush.2]
    constructor
    · intro hgt
      omega
    · intro hrc
      cases hrc

/-- Without objects to push there is only the limit. -/
lemma fullAgrees_of_isEmpty [IsEmpty α] (hlimit : s.sinkItemList.length ≤ s.sinkLimit) :
    s.FullAgrees := ⟨fun object => isEmptyElim object, hlimit⟩

end Sink

namespace SinkLog

variable {x x' : SinkLog α} {maxSinkSize : ℕ} {calls : List (SinkCall α)}

/-- An object that is pushed leaves a place free, of those that `pushObject` allows and of those
that the sink was made with. -/
def Fits (x : SinkLog α) : SinkCall α → Prop
  | .pushObject (some _) _ _ =>
    x.sink.sinkItemList.length + 1 < MAX_POOL_SIZE ∧
      x.sink.sinkItemList.length + 1 ≤ x.sink.sinkLimit
  | _ => True

lemma fullAgrees_step (hkept : x.Kept) (h : x.sink.FullAgrees) {call : SinkCall α}
    (hstep : x.step call = .ok x') : x'.sink.FullAgrees ↔ x.Fits call := by
  cases call with
  | pushObject object priority starveCounter =>
    cases object with
    | none =>
      rw [step_pushObject_none, Except.ok.injEq] at hstep
      rw [← hstep]
      exact iff_of_true h trivial
    | some object =>
      obtain ⟨hroom, hlimit⟩ := (Sink.fullAgrees_iff object hkept.lock_pos).mp h
      rw [step_pushObject_of_room hroom hkept.lock_pos, Except.ok.injEq] at hstep
      rw [← hstep]
      refine (Sink.fullAgrees_iff object (by exact hkept.lock_pos)).trans ?_
      rw [Sink.length_place]
      rfl
  | popObject =>
    refine iff_of_true ?_ trivial
    cases hitems : x.sink.sinkItemList with
    | nil =>
      rw [step_popObject_nil hitems, Except.ok.injEq] at hstep
      rwa [← hstep]
    | cons top items =>
      obtain ⟨hroom, hlimit⟩ := (Sink.fullAgrees_iff top.dataObject hkept.lock_pos).mp h
      rw [hitems, List.length_cons] at hroom hlimit
      rw [step_popObject_cons hitems hkept.lock_pos, Except.ok.injEq] at hstep
      rw [← hstep]
      refine (Sink.fullAgrees_iff top.dataObject (by exact hkept.lock_pos)).mpr ?_
      exact ⟨Nat.lt_of_succ_lt hroom, Nat.le_of_succ_le hlimit⟩

lemma fullAgrees_init : (init α maxSinkSize).sink.FullAgrees := by
  rcases isEmpty_or_nonempty α with hempty | ⟨⟨object⟩⟩
  · exact Sink.fullAgrees_of_isEmpty (Nat.zero_le _)
  · rw [Sink.fullAgrees_iff object Nat.one_pos]
    exact ⟨Nat.succ_pos _, Nat.zero_le _⟩

/-- In a run the sink says what it does, and holds what it was made for, for as long as each object
that is pushed leaves a place free. -/
theorem run_fullAgrees_iff (h : run step (init α maxSinkSize) calls = .ok x) :
    Meets step Fits (init α maxSinkSize) calls ↔
      ∀ calls₁ t, calls₁ <+: calls → run step (init α maxSinkSize) calls₁ = .ok t →
        t.sink.FullAgrees :=
  meets_iff_of_invariant (fun _ _ _ hkept hstep => hkept.of_step hstep)
    (fun _ _ _ hkept hfull hstep => fullAgrees_step hkept hfull hstep) .init fullAgrees_init h

/-- `n` objects are pushed. -/
def pushes (n : ℕ) : List (SinkCall ℕ) :=
  (List.range n).map fun object => .pushObject (some object) .lowPriority 0

/-- Two objects in a sink of `20`, the size that `main` asks for. -/
theorem run_fullAgrees_iff_two : ∃ x, run step (init ℕ 20) (pushes 2) = .ok x ∧
    (Meets step Fits (init ℕ 20) (pushes 2) ↔
      ∀ calls₁ t, calls₁ <+: pushes 2 → run step (init ℕ 20) calls₁ = .ok t →
        t.sink.FullAgrees) := by
  obtain ⟨x, hx, -⟩ := exists_kept_run 20 (pushes 2)
  exact ⟨x, hx, run_fullAgrees_iff hx⟩

/-- The sinks of `main` refuse a packet while they are not full; a smaller one takes more than its
size. -/
theorem run_not_fullAgrees :
    (∃ x, run step (init ℕ 20) (pushes 20) = .ok x ∧ x.sink.isSinkFull = false ∧
      ∀ priority starveCounter,
        x.sink.pushObject (some 20) priority starveCounter = .ok (x.sink, -1)) ∧
    ∃ x, run step (init ℕ 5) (pushes 6) = .ok x ∧ x.sink.sinkItemList.length = 6 := by
  constructor
  · obtain ⟨x, hx, hlength, hfull⟩ : ∃ x, run step (init ℕ 20) (pushes 20) = .ok x ∧
        x.sink.sinkItemList.length = 20 ∧ x.sink.isSinkFull = false :=
      Outcome.exists_ok_of_eval (by decide)
    exact ⟨x, hx, hfull, Sink.pushObject_of_full hlength.ge 20⟩
  · exact Outcome.exists_ok_of_eval (by decide)

end SinkLog

end ServerUnit
