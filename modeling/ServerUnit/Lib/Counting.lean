import Mathlib.Data.Fintype.Card
import Mathlib.Data.Finset.Card

/-!
# Counting the arguments at which a function has a property

What the count of such arguments becomes when the function changes at one of them.
-/

namespace Lib

variable {ι β : Type*} [Fintype ι] {f : ι → β} {p : β → Bool} {i : ι} {b : β}

/-- The number of arguments whose value has the property. -/
def countWhere (p : β → Bool) (f : ι → β) : ℕ := (Finset.univ.filter fun i => p (f i)).card

lemma countWhere_pos : 0 < countWhere p f ↔ ∃ i, p (f i) = true := by
  rw [countWhere, Finset.card_pos]
  constructor
  · rintro ⟨i, hi⟩
    exact ⟨i, (Finset.mem_filter.mp hi).2⟩
  · rintro ⟨i, hi⟩
    exact ⟨i, Finset.mem_filter.mpr ⟨Finset.mem_univ i, hi⟩⟩

lemma countWhere_eq_zero : countWhere p f = 0 ↔ ∀ i, p (f i) = false := by
  rw [← Nat.le_zero, ← not_lt, countWhere_pos]
  simp only [not_exists, Bool.not_eq_true]

/-- A single argument decides. -/
lemma countWhere_of_subsingleton [Subsingleton ι] (hi : p (f i) = false) : countWhere p f = 0 := by
  rw [countWhere_eq_zero]
  intro j
  rw [Subsingleton.elim j i, hi]

@[simp] lemma countWhere_const_of_false (hb : p b = false) :
    countWhere p (fun _ : ι => b) = 0 := by
  simp [countWhere, hb]

variable [DecidableEq ι]

/-- One argument more. -/
lemma countWhere_update_of_true (hi : p (f i) = false) (hb : p b = true) :
    countWhere p (Function.update f i b) = countWhere p f + 1 := by
  have hset : (Finset.univ.filter fun a => p (Function.update f i b a)) =
      insert i (Finset.univ.filter fun a => p (f a)) := by
    ext a
    by_cases ha : a = i
    · subst ha
      simp [hb]
    · simp [ha]
  rw [countWhere, hset, Finset.card_insert_of_notMem (by simp [hi])]
  rfl

/-- One argument less. -/
lemma countWhere_update_of_false (hi : p (f i) = true) (hb : p b = false) :
    countWhere p (Function.update f i b) + 1 = countWhere p f := by
  have hback : Function.update (Function.update f i b) i (f i) = f := by
    rw [Function.update_idem, Function.update_eq_self]
  rw [← countWhere_update_of_true (f := Function.update f i b) (by rwa [Function.update_self]) hi,
    hback]

end Lib
