import Mathlib.Data.List.Nodup

/-!
# The first element of each key

The sublist of a list that has, for each key, the first element with it.
-/

namespace Lib

variable {α κ : Type*} [DecidableEq κ] {key : α → κ} {as : List α} {a : α} {k : κ}

/-- The first element of each key, in the order of the list. -/
def firstByKey (key : α → κ) : List α → List α
  | []      => []
  | a :: as => a :: (firstByKey key as).filter fun b => key b ≠ key a

/-- Every key of the list is kept, and no other. -/
lemma mem_map_firstByKey : k ∈ (firstByKey key as).map key ↔ k ∈ as.map key := by
  induction as with
  | nil => rfl
  | cons a as ih =>
    rw [firstByKey, List.map_cons, List.map_cons, List.mem_cons, List.mem_cons, ← ih]
    apply or_congr_right'
    intro hk
    simp only [List.mem_map, List.mem_filter, decide_eq_true_eq]
    constructor
    · rintro ⟨b, ⟨hb, -⟩, rfl⟩
      exact ⟨b, hb, rfl⟩
    · rintro ⟨b, hb, rfl⟩
      exact ⟨b, ⟨hb, hk⟩, rfl⟩

/-- A last element is kept when its key is new. -/
lemma firstByKey_concat : firstByKey key (as ++ [a]) =
    if key a ∈ as.map key then firstByKey key as else firstByKey key as ++ [a] := by
  induction as with
  | nil => rfl
  | cons b as ih =>
    have hmem : key a ∈ (b :: as).map key ↔ key a = key b ∨ key a ∈ as.map key := List.mem_cons
    rw [List.cons_append, firstByKey, firstByKey, ih]
    by_cases has : key a ∈ as.map key
    · rw [if_pos has, if_pos (hmem.mpr (.inr has))]
    · rw [if_neg has, List.filter_append]
      by_cases hb : key a = key b
      · rw [if_pos (hmem.mpr (.inl hb))]
        simp [hb]
      · rw [if_neg (mt hmem.mp (not_or.mpr ⟨hb, has⟩))]
        simp [hb]

end Lib
