import Mathlib.Data.List.Induction
import Mathlib.Order.Lattice

/-!
# Running minima

A loop that keeps the best element so far, by a key in a linear order, and lets a later element
take its place when its key is not greater. It ends with the last of the least elements.
-/

namespace Lib

variable {α β : Type*} [LinearOrder β] {key : α → β}

/-- One round of the loop. -/
def takeMin (key : α → β) : Option α → α → Option α
  | none, a => some a
  | some c, a => if key a ≤ key c then some a else some c

/-- The loop. -/
def runningMin (key : α → β) (l : List α) : Option α := l.foldl (takeMin key) none

/-- The element is least, and the last one that is. -/
structure LastMin (key : α → β) (before : List α) (a : α) (after : List α) : Prop where
  le_before : ∀ b ∈ before, key a ≤ key b
  lt_after : ∀ b ∈ after, key a < key b

lemma LastMin.le {before after : List α} {a b : α} (h : LastMin key before a after)
    (hb : b ∈ before ++ a :: after) : key a ≤ key b := by
  rcases List.mem_append.mp hb with hb | hb
  · exact h.le_before b hb
  · rcases List.mem_cons.mp hb with rfl | hb
    · exact le_rfl
    · exact (h.lt_after b hb).le

@[simp] lemma runningMin_nil : runningMin key [] = none := rfl

@[simp] lemma runningMin_concat (l : List α) (a : α) :
    runningMin key (l ++ [a]) = takeMin key (runningMin key l) a := by
  simp [runningMin]

lemma runningMin_eq_none {l : List α} : runningMin key l = none ↔ l = [] := by
  cases l using List.reverseRecOn with
  | nil => simp
  | append_singleton l x =>
    rw [runningMin_concat]
    cases runningMin key l with
    | none => simp [takeMin]
    | some c =>
      rw [takeMin]
      split_ifs <;> simp

/-- The loop ends with an element that is least, and the last one. -/
lemma exists_lastMin {l : List α} {a : α} (h : runningMin key l = some a) :
    ∃ before after, l = before ++ a :: after ∧ LastMin key before a after := by
  induction l using List.reverseRecOn generalizing a with
  | nil => cases h
  | append_singleton l x ih =>
    rw [runningMin_concat] at h
    cases hl : runningMin key l with
    | none =>
      rw [runningMin_eq_none.mp hl] at h ⊢
      cases h
      exact ⟨[], [], rfl, by simp, by simp⟩
    | some c =>
      obtain ⟨before, after, rfl, hc⟩ := ih hl
      rw [hl, takeMin] at h
      split_ifs at h with hle
      · cases h
        exact ⟨_, [], rfl, fun b hb => hle.trans (hc.le hb), by simp⟩
      · cases h
        refine ⟨before, after ++ [x], by simp, hc.le_before, fun b hb => ?_⟩
        rcases List.mem_append.mp hb with hb | hb
        · exact hc.lt_after b hb
        · rw [List.mem_singleton.mp hb]
          exact not_le.mp hle

/-- An element below all that follow keeps its place. -/
lemma foldl_takeMin_of_lt {a : α} {after : List α} (h : ∀ b ∈ after, key a < key b) :
    after.foldl (takeMin key) (some a) = some a := by
  induction after with
  | nil => rfl
  | cons b after ih =>
    rw [List.foldl_cons, takeMin, if_neg (not_le.mpr (h b List.mem_cons_self))]
    exact ih fun c hc => h c (List.mem_cons_of_mem _ hc)

/-- The loop ends with the last of the least elements, and with no other. -/
theorem runningMin_eq_some {l : List α} {a : α} : runningMin key l = some a ↔
    ∃ before after, l = before ++ a :: after ∧ LastMin key before a after := by
  constructor
  · exact exists_lastMin
  · rintro ⟨before, after, rfl, h⟩
    have hplace : takeMin key (runningMin key before) a = some a := by
      cases hbefore : runningMin key before with
      | none => rfl
      | some c =>
        obtain ⟨l, r, rfl, -⟩ := exists_lastMin hbefore
        exact if_pos (h.le_before c (by simp))
    rw [runningMin, List.foldl_append, List.foldl_cons]
    rw [runningMin] at hplace
    rw [hplace, foldl_takeMin_of_lt h.lt_after]

/-! ### Elements that get smaller -/

/-- The second is the first, or an element with the property that is not above it. -/
def Overtakes (key : α → β) (P : α → Prop) (o o' : Option α) : Prop :=
  o' = o ∨ ∃ a a', o = some a ∧ o' = some a' ∧ P a' ∧ key a' ≤ key a

/-- One round of two loops that are given the same element, or the second one an element with the
property that is not above that of the first. -/
lemma Overtakes.takeMin {P : α → Prop} {o o' : Option α} {a a' : α} (h : Overtakes key P o o')
    (ha : a' = a ∨ P a' ∧ key a' ≤ key a) :
    Overtakes key P (takeMin key o a) (takeMin key o' a') := by
  rcases h with rfl | ⟨c, c', rfl, rfl, hc', hle⟩
  · rcases ha with rfl | ⟨ha', hle⟩
    · exact .inl rfl
    · cases o' with
      | none => exact .inr ⟨a, a', rfl, rfl, ha', hle⟩
      | some c =>
        simp only [Lib.takeMin]
        split_ifs with hac' hac hac
        · exact .inr ⟨a, a', rfl, rfl, ha', hle⟩
        · exact absurd (hle.trans hac') hac
        · exact .inr ⟨c, a', rfl, rfl, ha', hac⟩
        · exact .inl rfl
  · simp only [Lib.takeMin]
    rcases ha with rfl | ⟨ha', hle'⟩
    · split_ifs with hac hac' hac'
      · exact .inl rfl
      · exact .inr ⟨a', c', rfl, rfl, hc', (not_le.mp hac').le⟩
      · exact absurd (hac'.trans hle) hac
      · exact .inr ⟨c, c', rfl, rfl, hc', hle⟩
    · split_ifs with hac hac' hac'
      · exact .inr ⟨a, a', rfl, rfl, ha', hle'⟩
      · exact .inr ⟨a, c', rfl, rfl, hc', (not_le.mp hac').le.trans hle'⟩
      · exact .inr ⟨c, a', rfl, rfl, ha', hac'.trans hle⟩
      · exact .inr ⟨c, c', rfl, rfl, hc', hle⟩

/-! ### Loops that keep the first of the least -/

/-- One round of a loop that keeps an element with its key, and lets a later one take its place
when its key is less. -/
def keepLess (key : α → β) (best : α × β) (a : α) : α × β :=
  if key a < best.2 then (a, key a) else best

/-- The element is least, and the first one that is. -/
structure FirstMin (key : α → β) (before : List α) (a : α) (after : List α) : Prop where
  lt_before : ∀ b ∈ before, key a < key b
  le_after : ∀ b ∈ after, key a ≤ key b

lemma FirstMin.le {before after : List α} {a b : α} (h : FirstMin key before a after)
    (hb : b ∈ before ++ a :: after) : key a ≤ key b := by
  rcases List.mem_append.mp hb with hb | hb
  · exact (h.lt_before b hb).le
  · rcases List.mem_cons.mp hb with rfl | hb
    · exact le_rfl
    · exact h.le_after b hb

/-- From a bound above all keys the loop ends with the first of the least elements. -/
theorem exists_firstMin {l : List α} (hne : l ≠ []) {c : α} {bound : β}
    (hbound : ∀ b ∈ l, key b < bound) :
    ∃ before a after, l = before ++ a :: after ∧ FirstMin key before a after ∧
      l.foldl (keepLess key) (c, bound) = (a, key a) := by
  induction l using List.reverseRecOn with
  | nil => exact absurd rfl hne
  | append_singleton l x ih =>
    rw [List.foldl_append, List.foldl_cons, List.foldl_nil]
    by_cases hl : l = []
    · subst hl
      refine ⟨[], x, [], rfl, ⟨by simp, by simp⟩, if_pos (hbound x ?_)⟩
      exact List.mem_append_right _ (List.mem_singleton_self x)
    · obtain ⟨before, a, after, rfl, ha, hfold⟩ :=
        ih hl fun b hb => hbound b (List.mem_append_left _ hb)
      rw [hfold, keepLess]
      split_ifs with hlt
      · exact ⟨_, x, [], rfl, ⟨fun b hb => hlt.trans_le (ha.le hb), by simp⟩, rfl⟩
      · refine ⟨before, a, after ++ [x], by simp, ⟨ha.lt_before, fun b hb => ?_⟩, rfl⟩
        rcases List.mem_append.mp hb with hb | hb
        · exact ha.le_after b hb
        · rw [List.mem_singleton.mp hb]
          exact not_lt.mp hlt

/-- In a list in ascending order, elements with the same least key come after the first. -/
lemma FirstMin.lt_or_eq [Preorder α] {before after : List α} {a b : α}
    (h : FirstMin key before a after) (hsorted : (before ++ a :: after).Pairwise (· < ·))
    (hb : b ∈ before ++ a :: after) : key a < key b ∨ key a = key b ∧ a ≤ b := by
  rcases List.mem_append.mp hb with hb | hb
  · exact .inl (h.lt_before b hb)
  · rcases List.mem_cons.mp hb with rfl | hb
    · exact .inr ⟨rfl, le_rfl⟩
    · have hab : a < b := by
        have htail := (List.pairwise_append.mp hsorted).2.1
        exact (List.pairwise_cons.mp htail).1 b hb
      exact (h.le_after b hb).lt_or_eq.imp_right fun heq => ⟨heq, hab.le⟩

end Lib
