import Mathlib.Data.List.InsertIdx
import Mathlib.Data.List.Pairwise

/-!
# Insertion into an ordered list

In a list that is ordered by a strict order, an element that compares with all others has one place,
behind those that precede it. A list is ordered exactly when each of its elements precedes what comes
after it, however many are taken off its front.
-/

namespace Lib

variable {α : Type*} {r : α → α → Prop} {before : α → Bool} {l : List α} {a : α}

/-- The elements that precede the new one come first in an ordered list. -/
lemma exists_split_of_pairwise (htrans : ∀ b c, r b c → r c a → r b a) (hl : l.Pairwise r)
    (hbefore : ∀ b ∈ l, before b = true → r b a) (hafter : ∀ b ∈ l, before b = false → ¬ r b a) :
    ∃ l₁ l₂, l = l₁ ++ l₂ ∧ (∀ b ∈ l₁, before b = true) ∧ ∀ b ∈ l₂, before b = false := by
  induction l with
  | nil => exact ⟨[], [], rfl, by simp, by simp⟩
  | cons c l ih =>
    obtain ⟨hc, hl⟩ := List.pairwise_cons.mp hl
    cases hbc : before c with
    | true =>
      obtain ⟨l₁, l₂, rfl, h₁, h₂⟩ := ih hl
        (fun b hb => hbefore b (List.mem_cons_of_mem _ hb))
        (fun b hb => hafter b (List.mem_cons_of_mem _ hb))
      exact ⟨c :: l₁, l₂, rfl, List.forall_mem_cons.mpr ⟨hbc, h₁⟩, h₂⟩
    | false =>
      refine ⟨[], c :: l, rfl, by simp, List.forall_mem_cons.mpr ⟨hbc, fun b hb => ?_⟩⟩
      by_contra hb'
      have hba := hbefore b (List.mem_cons_of_mem _ hb) (eq_true_of_ne_false hb')
      exact hafter c List.mem_cons_self hbc (htrans c b (hc b hb) hba)

/-- With the new element between two parts, the list is ordered when the first part precedes it and
the second part does not. -/
lemma pairwise_append_cons_iff {l₁ l₂ : List α} (hl : (l₁ ++ l₂).Pairwise r) :
    (l₁ ++ a :: l₂).Pairwise r ↔ (∀ b ∈ l₁, r b a) ∧ ∀ b ∈ l₂, r a b := by
  obtain ⟨h₁, h₂, h₁₂⟩ := List.pairwise_append.mp hl
  simp only [List.pairwise_append, List.pairwise_cons, List.forall_mem_cons, h₁, h₂, true_and,
    and_true]
  constructor
  · rintro ⟨ha, hb⟩
    exact ⟨fun b hmem => (hb b hmem).1, ha⟩
  · rintro ⟨hb, ha⟩
    exact ⟨ha, fun b hmem => ⟨hb b hmem, h₁₂ b hmem⟩⟩

/-- The one place at which an ordered list stays ordered. -/
theorem pairwise_insertIdx_iff (htrans : ∀ b c, r b c → r c a → r b a) (hl : l.Pairwise r)
    (hbefore : ∀ b ∈ l, before b = true → r b a ∧ ¬ r a b)
    (hafter : ∀ b ∈ l, before b = false → r a b ∧ ¬ r b a) {k : ℕ} (hk : k ≤ l.length) :
    (l.insertIdx k a).Pairwise r ↔ k = (l.filter before).length := by
  obtain ⟨m₁, m₂, heq, rfl, hinsert⟩ := List.exists_of_modifyTailIdx (List.cons a) hk
  rw [List.insertIdx, hinsert]
  clear hinsert hk
  subst heq
  rw [pairwise_append_cons_iff hl]
  constructor
  · rintro ⟨h₁, h₂⟩
    have hall : ∀ b ∈ m₁, before b = true := by
      intro b hb
      by_contra hnot
      exact (hafter b (List.mem_append_left _ hb) (eq_false_of_ne_true hnot)).2 (h₁ b hb)
    have hnone : ∀ b ∈ m₂, ¬ before b = true := by
      intro b hb htrue
      exact (hbefore b (List.mem_append_right _ hb) htrue).2 (h₂ b hb)
    rw [List.filter_append, List.filter_eq_self.mpr hall, List.filter_eq_nil_iff.mpr hnone,
      List.append_nil]
  · intro hlength
    obtain ⟨l₁, l₂, hsplit, hall, hnone⟩ := exists_split_of_pairwise htrans hl
      (fun b hb hbb => (hbefore b hb hbb).1) (fun b hb hbb => (hafter b hb hbb).2)
    have hnone' : ∀ b ∈ l₂, ¬ before b = true := by
      intro b hb
      rw [hnone b hb]
      exact Bool.false_ne_true
    rw [hsplit, List.filter_append, List.filter_eq_self.mpr hall,
      List.filter_eq_nil_iff.mpr hnone', List.append_nil] at hlength
    obtain ⟨rfl, rfl⟩ := List.append_inj hsplit hlength
    exact ⟨fun b hb => (hbefore b (List.mem_append_left _ hb) (hall b hb)).1,
      fun b hb => (hafter b (List.mem_append_right _ hb) (hnone b hb)).1⟩

/-- A list is ordered when whatever is at the front precedes the rest. -/
theorem pairwise_iff_forall_drop : l.Pairwise r ↔
    ∀ k b rest, l.drop k = b :: rest → ∀ c ∈ rest, r b c := by
  induction l with
  | nil => simp
  | cons a l ih =>
    rw [List.pairwise_cons, ih]
    constructor
    · rintro ⟨ha, hl⟩ k b rest hdrop
      cases k with
      | zero =>
        cases hdrop
        exact ha
      | succ k => exact hl k b rest hdrop
    · intro h
      exact ⟨h 0 a l rfl, fun k b rest hdrop => h (k + 1) b rest hdrop⟩

end Lib
