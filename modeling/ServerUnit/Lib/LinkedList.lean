import ServerUnit.Lib.Heap
import Mathlib.Data.Finset.Card
import Mathlib.Data.Finset.Range
import Mathlib.Data.List.Nodup

/-!
# Singly linked lists

A linked list is the address of its first node, and a node has the address of the next one. The
nodes that are reached from an address, with their values, form a chain. A chain that ends has no
node twice, so that a walk along it meets fewer nodes than were ever allocated.
-/

namespace Lib

variable {α : Type}

structure Node (α : Type) where
  value : α
  next : Option ℕ
  deriving DecidableEq, Repr

/-- Walk along the `next` pointers to the last node. A walk of more steps than there are nodes is
in a cycle and never ends. -/
def lastNode (h : Heap (Node α)) : ℕ → ℕ → Outcome ℕ
  | 0, _ => .error .undefined
  | fuel + 1, p => do
    let node ← h.deref p
    match node.next with
    | none   => return p
    | some q => lastNode h fuel q

/-- From a pointer on, the list has these nodes with these values, and then ends. -/
inductive Chain (h : Heap (Node α)) : Option ℕ → List (ℕ × α) → Prop
  | nil : Chain h none []
  | cons {p : ℕ} {a : α} {next : Option ℕ} {l : List (ℕ × α)} (hp : h.get p = some ⟨a, next⟩)
      (htail : Chain h next l) : Chain h (some p) ((p, a) :: l)

namespace Chain

variable {h h' : Heap (Node α)} {o : Option ℕ} {p q : ℕ} {a b : α} {l l' : List (ℕ × α)}

lemma eq_nil (hc : Chain h none l) : l = [] := by
  cases hc
  rfl

/-- The nodes are determined by the pointer. -/
lemma unique (hc : Chain h o l) (hc' : Chain h o l') : l = l' := by
  induction hc generalizing l' with
  | nil => exact hc'.eq_nil.symm
  | cons hp _ ih =>
    cases hc' with
    | cons hp' htail' =>
      rw [hp, Option.some.injEq, Node.mk.injEq] at hp'
      obtain ⟨rfl, rfl⟩ := hp'
      rw [ih htail']

/-- Every node has its own chain, which is not longer. -/
lemma of_mem (hc : Chain h o l) (hq : q ∈ l.map Prod.fst) :
    ∃ l', Chain h (some q) l' ∧ l'.length ≤ l.length := by
  induction hc with
  | nil => simp at hq
  | cons hp htail ih =>
    rw [List.map_cons, List.mem_cons] at hq
    rcases hq with rfl | hq
    · exact ⟨_, .cons hp htail, le_rfl⟩
    · obtain ⟨l', hl', hle⟩ := ih hq
      exact ⟨l', hl', hle.trans (Nat.le_succ _)⟩

lemma lt_next (hc : Chain h o l) (hq : q ∈ l.map Prod.fst) : q < h.next := by
  obtain ⟨l', hl', -⟩ := hc.of_mem hq
  cases hl' with
  | cons hp _ => exact Heap.lt_next_of_get hp

/-- A node is not met again further on. -/
lemma notMem_tail (hc : Chain h (some p) ((p, a) :: l)) : p ∉ l.map Prod.fst := by
  intro hmem
  cases hc with
  | cons hp htail =>
    obtain ⟨l', hl', hle⟩ := htail.of_mem hmem
    have heq := hl'.unique (.cons hp htail)
    rw [heq, List.length_cons] at hle
    exact Nat.not_succ_le_self _ hle

lemma nodup (hc : Chain h o l) : (l.map Prod.fst).Nodup := by
  induction hc with
  | nil => exact List.nodup_nil
  | cons hp htail ih => exact List.nodup_cons.mpr ⟨(Chain.cons hp htail).notMem_tail, ih⟩

lemma length_le_next (hc : Chain h o l) : l.length ≤ h.next := by
  have hsub : (l.map Prod.fst).toFinset ⊆ Finset.range h.next := by
    intro q hq
    exact Finset.mem_range.mpr (hc.lt_next (List.mem_toFinset.mp hq))
  have hcard := Finset.card_le_card hsub
  rwa [List.toFinset_card_of_nodup hc.nodup, List.length_map, Finset.card_range] at hcard

/-- A heap with the same nodes has the same chain. -/
lemma congr (hc : Chain h o l) (hsame : ∀ q ∈ l.map Prod.fst, h'.get q = h.get q) :
    Chain h' o l := by
  induction hc with
  | nil => exact .nil
  | @cons p a next l hp htail ih =>
    have hp' : h'.get p = h.get p := hsame p List.mem_cons_self
    refine .cons (hp'.trans hp) (ih fun q hq => ?_)
    exact hsame q (List.mem_cons_of_mem _ hq)

/-! ### The end of the list -/

lemma lastNode_eq (hc : Chain h (some p) (l ++ [(q, b)])) {fuel : ℕ} (hfuel : l.length < fuel) :
    lastNode h fuel p = .ok q ∧ h.get q = some ⟨b, none⟩ := by
  induction l generalizing p fuel with
  | nil =>
    obtain ⟨fuel, rfl⟩ := Nat.exists_eq_succ_of_ne_zero (Nat.ne_of_gt hfuel)
    cases hc with
    | cons hp htail =>
      cases htail
      exact ⟨by simp [lastNode, Heap.deref, hp, Outcome.ofOption, pure, Except.pure], hp⟩
  | cons x l ih =>
    obtain ⟨fuel, rfl⟩ := Nat.exists_eq_succ_of_ne_zero (Nat.ne_of_gt (Nat.zero_lt_of_lt hfuel))
    cases hc with
    | @cons _ a next _ hp htail =>
      cases next with
      | none => exact absurd htail.eq_nil (by simp)
      | some p' =>
        obtain ⟨hlast, hq⟩ := ih htail (Nat.lt_of_succ_lt_succ hfuel)
        exact ⟨by simp [lastNode, Heap.deref, hp, Outcome.ofOption, hlast], hq⟩

/-- A new node that the last one points to is at the end of the list. -/
lemma concat (hc : Chain h o (l ++ [(q, b)])) :
    Chain ((h.alloc ⟨a, none⟩).put q ⟨b, some h.next⟩) o (l ++ [(q, b), (h.next, a)]) := by
  induction l generalizing o with
  | nil =>
    cases hc with
    | cons hp htail =>
      cases htail
      refine .cons (Heap.get_put_self (Heap.get_alloc_of_get hp)) (.cons ?_ .nil)
      rw [Heap.get_put_of_ne (Heap.lt_next_of_get hp).ne', Heap.get_alloc_self]
  | cons x l ih =>
    have hnodup := hc.nodup
    cases hc with
    | @cons p c next _ hp htail =>
      refine .cons ?_ (ih htail)
      have hne : p ≠ q := by
        rintro rfl
        simp at hnodup
      rw [Heap.get_put_of_ne hne, Heap.get_alloc_of_get hp]

/-- A list of one new node. -/
lemma singleton (h : Heap (Node α)) (a : α) :
    Chain (h.alloc ⟨a, none⟩) (some h.next) [(h.next, a)] :=
  .cons (Heap.get_alloc_self h _) .nil

/-! ### The head of the list -/

/-- The tail stands without the first node. -/
lemma free_head {next : Option ℕ} (hp : h.get p = some ⟨a, next⟩) (hc : Chain h next l) :
    Chain (h.free p) next l := by
  refine hc.congr fun q hq => Heap.get_free_of_ne ?_
  rintro rfl
  exact (Chain.cons hp hc).notMem_tail hq

end Chain

end Lib
