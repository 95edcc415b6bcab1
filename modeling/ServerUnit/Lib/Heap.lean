import ServerUnit.Lib.Outcome
import Mathlib.Order.Nat
import Mathlib.Data.List.Basic

/-!
# Heaps of objects

Objects of one type, addressed by the order of their allocation. An address is never used
twice, so two objects are the same exactly when their addresses are. Reading an address
that was never allocated, or was freed, is undefined.
-/

namespace Lib

variable {α : Type}

/-- Objects allocated so far; a freed one leaves `none` behind. -/
structure Heap (α : Type) where
  cells : List (Option α)
  deriving DecidableEq, Repr

namespace Heap

/-- The heap with nothing allocated. -/
def empty : Heap α := ⟨[]⟩

/-- The first address that was never used. -/
def next (h : Heap α) : ℕ := h.cells.length

/-- The object at an address, if it is allocated. -/
def get (h : Heap α) (p : ℕ) : Option α := h.cells[p]?.join

/-- Allocate an object: its address is `h.next`. -/
def alloc (h : Heap α) (a : α) : Heap α := ⟨h.cells ++ [some a]⟩

/-- Overwrite the object at an address. -/
def put (h : Heap α) (p : ℕ) (a : α) : Heap α := ⟨h.cells.set p (some a)⟩

/-- Destroy the object at an address. -/
def free (h : Heap α) (p : ℕ) : Heap α := ⟨h.cells.set p none⟩

/-- Follow a pointer. -/
def deref (h : Heap α) (p : ℕ) : Outcome α := Outcome.ofOption (h.get p)

@[simp] lemma deref_eq_ok {h : Heap α} {p : ℕ} {a : α} : h.deref p = .ok a ↔ h.get p = some a :=
  Outcome.ofOption_eq_ok

lemma returnsIf_deref {I : Prop} {h : Heap α} {p : ℕ} (hp : I → ∃ a, h.get p = some a) :
    (h.deref p).ReturnsIf I := .ofOption hp

@[simp] lemma get_empty (p : ℕ) : (empty : Heap α).get p = none := rfl

lemma lt_next_of_get {h : Heap α} {p : ℕ} {a : α} (hp : h.get p = some a) : p < h.next := by
  by_contra hn
  simp [get, next] at hp hn
  simp [hn] at hp

@[simp] lemma get_next (h : Heap α) : h.get h.next = none := by simp [get, next]

@[simp] lemma next_empty : (empty : Heap α).next = 0 := rfl

@[simp] lemma next_alloc (h : Heap α) (a : α) : (h.alloc a).next = h.next + 1 := by
  simp [next, alloc]

@[simp] lemma next_put (h : Heap α) (p : ℕ) (a : α) : (h.put p a).next = h.next := by
  simp [next, put]

@[simp] lemma next_free (h : Heap α) (p : ℕ) : (h.free p).next = h.next := by
  simp [next, free]

@[simp] lemma get_alloc_self (h : Heap α) (a : α) : (h.alloc a).get h.next = some a := by
  simp [get, alloc, next]

lemma get_alloc_of_ne {h : Heap α} {a : α} {p : ℕ} (hp : p ≠ h.next) :
    (h.alloc a).get p = h.get p := by
  simp only [next] at hp
  rcases Nat.lt_or_gt_of_ne hp with hlt | hgt
  · simp [get, alloc, List.getElem?_append_left hlt]
  · have h₁ : h.cells[p]? = none := List.getElem?_eq_none hgt.le
    have h₂ : (h.cells ++ [some a])[p]? = none := by
      apply List.getElem?_eq_none
      simp only [List.length_append, List.length_singleton]
      omega
    simp [get, alloc, h₁, h₂]

/-- Allocation leaves every allocated object where it is. -/
lemma get_alloc_of_get {h : Heap α} {a b : α} {p : ℕ} (hp : h.get p = some b) :
    (h.alloc a).get p = some b := by
  rw [get_alloc_of_ne (lt_next_of_get hp).ne, hp]

lemma get_put_self {h : Heap α} {p : ℕ} {a b : α} (hp : h.get p = some b) :
    (h.put p a).get p = some a := by
  have := lt_next_of_get hp
  simp only [next] at this
  simp [get, put, this]

@[simp] lemma get_put_of_ne {h : Heap α} {p q : ℕ} {a : α} (hq : q ≠ p) :
    (h.put p a).get q = h.get q := by
  simp [get, put, List.getElem?_set_ne (Ne.symm hq)]

/-- Storing what is there changes nothing. -/
lemma put_self {h : Heap α} {p : ℕ} {a : α} (hp : h.get p = some a) : h.put p a = h := by
  have hlt := lt_next_of_get hp
  simp only [next] at hlt
  have hget : h.cells[p] = some a := by simpa [get, hlt] using hp
  simp [put, ← hget]

/-- The last store counts. -/
@[simp] lemma put_put (h : Heap α) (p : ℕ) (a b : α) : (h.put p a).put p b = h.put p b := by
  simp [put]

lemma get_free_self (h : Heap α) (p : ℕ) : (h.free p).get p = none := by
  simp only [get, free, List.getElem?_set, if_true]
  split_ifs <;> rfl

@[simp] lemma get_free_of_ne {h : Heap α} {p q : ℕ} (hq : q ≠ p) :
    (h.free p).get q = h.get q := by
  simp [get, free, List.getElem?_set_ne (Ne.symm hq)]

/-- An overwritten heap read back: the new object at `p`, the old ones elsewhere. -/
lemma get_put {h : Heap α} {p q : ℕ} {a b : α} (hp : h.get p = some b) :
    (h.put p a).get q = if q = p then some a else h.get q := by
  split_ifs with hq
  · rw [hq, get_put_self hp]
  · exact get_put_of_ne hq

/-- Heaps with the same objects at the same addresses are the same. -/
lemma ext_get {h h' : Heap α} (hnext : h'.next = h.next) (hget : ∀ p, h'.get p = h.get p) :
    h' = h := by
  obtain ⟨cells⟩ := h
  obtain ⟨cells'⟩ := h'
  congr 1
  refine List.ext_getElem hnext fun p hp hp' => ?_
  simpa [get, hp, hp'] using hget p

/-! ### Counting objects -/

/-- How many objects there are of a kind. -/
def countP (h : Heap α) (p : α → Bool) : ℕ := h.cells.countP fun o => o.any p

section CountP

variable {h : Heap α} {p : α → Bool} {a b : α} {q : ℕ}

lemma getElem_cells (ha : h.get q = some a) :
    ∃ hlt : q < h.cells.length, h.cells[q] = some a := by
  have hlt := lt_next_of_get ha
  simp only [next] at hlt
  exact ⟨hlt, by simpa [get, hlt] using ha⟩

@[simp] lemma countP_empty : (empty : Heap α).countP p = 0 := rfl

lemma countP_alloc : (h.alloc a).countP p = h.countP p + if p a then 1 else 0 := by
  simp [countP, alloc]

lemma countP_pos (ha : h.get q = some a) (hp : p a = true) : 0 < h.countP p := by
  obtain ⟨hlt, hcell⟩ := getElem_cells ha
  refine List.countP_pos_iff.mpr ⟨some a, ?_, hp⟩
  rw [← hcell]
  exact List.getElem_mem hlt

lemma exists_of_countP_pos (hpos : 0 < h.countP p) : ∃ q a, h.get q = some a ∧ p a = true := by
  obtain ⟨o, ho, hp⟩ := List.countP_pos_iff.mp hpos
  obtain ⟨q, hq, rfl⟩ := List.mem_iff_getElem.mp ho
  obtain ⟨a, ha, hp⟩ := (Option.any_eq_true _ _).mp hp
  exact ⟨q, a, by simp [get, hq, ha], hp⟩

/-- An object takes the place of another one. -/
lemma countP_put (hb : h.get q = some b) :
    (h.put q a).countP p + (if p b then 1 else 0) = h.countP p + if p a then 1 else 0 := by
  obtain ⟨hlt, hcell⟩ := getElem_cells hb
  have hle : (if p b then 1 else 0) ≤ h.countP p := by
    split_ifs with hpb
    · exact countP_pos hb hpb
    · exact Nat.zero_le _
  have hset : (h.put q a).countP p =
      h.countP p - (if p b then 1 else 0) + if p a then 1 else 0 := by
    simp [countP, put, List.countP_set hlt, hcell]
  omega

/-- Different objects of the kind are counted apart. -/
lemma length_le_countP {l : List ℕ} (hl : l.Nodup)
    (hall : ∀ q ∈ l, ∃ a, h.get q = some a ∧ p a = true) : l.length ≤ h.countP p := by
  induction l generalizing h with
  | nil => exact Nat.zero_le _
  | cons q l ih =>
    obtain ⟨hq, hl⟩ := List.nodup_cons.mp hl
    obtain ⟨a, ha, hp⟩ := hall q List.mem_cons_self
    have hrest : l.length ≤ (h.free q).countP p := by
      refine ih hl fun r hr => ?_
      obtain ⟨b, hb, hpb⟩ := hall r (List.mem_cons_of_mem q hr)
      have hne : r ≠ q := by
        rintro rfl
        exact hq hr
      exact ⟨b, by rw [get_free_of_ne hne, hb], hpb⟩
    obtain ⟨hlt, hcell⟩ := getElem_cells ha
    have hfree : (h.free q).countP p = h.countP p - 1 := by
      simp [countP, free, List.countP_set hlt, hcell, hp]
    have hpos := countP_pos ha hp
    rw [List.length_cons]
    omega

/-- There is no other object of the kind. -/
lemma mem_of_countP_le {l : List ℕ} (hl : l.Nodup)
    (hall : ∀ q ∈ l, ∃ a, h.get q = some a ∧ p a = true) (hle : h.countP p ≤ l.length)
    (ha : h.get q = some a) (hp : p a = true) : q ∈ l := by
  by_contra hq
  have hcons := length_le_countP (p := p) (List.nodup_cons.mpr ⟨hq, hl⟩) (h := h) (by
    intro r hr
    rcases List.mem_cons.mp hr with rfl | hr
    · exact ⟨a, ha, hp⟩
    · exact hall r hr)
  rw [List.length_cons] at hcons
  omega

end CountP

end Heap

/-- Two objects that may be there look the same: where one is there, so is the other. -/
lemma exists_of_map_eq {β : Type*} {f : α → β} {o o' : Option α} {a : α} (h : o'.map f = o.map f)
    (ha : o = some a) : ∃ a', o' = some a' ∧ f a' = f a := by
  rw [ha, Option.map_some] at h
  exact Option.map_eq_some_iff.mp h

end Lib
