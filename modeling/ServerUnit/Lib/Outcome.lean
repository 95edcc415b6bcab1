import Mathlib.Data.List.Forall2
import Mathlib.Tactic.Common

/-!
# Outcomes of sequential calls

A call on shared mutable data either returns a value or fails to return normally.
`Outcome` records which, so that a function translated from imperative code states its
faulty paths next to its normal ones. Counting semaphores are included: a wait on an
exhausted semaphore never returns.
-/

namespace Lib

variable {α β : Type}

/-- The ways in which a call can fail to return normally. -/
inductive Fault where
  /-- A wait on a semaphore of value `0`, with nobody else to post it. -/
  | blocked
  /-- Undefined behaviour: a null, dangling or uninitialised pointer was followed. -/
  | undefined
  /-- An exception left the call. -/
  | exception
  /-- The environment does not make this call in this state. -/
  | disabled
  deriving DecidableEq, Repr

/-! ### Lists related one by one -/

lemma exists_of_forall₂_left {R : α → β → Prop} {as : List α} {bs : List β} {a : α}
    (h : List.Forall₂ R as bs) (ha : a ∈ as) : ∃ b ∈ bs, R a b := by
  induction h with
  | nil => cases ha
  | cons hR _ ih =>
    rcases List.mem_cons.mp ha with rfl | ha
    · exact ⟨_, List.mem_cons_self, hR⟩
    · obtain ⟨b, hb, hR⟩ := ih ha
      exact ⟨b, List.mem_cons_of_mem _ hb, hR⟩

lemma exists_of_forall₂_right {R : α → β → Prop} {as : List α} {bs : List β} {b : β}
    (h : List.Forall₂ R as bs) (hb : b ∈ bs) : ∃ a ∈ as, R a b :=
  exists_of_forall₂_left h.flip hb

/-! ### Outcomes -/

/-- What a call does: return a value, or fail. -/
abbrev Outcome (α : Type) := Except Fault α

namespace Outcome

@[simp] lemma bind_eq_ok {x : Outcome α} {f : α → Outcome β} {b : β} :
    (x >>= f) = .ok b ↔ ∃ a, x = .ok a ∧ f a = .ok b := by
  cases x <;> simp [bind, Except.bind]

@[simp] lemma pure_eq_ok {a b : α} : (pure a : Outcome α) = .ok b ↔ a = b := by
  simp [pure, Except.pure]

@[simp] lemma ok_bind (a : α) (f : α → Outcome β) : ((.ok a : Outcome α) >>= f) = f a := rfl

@[simp] lemma error_bind (e : Fault) (f : α → Outcome β) :
    ((.error e : Outcome α) >>= f) = .error e := rfl

@[simp] lemma map_eq_ok {x : Outcome α} {f : α → β} {b : β} :
    (f <$> x) = .ok b ↔ ∃ a, x = .ok a ∧ f a = b := by
  cases x <;> simp [Functor.map, Except.map]

/-- A list of calls returns when each of them does. -/
lemma mapM_eq_ok {f : α → Outcome β} {as : List α} {bs : List β} :
    as.mapM f = .ok bs ↔ List.Forall₂ (fun a b => f a = .ok b) as bs := by
  induction as generalizing bs with
  | nil => rw [List.mapM_nil, pure_eq_ok, List.forall₂_nil_left_iff, eq_comm]
  | cons a as ih =>
    simp only [List.mapM_cons, bind_eq_ok, pure_eq_ok, ih, List.forall₂_cons_left_iff]
    constructor
    · rintro ⟨b, hb, bs, hbs, rfl⟩
      exact ⟨b, bs, hb, hbs, rfl⟩
    · rintro ⟨b, bs, hb, hbs, rfl⟩
      exact ⟨b, hb, bs, hbs, rfl⟩

/-- Some list of values is returned when each call returns some value. -/
lemma exists_mapM_eq_ok {f : α → Outcome β} {as : List α} :
    (∃ bs, as.mapM f = .ok bs) ↔ ∀ a ∈ as, ∃ b, f a = .ok b := by
  constructor
  · rintro ⟨bs, hbs⟩ a ha
    obtain ⟨b, -, hb⟩ := exists_of_forall₂_left (mapM_eq_ok.mp hbs) ha
    exact ⟨b, hb⟩
  · intro h
    induction as with
    | nil => exact ⟨[], rfl⟩
    | cons a as ih =>
      obtain ⟨b, hb⟩ := h a List.mem_cons_self
      obtain ⟨bs, hbs⟩ := ih fun a ha => h a (List.mem_cons_of_mem _ ha)
      exact ⟨b :: bs, mapM_eq_ok.mpr (.cons hb (mapM_eq_ok.mp hbs))⟩

/-- The call never returns. -/
def isBlocked : Outcome α → Bool
  | .error .blocked => true
  | _ => false

/-- A closed call is evaluated to see that it returns a value. -/
lemma exists_ok_and {φ : Type} {x : Except φ α} {P : α → Prop} (hx : x.toBool = true)
    (hP : ∀ a, x = .ok a → P a) : ∃ a, x = .ok a ∧ P a := by
  cases x with
  | error e => simp [Except.toBool] at hx
  | ok a => exact ⟨a, rfl, hP a rfl⟩

/-- A closed call is evaluated to see that it returns a value with a decidable property. -/
lemma exists_ok_of_eval {φ : Type} {x : Except φ α} {P : α → Prop} [DecidablePred P]
    (h : x.toOption.any (fun a => decide (P a)) = true) : ∃ a, x = .ok a ∧ P a := by
  cases x with
  | error e => simp [Except.toOption] at h
  | ok a => exact ⟨a, rfl, by simpa [Except.toOption] using h⟩

/-- A value that may be absent, where following an absent one is undefined. -/
def ofOption : Option α → Outcome α
  | some a => .ok a
  | none   => .error .undefined

@[simp] lemma ofOption_eq_ok {o : Option α} {a : α} : ofOption o = .ok a ↔ o = some a := by
  cases o <;> simp [ofOption]

/-- Continue only when the environment may make the call. -/
def guard (p : Prop) [Decidable p] (x : Outcome α) : Outcome α :=
  if p then x else .error .disabled

@[simp] lemma guard_eq_ok {p : Prop} [Decidable p] {x : Outcome α} {a : α} :
    guard p x = .ok a ↔ p ∧ x = .ok a := by
  by_cases h : p <;> simp [guard, h]

/-- A call that does not return fails in one of these ways. -/
def FailsWith (F : Fault → Prop) (x : Outcome α) : Prop := ∀ fault, x = .error fault → F fault

section FailsWith

variable {F : Fault → Prop}

lemma FailsWith.ok (a : α) : FailsWith F (.ok a) := by
  intro fault h
  cases h

lemma FailsWith.error {fault : Fault} (h : F fault) :
    FailsWith F (.error fault : Outcome α) := by
  intro fault' heq
  cases heq
  exact h

lemma FailsWith.bind {x : Outcome α} {f : α → Outcome β} (hx : x.FailsWith F)
    (hf : ∀ a, x = .ok a → (f a).FailsWith F) : (x >>= f).FailsWith F := by
  cases x with
  | error e => exact .error (hx e rfl)
  | ok a => exact hf a rfl

lemma FailsWith.mapM {f : α → Outcome β} {as : List α} (h : ∀ a ∈ as, (f a).FailsWith F) :
    FailsWith F (as.mapM f) := by
  induction as with
  | nil => exact .ok []
  | cons a as ih =>
    rw [List.mapM_cons]
    refine (h a List.mem_cons_self).bind fun _ _ => ?_
    exact (ih fun a ha => h a (List.mem_cons_of_mem _ ha)).bind fun _ _ => .ok _

end FailsWith

/-- The call returns, unless the environment does not make it. -/
def Safe (x : Outcome α) : Prop := ∀ fault, x = .error fault → fault = .disabled

lemma Safe.ok (a : α) : Safe (.ok a) := FailsWith.ok a

lemma Safe.of_ok {x : Outcome α} (h : ∃ a, x = .ok a) : x.Safe := by
  obtain ⟨a, rfl⟩ := h
  exact .ok a

lemma Safe.disabled : Safe (.error .disabled : Outcome α) :=
  FailsWith.error (F := (· = .disabled)) rfl

lemma Safe.bind {x : Outcome α} {f : α → Outcome β} (hx : x.Safe)
    (hf : ∀ a, x = .ok a → (f a).Safe) : (x >>= f).Safe := FailsWith.bind hx hf

lemma Safe.guard {p : Prop} [Decidable p] {x : Outcome α} (hx : p → x.Safe) :
    (Outcome.guard p x).Safe := by
  by_cases hp : p
  · rw [Outcome.guard, if_pos hp]
    exact hx hp
  · rw [Outcome.guard, if_neg hp]
    exact .disabled

/-- The call returns if `I` holds, and in no case does an exception leave it. -/
abbrev ReturnsIf (I : Prop) (x : Outcome α) : Prop :=
  x.FailsWith fun fault => fault ≠ .exception ∧ ¬ I

section ReturnsIf

variable {I J P : Prop} {x : Outcome α} {f : α → Outcome β}

lemma ReturnsIf.of_ok (h : ∃ a, x = .ok a) : x.ReturnsIf I := by
  obtain ⟨a, rfl⟩ := h
  exact .ok a

/-- A call from which no exception leaves in any case returns when it is known to. -/
lemma ReturnsIf.of_imp (h : x.ReturnsIf False) (hI : I → ∃ a, x = .ok a) : x.ReturnsIf I := by
  intro fault hfault
  refine ⟨(h fault hfault).1, fun hholds => ?_⟩
  obtain ⟨a, ha⟩ := hI hholds
  cases hfault.symm.trans ha

lemma ReturnsIf.ofOption {o : Option α} (h : I → ∃ a, o = some a) :
    (Outcome.ofOption o).ReturnsIf I := by
  cases o with
  | none =>
    have hI : ¬ I := by
      intro hI
      obtain ⟨a, ha⟩ := h hI
      cases ha
    exact FailsWith.error ⟨nofun, hI⟩
  | some a => exact .ok a

lemma ReturnsIf.mono (hx : x.ReturnsIf I) (h : J → I) : x.ReturnsIf J :=
  fun fault hfault => ⟨(hx fault hfault).1, fun hJ => (hx fault hfault).2 (h hJ)⟩

lemma ReturnsIf.exists_ok (h : x.ReturnsIf I) (hI : I) : ∃ a, x = .ok a := by
  cases x with
  | error fault => exact absurd hI (h fault rfl).2
  | ok a => exact ⟨a, rfl⟩

lemma ReturnsIf.ne_exception (h : x.ReturnsIf I) : x ≠ .error .exception :=
  fun heq => (h _ heq).1 rfl

/-- The call does not return, and if `I` holds then an exception leaves it. -/
def ThrowsIf (I : Prop) (x : Outcome α) : Prop :=
  ∃ fault, x = .error fault ∧ (I → fault = .exception)

lemma ThrowsIf.bind (h : x.ThrowsIf I) : (x >>= f).ThrowsIf I := by
  obtain ⟨fault, rfl, hfault⟩ := h
  exact ⟨fault, rfl, hfault⟩

lemma ThrowsIf.ne_ok (h : x.ThrowsIf I) (a : α) : x ≠ .ok a := by
  obtain ⟨fault, rfl, -⟩ := h
  exact nofun

lemma ThrowsIf.eq_exception (h : x.ThrowsIf I) (hI : I) : x = .error .exception := by
  obtain ⟨fault, rfl, hfault⟩ := h
  rw [hfault hI]

/-- An exception leaves the call when `P` holds, and only then. -/
structure ThrowsWhen (I P : Prop) (x : Outcome α) : Prop where
  returns : ¬ P → x.ReturnsIf I
  throws : P → x.ThrowsIf I

/-- What comes first does not throw. -/
lemma ReturnsIf.bind_throwsWhen (hx : x.ReturnsIf I)
    (hf : ∀ a, x = .ok a → (f a).ThrowsWhen I P) : (x >>= f).ThrowsWhen I P := by
  refine ⟨fun hP => hx.bind fun a ha => (hf a ha).returns hP, fun hP => ?_⟩
  cases x with
  | error fault => exact ⟨fault, rfl, fun hI => absurd hI (hx fault rfl).2⟩
  | ok a => exact (hf a rfl).throws hP

/-- What comes last does not throw. -/
lemma ThrowsWhen.bind (hx : x.ThrowsWhen I P) (hf : ∀ a, x = .ok a → (f a).ReturnsIf I) :
    (x >>= f).ThrowsWhen I P :=
  ⟨fun hP => (hx.returns hP).bind hf, fun hP => (hx.throws hP).bind⟩

lemma ThrowsWhen.mono (hx : x.ThrowsWhen I P) (h : J → I) : x.ThrowsWhen J P := by
  refine ⟨fun hP => (hx.returns hP).mono h, fun hP => ?_⟩
  obtain ⟨fault, heq, hfault⟩ := hx.throws hP
  exact ⟨fault, heq, fun hJ => hfault (h hJ)⟩

lemma ThrowsWhen.congr {Q : Prop} (hx : x.ThrowsWhen I P) (h : P ↔ Q) : x.ThrowsWhen I Q := by
  rwa [← propext h]

end ReturnsIf

end Outcome

/-! ### Counting semaphores -/

/-- Wait on a semaphore: take one unit, or block for ever. -/
def semWait : ℕ → Outcome ℕ
  | 0     => .error .blocked
  | n + 1 => .ok n

/-- Post a semaphore. -/
def semPost (n : ℕ) : ℕ := n + 1

@[simp] lemma semWait_eq_ok {n m : ℕ} : semWait n = .ok m ↔ n = m + 1 := by
  cases n <;> simp [semWait]

lemma Outcome.ReturnsIf.semWait {I : Prop} {n : ℕ} (h : I → 0 < n) : (semWait n).ReturnsIf I := by
  cases n with
  | zero => exact FailsWith.error ⟨nofun, fun hI => absurd (h hI) (Nat.lt_irrefl 0)⟩
  | succ n => exact .ok n

/-! ### Searching a list with a test that can fail -/

/-- Split a list at the first element that satisfies a fallible test. -/
def splitFirst (f : α → Outcome Bool) : List α → Outcome (Option (List α × α × List α))
  | []      => .ok none
  | a :: as => do
    if ← f a then
      return some ([], a, as)
    else
      match ← splitFirst f as with
      | none           => return none
      | some (l, b, r) => return some (a :: l, b, r)

/-- The split is where the list says it is: the test fails before it and holds at it. -/
lemma splitFirst_eq_some {f : α → Outcome Bool} {as l r : List α} {b : α}
    (h : splitFirst f as = .ok (some (l, b, r))) :
    as = l ++ b :: r ∧ (∀ a ∈ l, f a = .ok false) ∧ f b = .ok true := by
  induction as generalizing l with
  | nil => simp [splitFirst] at h
  | cons a as ih =>
    simp only [splitFirst, Outcome.bind_eq_ok] at h
    obtain ⟨t, ht, h⟩ := h
    cases t with
    | true =>
      simp only [if_true, Outcome.pure_eq_ok, Option.some.injEq, Prod.mk.injEq] at h
      obtain ⟨rfl, rfl, rfl⟩ := h
      exact ⟨rfl, by simp, ht⟩
    | false =>
      simp only [Bool.false_eq_true, if_false, Outcome.bind_eq_ok] at h
      obtain ⟨o, ho, h⟩ := h
      match o with
      | none => simp at h
      | some (l', b', r') =>
        simp only [Outcome.pure_eq_ok, Option.some.injEq, Prod.mk.injEq] at h
        obtain ⟨rfl, rfl, rfl⟩ := h
        obtain ⟨rfl, hl, hb⟩ := ih ho
        refine ⟨rfl, ?_, hb⟩
        intro x hx
        rcases List.mem_cons.mp hx with rfl | hx
        · exact ht
        · exact hl x hx

/-- No split: the test fails everywhere. -/
lemma splitFirst_eq_none {f : α → Outcome Bool} {as : List α}
    (h : splitFirst f as = .ok none) : ∀ a ∈ as, f a = .ok false := by
  induction as with
  | nil => simp
  | cons a as ih =>
    simp only [splitFirst, Outcome.bind_eq_ok] at h
    obtain ⟨t, ht, h⟩ := h
    cases t with
    | true => simp at h
    | false =>
      simp only [Bool.false_eq_true, if_false, Outcome.bind_eq_ok] at h
      obtain ⟨o, ho, h⟩ := h
      match o with
      | none =>
        intro x hx
        rcases List.mem_cons.mp hx with rfl | hx
        · exact ht
        · exact ih ho x hx
      | some (l', b', r') => simp at h

/-- The search completes when every test does. -/
lemma splitFirst_isOk {f : α → Outcome Bool} {as : List α} (h : ∀ a ∈ as, ∃ t, f a = .ok t) :
    ∃ o, splitFirst f as = .ok o := by
  induction as with
  | nil => exact ⟨none, rfl⟩
  | cons a as ih =>
    obtain ⟨t, ht⟩ := h a List.mem_cons_self
    obtain ⟨o, ho⟩ := ih fun b hb => h b (List.mem_cons_of_mem _ hb)
    cases t with
    | true => exact ⟨some ([], a, as), by simp [splitFirst, ht, pure, Except.pure]⟩
    | false =>
      match o with
      | none => exact ⟨none, by simp [splitFirst, ht, ho, pure, Except.pure]⟩
      | some (l, b, r) =>
        exact ⟨some (a :: l, b, r), by simp [splitFirst, ht, ho, pure, Except.pure]⟩

/-- The search fails only as a test does. -/
lemma Outcome.FailsWith.splitFirst {F : Fault → Prop} {f : α → Outcome Bool} {as : List α}
    (h : ∀ a ∈ as, (f a).FailsWith F) : (splitFirst f as).FailsWith F := by
  induction as with
  | nil => exact .ok none
  | cons a as ih =>
    rw [Lib.splitFirst]
    refine (h a List.mem_cons_self).bind fun t _ => ?_
    cases t with
    | true => exact .ok _
    | false =>
      refine (ih fun a ha => h a (List.mem_cons_of_mem _ ha)).bind fun o _ => ?_
      cases o with
      | none => exact .ok none
      | some found => exact .ok _

/-- Tests that agree on the list split it alike. -/
lemma splitFirst_congr {f g : α → Outcome Bool} {as : List α} (h : ∀ a ∈ as, f a = g a) :
    splitFirst f as = splitFirst g as := by
  induction as with
  | nil => rfl
  | cons a as ih =>
    rw [splitFirst, splitFirst, h a List.mem_cons_self,
      ih fun b hb => h b (List.mem_cons_of_mem _ hb)]

/-- What comes after the split does not matter. -/
lemma splitFirst_append_of_eq_some {f : α → Outcome Bool} {as l r : List α} {b : α}
    (h : splitFirst f as = .ok (some (l, b, r))) (bs : List α) :
    splitFirst f (as ++ bs) = .ok (some (l, b, r ++ bs)) := by
  induction as generalizing l with
  | nil => cases h
  | cons a as ih =>
    simp only [splitFirst, Outcome.bind_eq_ok] at h
    obtain ⟨t, ht, h⟩ := h
    simp only [List.cons_append, splitFirst, ht, Outcome.ok_bind]
    cases t with
    | true =>
      cases h
      rfl
    | false =>
      simp only [Bool.false_eq_true, if_false, Outcome.bind_eq_ok] at h ⊢
      obtain ⟨o, ho, h⟩ := h
      match o with
      | none => cases h
      | some (l', b', r') =>
        cases h
        exact ⟨_, ih ho, rfl⟩

/-- The search goes on behind a list without a match. -/
lemma splitFirst_append_of_eq_none {f : α → Outcome Bool} {as bs : List α}
    (h : splitFirst f as = .ok none) :
    splitFirst f (as ++ bs) = (splitFirst f bs).map fun o =>
      o.map fun (l, b, r) => (as ++ l, b, r) := by
  induction as with
  | nil =>
    rw [List.nil_append]
    cases splitFirst f bs with
    | error e => rfl
    | ok o => cases o <;> rfl
  | cons a as ih =>
    simp only [splitFirst, Outcome.bind_eq_ok] at h
    obtain ⟨t, ht, h⟩ := h
    cases t with
    | true => cases h
    | false =>
      simp only [Bool.false_eq_true, if_false, Outcome.bind_eq_ok] at h
      obtain ⟨o, ho, h⟩ := h
      match o with
      | some _ => cases h
      | none =>
        simp only [List.cons_append, splitFirst, ht, Outcome.ok_bind, Bool.false_eq_true, if_false,
          ih ho]
        cases splitFirst f bs with
        | error e => rfl
        | ok o => cases o <;> rfl

/-! ### The places of a list -/

/-- A place in a list is its head, or a place in its tail. -/
lemma exists_place_cons {a : α} {as : List α} {P : List α → α → List α → Prop} :
    (∃ before b after, a :: as = before ++ b :: after ∧ P before b after) ↔
      P [] a as ∨ ∃ before b after, as = before ++ b :: after ∧ P (a :: before) b after := by
  constructor
  · rintro ⟨before, b, after, heq, h⟩
    cases before with
    | nil =>
      cases heq
      exact .inl h
    | cons _ before =>
      cases heq
      exact .inr ⟨before, b, after, rfl, h⟩
  · rintro (h | ⟨before, b, after, rfl, h⟩)
    · exact ⟨[], a, as, rfl, h⟩
    · exact ⟨a :: before, b, after, rfl, h⟩

/-- The empty list has no place. -/
lemma not_exists_place_nil {P : List α → α → List α → Prop} :
    ¬ ∃ before b after, [] = before ++ b :: after ∧ P before b after := by
  rintro ⟨before, b, after, heq, -⟩
  cases before <;> cases heq

end Lib
