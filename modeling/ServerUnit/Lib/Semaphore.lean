import Mathlib.Logic.Function.Basic
import Mathlib.Tactic.Common

/-!
# Semaphores used as locks

A semaphore of initial value `1` that is posted only by whoever waited on it last is a lock: at
most one party holds it, and its value says whether one does. The parties may be any number.
-/

namespace Lib

variable {ι : Type*} {holds : ι → Bool} {n m : ℕ} {a : ι} {b : Bool}

/-- The value of the semaphore agrees with who holds it. -/
structure Exclusive (n : ℕ) (holds : ι → Bool) : Prop where
  unique : ∀ a b, holds a = true → holds b = true → a = b
  held : ∀ a, holds a = true → n = 0
  free : (∀ a, holds a = false) → n = 1

/-- What a party does to a semaphore of value `n` that it holds or not. -/
inductive LockMove (n m : ℕ) (before after : Bool) : Prop where
  | keep (hvalue : m = n) (hholds : after = before)
  | wait (hvalue : n = m + 1) (hbefore : before = false) (hafter : after = true)
  | post (hvalue : m = n + 1) (hbefore : before = true) (hafter : after = false)

namespace Exclusive

lemma none : Exclusive 1 fun _ : ι => false := ⟨by simp, by simp, fun _ => rfl⟩

variable [DecidableEq ι]

/-- Moves keep the lock exclusive. -/
theorem move (h : Exclusive n holds) (hmove : LockMove n m (holds a) b) :
    Exclusive m (Function.update holds a b) := by
  cases hmove with
  | keep hvalue hholds =>
    rw [hvalue, hholds, Function.update_eq_self]
    exact h
  | wait hvalue hbefore hafter =>
    -- the value was not `0`, so nobody held it
    have hnobody : ∀ c, holds c = false := by
      intro c
      by_contra hc
      have hzero := h.held c (by simpa using hc)
      omega
    have hone := h.free hnobody
    subst hafter
    refine ⟨fun c d hc hd => ?_, fun _ _ => by omega, fun hfree => ?_⟩
    · have hself : ∀ c, Function.update holds a true c = true → c = a := by
        intro c hc
        by_contra hne
        rw [Function.update_of_ne hne, hnobody c] at hc
        cases hc
      rw [hself c hc, hself d hd]
    · have hself := hfree a
      rw [Function.update_self] at hself
      cases hself
  | post hvalue hbefore hafter =>
    have hzero := h.held a hbefore
    have hnobody : ∀ c, Function.update holds a b c = false := by
      intro c
      rw [Function.update_apply]
      split_ifs with heq
      · exact hafter
      · by_contra hc
        exact heq (h.unique c a (by simpa using hc) hbefore)
    refine ⟨fun c d hc => ?_, fun c hc => ?_, fun _ => by omega⟩
    · rw [hnobody c] at hc
      cases hc
    · rw [hnobody c] at hc
      cases hc

end Exclusive

end Lib
