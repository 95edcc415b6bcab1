import ServerUnit.Lib.Machine
import Mathlib.Data.List.Basic

/-!
# Bounded queues

A queue that refuses an element when it is full and gives its elements back in the order in which it
took them. A machine that answers calls refines it when each of its answers is the queue's.
-/

namespace Lib

variable {α ω σ φ ε : Type*}

/-- Call a machine that answers, and list its answers. -/
def runAnswers (step : σ → ε → Except φ (σ × ω)) : σ → List ε → Except φ (σ × List ω)
  | s, []      => .ok (s, [])
  | s, e :: es =>
    (step s e).bind fun (s, a) => (runAnswers step s es).map fun (s, as) => (s, a :: as)

namespace BoundedQueue

inductive Call (α : Type*) where
  | add (a : α)
  | pop

inductive Answer (α : Type*) where
  | accepted
  | refused
  | popped (a : Option α)

/-- The queue after a call, and its answer. -/
def answer (size : ℕ) (q : List α) : Call α → List α × Answer α
  | .add a => if q.length < size then (q ++ [a], .accepted) else (q, .refused)
  | .pop   => (q.tail, .popped q.head?)

def answers (size : ℕ) (q : List α) : List (Call α) → List α × List (Answer α)
  | []      => (q, [])
  | c :: cs =>
    let (q', a) := answer size q c
    let (q'', as) := answers size q' cs
    (q'', a :: as)

/-- The elements that were accepted. -/
def taken : List (Call α) → List (Answer α) → List α
  | .add a :: cs, .accepted :: as => a :: taken cs as
  | _ :: cs, _ :: as              => taken cs as
  | _, _                          => []

/-- The elements that were given back. -/
def given : List (Answer α) → List α
  | []                    => []
  | .popped (some a) :: as => a :: given as
  | _ :: as               => given as

variable {size : ℕ} {q : List α} {c : Call α} {cs : List (Call α)}

lemma length_answer_le (hq : q.length ≤ size) : (answer size q c).1.length ≤ size := by
  cases c with
  | add a =>
    simp only [answer]
    split_ifs with hlt
    · rw [List.length_append, List.length_singleton]
      exact hlt
    · exact hq
  | pop =>
    rw [answer, List.length_tail]
    omega

/-- The queue never exceeds its size. -/
lemma length_answers_le (hq : q.length ≤ size) : (answers size q cs).1.length ≤ size := by
  induction cs generalizing q with
  | nil => exact hq
  | cons c cs ih => exact ih (length_answer_le hq)

/-- The elements come back in the order in which they were accepted, and those that have not come
back are in the queue. -/
theorem append_taken_eq (size : ℕ) (q : List α) (cs : List (Call α)) :
    q ++ taken cs (answers size q cs).2 =
      given (answers size q cs).2 ++ (answers size q cs).1 := by
  induction cs generalizing q with
  | nil => simp [answers, taken, given]
  | cons c cs ih =>
    have ih := ih (answer size q c).1
    cases c with
    | add a =>
      by_cases hlt : q.length < size
      · simp only [answers, answer, if_pos hlt, taken, given] at ih ⊢
        rw [← ih, List.append_assoc, List.singleton_append]
      · simp only [answers, answer, if_neg hlt, taken, given] at ih ⊢
        exact ih
    | pop =>
      cases q with
      | nil => simpa [answers, answer, taken, given] using ih
      | cons b q => simpa [answers, answer, taken, given] using ih

/-- A machine whose answers are those of the queue call by call gives them over any run. -/
theorem exists_runAnswers {step : σ → Call α → Except φ (σ × ω)} {R : σ → List α → Prop}
    {f : Answer α → ω}
    (hstep : ∀ s q c, R s q →
      ∃ s', step s c = .ok (s', f (answer size q c).2) ∧ R s' (answer size q c).1)
    {s : σ} (hR : R s q) (cs : List (Call α)) :
    ∃ s', runAnswers step s cs = .ok (s', (answers size q cs).2.map f) ∧
      R s' (answers size q cs).1 := by
  induction cs generalizing s q with
  | nil => exact ⟨s, rfl, hR⟩
  | cons c cs ih =>
    obtain ⟨t, ht, hRt⟩ := hstep s q c hR
    obtain ⟨s', hs', hRs'⟩ := ih hRt
    refine ⟨s', ?_, hRs'⟩
    rw [runAnswers, ht]
    simp only [Except.bind]
    rw [hs']
    rfl

end BoundedQueue

end Lib
