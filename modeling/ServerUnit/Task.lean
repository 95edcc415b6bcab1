import Mathlib.Order.Defs.LinearOrder
import Mathlib.Order.Nat

/-!
# Jobs, priorities and task states (`include/task.hpp`)
-/

namespace ServerUnit

/-- `JobStatus`: what a call of a job's procedures reports. -/
inductive JobStatus where
  | jobDone | jobPending | jobFailed | jobFinished
  deriving DecidableEq, Repr

/-- `TaskPriority`. `DEFAULT_PRIORITY` is `LOW_PRIORITY`. -/
inductive TaskPriority where
  | nonPreemtable | highPriority | mediumPriority | lowPriority
  deriving DecidableEq, Repr

namespace TaskPriority

abbrev defaultPriority : TaskPriority := lowPriority

/-- The enumerator's number. -/
def toNat : TaskPriority → ℕ
  | nonPreemtable  => 0
  | highPriority   => 1
  | mediumPriority => 2
  | lowPriority    => 3

end TaskPriority

/-- `UserTaskStatus`: how far a table has got. -/
inductive UserTaskStatus where
  | dataQueued | dataReady | dataSent | dataInter | dataFinal | dataError
  deriving DecidableEq, Repr

namespace UserTaskStatus

/-- The enumerator's number, by which states are compared. -/
def toNat : UserTaskStatus → ℕ
  | dataQueued => 0
  | dataReady  => 1
  | dataSent   => 2
  | dataInter  => 3
  | dataFinal  => 4
  | dataError  => 5

/-- `s < t` compares the numbers, as the enumeration does in the source. -/
instance : LT UserTaskStatus := ⟨fun s t => s.toNat < t.toNat⟩

instance (s t : UserTaskStatus) : Decidable (s < t) := inferInstanceAs (Decidable (_ < _))

lemma lt_iff {s t : UserTaskStatus} : s < t ↔ s.toNat < t.toNat := Iff.rfl

lemma toNat_injective : Function.Injective toNat := by
  intro s t h
  cases s <;> cases t <;> first | rfl | cases h

instance : LinearOrder UserTaskStatus where
  le s t := s.toNat ≤ t.toNat
  le_refl s := le_refl s.toNat
  le_trans s t u := le_trans (a := s.toNat) (b := t.toNat) (c := u.toNat)
  lt_iff_le_not_ge s t := lt_iff_le_not_ge (a := s.toNat) (b := t.toNat)
  le_antisymm s t hst hts := toNat_injective (le_antisymm hst hts)
  le_total s t := le_total s.toNat t.toNat
  toDecidableLE s t := inferInstanceAs (Decidable (s.toNat ≤ t.toNat))

end UserTaskStatus

end ServerUnit
