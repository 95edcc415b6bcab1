import ServerUnit.WorkerNode.Identities

/-!
# The numbers that `generateWorkerUid` draws

The loop draws until its flag is still set after both lists were searched. The flag is set once,
before the loop: the first draw decides whether there is a second, and whether the loop ever ends.
-/

namespace ServerUnit

open Lib

namespace WorkerRegistry

variable {r : WorkerRegistry} {uid : String} {n : ℕ}

/-- The pointers in the list can be followed. -/
def Alive (r : WorkerRegistry) : Prop :=
  ∀ worker ∈ r.currentWorkerList, ∃ uid, r.uidOf worker = some uid

/-- The number stands for a UID that is in neither list. -/
def IsFree (r : WorkerRegistry) (n : ℕ) : Prop :=
  toString n ∉ r.currentUids ∧ toString n ∉ r.deadWorkerList

instance : Decidable (r.IsFree n) := inferInstanceAs (Decidable (_ ∧ _))

/-- What the call does with the first `n` numbers of a sequence. It is not over when they are used
up before it returns. -/
def generateFrom (r : WorkerRegistry) (draws : ℕ → ℕ) (n : ℕ) :
    Outcome (WorkerRegistry × String) :=
  r.generateWorkerUid ((List.range n).map draws)

/-- The call returns, and with the first number of the sequence that is free. -/
def ReturnsFirstFree (r : WorkerRegistry) (draws : ℕ → ℕ) : Prop :=
  ∃ i, r.IsFree (draws i) ∧ (∀ j < i, ¬ r.IsFree (draws j)) ∧
    ∃ n r', r.generateFrom draws n = .ok (r', toString (draws i))

/-! ### One draw -/

/-- The search of the current workers ends, and says whether one has the UID. -/
lemma Alive.search (h : r.Alive) (uid : String) :
    ∃ current, splitFirst (r.hasUid uid) r.currentWorkerList = .ok current ∧
      (current.isSome ↔ uid ∈ r.currentUids) := by
  have htest : ∀ worker ∈ r.currentWorkerList, ∃ b, r.hasUid uid worker = .ok b := by
    intro worker hworker
    obtain ⟨_, huid⟩ := h worker hworker
    obtain ⟨w, hw, -⟩ := uidOf_eq_some.mp huid
    exact ⟨w.workerUID == uid, hasUid_eq_ok.mpr ⟨w, hw, rfl⟩⟩
  obtain ⟨current, hcurrent⟩ := splitFirst_isOk htest
  refine ⟨current, hcurrent, ?_⟩
  rw [currentUids, List.mem_filterMap]
  cases current with
  | none =>
    refine iff_of_false Bool.false_ne_true ?_
    rintro ⟨worker, hworker, huid⟩
    obtain ⟨w, hw, hne⟩ := hasUid_eq_ok.mp (splitFirst_eq_none hcurrent worker hworker)
    obtain ⟨v, hv, rfl⟩ := uidOf_eq_some.mp huid
    rw [hw] at hv
    cases hv
    exact absurd hne (by simp)
  | some found =>
    obtain ⟨before, worker, after⟩ := found
    obtain ⟨hlist, -, hworker⟩ := splitFirst_eq_some hcurrent
    obtain ⟨w, hw, huid⟩ := hasUid_eq_ok.mp hworker
    refine iff_of_true rfl ⟨worker, ?_, uidOf_eq_some.mpr ⟨w, hw, beq_iff_eq.mp huid⟩⟩
    rw [hlist]
    exact List.mem_append_right _ List.mem_cons_self

/-- A draw that is free leaves the flag as it is, and a draw that is taken clears it. -/
lemma Alive.drawUid_cons (h : r.Alive) (failed : Bool) (n : ℕ) (draws : List ℕ) :
    r.drawUid failed (n :: draws) =
      if failed ∧ r.IsFree n then .ok (toString n)
      else r.drawUid (failed && decide (r.IsFree n)) draws := by
  obtain ⟨current, hcurrent, hiff⟩ := h.search (toString n)
  have hflag : (if r.deadWorkerList.contains (toString n) = true then false
      else if current.isSome = true then false else failed) =
        (failed && decide (r.IsFree n)) := by
    by_cases hcur : toString n ∈ r.currentUids
    · have htaken : ¬ r.IsFree n := fun hfree => hfree.1 hcur
      simp [hiff.mpr hcur, htaken]
    · have hnone : current.isSome = false := Bool.eq_false_iff.mpr (mt hiff.mp hcur)
      by_cases hdead : toString n ∈ r.deadWorkerList
      · have htaken : ¬ r.IsFree n := fun hfree => hfree.2 hdead
        rw [if_pos (List.contains_iff_mem.mpr hdead), decide_eq_false htaken, Bool.and_false]
      · have hfree : r.IsFree n := ⟨hcur, hdead⟩
        rw [if_neg (mt List.contains_iff_mem.mp hdead), hnone, decide_eq_true hfree, Bool.and_true]
        rfl
  simp only [drawUid, hcurrent, Outcome.ok_bind, hflag]
  cases failed with
  | false => simp
  | true =>
    by_cases hfree : r.IsFree n
    · simp only [hfree, decide_true, Bool.and_self, if_true, and_self]
      rfl
    · simp [hfree]

/-- With the flag clear no draw is returned. -/
lemma Alive.drawUid_false (h : r.Alive) (draws : List ℕ) :
    r.drawUid false draws = .error .disabled := by
  induction draws with
  | nil => rfl
  | cons n draws ih => simpa [h.drawUid_cons] using ih

/-! ### A sequence of draws -/

lemma Alive.drawUid_of_free (h : r.Alive) (hfree : r.IsFree n) (draws : List ℕ) :
    r.drawUid true (n :: draws) = .ok (toString n) := by
  rw [h.drawUid_cons, if_pos ⟨rfl, hfree⟩]

/-- A collision: the flag stays clear from then on. -/
lemma Alive.drawUid_of_taken (h : r.Alive) (htaken : ¬ r.IsFree n) (draws : List ℕ) :
    r.drawUid true (n :: draws) = .error .disabled := by
  rw [h.drawUid_cons, if_neg fun hboth => htaken hboth.2, decide_eq_false htaken,
    Bool.and_false, h.drawUid_false]

/-- After a collision at the first draw the call never returns. -/
lemma Alive.generateFrom_of_taken (h : r.Alive) {draws : ℕ → ℕ} (htaken : ¬ r.IsFree (draws 0))
    (n : ℕ) : r.generateFrom draws n = .error .disabled := by
  cases n with
  | zero => rfl
  | succ n =>
    rw [generateFrom, generateWorkerUid, List.range_succ_eq_map, List.map_cons,
      h.drawUid_of_taken htaken]
    rfl

lemma Alive.not_returnsFirstFree (h : r.Alive) {draws : ℕ → ℕ} (htaken : ¬ r.IsFree (draws 0)) :
    ¬ r.ReturnsFirstFree draws := by
  rintro ⟨i, -, -, n, r', hreturn⟩
  rw [h.generateFrom_of_taken htaken] at hreturn
  cases hreturn

/-- The call returns the first number of the sequence that is free exactly when that is the first
of all. After another first number it never returns, however many are drawn. -/
theorem generateWorkerUid_returnsFirstFree_iff (h : r.Alive) (draws : ℕ → ℕ) :
    (r.ReturnsFirstFree draws ↔ r.IsFree (draws 0)) ∧
    (¬ r.IsFree (draws 0) → ∀ n, r.generateFrom draws n = .error .disabled) := by
  refine ⟨⟨not_imp_not.mp h.not_returnsFirstFree, fun hfree => ?_⟩, h.generateFrom_of_taken⟩
  refine ⟨0, hfree, fun j hj => absurd hj j.not_lt_zero, 1, ?_⟩
  rw [generateFrom, generateWorkerUid, List.range_one, List.map_singleton,
    h.drawUid_of_free hfree []]
  exact ⟨_, rfl⟩

/-- A registry with a worker under `1000` that is gone. -/
def registryWithout1000 : WorkerRegistry := { WorkerRegistry.new with deadWorkerList := ["1000"] }

/-- The numbers from `first` on. -/
def drawsFrom (first : ℕ) (i : ℕ) : ℕ := first + i

/-- The first number is free. -/
theorem generateWorkerUid_returnsFirstFree_iff_free :
    (registryWithout1000.ReturnsFirstFree (drawsFrom 1001) ↔
      registryWithout1000.IsFree (drawsFrom 1001 0)) ∧
    (¬ registryWithout1000.IsFree (drawsFrom 1001 0) →
      ∀ n, registryWithout1000.generateFrom (drawsFrom 1001) n = .error .disabled) := by
  have halive : registryWithout1000.Alive := fun _ hworker => absurd hworker List.not_mem_nil
  exact generateWorkerUid_returnsFirstFree_iff halive (drawsFrom 1001)

/-- The first number is taken and all others are free: the call never returns. -/
theorem generateWorkerUid_not_returnsFirstFree :
    registryWithout1000.IsFree (drawsFrom 1000 1) ∧
      (∀ n, registryWithout1000.generateFrom (drawsFrom 1000) n = .error .disabled) ∧
      ¬ registryWithout1000.ReturnsFirstFree (drawsFrom 1000) := by
  have halive : registryWithout1000.Alive := fun _ hworker => absurd hworker List.not_mem_nil
  have htaken : ¬ registryWithout1000.IsFree (drawsFrom 1000 0) := by decide
  exact ⟨by decide, halive.generateFrom_of_taken htaken, halive.not_returnsFirstFree htaken⟩

end WorkerRegistry

end ServerUnit
