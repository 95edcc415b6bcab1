import ServerUnit.Lib.Counting
import ServerUnit.Lib.Machine
import ServerUnit.Sink.Basic

/-!
# Concurrent calls on a sink

`pushObject` and `popObject` look at the size of the list before they wait for the lock, and do not
look again once they have it. Here each call is these two steps, and the steps of any number of
callers come in any order. What was true of the size can have changed in between.
-/

namespace ServerUnit

open Lib

variable {α : Type}

namespace Sink

/-! ### The two steps of a call -/

/-- The check of `pushObject`: what it goes on with. -/
def pushCheck (s : Sink α) (object : Option α) (priority : TaskPriority) :
    Option (ExportSinkItem α) :=
  if s.sinkItemList.length ≥ MAX_POOL_SIZE then none else object.map (ExportSinkItem.mk · priority)

/-- `pushObject` from `sem_wait` on. -/
def pushSection (s : Sink α) (item : ExportSinkItem α) (starveCounter : UInt8) :
    Outcome (Sink α) := do
  let lock ← semWait s.sinkLock
  return { s with
    sinkItemList := place ⟨item.dataObject, item.taskPriority, starveCounter⟩
      (calculateStarveCounter item.taskPriority) s.sinkItemList
    sinkLock := semPost lock }

/-- The check of `popObject`. -/
def popCheck (s : Sink α) : Bool := s.sinkItemList.length ≠ 0

/-- `popObject` from `sem_wait` on; `front()` of an empty list is undefined. -/
def popSection (s : Sink α) : Outcome (Sink α × ExportSinkItem α) := do
  let lock ← semWait s.sinkLock
  match s.sinkItemList with
  | [] => .error .undefined
  | item :: items =>
    return ({ s with sinkItemList := items, sinkLock := semPost lock }, item.sinkItem)

variable {s : Sink α}

/-- Without anything in between, the two steps are the call. -/
lemma pushObject_eq (object : Option α) (priority : TaskPriority) (starveCounter : UInt8) :
    s.pushObject object priority starveCounter =
      match s.pushCheck object priority with
      | none      => .ok (s, -1)
      | some item => (fun s' => (s', 0)) <$> s.pushSection item starveCounter := by
  cases object with
  | none => simp [pushCheck, pushObject_none]
  | some object =>
    unfold pushObject pushCheck
    split_ifs
    · rfl
    · simp only [Option.map_some, pushSection]
      cases semWait s.sinkLock <;> rfl

lemma popExport_eq : s.popExport =
    if s.popCheck then (fun (s', item) => (s', some item)) <$> s.popSection else .ok (s, none) := by
  unfold popExport popCheck popSection
  cases s.sinkItemList with
  | nil => rfl
  | cons item items => cases semWait s.sinkLock <;> rfl

lemma pushSection_of_unlocked (hlock : s.sinkLock = 1) (item : ExportSinkItem α)
    (starveCounter : UInt8) : s.pushSection item starveCounter = .ok { s with
      sinkItemList := place ⟨item.dataObject, item.taskPriority, starveCounter⟩
        (calculateStarveCounter item.taskPriority) s.sinkItemList } := by
  obtain ⟨items, lock, limit⟩ := s
  subst hlock
  rfl

lemma popSection_of_unlocked (hlock : s.sinkLock = 1) {top : SinkItem α} {items : List (SinkItem α)}
    (hitems : s.sinkItemList = top :: items) :
    s.popSection = .ok ({ s with sinkItemList := items }, top.sinkItem) := by
  obtain ⟨all, lock, limit⟩ := s
  subst hlock hitems
  rfl

lemma popSection_of_empty (hlock : s.sinkLock = 1) (hitems : s.sinkItemList = []) :
    s.popSection = .error .undefined := by
  obtain ⟨all, lock, limit⟩ := s
  subst hlock hitems
  rfl

lemma length_lt_of_pushCheck {object : Option α} {priority : TaskPriority}
    (h : (s.pushCheck object priority).isSome) : s.sinkItemList.length < MAX_POOL_SIZE := by
  unfold pushCheck at h
  split_ifs at h with hfull
  · cases h
  · exact not_le.mp hfull

lemma length_pos_of_popCheck (h : s.popCheck = true) : 0 < s.sinkItemList.length :=
  Nat.pos_of_ne_zero (of_decide_eq_true h)

end Sink

/-- A sink with its callers: those that passed their check and have not entered the section. -/
structure SinkRace (α : Type) (poppers pushers : ℕ) where
  sink : Sink α
  popping : Fin poppers → Bool
  pushing : Fin pushers → Option (ExportSinkItem α)

inductive RaceEvent (α : Type) (poppers pushers : ℕ) where
  | pushCheck (j : Fin pushers) (object : Option α) (priority : TaskPriority)
  | pushSection (j : Fin pushers) (starveCounter : UInt8)
  | popCheck (i : Fin poppers)
  | popSection (i : Fin poppers)

/-- A step that ends a call. -/
def RaceEvent.isSection {poppers pushers : ℕ} : RaceEvent α poppers pushers → Bool
  | .pushSection _ _ | .popSection _ => true
  | _ => false

namespace SinkRace

variable {poppers pushers : ℕ}

/-- A new sink, and no call under way. -/
def init (α : Type) (poppers pushers maxSinkSize : ℕ) : SinkRace α poppers pushers :=
  ⟨.new maxSinkSize, fun _ => false, fun _ => none⟩

def step (x : SinkRace α poppers pushers) :
    RaceEvent α poppers pushers → Outcome (SinkRace α poppers pushers)
  | .pushCheck j object priority =>
    Outcome.guard ((x.pushing j).isNone) <|
      return { x with
        pushing := Function.update x.pushing j (x.sink.pushCheck object priority) }
  | .pushSection j starveCounter =>
    match x.pushing j with
    | none => .error .disabled
    | some item => do
      let sink ← x.sink.pushSection item starveCounter
      return { x with sink, pushing := Function.update x.pushing j none }
  | .popCheck i =>
    Outcome.guard (!x.popping i) <|
      return { x with popping := Function.update x.popping i x.sink.popCheck }
  | .popSection i =>
    Outcome.guard (x.popping i) do
      let (sink, _) ← x.sink.popSection
      return { x with sink, popping := Function.update x.popping i false }

/-- The calls of `popObject` between check and section. -/
def pendingPops (x : SinkRace α poppers pushers) : ℕ := countWhere id x.popping

/-- The calls of `pushObject` between check and section. -/
def pendingPushes (x : SinkRace α poppers pushers) : ℕ := countWhere Option.isSome x.pushing

/-- The list is within its bounds, and no step goes wrong. -/
def InBounds (x : SinkRace α poppers pushers) : Prop :=
  x.sink.sinkItemList.length ≤ MAX_POOL_SIZE ∧ ∀ e, (x.step e).Safe

/-- The list stays within its bounds while the calls under way end, in whatever order. -/
def EndsInBounds (x : SinkRace α poppers pushers) : Prop :=
  ∀ es y, (∀ e ∈ es, RaceEvent.isSection e = true) → run step x es = .ok y → y.InBounds

/-- There is an item and a place for each call under way. -/
structure Reserved (x : SinkRace α poppers pushers) : Prop where
  pops : x.pendingPops ≤ x.sink.sinkItemList.length
  pushes : x.sink.sinkItemList.length + x.pendingPushes ≤ MAX_POOL_SIZE

/-- A call that passes its check finds an item, or a place, beyond those for the calls under way. -/
def Reserves (x : SinkRace α poppers pushers) : RaceEvent α poppers pushers → Prop
  | .pushCheck _ object priority => (x.sink.pushCheck object priority).isSome →
      x.sink.sinkItemList.length + x.pendingPushes + 1 ≤ MAX_POOL_SIZE
  | .popCheck _ => x.sink.popCheck → x.pendingPops + 1 ≤ x.sink.sinkItemList.length
  | _ => True

variable {x x' y : SinkRace α poppers pushers} {e : RaceEvent α poppers pushers}
  {es : List (RaceEvent α poppers pushers)} {maxSinkSize : ℕ}

/-! ### The outcomes of a step -/

lemma step_pushCheck_eq_ok {j : Fin pushers} {object : Option α} {priority : TaskPriority} :
    x.step (.pushCheck j object priority) = .ok x' ↔ x.pushing j = none ∧
      x' = { x with
        pushing := Function.update x.pushing j (x.sink.pushCheck object priority) } := by
  rw [step, Outcome.guard_eq_ok, Option.isNone_iff_eq_none, Outcome.pure_eq_ok, eq_comm (a := x')]

lemma step_pushCheck_of_room {j : Fin pushers} (hj : x.pushing j = none)
    (hroom : x.sink.sinkItemList.length < MAX_POOL_SIZE) (object : α) (priority : TaskPriority) :
    x.step (.pushCheck j (some object) priority) =
      .ok { x with pushing := Function.update x.pushing j (some ⟨object, priority⟩) } := by
  have hcheck : x.sink.pushCheck (some object) priority = some ⟨object, priority⟩ :=
    if_neg hroom.not_ge
  rw [step_pushCheck_eq_ok, hcheck]
  exact ⟨hj, rfl⟩

lemma step_popCheck_eq_ok {i : Fin poppers} : x.step (.popCheck i) = .ok x' ↔
    x.popping i = false ∧
      x' = { x with popping := Function.update x.popping i x.sink.popCheck } := by
  rw [step, Outcome.guard_eq_ok, Bool.not_eq_true', Outcome.pure_eq_ok, eq_comm (a := x')]

lemma step_popCheck_of_pos {i : Fin poppers} (hi : x.popping i = false)
    (hpos : 0 < x.sink.sinkItemList.length) :
    x.step (.popCheck i) = .ok { x with popping := Function.update x.popping i true } := by
  have hcheck : x.sink.popCheck = true := decide_eq_true hpos.ne'
  rw [step_popCheck_eq_ok, hcheck]
  exact ⟨hi, rfl⟩

lemma step_pushSection_of_pushing (hlock : x.sink.sinkLock = 1) {j : Fin pushers}
    {item : ExportSinkItem α} (hj : x.pushing j = some item) (starveCounter : UInt8) :
    x.step (.pushSection j starveCounter) = .ok { x with
      sink := { x.sink with
        sinkItemList := Sink.place ⟨item.dataObject, item.taskPriority, starveCounter⟩
          (calculateStarveCounter item.taskPriority) x.sink.sinkItemList }
      pushing := Function.update x.pushing j none } := by
  simp only [step, hj, Sink.pushSection_of_unlocked hlock, Outcome.ok_bind]
  rfl

lemma step_popSection_of_popping (hlock : x.sink.sinkLock = 1) {i : Fin poppers}
    (hi : x.popping i = true) {top : SinkItem α} {items : List (SinkItem α)}
    (hitems : x.sink.sinkItemList = top :: items) :
    x.step (.popSection i) = .ok { x with
      sink := { x.sink with sinkItemList := items }
      popping := Function.update x.popping i false } := by
  simp only [step, hi, Outcome.guard, if_true, Sink.popSection_of_unlocked hlock hitems,
    Outcome.ok_bind]
  rfl

/-- `front()` of an empty list. -/
lemma step_popSection_of_empty (hlock : x.sink.sinkLock = 1) {i : Fin poppers}
    (hi : x.popping i = true) (hitems : x.sink.sinkItemList = []) :
    x.step (.popSection i) = .error .undefined := by
  simp only [step, hi, Outcome.guard, if_true, Sink.popSection_of_empty hlock hitems]
  rfl

/-- The outcomes of a step that returns, while the lock is free. -/
inductive StepRule (x : SinkRace α poppers pushers) :
    RaceEvent α poppers pushers → SinkRace α poppers pushers → Prop where
  | pushCheck (j : Fin pushers) (object : Option α) (priority : TaskPriority)
      (hj : x.pushing j = none) :
      StepRule x (.pushCheck j object priority) { x with
        pushing := Function.update x.pushing j (x.sink.pushCheck object priority) }
  | pushSection (j : Fin pushers) (starveCounter : UInt8) (item : ExportSinkItem α)
      (hj : x.pushing j = some item) :
      StepRule x (.pushSection j starveCounter) { x with
        sink := { x.sink with
          sinkItemList := Sink.place ⟨item.dataObject, item.taskPriority, starveCounter⟩
            (calculateStarveCounter item.taskPriority) x.sink.sinkItemList }
        pushing := Function.update x.pushing j none }
  | popCheck (i : Fin poppers) (hi : x.popping i = false) :
      StepRule x (.popCheck i) { x with popping := Function.update x.popping i x.sink.popCheck }
  | popSection (i : Fin poppers) (hi : x.popping i = true) (top : SinkItem α)
      (items : List (SinkItem α)) (hitems : x.sink.sinkItemList = top :: items) :
      StepRule x (.popSection i) { x with
        sink := { x.sink with sinkItemList := items }
        popping := Function.update x.popping i false }

lemma StepRule.of_step (hlock : x.sink.sinkLock = 1) (h : x.step e = .ok x') : StepRule x e x' := by
  cases e with
  | pushCheck j object priority =>
    obtain ⟨hj, rfl⟩ := step_pushCheck_eq_ok.mp h
    exact .pushCheck j object priority hj
  | pushSection j starveCounter =>
    cases hj : x.pushing j with
    | none =>
      simp only [step, hj] at h
      cases h
    | some item =>
      rw [step_pushSection_of_pushing hlock hj, Except.ok.injEq] at h
      rw [← h]
      exact .pushSection j starveCounter item hj
  | popCheck i =>
    obtain ⟨hi, rfl⟩ := step_popCheck_eq_ok.mp h
    exact .popCheck i hi
  | popSection i =>
    have hi : x.popping i = true := by
      rw [step, Outcome.guard_eq_ok] at h
      exact h.1
    cases hitems : x.sink.sinkItemList with
    | nil =>
      rw [step_popSection_of_empty hlock hi hitems] at h
      cases h
    | cons top items =>
      rw [step_popSection_of_popping hlock hi hitems, Except.ok.injEq] at h
      rw [← h]
      exact .popSection i hi top items hitems

lemma unlocked_step (hlock : x.sink.sinkLock = 1) (h : x.step e = .ok x') :
    x'.sink.sinkLock = 1 := by
  cases StepRule.of_step hlock h with
  | pushCheck | pushSection | popCheck | popSection => exact hlock

lemma unlocked_run (hlock : x.sink.sinkLock = 1) (h : run step x es = .ok y) :
    y.sink.sinkLock = 1 :=
  run_invariant (I := fun y : SinkRace α poppers pushers => y.sink.sinkLock = 1)
    (fun _ _ _ hlock h => unlocked_step hlock h) hlock h

/-! ### Reservations -/

/-- A step keeps the reservations exactly when a check that passes adds one that there is room
for. -/
lemma reserved_step (hlock : x.sink.sinkLock = 1) (hx : x.Reserved) (h : x.step e = .ok x') :
    x'.Reserved ↔ x.Reserves e := by
  obtain ⟨hpops, hpushes⟩ := hx
  cases StepRule.of_step hlock h with
  | pushCheck j object priority hj =>
    cases hcheck : x.sink.pushCheck object priority with
    | none =>
      have hsame : Function.update x.pushing j none = x.pushing := by
        rw [← hj, Function.update_eq_self]
      rw [hsame]
      exact iff_of_true ⟨hpops, hpushes⟩ fun hsome => by simp [hcheck] at hsome
    | some item =>
      have hcount := countWhere_update_of_true (f := x.pushing) (p := Option.isSome) (b := some item)
        (by rw [hj]; rfl) rfl
      constructor
      · rintro ⟨-, hroom⟩ -
        rw [pendingPushes, hcount] at hroom
        exact hroom
      · intro hroom
        refine ⟨hpops, ?_⟩
        rw [pendingPushes, hcount]
        exact hroom (by rw [hcheck]; rfl)
  | pushSection j starveCounter item hj =>
    have hcount := countWhere_update_of_false (f := x.pushing) (p := Option.isSome) (b := none)
      (by rw [hj]; rfl) rfl
    rw [pendingPushes, ← hcount] at hpushes
    refine iff_of_true ⟨?_, ?_⟩ trivial
    · rw [Sink.length_place]
      exact Nat.le_succ_of_le hpops
    · rw [Sink.length_place, pendingPushes, Nat.add_assoc, Nat.add_comm 1]
      exact hpushes
  | popCheck i hi =>
    cases hcheck : x.sink.popCheck with
    | false =>
      have hsame : Function.update x.popping i false = x.popping := by
        rw [← hi, Function.update_eq_self]
      rw [hsame]
      exact iff_of_true ⟨hpops, hpushes⟩ fun htrue => by simp [hcheck] at htrue
    | true =>
      have hcount := countWhere_update_of_true (f := x.popping) (p := id) (b := true) hi rfl
      constructor
      · rintro ⟨hroom, -⟩ -
        rw [pendingPops, hcount] at hroom
        exact hroom
      · intro hroom
        refine ⟨?_, hpushes⟩
        rw [pendingPops, hcount]
        exact hroom hcheck
  | popSection i hi top items hitems =>
    have hcount := countWhere_update_of_false (f := x.popping) (p := id) (b := false) hi rfl
    rw [hitems, List.length_cons] at hpops hpushes
    rw [pendingPops, ← hcount] at hpops
    refine iff_of_true ⟨?_, ?_⟩ trivial
    · rw [pendingPops]
      exact Nat.le_of_succ_le_succ hpops
    · exact (Nat.add_le_add_right (Nat.le_succ _) _).trans hpushes

lemma reserved_init : (init α poppers pushers maxSinkSize).Reserved := by
  constructor
  · simp [init, pendingPops, Sink.new]
  · simp [init, pendingPushes, Sink.new]

/-- With a reservation for each call under way, no step goes wrong. -/
lemma Reserved.inBounds (h : x.Reserved) (hlock : x.sink.sinkLock = 1) : x.InBounds := by
  refine ⟨(Nat.le_add_right _ _).trans h.pushes, fun e => ?_⟩
  cases e with
  | pushCheck j object priority => exact .guard fun _ => .ok _
  | pushSection j starveCounter =>
    cases hj : x.pushing j with
    | none =>
      simp only [step, hj]
      exact .disabled
    | some item =>
      rw [step_pushSection_of_pushing hlock hj]
      exact .ok _
  | popCheck i => exact .guard fun _ => .ok _
  | popSection i =>
    refine .guard fun hi => ?_
    have hpos : 0 < x.pendingPops := countWhere_pos.mpr ⟨i, hi⟩
    cases hitems : x.sink.sinkItemList with
    | nil =>
      have hpops := h.pops
      rw [hitems] at hpops
      exact absurd hpos hpops.not_gt
    | cons top items =>
      rw [Sink.popSection_of_unlocked hlock hitems]
      exact .ok _

/-- While the calls under way end, the reservations are kept. -/
lemma Reserved.of_sections (h : x.Reserved) (hlock : x.sink.sinkLock = 1)
    (hes : ∀ e ∈ es, RaceEvent.isSection e = true) (hrun : run step x es = .ok y) :
    y.Reserved := by
  refine (run_induct (I := fun y : SinkRace α poppers pushers => y.sink.sinkLock = 1 ∧ y.Reserved)
    (C := fun _ e => RaceEvent.isSection e = true) ?_ ⟨hlock, h⟩ (Meets.of_forall hes) hrun).2
  rintro s e s' ⟨hlock, hs⟩ hsection hstep
  refine ⟨unlocked_step hlock hstep, (reserved_step hlock hs hstep).mpr ?_⟩
  cases e with
  | pushSection | popSection => trivial
  | pushCheck | popCheck => cases hsection

/-! ### Without reservations -/

/-- The calls of `popObject` take more items than there are. -/
lemma exists_not_inBounds_of_pops (hlock : x.sink.sinkLock = 1)
    (hpops : x.sink.sinkItemList.length < x.pendingPops) :
    ∃ es y, (∀ e ∈ es, RaceEvent.isSection e = true) ∧ run step x es = .ok y ∧ ¬ y.InBounds := by
  induction hn : x.sink.sinkItemList.length generalizing x with
  | zero =>
    rw [hn] at hpops
    obtain ⟨i, hi⟩ := countWhere_pos.mp hpops
    refine ⟨[], x, by simp, rfl, fun hbounds => ?_⟩
    have hfront := step_popSection_of_empty hlock hi (List.length_eq_zero_iff.mp hn)
    cases hbounds.2 _ _ hfront
  | succ n ih =>
    obtain ⟨top, items, hitems⟩ := List.exists_cons_of_length_eq_add_one hn
    obtain ⟨i, hi⟩ := countWhere_pos.mp (Nat.zero_lt_of_lt hpops)
    have hcount := countWhere_update_of_false (f := x.popping) (p := id) (b := false) hi rfl
    have hstep := step_popSection_of_popping hlock hi hitems
    rw [hitems, List.length_cons] at hpops hn
    rw [pendingPops, ← hcount] at hpops
    obtain ⟨es, y, hes, hrun, hbounds⟩ := ih (x := ⟨{ x.sink with sinkItemList := items },
      Function.update x.popping i false, x.pushing⟩) hlock (Nat.lt_of_succ_lt_succ hpops)
        (Nat.succ.inj hn)
    exact ⟨_ :: es, y, List.forall_mem_cons.mpr ⟨rfl, hes⟩,
      run_cons_eq_ok.mpr ⟨_, hstep, hrun⟩, hbounds⟩

/-- The calls of `pushObject` add more items than there are places. -/
lemma exists_not_inBounds_of_pushes (hlock : x.sink.sinkLock = 1)
    (hpushes : MAX_POOL_SIZE < x.sink.sinkItemList.length + x.pendingPushes) :
    ∃ es y, (∀ e ∈ es, RaceEvent.isSection e = true) ∧ run step x es = .ok y ∧ ¬ y.InBounds := by
  induction hn : x.pendingPushes generalizing x with
  | zero =>
    rw [hn] at hpushes
    exact ⟨[], x, by simp, rfl, fun hbounds => absurd hpushes hbounds.1.not_gt⟩
  | succ n ih =>
    have hpos : 0 < x.pendingPushes := by rw [hn]; exact Nat.succ_pos n
    obtain ⟨j, hj⟩ := countWhere_pos.mp hpos
    obtain ⟨item, hj⟩ := Option.isSome_iff_exists.mp hj
    have hcount := countWhere_update_of_false (f := x.pushing) (p := Option.isSome) (b := none)
      (by rw [hj]; rfl) rfl
    have hstep := step_pushSection_of_pushing hlock hj 0
    rw [pendingPushes, ← hcount] at hn hpushes
    have hmore : MAX_POOL_SIZE < (Sink.place ⟨item.dataObject, item.taskPriority, 0⟩
        (calculateStarveCounter item.taskPriority) x.sink.sinkItemList).length +
          countWhere Option.isSome (Function.update x.pushing j none) := by
      rw [Sink.length_place, Nat.add_assoc, Nat.add_comm 1]
      exact hpushes
    obtain ⟨es, y, hes, hrun, hbounds⟩ := ih (x := ⟨{ x.sink with
        sinkItemList := Sink.place ⟨item.dataObject, item.taskPriority, 0⟩
          (calculateStarveCounter item.taskPriority) x.sink.sinkItemList },
      x.popping, Function.update x.pushing j none⟩) hlock hmore (Nat.succ.inj hn)
    exact ⟨_ :: es, y, List.forall_mem_cons.mpr ⟨rfl, hes⟩,
      run_cons_eq_ok.mpr ⟨_, hstep, hrun⟩, hbounds⟩

/-- The list stays within its bounds, in whatever order the calls under way end, exactly when there
is an item and a place for each of them. -/
lemma endsInBounds_iff (hlock : x.sink.sinkLock = 1) : x.EndsInBounds ↔ x.Reserved := by
  constructor
  · intro hends
    constructor
    · by_contra hnot
      obtain ⟨es, y, hes, hrun, hbounds⟩ := exists_not_inBounds_of_pops hlock (not_le.mp hnot)
      exact hbounds (hends es y hes hrun)
    · by_contra hnot
      obtain ⟨es, y, hes, hrun, hbounds⟩ := exists_not_inBounds_of_pushes hlock (not_le.mp hnot)
      exact hbounds (hends es y hes hrun)
  · intro h es y hes hrun
    exact (h.of_sections hlock hes hrun).inBounds (unlocked_run hlock hrun)

/-! ### Runs -/

/-- In a run the list stays within its bounds, whatever order the calls under way end in, for as
long as each call that passes its check finds an item or a place of its own. -/
lemma run_endsInBounds_iff (h : run step (init α poppers pushers maxSinkSize) es = .ok x) :
    Meets step Reserves (init α poppers pushers maxSinkSize) es ↔
      ∀ es₁ t, es₁ <+: es → run step (init α poppers pushers maxSinkSize) es₁ = .ok t →
        t.EndsInBounds := by
  rw [meets_iff_of_invariant (J := fun t : SinkRace α poppers pushers => t.sink.sinkLock = 1)
    (I := Reserved) (fun _ _ _ hlock hstep => unlocked_step hlock hstep)
    (fun _ _ _ hlock ht hstep => reserved_step hlock ht hstep) rfl reserved_init h]
  refine forall_congr' fun es₁ => forall_congr' fun t => forall_congr' fun _ =>
    forall_congr' fun ht => ?_
  have hlock : t.sink.sinkLock = 1 := unlocked_run rfl ht
  exact (endsInBounds_iff hlock).symm

/-- What a single caller has checked stays true until its call ends. -/
lemma reserves_of_callers (hpushers : pushers ≤ 1)
    (hpoppers : poppers ≤ 1 ∨ x.sink.sinkItemList = []) (hlock : x.sink.sinkLock = 1)
    (h : x.step e = .ok x') : x.Reserves e := by
  cases StepRule.of_step hlock h with
  | pushSection | popSection => trivial
  | pushCheck j object priority hj =>
    have hsingle := Fin.subsingleton_iff_le_one.mpr hpushers
    have hidle : x.pendingPushes = 0 := by
      apply countWhere_of_subsingleton (i := j)
      rw [hj]
      rfl
    intro hcheck
    rw [hidle]
    exact Sink.length_lt_of_pushCheck hcheck
  | popCheck i hi =>
    intro hcheck
    have hpos := Sink.length_pos_of_popCheck hcheck
    rcases hpoppers with hpoppers | hnil
    · have hsingle := Fin.subsingleton_iff_le_one.mpr hpoppers
      have hidle : x.pendingPops = 0 := countWhere_of_subsingleton hi
      rw [hidle]
      exact hpos
    · rw [hnil] at hpos
      cases hpos

/-- With nobody to push, the list stays empty. -/
lemma items_of_noPushers (hpushers : pushers = 0) (hlock : x.sink.sinkLock = 1)
    (hnil : x.sink.sinkItemList = []) (h : x.step e = .ok x') : x'.sink.sinkItemList = [] := by
  cases StepRule.of_step hlock h with
  | pushCheck | popCheck => exact hnil
  | pushSection j =>
    subst hpushers
    exact j.elim0
  | popSection i hi top items hitems =>
    rw [hnil] at hitems
    cases hitems

/-- No caller that pushes, or a single one on each side. -/
lemma inBounds_of_callers (hcallers : pushers = 0 ∨ pushers = 1 ∧ poppers ≤ 1)
    (h : run step (init α poppers pushers maxSinkSize) es = .ok x) : x.InBounds := by
  have hstep : ∀ (s : SinkRace α poppers pushers) (e : RaceEvent α poppers pushers)
      (s' : SinkRace α poppers pushers),
      (s.sink.sinkLock = 1 ∧ s.Reserved ∧ (pushers = 0 → s.sink.sinkItemList = [])) →
      s.step e = .ok s' →
      (s'.sink.sinkLock = 1 ∧ s'.Reserved ∧ (pushers = 0 → s'.sink.sinkItemList = [])) := by
    rintro s e s' ⟨hlock, hs, hnone⟩ hstep
    have hpushers : pushers ≤ 1 := by omega
    have hpoppers : poppers ≤ 1 ∨ s.sink.sinkItemList = [] := by
      rcases hcallers with hpushers | ⟨-, hpoppers⟩
      · exact .inr (hnone hpushers)
      · exact .inl hpoppers
    refine ⟨unlocked_step hlock hstep, (reserved_step hlock hs hstep).mpr ?_, fun hpushers => ?_⟩
    · exact reserves_of_callers hpushers hpoppers hlock hstep
    · exact items_of_noPushers hpushers hlock (hnone hpushers) hstep
  obtain ⟨hlock, hreserved, -⟩ := run_invariant hstep ⟨rfl, reserved_init, fun _ => rfl⟩ h
  exact hreserved.inBounds hlock

/-- Once a state without its reservations is reached, the bounds can be left. -/
lemma exists_run_not_inBounds {es : List (RaceEvent α poppers pushers)}
    (h : run step (init α poppers pushers maxSinkSize) es = .ok x) (hx : ¬ x.Reserved) :
    ∃ es y, run step (init α poppers pushers maxSinkSize) es = .ok y ∧ ¬ y.InBounds := by
  rw [← endsInBounds_iff (unlocked_run rfl h)] at hx
  simp only [EndsInBounds, not_forall] at hx
  obtain ⟨es', y, -, hrun, hbounds⟩ := hx
  exact ⟨es ++ es', y, run_append_eq_ok.mpr ⟨x, h, hrun⟩, hbounds⟩

/-- One caller can fill the sink up to any size while the others rest. -/
lemma exists_run_of_length [Inhabited α] (j : Fin pushers) {k : ℕ} (hk : k ≤ MAX_POOL_SIZE) :
    ∃ es, ∃ x : SinkRace α poppers pushers,
      run step (init α poppers pushers maxSinkSize) es = .ok x ∧ x.sink.sinkItemList.length = k ∧
        x.popping = (fun _ => false) ∧ x.pushing = fun _ => none := by
  induction k with
  | zero => exact ⟨[], _, rfl, rfl, rfl, rfl⟩
  | succ k ih =>
    obtain ⟨es, x, hrun, hlength, hpopping, hpushing⟩ := ih (Nat.le_of_succ_le hk)
    have hlock : x.sink.sinkLock = 1 := unlocked_run rfl hrun
    have hcheck := step_pushCheck_of_room (x := x) (j := j) (by rw [hpushing])
      (by rwa [hlength]) default .defaultPriority
    have hsection := step_pushSection_of_pushing (x := { x with
        pushing := Function.update x.pushing j (some ⟨default, .defaultPriority⟩) }) hlock
      (Function.update_self j _ _) 0
    refine ⟨es ++ [_, _], _, run_append_eq_ok.mpr ⟨x, hrun, run_cons_eq_ok.mpr ⟨_, hcheck,
      run_cons_eq_ok.mpr ⟨_, hsection, rfl⟩⟩⟩, ?_, hpopping, ?_⟩
    · rw [Sink.length_place, hlength]
    · show Function.update (Function.update x.pushing j _) j none = _
      rw [Function.update_idem, hpushing, Function.update_eq_self]

/-- Two callers of `pushObject` see the last place. -/
lemma exists_not_reserved_of_pushers [Inhabited α] {i j : Fin pushers} (hij : i ≠ j) :
    ∃ es, ∃ x : SinkRace α poppers pushers,
      run step (init α poppers pushers maxSinkSize) es = .ok x ∧ ¬ x.Reserved := by
  obtain ⟨es, x, hrun, hlength, -, hpushing⟩ : ∃ es, ∃ x : SinkRace α poppers pushers,
      run step (init α poppers pushers maxSinkSize) es = .ok x ∧ x.sink.sinkItemList.length = 19 ∧
        x.popping = (fun _ => false) ∧ x.pushing = fun _ => none :=
    exists_run_of_length i (Nat.le_succ 19)
  have hroom : x.sink.sinkItemList.length < MAX_POOL_SIZE := by
    rw [hlength]
    exact Nat.lt_succ_self 19
  have hi : x.pushing i = none := by rw [hpushing]
  have hj : Function.update x.pushing i (some ⟨default, .defaultPriority⟩) j = none := by
    rw [Function.update_of_ne hij.symm, hpushing]
  have hfirst := step_pushCheck_of_room hi hroom default .defaultPriority
  have hsecond := step_pushCheck_of_room (x := { x with
    pushing := Function.update x.pushing i _ }) hj hroom default .defaultPriority
  refine ⟨es ++ [_, _], _, run_append_eq_ok.mpr ⟨x, hrun, run_cons_eq_ok.mpr ⟨_, hfirst,
    run_cons_eq_ok.mpr ⟨_, hsecond, rfl⟩⟩⟩, fun hreserved => ?_⟩
  have hpushes := hreserved.pushes
  rw [pendingPushes, countWhere_update_of_true (congrArg Option.isSome hj) rfl,
    countWhere_update_of_true (congrArg Option.isSome hi) rfl, hlength, MAX_POOL_SIZE] at hpushes
  omega

/-- Two callers of `popObject` see the last item. -/
lemma exists_not_reserved_of_poppers [Inhabited α] (k : Fin pushers) {i j : Fin poppers}
    (hij : i ≠ j) : ∃ es, ∃ x : SinkRace α poppers pushers,
      run step (init α poppers pushers maxSinkSize) es = .ok x ∧ ¬ x.Reserved := by
  obtain ⟨es, x, hrun, hlength, hpopping, -⟩ : ∃ es, ∃ x : SinkRace α poppers pushers,
      run step (init α poppers pushers maxSinkSize) es = .ok x ∧ x.sink.sinkItemList.length = 1 ∧
        x.popping = (fun _ => false) ∧ x.pushing = fun _ => none :=
    exists_run_of_length k (by decide)
  have hpos : 0 < x.sink.sinkItemList.length := by
    rw [hlength]
    exact Nat.one_pos
  have hi : x.popping i = false := by rw [hpopping]
  have hj : Function.update x.popping i true j = false := by
    rw [Function.update_of_ne hij.symm, hpopping]
  have hfirst := step_popCheck_of_pos hi hpos
  have hsecond := step_popCheck_of_pos (x := { x with
    popping := Function.update x.popping i true }) hj hpos
  refine ⟨es ++ [_, _], _, run_append_eq_ok.mpr ⟨x, hrun, run_cons_eq_ok.mpr ⟨_, hfirst,
    run_cons_eq_ok.mpr ⟨_, hsecond, rfl⟩⟩⟩, fun hreserved => ?_⟩
  have hone := countWhere_update_of_true (f := x.popping) (p := id) (b := true) hi rfl
  have htwo := countWhere_update_of_true (f := Function.update x.popping i true) (p := id)
    (b := true) hj rfl
  have hpops := hreserved.pops
  rw [pendingPops, htwo, hone, hlength] at hpops
  omega

/-- In a run the list stays within its bounds, whatever order the calls under way end in, for as
long as each call that passes its check finds an item or a place of its own. This is sure in all
runs exactly when nobody pushes, or a single caller does and at most one pops. -/
theorem run_inBounds_iff [Inhabited α] (poppers pushers maxSinkSize : ℕ) :
    (∀ es x, run step (init α poppers pushers maxSinkSize) es = .ok x →
      (Meets step Reserves (init α poppers pushers maxSinkSize) es ↔
        ∀ es₁ t, es₁ <+: es → run step (init α poppers pushers maxSinkSize) es₁ = .ok t →
          t.EndsInBounds)) ∧
    ((∀ es x, run step (init α poppers pushers maxSinkSize) es = .ok x → x.InBounds) ↔
      pushers = 0 ∨ pushers = 1 ∧ poppers ≤ 1) := by
  refine ⟨fun es x => run_endsInBounds_iff, fun hbounds => ?_, fun hcallers es x =>
    inBounds_of_callers hcallers⟩
  by_contra hmany
  have hleaves : ∃ es, ∃ x : SinkRace α poppers pushers,
      run step (init α poppers pushers maxSinkSize) es = .ok x ∧ ¬ x.Reserved := by
    rcases Nat.lt_or_ge 1 pushers with hpushers | hpushers
    · exact exists_not_reserved_of_pushers (i := ⟨0, by omega⟩) (j := ⟨1, hpushers⟩) (by simp)
    · have hone : pushers = 1 := by omega
      have hpoppers : 1 < poppers := by omega
      exact exists_not_reserved_of_poppers ⟨0, by omega⟩ (i := ⟨0, by omega⟩) (j := ⟨1, hpoppers⟩)
        (by simp)
  obtain ⟨es, x, hrun, hnot⟩ := hleaves
  obtain ⟨es', y, hrun', hnot'⟩ := exists_run_not_inBounds hrun hnot
  exact hnot' (hbounds es' y hrun')

/-- The caller `j` pushes `n` objects, one after the other. -/
def pushes {poppers pushers : ℕ} (j : Fin pushers) : ℕ → List (RaceEvent ℕ poppers pushers)
  | 0     => []
  | n + 1 => .pushCheck j (some n) .lowPriority :: .pushSection j 0 :: pushes j n

/-- One object is pushed and popped, while two callers pop. -/
theorem run_inBounds_iff_two :
    (∃ x, run step (init ℕ 2 1 20) (pushes 0 1 ++ [.popCheck 0, .popSection 0, .popCheck 1]) =
        .ok x ∧
      (Meets step Reserves (init ℕ 2 1 20) (pushes 0 1 ++ [.popCheck 0, .popSection 0, .popCheck 1])
        ↔ ∀ es₁ t, es₁ <+: pushes 0 1 ++ [.popCheck 0, .popSection 0, .popCheck 1] →
          run step (init ℕ 2 1 20) es₁ = .ok t → t.EndsInBounds)) ∧
    ((∀ es x, run step (init ℕ 2 1 20) es = .ok x → x.InBounds) ↔
      1 = 0 ∨ 1 = 1 ∧ 2 ≤ 1) := by
  obtain ⟨x, hx, -⟩ : ∃ x, run step (init ℕ 2 1 20)
      (pushes 0 1 ++ [.popCheck 0, .popSection 0, .popCheck 1]) = .ok x ∧
        x.sink.sinkItemList.length = 0 := Outcome.exists_ok_of_eval (by decide)
  exact ⟨⟨x, hx, (run_inBounds_iff 2 1 20).1 _ x hx⟩, (run_inBounds_iff 2 1 20).2⟩

/-- Two callers see the only item, and the second takes `front()` of an empty list; two callers see
the last place, and the list gets an item more than it may hold. -/
theorem run_not_inBounds :
    (∃ x, run step (init ℕ 2 1 20) (pushes 0 1 ++ [.popCheck 0, .popCheck 1, .popSection 0]) =
        .ok x ∧ x.step (.popSection 1) = .error .undefined) ∧
    ∃ x, run step (init ℕ 0 2 20) (pushes 0 19 ++ [.pushCheck 0 (some 19) .lowPriority,
        .pushCheck 1 (some 20) .lowPriority, .pushSection 0 0, .pushSection 1 0]) = .ok x ∧
      x.sink.sinkItemList.length = 21 := by
  constructor
  · obtain ⟨x, hx, hpopping, hlength⟩ : ∃ x, run step (init ℕ 2 1 20)
        (pushes 0 1 ++ [.popCheck 0, .popCheck 1, .popSection 0]) = .ok x ∧
          x.popping 1 = true ∧ x.sink.sinkItemList.length = 0 :=
      Outcome.exists_ok_of_eval (by decide)
    have hlock : x.sink.sinkLock = 1 := unlocked_run rfl hx
    exact ⟨x, hx, step_popSection_of_empty hlock hpopping (List.length_eq_zero_iff.mp hlength)⟩
  · exact Outcome.exists_ok_of_eval (by decide)

end SinkRace

end ServerUnit
