import ServerUnit.Lib.OrderedInsert
import ServerUnit.Sink.Calls

/-!
# The order of a sink

A sink is to give the most starved items first, and of those the oldest. `pushObject` searches for
the place of a new item by the field `starveCounter`, which no constructor sets, and puts it one
place too far to the front.

To tell items apart, each object is pushed with the number of its call here. The sink does not look
at objects, so without the numbers the calls are those on the plain sink.
-/

namespace ServerUnit

open Lib

variable {α β : Type}

/-- An item with its object replaced. -/
def SinkItem.mapObject (f : α → β) (i : SinkItem α) : SinkItem β :=
  ⟨f i.dataObject, i.taskPriority, i.starveCounter⟩

namespace Sink

/-- Where `pushObject` inserts an item, by the stored counters. -/
def insertionPoint (starve : ℕ) (items : List (SinkItem α)) : ℕ :=
  match items.findIdx? (fun i => i.starveCounter.toNat < starve) with
  | some (k + 1) => k
  | _            => items.length

lemma insertionPoint_le (starve : ℕ) (items : List (SinkItem α)) :
    insertionPoint starve items ≤ items.length := by
  unfold insertionPoint
  split
  next k hk =>
    obtain ⟨hlt, -⟩ := List.findIdx?_eq_some_iff_getElem.mp hk
    exact Nat.le_of_succ_le (Nat.le_of_succ_le hlt)
  next => exact le_rfl

lemma place_eq_insertIdx (item : SinkItem α) (starve : ℕ) (items : List (SinkItem α)) :
    place item starve items = items.insertIdx (insertionPoint starve items) item := by
  unfold place insertionPoint
  cases items.findIdx? (fun i => i.starveCounter.toNat < starve) with
  | none => rw [List.insertIdx_length_self]
  | some k =>
    cases k with
    | zero => rw [List.insertIdx_length_self]
    | succ k => rfl

/-! ### Sinks do not look at objects -/

/-- A sink with its objects replaced. -/
def mapObjects (f : α → β) (s : Sink α) : Sink β :=
  { s with sinkItemList := s.sinkItemList.map (SinkItem.mapObject f) }

variable {s : Sink α}

lemma place_map (f : α → β) (item : SinkItem α) (starve : ℕ) (items : List (SinkItem α)) :
    place (item.mapObject f) starve (items.map (SinkItem.mapObject f)) =
      (place item starve items).map (SinkItem.mapObject f) := by
  have hfind : (items.map (SinkItem.mapObject f)).findIdx?
      (fun i => i.starveCounter.toNat < starve) =
        items.findIdx? (fun i => i.starveCounter.toNat < starve) := by
    rw [List.findIdx?_map]
    rfl
  unfold place
  rw [hfind]
  cases items.findIdx? (fun i => i.starveCounter.toNat < starve) with
  | none => simp
  | some k =>
    cases k with
    | zero => simp
    | succ k => rw [List.map_insertIdx]

lemma pushObject_mapObjects (f : α → β) (object : Option α) (priority : TaskPriority)
    (starveCounter : UInt8) :
    (s.mapObjects f).pushObject (object.map f) priority starveCounter =
      (fun (s', rc) => (s'.mapObjects f, rc)) <$> s.pushObject object priority starveCounter := by
  cases object with
  | none => rfl
  | some object =>
    have hlength : (s.mapObjects f).sinkItemList.length = s.sinkItemList.length :=
      List.length_map _
    have hplace := place_map f ⟨object, priority, starveCounter⟩ (calculateStarveCounter priority)
      s.sinkItemList
    simp only [pushObject, Option.map_some, hlength]
    split_ifs
    · rfl
    · cases hlock : semWait s.sinkLock with
      | error e =>
        simp only [mapObjects, hlock]
        rfl
      | ok lock =>
        simp only [mapObjects, hlock, Outcome.ok_bind]
        exact congrArg (fun items => Except.ok (Sink.mk items (semPost lock) s.sinkLimit, 0)) hplace

lemma popExport_mapObjects (f : α → β) : (s.mapObjects f).popExport =
    (fun (s', item) => (s'.mapObjects f, item.map fun i => ⟨f i.dataObject, i.taskPriority⟩)) <$>
      s.popExport := by
  unfold popExport
  cases hitems : s.sinkItemList with
  | nil =>
    have hnil : (s.mapObjects f).sinkItemList = [] := by rw [mapObjects, hitems, List.map_nil]
    rw [hnil]
    rfl
  | cons item items =>
    have hcons : (s.mapObjects f).sinkItemList =
        item.mapObject f :: items.map (SinkItem.mapObject f) := by
      rw [mapObjects, hitems, List.map_cons]
    rw [hcons]
    show (semWait s.sinkLock >>= _) = _
    cases semWait s.sinkLock <;> rfl

end Sink

/-! ### Numbered objects -/

/-- A sink of objects with the numbers of the calls that pushed them. -/
structure NumberedSink (α : Type) where
  sink : Sink (α × ℕ)
  pushes : ℕ

namespace NumberedSink

def init (α : Type) (maxSinkSize : ℕ) : NumberedSink α := ⟨.new maxSinkSize, 0⟩

def step (x : NumberedSink α) : SinkCall α → Outcome (NumberedSink α)
  | .pushObject object priority starveCounter => do
    let (sink, _) ← x.sink.pushObject (object.map fun o => (o, x.pushes)) priority starveCounter
    return ⟨sink, x.pushes + 1⟩
  | .popObject => do
    let (sink, _) ← x.sink.popExport
    return { x with sink }

variable {x x' : NumberedSink α} {maxSinkSize : ℕ} {call : SinkCall α} {calls : List (SinkCall α)}

/-- The same call on the plain sink. -/
lemma exists_step_unnumbered (h : x.step call = .ok x') {y : SinkLog α}
    (hy : y.sink = x.sink.mapObjects Prod.fst) :
    ∃ y', y.step call = .ok y' ∧ y'.sink = x'.sink.mapObjects Prod.fst := by
  cases call with
  | pushObject object priority starveCounter =>
    simp only [step, Outcome.bind_eq_ok, Outcome.pure_eq_ok] at h
    obtain ⟨⟨sink, rc⟩, hpush, rfl⟩ := h
    have hplain := Sink.pushObject_mapObjects (s := x.sink) Prod.fst
      (object.map fun o => (o, x.pushes)) priority starveCounter
    rw [hpush, Option.map_map, Function.comp_def, Option.map_id'] at hplain
    simp only [SinkLog.step, hy, hplain]
    exact ⟨_, rfl, rfl⟩
  | popObject =>
    simp only [step, Outcome.bind_eq_ok, Outcome.pure_eq_ok] at h
    obtain ⟨⟨sink, item⟩, hpop, rfl⟩ := h
    simp only [SinkLog.step, hy, Sink.popExport_mapObjects, hpop]
    exact ⟨_, rfl, rfl⟩

/-- Without the numbers, a run is one of the plain sink. -/
theorem exists_run_unnumbered (h : run step (init α maxSinkSize) calls = .ok x) :
    ∃ y, run SinkLog.step (SinkLog.init α maxSinkSize) calls = .ok y ∧
      y.sink = x.sink.mapObjects Prod.fst := by
  have hstep : ∀ (x : NumberedSink α) (y : SinkLog α) (call : SinkCall α) (x' : NumberedSink α),
      y.sink = x.sink.mapObjects Prod.fst → x.step call = .ok x' →
        ∃ y', y.step call = .ok y' ∧ y'.sink = x'.sink.mapObjects Prod.fst :=
    fun _ _ _ _ hy hs => exists_step_unnumbered hs hy
  exact exists_run_of_simulates hstep rfl h

/-! ### The order -/

/-- The item is more starved, or as starved and older. -/
def Precedes (a b : ExportSinkItem (α × ℕ)) : Prop :=
  calculateStarveCounter b.taskPriority < calculateStarveCounter a.taskPriority ∨
    (calculateStarveCounter a.taskPriority = calculateStarveCounter b.taskPriority ∧
      a.dataObject.2 < b.dataObject.2)

/-- What `popObject` returns precedes all that is left. -/
def PopsBest (x : NumberedSink α) : Prop :=
  ∀ s' item, x.sink.popExport = .ok (s', some item) → ∀ b ∈ s'.exports, Precedes item b

/-- The place that the stored counters lead to is the one behind all items that are at least as
starved. -/
def InPlace (x : NumberedSink α) : SinkCall α → Prop
  | .pushObject (some _) priority _ =>
    x.sink.sinkItemList.length < MAX_POOL_SIZE →
      Sink.insertionPoint (calculateStarveCounter priority) x.sink.sinkItemList =
        (x.sink.sinkItemList.filter fun i =>
          calculateStarveCounter priority ≤ calculateStarveCounter i.taskPriority).length
  | _ => True

/-- The invariant: the lock is free, and all numbers so far are smaller than the next one. -/
structure Numbered (x : NumberedSink α) : Prop where
  unlocked : x.sink.sinkLock = 1
  lt_pushes : ∀ i ∈ x.sink.sinkItemList, i.dataObject.2 < x.pushes

/-- The items are in the order in which they should be popped. -/
def Ordered (x : NumberedSink α) : Prop :=
  x.sink.sinkItemList.Pairwise fun a b => Precedes a.sinkItem b.sinkItem

lemma Precedes.trans {a b c : ExportSinkItem (α × ℕ)} (hab : Precedes a b) (hbc : Precedes b c) :
    Precedes a c := by
  unfold Precedes at *
  omega

/-! #### The outcomes of a step -/

lemma step_pushObject_none (priority : TaskPriority) (starveCounter : UInt8) :
    x.step (.pushObject none priority starveCounter) = .ok { x with pushes := x.pushes + 1 } := rfl

lemma step_pushObject_of_full (hfull : MAX_POOL_SIZE ≤ x.sink.sinkItemList.length) (object : α)
    (priority : TaskPriority) (starveCounter : UInt8) :
    x.step (.pushObject (some object) priority starveCounter) =
      .ok { x with pushes := x.pushes + 1 } := by
  simp only [step, Option.map_some, Sink.pushObject_of_full hfull, Outcome.ok_bind]
  rfl

lemma step_pushObject_of_room (hroom : x.sink.sinkItemList.length < MAX_POOL_SIZE)
    (hlock : 0 < x.sink.sinkLock) (object : α) (priority : TaskPriority) (starveCounter : UInt8) :
    x.step (.pushObject (some object) priority starveCounter) = .ok
      ⟨{ x.sink with
        sinkItemList := Sink.place ⟨(object, x.pushes), priority, starveCounter⟩
          (calculateStarveCounter priority) x.sink.sinkItemList },
      x.pushes + 1⟩ := by
  simp only [step, Option.map_some, Sink.pushObject_of_room hroom hlock, Outcome.ok_bind]
  rfl

/-- Popping takes the first item off, if there is one. -/
lemma step_popObject (hlock : 0 < x.sink.sinkLock) : x.step .popObject =
    .ok ⟨{ x.sink with sinkItemList := x.sink.sinkItemList.tail }, x.pushes⟩ := by
  cases hitems : x.sink.sinkItemList with
  | nil =>
    simp only [step, Sink.popExport_nil hitems, Outcome.ok_bind]
    rw [List.tail_nil, ← hitems]
    rfl
  | cons top items =>
    simp only [step, Sink.popExport_cons hitems hlock, Outcome.ok_bind]
    rfl

namespace Numbered

lemma init : (init α maxSinkSize).Numbered := ⟨rfl, fun _ hi => by cases hi⟩

lemma lock_pos (h : x.Numbered) : 0 < x.sink.sinkLock := by
  rw [h.unlocked]
  exact Nat.one_pos

/-- Every call returns. -/
lemma step (h : x.Numbered) (call : SinkCall α) : ∃ x', x.step call = .ok x' ∧ x'.Numbered := by
  have hnext : NumberedSink.Numbered { x with pushes := x.pushes + 1 } :=
    ⟨h.unlocked, fun i hi => Nat.lt_succ_of_lt (h.lt_pushes i hi)⟩
  cases call with
  | pushObject object priority starveCounter =>
    cases object with
    | none => exact ⟨_, step_pushObject_none priority starveCounter, hnext⟩
    | some object =>
      rcases Nat.lt_or_ge x.sink.sinkItemList.length MAX_POOL_SIZE with hroom | hfull
      · refine ⟨_, step_pushObject_of_room hroom h.lock_pos object priority starveCounter,
          h.unlocked, fun i hi => ?_⟩
        rcases List.mem_cons.mp ((Sink.place_perm _ _ _).mem_iff.mp hi) with rfl | hi
        · exact Nat.lt_succ_self _
        · exact hnext.lt_pushes i hi
      · exact ⟨_, step_pushObject_of_full hfull object priority starveCounter, hnext⟩
  | popObject =>
    refine ⟨_, step_popObject h.lock_pos, h.unlocked, fun i hi => ?_⟩
    exact h.lt_pushes i (List.mem_of_mem_tail hi)

lemma of_step (h : x.Numbered) (hstep : x.step call = .ok x') : x'.Numbered := by
  obtain ⟨t, ht, hnumbered⟩ := h.step call
  cases ht.symm.trans hstep
  exact hnumbered

/-- A new item is ordered at one place only: behind those that are at least as starved. -/
lemma ordered_insert (h : x.Numbered) (hordered : x.Ordered) (object : α) (priority : TaskPriority)
    (starveCounter : UInt8) {k : ℕ} (hk : k ≤ x.sink.sinkItemList.length) :
    (x.sink.sinkItemList.insertIdx k ⟨(object, x.pushes), priority, starveCounter⟩).Pairwise
        (fun a b => Precedes a.sinkItem b.sinkItem) ↔
      k = (x.sink.sinkItemList.filter fun i =>
        calculateStarveCounter priority ≤ calculateStarveCounter i.taskPriority).length := by
  apply pairwise_insertIdx_iff (fun _ _ hbc hca => hbc.trans hca) hordered ?_ ?_ hk
  · intro b hb hle
    have hlt := h.lt_pushes b hb
    rw [decide_eq_true_iff] at hle
    simp only [Precedes, SinkItem.sinkItem]
    omega
  · intro b hb hle
    have hlt := h.lt_pushes b hb
    rw [decide_eq_false_iff_not] at hle
    simp only [Precedes, SinkItem.sinkItem]
    omega

/-- What a step does to the order. -/
lemma ordered_step (h : x.Numbered) (hordered : x.Ordered) (hstep : x.step call = .ok x') :
    x'.Ordered ↔ x.InPlace call := by
  cases call with
  | pushObject object priority starveCounter =>
    cases object with
    | none =>
      rw [step_pushObject_none, Except.ok.injEq] at hstep
      rw [← hstep]
      exact iff_of_true hordered trivial
    | some object =>
      rcases Nat.lt_or_ge x.sink.sinkItemList.length MAX_POOL_SIZE with hroom | hfull
      · rw [step_pushObject_of_room hroom h.lock_pos, Except.ok.injEq] at hstep
        rw [← hstep]
        have hinsert := h.ordered_insert hordered object priority starveCounter
          (Sink.insertionPoint_le (calculateStarveCounter priority) x.sink.sinkItemList)
        rw [← Sink.place_eq_insertIdx] at hinsert
        exact hinsert.trans ⟨fun heq _ => heq, fun heq => heq hroom⟩
      · rw [step_pushObject_of_full hfull, Except.ok.injEq] at hstep
        rw [← hstep]
        exact iff_of_true hordered fun hroom => absurd hroom hfull.not_gt
  | popObject =>
    refine iff_of_true ?_ trivial
    rw [step_popObject h.lock_pos, Except.ok.injEq] at hstep
    rw [← hstep]
    exact List.Pairwise.tail hordered

/-- Popping takes items off the front. -/
lemma run_popObject (h : x.Numbered) (k : ℕ) : ∃ y,
    run NumberedSink.step x (List.replicate k .popObject) = .ok y ∧ y.Numbered ∧
      y.sink.sinkItemList = x.sink.sinkItemList.drop k := by
  induction k generalizing x with
  | zero => exact ⟨x, rfl, h, rfl⟩
  | succ k ih =>
    rw [List.replicate_succ]
    obtain ⟨t, ht, hnumbered⟩ := h.step .popObject
    obtain ⟨y, hy, hy', hdrop⟩ := ih hnumbered
    refine ⟨y, run_cons_eq_ok.mpr ⟨t, ht, hy⟩, hy', ?_⟩
    rw [step_popObject h.lock_pos, Except.ok.injEq] at ht
    rw [hdrop, ← ht, List.drop_tail]

lemma popsBest_iff (h : x.Numbered) : x.PopsBest ↔
    ∀ top items, x.sink.sinkItemList = top :: items →
      ∀ b ∈ items, Precedes top.sinkItem b.sinkItem := by
  constructor
  · intro hbest top items hitems b hb
    exact hbest _ _ (Sink.popExport_cons hitems h.lock_pos) _ (List.mem_map_of_mem hb)
  · intro hfront s' item hpop b hb
    rcases Sink.popExport_cases hpop with ⟨-, -, hnone⟩ | ⟨top, items, hitems, -, hitem, rfl⟩
    · cases hnone
    · cases hitem
      obtain ⟨i, hi, rfl⟩ := List.mem_map.mp hb
      exact hfront top items hitems i hi

/-- The items are in order when every `popObject` from here on returns the right one. -/
lemma ordered_iff (h : x.Numbered) : x.Ordered ↔
    ∀ k y, run NumberedSink.step x (List.replicate k .popObject) = .ok y → y.PopsBest := by
  rw [Ordered, pairwise_iff_forall_drop]
  constructor
  · intro hdrop k y hy
    obtain ⟨y', hy', hnumbered, hitems⟩ := h.run_popObject k
    cases hy.symm.trans hy'
    rw [hnumbered.popsBest_iff, hitems]
    exact fun top items => hdrop k top items
  · intro hbest k top items hdrop
    obtain ⟨y, hy, hnumbered, hitems⟩ := h.run_popObject k
    exact hnumbered.popsBest_iff.mp (hbest k y hy) top items (hitems.trans hdrop)

end Numbered

/-- In a run, however far it has got and however often the sink is popped from there, the item
returned precedes all that are left exactly when each new item was put in its place. -/
theorem run_popsBest_iff (h : run step (init α maxSinkSize) calls = .ok x) :
    Meets step InPlace (init α maxSinkSize) calls ↔
      ∀ calls₁ k t, calls₁ <+: calls →
        run step (init α maxSinkSize) (calls₁ ++ List.replicate k .popObject) = .ok t →
          t.PopsBest := by
  have hordered : (init α maxSinkSize).Ordered := List.Pairwise.nil
  rw [meets_iff_of_invariant (I := Ordered) (fun _ _ _ hx hs => Numbered.of_step hx hs)
    (fun _ _ _ hx ho hs => hx.ordered_step ho hs) .init hordered h]
  constructor
  · intro hall calls₁ k t hpre ht
    obtain ⟨y, hy, ht⟩ := run_append_eq_ok.mp ht
    have hnumbered := run_invariant (fun _ _ _ hx hs => Numbered.of_step hx hs) .init hy
    exact hnumbered.ordered_iff.mp (hall calls₁ y hpre hy) k t ht
  · intro hall calls₁ y hpre hy
    have hnumbered := run_invariant (fun _ _ _ hx hs => Numbered.of_step hx hs) .init hy
    refine hnumbered.ordered_iff.mpr fun k t ht => ?_
    exact hall calls₁ k t hpre (run_append_eq_ok.mpr ⟨y, hy, ht⟩)

/-- Two objects of the same priority, and one that is less starved. -/
theorem run_popsBest_iff_three : ∃ x,
    run step (init ℕ 20) [.pushObject (some 1) .highPriority 6, .pushObject (some 2) .highPriority 6,
      .pushObject (some 3) .lowPriority 0, .popObject] = .ok x ∧
    (Meets step InPlace (init ℕ 20) [.pushObject (some 1) .highPriority 6,
        .pushObject (some 2) .highPriority 6, .pushObject (some 3) .lowPriority 0, .popObject] ↔
      ∀ calls₁ k t, calls₁ <+: [.pushObject (some 1) .highPriority 6,
          .pushObject (some 2) .highPriority 6, .pushObject (some 3) .lowPriority 0, .popObject] →
        run step (init ℕ 20) (calls₁ ++ List.replicate k .popObject) = .ok t → t.PopsBest) :=
  Outcome.exists_ok_and (by decide) fun _ h => run_popsBest_iff h

/-- An item that is more starved than the only other one comes behind it, whatever the counters. -/
lemma exists_not_popsBest (c c' : UInt8) : ∃ x,
    run step (init ℕ 20) [.pushObject (some 1) .lowPriority c, .pushObject (some 2) .highPriority c']
      = .ok x ∧ ¬ x.PopsBest := by
  let low : SinkItem (ℕ × ℕ) := ⟨(1, 0), .lowPriority, c⟩
  let high : SinkItem (ℕ × ℕ) := ⟨(2, 1), .highPriority, c'⟩
  have hplace : Sink.place high 6 [low] = [low, high] := by
    unfold Sink.place
    rw [List.findIdx?_singleton]
    split_ifs <;> rfl
  have hrun : run step (init ℕ 20)
      [.pushObject (some 1) .lowPriority c, .pushObject (some 2) .highPriority c'] =
        .ok ⟨⟨Sink.place high 6 [low], 1, 20⟩, 2⟩ := rfl
  rw [hplace] at hrun
  refine ⟨_, hrun, fun hbest => ?_⟩
  have hprecedes := hbest _ _ rfl high.sinkItem List.mem_cons_self
  revert hprecedes
  simp [Precedes, low, high, SinkItem.sinkItem, calculateStarveCounter]

/-- The field is `0` in both, as the constructor means it to be. -/
theorem run_not_popsBest : ∃ x,
    run step (init ℕ 20) [.pushObject (some 1) .lowPriority 0, .pushObject (some 2) .highPriority 0]
      = .ok x ∧ ¬ x.PopsBest := exists_not_popsBest 0 0

end NumberedSink

end ServerUnit
