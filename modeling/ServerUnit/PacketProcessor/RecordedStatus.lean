import ServerUnit.PacketProcessor.OutgoingDataRegistry

/-!
# The recorded status of a table

The status that the registry has for a name, and what each call on the registry does to the status
of every name.
-/

namespace ServerUnit

open Lib

namespace OutgoingDataRegistry

/-- `getRegistryFromId(id)->taskStatus`, if the registry has the id. -/
def statusOf (r : OutgoingDataRegistry) (id : String) : Outcome (Option UserTaskStatus) := do
  match ← r.find id with
  | none => return none
  | some (_, i, _) => do
    let outDataState ← r.states.deref i
    return some outDataState.taskStatus

variable {r r' : OutgoingDataRegistry} {id id' : String} {i : OutDataRef}
  {before after : List OutDataRef} {st : OutgoingDataState} {status : UserTaskStatus}

/-! ### The status after a call -/

lemma statusOf_of_find (h : r.find id = .ok (some (before, i, after)))
    (hst : r.states.get i = some st) : r.statusOf id = .ok (some st.taskStatus) := by
  simp only [statusOf, h, Heap.deref, hst, Outcome.ofOption, Outcome.ok_bind]
  rfl

lemma statusOf_eq_some : r.statusOf id = .ok (some status) ↔
    ∃ before i after st, r.find id = .ok (some (before, i, after)) ∧
      r.states.get i = some st ∧ st.taskStatus = status := by
  constructor
  · intro h
    cases hfind : r.find id with
    | error e => simp [statusOf, hfind] at h
    | ok found =>
      cases found with
      | none => simp [statusOf, hfind, pure, Except.pure] at h
      | some found =>
        obtain ⟨before, i, after⟩ := found
        obtain ⟨-, st, hst, -⟩ := find_eq_some hfind
        rw [statusOf_of_find hfind hst] at h
        cases h
        exact ⟨before, i, after, st, rfl, hst, rfl⟩
  · rintro ⟨before, i, after, st, hfind, hst, rfl⟩
    exact statusOf_of_find hfind hst

lemma statusOf_eq_none : r.statusOf id = .ok none ↔ r.find id = .ok none := by
  cases hfind : r.find id with
  | error e => simp [statusOf, hfind]
  | ok found =>
    cases found with
    | none => simp [statusOf, hfind, pure, Except.pure]
    | some found =>
      obtain ⟨before, i, after⟩ := found
      obtain ⟨-, st, hst, -⟩ := find_eq_some hfind
      simp [statusOf_of_find hfind hst]

/-- An entry is overwritten by one of the same name. -/
lemma statusOf_put {st' : OutgoingDataState} (hfind : r.find id = .ok (some (before, i, after)))
    (hst : r.states.get i = some st) (hid : st'.id = st.id) :
    statusOf { r with states := r.states.put i st' } id' =
      if id' = id then .ok (some st'.taskStatus) else r.statusOf id' := by
  have hfind' : find { r with states := r.states.put i st' } id' = r.find id' :=
    find_put hst hid id'
  split_ifs with hname
  · subst hname
    exact statusOf_of_find (hfind'.trans hfind) (Heap.get_put_self hst)
  · unfold statusOf
    rw [hfind']
    cases hfound : r.find id' with
    | error e => rfl
    | ok found =>
      match found with
      | none => rfl
      | some (before', j, after') =>
        -- the entry found under another name is another one
        have hne : j ≠ i := by
          rintro rfl
          obtain ⟨-, st₁, hst₁, hid₁⟩ := find_eq_some hfind
          obtain ⟨-, st₂, hst₂, hid₂⟩ := find_eq_some hfound
          cases hst₁.symm.trans hst₂
          exact hname (hid₂.symm.trans hid₁)
        simp only [Outcome.ok_bind, Heap.deref, Heap.get_put_of_ne hne]

/-- A new entry is put last: other names are found where they were. -/
lemma statusOf_append (h : r.find id = .ok none) (worker : Option WorkerRef) :
    statusOf ⟨r.outDataRegistryList ++ [r.states.next], r.states.alloc ⟨id, .dataQueued, worker⟩⟩
        id' =
      if id' = id then .ok (some .dataQueued) else r.statusOf id' := by
  let r' : OutgoingDataRegistry :=
    ⟨r.outDataRegistryList ++ [r.states.next], r.states.alloc ⟨id, .dataQueued, worker⟩⟩
  have hnew : r'.states.get r.states.next = some ⟨id, .dataQueued, worker⟩ :=
    Heap.get_alloc_self _ _
  have halive := find_eq_none h
  have hold : splitFirst (r'.hasName id') r.outDataRegistryList = r.find id' := by
    apply splitFirst_congr
    intro i hi
    obtain ⟨st, hst, -⟩ := halive i hi
    have hst' : r'.states.get i = some st := Heap.get_alloc_of_get hst
    simp only [hasName, Heap.deref, hst, hst']
  have hfind' : r'.find id' = splitFirst (r'.hasName id') (r.outDataRegistryList ++ [r.states.next]) :=
    rfl
  show r'.statusOf id' = _
  obtain ⟨found, hfound⟩ : ∃ found, r.find id' = .ok found := by
    refine splitFirst_isOk fun i hi => ?_
    obtain ⟨st, hst, -⟩ := halive i hi
    exact ⟨_, hasName_eq_ok.mpr ⟨st, hst, rfl⟩⟩
  rw [hfound] at hold
  cases found with
  | some found =>
    obtain ⟨before, i, after⟩ := found
    have hname : id' ≠ id := by
      rintro rfl
      cases hfound.symm.trans h
    obtain ⟨-, st, hst, -⟩ := find_eq_some hfound
    rw [splitFirst_append_of_eq_some hold] at hfind'
    rw [if_neg hname, statusOf_of_find hfound hst]
    exact statusOf_of_find hfind' (Heap.get_alloc_of_get hst)
  | none =>
    rw [splitFirst_append_of_eq_none hold] at hfind'
    have hlast : r'.hasName id' r.states.next = .ok (id == id') :=
      hasName_eq_ok.mpr ⟨_, hnew, rfl⟩
    split_ifs with hname
    · subst hname
      have hfound' : r'.find id' = .ok (some (r.outDataRegistryList ++ [], r.states.next, [])) := by
        rw [hfind']
        simp [splitFirst, hlast, pure, Except.pure, Except.map]
      exact statusOf_of_find hfound' hnew
    · rw [statusOf_eq_none.mpr hfound, statusOf_eq_none, hfind']
      simp [splitFirst, hlast, Ne.symm hname, pure, Except.pure, Except.map]

/-- Nothing is added, or a name that was not there is queued. -/
lemma statusOf_add {resultStatus : Bool} {worker : Option WorkerRef}
    (h : r.add resultStatus id worker = .ok r') :
    (r' = r ∧ (resultStatus = true ∨ r.statusOf id ≠ .ok none)) ∨
      (r.statusOf id = .ok none ∧
        ∀ id', r'.statusOf id' = if id' = id then .ok (some .dataQueued) else r.statusOf id') := by
  simp only [add, Outcome.bind_eq_ok] at h
  obtain ⟨found, hfound, h⟩ := h
  cases found with
  | some found =>
    cases h
    refine .inl ⟨rfl, .inr ?_⟩
    rw [Ne, statusOf_eq_none, hfound]
    nofun
  | none =>
    cases resultStatus with
    | true =>
      cases h
      exact .inl ⟨rfl, .inl rfl⟩
    | false =>
      cases h
      exact .inr ⟨statusOf_eq_none.mpr hfound, fun id' => statusOf_append hfound worker⟩

lemma statusOf_assignWorker {worker : WorkerRef} {b : Bool}
    (h : r.assignWorker id worker = .ok (r', b)) : r'.statusOf id' = r.statusOf id' := by
  rcases assignWorker_cases h with ⟨-, rfl⟩ | ⟨before, i, after, st, hfind, hst, rfl⟩
  · rfl
  · have hid : ({ st with worker := some worker } : OutgoingDataState).id = st.id := rfl
    rw [statusOf_put hfind hst hid]
    split_ifs with hname
    · rw [hname, statusOf_of_find hfind hst]
    · rfl

/-- A status that is not below the recorded one takes its place. -/
lemma statusOf_updateTaskStatus {db db' : Database} {b : Bool}
    (h : r.updateTaskStatus db id status = .ok (r', db', b)) (id' : String) :
    r'.statusOf id' =
      if id' = id then (r.statusOf id').map (Option.map (max · status)) else r.statusOf id' := by
  rcases updateTaskStatus_cases h with
    ⟨hnone, rfl, -⟩ | ⟨before, i, after, st, hfind, hst, ⟨hlt, rfl, -⟩ | ⟨hge, rfl, -⟩⟩
  · split_ifs with hname
    · rw [hname, statusOf_eq_none.mpr hnone]
      rfl
    · rfl
  · split_ifs with hname
    · rw [hname, statusOf_of_find hfind hst, Except.map, Option.map_some, max_eq_left hlt.le]
    · rfl
  · have hid : ({ st with taskStatus := status } : OutgoingDataState).id = st.id := rfl
    rw [statusOf_put hfind hst hid]
    split_ifs with hname
    · rw [hname, statusOf_of_find hfind hst, Except.map, Option.map_some,
        max_eq_right (not_lt.mp hge)]
    · rfl

end OutgoingDataRegistry

end ServerUnit
