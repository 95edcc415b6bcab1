import ServerUnit.WorkerNode.Basic
import ServerUnit.Services.SqlAccess

/-!
# The registry of outgoing data (`packet_processor/outgoing_data_registry.cpp`)

The registry is a list of references to `OutgoingDataState` objects. Every member function
looks for the first object of a given id in the same loop, which is `find` here.
-/

namespace ServerUnit

open Lib

structure OutgoingDataRegistry where
  outDataRegistryList : List OutDataRef
  states : Heap OutgoingDataState
  deriving DecidableEq

/-- The text a status is shown by. -/
def userStatusEnumToString : UserTaskStatus → String
  | .dataQueued => "Data has been queued"
  | .dataReady  => "Searching for free workers"
  | .dataSent   => "Data has been sent to worker"
  | .dataInter  => "Intermediate data received successfully"
  | .dataFinal  => "Success"
  | .dataError  => "Error in uploaded data"

def updateStatusInDb (result dataTableName : String) (db : Database) : Database :=
  db.sqlWriteString result USERDAT_STATUS_COL_ID USERDAT_ALIASNAME_COL_ID dataTableName

namespace OutgoingDataRegistry

def new : OutgoingDataRegistry := ⟨[], .empty⟩

/-- `(*i)->id == id`. -/
def hasName (r : OutgoingDataRegistry) (id : String) (i : OutDataRef) : Outcome Bool := do
  let outDataState ← r.states.deref i
  return outDataState.id == id

/-- The loop of all member functions: the first entry with the id, and the entries around it. -/
def find (r : OutgoingDataRegistry) (id : String) :
    Outcome (Option (List OutDataRef × OutDataRef × List OutDataRef)) :=
  splitFirst (r.hasName id) r.outDataRegistryList

/-- `resultStatus` is the local flag, with the value it has before it is first set. -/
def add (r : OutgoingDataRegistry) (resultStatus : Bool) (dataTableName : String)
    (worker : Option WorkerRef) : Outcome OutgoingDataRegistry := do
  let found ← r.find dataTableName
  let resultStatus := if found.isSome then true else resultStatus
  if !resultStatus then
    return {
      outDataRegistryList := r.outDataRegistryList ++ [r.states.next]
      states := r.states.alloc ⟨dataTableName, .dataQueued, worker⟩ }
  else
    return r

/-- `erase(i--)` leaves `i` on the entry before the erased one: that object is destroyed. -/
def delete (r : OutgoingDataRegistry) (dataTableName : String) :
    Outcome (OutgoingDataRegistry × ℤ) := do
  match ← r.find dataTableName with
  | some (before, _, after) => do
    let previous ← Outcome.ofOption before.getLast?
    let _ ← r.states.deref previous
    return ({ outDataRegistryList := before ++ after, states := r.states.free previous }, 0)
  | none => return (r, -1)

def findMatchInList (r : OutgoingDataRegistry) (dataTableName : String) : Outcome Bool := do
  return (← r.find dataTableName).isSome

def assignWorker (r : OutgoingDataRegistry) (id : String) (worker : WorkerRef) :
    Outcome (OutgoingDataRegistry × Bool) := do
  match ← r.find id with
  | some (_, i, _) => do
    let outDataState ← r.states.deref i
    return ({ r with states := r.states.put i { outDataState with worker := some worker } },
      true)
  | none => return (r, false)

/-- A status below the recorded one is ignored. -/
def updateTaskStatus (r : OutgoingDataRegistry) (db : Database) (dataTableName : String)
    (status : UserTaskStatus) : Outcome (OutgoingDataRegistry × Database × Bool) := do
  match ← r.find dataTableName with
  | some (_, i, _) => do
    let outDataState ← r.states.deref i
    if status < outDataState.taskStatus then
      return (r, db, true)
    else
      let result := userStatusEnumToString status
      let db := if !result.isEmpty then updateStatusInDb result dataTableName db else db
      return ({ r with states := r.states.put i { outDataState with taskStatus := status } },
        db, true)
  | none => return (r, db, false)

def getRegistryFromId (r : OutgoingDataRegistry) (id : String) : Outcome (Option OutDataRef) := do
  return (← r.find id).map fun found => found.2.1

/-! ### What the calls can do -/

variable {r r' : OutgoingDataRegistry} {id : String} {i : OutDataRef}
  {before after : List OutDataRef}

lemma hasName_eq_ok {b : Bool} :
    r.hasName id i = .ok b ↔ ∃ st, r.states.get i = some st ∧ (st.id == id) = b := by
  simp [hasName]

/-- The entry found has the id. -/
lemma find_eq_some (h : r.find id = .ok (some (before, i, after))) :
    r.outDataRegistryList = before ++ i :: after ∧
      ∃ st, r.states.get i = some st ∧ st.id = id := by
  obtain ⟨hlist, -, hi⟩ := splitFirst_eq_some h
  obtain ⟨st, hst, hid⟩ := hasName_eq_ok.mp hi
  exact ⟨hlist, st, hst, by simpa using hid⟩

/-- No entry found: none has the id. -/
lemma find_eq_none (h : r.find id = .ok none) :
    ∀ i ∈ r.outDataRegistryList, ∃ st, r.states.get i = some st ∧ st.id ≠ id := by
  intro i hi
  obtain ⟨st, hst, hid⟩ := hasName_eq_ok.mp (splitFirst_eq_none h i hi)
  exact ⟨st, hst, by simpa using hid⟩

lemma getRegistryFromId_eq_ok {o : Option OutDataRef} :
    r.getRegistryFromId id = .ok o ↔
      ∃ found, r.find id = .ok found ∧ (found.map fun f => f.2.1) = o := by
  simp only [getRegistryFromId, Outcome.bind_eq_ok, Outcome.pure_eq_ok]

/-- A table enters the registry only when the flag was clear and its name is not there yet. -/
lemma add_cases {resultStatus : Bool} {worker : Option WorkerRef}
    (h : r.add resultStatus id worker = .ok r') :
    r' = r ∨ (resultStatus = false ∧ r.find id = .ok none ∧
      r' = ⟨r.outDataRegistryList ++ [r.states.next],
        r.states.alloc ⟨id, .dataQueued, worker⟩⟩) := by
  simp only [add, Outcome.bind_eq_ok] at h
  obtain ⟨found, hfound, h⟩ := h
  cases found with
  | some found =>
    left
    exact (Outcome.pure_eq_ok.mp h).symm
  | none =>
    cases resultStatus with
    | true =>
      left
      exact (Outcome.pure_eq_ok.mp h).symm
    | false =>
      right
      exact ⟨rfl, hfound, (Outcome.pure_eq_ok.mp h).symm⟩

/-- The entry found is given the worker. -/
lemma assignWorker_cases {worker : WorkerRef} {b : Bool}
    (h : r.assignWorker id worker = .ok (r', b)) :
    (r.find id = .ok none ∧ r' = r) ∨
    ∃ before i after st, r.find id = .ok (some (before, i, after)) ∧
      r.states.get i = some st ∧
      r' = { r with states := r.states.put i { st with worker := some worker } } := by
  simp only [assignWorker, Outcome.bind_eq_ok] at h
  obtain ⟨found, hfound, h⟩ := h
  cases found with
  | none =>
    left
    simp only [Outcome.pure_eq_ok, Prod.mk.injEq] at h
    exact ⟨hfound, h.1.symm⟩
  | some found =>
    obtain ⟨before, i, after⟩ := found
    right
    simp only [Outcome.bind_eq_ok, Heap.deref_eq_ok, Outcome.pure_eq_ok, Prod.mk.injEq] at h
    obtain ⟨st, hst, rfl, -⟩ := h
    exact ⟨before, i, after, st, hfound, hst, rfl⟩

lemma isEmpty_userStatusEnumToString (status : UserTaskStatus) :
    (userStatusEnumToString status).isEmpty = false := by
  cases status <;> decide

/-- A status that is not below the recorded one is recorded and written to the database. -/
lemma updateTaskStatus_cases {db db' : Database} {status : UserTaskStatus} {b : Bool}
    (h : r.updateTaskStatus db id status = .ok (r', db', b)) :
    (r.find id = .ok none ∧ r' = r ∧ db' = db) ∨
    ∃ before i after st, r.find id = .ok (some (before, i, after)) ∧
      r.states.get i = some st ∧
      ((status < st.taskStatus ∧ r' = r ∧ db' = db) ∨
        (¬ status < st.taskStatus ∧
          r' = { r with states := r.states.put i { st with taskStatus := status } } ∧
          db' = updateStatusInDb (userStatusEnumToString status) id db)) := by
  simp only [updateTaskStatus, Outcome.bind_eq_ok] at h
  obtain ⟨found, hfound, h⟩ := h
  cases found with
  | none =>
    left
    simp only [Outcome.pure_eq_ok, Prod.mk.injEq] at h
    exact ⟨hfound, h.1.symm, h.2.1.symm⟩
  | some found =>
    obtain ⟨before, i, after⟩ := found
    right
    simp only [Outcome.bind_eq_ok, Heap.deref_eq_ok] at h
    obtain ⟨st, hst, h⟩ := h
    refine ⟨before, i, after, st, hfound, hst, ?_⟩
    split_ifs at h with hlt hempty
    · left
      simp only [Outcome.pure_eq_ok, Prod.mk.injEq] at h
      exact ⟨hlt, h.1.symm, h.2.1.symm⟩
    · right
      simp only [Outcome.pure_eq_ok, Prod.mk.injEq] at h
      exact ⟨hlt, h.1.symm, h.2.1.symm⟩
    · simp [isEmpty_userStatusEnumToString] at hempty

/-- With an entry overwritten by one of the same name, every name is found where it was. -/
lemma find_put {st st' : OutgoingDataState} (hst : r.states.get i = some st) (hid : st'.id = st.id)
    (id : String) : find { r with states := r.states.put i st' } id = r.find id := by
  unfold find
  congr 1
  funext j
  simp only [hasName, Heap.deref, Heap.get_put hst]
  split_ifs with hj
  · rw [hj, hst]
    simp [Outcome.ofOption, hid]
  · rfl

end OutgoingDataRegistry

end ServerUnit
