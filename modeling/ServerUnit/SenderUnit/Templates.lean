import ServerUnit.WorkerNode.Registry

/-!
# Templates and the workers that wait for them

`sender_unit/userdata_template_registry.cpp`: the templates, with their JSON renderings.
`sender_unit/worker_instance_list.cpp`: which templates a worker has still to acknowledge
before it is ready.
-/

namespace ServerUnit

open Lib

/-- The name and the data are taken to be UTF-8 text. -/
structure UserDataTemplateStruct where
  templateName : String
  algoType : UInt8
  data : Option String
  deriving DecidableEq

/-- The JSON rendering of a template. -/
structure TemplateJson where
  instanceid : String
  algotype : UInt8
  data : String
  deriving DecidableEq

/-! ### Tracking -/

structure WorkerInstanceStruct where
  workerUid : String
  templateIdList : List String
  deriving DecidableEq

/-- Erase the first occurrence. -/
def WorkerInstanceStruct.update (e : WorkerInstanceStruct) (templateId : String) :
    WorkerInstanceStruct :=
  { e with templateIdList := e.templateIdList.erase templateId }

structure WorkerInstanceList where
  workerList : List WorkerInstanceStruct
  templateIdList : List String
  deriving DecidableEq

namespace WorkerInstanceList

def new : WorkerInstanceList := ⟨[], []⟩

def updateInstanceList (l : WorkerInstanceList) (templateList : List UserDataTemplateStruct) :
    WorkerInstanceList :=
  { l with templateIdList := templateList.map (·.templateName) }

def addWorker (l : WorkerInstanceList) (registry : WorkerRegistry) (workerUid : String) :
    Outcome (WorkerInstanceList × WorkerRegistry) := do
  match ← registry.getWorkerFromUid workerUid with
  | none => return (l, registry)
  | some worker => do
    let w ← registry.workers.deref worker
    return ({ l with workerList := l.workerList ++ [⟨workerUid, l.templateIdList⟩] },
      { registry with workers := registry.workers.put worker { w with workerReady := false } })

/-- Only the first entry of the worker is updated. -/
def updateWorker (l : WorkerInstanceList) (registry : WorkerRegistry)
    (workerUid templateId : String) : Outcome (WorkerInstanceList × WorkerRegistry) := do
  match ← splitFirst (fun e => .ok (workerUid == e.workerUid)) l.workerList with
  | none => return (l, registry)
  | some (before, e, after) => do
    let e := e.update templateId
    if e.templateIdList.length = 0 then
      -- all instance packets were acknowledged
      let worker ← Outcome.ofOption (← registry.getWorkerFromUid e.workerUid)
      let w ← registry.workers.deref worker
      return ({ l with workerList := before ++ after },
        { registry with workers := registry.workers.put worker { w with workerReady := true } })
    else
      return ({ l with workerList := before ++ e :: after }, registry)

variable {l l' : WorkerInstanceList} {registry registry' : WorkerRegistry}
  {workerUid templateId : String}

lemma addWorker_cases (h : l.addWorker registry workerUid = .ok (l', registry')) :
    (registry.getWorkerFromUid workerUid = .ok none ∧ l' = l ∧ registry' = registry) ∨
    ∃ worker w, registry.getWorkerFromUid workerUid = .ok (some worker) ∧
      registry.workers.get worker = some w ∧
      l' = { l with workerList := l.workerList ++ [⟨workerUid, l.templateIdList⟩] } ∧
      registry' =
        { registry with workers := registry.workers.put worker { w with workerReady := false } } := by
  simp only [addWorker, Outcome.bind_eq_ok] at h
  obtain ⟨found, hfound, h⟩ := h
  cases found with
  | none =>
    left
    simp only [Outcome.pure_eq_ok, Prod.mk.injEq] at h
    exact ⟨hfound, h.1.symm, h.2.symm⟩
  | some worker =>
    right
    simp only [Outcome.bind_eq_ok, Heap.deref_eq_ok, Outcome.pure_eq_ok, Prod.mk.injEq] at h
    obtain ⟨w, hw, rfl, rfl⟩ := h
    exact ⟨worker, w, hfound, hw, rfl, rfl⟩

/-- The outcomes of `updateWorker`. -/
inductive UpdateRule (l : WorkerInstanceList) (registry : WorkerRegistry)
    (workerUid templateId : String) : WorkerInstanceList → WorkerRegistry → Prop where
  /-- The worker is not tracked. -/
  | untracked (hnone : ∀ e ∈ l.workerList, e.workerUid ≠ workerUid) :
      UpdateRule l registry workerUid templateId l registry
  /-- The template was the last of the worker's first entry. -/
  | ready (before after : List WorkerInstanceStruct) (e : WorkerInstanceStruct)
      (worker : WorkerRef) (w : Worker)
      (hlist : l.workerList = before ++ e :: after)
      (hbefore : ∀ e ∈ before, e.workerUid ≠ workerUid) (he : e.workerUid = workerUid)
      (hlast : e.templateIdList.erase templateId = [])
      (hworker : registry.getWorkerFromUid workerUid = .ok (some worker))
      (hw : registry.workers.get worker = some w) :
      UpdateRule l registry workerUid templateId { l with workerList := before ++ after }
        { registry with workers := registry.workers.put worker { w with workerReady := true } }
  /-- Others of the first entry remain. -/
  | waiting (before after : List WorkerInstanceStruct) (e : WorkerInstanceStruct)
      (hlist : l.workerList = before ++ e :: after)
      (hbefore : ∀ e ∈ before, e.workerUid ≠ workerUid) (he : e.workerUid = workerUid)
      (hmore : e.templateIdList.erase templateId ≠ []) :
      UpdateRule l registry workerUid templateId
        { l with workerList := before ++ e.update templateId :: after } registry

lemma UpdateRule.of_updateWorker
    (h : l.updateWorker registry workerUid templateId = .ok (l', registry')) :
    UpdateRule l registry workerUid templateId l' registry' := by
  simp only [updateWorker, Outcome.bind_eq_ok] at h
  obtain ⟨found, hfound, h⟩ := h
  cases found with
  | none =>
    simp only [Outcome.pure_eq_ok, Prod.mk.injEq] at h
    obtain ⟨rfl, rfl⟩ := h
    refine .untracked fun e he => ?_
    have := splitFirst_eq_none hfound e he
    simp only [Except.ok.injEq, beq_eq_false_iff_ne] at this
    exact this.symm
  | some found =>
    obtain ⟨before, e, after⟩ := found
    obtain ⟨hlist, hbefore, he⟩ := splitFirst_eq_some hfound
    have hne : ∀ e ∈ before, e.workerUid ≠ workerUid := by
      intro e he
      have := hbefore e he
      simp only [Except.ok.injEq, beq_eq_false_iff_ne] at this
      exact this.symm
    have huid : e.workerUid = workerUid := by
      simp only [Except.ok.injEq, beq_iff_eq] at he
      exact he.symm
    simp only at h
    split_ifs at h with hlast
    · simp only [Outcome.bind_eq_ok, Outcome.ofOption_eq_ok, Heap.deref_eq_ok,
        Outcome.pure_eq_ok, Prod.mk.injEq] at h
      obtain ⟨_, hworker, worker, rfl, w, hw, rfl, rfl⟩ := h
      refine .ready before after e worker w hlist hne huid (List.length_eq_zero_iff.mp hlast) ?_ hw
      rw [← huid]
      exact hworker
    · simp only [Outcome.pure_eq_ok, Prod.mk.injEq] at h
      obtain ⟨rfl, rfl⟩ := h
      exact .waiting before after e hlist hne huid fun hnil =>
        hlast (List.length_eq_zero_iff.mpr hnil)

end WorkerInstanceList

/-! ### The template registry -/

structure UserDataTemplate where
  uDataTemplateList : List UserDataTemplateStruct
  uDataTemplateJsonList : List TemplateJson
  uDataTemplateListLock : ℕ
  dataUpdated : Bool
  deriving DecidableEq

namespace UserDataTemplate

/-- The constructor: `dataUpdated.initFlag()` sets the flag. -/
def new : UserDataTemplate := ⟨[], [], 1, true⟩

/-- The loop that discards templates. The flag is set before the search, so the search cannot
leave it clear and nothing is discarded. -/
def discard (templateStruct uDataTemplateList : List UserDataTemplateStruct) :
    List UserDataTemplateStruct :=
  uDataTemplateList.filter fun instanceListItem =>
    let itemPresent := true
    if templateStruct.any (fun j => j.templateName == instanceListItem.templateName) then true
    else itemPresent

/-- The loop that adds the templates whose name is not in the list yet. -/
def addNew (uDataTemplateList : List UserDataTemplateStruct) :
    List UserDataTemplateStruct → List UserDataTemplateStruct
  | [] => uDataTemplateList
  | i :: templateStruct =>
    if uDataTemplateList.any (fun j => i.templateName == j.templateName) then
      addNew uDataTemplateList templateStruct
    else
      addNew (uDataTemplateList ++ [i]) templateStruct

/-- The JSON of one template; its data pointer is followed. -/
def render (i : UserDataTemplateStruct) : Outcome TemplateJson := do
  let data ← Outcome.ofOption i.data
  return ⟨i.templateName, i.algoType, data⟩

/-- Returns `EXIT_FAILURE` on an empty list. -/
def update (t : UserDataTemplate) (workerInstanceList : WorkerInstanceList)
    (templateStruct : List UserDataTemplateStruct) :
    Outcome (UserDataTemplate × WorkerInstanceList × ℕ) :=
  if templateStruct.length = 0 then
    return (t, workerInstanceList, 1)
  else do
    let lock ← semWait t.uDataTemplateListLock
    let uDataTemplateList := addNew (discard templateStruct t.uDataTemplateList) templateStruct
    let uDataTemplateJsonList ← uDataTemplateList.mapM render
    return ({
      uDataTemplateList, uDataTemplateJsonList
      uDataTemplateListLock := semPost lock
      dataUpdated := true }, workerInstanceList.updateInstanceList uDataTemplateList, 0)

def toJson (t : UserDataTemplate) : List TemplateJson := t.uDataTemplateJsonList

def resetFlag (t : UserDataTemplate) : UserDataTemplate := { t with dataUpdated := false }

def getUpdateStatus (t : UserDataTemplate) : Bool := t.dataUpdated

/-- The list lock is taken for the search, and released on both ways out. -/
def isMatchingFound (t : UserDataTemplate) (templateId : String) : Outcome Bool := do
  let _ ← semWait t.uDataTemplateListLock
  return t.uDataTemplateList.any fun i => templateId == i.templateName

/-! ### What the calls can do -/

variable {t t' : UserDataTemplate} {l l' : WorkerInstanceList}
  {templateStruct uDataTemplateList : List UserDataTemplateStruct}

/-- Nothing is ever discarded. -/
lemma discard_eq : discard templateStruct uDataTemplateList = uDataTemplateList := by
  simp [discard]

lemma instanceid_of_render {i : UserDataTemplateStruct} {j : TemplateJson}
    (h : render i = .ok j) : j.instanceid = i.templateName := by
  simp only [render, Outcome.bind_eq_ok, Outcome.pure_eq_ok] at h
  obtain ⟨data, -, rfl⟩ := h
  rfl

/-- The renderings name the templates, in order. -/
lemma instanceids_of_mapM_render {list : List UserDataTemplateStruct} {json : List TemplateJson}
    (h : list.mapM render = .ok json) : json.map (·.instanceid) = list.map (·.templateName) := by
  induction Outcome.mapM_eq_ok.mp h with
  | nil => rfl
  | cons hj hjson ih =>
    simp only [List.map_cons, instanceid_of_render hj, ih (Outcome.mapM_eq_ok.mpr hjson)]

lemma update_cases {rc : ℕ} (h : t.update l templateStruct = .ok (t', l', rc)) :
    (templateStruct = [] ∧ t' = t ∧ l' = l) ∨
    ∃ json, (addNew t.uDataTemplateList templateStruct).mapM render = .ok json ∧
      t' = { t with
        uDataTemplateList := addNew t.uDataTemplateList templateStruct
        uDataTemplateJsonList := json
        dataUpdated := true } ∧
      l' = l.updateInstanceList (addNew t.uDataTemplateList templateStruct) := by
  unfold update at h
  split_ifs at h with hempty
  · left
    simp only [Outcome.pure_eq_ok, Prod.mk.injEq] at h
    exact ⟨List.length_eq_zero_iff.mp hempty, h.1.symm, h.2.1.symm⟩
  · right
    simp only [Outcome.bind_eq_ok, semWait_eq_ok, discard_eq, Outcome.pure_eq_ok,
      Prod.mk.injEq] at h
    obtain ⟨lock, hlock, json, hjson, rfl, rfl, -⟩ := h
    refine ⟨json, hjson, ?_, rfl⟩
    rw [semPost, ← hlock]

end UserDataTemplate

end ServerUnit
