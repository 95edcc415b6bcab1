import ServerUnit.WorkerNode.Rules

/-!
# The worker registry (`worker_node/worker_registry.cpp`)
-/

namespace ServerUnit

open Lib

structure WorkerRegistry where
  workers : Heap Worker
  currentWorkerList : List WorkerRef
  deadWorkerList : List String
  newWorker : Bool
  deriving DecidableEq

namespace WorkerRegistry

def new : WorkerRegistry := ⟨.empty, [], [], false⟩

/-- `worker->getWorkerUID() == workerUid`. -/
def hasUid (r : WorkerRegistry) (workerUid : String) (worker : WorkerRef) : Outcome Bool := do
  let w ← r.workers.deref worker
  return w.workerUID == workerUid

/-- The list holds no null pointers; an absent worker is `none`. -/
def getWorkerFromUid (r : WorkerRegistry) (workerUid : String) : Outcome (Option WorkerRef) := do
  return (← splitFirst (r.hasUid workerUid) r.currentWorkerList).map fun found => found.2.1

/-- The loop of `generateWorkerUid` over the numbers drawn. A draw that is taken clears the
flag, which nothing sets again. The call is not made when the draws run out before it returns. -/
def drawUid (r : WorkerRegistry) : Bool → List ℕ → Outcome String
  | _, [] => .error .disabled
  | failed, computeNodeId :: draws => do
    let finalComputeNodeId := toString computeNodeId
    let current ← splitFirst (r.hasUid finalComputeNodeId) r.currentWorkerList
    let failed := if current.isSome then false else failed
    let failed := if r.deadWorkerList.contains finalComputeNodeId then false else failed
    if failed then return finalComputeNodeId else r.drawUid failed draws

/-- Registers a worker under a fresh UID and returns the UID. -/
def generateWorkerUid (r : WorkerRegistry) (draws : List ℕ) :
    Outcome (WorkerRegistry × String) := do
  let finalComputeNodeId ← r.drawUid true draws
  return ({ r with
    workers := r.workers.alloc (.new finalComputeNodeId)
    currentWorkerList := r.workers.next :: r.currentWorkerList
    newWorker := true }, finalComputeNodeId)

/-- Returns the packets the worker had. -/
def deleteWorker (r : WorkerRegistry) (worker : WorkerRef) :
    Outcome (WorkerRegistry × List OutPacketRef) := do
  let w ← r.workers.deref worker
  let (w, outPacket) ← w.shutDown
  return ({ r with
    workers := r.workers.free worker
    currentWorkerList := r.currentWorkerList.filter (· ≠ worker)
    deadWorkerList := w.workerUID :: r.deadWorkerList }, outPacket)

/-! ### What the calls can do -/

variable {r r' : WorkerRegistry} {workerUid : String} {worker : WorkerRef}

lemma hasUid_eq_ok {b : Bool} :
    r.hasUid workerUid worker = .ok b ↔
      ∃ w, r.workers.get worker = some w ∧ (w.workerUID == workerUid) = b := by
  simp [hasUid]

/-- A worker found is registered and has the UID. -/
lemma of_getWorkerFromUid (h : r.getWorkerFromUid workerUid = .ok (some worker)) :
    worker ∈ r.currentWorkerList ∧
      ∃ w, r.workers.get worker = some w ∧ w.workerUID = workerUid := by
  simp only [getWorkerFromUid, Outcome.bind_eq_ok, Outcome.pure_eq_ok] at h
  obtain ⟨found, hfound, h⟩ := h
  cases found with
  | none => simp at h
  | some found =>
    obtain ⟨before, i, after⟩ := found
    simp only [Option.map_some, Option.some.injEq] at h
    obtain ⟨hlist, -, hi⟩ := splitFirst_eq_some hfound
    obtain ⟨w, hw, huid⟩ := hasUid_eq_ok.mp hi
    rw [← h, hlist]
    exact ⟨by simp, w, hw, by simpa using huid⟩

/-- No worker found: no registered worker has the UID. -/
lemma of_getWorkerFromUid_none (h : r.getWorkerFromUid workerUid = .ok none) :
    ∀ worker ∈ r.currentWorkerList,
      ∃ w, r.workers.get worker = some w ∧ w.workerUID ≠ workerUid := by
  simp only [getWorkerFromUid, Outcome.bind_eq_ok, Outcome.pure_eq_ok] at h
  obtain ⟨found, hfound, h⟩ := h
  cases found with
  | some found => simp at h
  | none =>
    intro worker hmem
    obtain ⟨w, hw, huid⟩ := hasUid_eq_ok.mp (splitFirst_eq_none hfound worker hmem)
    exact ⟨w, hw, by simpa using huid⟩

/-- A listed worker is found when no other one listed has its UID. -/
lemma getWorkerFromUid_eq {w : Worker}
    (hthere : ∀ b ∈ r.currentWorkerList, ∃ v, r.workers.get b = some v)
    (hdistinct : ∀ a ∈ r.currentWorkerList, ∀ v, r.workers.get a = some v →
      v.workerUID = w.workerUID → a = worker)
    (hmem : worker ∈ r.currentWorkerList) (hw : r.workers.get worker = some w) :
    r.getWorkerFromUid w.workerUID = .ok (some worker) := by
  obtain ⟨found, hfound⟩ : ∃ found, r.getWorkerFromUid w.workerUID = .ok found := by
    have htest : ∀ b ∈ r.currentWorkerList, ∃ t, r.hasUid w.workerUID b = .ok t := by
      intro b hb
      obtain ⟨v, hv⟩ := hthere b hb
      exact ⟨v.workerUID == w.workerUID, hasUid_eq_ok.mpr ⟨v, hv, rfl⟩⟩
    obtain ⟨o, ho⟩ := splitFirst_isOk htest
    exact ⟨o.map fun found => found.2.1, by simp [getWorkerFromUid, ho, pure, Except.pure]⟩
  rw [hfound]
  cases found with
  | none =>
    obtain ⟨v, hv, hne⟩ := of_getWorkerFromUid_none hfound worker hmem
    rw [hw] at hv
    cases hv
    exact absurd rfl hne
  | some b =>
    obtain ⟨hb, v, hv, huid⟩ := of_getWorkerFromUid hfound
    rw [hdistinct b hb v hv huid]

/-- The search for a worker only looks at the UIDs. -/
lemma getWorkerFromUid_congr (hlist : r'.currentWorkerList = r.currentWorkerList)
    (huid : ∀ b, (r'.workers.get b).map Worker.workerUID = (r.workers.get b).map Worker.workerUID) :
    r'.getWorkerFromUid workerUid = r.getWorkerFromUid workerUid := by
  have hhas : r'.hasUid workerUid = r.hasUid workerUid := by
    funext b
    have hb := huid b
    unfold hasUid Heap.deref
    cases hr : r.workers.get b <;> cases hr' : r'.workers.get b <;> simp_all [Outcome.ofOption]
  rw [getWorkerFromUid, getWorkerFromUid, hhas, hlist]

/-- Only the first draw can be taken, since a draw that is not taken leaves the flag clear. Its UID
is no registered worker's and no removed one's. -/
lemma drawUid_cases {failed : Bool} {draws : List ℕ}
    (h : r.drawUid failed draws = .ok workerUid) :
    failed = true ∧ splitFirst (r.hasUid workerUid) r.currentWorkerList = .ok none ∧
      workerUid ∉ r.deadWorkerList := by
  induction draws generalizing failed with
  | nil => simp [drawUid] at h
  | cons n draws ih =>
    simp only [drawUid, Outcome.bind_eq_ok] at h
    obtain ⟨current, hcurrent, h⟩ := h
    cases current with
    | some found =>
      simp only [Option.isSome_some, if_true, ite_self, Bool.false_eq_true, if_false] at h
      exact absurd (ih h).1 Bool.false_ne_true
    | none =>
      cases hdead : r.deadWorkerList.contains (toString n) with
      | true =>
        simp only [hdead, if_true, Bool.false_eq_true, if_false] at h
        exact absurd (ih h).1 Bool.false_ne_true
      | false =>
        simp only [hdead, Option.isSome_none, Bool.false_eq_true, if_false] at h
        cases failed with
        | false => exact absurd (ih h).1 Bool.false_ne_true
        | true =>
          obtain rfl : toString n = workerUid := Outcome.pure_eq_ok.mp h
          exact ⟨rfl, hcurrent, by simpa using hdead⟩

/-- The UID drawn is no registered worker's. -/
lemma of_drawUid {failed : Bool} {draws : List ℕ} (h : r.drawUid failed draws = .ok workerUid) :
    ∀ worker ∈ r.currentWorkerList,
      ∃ w, r.workers.get worker = some w ∧ w.workerUID ≠ workerUid := by
  intro worker hmem
  obtain ⟨-, hcurrent, -⟩ := drawUid_cases h
  obtain ⟨w, hw, hne⟩ := hasUid_eq_ok.mp (splitFirst_eq_none hcurrent worker hmem)
  exact ⟨w, hw, by simpa using hne⟩

/-- The new worker is a new object under a UID that was free. -/
lemma generateWorkerUid_cases {draws : List ℕ}
    (h : r.generateWorkerUid draws = .ok (r', workerUid)) :
    r' = { r with
      workers := r.workers.alloc (.new workerUid)
      currentWorkerList := r.workers.next :: r.currentWorkerList
      newWorker := true } ∧
    ∀ worker ∈ r.currentWorkerList,
      ∃ w, r.workers.get worker = some w ∧ w.workerUID ≠ workerUid := by
  simp only [generateWorkerUid, Outcome.bind_eq_ok, Outcome.pure_eq_ok, Prod.mk.injEq] at h
  obtain ⟨uid, huid, rfl, rfl⟩ := h
  exact ⟨rfl, of_drawUid huid⟩

/-- No removed worker had it either. -/
lemma notMem_deadWorkerList_of_generateWorkerUid {draws : List ℕ}
    (h : r.generateWorkerUid draws = .ok (r', workerUid)) : workerUid ∉ r.deadWorkerList := by
  simp only [generateWorkerUid, Outcome.bind_eq_ok, Outcome.pure_eq_ok, Prod.mk.injEq] at h
  obtain ⟨uid, huid, -, rfl⟩ := h
  exact (drawUid_cases huid).2.2

lemma deleteWorker_eq_ok {ps : List OutPacketRef} :
    r.deleteWorker worker = .ok (r', ps) ↔
      ∃ w, r.workers.get worker = some w ∧ 0 < w.workerLock ∧
        ps = w.ackPendingQueue ++ w.senderQueue ∧
        r' = { r with
          workers := r.workers.free worker
          currentWorkerList := r.currentWorkerList.filter (· ≠ worker)
          deadWorkerList := w.workerUID :: r.deadWorkerList } := by
  simp only [deleteWorker, Outcome.bind_eq_ok, Heap.deref_eq_ok, Outcome.pure_eq_ok, Prod.exists,
    Worker.shutDown_eq_ok, Prod.mk.injEq]
  constructor
  · rintro ⟨w, hw, _, _, ⟨hlock, rfl, rfl⟩, rfl, rfl⟩
    exact ⟨_, hw, hlock, rfl, rfl⟩
  · rintro ⟨w, hw, hlock, rfl, rfl⟩
    exact ⟨w, hw, w, _, ⟨hlock, rfl, rfl⟩, rfl, rfl⟩

end WorkerRegistry

/-! ### Registered workers -/

/-- What never changes of a worker that is not removed. -/
def Worker.identity (w : Worker) : String × Bool := (w.workerUID, w.attendance)

/-- The workers of the list are the allocated ones, attending, with different UIDs. -/
structure Registered (workers : Heap Worker) (currentWorkerList : List WorkerRef) : Prop where
  alive : ∀ worker ∈ currentWorkerList, ∃ w, workers.get worker = some w
  listed : ∀ worker w, workers.get worker = some w → worker ∈ currentWorkerList
  attends : ∀ worker w, workers.get worker = some w → w.attendance = true
  distinct : ∀ a b wa wb, workers.get a = some wa → workers.get b = some wb →
    wa.workerUID = wb.workerUID → a = b

namespace Registered

variable {workers workers' : Heap Worker} {list : List WorkerRef}

/-- Only the identities count. -/
lemma congr (h : Registered workers list)
    (hid : ∀ b, (workers'.get b).map Worker.identity = (workers.get b).map Worker.identity) :
    Registered workers' list := by
  have hback : ∀ b w', workers'.get b = some w' →
      ∃ w, workers.get b = some w ∧ w.workerUID = w'.workerUID ∧ w.attendance = w'.attendance := by
    intro b w' hw'
    obtain ⟨w, hw, heq⟩ := exists_of_map_eq (hid b).symm hw'
    exact ⟨w, hw, congrArg Prod.fst heq, congrArg Prod.snd heq⟩
  constructor
  · intro b hb
    obtain ⟨w, hw⟩ := h.alive b hb
    obtain ⟨w', hw', -⟩ := exists_of_map_eq (hid b) hw
    exact ⟨w', hw'⟩
  · intro b w' hw'
    obtain ⟨w, hw, -⟩ := hback b w' hw'
    exact h.listed b w hw
  · intro b w' hw'
    obtain ⟨w, hw, -, hatt⟩ := hback b w' hw'
    rw [← hatt]
    exact h.attends b w hw
  · intro a b wa' wb' ha' hb' heq
    obtain ⟨wa, ha, hua, -⟩ := hback a wa' ha'
    obtain ⟨wb, hb, hub, -⟩ := hback b wb' hb'
    exact h.distinct a b wa wb ha hb (hua.trans (heq.trans hub.symm))

/-- Storing a worker under its own identity. -/
lemma put (h : Registered workers list) {worker : WorkerRef} {w w' : Worker}
    (hw : workers.get worker = some w) (hid : w'.identity = w.identity) :
    Registered (workers.put worker w') list := by
  apply h.congr
  intro b
  rw [Heap.get_put hw]
  split_ifs with heq
  · rw [heq, hw, Option.map_some, Option.map_some, hid]
  · rfl

/-- Allocating a worker under a UID that is free. -/
lemma register (h : Registered workers list) {workerUID : String}
    (hfree : ∀ worker ∈ list, ∃ w, workers.get worker = some w ∧ w.workerUID ≠ workerUID) :
    Registered (workers.alloc (.new workerUID)) (workers.next :: list) := by
  have hget : ∀ b wb, (workers.alloc (.new workerUID)).get b = some wb →
      (b = workers.next ∧ wb = .new workerUID) ∨
        (workers.get b = some wb ∧ wb.workerUID ≠ workerUID) := by
    intro b wb hb
    by_cases heq : b = workers.next
    · subst heq
      rw [Heap.get_alloc_self] at hb
      exact .inl ⟨rfl, (Option.some.inj hb).symm⟩
    · rw [Heap.get_alloc_of_ne heq] at hb
      obtain ⟨w, hw, hne⟩ := hfree b (h.listed b wb hb)
      rw [hb] at hw
      cases hw
      exact .inr ⟨hb, hne⟩
  constructor
  · intro b hb
    rcases List.mem_cons.mp hb with rfl | hb
    · exact ⟨_, Heap.get_alloc_self _ _⟩
    · obtain ⟨w, hw⟩ := h.alive b hb
      exact ⟨w, Heap.get_alloc_of_get hw⟩
  · intro b wb hb
    rcases hget b wb hb with ⟨rfl, -⟩ | ⟨hb, -⟩
    · exact List.mem_cons_self
    · exact List.mem_cons_of_mem _ (h.listed b wb hb)
  · intro b wb hb
    rcases hget b wb hb with ⟨-, rfl⟩ | ⟨hb, -⟩
    · rfl
    · exact h.attends b wb hb
  · intro a b wa wb ha hb heq
    rcases hget a wa ha with ⟨rfl, rfl⟩ | ⟨ha, hna⟩ <;>
      rcases hget b wb hb with ⟨rfl, rfl⟩ | ⟨hb, hnb⟩
    · rfl
    · exact absurd heq.symm hnb
    · exact absurd heq hna
    · exact h.distinct a b wa wb ha hb heq

/-- Destroying a worker that leaves the list. -/
lemma remove (h : Registered workers list) (worker : WorkerRef) :
    Registered (workers.free worker) (list.filter (· ≠ worker)) := by
  have hget : ∀ b wb, (workers.free worker).get b = some wb →
      b ≠ worker ∧ workers.get b = some wb := by
    intro b wb hb
    have hne : b ≠ worker := by
      rintro rfl
      rw [Heap.get_free_self] at hb
      cases hb
    exact ⟨hne, (Heap.get_free_of_ne hne).symm.trans hb⟩
  constructor
  · intro b hb
    rw [List.mem_filter, decide_eq_true_iff] at hb
    obtain ⟨w, hw⟩ := h.alive b hb.1
    exact ⟨w, (Heap.get_free_of_ne hb.2).trans hw⟩
  · intro b wb hb
    obtain ⟨hne, hb⟩ := hget b wb hb
    rw [List.mem_filter, decide_eq_true_iff]
    exact ⟨h.listed b wb hb, hne⟩
  · intro b wb hb
    exact h.attends b wb (hget b wb hb).2
  · intro a b wa wb ha hb heq
    exact h.distinct a b wa wb (hget a wa ha).2 (hget b wb hb).2 heq

/-- Any list of registered workers is searched successfully for one that is in it. -/
lemma getWorkerFromUid {registry : WorkerRegistry} {all : List WorkerRef}
    (h : Registered registry.workers all) (hsub : ∀ b ∈ registry.currentWorkerList, b ∈ all)
    {worker : WorkerRef} {w : Worker} (hmem : worker ∈ registry.currentWorkerList)
    (hw : registry.workers.get worker = some w) :
    registry.getWorkerFromUid w.workerUID = .ok (some worker) :=
  WorkerRegistry.getWorkerFromUid_eq (fun b hb => h.alive b (hsub b hb))
    (fun a _ wa ha huid => h.distinct a worker wa w ha hw huid) hmem hw

end Registered

end ServerUnit
