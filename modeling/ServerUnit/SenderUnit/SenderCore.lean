import ServerUnit.Server.State
import Mathlib.Data.Prod.Lex
import Mathlib.Data.Rat.Defs
import Mathlib.Algebra.Order.Ring.Unbundled.Rat

/-!
# The sender core (`sender_unit/sender_core.cpp`)

The job that hands templates and user data to the workers.
-/

namespace ServerUnit

open Lib

/-! ### The choice of a worker -/

/-- The points of a worker, computed exactly. A quotient by `0` is infinite, with the sign of
the dividend: the first component orders the infinities around the finite values. -/
abbrev Points := ℤ ×ₗ ℚ

/-- `avgTime ? (avgTime / totalThreads) : 0`. -/
def tempPoints (avgTime : ℚ) (totalThreads : ℤ) : Points :=
  if avgTime = 0 then toLex (0, 0)
  else if totalThreads = 0 then toLex (if 0 < avgTime then 1 else -1, 0)
  else toLex (0, avgTime / totalThreads)

/-- The loop over the priorities, from `i - 1` down to `0`. An index outside the vector is
undefined. -/
def avgTimeLoop (avgQueueTime : ℚ) (taskMapVector : List ℤ) : ℕ → ℚ → Outcome ℚ
  | 0, avgTime => .ok avgTime
  | i + 1, avgTime => do
    let tasks ← Outcome.ofOption taskMapVector[i]?
    avgTimeLoop avgQueueTime taskMapVector i
      (if tasks ≠ 0 then avgTime + avgQueueTime * tasks else avgTime)

/-- The points of a worker for a task of the given priority. -/
def workerPoints (stats : WorkerStats) (taskPriority : TaskPriority) : Outcome Points := do
  let avgTime ← avgTimeLoop stats.avgQueueTime stats.taskQueue (taskPriority.toNat + 1) 0
  return tempPoints avgTime stats.totalAvilableThreads

/-- The worker chosen so far. -/
structure Candidate where
  finalWorkerUid : String
  finalworkerQueueSize : ℤ
  finalWorkerPoints : Points

/-- One round of the loop over the workers. -/
def considerWorker (taskPriority : TaskPriority) (final : Option Candidate) (w : Worker) :
    Outcome (Option Candidate) := do
  if !w.workerReady then
    return final
  else if w.workerStats.taskQueue.length = 0 then
    return final
  else
    let points ← workerPoints w.workerStats taskPriority
    let assigned : Candidate := ⟨w.workerUID, w.getQueueSize, points⟩
    match final with
    | none => return some assigned
    | some c =>
      if points ≤ c.finalWorkerPoints then
        if points = c.finalWorkerPoints ∧ w.getQueueSize > c.finalworkerQueueSize then
          return final
        else
          return some assigned
      else
        return final

/-- The loop over the workers. -/
def chooseWorker (workers : Heap Worker) (taskPriority : TaskPriority) :
    Option Candidate → List WorkerRef → Outcome (Option Candidate)
  | final, [] => .ok final
  | final, worker :: workerList => do
    let w ← workers.deref worker
    let final ← considerWorker taskPriority final w
    chooseWorker workers taskPriority final workerList

/-- `findIdealWorker`: finds the ideal worker from the list of workers to send a packet. -/
def findIdealWorker (registry : WorkerRegistry) (taskPriority : TaskPriority) :
    Outcome (Option WorkerRef) := do
  match ← chooseWorker registry.workers taskPriority none registry.currentWorkerList with
  | none => return none
  | some final =>
    if final.finalWorkerUid.isEmpty then return none
    else registry.getWorkerFromUid final.finalWorkerUid

section Choice

variable {workers workers' : Heap Worker} {taskPriority : TaskPriority}
  {final final' : Option Candidate} {w : Worker} {list : List WorkerRef}

/-- A worker that is not ready is passed over; one that is ready may take the place. -/
lemma considerWorker_cases (h : considerWorker taskPriority final w = .ok final') :
    final' = final ∨ (w.workerReady = true ∧ ∃ c, final' = some c ∧
      c.finalWorkerUid = w.workerUID) := by
  unfold considerWorker at h
  split_ifs at h with hready hempty
  · left
    exact (Outcome.pure_eq_ok.mp h).symm
  · left
    exact (Outcome.pure_eq_ok.mp h).symm
  · have hready : w.workerReady = true := by simpa using hready
    simp only [Outcome.bind_eq_ok] at h
    obtain ⟨points, -, h⟩ := h
    split at h
    · right
      exact ⟨hready, _, (Outcome.pure_eq_ok.mp h).symm, rfl⟩
    · split_ifs at h
      · left
        exact (Outcome.pure_eq_ok.mp h).symm
      · right
        exact ⟨hready, _, (Outcome.pure_eq_ok.mp h).symm, rfl⟩
      · left
        exact (Outcome.pure_eq_ok.mp h).symm

/-- The candidate is a worker of the list that is ready. -/
lemma chooseWorker_mem {c : Candidate}
    (h : chooseWorker workers taskPriority final list = .ok (some c)) :
    final = some c ∨ ∃ b ∈ list, ∃ w, workers.get b = some w ∧ w.workerReady = true ∧
      w.workerUID = c.finalWorkerUid := by
  induction list generalizing final with
  | nil =>
    left
    simpa [chooseWorker] using h
  | cons b list ih =>
    simp only [chooseWorker, Outcome.bind_eq_ok, Heap.deref_eq_ok] at h
    obtain ⟨w, hw, final', hfinal', h⟩ := h
    rcases ih h with rfl | ⟨b', hb', hrest⟩
    · rcases considerWorker_cases hfinal' with heq | ⟨hready, c', heq, huid⟩
      · exact .inl heq.symm
      · cases heq
        exact .inr ⟨b, List.mem_cons_self, w, hw, hready, huid.symm⟩
    · exact .inr ⟨b', List.mem_cons_of_mem _ hb', hrest⟩

/-- Workers that are not ready can be left out of the list. -/
lemma chooseWorker_filter {keep : WorkerRef → Bool}
    (hkeep : ∀ b ∈ list, keep b = true → workers'.get b = workers.get b)
    (hdrop : ∀ b ∈ list, keep b = false → ∃ w, workers'.get b = some w ∧ w.workerReady = false) :
    chooseWorker workers' taskPriority final list =
      chooseWorker workers taskPriority final (list.filter keep) := by
  induction list generalizing final with
  | nil => rfl
  | cons b list ih =>
    have ih : ∀ final, chooseWorker workers' taskPriority final list =
        chooseWorker workers taskPriority final (list.filter keep) := fun _ =>
      ih (fun b' hb' => hkeep b' (List.mem_cons_of_mem _ hb'))
        (fun b' hb' => hdrop b' (List.mem_cons_of_mem _ hb'))
    cases hb : keep b with
    | true =>
      rw [List.filter_cons_of_pos hb]
      simp only [chooseWorker, Heap.deref, hkeep b List.mem_cons_self hb, ih]
    | false =>
      rw [List.filter_cons_of_neg (by simp [hb]), ← ih]
      obtain ⟨w, hw, hready⟩ := hdrop b List.mem_cons_self hb
      simp [chooseWorker, Heap.deref, Outcome.ofOption, hw, considerWorker, hready, pure,
        Except.pure]

lemma mem_of_findIdealWorker {registry : WorkerRegistry} {worker : WorkerRef}
    (h : findIdealWorker registry taskPriority = .ok (some worker)) :
    worker ∈ registry.currentWorkerList := by
  simp only [findIdealWorker, Outcome.bind_eq_ok] at h
  obtain ⟨final, -, h⟩ := h
  cases final with
  | none => cases h
  | some c =>
    simp only at h
    split_ifs at h
    · cases h
    · exact (WorkerRegistry.of_getWorkerFromUid h).1

/-- The worker found is the registered worker of the candidate. -/
lemma findIdealWorker_eq_some {registry : WorkerRegistry} {all : List WorkerRef}
    (hreg : Registered registry.workers all)
    (hsub : ∀ b ∈ registry.currentWorkerList, b ∈ all) {worker : WorkerRef} :
    findIdealWorker registry taskPriority = .ok (some worker) ↔
      ∃ c, chooseWorker registry.workers taskPriority none registry.currentWorkerList
          = .ok (some c) ∧
        c.finalWorkerUid.isEmpty = false ∧ worker ∈ registry.currentWorkerList ∧
        ∃ w, registry.workers.get worker = some w ∧ w.workerUID = c.finalWorkerUid := by
  simp only [findIdealWorker, Outcome.bind_eq_ok]
  constructor
  · rintro ⟨final, hfinal, h⟩
    cases final with
    | none => cases Outcome.pure_eq_ok.mp h
    | some c =>
      simp only at h
      split_ifs at h with hempty
      · cases Outcome.pure_eq_ok.mp h
      · obtain ⟨hmem, w, hw, huid⟩ := WorkerRegistry.of_getWorkerFromUid h
        exact ⟨c, hfinal, by simpa using hempty, hmem, w, hw, huid⟩
  · rintro ⟨c, hc, hempty, hmem, w, hw, huid⟩
    refine ⟨some c, hc, ?_⟩
    simp only [hempty, Bool.false_eq_true, if_false]
    rw [← huid]
    exact hreg.getWorkerFromUid hsub hmem hw

end Choice

namespace Server

/-! ### User data -/

/-- The part of `pushUserDataToWorkerQueue` after a worker has been chosen. -/
def dispatchUserData (s : Server) (worker : WorkerRef) : Outcome Server := do
  let (senderSink, object) ← s.senderSink.popObject
  let s := { s with senderSink }
  let userData ← Outcome.ofOption object
  let packet ← userData.toJson
  let w ← s.workerRegistry.workers.deref worker
  let outData ← s.outgoingDataRegistry.getRegistryFromId userData.userTable
  let (s, _) ← s.queuePacket worker
    (.new (PacketConstructor.create .spDataSent w.workerUID packet) outData true)
  let s ← s.assignWorker userData.userTable worker
  s.updateTaskStatus userData.userTable .dataReady

def pushUserDataToWorkerQueue (s : Server) : Outcome Server :=
  if s.senderSink.isSinkEmpty then
    return s
  else do
    let taskPriority ← s.senderSink.getTopTaskPriority
    match ← findIdealWorker s.workerRegistry taskPriority with
    | none => return s
    | some worker => s.dispatchUserData worker

/-! ### Templates -/

/-- One round of the inner loop of `pushInstanceToWorkerQueue`. -/
def pushInstance (s : Server) (worker : WorkerRef) (j : TemplateJson) : Outcome Server := do
  let tableId := j.instanceid
  let s ← s.registryAdd tableId (some worker)
  let w ← s.workerRegistry.workers.deref worker
  let outData ← s.outgoingDataRegistry.getRegistryFromId tableId
  let (s, _) ← s.queuePacket worker
    (.new (PacketConstructor.create .spDataSent w.workerUID
      (.template j.instanceid j.algotype j.data)) outData true)
  let s ← s.assignWorker tableId worker
  let s ← s.updateTaskStatus tableId .dataReady
  s.trackWorker w.workerUID

/-- The inner loop of `pushInstanceToWorkerQueue`. -/
def pushInstances (s : Server) (worker : WorkerRef) : List TemplateJson → Outcome Server
  | [] => .ok s
  | j :: instanceJson => do
    let s ← s.pushInstance worker j
    s.pushInstances worker instanceJson

/-- The outer loop of `pushInstanceToWorkerQueue`. A worker's UID is erased in its round, always
at the front, and the iterator goes on from there. Returns what is left of the list. -/
def pushInstanceLoop (instanceJson : List TemplateJson) (s : Server) :
    List String → Outcome (Server × List String)
  | [] => .ok (s, [])
  | workerUID :: workerList => do
    match ← s.workerRegistry.getWorkerFromUid workerUID with
    | none => pushInstanceLoop instanceJson s workerList
    | some worker => do
      let s ← s.pushInstances worker instanceJson
      pushInstanceLoop instanceJson s workerList

def pushInstanceToWorkerQueue (s : Server) (workerList : List String) :
    Outcome (Server × List String) :=
  pushInstanceLoop s.templateRegistry.toJson s workerList

/-- The loops at the head of `updateAllWorkerInstances`. `compare` is `0` on equal strings, so
the flag says that some UID in the list differs from the worker's. -/
def addWorkers (s : Server) (workerList : List String) : List WorkerRef → Outcome (List String)
  | [] => .ok workerList
  | worker :: workers => do
    let w ← s.workerRegistry.workers.deref worker
    let workerPresent := workerList.any fun j => j != w.workerUID
    if workerPresent then
      s.addWorkers workerList workers
    else
      s.addWorkers (workerList ++ [w.workerUID]) workers

def updateAllWorkerInstances (s : Server) (workerList : List String) :
    Outcome (Server × List String) := do
  let workerList ← s.addWorkers workerList s.workerRegistry.currentWorkerList
  let (s, workerList) ← s.pushInstanceToWorkerQueue workerList
  return ({ s with templateRegistry := s.templateRegistry.resetFlag }, workerList)

/-! ### The job -/

/-- The loop of `pushPendingPackets`, with the worker to use next. `-1` when none is found. -/
def pushPendingLoop (s : Server) (worker : Option WorkerRef) :
    List OutPacketRef → Outcome (Server × List OutPacketRef × ℤ)
  | [] => .ok (s, [], 0)
  | p :: outPacketList => do
    let worker ← Outcome.ofOption worker
    let w ← s.workerRegistry.workers.deref worker
    let (w, _) ← w.queuePacket p
    let s := s.putWorker worker w
    let next ← findIdealWorker s.workerRegistry .defaultPriority
    if next.isNone then
      return (s, outPacketList, -1)
    else
      s.pushPendingLoop next outPacketList

def pushPendingPackets (s : Server) (outPacketList : List OutPacketRef) :
    Outcome (Server × List OutPacketRef × ℤ) := do
  let worker ← findIdealWorker s.workerRegistry .defaultPriority
  s.pushPendingLoop worker outPacketList

/-- All workers are instructed when the templates were updated. -/
def instructOnUpdate (s : Server) : Outcome Server :=
  if s.templateRegistry.getUpdateStatus then do
    let (s, newWorkerList) ← s.updateAllWorkerInstances s.senderCoreData.newWorkerList
    return { s with senderCoreData := { s.senderCoreData with newWorkerList } }
  else
    return s

/-- New workers are instructed; when there are none, user data is handed out. -/
def instructNewOrPushData (s : Server) : Outcome Server :=
  if !s.senderCoreData.isNewWorkerListEmpty then do
    let (s, newWorkerList) ← s.pushInstanceToWorkerQueue s.senderCoreData.newWorkerList
    return { s with senderCoreData := { s.senderCoreData with newWorkerList } }
  else
    s.pushUserDataToWorkerQueue

/-- `startSenderCore` from the test of the update flag on. -/
def senderCoreDispatch (s : Server) : Outcome (Server × JobStatus) := do
  let s ← s.instructOnUpdate
  let s ← s.instructNewOrPushData
  return (s, .jobPending)

def startSenderCore (s : Server) : Outcome (Server × JobStatus) :=
  if !s.senderCoreData.isPendingPacketsListEmpty then do
    let (s, pendingPacketsList, rc) ← s.pushPendingPackets s.senderCoreData.pendingPacketsList
    let s := { s with senderCoreData := { s.senderCoreData with pendingPacketsList } }
    if rc ≠ 0 then
      return (s, .jobPending)
    else
      s.senderCoreDispatch
  else
    s.senderCoreDispatch

end Server

end ServerUnit
