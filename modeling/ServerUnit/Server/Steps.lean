import ServerUnit.Lib.Machine
import ServerUnit.PacketProcessor.StatusPacket
import ServerUnit.Sched.Timeout
import ServerUnit.SenderUnit.SenderCore
import ServerUnit.Server.Rules

/-!
# The server as a machine

The threads of the server call one another's member functions. Taking every call as one atomic
step, the server is a machine whose events are the calls.
-/

namespace ServerUnit

open Lib

inductive ServerEvent where
  /-- A session registers a worker; the numbers are those drawn for its UID. -/
  | registerWorker (draws : List ℕ)
  /-- The extractor read the templates of the database. -/
  | updateTemplates (templateStruct : List UserDataTemplateStruct)
  /-- The extractor read a user-data table. -/
  | pushUserTable (userDataTable : UserDataTable)
  | pushInstanceToWorkerQueue (workerList : List String)
  | pushUserDataToWorkerQueue
  | getQueuedPacket (workerUid : String)
  /-- A `P_DATA_ACK` packet is parsed. -/
  | acknowledge (p : ProcessStatusPacket)
  | execute
  deriving DecidableEq

namespace Server

def step (s : Server) : ServerEvent → Outcome Server
  | .registerWorker draws => s.registerWorker draws
  | .updateTemplates templateStruct => s.updateTemplates templateStruct
  | .pushUserTable userDataTable => s.pushUserTable userDataTable
  | .pushInstanceToWorkerQueue workerList => do
    let (s, _) ← s.pushInstanceToWorkerQueue workerList
    return s
  | .pushUserDataToWorkerQueue => s.pushUserDataToWorkerQueue
  | .getQueuedPacket workerUid => do
    let (s, _) ← s.getQueuedPacket workerUid
    return s
  | .acknowledge p =>
    Outcome.guard (maskQuickSend p.statusCode = P_DATA_ACK) (s.packetStatusParse p)
  | .execute => s.execute

/-! ### What the calls made of others can do -/

variable {s s' : Server} {worker : WorkerRef}

/-- Either the pushed table is refused by the sink or it is in it; its name is registered
either way. -/
lemma pushUserTable_frame {t : UserDataTable} (h : s.pushUserTable t = .ok s') :
    ∃ registry sink addFlag starveCounter, s' = { s with
      outgoingDataRegistry := registry, senderSink := sink, addFlag := addFlag,
      starveCounter := starveCounter } := by
  simp only [pushUserTable, Outcome.bind_eq_ok, registryAdd_eq_ok] at h
  obtain ⟨⟨sink, rc⟩, -, r, -, rfl⟩ := h
  exact ⟨r, sink, _, _, rfl⟩

/-- The calls of one round of `pushInstanceToWorkerQueue`, in their order. -/
lemma pushInstance_eq_ok {j : TemplateJson} :
    s.pushInstance worker j = .ok s' ↔
      ∃ s₁ w outData s₂ rc s₃ s₄,
        s.registryAdd j.instanceid (some worker) = .ok s₁ ∧
        s₁.getWorker worker = some w ∧
        s₁.outgoingDataRegistry.getRegistryFromId j.instanceid = .ok outData ∧
        s₁.queuePacket worker (.new (PacketConstructor.create .spDataSent w.workerUID
          (.template j.instanceid j.algotype j.data)) outData true) = .ok (s₂, rc) ∧
        s₂.assignWorker j.instanceid worker = .ok s₃ ∧
        s₃.updateTaskStatus j.instanceid .dataReady = .ok s₄ ∧
        s₄.trackWorker w.workerUID = .ok s' := by
  simp only [pushInstance, Outcome.bind_eq_ok, Heap.deref_eq_ok, Prod.exists]
  constructor
  · rintro ⟨s₁, h₁, w, hw, o, ho, s₂, rc, h₂, s₃, h₃, s₄, h₄, h₅⟩
    exact ⟨s₁, w, o, s₂, rc, s₃, s₄, h₁, hw, ho, h₂, h₃, h₄, h₅⟩
  · rintro ⟨s₁, w, o, s₂, rc, s₃, s₄, h₁, hw, ho, h₂, h₃, h₄, h₅⟩
    exact ⟨s₁, h₁, w, hw, o, ho, s₂, rc, h₂, s₃, h₃, s₄, h₄, h₅⟩

/-- A call of `pushUserDataToWorkerQueue` does nothing, or dispatches the front of the sink. -/
lemma pushUserDataToWorkerQueue_cases (h : s.pushUserDataToWorkerQueue = .ok s') :
    s' = s ∨ ∃ taskPriority worker,
      s.senderSink.getTopTaskPriority = .ok taskPriority ∧
      findIdealWorker s.workerRegistry taskPriority = .ok (some worker) ∧
      s.dispatchUserData worker = .ok s' := by
  unfold pushUserDataToWorkerQueue at h
  split_ifs at h
  · left
    exact (Outcome.pure_eq_ok.mp h).symm
  · simp only [Outcome.bind_eq_ok] at h
    obtain ⟨taskPriority, hpriority, found, hfound, h⟩ := h
    cases found with
    | none =>
      left
      exact (Outcome.pure_eq_ok.mp h).symm
    | some worker =>
      right
      exact ⟨taskPriority, worker, hpriority, hfound, h⟩

lemma dispatchUserData_eq_ok :
    s.dispatchUserData worker = .ok s' ↔
      ∃ sink userData packet w outData s₂ rc s₃,
        s.senderSink.popObject = .ok (sink, some userData) ∧ userData.toJson = .ok packet ∧
        s.getWorker worker = some w ∧
        s.outgoingDataRegistry.getRegistryFromId userData.userTable = .ok outData ∧
        { s with senderSink := sink }.queuePacket worker
          (.new (PacketConstructor.create .spDataSent w.workerUID packet) outData true)
            = .ok (s₂, rc) ∧
        s₂.assignWorker userData.userTable worker = .ok s₃ ∧
        s₃.updateTaskStatus userData.userTable .dataReady = .ok s' := by
  simp only [dispatchUserData, Outcome.bind_eq_ok, Heap.deref_eq_ok, Outcome.ofOption_eq_ok,
    Prod.exists]
  constructor
  · rintro ⟨sink, _, hpop, t, rfl, packet, hp, w, hw, o, ho, s₂, rc, hq, s₃, h₃, h₄⟩
    exact ⟨sink, t, packet, w, o, s₂, rc, s₃, hpop, hp, hw, ho, hq, h₃, h₄⟩
  · rintro ⟨sink, t, packet, w, o, s₂, rc, s₃, hpop, hp, hw, ho, hq, h₃, h₄⟩
    exact ⟨sink, _, hpop, t, rfl, packet, hp, w, hw, o, ho, s₂, rc, hq, s₃, h₃, h₄⟩

/-- The branch of the switch that an acknowledgement takes. -/
lemma switchStatus_ack {p : ProcessStatusPacket} :
    s.switchStatus worker P_DATA_ACK p = .ok s' ↔
      ∃ w found t, s.getWorker worker = some w ∧
        s.matchAckablePacket worker p.tableId = .ok (t, found) ∧
        (if found then t.noteTemplate w p.tableId else .ok t) = .ok s' := by
  have hreset : ¬ (P_DATA_ACK : BitVec 32) = P_RESET := by decide
  simp only [switchStatus, Outcome.bind_eq_ok, Heap.deref_eq_ok, if_neg hreset, if_true,
    Prod.exists]
  constructor
  · rintro ⟨w, hw, t, found, hm, h⟩
    exact ⟨w, found, t, hw, hm, h⟩
  · rintro ⟨w, found, t, hw, hm, h⟩
    exact ⟨w, hw, t, found, hm, h⟩

end Server

end ServerUnit
