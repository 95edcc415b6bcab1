import ServerUnit.Server.State
import ServerUnit.WorkerNode.Rules

/-!
# What the calls on the server state can do

Every wrapper of `Server/State.lean` has its outcomes here, with the parts of the state that it
leaves alone.
-/

namespace ServerUnit

open Lib

namespace Server

variable {s s' : Server} {worker : WorkerRef} {w : Worker} {id workerUid : String}

/-! ### Stored workers -/

@[simp] lemma putWorker_outPackets : (s.putWorker worker w).outPackets = s.outPackets := rfl

@[simp] lemma putWorker_outgoingDataRegistry :
    (s.putWorker worker w).outgoingDataRegistry = s.outgoingDataRegistry := rfl

@[simp] lemma putWorker_packetTimeout : (s.putWorker worker w).packetTimeout = s.packetTimeout :=
  rfl

@[simp] lemma putWorker_senderSink : (s.putWorker worker w).senderSink = s.senderSink := rfl

@[simp] lemma putWorker_templateRegistry :
    (s.putWorker worker w).templateRegistry = s.templateRegistry := rfl

@[simp] lemma putWorker_workerInstanceList :
    (s.putWorker worker w).workerInstanceList = s.workerInstanceList := rfl

@[simp] lemma putWorker_senderCoreData :
    (s.putWorker worker w).senderCoreData = s.senderCoreData := rfl

@[simp] lemma putWorker_database : (s.putWorker worker w).database = s.database := rfl

@[simp] lemma putWorker_currentWorkerList :
    (s.putWorker worker w).workerRegistry.currentWorkerList = s.workerRegistry.currentWorkerList :=
  rfl

@[simp] lemma putWorker_workers :
    (s.putWorker worker w).workerRegistry.workers = s.workerRegistry.workers.put worker w := rfl

lemma putWorker_self (hw : s.getWorker worker = some w) : s.putWorker worker w = s := by
  have hput : s.workerRegistry.workers.put worker w = s.workerRegistry.workers := Heap.put_self hw
  simp only [putWorker, hput]

@[simp] lemma putWorker_putWorker {w' : Worker} :
    (s.putWorker worker w).putWorker worker w' = s.putWorker worker w' := by
  simp [putWorker]

lemma getWorker_putWorker {w₀ : Worker} (hw : s.getWorker worker = some w₀) :
    (s.putWorker worker w).getWorker worker = some w :=
  Heap.get_put_self hw

/-! ### The calls -/

/-- The new packet is refused, or it is the last of the worker's sender queue. -/
lemma queuePacket_cases {packet : OutPacket} {rc : ℕ}
    (h : s.queuePacket worker packet = .ok (s', rc)) :
    ∃ w, s.getWorker worker = some w ∧
      ((WORKER_QUEUE_SIZE < w.senderQueue.length ∧ rc = 1 ∧
          s' = { s with outPackets := s.outPackets.alloc packet }) ∨
        (w.senderQueue.length ≤ WORKER_QUEUE_SIZE ∧ 0 < w.workerLock ∧ rc = 0 ∧
          s' = { s with outPackets := s.outPackets.alloc packet }.putWorker worker
            { w with senderQueue := w.senderQueue ++ [s.outPackets.next] })) := by
  simp only [queuePacket, Outcome.bind_eq_ok, Heap.deref_eq_ok, Outcome.pure_eq_ok,
    Prod.mk.injEq] at h
  obtain ⟨w, hw, ⟨w', rc'⟩, hq, rfl, rfl⟩ := h
  refine ⟨w, hw, ?_⟩
  rcases Worker.queuePacket_cases hq with ⟨hfull, rfl, rfl⟩ | ⟨hroom, hlock, rfl, rfl⟩
  · left
    exact ⟨hfull, rfl, putWorker_self hw⟩
  · right
    exact ⟨hroom, hlock, rfl, rfl⟩

@[simp] lemma registryAdd_eq_ok {o : Option WorkerRef} :
    s.registryAdd id o = .ok s' ↔
      ∃ r, s.outgoingDataRegistry.add (s.addFlag 0) id o = .ok r ∧
        { s with outgoingDataRegistry := r, addFlag := fun n => s.addFlag (n + 1) } = s' := by
  simp [registryAdd]

@[simp] lemma assignWorker_eq_ok :
    s.assignWorker id worker = .ok s' ↔
      ∃ r b, s.outgoingDataRegistry.assignWorker id worker = .ok (r, b) ∧
        { s with outgoingDataRegistry := r } = s' := by
  simp [assignWorker]

@[simp] lemma updateTaskStatus_eq_ok {status : UserTaskStatus} :
    s.updateTaskStatus id status = .ok s' ↔
      ∃ r database b, s.outgoingDataRegistry.updateTaskStatus s.database id status
          = .ok (r, database, b) ∧
        { s with outgoingDataRegistry := r, database } = s' := by
  simp [updateTaskStatus]

@[simp] lemma trackWorker_eq_ok :
    s.trackWorker workerUid = .ok s' ↔
      ∃ workerInstanceList workerRegistry,
        s.workerInstanceList.addWorker s.workerRegistry workerUid
          = .ok (workerInstanceList, workerRegistry) ∧
        { s with workerInstanceList, workerRegistry } = s' := by
  simp [trackWorker]

@[simp] lemma updateTracking_eq_ok {templateId : String} :
    s.updateTracking workerUid templateId = .ok s' ↔
      ∃ workerInstanceList workerRegistry,
        s.workerInstanceList.updateWorker s.workerRegistry workerUid templateId
          = .ok (workerInstanceList, workerRegistry) ∧
        { s with workerInstanceList, workerRegistry } = s' := by
  simp [updateTracking]

@[simp] lemma registerWorker_eq_ok {draws : List ℕ} :
    s.registerWorker draws = .ok s' ↔
      ∃ workerRegistry uid, s.workerRegistry.generateWorkerUid draws = .ok (workerRegistry, uid) ∧
        { s with workerRegistry, senderCoreData := s.senderCoreData.addWorker uid } = s' := by
  simp [registerWorker]

@[simp] lemma updateTemplates_eq_ok {templateStruct : List UserDataTemplateStruct} :
    s.updateTemplates templateStruct = .ok s' ↔
      ∃ templateRegistry workerInstanceList rc,
        s.templateRegistry.update s.workerInstanceList templateStruct
          = .ok (templateRegistry, workerInstanceList, rc) ∧
        { s with templateRegistry, workerInstanceList } = s' := by
  simp [updateTemplates]

@[simp] lemma getQueuedPacket_eq_ok {packet : Option ServerPacket} :
    s.getQueuedPacket workerUid = .ok (s', packet) ↔
      ∃ worker w w' timer,
        s.workerRegistry.getWorkerFromUid workerUid = .ok (some worker) ∧
        s.getWorker worker = some w ∧
        w.getQueuedPacket s.outPackets s.packetTimeout = .ok (w', timer, packet) ∧
        { s with packetTimeout := timer }.putWorker worker w' = s' := by
  simp only [getQueuedPacket, Outcome.bind_eq_ok, Outcome.ofOption_eq_ok, Heap.deref_eq_ok,
    Outcome.pure_eq_ok, Prod.mk.injEq]
  constructor
  · rintro ⟨_, ho, worker, rfl, w, hw, ⟨w', timer, out⟩, hg, rfl, rfl⟩
    exact ⟨worker, w, w', timer, ho, hw, hg, rfl⟩
  · rintro ⟨worker, w, w', timer, ho, hw, hg, rfl⟩
    exact ⟨_, ho, worker, rfl, w, hw, _, hg, rfl, rfl⟩

/-- The packet found leaves the worker's pending queue, the timer and the heap. -/
lemma matchAckablePacket_cases {found : Bool}
    (h : s.matchAckablePacket worker id = .ok (s', found)) :
    ∃ w, s.getWorker worker = some w ∧
      ((found = true ∧ ∃ before after p, w.ackPendingQueue = before ++ p :: after ∧
          Worker.hasId s.outPackets s.outgoingDataRegistry.states id p = .ok true ∧
          s' = { s with
            packetTimeout := { s.packetTimeout with
              timedPackets := s.packetTimeout.timedPackets.filter (· ≠ p) }
            outPackets := s.outPackets.free p }.putWorker worker
              { w with ackPendingQueue := before ++ after }) ∨
        (found = false ∧ s' = s)) := by
  simp only [matchAckablePacket, Outcome.bind_eq_ok, Heap.deref_eq_ok, Outcome.pure_eq_ok,
    Prod.mk.injEq] at h
  obtain ⟨w, hw, ⟨w', timer, mem, found'⟩, hm, rfl, rfl⟩ := h
  refine ⟨w, hw, ?_⟩
  rcases Worker.matchAckablePacket_cases hm with
    ⟨rfl, before, after, p, hq, hid, rfl, rfl, rfl⟩ | ⟨rfl, -, rfl, rfl, rfl⟩
  · left
    exact ⟨rfl, before, after, p, hq, hid, rfl⟩
  · right
    exact ⟨rfl, putWorker_self hw⟩

/-! ### What no call changes of a worker -/

variable {β : Type*} {f : Worker → β}

/-- The value of `f` does not depend on the worker's queues, its lock, and the flags set by the
calls of others. -/
def Stays (f : Worker → β) : Prop :=
  ∀ (w : Worker) senderQueue ackPendingQueue ackPacketPop workerReady workerLock,
    f { w with senderQueue, ackPendingQueue, ackPacketPop, workerReady, workerLock } = f w

/-- There are the same workers, with the same values of `f`. -/
def KeepsWorkers (f : Worker → β) (s s' : Server) : Prop :=
  ∀ b, (s'.getWorker b).map f = (s.getWorker b).map f

lemma stays_identity : Stays Worker.identity := fun _ _ _ _ _ _ => rfl

namespace KeepsWorkers

variable {t : Server} {w' : Worker}

lemma trans (h : KeepsWorkers f s t) (h' : KeepsWorkers f t s') : KeepsWorkers f s s' :=
  fun b => (h' b).trans (h b)

lemma put (hw : s.getWorker worker = some w)
    (hworkers : s'.workerRegistry.workers = s.workerRegistry.workers.put worker w')
    (hf : f w' = f w) : KeepsWorkers f s s' := by
  intro b
  rw [getWorker, hworkers, Heap.get_put hw]
  split_ifs with heq
  · rw [heq, hw, Option.map_some, Option.map_some, hf]
  · rfl

lemma of_frame (hworkers : s'.workerRegistry.workers = s.workerRegistry.workers) :
    KeepsWorkers f s s' := by
  intro b
  rw [getWorker, hworkers]

lemma queuePacket (hf : Stays f) {packet : OutPacket} {rc : ℕ}
    (h : s.queuePacket worker packet = .ok (s', rc)) : KeepsWorkers f s s' := by
  obtain ⟨w, hw, ⟨-, -, rfl⟩ | ⟨-, -, -, rfl⟩⟩ := queuePacket_cases h
  · exact of_frame rfl
  · exact put hw rfl (hf w _ _ _ _ _)

lemma trackWorker (hf : Stays f) (h : s.trackWorker workerUid = .ok s') :
    KeepsWorkers f s s' := by
  obtain ⟨l, registry, hadd, rfl⟩ := trackWorker_eq_ok.mp h
  rcases WorkerInstanceList.addWorker_cases hadd with ⟨-, rfl, rfl⟩ | ⟨worker, w, -, hw, rfl, rfl⟩
  · exact of_frame rfl
  · exact put hw rfl (hf w _ _ _ _ _)

lemma updateTracking (hf : Stays f) (h : s.updateTracking workerUid id = .ok s') :
    KeepsWorkers f s s' := by
  obtain ⟨l, registry, hupdate, rfl⟩ := updateTracking_eq_ok.mp h
  cases WorkerInstanceList.UpdateRule.of_updateWorker hupdate with
  | untracked | waiting => exact of_frame rfl
  | ready before after e worker w _ _ _ _ _ hw => exact put hw rfl (hf w _ _ _ _ _)

lemma matchAckablePacket (hf : Stays f) {found : Bool}
    (h : s.matchAckablePacket worker id = .ok (s', found)) : KeepsWorkers f s s' := by
  obtain ⟨w, hw, ⟨-, before, after, p, -, -, rfl⟩ | ⟨-, rfl⟩⟩ := matchAckablePacket_cases h
  · exact put hw rfl (hf w _ _ _ _ _)
  · exact of_frame rfl

lemma getQueuedPacket (hf : Stays f) {packet : Option ServerPacket}
    (h : s.getQueuedPacket workerUid = .ok (s', packet)) : KeepsWorkers f s s' := by
  obtain ⟨worker, w, w', timer, -, hw, hg, rfl⟩ := getQueuedPacket_eq_ok.mp h
  have hw' := (Worker.getQueuedPacket_move hg).2
  refine put hw rfl ?_
  rw [hw']
  exact hf w _ _ _ _ _

lemma registryAdd {o : Option WorkerRef} (h : s.registryAdd id o = .ok s') :
    KeepsWorkers f s s' := by
  obtain ⟨_, -, rfl⟩ := registryAdd_eq_ok.mp h
  exact of_frame rfl

lemma assignWorker (h : s.assignWorker id worker = .ok s') : KeepsWorkers f s s' := by
  obtain ⟨_, _, -, rfl⟩ := assignWorker_eq_ok.mp h
  exact of_frame rfl

lemma updateTaskStatus {status : UserTaskStatus} (h : s.updateTaskStatus id status = .ok s') :
    KeepsWorkers f s s' := by
  obtain ⟨_, _, _, -, rfl⟩ := updateTaskStatus_eq_ok.mp h
  exact of_frame rfl

end KeepsWorkers

end Server

end ServerUnit
