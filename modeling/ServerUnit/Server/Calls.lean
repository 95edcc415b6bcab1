import ServerUnit.PacketProcessor.Results
import ServerUnit.Server.Steps

/-!
# Relations that all calls keep

The jobs of the server are made of a few calls. A relation between the state before and the state
after that composes, and that each of these calls keeps, is kept by the jobs.
-/

namespace ServerUnit

open Lib

namespace Server

/-- A relation that composes and that the calls for handing out a packet keep; the packet carries
the UID of the worker whose queue it is for. -/
structure HandoutRule (R : Server → Server → Prop) : Prop where
  refl : ∀ s, R s s
  trans : ∀ {s t u}, R s t → R t u → R s u
  registryAdd : ∀ {s s' : Server} {id o}, s.registryAdd id o = .ok s' → R s s'
  queuePacket : ∀ {s s' : Server} {b w packet rc}, s.getWorker b = some w →
    packet.packet.id = w.workerUID → s.queuePacket b packet = .ok (s', rc) → R s s'
  assignWorker : ∀ {s s' : Server} {id b}, s.assignWorker id b = .ok s' → R s s'
  updateTaskStatus : ∀ {s s' : Server} {id}, s.updateTaskStatus id .dataReady = .ok s' → R s s'
  trackWorker : ∀ {s s' : Server} {uid}, s.trackWorker uid = .ok s' → R s s'

/-- Handing out templates and tables takes tables off the sender sink besides, and stores the new
workers that are left and the update flag. -/
structure DispatchRule (R : Server → Server → Prop) : Prop extends HandoutRule R where
  senderSink : ∀ (s : Server) sink, R s { s with senderSink := sink }
  newWorkerList : ∀ (s : Server) newWorkerList,
    R s { s with senderCoreData := { s.senderCoreData with newWorkerList } }
  resetFlag : ∀ s : Server, R s { s with templateRegistry := s.templateRegistry.resetFlag }

/-- The sender core also queues pending packets again. -/
structure SenderCoreRule (R : Server → Server → Prop) : Prop extends DispatchRule R where
  requeue : ∀ {s : Server} {b w w' p rc}, s.getWorker b = some w →
    w.queuePacket p = .ok (w', rc) → R s (s.putWorker b w')
  pendingPacketsList : ∀ (s : Server) pendingPacketsList,
    R s { s with senderCoreData := { s.senderCoreData with pendingPacketsList } }

/-- The calls that the switch of `packetStatusParse` makes. -/
structure SwitchRule (R : Server → Server → Prop) : Prop where
  refl : ∀ s, R s s
  trans : ∀ {s t u}, R s t → R t u → R s u
  updateTaskStatus : ∀ {s s' : Server} {id status}, s.updateTaskStatus id status = .ok s' → R s s'
  queuePacket : ∀ {s s' : Server} {b packet rc}, s.queuePacket b packet = .ok (s', rc) → R s s'
  matchAckablePacket : ∀ {s s' : Server} {b id found},
    s.matchAckablePacket b id = .ok (s', found) → R s s'
  updateTracking : ∀ {s s' : Server} {uid id}, s.updateTracking uid id = .ok s' → R s s'

/-- The calls that the validator makes. -/
structure ValidatorRule (R : Server → Server → Prop) : Prop where
  refl : ∀ s, R s s
  trans : ∀ {s t u}, R s t → R t u → R s u
  storeData : ∀ {s s' : Server} {p : ProcessDataPacket}, p.execute s = .ok s' → R s s'
  updateTaskStatus : ∀ {s s' : Server} {id status}, s.updateTaskStatus id status = .ok s' → R s s'
  queuePacket : ∀ {s s' : Server} {b packet rc}, s.queuePacket b packet = .ok (s', rc) → R s s'
  matchAckablePacket : ∀ {s s' : Server} {b id found},
    s.matchAckablePacket b id = .ok (s', found) → R s s'
  updateTracking : ∀ {s s' : Server} {uid id}, s.updateTracking uid id = .ok s' → R s s'
  storeStats : ∀ {s s' : Server} {b p}, s.storeStats b p = .ok s' → R s s'

variable {R : Server → Server → Prop} {s s' : Server} {worker : WorkerRef}

/-! ### The sender core -/

namespace HandoutRule

lemma pushInstance (hR : HandoutRule R) {j : TemplateJson}
    (h : s.pushInstance worker j = .ok s') : R s s' := by
  obtain ⟨s₁, w, o, s₂, rc, s₃, s₄, h₁, hw, -, h₂, h₃, h₄, h₅⟩ := pushInstance_eq_ok.mp h
  have hqueued : R s s₂ := hR.trans (hR.registryAdd h₁) (hR.queuePacket hw rfl h₂)
  have hrecorded : R s₂ s₄ := hR.trans (hR.assignWorker h₃) (hR.updateTaskStatus h₄)
  exact hR.trans (hR.trans hqueued hrecorded) (hR.trackWorker h₅)

lemma pushInstances (hR : HandoutRule R) {json : List TemplateJson}
    (h : s.pushInstances worker json = .ok s') : R s s' := by
  induction json generalizing s with
  | nil =>
    cases h
    exact hR.refl _
  | cons j json ih =>
    simp only [Server.pushInstances, Outcome.bind_eq_ok] at h
    obtain ⟨t, ht, h⟩ := h
    exact hR.trans (hR.pushInstance ht) (ih h)

lemma pushInstanceLoop (hR : HandoutRule R) {json : List TemplateJson}
    {workerList rest : List String} (h : pushInstanceLoop json s workerList = .ok (s', rest)) :
    R s s' := by
  induction workerList generalizing s with
  | nil =>
    cases h
    exact hR.refl _
  | cons uid workerList ih =>
    simp only [Server.pushInstanceLoop, Outcome.bind_eq_ok] at h
    obtain ⟨found, -, h⟩ := h
    cases found with
    | none => exact ih h
    | some worker =>
      simp only [Outcome.bind_eq_ok] at h
      obtain ⟨t, ht, h⟩ := h
      exact hR.trans (hR.pushInstances ht) (ih h)

end HandoutRule

namespace DispatchRule

lemma pushUserDataToWorkerQueue (hR : DispatchRule R)
    (h : s.pushUserDataToWorkerQueue = .ok s') : R s s' := by
  rcases pushUserDataToWorkerQueue_cases h with rfl | ⟨_, worker, -, -, h⟩
  · exact hR.refl s'
  · obtain ⟨sink, t, packet, w, o, s₂, rc, s₃, -, -, hw, -, h₂, h₃, h₄⟩ :=
      dispatchUserData_eq_ok.mp h
    have hqueued : R s s₂ := hR.trans (hR.senderSink s sink) (hR.queuePacket (by exact hw) rfl h₂)
    exact hR.trans hqueued (hR.trans (hR.assignWorker h₃) (hR.updateTaskStatus h₄))

lemma updateAllWorkerInstances (hR : DispatchRule R) {workerList rest : List String}
    (h : s.updateAllWorkerInstances workerList = .ok (s', rest)) : R s s' := by
  simp only [Server.updateAllWorkerInstances, pushInstanceToWorkerQueue, Outcome.bind_eq_ok,
    Outcome.pure_eq_ok, Prod.mk.injEq] at h
  obtain ⟨l, -, ⟨t, rest'⟩, hpush, rfl, rfl⟩ := h
  exact hR.trans (hR.pushInstanceLoop hpush) (hR.resetFlag t)

lemma instructOnUpdate (hR : DispatchRule R) (h : s.instructOnUpdate = .ok s') : R s s' := by
  unfold Server.instructOnUpdate at h
  split_ifs at h
  · simp only [Outcome.bind_eq_ok, Outcome.pure_eq_ok] at h
    obtain ⟨⟨t, rest⟩, hupdate, rfl⟩ := h
    exact hR.trans (hR.updateAllWorkerInstances hupdate) (hR.newWorkerList t _)
  · cases h
    exact hR.refl s

lemma instructNewOrPushData (hR : DispatchRule R) (h : s.instructNewOrPushData = .ok s') :
    R s s' := by
  unfold Server.instructNewOrPushData at h
  split_ifs at h
  · simp only [Outcome.bind_eq_ok, Outcome.pure_eq_ok] at h
    obtain ⟨⟨t, rest⟩, hpush, rfl⟩ := h
    exact hR.trans (hR.pushInstanceLoop hpush) (hR.newWorkerList t _)
  · exact hR.pushUserDataToWorkerQueue h

lemma senderCoreDispatch (hR : DispatchRule R) {status : JobStatus}
    (h : s.senderCoreDispatch = .ok (s', status)) : R s s' := by
  simp only [Server.senderCoreDispatch, Outcome.bind_eq_ok, Outcome.pure_eq_ok,
    Prod.mk.injEq] at h
  obtain ⟨t, ht, u, hu, rfl, -⟩ := h
  exact hR.trans (hR.instructOnUpdate ht) (hR.instructNewOrPushData hu)

end DispatchRule

namespace SenderCoreRule

lemma pushPendingLoop (hR : SenderCoreRule R) {worker : Option WorkerRef}
    {outPacketList rest : List OutPacketRef} {rc : ℤ}
    (h : s.pushPendingLoop worker outPacketList = .ok (s', rest, rc)) : R s s' := by
  induction outPacketList generalizing s worker with
  | nil =>
    cases h
    exact hR.refl _
  | cons p outPacketList ih =>
    simp only [Server.pushPendingLoop, Outcome.bind_eq_ok, Outcome.ofOption_eq_ok,
      Heap.deref_eq_ok] at h
    obtain ⟨b, -, w, hw, ⟨w', rc'⟩, hq, next, -, h⟩ := h
    split_ifs at h with hnext
    · cases h
      exact hR.requeue hw hq
    · exact hR.trans (hR.requeue hw hq) (ih h)

lemma startSenderCore (hR : SenderCoreRule R) {status : JobStatus}
    (h : s.startSenderCore = .ok (s', status)) : R s s' := by
  unfold Server.startSenderCore at h
  split_ifs at h with hpending
  · simp only [pushPendingPackets, Outcome.bind_eq_ok] at h
    obtain ⟨⟨t, rest, rc⟩, ⟨worker, -, hloop⟩, h⟩ := h
    have hstored : R s { t with
        senderCoreData := { t.senderCoreData with pendingPacketsList := rest } } :=
      hR.trans (hR.pushPendingLoop hloop) (hR.pendingPacketsList t _)
    split_ifs at h with hrc
    · cases h
      exact hstored
    · exact hR.trans hstored (hR.senderCoreDispatch h)
  · exact hR.senderCoreDispatch h

end SenderCoreRule

/-! ### The validator -/

namespace SwitchRule

lemma noteTemplate (hR : SwitchRule R) {w : Worker} {tableId : String}
    (h : s.noteTemplate w tableId = .ok s') : R s s' := by
  simp only [Server.noteTemplate, Outcome.bind_eq_ok] at h
  obtain ⟨found, -, h⟩ := h
  cases found with
  | true => exact hR.updateTracking h
  | false =>
    cases h
    exact hR.refl s

lemma noteResult (hR : SwitchRule R) {p : ProcessStatusPacket} {status : UserTaskStatus}
    {code : ServerPacketCodes} (h : s.noteResult worker p status code = .ok s') : R s s' := by
  simp only [Server.noteResult, Outcome.bind_eq_ok] at h
  obtain ⟨t, ht, found, -, h⟩ := h
  cases found with
  | none =>
    cases h
    exact hR.updateTaskStatus ht
  | some i =>
    simp only [Outcome.bind_eq_ok, Outcome.pure_eq_ok] at h
    obtain ⟨⟨u, rc⟩, hq, rfl⟩ := h
    exact hR.trans (hR.updateTaskStatus ht) (hR.queuePacket hq)

lemma switchStatus (hR : SwitchRule R) {statusCode : BitVec 32} {p : ProcessStatusPacket}
    (h : s.switchStatus worker statusCode p = .ok s') : R s s' := by
  simp only [Server.switchStatus, Outcome.bind_eq_ok] at h
  obtain ⟨w, -, h⟩ := h
  split_ifs at h
  · exact hR.noteTemplate h
  · simp only [Outcome.bind_eq_ok] at h
    obtain ⟨⟨t, found⟩, hm, h⟩ := h
    cases found with
    | true => exact hR.trans (hR.matchAckablePacket hm) (hR.noteTemplate h)
    | false =>
      cases h
      exact hR.matchAckablePacket hm
  · exact hR.noteResult h
  · exact hR.noteResult h
  · exact hR.updateTaskStatus h
  all_goals
    cases h
    exact hR.refl s

end SwitchRule

namespace ValidatorRule

lemma toSwitchRule (hR : ValidatorRule R) : SwitchRule R where
  refl := hR.refl
  trans := hR.trans
  updateTaskStatus := hR.updateTaskStatus
  queuePacket := hR.queuePacket
  matchAckablePacket := hR.matchAckablePacket
  updateTracking := hR.updateTracking

lemma packetStatusParse (hR : ValidatorRule R) {p : ProcessStatusPacket}
    (h : s.packetStatusParse p = .ok s') : R s s' := by
  rcases packetStatusParse_cases h with ⟨-, rfl⟩ | ⟨worker, t, -, ht, hstore⟩
  · exact hR.refl s'
  · exact hR.trans (hR.toSwitchRule.switchStatus ht) (hR.storeStats hstore)

lemma processPacket (hR : ValidatorRule R) {packet : Json}
    (h : s.processPacket packet = .ok s') : R s s' := by
  simp only [Server.processPacket, Outcome.bind_eq_ok] at h
  obtain ⟨body, -, h⟩ := h
  split_ifs at h with hdata
  · simp only [Outcome.bind_eq_ok] at h
    obtain ⟨d, -, t, ht, p, -, h⟩ := h
    exact hR.trans (hR.storeData ht) (hR.packetStatusParse h)
  · simp only [Outcome.bind_eq_ok, Outcome.pure_eq_ok] at h
    obtain ⟨t, rfl, p, -, h⟩ := h
    exact hR.packetStatusParse h

end ValidatorRule

/-! ### What no call touches -/

variable {β : Type*} {f : Server → β}

/-- The calls for handing out a packet touch these fields only. -/
lemma HandoutRule.of_frame
    (hf : ∀ (s : Server) outPackets outgoingDataRegistry database workerRegistry workerInstanceList
      addFlag, f { s with
        outPackets
        outgoingDataRegistry
        database
        workerRegistry
        workerInstanceList
        addFlag } = f s) :
    HandoutRule fun s s' => f s' = f s where
  refl _ := rfl
  trans h h' := h'.trans h
  registryAdd h := by
    obtain ⟨_, -, rfl⟩ := registryAdd_eq_ok.mp h
    exact hf _ _ _ _ _ _ _
  queuePacket {s _ _ _ _ _} _ _ h := by
    obtain ⟨_, -, ⟨-, -, rfl⟩ | ⟨-, -, -, rfl⟩⟩ := queuePacket_cases h
    · exact hf s _ _ _ _ _ _
    · exact hf s _ _ _ _ _ _
  assignWorker h := by
    obtain ⟨_, _, -, rfl⟩ := assignWorker_eq_ok.mp h
    exact hf _ _ _ _ _ _ _
  updateTaskStatus h := by
    obtain ⟨_, _, _, -, rfl⟩ := updateTaskStatus_eq_ok.mp h
    exact hf _ _ _ _ _ _ _
  trackWorker h := by
    obtain ⟨_, _, -, rfl⟩ := trackWorker_eq_ok.mp h
    exact hf _ _ _ _ _ _ _

/-- The sender core touches its sink, its lists and the update flag besides. -/
lemma SenderCoreRule.of_frame
    (hf : ∀ (s : Server) outPackets outgoingDataRegistry database workerRegistry workerInstanceList
      addFlag, f { s with
        outPackets
        outgoingDataRegistry
        database
        workerRegistry
        workerInstanceList
        addFlag } = f s)
    (hsender : ∀ (s : Server) senderSink senderCoreData templateRegistry,
      f { s with senderSink, senderCoreData, templateRegistry } = f s) :
    SenderCoreRule fun s s' => f s' = f s where
  __ := HandoutRule.of_frame hf
  senderSink _ _ := hsender _ _ _ _
  newWorkerList _ _ := hsender _ _ _ _
  resetFlag _ := hsender _ _ _ _
  requeue _ _ := hf _ _ _ _ _ _ _
  pendingPacketsList _ _ := hsender _ _ _ _

/-- The validator's calls touch these fields only. -/
lemma ValidatorRule.of_frame
    (hf : ∀ (s : Server) outPackets outgoingDataRegistry database workerRegistry workerInstanceList
      packetTimeout csvFiles, f { s with
        outPackets
        outgoingDataRegistry
        database
        workerRegistry
        workerInstanceList
        packetTimeout
        csvFiles } = f s) :
    ValidatorRule fun s s' => f s' = f s where
  refl _ := rfl
  trans h h' := h'.trans h
  storeData h := by
    obtain ⟨_, _, rfl, -⟩ := ProcessDataPacket.execute_cases h
    exact hf _ _ _ _ _ _ _ _
  updateTaskStatus h := by
    obtain ⟨_, _, _, -, rfl⟩ := updateTaskStatus_eq_ok.mp h
    exact hf _ _ _ _ _ _ _ _
  queuePacket {s _ _ _ _} h := by
    obtain ⟨_, -, ⟨-, -, rfl⟩ | ⟨-, -, -, rfl⟩⟩ := queuePacket_cases h
    · exact hf s _ _ _ _ _ _ _
    · exact hf s _ _ _ _ _ _ _
  matchAckablePacket {s _ _ _ _} h := by
    obtain ⟨_, -, ⟨-, _, _, _, -, -, rfl⟩ | ⟨-, rfl⟩⟩ := matchAckablePacket_cases h
    · exact hf s _ _ _ _ _ _ _
    · rfl
  updateTracking h := by
    obtain ⟨_, _, -, rfl⟩ := updateTracking_eq_ok.mp h
    exact hf _ _ _ _ _ _ _ _
  storeStats {s _ _ _} h := by
    rcases storeStats_cases h with rfl | ⟨_, _, -, rfl⟩
    · rfl
    · exact hf s _ _ _ _ _ _ _

/-! ### What the calls keep of the workers -/

namespace KeepsWorkers

variable {f : Worker → β}

lemma dispatch (hf : Stays f) : DispatchRule (KeepsWorkers f) where
  refl _ _ := rfl
  trans := trans
  registryAdd := registryAdd
  queuePacket _ _ h := queuePacket hf h
  assignWorker := assignWorker
  updateTaskStatus := updateTaskStatus
  trackWorker := trackWorker hf
  senderSink _ _ := of_frame rfl
  newWorkerList _ _ := of_frame rfl
  resetFlag _ := of_frame rfl

lemma switchRule (hf : Stays f) : SwitchRule (KeepsWorkers f) where
  refl _ _ := rfl
  trans := trans
  updateTaskStatus := updateTaskStatus
  queuePacket := queuePacket hf
  matchAckablePacket := matchAckablePacket hf
  updateTracking := updateTracking hf

/-- Registered workers attend, so that none is removed. -/
lemma executeLoop (hf : Stays f) {timedPackets : List OutPacketRef} {returned : Bool}
    (hatt : ∀ b w, s.getWorker b = some w → w.attendance = true)
    (h : s.executeLoop timedPackets = .ok (s', returned)) : KeepsWorkers f s s' := by
  induction timedPackets generalizing s with
  | nil =>
    cases h
    exact of_frame rfl
  | cons p timedPackets ih =>
    cases ExecuteRule.of_executeLoop h with
    | checkOut o ho hstatus hloop =>
      have hrest := ih (by exact hatt) hloop
      exact hrest
    | resend o i st worker w t ho hstatus hdata hst hworker hw hpush hloop =>
      refine (pushToFront hf hpush).trans (ih (fun b v hv => ?_) hloop)
      have hstays : Stays Worker.attendance := fun _ _ _ _ _ _ => rfl
      obtain ⟨u, hu, heq⟩ := exists_of_map_eq (pushToFront hstays hpush b).symm hv
      rw [← heq]
      exact hatt b u hu
    | absent worker w hw habsent =>
      rw [hatt worker w hw] at habsent
      cases habsent

lemma execute (hf : Stays f) (hatt : ∀ b w, s.getWorker b = some w → w.attendance = true)
    (h : s.execute = .ok s') : KeepsWorkers f s s' := by
  obtain ⟨lock, lock', t, returned, hloop, rfl⟩ := execute_loop h
  have hrest := executeLoop hf (by exact hatt) hloop
  exact hrest

end KeepsWorkers

end Server

end ServerUnit
