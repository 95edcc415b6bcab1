import ServerUnit.DataExtractor.UserTables

/-!
# A table between the sink and the registry

The extractor pushes a table into the sender sink and then adds its name to the registry. The
sender core, in another thread, can take the table off the sink in between: the packet it queues
has no entry of the registry then, and keeps none.
-/

namespace ServerUnit

open Lib

/-- The table that the body of a packet is about. -/
def PacketBody.tableId : PacketBody → Option String
  | .empty                => none
  | .template id _ _      => some id
  | .userData tableid ..  => some tableid

lemma UserDataTable.tableId_toJson {t : UserDataTable} {body : PacketBody}
    (h : t.toJson = .ok body) : body.tableId = some t.userTable := by
  simp only [UserDataTable.toJson, Outcome.bind_eq_ok, Outcome.pure_eq_ok] at h
  obtain ⟨data, -, rfl⟩ := h
  rfl

namespace Server

/-- The first half of `pushUserTable`. -/
def pushTable (s : Server) (userDataTable : UserDataTable) : Outcome Server := do
  let (senderSink, _) ←
    s.senderSink.pushObject (some userDataTable) userDataTable.priority (s.starveCounter 0)
  return { s with senderSink, starveCounter := fun n => s.starveCounter (n + 1) }

/-- The packet has an entry of the registry, which is that of the table it carries. -/
def Backed (s : Server) (p : OutPacketRef) : Prop :=
  ∃ o i st, s.outPackets.get p = some o ∧ o.outData = some i ∧
    s.outgoingDataRegistry.states.get i = some st ∧ ∀ id ∈ o.packet.body.tableId, st.id = id

/-- Every packet queued or pending at a worker has its entry. -/
def QueuesBacked (s : Server) : Prop :=
  ∀ worker w, s.getWorker worker = some w → ∀ p ∈ w.senderQueue ++ w.ackPendingQueue, s.Backed p

/-- The registry has an entry with the name. -/
def Listed (s : Server) (id : String) : Prop :=
  ∃ found, s.outgoingDataRegistry.find id = .ok (some found)

/-- The table at the front of the sink is in the registry, unless no worker takes it. -/
def FrontListed (s : Server) : Prop :=
  ∀ item ∈ s.senderSink.sinkItemList.head?, ∀ worker w,
    findIdealWorker s.workerRegistry item.taskPriority = .ok (some worker) →
      s.getWorker worker = some w → w.senderQueue.length ≤ WORKER_QUEUE_SIZE →
        s.Listed item.dataObject.userTable

end Server

/-! ### The two threads -/

/-- The server with the extractor in the middle of its tables: those still to be pushed, and the
name of the one that was pushed and is to be added. -/
structure Extraction where
  server : Server
  tables : List UserDataTable
  adding : Option String

inductive ExtractionEvent where
  /-- The monitor calls the extractor again. -/
  | extract (tables : List UserDataTable)
  | pushObject
  | add
  | pushUserDataToWorkerQueue
  | getQueuedPacket (workerUid : String)

namespace Extraction

def step (x : Extraction) : ExtractionEvent → Outcome Extraction
  | .extract tables =>
    Outcome.guard (x.tables = [] ∧ x.adding = none) (.ok { x with tables })
  | .pushObject =>
    match x.tables, x.adding with
    | userDataTable :: tables, none => do
      let server ← x.server.pushTable userDataTable
      return ⟨server, tables, some userDataTable.userTable⟩
    | _, _ => .error .disabled
  | .add =>
    match x.adding with
    | some userTable => do
      let server ← x.server.registryAdd userTable none
      return { x with server, adding := none }
    | none => .error .disabled
  | .pushUserDataToWorkerQueue => do
    let server ← x.server.pushUserDataToWorkerQueue
    return { x with server }
  | .getQueuedPacket workerUid => do
    let (server, _) ← x.server.getQueuedPacket workerUid
    return { x with server }

/-- A table is dispatched only when it is in the registry. -/
def DispatchesListed (x : Extraction) : ExtractionEvent → Prop
  | .pushUserDataToWorkerQueue => x.server.FrontListed
  | _                          => True

end Extraction

namespace Server

variable {s s' t : Server} {worker : WorkerRef} {w : Worker} {p : OutPacketRef} {id : String}

/-- Uninterrupted, the two halves are `pushUserTable`. -/
lemma pushUserTable_eq (userDataTable : UserDataTable) :
    s.pushUserTable userDataTable = (do
      let s ← s.pushTable userDataTable
      s.registryAdd userDataTable.userTable none) := by
  simp only [pushUserTable, pushTable, bind_assoc, pure_bind]

/-! ### Entries keep their names -/

/-- The packets stay, and every entry of the registry keeps its name. -/
structure KeepsBacking (s s' : Server) : Prop where
  packets : ∀ p o, s.outPackets.get p = some o → s'.outPackets.get p = some o
  names : ∀ i st, s.outgoingDataRegistry.states.get i = some st →
    ∃ st', s'.outgoingDataRegistry.states.get i = some st' ∧ st'.id = st.id

namespace KeepsBacking

lemma of_eq (hpackets : s'.outPackets = s.outPackets)
    (hregistry : s'.outgoingDataRegistry = s.outgoingDataRegistry) : KeepsBacking s s' :=
  ⟨fun _ _ ho => hpackets ▸ ho, fun _ st hst => ⟨st, hregistry ▸ hst, rfl⟩⟩

lemma trans (h : KeepsBacking s t) (h' : KeepsBacking t s') : KeepsBacking s s' := by
  refine ⟨fun p o ho => h'.packets p o (h.packets p o ho), fun i st hst => ?_⟩
  obtain ⟨st₁, hst₁, hid₁⟩ := h.names i st hst
  obtain ⟨st₂, hst₂, hid₂⟩ := h'.names i st₁ hst₁
  exact ⟨st₂, hst₂, hid₂.trans hid₁⟩

lemma backed (h : KeepsBacking s s') (hp : s.Backed p) : s'.Backed p := by
  obtain ⟨o, i, st, ho, hdata, hst, hid⟩ := hp
  obtain ⟨st', hst', hname⟩ := h.names i st hst
  exact ⟨o, i, st', h.packets p o ho, hdata, hst', fun id hmem => hname.trans (hid id hmem)⟩

/-- One entry is overwritten by one of the same name. -/
lemma putState {r : OutgoingDataRegistry} {i : OutDataRef} {st : OutgoingDataState}
    {database : Database} (st' : OutgoingDataState)
    (hst : s.outgoingDataRegistry.states.get i = some st)
    (hid : st'.id = st.id)
    (hr : r = { s.outgoingDataRegistry with
      states := s.outgoingDataRegistry.states.put i st' }) :
    KeepsBacking s { s with outgoingDataRegistry := r, database := database } := by
  refine ⟨fun _ _ ho => ho, fun j st₁ hst₁ => ?_⟩
  rw [hr]
  dsimp only
  rw [Heap.get_put hst]
  split_ifs with hj
  · rw [hj] at hst₁
    cases hst.symm.trans hst₁
    exact ⟨st', rfl, hid⟩
  · exact ⟨st₁, hst₁, rfl⟩

lemma registryAdd {o : Option WorkerRef} (h : s.registryAdd id o = .ok s') : KeepsBacking s s' := by
  obtain ⟨r, hadd, rfl⟩ := registryAdd_eq_ok.mp h
  rcases OutgoingDataRegistry.add_cases hadd with rfl | ⟨-, -, rfl⟩
  · exact of_eq rfl rfl
  · exact ⟨fun _ _ ho => ho, fun i st hst => ⟨st, Heap.get_alloc_of_get hst, rfl⟩⟩

lemma queuePacket {packet : OutPacket} {rc : ℕ} (h : s.queuePacket worker packet = .ok (s', rc)) :
    KeepsBacking s s' := by
  have halloc : ∀ p o, s.outPackets.get p = some o →
      (s.outPackets.alloc packet).get p = some o := fun _ _ => Heap.get_alloc_of_get
  obtain ⟨w, -, ⟨-, -, rfl⟩ | ⟨-, -, -, rfl⟩⟩ := queuePacket_cases h
  · exact ⟨halloc, fun _ st hst => ⟨st, hst, rfl⟩⟩
  · exact ⟨halloc, fun _ st hst => ⟨st, hst, rfl⟩⟩

lemma assignWorker (h : s.assignWorker id worker = .ok s') : KeepsBacking s s' := by
  obtain ⟨r, b, hr, rfl⟩ := assignWorker_eq_ok.mp h
  rcases OutgoingDataRegistry.assignWorker_cases hr with
    ⟨-, rfl⟩ | ⟨_, i, _, st, -, hst, rfl⟩
  · exact of_eq rfl rfl
  · exact putState { st with worker := some worker } hst rfl rfl

lemma updateTaskStatus {status : UserTaskStatus} (h : s.updateTaskStatus id status = .ok s') :
    KeepsBacking s s' := by
  obtain ⟨r, database, b, hr, rfl⟩ := updateTaskStatus_eq_ok.mp h
  rcases OutgoingDataRegistry.updateTaskStatus_cases hr with
    ⟨-, rfl, -⟩ | ⟨_, i, _, st, -, hst, ⟨-, rfl, -⟩ | ⟨-, rfl, -⟩⟩
  · exact of_eq rfl rfl
  · exact of_eq rfl rfl
  · exact putState { st with taskStatus := status } hst rfl rfl

lemma dispatchUserData (h : s.dispatchUserData worker = .ok s') : KeepsBacking s s' := by
  obtain ⟨sink, _, _, _, _, s₂, _, s₃, -, -, -, -, hqueue, hassign, hupdate⟩ :=
    dispatchUserData_eq_ok.mp h
  have hsink : KeepsBacking s { s with senderSink := sink } := of_eq rfl rfl
  have hqueued : KeepsBacking s s₂ := hsink.trans (queuePacket hqueue)
  exact hqueued.trans ((assignWorker hassign).trans (updateTaskStatus hupdate))

/-- When the packets found in the queues are backed or were there before, all are. -/
lemma queuesBacked (h : KeepsBacking s s') (hs : s.QueuesBacked)
    (hqueues : ∀ b w', s'.getWorker b = some w' → ∀ q ∈ w'.senderQueue ++ w'.ackPendingQueue,
      (∃ w, s.getWorker b = some w ∧ q ∈ w.senderQueue ++ w.ackPendingQueue) ∨ s'.Backed q) :
    s'.QueuesBacked := by
  intro b w' hw' q hq
  rcases hqueues b w' hw' q hq with ⟨w, hw, hmem⟩ | hbacked
  · exact h.backed (hs b w hw q hmem)
  · exact hbacked

end KeepsBacking

/-- The search of `matchAckablePacket` follows no null pointer. -/
lemma QueuesBacked.search_isOk (hs : s.QueuesBacked) (hw : s.getWorker worker = some w) :
    ∃ found, splitFirst (Worker.hasId s.outPackets s.outgoingDataRegistry.states id)
      w.ackPendingQueue = .ok found := by
  refine splitFirst_isOk fun p hp => ?_
  obtain ⟨o, i, st, ho, hdata, hst, -⟩ := hs worker w hw p (List.mem_append_right _ hp)
  exact ⟨_, Worker.hasId_eq_ok.mpr ⟨o, i, st, ho, hdata, hst, rfl⟩⟩

/-- A packet without an entry in a queue. -/
lemma not_queuesBacked {o : OutPacket} (hw : s.getWorker worker = some w)
    (hp : p ∈ w.senderQueue) (ho : s.outPackets.get p = some o) (hdata : o.outData = none) :
    ¬ s.QueuesBacked := by
  intro hs
  obtain ⟨o', i, st, ho', hdata', -, -⟩ := hs worker w hw p (List.mem_append_left _ hp)
  cases ho.symm.trans ho'
  rw [hdata] at hdata'
  cases hdata'

/-! ### One step -/

/-- The packet of the table is refused, or it is the last of the worker's sender queue. -/
inductive Dispatched (s : Server) (worker : WorkerRef) (id : String) (s' : Server) : Prop where
  | refused (w : Worker) (hw : s.getWorker worker = some w)
      (hfull : WORKER_QUEUE_SIZE < w.senderQueue.length)
      (hworkers : ∀ b, s'.getWorker b = s.getWorker b)
  | queued (w : Worker) (o : OutPacket) (hw : s.getWorker worker = some w)
      (hroom : w.senderQueue.length ≤ WORKER_QUEUE_SIZE)
      (ho : s'.outPackets.get s.outPackets.next = some o)
      (htable : o.packet.body.tableId = some id)
      (hdata : s.outgoingDataRegistry.getRegistryFromId id = .ok o.outData)
      (hworkers : ∀ b, s'.getWorker b = if b = worker then
        some { w with senderQueue := w.senderQueue ++ [s.outPackets.next] } else s.getWorker b)

lemma Dispatched.of_dispatchUserData {item : SinkItem UserDataTable}
    {items : List (SinkItem UserDataTable)} (hsink : s.senderSink.sinkItemList = item :: items)
    (h : s.dispatchUserData worker = .ok s') :
    Dispatched s worker item.dataObject.userTable s' := by
  obtain ⟨sink, userData, packet, w, outData, s₂, rc, s₃, hpop, hpacket, hw, hout, hqueue, hassign,
    hupdate⟩ := dispatchUserData_eq_ok.mp h
  rcases Sink.popObject_cases hpop with ⟨hnil, -⟩ | ⟨item', items', hcons, hitem, -⟩
  · rw [hsink] at hnil
    cases hnil
  cases hsink.symm.trans hcons
  cases hitem
  obtain ⟨_, _, -, rfl⟩ := assignWorker_eq_ok.mp hassign
  obtain ⟨_, _, _, -, rfl⟩ := updateTaskStatus_eq_ok.mp hupdate
  obtain ⟨w₁, hw₁, ⟨hfull, -, rfl⟩ | ⟨hroom, -, -, rfl⟩⟩ := queuePacket_cases hqueue
  · cases hw.symm.trans hw₁
    exact .refused w hw hfull fun _ => rfl
  · cases hw.symm.trans hw₁
    exact .queued w _ hw hroom (Heap.get_alloc_self _ _) (UserDataTable.tableId_toJson hpacket)
      hout fun _ => Heap.get_put hw

/-- The packet of a table in the registry gets the entry of the table. -/
lemma backed_of_listed {o : OutPacket} (hkeeps : KeepsBacking s s') (hlisted : s.Listed id)
    (hdata : s.outgoingDataRegistry.getRegistryFromId id = .ok o.outData)
    (ho : s'.outPackets.get p = some o) (htable : o.packet.body.tableId = some id) :
    s'.Backed p := by
  obtain ⟨⟨before, i, after⟩, hfind⟩ := hlisted
  obtain ⟨found, hfind', hfound⟩ := OutgoingDataRegistry.getRegistryFromId_eq_ok.mp hdata
  cases hfind.symm.trans hfind'
  obtain ⟨-, st, hst, hid⟩ := OutgoingDataRegistry.find_eq_some hfind
  obtain ⟨st', hst', hname⟩ := hkeeps.names i st hst
  refine ⟨o, i, st', ho, hfound.symm, hst', fun id' hmem => ?_⟩
  rw [Option.mem_def, htable] at hmem
  rw [hname, hid, Option.some.inj hmem]

/-- All packets are backed afterwards exactly when the worker's queue had no room for the packet, or
the table was in the registry. -/
lemma Dispatched.queuesBacked_iff (h : Dispatched s worker id s') (hkeeps : KeepsBacking s s')
    (hs : s.QueuesBacked) :
    s'.QueuesBacked ↔ ∀ w, s.getWorker worker = some w →
      w.senderQueue.length ≤ WORKER_QUEUE_SIZE → s.Listed id := by
  cases h with
  | refused w hw hfull hworkers =>
    refine iff_of_true (hkeeps.queuesBacked hs fun b w' hw' q hq => ?_) fun w' hw' hroom => ?_
    · exact .inl ⟨w', (hworkers b).symm.trans hw', hq⟩
    · cases hw.symm.trans hw'
      omega
  | queued w o hw hroom ho htable hdata hworkers =>
    have hqueued := (hworkers worker).trans (if_pos rfl)
    constructor
    · intro hbacked _ _ _
      obtain ⟨o', i, _, ho', hentry, -, -⟩ := hbacked worker _ hqueued s.outPackets.next (by simp)
      cases ho.symm.trans ho'
      obtain ⟨found, hfind, hfound⟩ := OutgoingDataRegistry.getRegistryFromId_eq_ok.mp hdata
      cases found with
      | none =>
        rw [← hfound] at hentry
        cases hentry
      | some found => exact ⟨found, hfind⟩
    · intro hlisted
      have hnew := backed_of_listed hkeeps (hlisted w hw hroom) hdata ho htable
      refine hkeeps.queuesBacked hs fun b w' hw' q hq => ?_
      rw [hworkers] at hw'
      split_ifs at hw' with hb
      · cases hw'
        simp only [List.mem_append, List.mem_singleton] at hq
        rcases hq with (hq | rfl) | hq
        · exact .inl ⟨w, hb ▸ hw, List.mem_append_left _ hq⟩
        · exact .inr hnew
        · exact .inl ⟨w, hb ▸ hw, List.mem_append_right _ hq⟩
      · exact .inl ⟨w', hw', hq⟩

lemma pushUserDataToWorkerQueue_queuesBacked (hs : s.QueuesBacked)
    (h : s.pushUserDataToWorkerQueue = .ok s') : s'.QueuesBacked ↔ s.FrontListed := by
  unfold pushUserDataToWorkerQueue at h
  unfold FrontListed
  cases hsink : s.senderSink.sinkItemList with
  | nil =>
    rw [if_pos (by simp [Sink.isSinkEmpty, hsink])] at h
    cases h
    exact iff_of_true hs (by simp)
  | cons item items =>
    rw [if_neg (by simp [Sink.isSinkEmpty, hsink])] at h
    simp only [Sink.getTopTaskPriority, hsink, Outcome.bind_eq_ok] at h
    obtain ⟨_, ⟨⟩, found, hfound, h⟩ := h
    simp only [List.head?_cons, Option.mem_def, Option.some.injEq, forall_eq', hfound,
      Except.ok.injEq]
    cases found with
    | none =>
      cases h
      exact iff_of_true hs (by simp)
    | some worker =>
      rw [(Dispatched.of_dispatchUserData hsink h).queuesBacked_iff (.dispatchUserData h) hs]
      simp only [Option.some.injEq]
      constructor
      · rintro hlisted _ w rfl
        exact hlisted w
      · exact fun hlisted w => hlisted worker w rfl

lemma getQueuedPacket_queuesBacked {uid : String} {packet : Option ServerPacket}
    (hs : s.QueuesBacked) (h : s.getQueuedPacket uid = .ok (s', packet)) : s'.QueuesBacked := by
  obtain ⟨worker, w, w', timer, -, hw, hget, rfl⟩ := getQueuedPacket_eq_ok.mp h
  have hkeeps : KeepsBacking s ({ s with packetTimeout := timer }.putWorker worker w') :=
    .of_eq rfl rfl
  refine hkeeps.queuesBacked hs fun b v hv q hq => .inl ?_
  by_cases hb : b = worker
  · subst hb
    cases (getWorker_putWorker (s := { s with packetTimeout := timer }) hw).symm.trans hv
    exact ⟨w, hw, (Worker.getQueuedPacket_move hget).1.queued hq⟩
  · exact ⟨v, (Heap.get_put_of_ne hb).symm.trans hv, hq⟩

end Server

namespace Extraction

variable {x x' : Extraction}

lemma step_queuesBacked {e : ExtractionEvent} (hx : x.server.QueuesBacked)
    (h : x.step e = .ok x') : x'.server.QueuesBacked ↔ DispatchesListed x e := by
  cases e with
  | extract tables =>
    simp only [step, Outcome.guard_eq_ok] at h
    obtain ⟨-, h⟩ := h
    cases h
    exact iff_of_true hx trivial
  | pushObject =>
    refine iff_of_true ?_ trivial
    simp only [step] at h
    split at h
    · simp only [Server.pushTable, Outcome.bind_eq_ok, Outcome.pure_eq_ok] at h
      obtain ⟨_, ⟨⟨sink, rc⟩, -, rfl⟩, rfl⟩ := h
      exact hx
    · cases h
  | add =>
    refine iff_of_true ?_ trivial
    simp only [step] at h
    split at h
    · simp only [Outcome.bind_eq_ok, Outcome.pure_eq_ok] at h
      obtain ⟨server, hadd, rfl⟩ := h
      refine (Server.KeepsBacking.registryAdd hadd).queuesBacked hx fun b w hw q hq => .inl ?_
      obtain ⟨_, -, rfl⟩ := Server.registryAdd_eq_ok.mp hadd
      exact ⟨w, hw, hq⟩
    · cases h
  | pushUserDataToWorkerQueue =>
    simp only [step, Outcome.bind_eq_ok, Outcome.pure_eq_ok] at h
    obtain ⟨server, hpush, rfl⟩ := h
    exact Server.pushUserDataToWorkerQueue_queuesBacked hx hpush
  | getQueuedPacket workerUid =>
    simp only [step, Outcome.bind_eq_ok, Outcome.pure_eq_ok] at h
    obtain ⟨⟨server, packet⟩, hget, rfl⟩ := h
    exact iff_of_true (Server.getQueuedPacket_queuesBacked hx hget) trivial

/-- In a run of the two threads every packet queued or pending at a worker has the registry entry of
its table, exactly when each table dispatched was in the registry by then. -/
theorem run_queuesBacked_iff {es : List ExtractionEvent} (hx : x.server.QueuesBacked)
    (h : run step x es = .ok x') : Meets step DispatchesListed x es ↔
      ∀ es₁ y, es₁ <+: es → run step x es₁ = .ok y → y.server.QueuesBacked :=
  meets_iff_forall_prefix (fun _ _ _ hI ht => step_queuesBacked hI ht) hx h

/-- One worker is ready for data, and the extractor is about to start. -/
def idle : Extraction :=
  { server := { Server.init (fun _ => false) (fun _ => 0) with
      workerRegistry :=
        ⟨⟨[some { Worker.new "1" with workerReady := true, workerStats := ⟨1, [0, 0, 0, 0], 0⟩ }]⟩,
          [0], [], true⟩ }
    tables := []
    adding := none }

/-- A table for the worker. -/
def table : UserDataTable := ⟨"A", .lowPriority, "T", some "1,2"⟩

lemma idle_queuesBacked : idle.server.QueuesBacked := by
  intro worker w hw p hp
  cases worker with
  | zero =>
    cases hw
    cases hp
  | succ worker =>
    simp [idle, Heap.get] at hw

/-- The table is added before it is dispatched. -/
theorem run_queuesBacked_iff_added : ∃ x',
    run step idle [.extract [table], .pushObject, .add, .pushUserDataToWorkerQueue,
      .getQueuedPacket "1"] = .ok x' ∧
    (Meets step DispatchesListed idle [.extract [table], .pushObject, .add,
        .pushUserDataToWorkerQueue, .getQueuedPacket "1"] ↔
      ∀ es₁ y, es₁ <+: [.extract [table], .pushObject, .add, .pushUserDataToWorkerQueue,
        .getQueuedPacket "1"] → run step idle es₁ = .ok y → y.server.QueuesBacked) :=
  Outcome.exists_ok_and (by decide) fun _ h => run_queuesBacked_iff idle_queuesBacked h

/-- The table is dispatched between the push and the add: its packet has no entry, for good. -/
theorem run_not_queuesBacked : idle.server.QueuesBacked ∧ ∃ x',
    run step idle [.extract [table], .pushObject, .pushUserDataToWorkerQueue, .add] = .ok x' ∧
      ¬ x'.server.QueuesBacked := by
  refine ⟨idle_queuesBacked, ?_⟩
  obtain ⟨x', hrun, w, hw, o, ho, hmem, hdata⟩ : ∃ x',
      run step idle [.extract [table], .pushObject, .pushUserDataToWorkerQueue, .add] = .ok x' ∧
        ∃ w ∈ x'.server.getWorker 0, ∃ o ∈ x'.server.outPackets.get 0,
          0 ∈ w.senderQueue ∧ o.outData = none :=
    Outcome.exists_ok_of_eval (by decide)
  exact ⟨x', hrun, Server.not_queuesBacked hw hmem ho hdata⟩

end Extraction

end ServerUnit
