import ServerUnit.DataExtractor.Registration
import ServerUnit.PacketProcessor.RecordedStatus
import ServerUnit.Server.Calls

/-!
# The status of a table and its packet

The status of a table in the registry is meant to follow its packet: queued or ready until a
worker takes the packet, and sent at least once the worker has acknowledged it. No step sets
`DATA_SENT`: an acknowledgement leaves the registry alone, and a result is recorded for a table
whose packet no worker has taken yet.

The name of a table is what the database answers for its file name. No property of the answers is
used: the name can be any, and is the empty one where the query throws.
-/

namespace ServerUnit

open Lib

namespace OutgoingDataRegistry

variable {r r' r'' : OutgoingDataRegistry} {id : String} {status : UserTaskStatus}

/-! ### What the sender core does to a status -/

/-- A status from before the table is sent. -/
def Unsent (status : UserTaskStatus) : Prop := status = .dataQueued ∨ status = .dataReady

lemma unsent_iff : Unsent status ↔ ¬ .dataSent ≤ status := by
  cases status <;> simp [Unsent] <;> decide

lemma unsent_max : Unsent (max status .dataReady) ↔ Unsent status := by
  cases status <;> simp [Unsent] <;> decide

/-- A status stays, or is from before the table is sent, and was before if there was one. -/
def Quiet (r r' : OutgoingDataRegistry) : Prop :=
  ∀ id, r'.statusOf id = r.statusOf id ∨
    (∃ status, Unsent status ∧ r'.statusOf id = .ok (some status)) ∧
      (r.statusOf id = .ok none ∨ ∃ status, Unsent status ∧ r.statusOf id = .ok (some status))

namespace Quiet

lemma refl (r : OutgoingDataRegistry) : r.Quiet r := fun _ => .inl rfl

lemma trans (h : r.Quiet r') (h' : r'.Quiet r'') : r.Quiet r'' := by
  intro id
  rcases h' id with heq' | ⟨hafter', hbefore'⟩ <;> rcases h id with heq | ⟨hafter, hbefore⟩
  · exact .inl (heq'.trans heq)
  · exact .inr ⟨heq' ▸ hafter, hbefore⟩
  · exact .inr ⟨hafter', heq ▸ hbefore'⟩
  · exact .inr ⟨hafter', hbefore⟩

lemma add {resultStatus : Bool} {worker : Option WorkerRef}
    (h : r.add resultStatus id worker = .ok r') : r.Quiet r' := by
  intro id'
  rcases statusOf_add h with ⟨rfl, -⟩ | ⟨hnone, hstatus⟩
  · exact .inl rfl
  · rw [hstatus]
    split_ifs with hname
    · rw [hname]
      exact .inr ⟨⟨_, .inl rfl, rfl⟩, .inl hnone⟩
    · exact .inl rfl

/-- `DATA_READY` changes nothing for a table that has been sent. -/
lemma updateReady {db db' : Database} {b : Bool}
    (h : r.updateTaskStatus db id .dataReady = .ok (r', db', b)) : r.Quiet r' := by
  intro id'
  rw [statusOf_updateTaskStatus h]
  split_ifs with hname
  · subst hname
    cases hstatus : r.statusOf id' with
    | error e => exact .inl rfl
    | ok found =>
      cases found with
      | none => exact .inl rfl
      | some status =>
        by_cases hunsent : Unsent status
        · exact .inr ⟨⟨_, unsent_max.mpr hunsent, rfl⟩, .inr ⟨status, hunsent, rfl⟩⟩
        · have hsent : .dataSent ≤ status := not_not.mp (unsent_iff.not.mp hunsent)
          have hmax : max status .dataReady = status :=
            max_eq_left (le_trans (by decide) hsent)
          left
          rw [Except.map, Option.map_some, hmax]
  · exact .inl rfl

/-- A table that has been sent keeps its status. -/
lemma sent (h : r.Quiet r') (hstatus : r.statusOf id = .ok (some status))
    (hsent : .dataSent ≤ status) : r'.statusOf id = .ok (some status) := by
  rcases h id with heq | ⟨-, hnone | ⟨status', hunsent, hstatus'⟩⟩
  · exact heq.trans hstatus
  · cases hstatus.symm.trans hnone
  · cases hstatus.symm.trans hstatus'
    exact absurd hsent (unsent_iff.mp hunsent)

lemma listed (h : r.Quiet r') (hlisted : ∃ status, r.statusOf id = .ok (some status)) :
    ∃ status, r'.statusOf id = .ok (some status) := by
  rcases h id with heq | ⟨⟨status, -, hstatus⟩, -⟩
  · rwa [heq]
  · exact ⟨status, hstatus⟩

/-- One that has not been sent goes on so. -/
lemma unsent (h : r.Quiet r') (hstatus : ∃ status, Unsent status ∧ r.statusOf id = .ok (some status)) :
    ∃ status, Unsent status ∧ r'.statusOf id = .ok (some status) := by
  rcases h id with heq | ⟨hafter, -⟩
  · rwa [heq]
  · exact hafter

end Quiet

end OutgoingDataRegistry

namespace Server

variable {s s' : Server} {id : String} {p : ProcessStatusPacket}

/-- The status of a table in the server's registry. -/
abbrev statusOf (s : Server) (id : String) : Outcome (Option UserTaskStatus) :=
  s.outgoingDataRegistry.statusOf id

/-- No step of the sender core says that a table has been sent. -/
lemma senderCore_quiet : SenderCoreRule fun s s' : Server =>
    s.outgoingDataRegistry.Quiet s'.outgoingDataRegistry where
  refl _ := .refl _
  trans h h' := h.trans h'
  registryAdd h := by
    obtain ⟨r, hadd, rfl⟩ := registryAdd_eq_ok.mp h
    exact .add hadd
  queuePacket _ _ h := by
    obtain ⟨_, -, ⟨-, -, rfl⟩ | ⟨-, -, -, rfl⟩⟩ := queuePacket_cases h
    · exact .refl _
    · exact .refl _
  assignWorker h := by
    obtain ⟨r, b, hassign, rfl⟩ := assignWorker_eq_ok.mp h
    exact fun id => .inl (OutgoingDataRegistry.statusOf_assignWorker hassign)
  updateTaskStatus h := by
    obtain ⟨r, db, b, hupdate, rfl⟩ := updateTaskStatus_eq_ok.mp h
    exact .updateReady hupdate
  trackWorker h := by
    obtain ⟨_, _, -, rfl⟩ := trackWorker_eq_ok.mp h
    exact .refl _
  senderSink _ _ := .refl _
  newWorkerList _ _ := .refl _
  resetFlag _ := .refl _
  requeue _ _ := .refl _
  pendingPacketsList _ _ := .refl _

/-! ### What a status packet does to a status -/

/-- The packet is an acknowledgement of a known worker, and a pending packet of the worker matches
it. -/
def acknowledges (s : Server) (p : ProcessStatusPacket) : Outcome Bool := do
  match ← s.workerRegistry.getWorkerFromUid p.workerUid with
  | none => return false
  | some worker =>
    if maskQuickSend p.statusCode = P_DATA_ACK then do
      let (_, found) ← s.matchAckablePacket worker p.tableId
      return found
    else
      return false

instance (s : Server) (workerUid : String) : Decidable (s.knowsWorker workerUid) :=
  match h : s.workerRegistry.getWorkerFromUid workerUid with
  | .ok (some worker) => isTrue ⟨worker, h⟩
  | .ok none | .error _ => isFalse (by simp [knowsWorker, h])

/-- The status that a known worker reports of the table that the packet names. -/
def report (s : Server) (p : ProcessStatusPacket) : Option UserTaskStatus :=
  if s.knowsWorker p.workerUid then reportedStatus (maskQuickSend p.statusCode) p else none

lemma report_sent {status : UserTaskStatus} (h : s.report p = some status) :
    .dataSent ≤ status := by
  unfold report reportedStatus at h
  split_ifs at h <;> cases h <;> decide

/-- A status packet changes what the report says, and nothing without one. -/
lemma packetStatusParse_report (h : s.packetStatusParse p = .ok s') :
    Reported p.tableId s.outgoingDataRegistry s.database s'.outgoingDataRegistry s'.database
      (s.report p) := by
  rcases packetStatusParse_reported h with ⟨hknows, hreported⟩ | ⟨hunknown, rfl⟩
  · rwa [report, if_pos hknows]
  · rw [report, if_neg hunknown]
    exact ⟨rfl, rfl⟩

lemma statusOf_packetStatusParse_of_none (h : s.packetStatusParse p = .ok s')
    (hreport : s.report p = none) (id : String) : s'.statusOf id = s.statusOf id := by
  have hreported := packetStatusParse_report h
  rw [hreport] at hreported
  rw [statusOf, hreported.1]

/-- A report raises the status of the table that the packet names. -/
lemma statusOf_packetStatusParse_of_some {status : UserTaskStatus}
    (h : s.packetStatusParse p = .ok s') (hreport : s.report p = some status) (id : String) :
    s'.statusOf id =
      if id = p.tableId then (s.statusOf id).map (Option.map (max · status))
      else s.statusOf id := by
  have hreported := packetStatusParse_report h
  rw [hreport] at hreported
  obtain ⟨b, hupdate⟩ := hreported
  rw [statusOf, OutgoingDataRegistry.statusOf_updateTaskStatus hupdate]

/-- A table in the registry stays there, and one that has been sent stays so. -/
lemma statusOf_packetStatusParse_le {status : UserTaskStatus} (h : s.packetStatusParse p = .ok s')
    (hstatus : s.statusOf id = .ok (some status)) :
    ∃ status', s'.statusOf id = .ok (some status') ∧ status ≤ status' := by
  cases hreport : s.report p with
  | none => exact ⟨status, (statusOf_packetStatusParse_of_none h hreport id).trans hstatus, le_rfl⟩
  | some status' =>
    rw [statusOf_packetStatusParse_of_some h hreport, hstatus]
    split_ifs
    · exact ⟨max status status', rfl, le_max_left ..⟩
    · exact ⟨status, rfl, le_rfl⟩

/-! ### What the extractor does to a status -/

/-- The names of the tables that the extractor reads, as the database gives them. -/
def tableNames (sql : SqlAnswers FileLog.sqlTable) (t : FileLog) (userTableNameList : List String) :
    List String :=
  (userTableNameList.filter fun name => !name.isEmpty).map (recordName sql t)

/-- The table is not in the registry, or has not been sent. -/
def Startable (s : Server) (id : String) : Prop :=
  s.statusOf id = .ok none ∨
    ∃ status, OutgoingDataRegistry.Unsent status ∧ s.statusOf id = .ok (some status)

lemma Startable.quiet (h : s.Startable id)
    (hq : s.outgoingDataRegistry.Quiet s'.outgoingDataRegistry) : s'.Startable id := by
  rcases hq id with heq | ⟨hafter, -⟩
  · rwa [Startable, statusOf, heq]
  · exact .inr hafter

/-- One table is pushed, with the local flag of `add` clear. -/
lemma pushUserTable_status {userDataTable : UserDataTable} (hflag : s.addFlag 0 = false)
    (hstart : s.Startable userDataTable.userTable) (h : s.pushUserTable userDataTable = .ok s') :
    s.outgoingDataRegistry.Quiet s'.outgoingDataRegistry ∧
      (∃ status, OutgoingDataRegistry.Unsent status ∧
        s'.statusOf userDataTable.userTable = .ok (some status)) ∧
      ∀ n, s'.addFlag n = s.addFlag (n + 1) := by
  simp only [pushUserTable, Outcome.bind_eq_ok, registryAdd_eq_ok] at h
  obtain ⟨⟨sink, rc⟩, -, r, hadd, rfl⟩ := h
  refine ⟨.add hadd, ?_, fun _ => rfl⟩
  rcases OutgoingDataRegistry.statusOf_add hadd with ⟨rfl, hset | hlisted⟩ | ⟨-, hstatus⟩
  · cases hflag.symm.trans hset
  · exact hstart.resolve_left hlisted
  · exact ⟨.dataQueued, .inl rfl, (hstatus _).trans (if_pos rfl)⟩

/-- The tables read are in the registry, and none has been sent. -/
lemma executeUserTableExtractor_status {sql : SqlAnswers FileLog.sqlTable} {t : FileLog}
    {files : String → Option String} {userTableNameList : List String}
    (hflag : ∀ n < (tableNames sql t userTableNameList).length, s.addFlag n = false)
    (hstart : ∀ id ∈ tableNames sql t userTableNameList, s.Startable id)
    (h : s.executeUserTableExtractor sql t files userTableNameList = .ok s') :
    s.outgoingDataRegistry.Quiet s'.outgoingDataRegistry ∧
      ∀ id ∈ tableNames sql t userTableNameList, ∃ status, OutgoingDataRegistry.Unsent status ∧
        s'.statusOf id = .ok (some status) := by
  induction userTableNameList generalizing s with
  | nil =>
    cases h
    exact ⟨.refl _, nofun⟩
  | cons name names ih =>
    rw [executeUserTableExtractor] at h
    split_ifs at h with hempty
    · have hnames : tableNames sql t (name :: names) = tableNames sql t names := by
        simp [tableNames, hempty]
      rw [hnames] at hflag hstart ⊢
      exact ih hflag hstart h
    · have hnames : tableNames sql t (name :: names) =
          recordName sql t name :: tableNames sql t names := by
        simp [tableNames, hempty]
      rw [hnames] at hflag hstart ⊢
      simp only [Outcome.bind_eq_ok, queryUserTable, Outcome.pure_eq_ok] at h
      obtain ⟨_, ⟨priority, -, rfl⟩, u, hpush, h⟩ := h
      obtain ⟨hquiet, hnew, hshift⟩ :=
        pushUserTable_status (hflag 0 (Nat.succ_pos _)) (hstart _ List.mem_cons_self) hpush
      obtain ⟨hrest, hothers⟩ := ih
        (fun n hn => (hshift n).trans (hflag (n + 1) (Nat.succ_lt_succ hn)))
        (fun id hid => (hstart id (List.mem_cons_of_mem _ hid)).quiet hquiet) h
      refine ⟨hquiet.trans hrest, fun id hid => ?_⟩
      rcases List.mem_cons.mp hid with rfl | hid
      · exact hrest.unsent hnew
      · exact hothers id hid

end Server

/-! ### Tables on their way -/

/-- The server, with the tables that were extracted, those named in the body of a packet that
`getQueuedPacket` returned, those that a known worker reported a result or an error of, and those
whose packet was acknowledged. -/
structure Tracking where
  server : Server
  tables : List String
  returned : List String
  reported : List String
  acked : List String

inductive TrackingEvent where
  | registerWorker (draws : List ℕ)
  | updateTemplates (templateStruct : List UserDataTemplateStruct)
  /-- The extractor reads tables with fresh names. -/
  | executeUserTableExtractor (sql : SqlAnswers FileLog.sqlTable) (t : FileLog)
      (files : String → Option String) (userTableNameList : List String)
  | startSenderCore
  | getQueuedPacket (workerUid : String)
  | packetStatusParse (p : ProcessStatusPacket)

namespace Tracking

/-- Before the first table is extracted. -/
def init (s : Server) : Tracking := ⟨s, [], [], [], []⟩

def step (x : Tracking) : TrackingEvent → Outcome Tracking
  | .registerWorker draws => do
    let server ← x.server.registerWorker draws
    return { x with server }
  | .updateTemplates templateStruct => do
    let server ← x.server.updateTemplates templateStruct
    return { x with server }
  | .executeUserTableExtractor sql t files userTableNameList =>
    Outcome.guard (∀ id ∈ Server.tableNames sql t userTableNameList, x.server.statusOf id = .ok none) do
      let server ← x.server.executeUserTableExtractor sql t files userTableNameList
      return { x with server, tables := x.tables ++ Server.tableNames sql t userTableNameList }
  | .startSenderCore => do
    let (server, _) ← x.server.startSenderCore
    return { x with server }
  | .getQueuedPacket workerUid => do
    let (server, packet) ← x.server.getQueuedPacket workerUid
    return { x with
      server
      returned := x.returned ++ (packet.bind fun p => p.body.tableId).toList }
  | .packetStatusParse p => do
    let found ← x.server.acknowledges p
    let server ← x.server.packetStatusParse p
    return { x with
      server
      reported :=
        if (x.server.report p).isSome ∧ p.tableId ∈ x.tables then x.reported ++ [p.tableId]
        else x.reported
      acked := if found = true ∧ p.tableId ∈ x.tables then x.acked ++ [p.tableId] else x.acked }

/-- The status of each table agrees with where its packet is. -/
structure FollowsData (x : Tracking) : Prop where
  acked : ∀ id ∈ x.acked, ∃ status, x.server.statusOf id = .ok (some status) ∧ .dataSent ≤ status
  unsent : ∀ id ∈ x.tables, id ∉ x.returned →
    ∃ status, (status = .dataQueued ∨ status = .dataReady) ∧
      x.server.statusOf id = .ok (some status)

/-- The extractor finds the local flag of `add` clear; the acknowledgement of a table comes after
a report about it, and this after its packet was returned. -/
def InOrder (x : Tracking) : TrackingEvent → Prop
  | .executeUserTableExtractor sql t _ userTableNameList =>
    ∀ n < (Server.tableNames sql t userTableNameList).length, x.server.addFlag n = false
  | .packetStatusParse p => p.tableId ∈ x.tables →
    (x.server.acknowledges p = .ok true → p.tableId ∈ x.reported) ∧
    (p.tableId ∉ x.returned → x.server.report p = none)
  | _ => True

/-! ### The invariant -/

/-- Tables are in the registry, reports have been recorded, and all acknowledged tables were
reported about. -/
structure Inv (x : Tracking) : Prop where
  listed : ∀ id ∈ x.tables, ∃ status, x.server.statusOf id = .ok (some status)
  unsent : ∀ id ∈ x.tables, id ∉ x.returned →
    ∃ status, OutgoingDataRegistry.Unsent status ∧ x.server.statusOf id = .ok (some status)
  sent : ∀ id ∈ x.reported,
    ∃ status, x.server.statusOf id = .ok (some status) ∧ .dataSent ≤ status
  acked : ∀ id ∈ x.acked, id ∈ x.reported

variable {x x' : Tracking}

namespace Inv

lemma init (s : Server) : (init s).Inv := ⟨nofun, nofun, nofun, nofun⟩

lemma followsData (h : x.Inv) : x.FollowsData := ⟨fun id hid => h.sent id (h.acked id hid), h.unsent⟩

/-- A step that says of no table that it has been sent. -/
lemma quiet (h : x.Inv) {server : Server} {returned : List String}
    (hq : x.server.outgoingDataRegistry.Quiet server.outgoingDataRegistry)
    (hreturned : ∀ id ∈ x.returned, id ∈ returned) : Inv { x with server, returned } where
  listed id hid := hq.listed (h.listed id hid)
  unsent id hid hnot := hq.unsent (h.unsent id hid fun hmem => hnot (hreturned id hmem))
  sent id hid := by
    obtain ⟨status, hstatus, hsent⟩ := h.sent id hid
    exact ⟨status, hq.sent hstatus hsent, hsent⟩
  acked := h.acked

lemma executeUserTableExtractor (h : x.Inv) {sql : SqlAnswers FileLog.sqlTable} {t : FileLog}
    {files : String → Option String} {userTableNameList : List String}
    (hfresh : ∀ id ∈ Server.tableNames sql t userTableNameList, x.server.statusOf id = .ok none)
    (hflag : ∀ n < (Server.tableNames sql t userTableNameList).length, x.server.addFlag n = false)
    {server : Server}
    (hs : x.server.executeUserTableExtractor sql t files userTableNameList = .ok server) :
    Inv { x with server, tables := x.tables ++ Server.tableNames sql t userTableNameList } := by
  obtain ⟨hquiet, hnew⟩ :=
    Server.executeUserTableExtractor_status hflag (fun id hid => .inl (hfresh id hid)) hs
  have hold := h.quiet hquiet fun _ hid => hid
  refine ⟨fun id hid => ?_, fun id hid hnot => ?_, hold.sent, hold.acked⟩
  · rcases List.mem_append.mp hid with hid | hid
    · exact hold.listed id hid
    · obtain ⟨status, -, hstatus⟩ := hnew id hid
      exact ⟨status, hstatus⟩
  · rcases List.mem_append.mp hid with hid | hid
    · exact hold.unsent id hid hnot
    · exact hnew id hid

/-- A report about a table in the registry is recorded. -/
lemma sent_of_report (h : x.Inv) {p : ProcessStatusPacket} {server : Server}
    (hs : x.server.packetStatusParse p = .ok server) (hreport : (x.server.report p).isSome)
    (htable : p.tableId ∈ x.tables) :
    ∃ status, server.statusOf p.tableId = .ok (some status) ∧ .dataSent ≤ status := by
  obtain ⟨reported, hreport⟩ := Option.isSome_iff_exists.mp hreport
  obtain ⟨status, hstatus⟩ := h.listed _ htable
  refine ⟨max status reported, ?_, (Server.report_sent hreport).trans (le_max_right ..)⟩
  rw [Server.statusOf_packetStatusParse_of_some hs hreport, if_pos rfl, hstatus]
  rfl

/-- What a history holds after a packet. -/
lemma mem_note {c : Prop} [Decidable c] {ids : List String} {id tableId : String} :
    id ∈ (if c then ids ++ [tableId] else ids) ↔ id ∈ ids ∨ c ∧ id = tableId := by
  split_ifs with hc <;> simp [hc]

lemma packetStatusParse (h : x.Inv) {p : ProcessStatusPacket} {found : Bool}
    (hC : x.InOrder (.packetStatusParse p)) (hfound : x.server.acknowledges p = .ok found)
    {server : Server} (hs : x.server.packetStatusParse p = .ok server) :
    Inv { x with
      server
      reported :=
        if (x.server.report p).isSome ∧ p.tableId ∈ x.tables then x.reported ++ [p.tableId]
        else x.reported
      acked := if found = true ∧ p.tableId ∈ x.tables then x.acked ++ [p.tableId]
        else x.acked } := by
  refine ⟨fun id hid => ?_, fun id hid hnot => ?_, fun id hid => ?_, fun id hid => ?_⟩
  · obtain ⟨status, hstatus⟩ := h.listed id hid
    obtain ⟨status', hafter, -⟩ := Server.statusOf_packetStatusParse_le hs hstatus
    exact ⟨status', hafter⟩
  · have hsame : server.statusOf id = x.server.statusOf id := by
      cases hreport : x.server.report p with
      | none => exact Server.statusOf_packetStatusParse_of_none hs hreport id
      | some reported =>
        rw [Server.statusOf_packetStatusParse_of_some hs hreport, if_neg]
        rintro rfl
        rw [(hC hid).2 hnot] at hreport
        cases hreport
    simp only [hsame]
    exact h.unsent id hid hnot
  · rcases mem_note.mp hid with hid | ⟨⟨hreport, htable⟩, rfl⟩
    · obtain ⟨status, hstatus, hsent⟩ := h.sent id hid
      obtain ⟨status', hafter, hle⟩ := Server.statusOf_packetStatusParse_le hs hstatus
      exact ⟨status', hafter, hsent.trans hle⟩
    · exact h.sent_of_report hs hreport htable
  · apply mem_note.mpr
    left
    rcases mem_note.mp hid with hid | ⟨⟨rfl, htable⟩, rfl⟩
    · exact h.acked id hid
    · exact (hC htable).1 hfound

lemma step {e : TrackingEvent} (h : x.Inv) (hC : x.InOrder e) (hs : x.step e = .ok x') :
    x'.Inv := by
  cases e with
  | registerWorker draws =>
    simp only [Tracking.step, Outcome.bind_eq_ok, Outcome.pure_eq_ok] at hs
    obtain ⟨server, hs, rfl⟩ := hs
    obtain ⟨_, _, -, rfl⟩ := Server.registerWorker_eq_ok.mp hs
    refine h.quiet ?_ fun _ hid => hid
    exact .refl _
  | updateTemplates templateStruct =>
    simp only [Tracking.step, Outcome.bind_eq_ok, Outcome.pure_eq_ok] at hs
    obtain ⟨server, hs, rfl⟩ := hs
    obtain ⟨_, _, _, -, rfl⟩ := Server.updateTemplates_eq_ok.mp hs
    refine h.quiet ?_ fun _ hid => hid
    exact .refl _
  | executeUserTableExtractor sql t files userTableNameList =>
    simp only [Tracking.step, Outcome.guard_eq_ok, Outcome.bind_eq_ok, Outcome.pure_eq_ok] at hs
    obtain ⟨hfresh, server, hs, rfl⟩ := hs
    exact h.executeUserTableExtractor hfresh hC hs
  | startSenderCore =>
    simp only [Tracking.step, Outcome.bind_eq_ok, Outcome.pure_eq_ok, Prod.exists] at hs
    obtain ⟨server, status, hs, rfl⟩ := hs
    exact h.quiet (Server.senderCore_quiet.startSenderCore hs) fun _ hid => hid
  | getQueuedPacket workerUid =>
    simp only [Tracking.step, Outcome.bind_eq_ok, Outcome.pure_eq_ok, Prod.exists] at hs
    obtain ⟨server, packet, hs, rfl⟩ := hs
    obtain ⟨_, _, _, _, -, -, -, rfl⟩ := Server.getQueuedPacket_eq_ok.mp hs
    refine h.quiet ?_ fun _ hid => List.mem_append_left _ hid
    exact .refl _
  | packetStatusParse p =>
    simp only [Tracking.step, Outcome.bind_eq_ok, Outcome.pure_eq_ok] at hs
    obtain ⟨found, hfound, server, hs, rfl⟩ := hs
    exact h.packetStatusParse hC hfound hs

end Inv

/-- In every run that is in order the status of a table follows its packet. -/
theorem run_followsData {s : Server} {es : List TrackingEvent} (hC : Meets step InOrder (init s) es)
    (h : run step (init s) es = .ok x) : x.FollowsData := by
  have hI : x.Inv := run_induct (fun _ _ _ hI hC hs => hI.step hC hs) (.init s) hC h
  exact hI.followsData

/-! ### One table -/

instance (o : Outcome (Option UserTaskStatus)) :
    Decidable (∃ status, o = .ok (some status) ∧ .dataSent ≤ status) :=
  match o with
  | .ok (some status) => decidable_of_iff (.dataSent ≤ status) (by simp)
  | .ok none | .error _ => isFalse (by simp)

instance (x : Tracking) (e : TrackingEvent) : Decidable (x.InOrder e) :=
  match e with
  | .executeUserTableExtractor .. => inferInstanceAs (Decidable (∀ n < _, _))
  | .packetStatusParse _          => inferInstanceAs (Decidable (_ → _ ∧ _))
  | .registerWorker _ | .updateTemplates _ | .startSenderCore | .getQueuedPacket _ => isTrue trivial

/-- A worker that is ready, and no table yet. -/
def ready : Tracking := init Extraction.idle.server

/-- A row for the table `A`. -/
def fileLog : FileLog := ⟨[⟨"file", "A", "T", 2, 0⟩], by decide⟩

/-- A packet of the worker about the table `A`. -/
def statusPacket (statusCode : BitVec 32) : ProcessStatusPacket where
  statusCode
  tableId := "A"
  errorString := ""
  workerUid := "1"
  statsPresent := false
  queueTime := 0
  vectorString := ""
  threadCount := 0

/-- An intermediate result comes before the acknowledgement. -/
theorem run_followsData_reported : ∃ x,
    run step ready [.executeUserTableExtractor (.exact FileLog.sqlTable) fileLog (fun _ => some "1,2") ["file"],
      .startSenderCore, .getQueuedPacket "1", .packetStatusParse (statusPacket P_INTR_RES),
      .packetStatusParse (statusPacket P_DATA_ACK)] = .ok x ∧ x.FollowsData :=
  Outcome.exists_ok_and (by decide) fun _ h => run_followsData (by decide) h

/-- The acknowledgement of a table leaves its status, and a result that comes before the table is
sent is recorded. -/
theorem run_not_followsData :
    (∃ x, run step ready [.executeUserTableExtractor (.exact FileLog.sqlTable) fileLog (fun _ => some "1,2") ["file"],
      .startSenderCore, .getQueuedPacket "1", .packetStatusParse (statusPacket P_DATA_ACK)] = .ok x ∧
        ¬ x.FollowsData) ∧
    ∃ x, run step ready [.executeUserTableExtractor (.exact FileLog.sqlTable) fileLog (fun _ => some "1,2") ["file"],
      .packetStatusParse (statusPacket P_FINAL_RES)] = .ok x ∧ ¬ x.FollowsData := by
  constructor
  · obtain ⟨x, hrun, hacked, hstatus⟩ : ∃ x, run step ready
        [.executeUserTableExtractor (.exact FileLog.sqlTable) fileLog (fun _ => some "1,2") ["file"], .startSenderCore,
          .getQueuedPacket "1", .packetStatusParse (statusPacket P_DATA_ACK)] = .ok x ∧
        "A" ∈ x.acked ∧ x.server.statusOf "A" = .ok (some .dataReady) :=
      Outcome.exists_ok_of_eval (by decide)
    refine ⟨x, hrun, fun hfollows => ?_⟩
    obtain ⟨status, hsent, hle⟩ := hfollows.acked "A" hacked
    cases hstatus.symm.trans hsent
    exact absurd hle (by decide)
  · obtain ⟨x, hrun, htable, hnot, hstatus⟩ : ∃ x, run step ready
        [.executeUserTableExtractor (.exact FileLog.sqlTable) fileLog (fun _ => some "1,2") ["file"],
          .packetStatusParse (statusPacket P_FINAL_RES)] = .ok x ∧
        "A" ∈ x.tables ∧ "A" ∉ x.returned ∧ x.server.statusOf "A" = .ok (some .dataFinal) :=
      Outcome.exists_ok_of_eval (by decide)
    refine ⟨x, hrun, fun hfollows => ?_⟩
    obtain ⟨status, hunsent, hsame⟩ := hfollows.unsent "A" htable hnot
    cases hstatus.symm.trans hsame
    exact absurd hunsent (by decide)

end Tracking

end ServerUnit
