import ServerUnit.PacketProcessor.Validator
import ServerUnit.Server.Rules
import ServerUnit.Services.SqlServer

/-!
# Stored results and recorded statuses

A received packet is read twice. `ProcessDataPacket` looks at single bits of the head and stores
the data of everything that is not an intermediate result as a final one. `ProcessStatusPacket`
masks the bit of quick send mode, compares the rest, and records a status only for a worker it
knows. This file has what each of them does to the registry and the database, and when
the two agree. The result is stored when the database does with the statement of the write what it
is meant for, as it does when the data and the table's name are verbatim.
-/

namespace ServerUnit

open Lib

/-! ### The data packet -/

namespace ProcessDataPacket

variable {p : ProcessDataPacket} {s s' : Server}

/-- The data is stored as a final result. -/
def storesFinal (p : ProcessDataPacket) : Bool :=
  !p.data.isEmpty && p.packetStausCode &&& P_INTR_RES == 0

lemma length_eq_zero_iff : p.data.length = 0 ↔ p.data.isEmpty = true := by
  rw [String.isEmpty_iff, String.length_eq_zero_iff]

lemma detectDataType_eq_intermediate :
    p.detectDataType = .intermediateResult ↔ p.packetStausCode &&& P_INTR_RES ≠ 0 := by
  unfold detectDataType
  split_ifs <;> simp_all

/-- Besides the files, only the database can change. -/
lemma execute_cases (h : p.execute s = .ok s') :
    ∃ csvFiles db, s' = { s with csvFiles := csvFiles, database := db } ∧
      (s.outgoingDataRegistry.findMatchInList p.tableId = .ok false ∧ db = s.database ∨
        s.outgoingDataRegistry.findMatchInList p.tableId = .ok true ∧
          db = if p.storesFinal then
              s.database.sqlWriteString p.data USERDAT_RES_COL_ID USERDAT_ALIASNAME_COL_ID p.tableId
            else s.database) := by
  simp only [execute, Outcome.bind_eq_ok] at h
  obtain ⟨found, hfound, h⟩ := h
  cases found with
  | false =>
    simp only [Bool.not_false, if_true, Outcome.pure_eq_ok] at h
    exact ⟨s.csvFiles, s.database, h.symm, .inl ⟨hfound, rfl⟩⟩
  | true =>
    simp only [Bool.not_true, Bool.false_eq_true, if_false, createCsvFromData] at h
    by_cases hempty : p.data.length = 0
    · have hdata : p.storesFinal = false := by
        simp [storesFinal, length_eq_zero_iff.mp hempty]
      simp only [if_pos hempty, ne_eq, Int.reduceNeg, neg_eq_zero, one_ne_zero, not_false_eq_true,
        if_true, Outcome.pure_eq_ok] at h
      exact ⟨s.csvFiles, s.database, h.symm, .inr ⟨hfound, by simp [hdata]⟩⟩
    · simp only [if_neg hempty, ne_eq, not_true_eq_false, if_false] at h
      have hdata : p.data.isEmpty = false := by
        rw [← Bool.not_eq_true, ← length_eq_zero_iff]
        exact hempty
      split_ifs at h with htype
      · have hbit : p.storesFinal = false := by
          have hbits := detectDataType_eq_intermediate.mp htype
          simp only [storesFinal, beq_eq_false_iff_ne.mpr hbits, Bool.and_false]
        simp only [Outcome.pure_eq_ok] at h
        exact ⟨_, s.database, h.symm, .inr ⟨hfound, by simp [hbit]⟩⟩
      · have hbit : p.storesFinal = true := by
          rw [detectDataType_eq_intermediate, ne_eq, not_not] at htype
          simp only [storesFinal, hdata, htype, beq_self_eq_true, Bool.not_false, Bool.and_self]
        simp only [Outcome.pure_eq_ok, pushDataToDb] at h
        exact ⟨_, _, h.symm, .inr ⟨hfound, by simp [hbit]⟩⟩

end ProcessDataPacket

/-- Every packet is parsed as a status packet, after at most a file and the database changed. -/
lemma Server.processPacket_parse {s s' : Server} {packet : Json}
    (h : s.processPacket packet = .ok s') :
    ∃ csvFiles database p, ProcessStatusPacket.ofJson packet = .ok p ∧
      { s with csvFiles, database }.packetStatusParse p = .ok s' := by
  simp only [processPacket, Outcome.bind_eq_ok] at h
  obtain ⟨body, -, h⟩ := h
  split_ifs at h
  · simp only [Outcome.bind_eq_ok] at h
    obtain ⟨d, -, t, ht, p, hp, h⟩ := h
    obtain ⟨csvFiles, database, rfl, -⟩ := ProcessDataPacket.execute_cases ht
    exact ⟨csvFiles, database, p, hp, h⟩
  · simp only [Outcome.bind_eq_ok, Outcome.pure_eq_ok] at h
    obtain ⟨t, rfl, p, hp, h⟩ := h
    exact ⟨s.csvFiles, s.database, p, hp, h⟩

/-! ### The status packet -/

/-- The status that the switch of `packetStatusParse` reports to the registry. -/
def reportedStatus (statusCode : BitVec 32) (p : ProcessStatusPacket) : Option UserTaskStatus :=
  if statusCode = P_INTR_RES then some .dataInter
  else if statusCode = P_FINAL_RES then some .dataFinal
  else if statusCode = P_ERR ∧ !p.errorString.isEmpty then some .dataError
  else none

/-- The change of the registry and the database when a status is reported for a table. -/
def Reported (tableId : String) (r : OutgoingDataRegistry) (db : Database)
    (r' : OutgoingDataRegistry) (db' : Database) : Option UserTaskStatus → Prop
  | none        => r' = r ∧ db' = db
  | some status => ∃ b, r.updateTaskStatus db tableId status = .ok (r', db', b)

namespace Server

variable {s s' : Server} {worker : WorkerRef} {w : Worker} {p : ProcessStatusPacket}

lemma noteTemplate_frame {tableId : String} (h : s.noteTemplate w tableId = .ok s') :
    s'.outgoingDataRegistry = s.outgoingDataRegistry ∧ s'.database = s.database := by
  simp only [noteTemplate, Outcome.bind_eq_ok] at h
  obtain ⟨found, -, h⟩ := h
  cases found with
  | true =>
    obtain ⟨_, _, -, rfl⟩ := updateTracking_eq_ok.mp h
    exact ⟨rfl, rfl⟩
  | false =>
    cases h
    exact ⟨rfl, rfl⟩

lemma matchAckablePacket_frame {id : String} {found : Bool}
    (h : s.matchAckablePacket worker id = .ok (s', found)) :
    s'.outgoingDataRegistry = s.outgoingDataRegistry ∧ s'.database = s.database ∧
      s'.templateRegistry = s.templateRegistry ∧
      s'.workerRegistry.currentWorkerList = s.workerRegistry.currentWorkerList := by
  obtain ⟨w, -, ⟨-, _, _, _, -, -, rfl⟩ | ⟨-, rfl⟩⟩ := matchAckablePacket_cases h <;>
    exact ⟨rfl, rfl, rfl, rfl⟩

lemma noteResult_reported {status : UserTaskStatus} {code : ServerPacketCodes}
    (h : s.noteResult worker p status code = .ok s') :
    Reported p.tableId s.outgoingDataRegistry s.database s'.outgoingDataRegistry s'.database
      (some status) := by
  simp only [noteResult, Outcome.bind_eq_ok, updateTaskStatus_eq_ok] at h
  obtain ⟨t, ⟨r, database, b, hr, rfl⟩, found, -, h⟩ := h
  refine ⟨b, ?_⟩
  cases found with
  | none =>
    cases h
    exact hr
  | some i =>
    simp only [Outcome.bind_eq_ok, Outcome.pure_eq_ok] at h
    obtain ⟨⟨s'', rc⟩, hq, rfl⟩ := h
    obtain ⟨w, -, ⟨-, -, rfl⟩ | ⟨-, -, -, rfl⟩⟩ := queuePacket_cases hq <;> exact hr

lemma switchStatus_reported {statusCode : BitVec 32}
    (h : s.switchStatus worker statusCode p = .ok s') :
    Reported p.tableId s.outgoingDataRegistry s.database s'.outgoingDataRegistry s'.database
      (reportedStatus statusCode p) := by
  simp only [switchStatus, Outcome.bind_eq_ok] at h
  obtain ⟨w, -, h⟩ := h
  split_ifs at h with hreset hack hintr hfinal herr herror
  · rw [hreset]
    exact noteTemplate_frame h
  · rw [hack]
    simp only [Outcome.bind_eq_ok] at h
    obtain ⟨⟨t, found⟩, hm, h⟩ := h
    obtain ⟨hr, hdb, -, -⟩ := matchAckablePacket_frame hm
    cases found with
    | true =>
      obtain ⟨hr', hdb'⟩ := noteTemplate_frame h
      exact ⟨hr'.trans hr, hdb'.trans hdb⟩
    | false =>
      cases h
      exact ⟨hr, hdb⟩
  · simpa [reportedStatus, hintr] using noteResult_reported h
  · rw [reportedStatus, if_neg hintr, if_pos hfinal]
    exact noteResult_reported h
  · rw [reportedStatus, if_neg hintr, if_neg hfinal, if_pos ⟨herr, herror⟩]
    obtain ⟨r, database, b, hr, rfl⟩ := updateTaskStatus_eq_ok.mp h
    exact ⟨b, hr⟩
  · rw [reportedStatus, if_neg hintr, if_neg hfinal, if_neg fun hboth => herror hboth.2]
    cases h
    exact ⟨rfl, rfl⟩
  · rw [reportedStatus, if_neg hintr, if_neg hfinal, if_neg fun hboth => herr hboth.1]
    cases h
    exact ⟨rfl, rfl⟩

lemma storeStats_frame (h : s.storeStats worker p = .ok s') :
    s'.outgoingDataRegistry = s.outgoingDataRegistry ∧ s'.database = s.database := by
  rcases storeStats_cases h with rfl | ⟨_, _, -, rfl⟩
  · exact ⟨rfl, rfl⟩
  · exact ⟨rfl, rfl⟩

/-- The worker that sent the packet is registered. -/
def knowsWorker (s : Server) (workerUid : String) : Prop :=
  ∃ worker, s.workerRegistry.getWorkerFromUid workerUid = .ok (some worker)

/-- A status is reported exactly for the workers that are known. -/
lemma packetStatusParse_reported (h : s.packetStatusParse p = .ok s') :
    (s.knowsWorker p.workerUid ∧
      Reported p.tableId s.outgoingDataRegistry s.database s'.outgoingDataRegistry s'.database
        (reportedStatus (maskQuickSend p.statusCode) p)) ∨
    (¬ s.knowsWorker p.workerUid ∧ s' = s) := by
  rcases packetStatusParse_cases h with ⟨hnone, rfl⟩ | ⟨worker, t, hfound, ht, hstore⟩
  · right
    refine ⟨?_, rfl⟩
    rintro ⟨worker, hworker⟩
    cases hnone.symm.trans hworker
  · left
    obtain ⟨hr, hdb⟩ := storeStats_frame hstore
    refine ⟨⟨worker, hfound⟩, ?_⟩
    rw [hr, hdb]
    exact switchStatus_reported ht

end Server

/-! ### One packet, read twice -/

/-- The table a packet names: the id in its body. -/
def packetTable (packet : Json) : String := (readBody packet).1

/-- The data in a packet's body. -/
def packetData (packet : Json) : String := (readBody packet).2

section Packet

variable {fields : List (String × Json)} {n : ℤ} {uid : String}
  (hhead : Json.member fields "head" = .int n) (hid : Json.member fields "id" = .str uid)

include hhead hid

/-- Both readings of a full data packet name the same table. -/
lemma ofJson_data (hbody : isDataPacket (Json.member fields "body") = true) :
    ProcessDataPacket.ofJson (.obj fields) =
      .ok ⟨packetTable (.obj fields), packetData (.obj fields), uid, BitVec.ofInt 32 n⟩ := by
  unfold isDataPacket at hbody
  split at hbody
  next bodyFields hb =>
    simp only [Bool.and_eq_true, and_assoc] at hbody
    obtain ⟨htable, hdata, -⟩ := hbody
    cases ht : Json.member bodyFields "id" <;> simp [Json.string?, ht] at htable
    cases hd : Json.member bodyFields "data" <;> simp [Json.string?, hd] at hdata
    simp [ProcessDataPacket.ofJson, packetTable, packetData, readBody, Json.index, hb, ht, hd,
      hhead, hid, Json.toStr, Json.toInt, pure, Except.pure]
  next => simp at hbody

lemma ofJson_status {p : ProcessStatusPacket}
    (h : ProcessStatusPacket.ofJson (.obj fields) = .ok p) :
    p.tableId = packetTable (.obj fields) ∧ p.workerUid = uid ∧
      p.statusCode = BitVec.ofInt 32 n := by
  simp only [ProcessStatusPacket.ofJson, Json.index, hhead, hid, Json.string?, Option.isSome_some,
    if_true, Json.toStr, Json.toInt, Outcome.ok_bind] at h
  split_ifs at h
  · simp only [Outcome.bind_eq_ok, Outcome.pure_eq_ok] at h
    obtain ⟨_, -, _, -, _, -, _, -, _, -, _, -, rfl⟩ := h
    exact ⟨rfl, rfl, rfl⟩
  · simp only [Outcome.pure_eq_ok] at h
    rw [← h]
    exact ⟨rfl, rfl, rfl⟩

end Packet

/-! ### Agreement -/

lemma reportedStatus_eq_final {statusCode : BitVec 32} {p : ProcessStatusPacket} :
    reportedStatus statusCode p = some .dataFinal ↔ statusCode = P_FINAL_RES := by
  unfold reportedStatus
  split_ifs with hintr hfinal
  · simp only [Option.some.injEq, reduceCtorEq, false_iff]
    rw [hintr]
    decide
  · simp [hfinal]
  · simpa using hfinal
  · simpa using hfinal

/-- The write of a table's status. -/
def statusWrite (status : UserTaskStatus) (tableId : String) : SqlWrite :=
  ⟨userStatusEnumToString status, USERDAT_STATUS_COL_ID, USERDAT_ALIASNAME_COL_ID, tableId⟩

lemma verbatim_userStatusEnumToString (status : UserTaskStatus) :
    SqlText.verbatim SqlText.mysql (userStatusEnumToString status).toList = true := by
  cases status <;> decide

/-- However the table is called, it sets statuses only. -/
lemma columnName_of_mem_statusWrite {sql : SqlServer} {db : Database} {status : UserTaskStatus}
    {tableId : String} {cell : SqlCell}
    (h : cell ∈ (sql.sqlWriteString db (statusWrite status tableId)).1) :
    cell.columnName = USERDAT_STATUS_COL_ID := by
  have htext : (statusWrite status tableId).VerbatimText := verbatim_userStatusEnumToString status
  exact SqlServer.columnName_of_mem_sqlWriteString ⟨.tail _ (.head _), rfl⟩ htext h

/-- A report on a table that is not final yet: the table is final afterwards exactly when that was
reported, and what is written is its status at most. -/
lemma Reported.final_iff {tableId : String} {r r' : OutgoingDataRegistry} {db db' : Database}
    {reported : Option UserTaskStatus} {before after : List OutDataRef} {i : OutDataRef}
    {st : OutgoingDataState} (h : Reported tableId r db r' db' reported)
    (hfind : r.find tableId = .ok (some (before, i, after))) (hst : r.states.get i = some st)
    (hlow : st.taskStatus < .dataFinal) :
    ((∃ st', r'.states.get i = some st' ∧ st'.taskStatus = .dataFinal) ↔
      reported = some .dataFinal) ∧
    ∃ l, db' = db ++ l ∧ ∀ write ∈ l, ∃ status, write = statusWrite status tableId := by
  have hnot : st.taskStatus ≠ .dataFinal := by
    intro heq
    rw [heq] at hlow
    exact absurd hlow (by decide)
  cases reported with
  | none =>
    obtain ⟨rfl, rfl⟩ := h
    exact ⟨by simp [hst, hnot], [], by simp⟩
  | some status =>
    obtain ⟨b, h⟩ := h
    rcases OutgoingDataRegistry.updateTaskStatus_cases h with ⟨hnone, -⟩ |
      ⟨_, _, _, st', hfind', hst', h⟩
    · rw [hfind] at hnone
      cases hnone
    · rw [hfind] at hfind'
      cases hfind'
      rw [hst] at hst'
      cases hst'
      rcases h with ⟨hlt, rfl, rfl⟩ | ⟨-, rfl, rfl⟩
      · refine ⟨?_, [], by simp⟩
        simp only [hst, Option.some.injEq, exists_eq_left', hnot, false_iff]
        rintro rfl
        exact absurd (lt_trans (UserTaskStatus.lt_iff.mp hlt) hlow) (lt_irrefl _)
      · refine ⟨?_, _, rfl, fun write hwrite => ⟨status, List.mem_singleton.mp hwrite⟩⟩
        simp [Heap.get_put_self hst]

namespace Server

/-- Since `s`, the final result of the table was written to the database. -/
def StoredFinal (sql : SqlServer) (s s' : Server) (tableId : String) : Prop :=
  ∃ cell ∈ sql.cellsFrom s.database (s'.database.drop s.database.length),
    cell.columnName = USERDAT_RES_COL_ID ∧ cell.rowIdentifierValue = tableId

/-- The table's registry entry records it as final. -/
def RecordsFinal (s : Server) (i : OutDataRef) : Prop :=
  ∃ st, s.outgoingDataRegistry.states.get i = some st ∧ st.taskStatus = .dataFinal

/-- The packet reports a final result, in quick send mode or not, for a worker that is known. -/
def FinalReport (s : Server) (head : BitVec 32) (workerUid : String) : Prop :=
  s.knowsWorker workerUid ∧ maskQuickSend head = P_FINAL_RES

/-- The packet has the body of a data packet, with data in it. -/
def CarriesData (fields : List (String × Json)) : Prop :=
  isDataPacket (Json.member fields "body") = true ∧ packetData (.obj fields) ≠ ""

/-- The write of the data in a packet as the final result of the table that it names. -/
def resultWrite (fields : List (String × Json)) : SqlWrite :=
  ⟨packetData (.obj fields), USERDAT_RES_COL_ID, USERDAT_ALIASNAME_COL_ID,
    packetTable (.obj fields)⟩

/-- The database sets the table's final result when it is given the statement of that write. -/
def Stores (sql : SqlServer) (s : Server) (fields : List (String × Json)) : Prop :=
  ∃ cell ∈ (sql.sqlWriteString s.database (resultWrite fields)).1,
    cell.columnName = USERDAT_RES_COL_ID ∧ cell.rowIdentifierValue = packetTable (.obj fields)

variable {sql : SqlServer} {s s' : Server}

/-- It does for verbatim data and a verbatim name, if the table has a row that can hold the data. -/
lemma stores_of_verbatim {fields : List (String × Json)} (h : (resultWrite fields).Verbatim)
    (hholds : sql.holds s.database (resultWrite fields).cell = true) : Stores sql s fields :=
  ⟨_, SqlServer.cell_mem_sqlWriteString ⟨.head _, rfl⟩ h hholds, rfl, rfl⟩

/-- A final report does not have the bit of an intermediate result. -/
lemma intr_bit_of_maskQuickSend {head : BitVec 32} (h : maskQuickSend head = P_FINAL_RES) :
    head &&& P_INTR_RES = 0 := by
  unfold maskQuickSend at h
  split_ifs at h
  · have hmask : (~~~P_QSEND &&& P_INTR_RES : BitVec 32) = P_INTR_RES := by decide
    rw [← hmask, ← BitVec.and_assoc, h]
    decide
  · rw [h]
    decide

/-- Writes of statuses store no result. -/
lemma storedFinal_append {tableId tableId' : String} {l l' : Database}
    (h : s'.database = s.database ++ (l ++ l'))
    (hstatus : ∀ write ∈ l', ∃ status, write = statusWrite status tableId') :
    StoredFinal sql s s' tableId ↔ ∃ cell ∈ sql.cellsFrom s.database l,
      cell.columnName = USERDAT_RES_COL_ID ∧ cell.rowIdentifierValue = tableId := by
  rw [StoredFinal, h, List.drop_left, SqlServer.cellsFrom_append]
  constructor
  · rintro ⟨cell, hmem, hcolumn, hrow⟩
    rcases List.mem_append.mp hmem with hmem | hmem
    · exact ⟨cell, hmem, hcolumn, hrow⟩
    · obtain ⟨db, w, hw, hmem⟩ := SqlServer.exists_of_mem_cellsFrom hmem
      obtain ⟨status, rfl⟩ := hstatus w hw
      rw [columnName_of_mem_statusWrite hmem] at hcolumn
      exact absurd hcolumn (by decide)
  · rintro ⟨cell, hmem, hcell⟩
    exact ⟨cell, List.mem_append_left _ hmem, hcell⟩

/-- The first reading of a packet: at most a final result is written, and the status packet that
the second reading starts from is the packet's own. -/
lemma processPacket_stages {fields : List (String × Json)} {n : ℤ} {uid : String}
    {before after : List OutDataRef} {i : OutDataRef}
    (hhead : Json.member fields "head" = .int n) (hid : Json.member fields "id" = .str uid)
    (hfind : s.outgoingDataRegistry.find (packetTable (.obj fields))
      = .ok (some (before, i, after)))
    (h : s.processPacket (.obj fields) = .ok s') :
    ∃ csvFiles l p, ProcessStatusPacket.ofJson (.obj fields) = .ok p ∧
      { s with csvFiles := csvFiles, database := s.database ++ l }.packetStatusParse p = .ok s' ∧
      (CarriesData fields ∧ BitVec.ofInt 32 n &&& P_INTR_RES = 0 ∧ l = [resultWrite fields] ∨
        ¬ (CarriesData fields ∧ BitVec.ofInt 32 n &&& P_INTR_RES = 0) ∧ l = []) := by
  simp only [processPacket, Json.index, Outcome.ok_bind] at h
  by_cases hdata : isDataPacket (Json.member fields "body") = true
  · simp only [hdata, if_true, ofJson_data hhead hid hdata, Outcome.ok_bind,
      Outcome.bind_eq_ok] at h
    obtain ⟨t, ht, p, hp, h⟩ := h
    obtain ⟨csvFiles, db, rfl, ⟨hfound, -⟩ | ⟨-, rfl⟩⟩ := ProcessDataPacket.execute_cases ht
    · simp [OutgoingDataRegistry.findMatchInList, hfind, pure, Except.pure] at hfound
    · split_ifs at h with hstore
      · simp only [ProcessDataPacket.storesFinal, Bool.and_eq_true, Bool.not_eq_true',
          beq_iff_eq] at hstore
        have hne : packetData (.obj fields) ≠ "" := by
          intro hempty
          simp [hempty] at hstore
        exact ⟨csvFiles, _, p, hp, h, .inl ⟨⟨hdata, hne⟩, hstore.2, rfl⟩⟩
      · refine ⟨csvFiles, [], p, hp, by rwa [List.append_nil], .inr ⟨?_, rfl⟩⟩
        simp only [ProcessDataPacket.storesFinal, Bool.and_eq_true, Bool.not_eq_true',
          beq_iff_eq, not_and] at hstore
        rintro ⟨⟨-, hne⟩, hbit⟩
        exact hstore (by simpa using hne) hbit
  · simp only [hdata, if_false, Bool.false_eq_true, Outcome.bind_eq_ok, Outcome.pure_eq_ok] at h
    obtain ⟨t, rfl, p, hp, h⟩ := h
    refine ⟨s.csvFiles, [], p, hp, by simpa using h, .inr ⟨?_, rfl⟩⟩
    rintro ⟨⟨hbody, -⟩, -⟩
    exact hdata hbody

variable (sql) in
/-- Which tables' final results a packet stores, and which it records. -/
lemma processPacket_final {fields : List (String × Json)} {n : ℤ} {uid : String}
    {before after : List OutDataRef} {i : OutDataRef} {st : OutgoingDataState}
    (hhead : Json.member fields "head" = .int n) (hid : Json.member fields "id" = .str uid)
    (hfind : s.outgoingDataRegistry.find (packetTable (.obj fields))
      = .ok (some (before, i, after)))
    (hst : s.outgoingDataRegistry.states.get i = some st) (hlow : st.taskStatus < .dataFinal)
    (h : s.processPacket (.obj fields) = .ok s') :
    (StoredFinal sql s s' (packetTable (.obj fields)) ↔
      CarriesData fields ∧ BitVec.ofInt 32 n &&& P_INTR_RES = 0 ∧ Stores sql s fields) ∧
    (s'.RecordsFinal i ↔ s.FinalReport (BitVec.ofInt 32 n) uid) := by
  obtain ⟨csvFiles, l, p, hp, h, hl⟩ := processPacket_stages hhead hid hfind h
  obtain ⟨htable, huid, hcode⟩ := ofJson_status hhead hid hp
  have hstores : (∃ cell ∈ sql.cellsFrom s.database l, cell.columnName = USERDAT_RES_COL_ID ∧
      cell.rowIdentifierValue = packetTable (.obj fields)) ↔
      CarriesData fields ∧ BitVec.ofInt 32 n &&& P_INTR_RES = 0 ∧ Stores sql s fields := by
    rcases hl with ⟨hdata, hbit, rfl⟩ | ⟨hnot, rfl⟩
    · simp only [SqlServer.cellsFrom, List.append_nil, hdata, hbit, true_and]
      rfl
    · simp only [SqlServer.cellsFrom, List.not_mem_nil, false_and, exists_false, false_iff]
      exact fun hall => hnot ⟨hall.1, hall.2.1⟩
  rw [← hstores]
  -- the second reading: at most a status is written and recorded
  rcases packetStatusParse_reported h with ⟨hknown, hrep⟩ | ⟨hunknown, rfl⟩
  · obtain ⟨hfinal, l', hdb, hstatus⟩ := (htable ▸ hrep).final_iff hfind hst hlow
    rw [huid] at hknown
    have hknown : s.knowsWorker uid := hknown
    constructor
    · exact storedFinal_append (hdb.trans (List.append_assoc _ _ _)) hstatus
    · rw [RecordsFinal, hfinal, reportedStatus_eq_final, hcode, FinalReport]
      simp [hknown]
  · rw [huid] at hunknown
    have hunknown : ¬ s.knowsWorker uid := hunknown
    constructor
    · have hnone : ∀ write ∈ ([] : Database), ∃ status, write = statusWrite status "" := by simp
      exact storedFinal_append (by rw [List.append_nil]) hnone
    · have hnot : st.taskStatus ≠ .dataFinal := by
        intro heq
        rw [heq] at hlow
        exact absurd hlow (by decide)
      simp [RecordsFinal, FinalReport, hunknown, hst, hnot]

/-- For a packet that names a table with a status below `DATA_FINAL`, the validator stores a final
result and records the table as final together, or does neither, in two cases: the packet is a
final report that carries data which the database stores, or it is no final report, and carries no
such data or has the bit of an intermediate result. -/
theorem startValidator_agree_iff {fields : List (String × Json)} {n : ℤ} {uid : String}
    {item : SinkItem Json} {items : List (SinkItem Json)} {before after : List OutDataRef}
    {i : OutDataRef} {st : OutgoingDataState} {status : JobStatus} (sql : SqlServer)
    (hsink : s.receiverSink.sinkItemList = item :: items)
    (hitem : item.dataObject = .obj fields)
    (hhead : Json.member fields "head" = .int n) (hid : Json.member fields "id" = .str uid)
    (hfind : s.outgoingDataRegistry.find (packetTable (.obj fields))
      = .ok (some (before, i, after)))
    (hst : s.outgoingDataRegistry.states.get i = some st) (hlow : st.taskStatus < .dataFinal)
    (h : s.startValidator = .ok (s', status)) :
    (StoredFinal sql s s' (packetTable (.obj fields)) ↔ s'.RecordsFinal i) ↔
      (s.FinalReport (BitVec.ofInt 32 n) uid ∧ CarriesData fields ∧ Stores sql s fields) ∨
      (¬ s.FinalReport (BitVec.ofInt 32 n) uid ∧
        (¬ CarriesData fields ∨ BitVec.ofInt 32 n &&& P_INTR_RES ≠ 0 ∨ ¬ Stores sql s fields)) := by
  simp only [startValidator, Outcome.bind_eq_ok] at h
  obtain ⟨⟨receiverSink, object⟩, hpop, h⟩ := h
  rcases Sink.popObject_cases hpop with ⟨hnil, -⟩ | ⟨item', items', hcons, rfl, rfl⟩
  · rw [hsink] at hnil
    cases hnil
  · rw [hsink] at hcons
    cases hcons
    simp only [hitem, Outcome.bind_eq_ok, Outcome.pure_eq_ok, Prod.mk.injEq] at h
    obtain ⟨t, h, rfl, -⟩ := h
    obtain ⟨hstored, hrecords⟩ :=
      processPacket_final sql (s := { s with
        receiverSink := { s.receiverSink with sinkItemList := items } }) hhead hid hfind hst hlow h
    have hstored : StoredFinal sql s t (packetTable (.obj fields)) ↔
        CarriesData fields ∧ BitVec.ofInt 32 n &&& P_INTR_RES = 0 ∧ Stores sql s fields := hstored
    have hrecords : t.RecordsFinal i ↔ s.FinalReport (BitVec.ofInt 32 n) uid := hrecords
    rw [hstored, hrecords]
    by_cases hfinal : s.FinalReport (BitVec.ofInt 32 n) uid
    · have hbit := intr_bit_of_maskQuickSend hfinal.2
      simp only [hfinal, hbit, iff_true, true_and, not_true_eq_false, false_and, or_false]
    · simp only [hfinal, iff_false, false_and, not_false_eq_true, true_and, false_or]
      tauto

/-! ### Packets about the table `T` -/

/-- A packet of the worker `1000` with data for the table `T`. -/
def dataFields (head : ℤ) : List (String × Json) :=
  [("head", .int head), ("id", .str "1000"),
    ("body", .obj [("id", .str "T"), ("data", .str "1,2"), ("priority", .int 1)])]

/-- A server that has sent the table `T` to the worker `1000`, and has received a packet. -/
def receiving (head : ℤ) : Server :=
  { init (fun _ => false) (fun _ => 0) with
    workerRegistry := ⟨⟨[some (.new "1000")]⟩, [0], [], true⟩
    outgoingDataRegistry := ⟨[0], ⟨[some ⟨"T", .dataReady, some 0⟩]⟩⟩
    receiverSink := ⟨[⟨.obj (dataFields head), .defaultPriority, 0⟩], 1, 20⟩ }

/-- A final result is stored and recorded. -/
theorem startValidator_agree_final :
    ∃ r, (receiving 16).startValidator = .ok r ∧
      ((StoredFinal .exact (receiving 16) r.1 "T" ↔ r.1.RecordsFinal 0) ↔
        ((receiving 16).FinalReport 16 "1000" ∧ CarriesData (dataFields 16) ∧
          Stores .exact (receiving 16) (dataFields 16)) ∨
        (¬ (receiving 16).FinalReport 16 "1000" ∧
          (¬ CarriesData (dataFields 16) ∨ 16 &&& P_INTR_RES ≠ 0 ∨
            ¬ Stores .exact (receiving 16) (dataFields 16)))) := by
  have hitem : SinkItem.dataObject (⟨.obj (dataFields 16), .defaultPriority, 0⟩ : SinkItem Json) =
    .obj (dataFields 16) := rfl
  apply Outcome.exists_ok_and (by decide)
  intro r hr
  exact startValidator_agree_iff .exact rfl hitem rfl rfl rfl rfl (by decide) hr

instance (sql : SqlServer) (s s' : Server) (tableId : String) :
    Decidable (StoredFinal sql s s' tableId) :=
  inferInstanceAs (Decidable (∃ cell ∈ _, _))

instance (s : Server) (i : OutDataRef) : Decidable (s.RecordsFinal i) :=
  decidable_of_iff
    ((s.outgoingDataRegistry.states.get i).any (fun st => st.taskStatus = .dataFinal) = true)
    (by simp [RecordsFinal, Option.any_eq_true])

/-- An acknowledgement that carries data: the data is stored as the final result of a table that
is not recorded as final. -/
theorem startValidator_disagree :
    ∃ r, (receiving 4).startValidator = .ok r ∧
      ¬ (StoredFinal .exact (receiving 4) r.1 "T" ↔ r.1.RecordsFinal 0) :=
  Outcome.exists_ok_of_eval (by decide)

end Server

end ServerUnit
