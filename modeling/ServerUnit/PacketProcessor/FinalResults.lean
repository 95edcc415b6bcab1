import ServerUnit.PacketProcessor.RecordedStatus
import ServerUnit.PacketProcessor.Results
import ServerUnit.Server.Reachable

/-!
# Final results

Once a table is recorded as final and its result is stored, two kinds of packets undo that: one
that carries other data and no bit of an intermediate result, from whomever it comes, and an error
report of a known worker, since `DATA_ERROR` is the greatest status. The data are put into a
statement as they are: with a quote in them, or in the name of their table, they may overwrite the
result of another one.
-/

namespace ServerUnit

open Lib

/-- A session receives a packet, or the validator handles the next one. -/
inductive PacketEvent where
  | receivePacket (packet : Json)
  | startValidator

/-! ### What a report changes -/

lemma reportedStatus_eq_error {statusCode : BitVec 32} {p : ProcessStatusPacket} :
    reportedStatus statusCode p = some .dataError ↔ statusCode = P_ERR ∧ p.errorString ≠ "" := by
  unfold reportedStatus
  split_ifs with hintr hfinal herror
  · simp only [Option.some.injEq, reduceCtorEq, hintr, false_iff, not_and]
    exact fun h => absurd h (by decide)
  · simp only [Option.some.injEq, reduceCtorEq, hfinal, false_iff, not_and]
    exact fun h => absurd h (by decide)
  · simpa using herror
  · simpa using herror

/-- A report about any table stores no result. -/
lemma Reported.column_eq {tableId : String} {r r' : OutgoingDataRegistry} {db db' : Database}
    {reported : Option UserTaskStatus} (sql : SqlServer) (h : Reported tableId r db r' db' reported)
    (id : String) :
    sql.column db' USERDAT_RES_COL_ID id = sql.column db USERDAT_RES_COL_ID id := by
  cases reported with
  | none => rw [h.2]
  | some status =>
    obtain ⟨b, h⟩ := h
    rcases OutgoingDataRegistry.updateTaskStatus_cases h with
      ⟨-, -, rfl⟩ | ⟨_, _, _, _, -, -, ⟨-, -, rfl⟩ | ⟨-, -, rfl⟩⟩
    · rfl
    · rfl
    · have hnone : SqlServer.lastText (sql.cellsFrom db [statusWrite status tableId])
          USERDAT_RES_COL_ID id = none := by
        apply SqlServer.lastText_eq_none.mpr
        intro cell hmem hcolumn
        obtain ⟨_, w, hw, hmem⟩ := SqlServer.exists_of_mem_cellsFrom hmem
        rw [List.mem_singleton.mp hw] at hmem
        rw [columnName_of_mem_statusWrite hmem] at hcolumn
        exact absurd hcolumn (by decide)
      have happend : updateStatusInDb (userStatusEnumToString status) tableId db =
          db ++ [statusWrite status tableId] := rfl
      rw [happend, SqlServer.column_append, hnone, Option.none_or]

lemma max_dataFinal (status : UserTaskStatus) :
    max .dataFinal status = .dataFinal ↔ status ≠ .dataError := by
  cases status <;> decide

/-- A report about any table: a final one stays final unless an error is reported about it. -/
lemma Reported.final_iff_ne_error {tableId tableId' : String} {r r' : OutgoingDataRegistry}
    {db db' : Database} {reported : Option UserTaskStatus}
    (h : Reported tableId' r db r' db' reported)
    (hfinal : r.statusOf tableId = .ok (some .dataFinal)) :
    r'.statusOf tableId = .ok (some .dataFinal) ↔
      ¬ (tableId' = tableId ∧ reported = some .dataError) := by
  cases reported with
  | none =>
    rw [h.1]
    exact iff_of_true hfinal nofun
  | some status =>
    obtain ⟨b, h⟩ := h
    rw [OutgoingDataRegistry.statusOf_updateTaskStatus h, hfinal]
    split_ifs with hname
    · simp only [hname, Except.map, Option.map_some, Except.ok.injEq, Option.some.injEq,
        max_dataFinal, true_and, ne_eq]
    · exact iff_of_true rfl fun hboth => hname hboth.1.symm

namespace Server

def packetStep (s : Server) : PacketEvent → Outcome Server
  | .receivePacket packet => s.receivePacket packet
  | .startValidator => do
    let (s, _) ← s.startValidator
    return s

/-- The registry has the table as final, and its final result in the database is `v`. -/
structure HoldsFinal (sql : SqlServer) (s : Server) (tableId v : String) : Prop where
  status : ∃ before i after st,
    s.outgoingDataRegistry.find tableId = .ok (some (before, i, after)) ∧
      s.outgoingDataRegistry.states.get i = some st ∧ st.taskStatus = .dataFinal
  result : sql.column s.database USERDAT_RES_COL_ID tableId = some v

/-- The write of a final result leaves another text than `v` as that of the table. -/
def SetsOther (sql : SqlServer) (db : Database) (data id tableId v : String) : Prop :=
  ∃ text, SqlServer.lastText
    (sql.sqlWriteString db ⟨data, USERDAT_RES_COL_ID, USERDAT_ALIASNAME_COL_ID, id⟩).1
    USERDAT_RES_COL_ID tableId = some text ∧ text ≠ v

/-- The packet has the body of a data packet for a registered table, with data and no bit of an
intermediate result, and the write of the data sets the result of the table `tableId` to another
one than `v`. -/
def Overwrites (sql : SqlServer) (s : Server) (packet : Json) (tableId v : String) : Prop :=
  ∃ body p, packet.index "body" = .ok body ∧ isDataPacket body = true ∧
    ProcessDataPacket.ofJson packet = .ok p ∧ p.storesFinal = true ∧
    s.outgoingDataRegistry.findMatchInList p.tableId = .ok true ∧
    SetsOther sql s.database p.data p.tableId tableId v

/-- Verbatim data for a table with a verbatim name set another result than `v` when they are other
data for the table itself. -/
lemma setsOther_iff_of_verbatim {sql : SqlServer} {db : Database} {data id tableId v : String}
    (hsql : sql.Exact)
    (h : SqlWrite.Verbatim ⟨data, USERDAT_RES_COL_ID, USERDAT_ALIASNAME_COL_ID, id⟩)
    (hholds : sql.holds db ⟨USERDAT_RES_COL_ID, id, data⟩ = true) :
    SetsOther sql db data id tableId v ↔ id = tableId ∧ data ≠ v := by
  have hlast : SqlServer.lastText
      (sql.sqlWriteString db ⟨data, USERDAT_RES_COL_ID, USERDAT_ALIASNAME_COL_ID, id⟩).1
      USERDAT_RES_COL_ID tableId = if id = tableId then some data else none :=
    SqlServer.lastText_of_verbatim hsql ⟨.head _, rfl⟩ h hholds
  rw [SetsOther, hlast]
  by_cases hname : id = tableId
  · simp [hname]
  · simp [hname]

/-- The packet is an error report about the table, from a known worker. -/
def ReportsError (s : Server) (packet : Json) (tableId : String) : Prop :=
  ∃ p, ProcessStatusPacket.ofJson packet = .ok p ∧ s.knowsWorker p.workerUid ∧
    p.tableId = tableId ∧ maskQuickSend p.statusCode = P_ERR ∧ p.errorString ≠ ""

/-- The packet that the validator takes next leaves the table's final result alone. -/
def SparesFinal (sql : SqlServer) (tableId v : String) (s : Server) : PacketEvent → Prop
  | .receivePacket _ => True
  | .startValidator  => ∀ item ∈ s.receiverSink.sinkItemList.head?,
      ¬ Overwrites sql s item.dataObject tableId v ∧ ¬ s.ReportsError item.dataObject tableId

variable {sql : SqlServer} {s s' t : Server} {tableId v : String} {packet : Json}

lemma holdsFinal_iff : HoldsFinal sql s tableId v ↔
    s.outgoingDataRegistry.statusOf tableId = .ok (some .dataFinal) ∧
      sql.column s.database USERDAT_RES_COL_ID tableId = some v := by
  rw [OutgoingDataRegistry.statusOf_eq_some]
  exact ⟨fun h => ⟨h.status, h.result⟩, fun h => ⟨h.1, h.2⟩⟩

/-! ### What the two readings of a packet change -/

/-- The first reading: the registry stays, and the stored result of a table in it changes exactly
when the packet overwrites it. The second reading starts there. -/
lemma processPacket_readings (hresult : sql.column s.database USERDAT_RES_COL_ID tableId = some v)
    (h : s.processPacket packet = .ok s') :
    ∃ (t : Server) (p : ProcessStatusPacket), ProcessStatusPacket.ofJson packet = .ok p ∧
      t.packetStatusParse p = .ok s' ∧
      t.outgoingDataRegistry = s.outgoingDataRegistry ∧ t.workerRegistry = s.workerRegistry ∧
      (sql.column t.database USERDAT_RES_COL_ID tableId = some v ↔
        ¬ Overwrites sql s packet tableId v) := by
  simp only [processPacket, Outcome.bind_eq_ok] at h
  obtain ⟨body, hbody, h⟩ := h
  have hoverwrites : Overwrites sql s packet tableId v ↔ isDataPacket body = true ∧
      ∃ p, ProcessDataPacket.ofJson packet = .ok p ∧ p.storesFinal = true ∧
        s.outgoingDataRegistry.findMatchInList p.tableId = .ok true ∧
        SetsOther sql s.database p.data p.tableId tableId v := by
    constructor
    · rintro ⟨body', p, hbody', hdata, hp⟩
      cases hbody.symm.trans hbody'
      exact ⟨hdata, p, hp⟩
    · rintro ⟨hdata, p, hp⟩
      exact ⟨body, p, hbody, hdata, hp⟩
  rw [hoverwrites]
  by_cases hdata : isDataPacket body = true
  · simp only [hdata, if_true, Outcome.bind_eq_ok] at h
    obtain ⟨d, hd, t, ht, p, hp, h⟩ := h
    obtain ⟨csvFiles, db, rfl, hdb⟩ := ProcessDataPacket.execute_cases ht
    refine ⟨_, p, hp, h, rfl, rfl, ?_⟩
    simp only [hdata, hd, Except.ok.injEq, exists_eq_left', true_and]
    rcases hdb with ⟨hmissing, rfl⟩ | ⟨hfound, rfl⟩
    · refine iff_of_true hresult ?_
      rintro ⟨-, hfound, -⟩
      cases hmissing.symm.trans hfound
    · split_ifs with hstore
      · simp only [hstore, hfound, true_and]
        rw [Database.sqlWriteString, SqlServer.column_append, hresult, SetsOther]
        simp only [SqlServer.cellsFrom, List.append_nil]
        cases SqlServer.lastText _ _ _ with
        | none => simp
        | some text => simp
      · simpa [hstore] using hresult
  · simp only [hdata, Bool.false_eq_true, if_false, Outcome.bind_eq_ok, Outcome.pure_eq_ok] at h
    obtain ⟨t, rfl, p, hp, h⟩ := h
    exact ⟨s, p, hp, h, rfl, rfl, by simpa [hdata] using hresult⟩

/-- One packet that the validator handles: the final result is still held exactly when the packet
spares it. -/
lemma processPacket_holdsFinal (hs : HoldsFinal sql s tableId v)
    (h : s.processPacket packet = .ok s') :
    HoldsFinal sql s' tableId v ↔
      ¬ Overwrites sql s packet tableId v ∧ ¬ s.ReportsError packet tableId := by
  obtain ⟨hfinal, hresult⟩ := holdsFinal_iff.mp hs
  obtain ⟨t, p, hp, h, hregistry, hworkers, hcolumn⟩ := processPacket_readings hresult h
  have hknows : t.knowsWorker p.workerUid ↔ s.knowsWorker p.workerUid := by
    rw [knowsWorker, hworkers]
    rfl
  have herror : s.ReportsError packet tableId ↔ t.knowsWorker p.workerUid ∧ p.tableId = tableId ∧
      reportedStatus (maskQuickSend p.statusCode) p = some .dataError := by
    rw [reportedStatus_eq_error, hknows]
    constructor
    · rintro ⟨p', hp', hreport⟩
      cases hp.symm.trans hp'
      exact hreport
    · intro hreport
      exact ⟨p, hp, hreport⟩
  rw [holdsFinal_iff, ← hcolumn, herror, and_comm]
  rcases packetStatusParse_reported h with ⟨hknown, hreported⟩ | ⟨hunknown, rfl⟩
  · rw [hregistry] at hreported
    rw [hreported.column_eq sql, hreported.final_iff_ne_error hfinal]
    simp only [hknown, true_and]
  · rw [hregistry]
    simp only [hunknown, hfinal, false_and, not_false_eq_true]

/-- One step holds the final result exactly when the packet it handles spares it. -/
lemma packetStep_holdsFinal {e : PacketEvent} (hs : HoldsFinal sql s tableId v)
    (h : s.packetStep e = .ok s') :
    HoldsFinal sql s' tableId v ↔ SparesFinal sql tableId v s e := by
  cases e with
  | receivePacket packet =>
    simp only [packetStep, receivePacket, Outcome.bind_eq_ok, Outcome.pure_eq_ok] at h
    obtain ⟨⟨receiverSink, rc⟩, -, rfl⟩ := h
    exact iff_of_true ⟨hs.status, hs.result⟩ trivial
  | startValidator =>
    simp only [packetStep, startValidator, Outcome.bind_eq_ok, Outcome.pure_eq_ok,
      Prod.exists, exists_and_right] at h
    obtain ⟨_, ⟨status, receiverSink, object, hpop, h⟩, rfl⟩ := h
    rcases Sink.popObject_cases hpop with ⟨hnil, rfl, rfl⟩ | ⟨item, items, hcons, rfl, rfl⟩
    · cases h
      refine iff_of_true ⟨hs.status, hs.result⟩ ?_
      simp [SparesFinal, hnil]
    · simp only [Outcome.bind_eq_ok, Outcome.pure_eq_ok, Prod.mk.injEq] at h
      obtain ⟨t, h, rfl, -⟩ := h
      have hpopped : HoldsFinal sql { s with
          receiverSink := { s.receiverSink with sinkItemList := items } } tableId v :=
        ⟨hs.status, hs.result⟩
      rw [processPacket_holdsFinal hpopped h]
      simp only [SparesFinal, hcons, List.head?_cons, Option.mem_def, Option.some.injEq,
        forall_eq']
      rfl

/-- In a run of packets a final result is final, status and stored text, exactly when no packet
handled overwrites it or reports an error about its table. -/
theorem run_holdsFinal_iff {es : List PacketEvent} (hs : HoldsFinal sql s tableId v)
    (h : run packetStep s es = .ok s') : Meets packetStep (SparesFinal sql tableId v) s es ↔
      ∀ es₁ t, es₁ <+: es → run packetStep s es₁ = .ok t → HoldsFinal sql t tableId v :=
  meets_iff_forall_prefix (fun _ _ _ hI ht => packetStep_holdsFinal hI ht) hs h

/-! ### Packets about a final table -/

instance (sql : SqlServer) (s : Server) (tableId v : String) :
    Decidable (HoldsFinal sql s tableId v) :=
  decidable_of_iff _ holdsFinal_iff.symm

/-- A packet of the worker `1000` about the table `T`. -/
def tablePacket (head : ℤ) (data : String) : Json :=
  .obj [("head", .int head), ("id", .str "1000"),
    ("body", .obj [("id", .str "T"), ("data", .str data), ("priority", .int 1)])]

/-- The table `T`, final with the result `1,2`, was processed by the worker `1000`. -/
def finalServer : Server :=
  { init (fun _ => false) (fun _ => 0) with
    workerRegistry := ⟨⟨[some (.new "1000")]⟩, [0], [], true⟩
    outgoingDataRegistry := ⟨[0], ⟨[some ⟨"T", .dataFinal, some 0⟩]⟩⟩
    database := [⟨"1,2", USERDAT_RES_COL_ID, USERDAT_ALIASNAME_COL_ID, "T"⟩] }

/-- The same result arrives again. -/
theorem run_holdsFinal_iff_repeated : ∃ s',
    run packetStep finalServer [.receivePacket (tablePacket 16 "1,2"), .startValidator] = .ok s' ∧
      (Meets packetStep (SparesFinal .exact "T" "1,2") finalServer
          [.receivePacket (tablePacket 16 "1,2"), .startValidator] ↔
        ∀ es₁ t, es₁ <+: [.receivePacket (tablePacket 16 "1,2"), .startValidator] →
          run packetStep finalServer es₁ = .ok t → HoldsFinal .exact t "T" "1,2") :=
  Outcome.exists_ok_and (by decide) fun _ h => run_holdsFinal_iff (by decide) h

/-- A result that arrives again with other data takes the place of the first, and an error report
takes the place of the final status. -/
theorem run_not_holdsFinal : HoldsFinal .exact finalServer "T" "1,2" ∧
    (∃ s', run packetStep finalServer [.receivePacket (tablePacket 16 "3,4"), .startValidator]
      = .ok s' ∧ ¬ HoldsFinal .exact s' "T" "1,2") ∧
    ∃ s', run packetStep finalServer [.receivePacket (tablePacket 32 "late"), .startValidator]
      = .ok s' ∧ ¬ HoldsFinal .exact s' "T" "1,2" :=
  ⟨by decide, Outcome.exists_ok_of_eval (by decide), Outcome.exists_ok_of_eval (by decide)⟩

end Server

end ServerUnit
