import ServerUnit.Server.Steps
import ServerUnit.Services.MonitorUserTable

/-!
# From the user table to the sender sink

`data_extractor/data_extractor.cpp` and the loop of `services/monitor_user_table.cpp`: the rows
that a poll finds are read one by one, and each becomes a `UserDataTable` in the sender sink. The
files are given by their contents, under their paths below `HOME_DIR`.
-/

namespace ServerUnit

open Lib

abbrev USER_FILE_DATA_DIR : String := "/user_data/"

def getTaskPriority : ℤ → TaskPriority
  | 0 => .highPriority
  | 1 => .mediumPriority
  | _ => .lowPriority

/-- `getFileData` of user data: the contents without carriage returns, null when there is no such
file. A file is taken to be UTF-8 text. -/
def getFileData (files : String → Option String) (fileName : String) : Option String :=
  (files (USER_FILE_DATA_DIR ++ fileName)).map fun data =>
    String.ofList (data.toList.filter (· ≠ Char.ofNat 13))

/-- The query for the name that the table of a file is shown by. -/
def recordName (sql : SqlAnswers FileLog.sqlTable) (t : FileLog) (userTableName : String) : String :=
  SqlAccess.sqlQueryDb sql t.rows (FileLog.sqlTable.select USERDAT_ALIASNAME_COL_ID userTableName)

/-- The table that is built from the queries for one file name. -/
def queryUserTable (sql : SqlAnswers FileLog.sqlTable) (t : FileLog)
    (files : String → Option String) (userTableName : String) : Outcome UserDataTable := do
  let tablePriorityQuery := FileLog.sqlTable.select USERDAT_DAT_PRIORITY_COL_ID userTableName
  let tableAlgoIdQuery := FileLog.sqlTable.select USERDAT_ALGO_COL_ID userTableName
  let userRecordName := recordName sql t userTableName
  let userTablePriority ← SqlAccess.sqlQueryDbGetInt sql t.rows tablePriorityQuery
  let userTableAlgo := SqlAccess.sqlQueryDb sql t.rows tableAlgoIdQuery
  return ⟨userRecordName, getTaskPriority userTablePriority, userTableAlgo,
    getFileData files userTableName⟩

/-- The table of a row. -/
def FileLogRow.userDataTable (files : String → Option String) (r : FileLogRow) : UserDataTable :=
  ⟨r.aliasName, getTaskPriority r.priority, r.instanceName, getFileData files r.fileName⟩

/-- The file name is the key under which all queries find the row, if it is verbatim. -/
lemma queryUserTable_eq {t : FileLog} {r : FileLogRow} (sql : SqlAnswers FileLog.sqlTable)
    (files : String → Option String) (hr : r ∈ t.rows)
    (hname : SqlText.verbatim SqlText.mysql r.fileName.toList = true) :
    queryUserTable sql t files r.fileName = .ok (r.userDataTable files) := by
  have halias : recordName sql t r.fileName = r.aliasName :=
    SqlAccess.sqlQueryDb_of_singleton (sql.getString_select t.primaryKey hr (.head _) hname)
  have halgo : SqlAccess.sqlQueryDb sql t.rows
      (FileLog.sqlTable.select USERDAT_ALGO_COL_ID r.fileName) = r.instanceName :=
    SqlAccess.sqlQueryDb_of_singleton (sql.getString_select t.primaryKey hr (.tail _ (.head _)) hname)
  have hpriority : SqlAccess.sqlQueryDbGetInt sql t.rows
      (FileLog.sqlTable.select USERDAT_DAT_PRIORITY_COL_ID r.fileName) = .ok r.priority :=
    SqlAccess.sqlQueryDbGetInt_of_singleton (sql.getInt_select t.primaryKey hr (.head _) hname)
  rw [queryUserTable, hpriority, halias, halgo]
  rfl

/-- The tables that the queries for these file names make. -/
def Queried (sql : SqlAnswers FileLog.sqlTable) (t : FileLog) (files : String → Option String)
    (userTableNameList : List String) (tables : List UserDataTable) : Prop :=
  List.Forall₂ (fun name table => queryUserTable sql t files name = .ok table) userTableNameList
    tables

lemma Queried.unique {sql : SqlAnswers FileLog.sqlTable} {t : FileLog}
    {files : String → Option String} {userTableNameList : List String}
    {tables tables' : List UserDataTable} (h : Queried sql t files userTableNameList tables)
    (h' : Queried sql t files userTableNameList tables') : tables = tables' :=
  List.right_unique_forall₂' (fun _ _ _ hb hc => Except.ok.inj (hb.symm.trans hc)) h h'

namespace Server

/-- What `pushObject` returns is not looked at. -/
def executeUserTableExtractor (sql : SqlAnswers FileLog.sqlTable) (t : FileLog)
    (files : String → Option String) (s : Server) : List String → Outcome Server
  | [] => return s
  | userTableName :: userTableNameList =>
    if userTableName.isEmpty then
      s.executeUserTableExtractor sql t files userTableNameList
    else do
      let userDataTable ← queryUserTable sql t files userTableName
      let s ← s.pushUserTable userDataTable
      s.executeUserTableExtractor sql t files userTableNameList

/-- One round of the loop of `monitorUserTable`, with the new `latestTimeStamp`. -/
def monitorUserTable (sql : SqlAnswers FileLog.sqlTable) (t : FileLog) (now : ℕ)
    (files : String → Option String) (s : Server) (latestTimeStamp : WithBot ℕ) :
    Outcome (Server × WithBot ℕ) :=
  if !s.senderSink.isSinkFull || !s.receiverSink.isSinkFull then
    let currentTimeStamp := t.maxTimeStamp
    if currentTimeStamp ≠ latestTimeStamp then do
      let fileNames := t.newFileNames latestTimeStamp now
      let s ← s.executeUserTableExtractor sql t files fileNames
      return (s, currentTimeStamp)
    else
      return (s, latestTimeStamp)
  else
    return (s, latestTimeStamp)

/-- The ids in the registry. -/
def registeredIds (s : Server) : List String :=
  s.outgoingDataRegistry.outDataRegistryList.filterMap fun i =>
    (s.outgoingDataRegistry.states.get i).map (·.id)

variable {s s' : Server} {sql : SqlAnswers FileLog.sqlTable} {t : FileLog}
  {files : String → Option String} {userTableNameList : List String} {userDataTable : UserDataTable}
  {tables : List UserDataTable}

/-! ### What the extractor does -/

lemma pushUserTable_objects (h : s.pushUserTable userDataTable = .ok s') :
    s'.senderSink.objects.Perm
      (if s.senderSink.sinkItemList.length < MAX_POOL_SIZE then
        userDataTable :: s.senderSink.objects else s.senderSink.objects) := by
  simp only [pushUserTable, Outcome.bind_eq_ok, registryAdd_eq_ok] at h
  obtain ⟨⟨sink, rc⟩, hpush, r, -, rfl⟩ := h
  exact Sink.objects_perm_of_pushObject hpush

/-- Only the table's own id can be new. -/
lemma pushUserTable_registeredIds (h : s.pushUserTable userDataTable = .ok s') {id : String}
    (hid : id ∈ s'.registeredIds) : id ∈ s.registeredIds ∨ id = userDataTable.userTable := by
  simp only [pushUserTable, Outcome.bind_eq_ok, registryAdd_eq_ok] at h
  obtain ⟨⟨sink, rc⟩, -, r, hadd, rfl⟩ := h
  rcases OutgoingDataRegistry.add_cases hadd with rfl | ⟨-, -, rfl⟩
  · exact .inl hid
  · obtain ⟨i, hi, hget⟩ := List.mem_filterMap.mp hid
    obtain ⟨st, hst, rfl⟩ := Option.map_eq_some_iff.mp hget
    by_cases hnext : i = s.outgoingDataRegistry.states.next
    · right
      dsimp only at hst
      rw [hnext, Heap.get_alloc_self] at hst
      cases hst
      rfl
    · left
      dsimp only at hst hi
      rw [Heap.get_alloc_of_ne hnext] at hst
      rw [List.mem_append, List.mem_singleton] at hi
      exact List.mem_filterMap.mpr ⟨i, hi.resolve_right hnext, by rw [hst]; rfl⟩

/-- The extractor gets through its list only when all names that are not empty can be queried; it
pushes the tables that the queries make. -/
lemma exists_queried_of_executeUserTableExtractor
    (h : s.executeUserTableExtractor sql t files userTableNameList = .ok s') :
    ∃ tables, Queried sql t files (userTableNameList.filter fun n => !n.isEmpty) tables ∧
      s'.senderSink.objects.Perm (s.senderSink.objects ++
        tables.take (MAX_POOL_SIZE - s.senderSink.sinkItemList.length)) ∧
      ∀ id ∈ s'.registeredIds, id ∈ s.registeredIds ∨ ∃ table ∈ tables, table.userTable = id := by
  induction userTableNameList generalizing s with
  | nil =>
    cases h
    exact ⟨[], .nil, by simp, fun _ hid => .inl hid⟩
  | cons userTableName userTableNameList ih =>
    simp only [executeUserTableExtractor] at h
    split_ifs at h with hempty
    · rw [List.filter_cons_of_neg (by simp [hempty])]
      exact ih h
    · simp only [Outcome.bind_eq_ok] at h
      obtain ⟨userDataTable, hquery, u, hu, h⟩ := h
      obtain ⟨tables, hall, hobjects, hids⟩ := ih h
      rw [List.filter_cons_of_pos (by simpa using hempty)]
      refine ⟨userDataTable :: tables, .cons hquery hall, ?_, fun id hid => ?_⟩
      · have hpush := pushUserTable_objects hu
        apply hobjects.trans
        have hlen := hpush.length_eq
        split_ifs at hpush hlen with hroom
        · -- the sink has room for this table, and for one less of the others
          simp only [Sink.objects, List.length_map, List.length_cons] at hlen
          have hspace : MAX_POOL_SIZE - s.senderSink.sinkItemList.length =
              MAX_POOL_SIZE - u.senderSink.sinkItemList.length + 1 := by omega
          rw [hspace, List.take_succ_cons]
          exact (hpush.append_right _).trans List.perm_middle.symm
        · simp only [Sink.objects, List.length_map] at hlen
          rw [Nat.sub_eq_zero_of_le (not_lt.mp hroom), Nat.sub_eq_zero_of_le (by omega),
            List.take_zero, List.take_zero]
          exact hpush.append_right _
      · rcases hids id hid with hold | ⟨table, htable, hname⟩
        · rcases pushUserTable_registeredIds hu hold with hold | hname
          · exact .inl hold
          · exact .inr ⟨userDataTable, List.mem_cons_self, hname.symm⟩
        · exact .inr ⟨table, List.mem_cons_of_mem _ htable, hname⟩

/-! ### When no row is lost -/

/-- The table was put into the sink, on top of what was there. -/
def Extracted (s s' : Server) (userDataTable : UserDataTable) : Prop :=
  (userDataTable :: s.senderSink.objects).Subperm s'.senderSink.objects

/-- Every new row has its table in the sender sink, or is still later than the time stamp; and so
does every id that is new in the registry. -/
structure NothingLost (t : FileLog) (now : ℕ) (files : String → Option String)
    (s : Server) (latestTimeStamp : WithBot ℕ) (s' : Server) (latestTimeStamp' : WithBot ℕ) :
    Prop where
  rows : ∀ r ∈ t.newRows latestTimeStamp now,
    Extracted s s' (r.userDataTable files) ∨ latestTimeStamp' < r.timestamp
  ids : ∀ id ∈ s'.registeredIds, id ∉ s.registeredIds →
    ∃ userDataTable, userDataTable.userTable = id ∧ Extracted s s' userDataTable

/-- The database answers the queries for the file names of these rows with the rows' own values, up
to the order of the rows. -/
def Answered (sql : SqlAnswers FileLog.sqlTable) (t : FileLog) (files : String → Option String)
    (rows : List FileLogRow) : Prop :=
  ∃ tables, Queried sql t files (rows.map (·.fileName)) tables ∧
    tables.Perm (rows.map (·.userDataTable files))

/-- It does when the file names are verbatim. -/
lemma answered_of_verbatim (sql : SqlAnswers FileLog.sqlTable) (files : String → Option String)
    {rows : List FileLogRow} (hrows : ∀ r ∈ rows, r ∈ t.rows)
    (hnames : ∀ r ∈ rows, SqlText.verbatim SqlText.mysql r.fileName.toList = true) :
    Answered sql t files rows := by
  refine ⟨_, ?_, .refl _⟩
  rw [Queried, List.forall₂_map_left_iff, List.forall₂_map_right_iff, List.forall₂_same]
  exact fun r hr => queryUserTable_eq sql files (hrows r hr) (hnames r hr)

/-- Nothing is polled or found, or all new rows have a file name under which the database finds
them, and the sink has room for them. -/
def SinkTakesAll (sql : SqlAnswers FileLog.sqlTable) (t : FileLog) (now : ℕ)
    (files : String → Option String) (s : Server) (latestTimeStamp : WithBot ℕ) : Prop :=
  (s.senderSink.isSinkFull = true ∧ s.receiverSink.isSinkFull = true) ∨
  t.newRows latestTimeStamp now = [] ∨
  ((∀ r ∈ t.newRows latestTimeStamp now, r.fileName ≠ "") ∧
    s.senderSink.sinkItemList.length + (t.newRows latestTimeStamp now).length ≤ MAX_POOL_SIZE ∧
    Answered sql t files (t.newRows latestTimeStamp now))

/-- The sink has a table more than before only when it was among those put in. -/
lemma mem_of_subperm_append {α : Type} [DecidableEq α] {a : α} {l l' : List α}
    (h : (a :: l).Subperm (l ++ l')) : a ∈ l' := by
  have hcount := h.count_le a
  rw [List.count_cons_self, List.count_append] at hcount
  exact List.count_pos_iff.mp (by omega)

/-- The tables of a list of rows are among those that were put in, which are no more than the rows:
they are the same, and all of them were put in. -/
lemma perm_of_subset_take {l l' : List UserDataTable} {n : ℕ} (hnodup : l'.Nodup)
    (hsub : l' ⊆ l.take n) (hlen : l.length ≤ l'.length) :
    l.Perm l' ∧ l.length = l'.length ∧ (l.take n).length = l'.length := by
  have hsubperm := List.subperm_of_subset hnodup hsub
  have hle := hsubperm.length_le
  have htake : (l.take n).length ≤ l.length := (List.take_sublist n l).length_le
  refine ⟨?_, by omega, by omega⟩
  exact ((hsubperm.trans (List.take_sublist n l).subperm).perm_of_length_le hlen).symm

/-- A poll that finds rows. -/
lemma extract_nothingLost_iff {now : ℕ} {latestTimeStamp : WithBot ℕ}
    (hnames : ((t.newRows latestTimeStamp now).map (·.aliasName)).Nodup)
    (hfound : t.newRows latestTimeStamp now ≠ [])
    (h : s.executeUserTableExtractor sql t files (t.newFileNames latestTimeStamp now) = .ok s') :
    NothingLost t now files s latestTimeStamp s' t.maxTimeStamp ↔
      (∀ r ∈ t.newRows latestTimeStamp now, r.fileName ≠ "") ∧
        s.senderSink.sinkItemList.length + (t.newRows latestTimeStamp now).length ≤
          MAX_POOL_SIZE ∧
        Answered sql t files (t.newRows latestTimeStamp now) := by
  have hrows : ∀ r ∈ t.newRows latestTimeStamp now, r ∈ t.rows :=
    fun r hr => List.mem_of_mem_filter hr
  obtain ⟨tables, hall, hobjects, hids⟩ := exists_queried_of_executeUserTableExtractor h
  have hlength := hall.length_eq
  have hfilter := List.length_filter_le (fun n : String => !n.isEmpty)
    (t.newFileNames latestTimeStamp now)
  have hnew : (t.newFileNames latestTimeStamp now).length =
      (t.newRows latestTimeStamp now).length := List.length_map _
  constructor
  · rintro ⟨hlost, -⟩
    -- the tables of all new rows are among those that were put in
    have hmem : (t.newRows latestTimeStamp now).map (·.userDataTable files) ⊆
        tables.take (MAX_POOL_SIZE - s.senderSink.sinkItemList.length) := by
      intro table htable
      obtain ⟨r, hr, rfl⟩ := List.mem_map.mp htable
      rcases hlost r hr with hextracted | hlater
      · exact mem_of_subperm_append (List.Subperm.trans hextracted hobjects.subperm)
      · exact absurd hlater (FileLog.le_maxTimeStamp (hrows r hr)).not_gt
    have hnodup : ((t.newRows latestTimeStamp now).map (·.userDataTable files)).Nodup := by
      apply List.Nodup.of_map UserDataTable.userTable
      rw [List.map_map]
      exact hnames
    obtain ⟨hperm, hsame, htake⟩ := perm_of_subset_take hnodup hmem (by
      rw [List.length_map]
      omega)
    have hpos := List.length_pos_of_ne_nil hfound
    rw [List.length_map] at hsame htake
    rw [List.length_take] at htake
    have hkept := List.length_filter_eq_length_iff.mp (le_antisymm hfilter (by omega))
    refine ⟨fun r hr hempty => ?_, by omega, tables, ?_, hperm⟩
    · have hnot := hkept r.fileName (List.mem_map_of_mem hr)
      simp [hempty] at hnot
    · rwa [List.filter_eq_self.mpr hkept] at hall
  · rintro ⟨hnonempty, hroom, tables', hall', hperm⟩
    have hkept : (t.newFileNames latestTimeStamp now).filter (fun n => !n.isEmpty) =
        (t.newRows latestTimeStamp now).map (·.fileName) := by
      apply List.filter_eq_self.mpr
      intro name hname
      obtain ⟨r, hr, rfl⟩ := List.mem_map.mp hname
      simpa using hnonempty r hr
    rw [hkept] at hall
    obtain rfl : tables = tables' := hall.unique hall'
    have hputs : tables.take (MAX_POOL_SIZE - s.senderSink.sinkItemList.length) = tables := by
      apply List.take_of_length_le
      rw [hperm.length_eq, List.length_map]
      omega
    rw [hputs] at hobjects
    have hextracted : ∀ table ∈ tables, Extracted s s' table := by
      intro table htable
      have hone : [table].Subperm tables := List.singleton_subperm_iff.mpr htable
      have hput := (List.subperm_append_left s.senderSink.objects).mpr hone
      exact ((List.perm_append_singleton _ _).symm.subperm.trans hput).trans
        hobjects.symm.subperm
    refine ⟨fun r hr => .inl (hextracted _ (hperm.mem_iff.mpr (List.mem_map_of_mem hr))),
      fun id hid hnewId => ?_⟩
    obtain ⟨table, htable, hname⟩ := (hids id hid).resolve_left hnewId
    exact ⟨table, hname, hextracted table htable⟩

/-- A round of the monitor's loop loses nothing exactly when the sink takes all that it finds. -/
theorem monitorUserTable_nothingLost_iff {now : ℕ} {latestTimeStamp latestTimeStamp' : WithBot ℕ}
    (hnames : ((t.newRows latestTimeStamp now).map (·.aliasName)).Nodup)
    (h : s.monitorUserTable sql t now files latestTimeStamp = .ok (s', latestTimeStamp')) :
    NothingLost t now files s latestTimeStamp s' latestTimeStamp' ↔
      SinkTakesAll sql t now files s latestTimeStamp := by
  have hnothing : ∀ r ∈ t.newRows latestTimeStamp now, latestTimeStamp < r.timestamp := by
    intro r hr
    exact (of_decide_eq_true (List.mem_filter.mp hr).2).1
  simp only [monitorUserTable] at h
  split_ifs at h with hpoll hchanged
  · have hnotfull : ¬ (s.senderSink.isSinkFull = true ∧ s.receiverSink.isSinkFull = true) := by
      rintro ⟨hsender, hreceiver⟩
      simp [hsender, hreceiver] at hpoll
    simp only [Outcome.bind_eq_ok] at h
    obtain ⟨u, hu, h⟩ := h
    cases h
    by_cases hfound : t.newRows latestTimeStamp now = []
    · rw [FileLog.newFileNames, hfound] at hu
      cases hu
      refine iff_of_true ⟨?_, fun id hid hnew => absurd hid hnew⟩ (.inr (.inl hfound))
      rw [hfound]
      intro r hr
      cases hr
    · rw [extract_nothingLost_iff hnames hfound hu, SinkTakesAll, or_iff_right hnotfull,
        or_iff_right hfound]
  · -- the largest time stamp is the one saved: no row is later
    cases h
    have hfound : t.newRows latestTimeStamp now = [] := by
      apply List.eq_nil_iff_forall_not_mem.mpr
      intro r hr
      have hle := FileLog.le_maxTimeStamp (List.mem_of_mem_filter hr)
      rw [not_not.mp hchanged] at hle
      exact absurd (hnothing r hr) hle.not_gt
    exact iff_of_true ⟨fun r hr => .inr (hnothing r hr), fun id hid hnew => absurd hid hnew⟩
      (.inr (.inl hfound))
  · cases h
    refine iff_of_true ⟨fun r hr => .inr (hnothing r hr), fun id hid hnew => absurd hid hnew⟩
      (.inl ?_)
    simpa using hpoll

/-- A table with one row. -/
def oneRow : FileLog := ⟨[⟨"f", "A", "T", 0, 1⟩], by decide⟩

/-- The only row goes into the empty sink. -/
theorem monitorUserTable_nothingLost_empty : ∃ r,
    (init (fun _ => false) (fun _ => 0)).monitorUserTable (.exact FileLog.sqlTable) oneRow 1
      (fun _ => some "1,2") (0 : ℕ) = .ok r ∧
    (NothingLost oneRow 1 (fun _ => some "1,2") (init (fun _ => false) (fun _ => 0)) (0 : ℕ) r.1
        r.2 ↔
      SinkTakesAll (.exact FileLog.sqlTable) oneRow 1 (fun _ => some "1,2")
        (init (fun _ => false) (fun _ => 0)) (0 : ℕ)) :=
  Outcome.exists_ok_and (by decide) fun _ hr =>
    monitorUserTable_nothingLost_iff (by decide) hr

/-- A sink with `MAX_POOL_SIZE` tables does not count as full. The row's table is refused, its
name is registered, and the time stamp is past it. -/
theorem monitorUserTable_loses : ∃ s r,
    run step (init (fun _ => false) (fun _ => 0)) (List.replicate MAX_POOL_SIZE
      (.pushUserTable ⟨"D", .lowPriority, "T", some "3,4"⟩)) = .ok s ∧
    s.monitorUserTable (.exact FileLog.sqlTable) oneRow 1 (fun _ => some "1,2") (0 : ℕ) = .ok r ∧
    "A" ∈ r.1.registeredIds ∧
    ¬ NothingLost oneRow 1 (fun _ => some "1,2") s (0 : ℕ) r.1 r.2 := by
  have hrun : ∃ s, run step (init (fun _ => false) (fun _ => 0)) (List.replicate MAX_POOL_SIZE
      (.pushUserTable ⟨"D", .lowPriority, "T", some "3,4"⟩)) = .ok s ∧
      (s.monitorUserTable (.exact FileLog.sqlTable) oneRow 1 (fun _ => some "1,2")
        (0 : ℕ)).toOption.any fun r => decide (
        "A" ∈ r.1.registeredIds ∧ r.1.senderSink.objects.length = s.senderSink.objects.length ∧
        r.2 = ((1 : ℕ) : WithBot ℕ)) :=
    Outcome.exists_ok_of_eval (by decide)
  obtain ⟨s, hs, hround⟩ := hrun
  obtain ⟨r, hr, hid, hlen, htime⟩ := Outcome.exists_ok_of_eval hround
  refine ⟨s, r, hs, hr, hid, fun hnothing => ?_⟩
  rcases hnothing.rows ⟨"f", "A", "T", 0, 1⟩ (by decide) with hextracted | hlater
  · have hle := List.Subperm.length_le hextracted
    rw [List.length_cons] at hle
    omega
  · rw [htime] at hlater
    exact absurd hlater (lt_irrefl _)

/-! ### The round as a poll -/

/-- A round that polls is an undisturbed poll of the monitor: it extracts the names that the poll
passes. -/
theorem monitorUserTable_poll {m : Monitor} {latestTimeStamp' : WithBot ℕ}
    (hpc : m.pc = .polling)
    (hsinks : s.senderSink.isSinkFull = false ∨ s.receiverSink.isSinkFull = false)
    (h : s.monitorUserTable sql m.table m.clock files m.latestTimeStamp =
      .ok (s', latestTimeStamp')) :
    ∃ es fileNames, s.executeUserTableExtractor sql m.table files fileNames = .ok s' ∧
      run Monitor.step m es = .ok { m with
        latestTimeStamp := latestTimeStamp'
        passed := m.passed ++ fileNames
        undisturbed := true } := by
  have hpoll : (!s.senderSink.isSinkFull || !s.receiverSink.isSinkFull) = true := by
    rcases hsinks with hsender | hreceiver
    · simp [hsender]
    · simp [hreceiver]
  simp only [monitorUserTable, hpoll, if_true] at h
  split_ifs at h with hchanged
  · simp only [Outcome.bind_eq_ok] at h
    obtain ⟨u, hu, h⟩ := h
    cases h
    refine ⟨[.queryTimeStamp, .queryTableName], _, hu, ?_⟩
    have hquery : m.step .queryTimeStamp = .ok { m with
        pc := .querying m.latestTimeStamp
        latestTimeStamp := m.table.maxTimeStamp
        undisturbed := true } := by
      simp only [Monitor.step, hpc, Outcome.guard, if_true, if_pos hchanged]
      rfl
    rw [run_cons_eq_ok]
    refine ⟨_, hquery, run_cons_eq_ok.mpr ⟨_, rfl, ?_⟩⟩
    rw [← hpc]
    rfl
  · cases h
    refine ⟨[.queryTimeStamp], [], rfl, ?_⟩
    rw [run_cons_eq_ok, List.append_nil]
    refine ⟨_, ?_, rfl⟩
    simp only [Monitor.step, hpc, Outcome.guard, if_true, if_neg hchanged]
    rfl

end Server

end ServerUnit
