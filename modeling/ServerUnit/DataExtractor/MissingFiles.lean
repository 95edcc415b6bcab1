import ServerUnit.DataExtractor.UserTables
import ServerUnit.PacketProcessor.RegistryRuns

/-!
# Tables without a file

`getFileData` returns null for a file that is not there. The extractor of templates skips the
record then, as the comments promise for both; the extractor of user tables pushes the table into
the sink with no data, and registers it.
-/

namespace ServerUnit

open Lib

namespace OutgoingDataRegistry

/-- The objects of the references, all of which are there. -/
lemma AllLive.exists_lists {r : OutgoingDataRegistry} (h : r.AllLive) :
    ∃ entries, r.Lists entries := by
  refine ⟨r.outDataRegistryList.filterMap r.states.get, ?_⟩
  have hall : ∀ l : List OutDataRef, (∀ i ∈ l, (r.states.get i).isSome = true) →
      l.map r.states.get = (l.filterMap r.states.get).map some := by
    intro l hl
    induction l with
    | nil => rfl
    | cons i l ih =>
      obtain ⟨st, hst⟩ := Option.isSome_iff_exists.mp (hl i List.mem_cons_self)
      rw [List.map_cons, List.filterMap_cons_some hst, List.map_cons, hst,
        ih fun j hj => hl j (List.mem_cons_of_mem _ hj)]
  exact hall _ h

end OutgoingDataRegistry

/-! ### The queries -/

variable {sql : SqlAnswers FileLog.sqlTable} {t : FileLog} {files : String → Option String}
  {userTableName : String} {userDataTable : UserDataTable} {userTableNameList : List String}
  {tables : List UserDataTable} {rows : List FileLogRow}

lemma userTable_of_queryUserTable
    (h : queryUserTable sql t files userTableName = .ok userDataTable) :
    userDataTable.userTable = recordName sql t userTableName := by
  simp only [queryUserTable, Outcome.bind_eq_ok, Outcome.pure_eq_ok] at h
  obtain ⟨_, -, rfl⟩ := h
  rfl

/-- The tables have the names that the first query gives. -/
lemma Queried.map_userTable (h : Queried sql t files userTableNameList tables) :
    tables.map (·.userTable) = userTableNameList.map (recordName sql t) := by
  rw [← List.forall₂_eq_eq_eq, List.forall₂_map_left_iff, List.forall₂_map_right_iff]
  exact h.flip.imp fun _ _ hquery => userTable_of_queryUserTable hquery

/-- The rows with these file names. -/
structure Records (t : FileLog) (userTableNameList : List String) (rows : List FileLogRow) :
    Prop where
  mem : ∀ r ∈ rows, r ∈ t.rows
  names : rows.map (·.fileName) = userTableNameList

/-- A row with one of the names is one of them. -/
lemma Records.mem_of_fileName (h : Records t userTableNameList rows) {r : FileLogRow}
    (hr : r ∈ t.rows) (hname : r.fileName ∈ userTableNameList) : r ∈ rows := by
  rw [← h.names] at hname
  obtain ⟨r', hr', heq⟩ := List.mem_map.mp hname
  rwa [← List.inj_on_of_nodup_map t.primaryKey (h.mem r' hr') hr heq]

/-- The packet of a table can be made when its data is there. -/
lemma exists_toJson_iff (files : String → Option String) (r : FileLogRow) :
    (∃ body, (r.userDataTable files).toJson = .ok body) ↔
      (getFileData files r.fileName).isSome = true := by
  simp [FileLogRow.userDataTable, UserDataTable.toJson, Option.isSome_iff_exists]

/-! ### What is extracted -/

/-- A name that is not empty, of a file that is there. -/
def hasFile (files : String → Option String) (userTableName : String) : Bool :=
  !userTableName.isEmpty && (getFileData files userTableName).isSome

namespace Server

/-- Exactly the tables of the records that have a file are pushed, with their data, and their names
registered. -/
structure SkipsMissing (t : FileLog) (files : String → Option String)
    (userTableNameList : List String) (s s' : Server) : Prop where
  pushed : ∃ rows, Records t (userTableNameList.filter (hasFile files)) rows ∧
    s'.senderSink.objects.Perm (s.senderSink.objects ++ rows.map (·.userDataTable files)) ∧
    ∀ r ∈ rows, ∃ body, (r.userDataTable files).toJson = .ok body
  registered : ∀ id, id ∈ s'.registeredIds ↔ id ∈ s.registeredIds ∨
    ∃ r ∈ t.rows, r.fileName ∈ userTableNameList.filter (hasFile files) ∧ r.aliasName = id

/-- Of the calls of `add` for these ids, one for `id` finds its flag clear. -/
def FindsClear (addFlag : ℕ → Bool) (ids : List String) (id : String) : Prop :=
  ∃ n : ℕ, ids[n]? = some id ∧ addFlag n = false

/-- Every table has a record, under whose file name the database finds it, and a file, and its name
is registered already or an `add` for it finds its flag clear. -/
structure NothingMissing (sql : SqlAnswers FileLog.sqlTable) (t : FileLog)
    (files : String → Option String) (userTableNameList : List String) (s : Server) : Prop where
  records : ∃ rows, Records t (userTableNameList.filter fun n => !n.isEmpty) rows ∧
    Answered sql t files rows
  files : ∀ name ∈ userTableNameList, name ≠ "" → (getFileData files name).isSome = true
  flags : ∀ name ∈ userTableNameList, name ≠ "" → recordName sql t name ∈ s.registeredIds ∨
    FindsClear s.addFlag ((userTableNameList.filter fun n => !n.isEmpty).map (recordName sql t))
      (recordName sql t name)

variable {s s' : Server} {entries : List OutgoingDataState}

lemma registeredIds_eq (h : s.outgoingDataRegistry.Lists entries) :
    s.registeredIds = entries.map (·.id) := by
  have heq : s.registeredIds =
      (s.outgoingDataRegistry.outDataRegistryList.map s.outgoingDataRegistry.states.get).filterMap
        (Option.map (·.id)) := by
    rw [List.filterMap_map]
    rfl
  rw [heq, h, List.filterMap_map]
  exact congrFun List.filterMap_eq_map entries

lemma findsClear_cons {addFlag : ℕ → Bool} {id id' : String} {ids : List String} :
    FindsClear addFlag (id' :: ids) id ↔
      (id' = id ∧ addFlag 0 = false) ∨ FindsClear (fun n => addFlag (n + 1)) ids id := by
  constructor
  · rintro ⟨n, hn, hflag⟩
    cases n with
    | zero => exact .inl ⟨by simpa using hn, hflag⟩
    | succ n => exact .inr ⟨n, by simpa using hn, hflag⟩
  · rintro (⟨rfl, hflag⟩ | ⟨n, hn, hflag⟩)
    · exact ⟨0, rfl, hflag⟩
    · exact ⟨n + 1, by simpa using hn, hflag⟩

/-- A sink with room takes the table; its name is registered, unless it was or the flag is set. -/
lemma pushUserTable_of_room (hlists : s.outgoingDataRegistry.Lists entries)
    (hlock : 0 < s.senderSink.sinkLock) (hroom : s.senderSink.sinkItemList.length < MAX_POOL_SIZE)
    (userDataTable : UserDataTable) :
    ∃ s' entries', s.pushUserTable userDataTable = .ok s' ∧
      s'.outgoingDataRegistry.Lists entries' ∧
      (∀ id, id ∈ entries'.map (·.id) ↔ id ∈ entries.map (·.id) ∨
        (userDataTable.userTable = id ∧ s.addFlag 0 = false)) ∧
      0 < s'.senderSink.sinkLock ∧
      s'.senderSink.sinkItemList.length = s.senderSink.sinkItemList.length + 1 ∧
      s'.senderSink.objects.Perm (userDataTable :: s.senderSink.objects) ∧
      s'.addFlag = fun n => s.addFlag (n + 1) := by
  have hpush := Sink.pushObject_of_room hroom hlock userDataTable userDataTable.priority
    (s.starveCounter 0)
  obtain ⟨r, hr, hlists'⟩ := hlists.add (s.addFlag 0) userDataTable.userTable none
  let u : Server := { s with
    senderSink := { s.senderSink with
      sinkItemList := Sink.place ⟨userDataTable, userDataTable.priority, s.starveCounter 0⟩
        (calculateStarveCounter userDataTable.priority) s.senderSink.sinkItemList }
    starveCounter := fun n => s.starveCounter (n + 1) }
  refine ⟨{ u with outgoingDataRegistry := r, addFlag := fun n => s.addFlag (n + 1) }, _, ?_,
    hlists', ?_, hlock, Sink.length_place _ _ _, (Sink.place_perm _ _ _).map _, rfl⟩
  · rw [pushUserTable, hpush, Outcome.ok_bind]
    exact registryAdd_eq_ok.mpr ⟨r, hr, rfl⟩
  · intro id
    split_ifs with hold
    · rcases hold with hold | hflag
      · constructor
        · exact fun hid => .inl hid
        · rintro (hid | ⟨rfl, -⟩)
          · exact hid
          · exact hold
      · simp [hflag]
    · rw [not_or, Bool.not_eq_true] at hold
      rw [List.map_append, List.map_singleton, List.mem_append, List.mem_singleton]
      apply or_congr_right
      rw [eq_comm]
      exact (and_iff_left hold.2).symm

/-- With room in the sink the extractor pushes all tables that the queries make, and adds their
names. -/
lemma executeUserTableExtractor_of_queried
    (hall : Queried sql t files (userTableNameList.filter fun n => !n.isEmpty) tables)
    (hlists : s.outgoingDataRegistry.Lists entries) (hlock : 0 < s.senderSink.sinkLock)
    (hroom : s.senderSink.sinkItemList.length +
      (userTableNameList.filter fun n => !n.isEmpty).length ≤ MAX_POOL_SIZE) :
    ∃ s' entries',
      s.executeUserTableExtractor sql t files userTableNameList = .ok s' ∧
      s'.senderSink.objects.Perm (s.senderSink.objects ++ tables) ∧
      s'.outgoingDataRegistry.Lists entries' ∧
      ∀ id, id ∈ entries'.map (·.id) ↔ id ∈ entries.map (·.id) ∨
        FindsClear s.addFlag (tables.map (·.userTable)) id := by
  induction userTableNameList generalizing s entries tables with
  | nil =>
    cases hall
    refine ⟨s, entries, rfl, by simp, hlists, fun id => ?_⟩
    simp [FindsClear]
  | cons userTableName userTableNameList ih =>
    rw [executeUserTableExtractor]
    cases hempty : userTableName.isEmpty with
    | true =>
      rw [List.filter_cons_of_neg (by simp [hempty])] at hroom hall
      exact ih hall hlists hlock hroom
    | false =>
      rw [List.filter_cons_of_pos (by simp [hempty])] at hroom hall
      rw [List.length_cons] at hroom
      cases hall with
      | @cons _ userDataTable _ tables hquery hall =>
        obtain ⟨u, entries₁, hu, hlists₁, hids, hlock₁, hlength, hobjects, hflags⟩ :=
          pushUserTable_of_room hlists hlock (by omega) userDataTable
        obtain ⟨s', entries', hs', hobjects', hlists', hids'⟩ :=
          ih hall hlists₁ hlock₁ (by omega)
        refine ⟨s', entries', ?_, ?_, hlists', ?_⟩
        · simp only [Bool.false_eq_true, if_false, hquery, Outcome.ok_bind, hu]
          exact hs'
        · exact hobjects'.trans ((hobjects.append_right _).trans List.perm_middle.symm)
        · intro id
          rw [hids', hids, hflags, List.map_cons, findsClear_cons, or_assoc]

/-- When no fewer names have a file than are not empty, they are the same names. -/
lemma filter_hasFile_of_length_eq
    (h : (userTableNameList.filter (hasFile files)).length =
      (userTableNameList.filter fun n => !n.isEmpty).length) :
    userTableNameList.filter (hasFile files) = userTableNameList.filter fun n => !n.isEmpty := by
  have hsub : userTableNameList.filter (hasFile files) =
      (userTableNameList.filter fun n => !n.isEmpty).filter fun n => (getFileData files n).isSome := by
    rw [List.filter_filter]
    congr 1
    funext n
    exact Bool.and_comm _ _
  rw [hsub] at h ⊢
  exact List.filter_eq_self.mpr (List.length_filter_eq_length_iff.mp h)

lemma filter_hasFile_of_files
    (h : ∀ name ∈ userTableNameList, name ≠ "" → (getFileData files name).isSome = true) :
    userTableNameList.filter (hasFile files) = userTableNameList.filter fun n => !n.isEmpty := by
  apply List.filter_congr
  intro name hname
  cases hempty : name.isEmpty with
  | true => simp [hasFile, hempty]
  | false => simp [hasFile, hempty, h name hname (by simpa using hempty)]

/-- What is skipped and registered says that nothing was missing. -/
lemma nothingMissing_of_skipsMissing (hlists : s.outgoingDataRegistry.Lists entries)
    (hlock : 0 < s.senderSink.sinkLock)
    (hroom : s.senderSink.sinkItemList.length +
      (userTableNameList.filter fun n => !n.isEmpty).length ≤ MAX_POOL_SIZE)
    (hs : s.executeUserTableExtractor sql t files userTableNameList = .ok s')
    (h : SkipsMissing t files userTableNameList s s') :
    NothingMissing sql t files userTableNameList s := by
  obtain ⟨rows, hrecords, hpushed, -⟩ := h.pushed
  obtain ⟨tables, hall, -, -⟩ := exists_queried_of_executeUserTableExtractor hs
  obtain ⟨s'', entries', hs'', hobjects, hlists', hids⟩ :=
    executeUserTableExtractor_of_queried hall hlists hlock hroom
  cases hs.symm.trans hs''
  -- as many tables were pushed as have a file
  have hperm : tables.Perm (rows.map (·.userDataTable files)) :=
    (List.perm_append_left_iff _).mp (hobjects.symm.trans hpushed)
  have hlength : (userTableNameList.filter (hasFile files)).length =
      (userTableNameList.filter fun n => !n.isEmpty).length := by
    rw [hall.length_eq, hperm.length_eq, ← hrecords.names, List.length_map, List.length_map]
  have hfilter := filter_hasFile_of_length_eq hlength
  have hregistered := h.registered
  rw [hfilter] at hrecords hregistered
  refine ⟨⟨rows, hrecords, tables, ?_, hperm⟩, fun name hname hne => ?_, fun name hname hne => ?_⟩
  · rwa [hrecords.names]
  · have hmem : name ∈ userTableNameList.filter (hasFile files) := by
      rw [hfilter]
      exact List.mem_filter.mpr ⟨hname, by simpa using hne⟩
    have hfile := (List.mem_filter.mp hmem).2
    rw [hasFile, Bool.and_eq_true] at hfile
    exact hfile.2
  · have hmem : recordName sql t name ∈ tables.map (·.userTable) := by
      rw [hall.map_userTable]
      exact List.mem_map_of_mem (List.mem_filter.mpr ⟨hname, by simpa using hne⟩)
    obtain ⟨table, htable, halias⟩ := List.mem_map.mp hmem
    obtain ⟨r, hr, rfl⟩ := List.mem_map.mp (hperm.mem_iff.mp htable)
    rw [registeredIds_eq hlists, ← hall.map_userTable, ← hids, ← registeredIds_eq hlists']
    apply (hregistered _).mpr
    refine .inr ⟨r, hrecords.mem r hr, ?_, halias⟩
    rw [← hrecords.names]
    exact List.mem_map_of_mem hr

/-- With room in the sink, and a registry without dangling references, the extractor gets through
its list and skips what is missing exactly when nothing is. -/
theorem executeUserTableExtractor_skipsMissing_iff (hlive : s.outgoingDataRegistry.AllLive)
    (hlock : 0 < s.senderSink.sinkLock)
    (hroom : s.senderSink.sinkItemList.length +
      (userTableNameList.filter fun n => !n.isEmpty).length ≤ MAX_POOL_SIZE) :
    (∃ s', s.executeUserTableExtractor sql t files userTableNameList = .ok s' ∧
      SkipsMissing t files userTableNameList s s') ↔
      NothingMissing sql t files userTableNameList s := by
  obtain ⟨entries, hlists⟩ := hlive.exists_lists
  constructor
  · rintro ⟨s', hs', hskips⟩
    exact nothingMissing_of_skipsMissing hlists hlock hroom hs' hskips
  · rintro ⟨⟨rows, hrecords, tables, hall, hperm⟩, hfiles, hflags⟩
    rw [hrecords.names] at hall
    obtain ⟨s', entries', hs', hobjects, hlists', hids⟩ :=
      executeUserTableExtractor_of_queried hall hlists hlock hroom
    have hfilter := filter_hasFile_of_files hfiles
    refine ⟨s', hs', ⟨rows, hfilter ▸ hrecords, hobjects.trans (hperm.append_left _),
      fun r hr => ?_⟩, fun id => ?_⟩
    · have hname : r.fileName ∈ userTableNameList.filter fun n => !n.isEmpty := by
        rw [← hrecords.names]
        exact List.mem_map_of_mem hr
      obtain ⟨hmem, hempty⟩ := List.mem_filter.mp hname
      exact (exists_toJson_iff files r).mpr (hfiles _ hmem (by simpa using hempty))
    · rw [registeredIds_eq hlists', hids, registeredIds_eq hlists, hfilter]
      rw [registeredIds_eq hlists, ← hall.map_userTable] at hflags
      constructor
      · rintro (hid | ⟨n, hn, -⟩)
        · exact .inl hid
        · obtain ⟨table, htable, rfl⟩ := List.mem_map.mp (List.mem_of_getElem? hn)
          obtain ⟨r, hr, rfl⟩ := List.mem_map.mp (hperm.mem_iff.mp htable)
          refine .inr ⟨r, hrecords.mem r hr, ?_, rfl⟩
          rw [← hrecords.names]
          exact List.mem_map_of_mem hr
      · rintro (hid | ⟨r, hr, hname, rfl⟩)
        · exact .inl hid
        · have hmem : r.aliasName ∈ tables.map (·.userTable) :=
            List.mem_map.mpr ⟨_, hperm.mem_iff.mpr
              (List.mem_map_of_mem (hrecords.mem_of_fileName hr hname)), rfl⟩
          rw [hall.map_userTable] at hmem
          obtain ⟨name, hname, halias⟩ := List.mem_map.mp hmem
          obtain ⟨hlisted, hempty⟩ := List.mem_filter.mp hname
          rw [← halias]
          exact hflags name hlisted (by simpa using hempty)

/-- The file of the only row is there. -/
theorem skipsMissing_oneRow : ∃ s',
    (init (fun _ => false) (fun _ => 0)).executeUserTableExtractor (.exact FileLog.sqlTable) oneRow
      (fun _ => some "1,2") ["f", ""] = .ok s' ∧
    SkipsMissing oneRow (fun _ => some "1,2") ["f", ""] (init (fun _ => false) (fun _ => 0)) s' := by
  refine (executeUserTableExtractor_skipsMissing_iff ?_ (by decide) (by decide)).mpr ⟨?_, ?_, ?_⟩
  · intro i hi
    cases hi
  · refine ⟨oneRow.rows, ⟨fun _ hr => hr, by decide⟩, ?_⟩
    exact answered_of_verbatim _ _ (fun _ hr => hr) (by decide)
  · exact fun _ _ _ => rfl
  · intro name hname hne
    have hf : name = "f" := by simpa [hne] using hname
    rw [hf]
    exact .inr ⟨0, by decide⟩

/-- The file of the only row is not there: its table is in the sink without data, so that no packet
can be made of it, and its name is registered. -/
theorem executeUserTableExtractor_pushes_null : ∃ s',
    (init (fun _ => false) (fun _ => 0)).executeUserTableExtractor (.exact FileLog.sqlTable) oneRow
      (fun _ => none) ["f"] = .ok s' ∧
    s'.senderSink.objects = [⟨"A", .highPriority, "T", none⟩] ∧ "A" ∈ s'.registeredIds ∧
    UserDataTable.toJson ⟨"A", .highPriority, "T", none⟩ = .error .undefined ∧
    ¬ SkipsMissing oneRow (fun _ => none) ["f"] (init (fun _ => false) (fun _ => 0)) s' := by
  obtain ⟨s', hs', hobjects, hid⟩ : ∃ s',
      (init (fun _ => false) (fun _ => 0)).executeUserTableExtractor (.exact FileLog.sqlTable) oneRow
        (fun _ => none) ["f"] = .ok s' ∧
      s'.senderSink.objects = [⟨"A", .highPriority, "T", none⟩] ∧ "A" ∈ s'.registeredIds :=
    Outcome.exists_ok_of_eval (by decide)
  refine ⟨s', hs', hobjects, hid, rfl, fun h => ?_⟩
  rcases (h.registered "A").mp hid with hold | ⟨r, -, hname, -⟩
  · cases hold
  · cases hname

end Server

end ServerUnit
