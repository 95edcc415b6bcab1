import ServerUnit.Services.SqlStatement

/-!
# What the writes do to the table of user data

`sqlWriteString` hands its statement to the database and drops the exceptions. What the database
does with the text is a parameter, which may depend on all that was written before. It is known
that a statement with a verbatim text sets no other column, and that one which has a verbatim row
identifier as well sets the row of that name to the text, if there is one that can hold it.
-/

namespace ServerUnit

open Lib

/-- A cell that a statement has set: the column, the alias name of the row, and the text. -/
structure SqlCell where
  columnName : String
  rowIdentifierValue : String
  text : String
  deriving DecidableEq

namespace SqlWrite

/-- The writes of the two callers. -/
structure OfCallers (w : SqlWrite) : Prop where
  columnName : w.columnName ∈ [USERDAT_RES_COL_ID, USERDAT_STATUS_COL_ID]
  rowIdentifierName : w.rowIdentifierName = USERDAT_ALIASNAME_COL_ID

/-- The text is verbatim. -/
def VerbatimText (w : SqlWrite) : Prop :=
  SqlText.verbatim SqlText.mysql w.resultString.toList = true

/-- Both values are. -/
def Verbatim (w : SqlWrite) : Prop :=
  w.VerbatimText ∧ SqlText.verbatim SqlText.mysql w.rowIdentifierValue.toList = true

/-- The cell that is meant to be set. -/
def cell (w : SqlWrite) : SqlCell := ⟨w.columnName, w.rowIdentifierValue, w.resultString⟩

variable {w : SqlWrite}

lemma OfCallers.plainNames (h : w.OfCallers) : w.PlainNames USERDAT_TABLE_NAME := by
  intro name hname
  simp only [List.mem_cons, List.not_mem_nil, or_false] at hname
  have hcolumn := h.columnName
  simp only [List.mem_cons, List.not_mem_nil, or_false] at hcolumn
  rcases hname with rfl | rfl | rfl
  · decide
  · rcases hcolumn with heq | heq <;> rw [heq] <;> decide
  · rw [h.rowIdentifierName]
    decide

/-- A verbatim text is read as one literal, whatever the row identifier is. -/
lemma pieces_query_of_verbatimText (hw : w.OfCallers) (htext : w.VerbatimText) :
    SqlText.pieces SqlText.mysql (w.query USERDAT_TABLE_NAME).toList =
      (SqlText.lex SqlText.mysql (.text [' ']) (("WHERE " ++ w.rowIdentifierName ++ "=").toList ++
        '\'' :: (w.rowIdentifierValue.toList ++ '\'' :: [';']))).map fun ps =>
          .text ("UPDATE " ++ USERDAT_TABLE_NAME ++ " SET " ++ w.columnName ++ "=").toList ::
            .literal w.resultString.toList :: ps := by
  rw [SqlText.pieces, toList_query, SqlText.lex_text hw.plainNames.notMem_update,
    SqlText.lex_literal_of_verbatim htext, SqlText.lex_quote (by decide), Option.map_map]
  rfl

/-- Two verbatim values are read as they are meant. -/
lemma pieces_query_of_verbatim (hw : w.OfCallers) (h : w.Verbatim) :
    SqlText.pieces SqlText.mysql (w.query USERDAT_TABLE_NAME).toList =
      some (w.intended USERDAT_TABLE_NAME) := by
  rw [pieces_query_of_verbatimText hw h.1, SqlText.lex_text hw.plainNames.notMem_where,
    SqlText.lex_literal_of_verbatim h.2, List.nil_append, SqlText.lex_end, intended, toList_where]
  rfl

end SqlWrite

/-- What the database does with a statement after the writes made so far: the cells that it sets, or
`none` for an exception. `holds` says that there is a row of the name, whose column can hold the
text. -/
structure SqlServer where
  execute : Database → String → Option (List SqlCell)
  holds : Database → SqlCell → Bool
  execute_column : ∀ {db : Database} {w : SqlWrite} {cells : List SqlCell}, w.OfCallers →
    w.VerbatimText → execute db (w.query USERDAT_TABLE_NAME) = some cells →
    ∀ cell ∈ cells, cell.columnName = w.columnName
  execute_row : ∀ {db : Database} {w : SqlWrite}, w.OfCallers → w.Verbatim →
    holds db w.cell = true →
    ∃ cells, execute db (w.query USERDAT_TABLE_NAME) = some cells ∧ w.cell ∈ cells ∧
      ∀ cell ∈ cells, cell.text = w.resultString

namespace SqlServer

/-- The cells that a call sets, and what it returns. -/
def sqlWriteString (sql : SqlServer) (db : Database) (w : SqlWrite) : List SqlCell × ℤ :=
  match sql.execute db (w.query USERDAT_TABLE_NAME) with
  | some cells => (cells, 0)
  | none       => ([], -1)

/-- The cells that calls set, one after the other. -/
def cellsFrom (sql : SqlServer) (db : Database) : List SqlWrite → List SqlCell
  | []      => []
  | w :: ws => (sql.sqlWriteString db w).1 ++ cellsFrom sql (db ++ [w]) ws

/-- What cells that are set one after the other leave in a column of a row. -/
def lastText (cells : List SqlCell) (columnName rowIdentifierValue : String) : Option String :=
  ((cells.filter fun cell =>
    cell.columnName = columnName ∧ cell.rowIdentifierValue = rowIdentifierValue).getLast?).map
    (·.text)

/-- What the calls have left in a column of a row. -/
def column (sql : SqlServer) (db : Database) (columnName rowIdentifierValue : String) :
    Option String :=
  lastText (sql.cellsFrom [] db) columnName rowIdentifierValue

/-- Alias names are compared exactly: a verbatim row identifier finds no row of another name. -/
def Exact (sql : SqlServer) : Prop :=
  ∀ {db : Database} {w : SqlWrite} {cells : List SqlCell}, w.OfCallers → w.Verbatim →
    sql.execute db (w.query USERDAT_TABLE_NAME) = some cells →
    ∀ cell ∈ cells, cell.rowIdentifierValue = w.rowIdentifierValue

variable {sql : SqlServer} {db : Database} {w : SqlWrite} {cell : SqlCell}
  {columnName rowIdentifierValue : String}

/-! ### One call -/

lemma mem_sqlWriteString :
    cell ∈ (sql.sqlWriteString db w).1 ↔
      ∃ cells, sql.execute db (w.query USERDAT_TABLE_NAME) = some cells ∧ cell ∈ cells := by
  unfold sqlWriteString
  cases sql.execute db (w.query USERDAT_TABLE_NAME) with
  | none => simp
  | some cells => simp

/-- A call with a verbatim text sets its own column. -/
lemma columnName_of_mem_sqlWriteString (hw : w.OfCallers) (htext : w.VerbatimText)
    (h : cell ∈ (sql.sqlWriteString db w).1) : cell.columnName = w.columnName := by
  obtain ⟨cells, hcells, hmem⟩ := mem_sqlWriteString.mp h
  exact sql.execute_column hw htext hcells cell hmem

lemma cell_mem_sqlWriteString (hw : w.OfCallers) (h : w.Verbatim)
    (hholds : sql.holds db w.cell = true) : w.cell ∈ (sql.sqlWriteString db w).1 := by
  obtain ⟨cells, hcells, hmem, -⟩ := sql.execute_row hw h hholds
  exact mem_sqlWriteString.mpr ⟨cells, hcells, hmem⟩

/-- What it sets is its text, if the column can hold that. -/
lemma text_of_mem_sqlWriteString (hw : w.OfCallers) (h : w.Verbatim)
    (hholds : sql.holds db w.cell = true) (hmem : cell ∈ (sql.sqlWriteString db w).1) :
    cell.text = w.resultString := by
  obtain ⟨cells, hcells, -, htext⟩ := sql.execute_row hw h hholds
  obtain ⟨cells', hcells', hmem⟩ := mem_sqlWriteString.mp hmem
  obtain rfl : cells = cells' := Option.some.inj (hcells.symm.trans hcells')
  exact htext cell hmem

lemma Exact.of_mem_sqlWriteString (hsql : sql.Exact) (hw : w.OfCallers) (h : w.Verbatim)
    (hmem : cell ∈ (sql.sqlWriteString db w).1) :
    cell.rowIdentifierValue = w.rowIdentifierValue := by
  obtain ⟨cells, hcells, hmem⟩ := mem_sqlWriteString.mp hmem
  exact hsql hw h hcells cell hmem

/-! ### Several calls -/

lemma cellsFrom_append (sql : SqlServer) (db : Database) (ws ws' : List SqlWrite) :
    sql.cellsFrom db (ws ++ ws') = sql.cellsFrom db ws ++ sql.cellsFrom (db ++ ws) ws' := by
  induction ws generalizing db with
  | nil => simp [cellsFrom]
  | cons w ws ih => simp [cellsFrom, ih]

/-- A cell that calls have set was set by one of them. -/
lemma exists_of_mem_cellsFrom {ws : List SqlWrite} (h : cell ∈ sql.cellsFrom db ws) :
    ∃ db, ∃ w ∈ ws, cell ∈ (sql.sqlWriteString db w).1 := by
  induction ws generalizing db with
  | nil => cases h
  | cons w ws ih =>
    rcases List.mem_append.mp h with h | h
    · exact ⟨db, w, List.mem_cons_self, h⟩
    · obtain ⟨db, w, hw, h⟩ := ih h
      exact ⟨db, w, List.mem_cons_of_mem _ hw, h⟩

lemma lastText_append (cells cells' : List SqlCell) :
    lastText (cells ++ cells') columnName rowIdentifierValue =
      (lastText cells' columnName rowIdentifierValue).or
        (lastText cells columnName rowIdentifierValue) := by
  unfold lastText
  rw [List.filter_append, List.getLast?_append]
  cases (cells'.filter fun cell =>
    cell.columnName = columnName ∧ cell.rowIdentifierValue = rowIdentifierValue).getLast? with
  | none => rfl
  | some cell => rfl

lemma lastText_eq_none {cells : List SqlCell} :
    lastText cells columnName rowIdentifierValue = none ↔ ∀ cell ∈ cells,
      cell.columnName = columnName → cell.rowIdentifierValue ≠ rowIdentifierValue := by
  simp [lastText]

/-- A call with verbatim values leaves its text in the row of its name, and in no other. -/
lemma lastText_of_verbatim (hsql : sql.Exact) (hw : w.OfCallers) (h : w.Verbatim)
    (hholds : sql.holds db w.cell = true) :
    lastText (sql.sqlWriteString db w).1 w.columnName rowIdentifierValue =
      if w.rowIdentifierValue = rowIdentifierValue then some w.resultString else none := by
  split_ifs with hrow
  · subst hrow
    obtain ⟨text, htext⟩ : ∃ text, lastText (sql.sqlWriteString db w).1 w.columnName
        w.rowIdentifierValue = some text := by
      apply Option.ne_none_iff_exists'.mp
      intro hnone
      exact lastText_eq_none.mp hnone w.cell (cell_mem_sqlWriteString hw h hholds) rfl rfl
    obtain ⟨cell, hcell, rfl⟩ := Option.map_eq_some_iff.mp htext
    have hmem := List.mem_of_mem_filter (List.mem_of_getLast? hcell)
    rw [htext, text_of_mem_sqlWriteString hw h hholds hmem]
  · apply lastText_eq_none.mpr
    intro cell hmem _ hname
    exact hrow ((hsql.of_mem_sqlWriteString hw h hmem).symm.trans hname)

/-- Calls that set nothing in a column of a row leave it as it is. -/
lemma column_append (sql : SqlServer) (db : Database) (ws : List SqlWrite) :
    sql.column (db ++ ws) columnName rowIdentifierValue =
      (lastText (sql.cellsFrom db ws) columnName rowIdentifierValue).or
        (sql.column db columnName rowIdentifierValue) := by
  rw [column, cellsFrom_append, lastText_append]
  rfl

/-! ### A database that compares names exactly -/

/-- The cell that a statement sets, if it is the write of one of the two columns. -/
def updated (statement : String) : Option (List SqlCell) :=
  match SqlText.pieces SqlText.mysql statement.toList with
  | some [.text update, .literal text, .text condition, .literal identifier, .text [';']] =>
    if condition = (" WHERE " ++ USERDAT_ALIASNAME_COL_ID ++ "=").toList then
      ([USERDAT_RES_COL_ID, USERDAT_STATUS_COL_ID].find? fun columnName =>
        ("UPDATE " ++ USERDAT_TABLE_NAME ++ " SET " ++ columnName ++ "=").toList = update).map
        fun columnName => [⟨columnName, String.ofList identifier, String.ofList text⟩]
    else none
  | _ => none

lemma updated_eq_some {statement : String} {cells : List SqlCell}
    (h : updated statement = some cells) :
    ∃ columnName text condition identifier,
      SqlText.pieces SqlText.mysql statement.toList =
        some [.text ("UPDATE " ++ USERDAT_TABLE_NAME ++ " SET " ++ columnName ++ "=").toList,
          .literal text, .text condition, .literal identifier, .text [';']] ∧
      cells = [⟨columnName, String.ofList identifier, String.ofList text⟩] := by
  unfold updated at h
  split at h
  next update text condition identifier hpieces =>
    split_ifs at h
    obtain ⟨columnName, hfind, rfl⟩ := Option.map_eq_some_iff.mp h
    have hupdate := List.find?_some hfind
    refine ⟨columnName, text, condition, identifier, ?_, rfl⟩
    rw [hpieces, of_decide_eq_true hupdate]
  next => cases h

lemma updated_of_verbatim (hw : w.OfCallers) (h : w.Verbatim) :
    updated (w.query USERDAT_TABLE_NAME) = some [w.cell] := by
  obtain ⟨text, columnName, rowIdentifierName, identifier⟩ := w
  obtain rfl : rowIdentifierName = USERDAT_ALIASNAME_COL_ID := hw.rowIdentifierName
  have hcolumn := hw.columnName
  simp only [List.mem_cons, List.not_mem_nil, or_false] at hcolumn
  rw [updated, SqlWrite.pieces_query_of_verbatim hw h, SqlWrite.intended]
  simp only [if_true]
  rcases hcolumn with rfl | rfl
  · simp [SqlWrite.cell]
  · rw [List.find?_cons_of_neg (by decide)]
    simp [SqlWrite.cell]

/-- The database that has a row for every name. -/
def exact : SqlServer where
  execute _ := updated
  holds _ _ := true
  execute_column := by
    intro _ w cells hw htext hcells cell hmem
    obtain ⟨columnName, text, condition, identifier, hpieces, rfl⟩ := updated_eq_some hcells
    rw [SqlWrite.pieces_query_of_verbatimText hw htext] at hpieces
    obtain ⟨_, -, heq⟩ := Option.map_eq_some_iff.mp hpieces
    simp only [List.cons.injEq, SqlText.Piece.text.injEq, String.toList_inj,
      String.append_left_inj, String.append_right_inj] at heq
    rw [List.mem_singleton] at hmem
    rw [hmem]
    exact heq.1.symm
  execute_row hw h _ := ⟨_, updated_of_verbatim hw h, List.mem_singleton_self _,
    fun cell hmem => by rw [List.mem_singleton.mp hmem]; rfl⟩

end SqlServer

end ServerUnit
