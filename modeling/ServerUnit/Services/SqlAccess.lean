import ServerUnit.Lib.Outcome
import ServerUnit.Lib.SqlTable

/-!
# Access to the database (`services/sql_access.cpp`, `configs.cpp`)

What a query returns is what the database answers to its text, or a default when it throws. The
database is otherwise seen through the calls of `sqlWriteString`; what the statements of these do
to the rows is in `SqlServer`.
-/

namespace ServerUnit

open Lib

abbrev USERDAT_TABLE_NAME : String := "Home_filelog"
abbrev USERDAT_DAT_COL_ID : String := "file_name"
abbrev USERDAT_RES_COL_ID : String := "final_result"
abbrev USERDAT_ALGO_COL_ID : String := "instance_name"
abbrev USERDAT_DAT_PRIORITY_COL_ID : String := "priority"
abbrev USERDAT_ALIASNAME_COL_ID : String := "aliasname"
abbrev USERDAT_STATUS_COL_ID : String := "status"

/-! ### Queries -/

namespace SqlAccess

variable {ρ : Type} {T : SqlTable ρ}

/-- The values in one text, which is empty after an exception. -/
def sqlQueryDb (sql : SqlAnswers T) (rows : List ρ) (queryStatement : String) : String :=
  match sql.getString rows queryStatement with
  | some values => values.foldl (fun result value => result ++ value) ""
  | none        => ""

/-- The last value, or `-1` after an exception. When there is none, the variable that is returned
was never assigned. -/
def sqlQueryDbGetInt (sql : SqlAnswers T) (rows : List ρ) (queryStatement : String) : Outcome ℤ :=
  match sql.getInt rows queryStatement with
  | some values => Outcome.ofOption values.getLast?
  | none        => return -1

variable {sql : SqlAnswers T} {rows : List ρ} {queryStatement : String}

lemma sqlQueryDb_of_singleton {value : String}
    (h : sql.getString rows queryStatement = some [value]) :
    sqlQueryDb sql rows queryStatement = value := by
  rw [sqlQueryDb, h]
  exact String.empty_append

lemma sqlQueryDb_of_nil (h : sql.getString rows queryStatement = some []) :
    sqlQueryDb sql rows queryStatement = "" := by
  rw [sqlQueryDb, h]
  rfl

lemma sqlQueryDbGetInt_of_singleton {value : ℤ}
    (h : sql.getInt rows queryStatement = some [value]) :
    sqlQueryDbGetInt sql rows queryStatement = .ok value := by
  rw [sqlQueryDbGetInt, h]
  rfl

lemma sqlQueryDbGetInt_of_nil (h : sql.getInt rows queryStatement = some []) :
    sqlQueryDbGetInt sql rows queryStatement = .error .undefined := by
  rw [sqlQueryDbGetInt, h]
  rfl

end SqlAccess

/-! ### Writes -/

/-- A call of `SqlAccess::sqlWriteString`. -/
structure SqlWrite where
  resultString : String
  columnName : String
  rowIdentifierName : String
  rowIdentifierValue : String
  deriving DecidableEq, Repr

/-- The calls made so far, oldest first. -/
abbrev Database := List SqlWrite

/-- The call is noted. The callers do not look at what it returns. -/
def Database.sqlWriteString (db : Database)
    (resultString columnName rowIdentifierName rowIdentifierValue : String) : Database :=
  db ++ [⟨resultString, columnName, rowIdentifierName, rowIdentifierValue⟩]

/-- What a row has in a column when every call does what it is meant to do, as a call with verbatim
values does: the text written last, if one was. What the database has there is
`SqlServer.column`. -/
def Database.column (db : Database) (columnName rowIdentifierValue : String) : Option String :=
  ((db.filter fun write =>
    write.columnName = columnName ∧ write.rowIdentifierValue = rowIdentifierValue).getLast?).map
    (·.resultString)

lemma Database.column_sqlWriteString (db : Database)
    (text columnName rowIdentifierName rowIdentifierValue columnName' rowIdentifierValue' :
      String) :
    (db.sqlWriteString text columnName rowIdentifierName rowIdentifierValue).column columnName'
        rowIdentifierValue' =
      if columnName = columnName' ∧ rowIdentifierValue = rowIdentifierValue' then some text
      else db.column columnName' rowIdentifierValue' := by
  unfold Database.column Database.sqlWriteString
  rw [List.filter_append]
  split_ifs with h
  · simp [h.1, h.2]
  · simp [h]

end ServerUnit
