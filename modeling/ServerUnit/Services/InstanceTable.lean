import Mathlib.Algebra.Order.Monoid.Unbundled.WithTop
import Mathlib.Data.List.MinMax
import Mathlib.Order.Lattice.Nat
import Mathlib.Order.WithBot
import ServerUnit.Lib.KeyedTable
import ServerUnit.Services.SqlAccess

/-!
# The table of templates (`Home_instances` in `configs.cpp`)

The queries that the server makes of the table, and the files that its rows name. A query that
fails is one that threw whatever it asked for. Those for one name have the name in them as it is, so
what they find is left to the database: the row of the name, if it has no quote and no backslash but
in escapes that stand for themselves.
-/

namespace ServerUnit

open Lib

abbrev TEMPLATE_TABLE_NAME : String := "Home_instances"
abbrev TEMPLATE_NAME_COL_ID : String := "instance_name"
abbrev TEMPLATE_ALGO_COL_ID : String := "algorithm"
abbrev TEMPLATE_FILE_COL_ID : String := "csvfile"

structure InstanceRow where
  instanceName : String
  algorithm : ℤ
  csvfile : String
  timestamp : ℕ
  deriving DecidableEq

/-- The table. The names are the primary key. -/
abbrev InstanceTable := KeyedTable InstanceRow.instanceName

namespace InstanceTable

/-- `SELECT MAX(timestamp)` with `sqlQueryDb`. The largest one of an empty table is null. -/
def maxTimeStamp (t : InstanceTable) (fails : Bool) : WithBot ℕ :=
  if fails then ⊥ else (t.rows.map (·.timestamp)).maximum

/-- `sqlReadList` of the names. -/
def sqlReadList (t : InstanceTable) (fails : Bool) : List String :=
  if fails then [] else t.rows.map (·.instanceName)

/-- The table as the queries for one name see it. -/
def sqlTable : SqlTable InstanceRow where
  name := TEMPLATE_TABLE_NAME
  keyName := TEMPLATE_NAME_COL_ID
  key := (·.instanceName)
  texts := [(TEMPLATE_FILE_COL_ID, (·.csvfile))]
  ints := [(TEMPLATE_ALGO_COL_ID, (·.algorithm))]
  distinctTexts := by decide
  distinctInts := by decide
  plain := by decide

/-- `sqlQueryDb` of the name of a template's file. -/
def queryFile (sql : SqlAnswers sqlTable) (t : InstanceTable) (curInstanceName : String)
    (fails : Bool) : String :=
  if fails then ""
  else SqlAccess.sqlQueryDb sql t.rows (sqlTable.select TEMPLATE_FILE_COL_ID curInstanceName)

/-- `sqlQueryDbGetInt` of a template's algorithm. -/
def queryAlgorithm (sql : SqlAnswers sqlTable) (t : InstanceTable) (curInstanceName : String)
    (fails : Bool) : Outcome ℤ :=
  if fails then return -1
  else SqlAccess.sqlQueryDbGetInt sql t.rows (sqlTable.select TEMPLATE_ALGO_COL_ID curInstanceName)

/-- The name can be put between quotes as it is. -/
abbrev Plain (name : String) : Prop := SqlText.verbatim SqlText.mysql name.toList = true

variable {sql : SqlAnswers sqlTable} {t : InstanceTable} {r : InstanceRow} {name : String}

lemma le_maxTimeStamp (hr : r ∈ t.rows) : (r.timestamp : WithBot ℕ) ≤ t.maxTimeStamp false :=
  List.le_maximum_of_mem' (List.mem_map_of_mem hr)

lemma maxTimeStamp_le {b : WithBot ℕ} (h : ∀ r ∈ t.rows, (r.timestamp : WithBot ℕ) ≤ b)
    (fails : Bool) : t.maxTimeStamp fails ≤ b := by
  rw [maxTimeStamp]
  split_ifs
  · exact bot_le
  · apply List.maximum_le_of_forall_le
    intro n hn
    obtain ⟨r, hr, rfl⟩ := List.mem_map.mp hn
    exact h r hr

lemma queryFile_of_mem (hr : r ∈ t.rows) (hname : Plain r.instanceName) :
    queryFile sql t r.instanceName false = r.csvfile :=
  SqlAccess.sqlQueryDb_of_singleton (sql.getString_select t.distinct hr (.head _) hname)

lemma queryFile_of_notMem (hsql : sql.Exact) (hrow : name ∉ t.rows.map (·.instanceName))
    (hname : Plain name) : queryFile sql t name false = "" :=
  SqlAccess.sqlQueryDb_of_nil (hsql.getString hrow (.head _) hname)

lemma queryAlgorithm_of_mem (hr : r ∈ t.rows) (hname : Plain r.instanceName) :
    queryAlgorithm sql t r.instanceName false = .ok r.algorithm :=
  SqlAccess.sqlQueryDbGetInt_of_singleton (sql.getInt_select t.distinct hr (.head _) hname)

lemma queryAlgorithm_of_notMem (hsql : sql.Exact) (hrow : name ∉ t.rows.map (·.instanceName))
    (hname : Plain name) : queryAlgorithm sql t name false = .error .undefined :=
  SqlAccess.sqlQueryDbGetInt_of_nil (hsql.getInt hrow (.head _) hname)

end InstanceTable

/-! ### Files -/

/-- What is read at the paths that can be opened. -/
abbrev Files := KeyedTable (Prod.fst : String × String → String)

abbrev TEMPLATE_FILE_DATA_DIR : String := "/instance/"

/-- The text of a file as `getFileData` returns it, without carriage returns. A file is taken to be
UTF-8 text. -/
def fileData (text : String) : String :=
  String.ofList (text.toList.filter (· ≠ Char.ofNat 13))

/-- `getFileData` of a template: null when there is no such file. -/
def getInstanceFileData (files : Files) (fileName : String) : Option String :=
  ((files.column Prod.snd (TEMPLATE_FILE_DATA_DIR ++ fileName)).head?).map fileData

lemma getInstanceFileData_eq_some {files : Files} {fileName data : String}
    (h : getInstanceFileData files fileName = some data) :
    ∃ text, (TEMPLATE_FILE_DATA_DIR ++ fileName, text) ∈ files.rows ∧ data = fileData text := by
  obtain ⟨text, htext, rfl⟩ := Option.map_eq_some_iff.mp h
  obtain ⟨⟨path, _⟩, hmem, rfl⟩ := List.mem_map.mp (List.mem_of_head? htext)
  obtain ⟨hrow, hpath⟩ := List.mem_filter.mp hmem
  have heq : path = TEMPLATE_FILE_DATA_DIR ++ fileName := of_decide_eq_true hpath
  rw [← heq]
  exact ⟨_, hrow, rfl⟩

end ServerUnit
