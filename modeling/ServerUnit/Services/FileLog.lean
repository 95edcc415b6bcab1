import Mathlib.Algebra.Order.Monoid.Unbundled.WithTop
import Mathlib.Data.List.MinMax
import Mathlib.Data.List.Nodup
import Mathlib.Data.List.Perm.Basic
import Mathlib.Order.Lattice.Nat
import Mathlib.Order.WithBot
import ServerUnit.Services.SqlAccess

/-!
# The table of user data (`Home_filelog` in `configs.cpp`)

The queries that the server makes of the table. Those of a poll have no values in them but time
stamps, and are answered from the rows. Those for one file name have the name in them as it is, so
what they find is left to the database: the row of the name, if it has no quote and no backslash but
in escapes that stand for themselves.

A time stamp is a number of seconds. The largest one of an empty table is null, which the server
reads as the empty text; every time stamp is later than that.
-/

namespace ServerUnit

open Lib

structure FileLogRow where
  fileName : String
  aliasName : String
  instanceName : String
  priority : ℤ
  timestamp : ℕ
  deriving DecidableEq

/-- The table. The file names are the primary key. -/
structure FileLog where
  rows : List FileLogRow
  primaryKey : (rows.map (·.fileName)).Nodup

namespace FileLog

def empty : FileLog := ⟨[], List.nodup_nil⟩

/-- `INSERT`, of a row with a new file name. -/
def insert (t : FileLog) (r : FileLogRow) : Outcome FileLog :=
  if h : r.fileName ∈ t.rows.map (·.fileName) then .error .disabled
  else .ok ⟨t.rows ++ [r], by
    rw [List.map_append, List.map_singleton, List.nodup_append_comm]
    exact List.nodup_cons.mpr ⟨h, t.primaryKey⟩⟩

/-- `SELECT MAX(timestamp)`. -/
def maxTimeStamp (t : FileLog) : WithBot ℕ := (t.rows.map (·.timestamp)).maximum

/-- The rows with `timestamp > latestTimeStamp AND timestamp <= CURRENT_TIMESTAMP`. -/
def newRows (t : FileLog) (latestTimeStamp : WithBot ℕ) (now : ℕ) : List FileLogRow :=
  t.rows.filter fun r => latestTimeStamp < r.timestamp ∧ r.timestamp ≤ now

/-- `SELECT file_name` of those rows. -/
def newFileNames (t : FileLog) (latestTimeStamp : WithBot ℕ) (now : ℕ) : List String :=
  (t.newRows latestTimeStamp now).map (·.fileName)

/-- The table as the queries for one file name see it. -/
def sqlTable : SqlTable FileLogRow where
  name := USERDAT_TABLE_NAME
  keyName := USERDAT_DAT_COL_ID
  key := (·.fileName)
  texts := [(USERDAT_ALIASNAME_COL_ID, (·.aliasName)), (USERDAT_ALGO_COL_ID, (·.instanceName))]
  ints := [(USERDAT_DAT_PRIORITY_COL_ID, (·.priority))]
  distinctTexts := by decide
  distinctInts := by decide
  plain := by decide

example : sqlTable.select USERDAT_DAT_PRIORITY_COL_ID "f" =
    "SELECT priority FROM Home_filelog WHERE file_name='f';" := by decide

variable {t t' : FileLog} {r : FileLogRow}

@[simp] lemma insert_eq_ok :
    t.insert r = .ok t' ↔
      r.fileName ∉ t.rows.map (·.fileName) ∧ t'.rows = t.rows ++ [r] := by
  unfold insert
  obtain ⟨rows', hrows'⟩ := t'
  split_ifs with h
  · simp [h]
  · simp [h, eq_comm]

lemma maxTimeStamp_insert (h : t'.rows = t.rows ++ [r]) :
    t'.maxTimeStamp = max t.maxTimeStamp r.timestamp := by
  rw [maxTimeStamp, h, List.map_append, List.map_singleton, List.maximum_concat]
  rfl

lemma le_maxTimeStamp (hr : r ∈ t.rows) : (r.timestamp : WithBot ℕ) ≤ t.maxTimeStamp :=
  List.le_maximum_of_mem' (List.mem_map_of_mem hr)

lemma maxTimeStamp_le {b : WithBot ℕ} (h : ∀ r ∈ t.rows, (r.timestamp : WithBot ℕ) ≤ b) :
    t.maxTimeStamp ≤ b := by
  apply List.maximum_le_of_forall_le
  intro n hn
  obtain ⟨r, hr, rfl⟩ := List.mem_map.mp hn
  exact h r hr

end FileLog

end ServerUnit
