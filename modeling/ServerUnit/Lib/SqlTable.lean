import Mathlib.Data.List.Nodup
import ServerUnit.Lib.SqlText

/-!
# Lookups in SQL text

A lookup reads one column of the rows that have a value in another one. The value is put into the
statement between quotes, as it is. What a database answers to the text is a parameter; all that is
known of it is that it finds the row of a verbatim key. `SqlAnswers.exact` is a database that
compares keys exactly, and knows these statements only.
-/

namespace Lib

/-- A table with the names that statements have for it and for its columns. -/
structure SqlTable (ρ : Type) where
  name : String
  keyName : String
  key : ρ → String
  texts : List (String × (ρ → String))
  ints : List (String × (ρ → ℤ))
  distinctTexts : (texts.map Prod.fst).Nodup
  distinctInts : (ints.map Prod.fst).Nodup
  plain : ∀ columnName ∈ texts.map Prod.fst ++ ints.map Prod.fst,
    '\'' ∉ ("SELECT " ++ columnName ++ " FROM " ++ name ++ " WHERE " ++ keyName ++ "=").toList

namespace SqlTable

variable {ρ : Type} {T : SqlTable ρ} {columnName columnName' value : String}

/-- The statement up to the value. -/
def selectWhere (T : SqlTable ρ) (columnName : String) : String :=
  "SELECT " ++ columnName ++ " FROM " ++ T.name ++ " WHERE " ++ T.keyName ++ "="

/-- The lookup of a value. -/
def select (T : SqlTable ρ) (columnName value : String) : String :=
  T.selectWhere columnName ++ "'" ++ value ++ "';"

lemma selectWhere_inj (h : T.selectWhere columnName = T.selectWhere columnName') :
    columnName = columnName' := by
  simpa only [selectWhere, String.append_left_inj, String.append_right_inj] using h

lemma toList_select (T : SqlTable ρ) (columnName value : String) :
    (T.select columnName value).toList =
      (T.selectWhere columnName).toList ++ '\'' :: (value.toList ++ '\'' :: [';']) := by
  have hopen : "'".toList = ['\''] := rfl
  have hend : "';".toList = '\'' :: [';'] := rfl
  simp only [select, String.toList_append, hopen, hend, List.append_assoc, List.cons_append,
    List.nil_append]

end SqlTable

/-- What a database answers to a lookup, as texts or as integers: the values of the rows found, or
`none` for an exception. -/
structure SqlAnswers {ρ : Type} (T : SqlTable ρ) where
  getString : List ρ → String → Option (List String)
  getInt : List ρ → String → Option (List ℤ)
  getString_select : ∀ {rows : List ρ} {r : ρ} {columnName : String} {column : ρ → String},
    (rows.map T.key).Nodup → r ∈ rows → (columnName, column) ∈ T.texts →
    SqlText.verbatim SqlText.mysql (T.key r).toList = true →
    getString rows (T.select columnName (T.key r)) = some [column r]
  getInt_select : ∀ {rows : List ρ} {r : ρ} {columnName : String} {column : ρ → ℤ},
    (rows.map T.key).Nodup → r ∈ rows → (columnName, column) ∈ T.ints →
    SqlText.verbatim SqlText.mysql (T.key r).toList = true →
    getInt rows (T.select columnName (T.key r)) = some [column r]

namespace SqlAnswers

variable {ρ : Type} {T : SqlTable ρ}

/-- Keys are compared exactly: a verbatim value that is no key finds nothing. -/
structure Exact (sql : SqlAnswers T) : Prop where
  getString : ∀ {rows : List ρ} {columnName value : String} {column : ρ → String},
    value ∉ rows.map T.key → (columnName, column) ∈ T.texts →
    SqlText.verbatim SqlText.mysql value.toList = true →
    sql.getString rows (T.select columnName value) = some []
  getInt : ∀ {rows : List ρ} {columnName value : String} {column : ρ → ℤ},
    value ∉ rows.map T.key → (columnName, column) ∈ T.ints →
    SqlText.verbatim SqlText.mysql value.toList = true →
    sql.getInt rows (T.select columnName value) = some []

/-! ### A database that compares keys exactly -/

/-- The values that a statement asks for, if it is a lookup of one of the columns. -/
def lookup {α : Type} (T : SqlTable ρ) (columns : List (String × (ρ → α))) (rows : List ρ)
    (statement : String) : Option (List α) :=
  match SqlText.pieces SqlText.mysql statement.toList with
  | some [.text select, .literal value, .text [';']] =>
    (columns.find? fun c => (T.selectWhere c.1).toList = select).map fun c =>
      (rows.filter fun r => (T.key r).toList = value).map c.2
  | _ => none

/-- A lookup of a verbatim value. -/
lemma lookup_select {α : Type} {columns : List (String × (ρ → α))} (rows : List ρ)
    {columnName value : String} {column : ρ → α} (hdistinct : (columns.map Prod.fst).Nodup)
    (hcolumn : (columnName, column) ∈ columns) (hplain : '\'' ∉ (T.selectWhere columnName).toList)
    (hvalue : SqlText.verbatim SqlText.mysql value.toList = true) :
    lookup T columns rows (T.select columnName value) =
      some ((rows.filter fun r => T.key r = value).map column) := by
  have hfind : (columns.find? fun c => T.selectWhere c.1 = T.selectWhere columnName) =
      some (columnName, column) := by
    obtain ⟨c, hc⟩ : ∃ c, (columns.find? fun c => T.selectWhere c.1 = T.selectWhere columnName) =
        some c := by
      rw [← Option.isSome_iff_exists, List.find?_isSome]
      exact ⟨(columnName, column), hcolumn, decide_eq_true rfl⟩
    have hsame := List.find?_some hc
    have hname : c.1 = columnName := SqlTable.selectWhere_inj (of_decide_eq_true hsame)
    rw [hc, List.inj_on_of_nodup_map hdistinct (List.mem_of_find?_eq_some hc) hcolumn hname]
  rw [lookup, SqlTable.toList_select, SqlText.pieces_of_verbatim hplain hvalue]
  simp only [String.toList_inj]
  rw [hfind, Option.map_some]

lemma filter_key {rows : List ρ} {r : ρ} (hkeys : (rows.map T.key).Nodup) (hr : r ∈ rows) :
    rows.filter (fun a => T.key a = T.key r) = [r] := by
  have hmem : ∀ a, a ∈ rows.filter (fun a => T.key a = T.key r) ↔ a ∈ [r] := by
    intro a
    rw [List.mem_filter, List.mem_singleton, decide_eq_true_iff]
    constructor
    · rintro ⟨ha, hkey⟩
      exact List.inj_on_of_nodup_map hkeys ha hr hkey
    · rintro rfl
      exact ⟨hr, rfl⟩
  exact List.perm_singleton.mp ((List.perm_ext_iff_of_nodup
    ((List.Nodup.of_map _ hkeys).filter _) (List.nodup_singleton r)).mpr hmem)

/-- The database that compares keys exactly. -/
def exact (T : SqlTable ρ) : SqlAnswers T where
  getString := lookup T T.texts
  getInt := lookup T T.ints
  getString_select := by
    intro rows r columnName column hkeys hr hcolumn hvalue
    have hplain := T.plain columnName (List.mem_append_left _ (List.mem_map_of_mem hcolumn))
    rw [lookup_select rows T.distinctTexts hcolumn hplain hvalue, filter_key hkeys hr]
    rfl
  getInt_select := by
    intro rows r columnName column hkeys hr hcolumn hvalue
    have hplain := T.plain columnName (List.mem_append_right _ (List.mem_map_of_mem hcolumn))
    rw [lookup_select rows T.distinctInts hcolumn hplain hvalue, filter_key hkeys hr]
    rfl

end SqlAnswers

end Lib
