import ServerUnit.Lib.SqlText
import ServerUnit.PacketProcessor.OutgoingDataRegistry

/-!
# The statements that are written (`services/sql_access.cpp`)

`sqlWriteString` puts its two values between quotes as they are. Both come from elsewhere: the result
from a worker's packet, and the row identifier from a packet or the table of user data.
-/

namespace ServerUnit

open Lib

namespace SqlWrite

/-- The statement that `sqlWriteString` builds. -/
def query (w : SqlWrite) (dataTable : String) : String :=
  "UPDATE " ++ dataTable ++ " SET " ++ w.columnName ++ "='" ++ w.resultString ++ "' WHERE " ++
    w.rowIdentifierName ++ "='" ++ w.rowIdentifierValue ++ "';"

/-- The statement it is meant to be: the two values are literals, and the rest is fixed. -/
def intended (w : SqlWrite) (dataTable : String) : List SqlText.Piece :=
  [.text ("UPDATE " ++ dataTable ++ " SET " ++ w.columnName ++ "=").toList,
   .literal w.resultString.toList,
   .text (" WHERE " ++ w.rowIdentifierName ++ "=").toList,
   .literal w.rowIdentifierValue.toList,
   .text [';']]

/-- The names of the table and the columns have no quotes. -/
def PlainNames (w : SqlWrite) (dataTable : String) : Prop :=
  ∀ name ∈ [dataTable, w.columnName, w.rowIdentifierName], '\'' ∉ name.toList

instance (w : SqlWrite) (dataTable : String) : Decidable (w.PlainNames dataTable) :=
  inferInstanceAs
    (Decidable (∀ name ∈ [dataTable, w.columnName, w.rowIdentifierName], '\'' ∉ name.toList))

variable {rule : SqlText.EscapeRule} {w : SqlWrite} {dataTable : String}

/-- The fixed text between the values, which begins with a space. -/
lemma toList_where (w : SqlWrite) :
    (" WHERE " ++ w.rowIdentifierName ++ "=").toList =
      ' ' :: ("WHERE " ++ w.rowIdentifierName ++ "=").toList := by
  have hspace : " WHERE ".toList = ' ' :: "WHERE ".toList := rfl
  simp only [String.toList_append, hspace, List.cons_append]

lemma toList_query (w : SqlWrite) (dataTable : String) :
    (w.query dataTable).toList =
      ("UPDATE " ++ dataTable ++ " SET " ++ w.columnName ++ "=").toList ++ '\'' ::
        (w.resultString.toList ++ '\'' :: ' ' ::
          (("WHERE " ++ w.rowIdentifierName ++ "=").toList ++ '\'' ::
            (w.rowIdentifierValue.toList ++ '\'' :: [';']))) := by
  have hset : "='".toList = "=".toList ++ ['\''] := rfl
  have hwhere : "' WHERE ".toList = '\'' :: ' ' :: "WHERE ".toList := rfl
  have hend : "';".toList = '\'' :: [';'] := rfl
  delta query
  simp only [String.toList_append, hset, hwhere, hend, List.append_assoc, List.cons_append,
    List.nil_append]

lemma PlainNames.notMem_update (h : w.PlainNames dataTable) :
    '\'' ∉ ("UPDATE " ++ dataTable ++ " SET " ++ w.columnName ++ "=").toList := by
  have htable := h dataTable (by simp)
  have hcolumn := h w.columnName (by simp)
  have hupdate : '\'' ∉ "UPDATE ".toList := by decide
  have hset : '\'' ∉ " SET ".toList := by decide
  have hequals : '\'' ∉ "=".toList := by decide
  simp only [String.toList_append, List.mem_append, htable, hcolumn, hupdate, hset, hequals,
    or_self, not_false_eq_true]

lemma PlainNames.notMem_where (h : w.PlainNames dataTable) :
    '\'' ∉ ("WHERE " ++ w.rowIdentifierName ++ "=").toList := by
  have hname := h w.rowIdentifierName (by simp)
  have hwhere : '\'' ∉ "WHERE ".toList := by decide
  have hequals : '\'' ∉ "=".toList := by decide
  simp only [String.toList_append, List.mem_append, hname, hwhere, hequals, or_self,
    not_false_eq_true]

/-- The pieces behind each literal need all the text there is. -/
lemma size_where (condition identifier : List Char) :
    SqlText.size [.text (' ' :: condition), .literal identifier, .text [';']] =
      (' ' :: (condition ++ '\'' :: (identifier ++ '\'' :: [';']))).length := by
  simp only [SqlText.size_cons, SqlText.size_nil, SqlText.Piece.size, List.length_cons,
    List.length_append, List.length_nil]
  omega

lemma size_end : SqlText.size [.text [';']] = [';'].length := rfl

/-- The statement has exactly its two values as literals, and its fixed text around them, if and
only if both values have no quote and no backslash but in escapes that stand for themselves. -/
theorem pieces_query_iff (rule : SqlText.EscapeRule) (hnames : w.PlainNames dataTable) :
    SqlText.pieces rule (w.query dataTable).toList = some (w.intended dataTable) ↔
      SqlText.verbatim rule w.resultString.toList = true ∧
        SqlText.verbatim rule w.rowIdentifierValue.toList = true := by
  have hidentifier : SqlText.lex rule (.literal [])
      (w.rowIdentifierValue.toList ++ '\'' :: [';']) =
        some [.literal w.rowIdentifierValue.toList, .text [';']] ↔
      SqlText.verbatim rule w.rowIdentifierValue.toList = true :=
    (SqlText.lex_literal_iff (s := []) size_end).trans (and_iff_left SqlText.lex_end)
  rw [SqlText.pieces, toList_query, intended, toList_where,
    SqlText.lex_text hnames.notMem_update, List.nil_append, SqlText.map_cons_eq_some]
  apply (SqlText.lex_literal_iff (s := []) (size_where _ _)).trans
  rw [List.nil_append, SqlText.lex_quote (by decide), SqlText.map_cons_eq_some,
    SqlText.lex_text hnames.notMem_where, List.singleton_append, SqlText.map_cons_eq_some,
    hidentifier]

/-- The writes of both callers, with plain values. -/
theorem pieces_query_callers :
    SqlText.pieces SqlText.mysql
        (query ⟨"1,2", USERDAT_RES_COL_ID, USERDAT_ALIASNAME_COL_ID, "A"⟩
          USERDAT_TABLE_NAME).toList =
      some (intended ⟨"1,2", USERDAT_RES_COL_ID, USERDAT_ALIASNAME_COL_ID, "A"⟩
        USERDAT_TABLE_NAME) ∧
    SqlText.pieces SqlText.mysql
        (query ⟨userStatusEnumToString .dataFinal, USERDAT_STATUS_COL_ID,
          USERDAT_ALIASNAME_COL_ID, "A"⟩ USERDAT_TABLE_NAME).toList =
      some (intended ⟨userStatusEnumToString .dataFinal, USERDAT_STATUS_COL_ID,
        USERDAT_ALIASNAME_COL_ID, "A"⟩ USERDAT_TABLE_NAME) :=
  ⟨(pieces_query_iff SqlText.mysql (by decide)).mpr ⟨by decide, by decide⟩,
   (pieces_query_iff SqlText.mysql (by decide)).mpr ⟨by decide, by decide⟩⟩

/-- A result with quotes in it: the write of one column. -/
def injected : SqlWrite :=
  ⟨"0', status='Success", USERDAT_RES_COL_ID, USERDAT_ALIASNAME_COL_ID, "A"⟩

/-- It sets a second column, which the worker names. -/
theorem pieces_query_injected :
    SqlText.pieces SqlText.mysql (injected.query USERDAT_TABLE_NAME).toList =
      some [.text "UPDATE Home_filelog SET final_result=".toList, .literal ['0'],
        .text ", status=".toList, .literal "Success".toList, .text " WHERE aliasname=".toList,
        .literal ['A'], .text [';']] ∧
    SqlText.pieces SqlText.mysql (injected.query USERDAT_TABLE_NAME).toList ≠
      some (injected.intended USERDAT_TABLE_NAME) :=
  ⟨by decide +kernel, by decide +kernel⟩

end SqlWrite

end ServerUnit
