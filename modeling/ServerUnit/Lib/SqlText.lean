import Mathlib.Algebra.GroupWithZero.Nat
import Mathlib.Data.List.Basic

/-!
# Quoted literals in SQL text

SQL text is read character by character: a quote opens a literal, and inside it a doubled quote
stands for one, a backslash escapes the next character, and any other quote closes the literal.
What is put between quotes as it is comes back as a literal of the same value exactly when it has no
quote, and no backslash but in the escapes that stand for themselves.
-/

namespace Lib.SqlText

/-- What a backslash and a character stand for in a literal: one character, or the two as they
are. -/
structure EscapeRule where
  escaped : Char → List Char
  length_le : ∀ c, (escaped c).length ≤ 2
  eq_of_length : ∀ c, (escaped c).length = 2 → escaped c = ['\\', c]
  quote : escaped '\'' = ['\'']

/-- The escapes of MySQL. -/
def mysqlEscaped (c : Char) : List Char :=
  if c = '0' then [Char.ofNat 0]
  else if c = 'b' then [Char.ofNat 8]
  else if c = 'n' then ['\n']
  else if c = 'r' then ['\r']
  else if c = 't' then ['\t']
  else if c = 'Z' then [Char.ofNat 26]
  else if c = '%' then ['\\', c]
  else if c = '_' then ['\\', c]
  else [c]

def mysql : EscapeRule where
  escaped := mysqlEscaped
  length_le c := by
    unfold mysqlEscaped
    split_ifs <;> simp
  eq_of_length c := by
    unfold mysqlEscaped
    split_ifs <;> simp
  quote := by decide

/-- A piece of SQL text: what a literal stands for, or what is outside. -/
inductive Piece where
  | text (s : List Char)
  | literal (s : List Char)
  deriving DecidableEq

/-- Where the reading is: outside, inside a literal, behind a quote in it, or behind a backslash. -/
inductive Mode where
  | text (s : List Char)
  | literal (s : List Char)
  | quote (s : List Char)
  | escape (s : List Char)

/-- The pieces of the text that is still to be read. A literal that is not closed is no SQL. -/
def lex (rule : EscapeRule) : Mode → List Char → Option (List Piece)
  | .text s, []         => some [.text s]
  | .quote s, []        => some [.literal s, .text []]
  | .literal _, []      => none
  | .escape _, []       => none
  | .text s, c :: cs    =>
    if c = '\'' then (lex rule (.literal []) cs).map (.text s :: ·)
    else lex rule (.text (s ++ [c])) cs
  | .literal s, c :: cs =>
    if c = '\'' then lex rule (.quote s) cs
    else if c = '\\' then lex rule (.escape s) cs
    else lex rule (.literal (s ++ [c])) cs
  | .quote s, c :: cs   =>
    if c = '\'' then lex rule (.literal (s ++ [c])) cs
    else (lex rule (.text [c]) cs).map (.literal s :: ·)
  | .escape s, c :: cs  => lex rule (.literal (s ++ rule.escaped c)) cs

def pieces (rule : EscapeRule) (cs : List Char) : Option (List Piece) := lex rule (.text []) cs

/-- No quote, and every backslash in an escape that stands for itself. -/
def verbatim (rule : EscapeRule) : List Char → Bool
  | []           => true
  | [c]          => c != '\'' && c != '\\'
  | c :: d :: cs =>
    if c = '\\' then rule.escaped d == ['\\', d] && verbatim rule cs
    else c != '\'' && verbatim rule (d :: cs)

variable {rule : EscapeRule} {s r after : List Char} {c d : Char} {ps : List Piece} {m : Mode}

/-! ### What text is needed for -/

/-- The characters that a piece takes at least. -/
def Piece.size : Piece → ℕ
  | .text s    => s.length
  | .literal s => s.length + 2

def size (ps : List Piece) : ℕ := (ps.map Piece.size).sum

@[simp] lemma size_nil : size [] = 0 := rfl

@[simp] lemma size_cons (p : Piece) (ps : List Piece) : size (p :: ps) = p.size + size ps := rfl

/-- The characters read for the piece that is not finished. -/
def Mode.size : Mode → ℕ
  | .text s    => s.length
  | .literal s => s.length + 1
  | .quote s   => s.length + 2
  | .escape s  => s.length + 2

/-- Pieces are not longer than the text they come from. -/
lemma size_le_of_lex {cs : List Char} (h : lex rule m cs = some ps) :
    size ps ≤ m.size + cs.length := by
  induction cs generalizing m ps with
  | nil =>
    cases m with
    | text s | quote s =>
      cases h
      simp [Piece.size, Mode.size]
    | literal s | escape s => cases h
  | cons c cs ih =>
    rw [List.length_cons]
    cases m with
    | text s =>
      simp only [lex] at h
      split_ifs at h
      · obtain ⟨ps, hps, rfl⟩ := Option.map_eq_some_iff.mp h
        have hle := ih hps
        simp only [size_cons, Piece.size, Mode.size, List.length_nil] at hle ⊢
        omega
      · have hle := ih h
        simp only [Mode.size, List.length_append, List.length_singleton] at hle ⊢
        omega
    | literal s =>
      simp only [lex] at h
      split_ifs at h
      · have hle := ih h
        simp only [Mode.size] at hle ⊢
        omega
      · have hle := ih h
        simp only [Mode.size] at hle ⊢
        omega
      · have hle := ih h
        simp only [Mode.size, List.length_append, List.length_singleton] at hle ⊢
        omega
    | quote s =>
      simp only [lex] at h
      split_ifs at h
      · have hle := ih h
        simp only [Mode.size, List.length_append, List.length_singleton] at hle ⊢
        omega
      · obtain ⟨ps, hps, rfl⟩ := Option.map_eq_some_iff.mp h
        have hle := ih hps
        simp only [size_cons, Piece.size, Mode.size, List.length_singleton] at hle ⊢
        omega
    | escape s =>
      have hle := ih h
      have hescaped := rule.length_le c
      simp only [Mode.size, List.length_append] at hle ⊢
      omega

/-! ### Literals that are put in as they are -/

lemma verbatim_quote : verbatim rule ('\'' :: r) = false := by
  cases r with
  | nil => rfl
  | cons d r => simp [verbatim]

@[simp] lemma verbatim_backslash : verbatim rule ['\\'] = false := rfl

lemma verbatim_escape :
    verbatim rule ('\\' :: d :: r) = (rule.escaped d == ['\\', d] && verbatim rule r) := by
  simp [verbatim]

lemma verbatim_cons (hquote : c ≠ '\'') (hback : c ≠ '\\') :
    verbatim rule (c :: r) = verbatim rule r := by
  cases r with
  | nil => simp [verbatim, hquote, hback]
  | cons d r => simp [verbatim, hquote, hback]

/-- A verbatim value is read up to the quote behind it, whatever follows. -/
lemma lex_literal_of_verbatim (h : verbatim rule r = true) :
    lex rule (.literal s) (r ++ '\'' :: after) = lex rule (.quote (s ++ r)) after := by
  induction hn : r.length using Nat.strongRecOn generalizing s r with
  | ind n ih =>
    cases r with
    | nil => simp [lex]
    | cons c r =>
      have hquote : c ≠ '\'' := by
        rintro rfl
        simp [verbatim_quote] at h
      rw [List.cons_append, lex, if_neg hquote]
      split_ifs with hback
      · subst hback
        cases r with
        | nil => simp at h
        | cons d r =>
          rw [verbatim_escape, Bool.and_eq_true, beq_iff_eq] at h
          have hlt : r.length < n := by
            rw [← hn, List.length_cons, List.length_cons]
            omega
          rw [List.cons_append, lex, h.1, ih _ hlt h.2 rfl]
          simp
      · rw [verbatim_cons hquote hback] at h
        have hlt : r.length < n := by
          rw [← hn, List.length_cons]
          omega
        rw [ih _ hlt h rfl]
        simp

/-- A quote in the value does not come back: closing the literal it makes it too short, and doubled
it takes two characters for one. -/
lemma lex_quote_ne (hps : size ps = after.length) :
    lex rule (.quote s) (r ++ '\'' :: after) ≠ some (.literal (s ++ '\'' :: r) :: ps) := by
  intro h
  cases r with
  | nil =>
    rw [List.nil_append, lex, if_pos rfl] at h
    have hle := size_le_of_lex h
    simp only [size_cons, Piece.size, Mode.size, List.length_append, List.length_singleton] at hle
    omega
  | cons d r =>
    rw [List.cons_append, lex] at h
    split_ifs at h
    · have hle := size_le_of_lex h
      simp only [size_cons, Piece.size, Mode.size, List.length_append, List.length_cons,
        List.length_nil] at hle
      omega
    · obtain ⟨_, -, heq⟩ := Option.map_eq_some_iff.mp h
      simp at heq

/-- An escape in the value comes back only when it stands for itself. -/
lemma lex_escape_iff (hps : size ps = after.length) :
    lex rule (.escape s) (d :: r ++ '\'' :: after) = some (.literal (s ++ '\\' :: d :: r) :: ps) ↔
      rule.escaped d = ['\\', d] ∧ lex rule (.literal (s ++ ['\\', d])) (r ++ '\'' :: after) =
        some (.literal (s ++ ['\\', d] ++ r) :: ps) := by
  have hvalue : s ++ '\\' :: d :: r = s ++ ['\\', d] ++ r := by simp
  rw [List.cons_append, lex, hvalue]
  constructor
  · intro h
    have hle := size_le_of_lex h
    simp only [size_cons, Piece.size, Mode.size, List.length_append, List.length_cons,
      List.length_nil] at hle
    have hlong := rule.length_le d
    have hd := rule.eq_of_length d (by omega)
    exact ⟨hd, hd ▸ h⟩
  · rintro ⟨hd, h⟩
    rwa [hd]

/-- A value put between quotes as it is comes back exactly when it is verbatim, if the pieces behind
it need all the text that is left. -/
lemma lex_literal_iff (hps : size ps = after.length) :
    lex rule (.literal s) (r ++ '\'' :: after) = some (.literal (s ++ r) :: ps) ↔
      verbatim rule r = true ∧
        lex rule (.quote (s ++ r)) after = some (.literal (s ++ r) :: ps) := by
  induction hn : r.length using Nat.strongRecOn generalizing s r with
  | ind n ih =>
    cases r with
    | nil => simp [lex, verbatim]
    | cons c r =>
      rw [List.cons_append, lex]
      split_ifs with hquote hback
      · subst hquote
        exact iff_of_false (lex_quote_ne hps) fun h => by simp [verbatim_quote] at h
      · subst hback
        cases r with
        | nil =>
          -- the closing quote is escaped
          apply iff_of_false
          · rw [List.nil_append, lex, rule.quote]
            intro h
            have hle := size_le_of_lex h
            simp only [size_cons, Piece.size, Mode.size, List.length_append,
              List.length_singleton] at hle
            omega
          · simp
        | cons d r =>
          have hlt : r.length < n := by
            rw [← hn, List.length_cons, List.length_cons]
            omega
          rw [lex_escape_iff hps, ih _ hlt rfl, verbatim_escape, Bool.and_eq_true, beq_iff_eq,
            and_assoc]
          simp
      · have hlt : r.length < n := by
          rw [← hn, List.length_cons]
          omega
        have hvalue : s ++ c :: r = s ++ [c] ++ r := by simp
        rw [hvalue, ih _ hlt rfl, verbatim_cons hquote hback]

/-- Outside literals text is read up to the next quote. -/
lemma lex_text (hr : '\'' ∉ r) :
    lex rule (.text s) (r ++ '\'' :: after) =
      (lex rule (.literal []) after).map (.text (s ++ r) :: ·) := by
  induction r generalizing s with
  | nil => simp [lex]
  | cons c r ih =>
    rw [List.mem_cons, not_or] at hr
    rw [List.cons_append, lex, if_neg (Ne.symm hr.1), ih hr.2]
    simp

/-- Text that begins with another character ends a literal. -/
lemma lex_quote (hc : c ≠ '\'') :
    lex rule (.quote s) (c :: after) = (lex rule (.text [c]) after).map (.literal s :: ·) := by
  rw [lex, if_neg hc]

/-- The end of a statement behind a literal. -/
lemma lex_end : lex rule (.quote s) [';'] = some [.literal s, .text [';']] := by
  rw [lex_quote (by decide)]
  rfl

/-- A statement with a verbatim value at its end. -/
lemma pieces_of_verbatim (hr : '\'' ∉ r) {value : List Char} (h : verbatim rule value = true) :
    pieces rule (r ++ '\'' :: (value ++ '\'' :: [';'])) =
      some [.text r, .literal value, .text [';']] := by
  rw [pieces, lex_text hr, lex_literal_of_verbatim h, List.nil_append, List.nil_append, lex_end]
  rfl

lemma map_cons_eq_some {o : Option (List Piece)} {p : Piece} :
    o.map (p :: ·) = some (p :: ps) ↔ o = some ps := by
  rw [Option.map_eq_some_iff]
  constructor
  · rintro ⟨qs, rfl, heq⟩
    rw [(List.cons.inj heq).2]
  · rintro rfl
    exact ⟨ps, rfl, rfl⟩

end Lib.SqlText
