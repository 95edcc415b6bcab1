import ServerUnit.Lib.FloatFormat
import ServerUnit.Lib.Utf8
import Mathlib.Data.Rat.Floor

/-!
# Tokens (`lexer` of `include/json.hpp`)

The lexer without comments. What a scan function reads is a list of bytes, at whose end `get` returns
the end of the file. A byte that is put back is a byte that was not read. The texts and places in
error messages are not modelled.
-/

namespace ServerUnit

open Lib

/-- `token_type`, with the value of the lexer at the token. -/
inductive Token where
  | literal_true | literal_false | literal_null
  | value_string (s : String)
  | value_unsigned (n : ℕ)
  | value_integer (n : ℤ)
  | value_float (q : ℚ)
  | begin_array | begin_object | end_array | end_object
  | name_separator | value_separator
  | parse_error
  | end_of_input
  deriving DecidableEq

namespace Lexer

/-! ### Strings -/

/-- The value of a hexadecimal digit. -/
def hexValue (current : UInt8) : Option ℕ :=
  if '0'.toUInt8 ≤ current ∧ current ≤ '9'.toUInt8 then some (current.toNat - 0x30)
  else if 'A'.toUInt8 ≤ current ∧ current ≤ 'F'.toUInt8 then some (current.toNat - 0x37)
  else if 'a'.toUInt8 ≤ current ∧ current ≤ 'f'.toUInt8 then some (current.toNat - 0x57)
  else none

/-- `get_codepoint`, over the factors that are left. -/
def get_codepoint_loop (codepoint : ℕ) : List ℕ → List UInt8 → Option (ℕ × List UInt8)
  | [], input => some (codepoint, input)
  | _ :: _, [] => none
  | factor :: factors, current :: input =>
    match hexValue current with
    | none => none
    | some digit => get_codepoint_loop (codepoint + digit <<< factor) factors input

def get_codepoint (input : List UInt8) : Option (ℕ × List UInt8) :=
  get_codepoint_loop 0 [12, 8, 4, 0] input

/-- The character of an escape with one letter. -/
def unescape (current : UInt8) : Option UInt8 :=
  if current = '"'.toUInt8 then some '"'.toUInt8
  else if current = '\\'.toUInt8 then some '\\'.toUInt8
  else if current = '/'.toUInt8 then some '/'.toUInt8
  else if current = 'b'.toUInt8 then some 0x08
  else if current = 'f'.toUInt8 then some 0x0C
  else if current = 'n'.toUInt8 then some 0x0A
  else if current = 'r'.toUInt8 then some 0x0D
  else if current = 't'.toUInt8 then some 0x09
  else none

/-- A low surrogate after a high one: the code point of both. -/
def scan_low_surrogate (codepoint1 : ℕ) : List UInt8 → Option (ℕ × List UInt8)
  | backslash :: u :: input =>
    if backslash = '\\'.toUInt8 ∧ u = 'u'.toUInt8 then
      match get_codepoint input with
      | none => none
      | some (codepoint2, input) =>
        if 0xDC00 ≤ codepoint2 ∧ codepoint2 ≤ 0xDFFF then
          some ((codepoint1 <<< 10) + codepoint2 - 0x35FDC00, input)
        else none
    else none
  | _ => none

/-- A unicode escape: its bytes, and what comes after it. -/
def scan_unicode (input : List UInt8) : Option (List UInt8 × List UInt8) :=
  match get_codepoint input with
  | none => none
  | some (codepoint1, input) =>
    if 0xD800 ≤ codepoint1 ∧ codepoint1 ≤ 0xDBFF then
      (scan_low_surrogate codepoint1 input).map fun p => (Utf8.encode p.1, p.2)
    else if 0xDC00 ≤ codepoint1 ∧ codepoint1 ≤ 0xDFFF then
      none
    else
      some (Utf8.encode codepoint1, input)

/-- What comes after a backslash. -/
def scan_escape : List UInt8 → Option (List UInt8 × List UInt8)
  | [] => none
  | current :: input =>
    if current = 'u'.toUInt8 then scan_unicode input
    else (unescape current).map fun c => ([c], input)

/-- `next_byte_in_range`: the bytes that were added. -/
def next_byte_in_range : List (ℕ × ℕ) → List UInt8 → Option (List UInt8 × List UInt8)
  | [], input => some ([], input)
  | _ :: _, [] => none
  | range :: ranges, current :: input =>
    if Utf8.InRange range current then
      (next_byte_in_range ranges input).map fun p => (current :: p.1, p.2)
    else none

/-- A character that is no quotation mark. -/
def scan_char (current : UInt8) (input : List UInt8) : Option (List UInt8 × List UInt8) :=
  if current = '\\'.toUInt8 then scan_escape input
  else if current ≤ 0x1F then none
  else
    match Utf8.ranges current.toNat with
    | none => none
    | some ranges => (next_byte_in_range ranges input).map fun p => (current :: p.1, p.2)

lemma length_get_codepoint_loop {factors : List ℕ} {codepoint codepoint' : ℕ}
    {input rest : List UInt8}
    (h : get_codepoint_loop codepoint factors input = some (codepoint', rest)) :
    rest.length ≤ input.length := by
  induction factors generalizing codepoint input with
  | nil =>
    cases h
    exact le_rfl
  | cons factor factors ih =>
    cases input with
    | nil => cases h
    | cons current input =>
      rw [get_codepoint_loop] at h
      split at h
      · cases h
      · exact (ih h).trans (Nat.le_succ _)

lemma length_scan_low_surrogate {codepoint1 codepoint : ℕ} {input rest : List UInt8}
    (h : scan_low_surrogate codepoint1 input = some (codepoint, rest)) :
    rest.length ≤ input.length := by
  unfold scan_low_surrogate at h
  split at h
  · split_ifs at h
    split at h
    · cases h
    · next hcodepoint2 =>
      split_ifs at h
      obtain ⟨-, rfl⟩ := Prod.mk.inj (Option.some.inj h)
      exact (length_get_codepoint_loop hcodepoint2).trans ((Nat.le_succ _).trans (Nat.le_succ _))
  · cases h

lemma length_scan_unicode {input added rest : List UInt8}
    (h : scan_unicode input = some (added, rest)) : rest.length ≤ input.length := by
  rw [scan_unicode] at h
  split at h
  · cases h
  · next codepoint1 input' hcodepoint =>
    have hle := length_get_codepoint_loop hcodepoint
    split_ifs at h
    · obtain ⟨⟨codepoint, rest'⟩, hlow, heq⟩ := Option.map_eq_some_iff.mp h
      cases heq
      exact (length_scan_low_surrogate hlow).trans hle
    · cases h
      exact hle

lemma length_next_byte_in_range {ranges : List (ℕ × ℕ)} {input added rest : List UInt8}
    (h : next_byte_in_range ranges input = some (added, rest)) : rest.length ≤ input.length := by
  induction ranges generalizing input added with
  | nil =>
    cases h
    exact le_rfl
  | cons range ranges ih =>
    cases input with
    | nil => cases h
    | cons current input =>
      rw [next_byte_in_range] at h
      split_ifs at h
      obtain ⟨⟨added', rest'⟩, hnext, heq⟩ := Option.map_eq_some_iff.mp h
      cases heq
      exact (ih hnext).trans (Nat.le_succ _)

lemma length_scan_char {current : UInt8} {input added rest : List UInt8}
    (h : scan_char current input = some (added, rest)) : rest.length ≤ input.length := by
  rw [scan_char] at h
  split_ifs at h
  · unfold scan_escape at h
    split at h
    · cases h
    · split_ifs at h
      · exact (length_scan_unicode h).trans (Nat.le_succ _)
      · obtain ⟨c, -, heq⟩ := Option.map_eq_some_iff.mp h
        cases heq
        exact Nat.le_succ _
  · split at h
    · cases h
    · obtain ⟨⟨added', rest'⟩, hnext, heq⟩ := Option.map_eq_some_iff.mp h
      cases heq
      exact length_next_byte_in_range hnext

/-- `scan_string`, after the opening quote: `token_buffer`, and what comes after the closing one. -/
def scan_string (token_buffer : List UInt8) : List UInt8 → Option (List UInt8 × List UInt8)
  | [] => none
  | current :: input =>
    if current = '"'.toUInt8 then some (token_buffer, input)
    else
      match _h : scan_char current input with
      | none => none
      | some (added, input') => scan_string (token_buffer ++ added) input'
termination_by input => input.length
decreasing_by exact Nat.lt_succ_of_le (length_scan_char _h)

/-! ### Numbers -/

/-- The labels of `scan_number`. -/
inductive NumberState where
  | minus | zero | any1 | decimal1 | decimal2 | exponent | sign | any2
  deriving DecidableEq

def isDigit (c : UInt8) : Bool := '0'.toUInt8 ≤ c && c ≤ '9'.toUInt8

/-- Where the byte leads; `none` is the default of the switch. -/
def NumberState.next (state : NumberState) (current : UInt8) : Option NumberState :=
  match state with
  | .minus =>
    if current = '0'.toUInt8 then some .zero
    else if isDigit current then some .any1 else none
  | .zero =>
    if current = '.'.toUInt8 then some .decimal1
    else if current = 'e'.toUInt8 ∨ current = 'E'.toUInt8 then some .exponent else none
  | .any1 =>
    if isDigit current then some .any1
    else if current = '.'.toUInt8 then some .decimal1
    else if current = 'e'.toUInt8 ∨ current = 'E'.toUInt8 then some .exponent else none
  | .decimal1 => if isDigit current then some .decimal2 else none
  | .decimal2 =>
    if isDigit current then some .decimal2
    else if current = 'e'.toUInt8 ∨ current = 'E'.toUInt8 then some .exponent else none
  | .exponent =>
    if current = '+'.toUInt8 ∨ current = '-'.toUInt8 then some .sign
    else if isDigit current then some .any2 else none
  | .sign => if isDigit current then some .any2 else none
  | .any2 => if isDigit current then some .any2 else none

/-- The default is `scan_number_done`, not an error. -/
def NumberState.isDone : NumberState → Bool
  | .zero | .any1 | .decimal2 | .any2 => true
  | .minus | .decimal1 | .exponent | .sign => false

/-- `number_type`. -/
inductive NumberType where
  | unsigned | integer | float
  deriving DecidableEq

/-- `number_type` at a label. -/
def NumberType.enter (number_type : NumberType) : NumberState → NumberType
  | .minus => .integer
  | .decimal1 | .exponent => .float
  | _ => number_type

/-- The states from a label on: `number_type` and `token_buffer` at the end. -/
def scan_number_loop (state : NumberState) (number_type : NumberType) (token_buffer : List UInt8) :
    List UInt8 → Option (NumberType × List UInt8 × List UInt8)
  | [] => if state.isDone then some (number_type, token_buffer, []) else none
  | current :: input =>
    match state.next current with
    | some state' =>
      scan_number_loop state' (number_type.enter state') (token_buffer ++ [current]) input
    | none => if state.isDone then some (number_type, token_buffer, current :: input) else none

/-- The value of decimal digits. -/
def decimalValue (digits : List UInt8) : ℕ := digits.foldl (fun n c => 10 * n + (c.toNat - 0x30)) 0

/-- `std::strtoll` on a number without a fraction, before its range is checked. -/
def integerValue : List UInt8 → ℤ
  | [] => 0
  | c :: digits => if c = '-'.toUInt8 then -(decimalValue digits) else decimalValue (c :: digits)

/-- The exponent of a number, with its sign. -/
def exponentValue : List UInt8 → ℤ
  | _ :: sign :: digits =>
    if sign = '-'.toUInt8 then -(decimalValue digits)
    else if sign = '+'.toUInt8 then decimalValue digits
    else decimalValue (sign :: digits)
  | _ => 0

/-- `std::strtod`: the double nearest to the decimal. What is too large for a double is found by
`isFinite`. -/
def strtod (token_buffer : List UInt8) : ℚ :=
  let negative := token_buffer.head? = some '-'.toUInt8
  let rest := if negative then token_buffer.tail else token_buffer
  let digits := rest.takeWhile isDigit
  let rest := rest.dropWhile isDigit
  let fraction := if rest.head? = some '.'.toUInt8 then rest.tail.takeWhile isDigit else []
  let rest := if rest.head? = some '.'.toUInt8 then rest.tail.dropWhile isDigit else rest
  let value : ℚ := decimalValue (digits ++ fraction) * 10 ^ (exponentValue rest - fraction.length)
  FloatFormat.binary64.round (if negative then -value else value)

/-- `scan_number_done`: an integer that is out of range becomes a floating-point number. -/
def numberToken (number_type : NumberType) (token_buffer : List UInt8) : Token :=
  match number_type with
  | .unsigned =>
    let x := decimalValue token_buffer
    if x < 2 ^ 64 then .value_unsigned x else .value_float (strtod token_buffer)
  | .integer =>
    let x := integerValue token_buffer
    if -2 ^ 63 ≤ x ∧ x < 2 ^ 63 then .value_integer x else .value_float (strtod token_buffer)
  | .float => .value_float (strtod token_buffer)

/-- `scan_number`, with the byte that is read. -/
def scan_number (current : UInt8) (input : List UInt8) : Token × List UInt8 :=
  let state : NumberState :=
    if current = '-'.toUInt8 then .minus else if current = '0'.toUInt8 then .zero else .any1
  match scan_number_loop state (NumberType.unsigned.enter state) [current] input with
  | none => (.parse_error, [])
  | some (number_type, token_buffer, input) => (numberToken number_type token_buffer, input)

/-! ### The scanner -/

/-- `scan_literal`, after the first byte. -/
def scan_literal (literal_text : List Char) (return_type : Token) (input : List UInt8) :
    Token × List UInt8 :=
  if literal_text.map Char.toUInt8 <+: input then (return_type, input.drop literal_text.length)
  else (.parse_error, [])

/-- A mark of the order of bytes is read at the begin of the input. -/
def skip_bom : List UInt8 → Option (List UInt8)
  | [] => some []
  | current :: input =>
    if current = 0xEF then
      match input with
      | b :: c :: input => if b = 0xBB ∧ c = 0xBF then some input else none
      | _ => none
    else some (current :: input)

def isWhitespace (current : UInt8) : Bool :=
  current = ' '.toUInt8 || current = '\t'.toUInt8 || current = '\n'.toUInt8 ||
    current = '\r'.toUInt8

/-- The token of a string: `scan_string` leaves no bytes in its buffer that are not a text. -/
def scan_quoted (input : List UInt8) : Token × List UInt8 :=
  match scan_string [] input with
  | none => (.parse_error, [])
  | some (token_buffer, input) =>
    match Utf8.ofBytes token_buffer with
    | none => (.parse_error, [])
    | some s => (.value_string s, input)

/-- The token that begins with the byte. -/
def scan_token (current : UInt8) (input : List UInt8) : Token × List UInt8 :=
  if current = '['.toUInt8 then (.begin_array, input)
  else if current = ']'.toUInt8 then (.end_array, input)
  else if current = '{'.toUInt8 then (.begin_object, input)
  else if current = '}'.toUInt8 then (.end_object, input)
  else if current = ':'.toUInt8 then (.name_separator, input)
  else if current = ','.toUInt8 then (.value_separator, input)
  else if current = 't'.toUInt8 then scan_literal ['r', 'u', 'e'] .literal_true input
  else if current = 'f'.toUInt8 then scan_literal ['a', 'l', 's', 'e'] .literal_false input
  else if current = 'n'.toUInt8 then scan_literal ['u', 'l', 'l'] .literal_null input
  else if current = '"'.toUInt8 then scan_quoted input
  else if current = '-'.toUInt8 ∨ isDigit current then scan_number current input
  else if current = 0 then (.end_of_input, input)
  else (.parse_error, [])

/-- `scan`, after the mark of the order of bytes. -/
def scan (input : List UInt8) : Token × List UInt8 :=
  match input.dropWhile isWhitespace with
  | [] => (.end_of_input, [])
  | current :: input => scan_token current input

/-! ### All tokens -/

variable {input rest : List UInt8}

lemma length_scan_string {token_buffer token_buffer' : List UInt8}
    (h : scan_string token_buffer input = some (token_buffer', rest)) :
    rest.length ≤ input.length := by
  fun_induction scan_string token_buffer input with
  | case1 => cases h
  | case2 token_buffer input =>
    cases h
    exact Nat.le_succ _
  | case3 token_buffer current input hne hchar => cases h
  | case4 token_buffer current input hne added input' hchar ih =>
    exact (ih h).trans ((length_scan_char hchar).trans (Nat.le_succ _))

lemma length_scan_number_loop {state : NumberState} {number_type number_type' : NumberType}
    {token_buffer token_buffer' : List UInt8}
    (h : scan_number_loop state number_type token_buffer input =
      some (number_type', token_buffer', rest)) : rest.length ≤ input.length := by
  induction input generalizing state number_type token_buffer with
  | nil =>
    rw [scan_number_loop] at h
    split_ifs at h
    cases h
    exact le_rfl
  | cons current input ih =>
    rw [scan_number_loop] at h
    split at h
    · exact (ih h).trans (Nat.le_succ _)
    · split_ifs at h
      cases h
      exact le_rfl

lemma length_scan_literal (literal_text : List Char) (return_type : Token) :
    (scan_literal literal_text return_type input).2.length ≤ input.length := by
  rw [scan_literal]
  split_ifs
  · exact (List.drop_sublist _ _).length_le
  · exact Nat.zero_le _

lemma length_ite {p : Prop} [Decidable p] {a b : Token × List UInt8} {n : ℕ}
    (ha : a.2.length ≤ n) (hb : b.2.length ≤ n) : (if p then a else b).2.length ≤ n := by
  split_ifs
  · exact ha
  · exact hb

lemma length_scan_quoted : (scan_quoted input).2.length ≤ input.length := by
  rw [scan_quoted]
  split
  · exact Nat.zero_le _
  · next hstring =>
    split
    · exact Nat.zero_le _
    · exact length_scan_string hstring

lemma length_scan_number (current : UInt8) :
    (scan_number current input).2.length ≤ input.length := by
  rw [scan_number]
  split
  · exact Nat.zero_le _
  · next hnumber => exact length_scan_number_loop hnumber

/-- A token comes with what is left of the input. -/
lemma length_scan_token (current : UInt8) : (scan_token current input).2.length ≤ input.length := by
  have hword : ∀ literal_text return_type,
      (scan_literal literal_text return_type input).2.length ≤ input.length := length_scan_literal
  exact length_ite le_rfl (length_ite le_rfl (length_ite le_rfl (length_ite le_rfl
    (length_ite le_rfl (length_ite le_rfl (length_ite (hword _ _) (length_ite (hword _ _)
      (length_ite (hword _ _) (length_ite length_scan_quoted (length_ite (length_scan_number current)
        (length_ite le_rfl (Nat.zero_le _))))))))))))

lemma length_scan (h : (scan input).1 ≠ .end_of_input) :
    (scan input).2.length < input.length := by
  have hle := (List.dropWhile_sublist isWhitespace (l := input)).length_le
  rw [scan] at h ⊢
  cases hinput : input.dropWhile isWhitespace with
  | nil =>
    rw [hinput] at h
    exact absurd rfl h
  | cons current input' =>
    rw [hinput] at hle
    exact (Nat.lt_succ_of_le (length_scan_token current)).trans_le hle

/-- What the calls of `scan` return one after the other, until the end or an error. -/
def tokens (input : List UInt8) : List Token :=
  if _h : (scan input).1 = .end_of_input then [.end_of_input]
  else if (scan input).1 = .parse_error then [.parse_error]
  else (scan input).1 :: tokens (scan input).2
termination_by input.length
decreasing_by exact length_scan _h

end Lexer

end ServerUnit
