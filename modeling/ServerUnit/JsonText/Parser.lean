import ServerUnit.Packet
import ServerUnit.JsonText.Lexer
import Mathlib.Data.List.Lex

/-!
# Values of texts (`parser` and `json_sax_dom_parser` of `include/json.hpp`)

`json::parse` of a C string. The parser takes tokens until one has no place, and builds the value
with a stack of the arrays and objects that are open. An object is a map, whose members are in the
order of the bytes of their keys.
-/

namespace ServerUnit

open Lib

namespace Json

/-- Keys are compared by their bytes. -/
def keyBytes (key : String) : List ℕ := (Utf8.bytes key).map UInt8.toNat

/-- `operator[]` of a map, and the value that is assigned to its element. -/
def insertMember (key : String) (value : Json) : List (String × Json) → List (String × Json)
  | [] => [(key, value)]
  | (key', value') :: fields =>
    if key = key' then (key, value) :: fields
    else if keyBytes key < keyBytes key' then (key, value) :: (key', value') :: fields
    else (key', value') :: insertMember key value fields

end Json

namespace Parser

/-- `std::isfinite`. A result that is rounded without a bound is an infinity from `2 ^ 1024` on. -/
def isFinite (q : ℚ) : Bool := |q| < 2 ^ 1024

/-- An entry of `states` and of `ref_stack`: the elements of an open array, or the members of an
open object and the key that its next value comes under. -/
inductive Frame where
  | array (elements : List Json)
  | object (members : List (String × Json)) (key : String)

/-- A token that is a value. -/
def scalar : Token → Option Json
  | .literal_null => some .null
  | .literal_true => some (.bool true)
  | .literal_false => some (.bool false)
  | .value_string s => some (.str s)
  | .value_unsigned n => some (.int n)
  | .value_integer n => some (.int n)
  | .value_float q => if isFinite q then some (.float q) else none
  | _ => none

mutual

/-- `sax_parse_internal` at a value. -/
def parse_value (states : List Frame) : List Token → Outcome Json
  | [] => .error .exception
  | token :: tokens =>
    match token with
    | .begin_object =>
      match tokens with
      | .end_object :: tokens => evaluate states (.obj []) tokens
      | .value_string key :: .name_separator :: tokens =>
        parse_value (.object [] key :: states) tokens
      | _ => .error .exception
    | .begin_array =>
      match tokens with
      | .end_array :: tokens => evaluate states (.arr []) tokens
      | tokens => parse_value (.array [] :: states) tokens
    | token =>
      match scalar token with
      | some value => evaluate states value tokens
      | none => .error .exception

/-- The evaluation of the state after a value. At the end of the hierarchy, the input has to be at
its end too. -/
def evaluate (states : List Frame) (value : Json) (tokens : List Token) : Outcome Json :=
  match states with
  | [] =>
    match tokens with
    | .end_of_input :: _ => return value
    | _ => .error .exception
  | .array elements :: states =>
    match tokens with
    | .value_separator :: tokens => parse_value (.array (elements ++ [value]) :: states) tokens
    | .end_array :: tokens => evaluate states (.arr (elements ++ [value])) tokens
    | _ => .error .exception
  | .object members key :: states =>
    match tokens with
    | .value_separator :: .value_string key' :: .name_separator :: tokens =>
      parse_value (.object (Json.insertMember key value members) key' :: states) tokens
    | .end_object :: tokens => evaluate states (.obj (Json.insertMember key value members)) tokens
    | _ => .error .exception

end

/-- `json::parse`. The text ends at its first null character. -/
def parse (text : List UInt8) : Outcome Json :=
  match Lexer.skip_bom (text.takeWhile fun c => c ≠ 0) with
  | none => .error .exception
  | some input => parse_value [] (Lexer.tokens input)

end Parser

end ServerUnit
