import ServerUnit.Packet
import ServerUnit.Lib.Utf8

/-!
# Texts of JSON values (`serializer` of `include/json.hpp`)

`dump` as the server calls it: without indentation, without escapes of what is not ASCII, and with
the error handler that throws at bytes that are no UTF-8. The packets of the server have no
floating-point numbers in them, whose digits are not modelled.
-/

namespace ServerUnit

open Lib

namespace Serializer

/-! ### Strings -/

abbrev UTF8_ACCEPT : ℕ := 0
abbrev UTF8_REJECT : ℕ := 1

/-- The types of the bytes, and the states that follow a state at a type. -/
def utf8d : List ℕ :=
  [0, 0, 0, 0, 0, 0, 0, 0, 0, 0, 0, 0, 0, 0, 0, 0, 0, 0, 0, 0, 0, 0, 0, 0, 0, 0, 0, 0, 0, 0, 0, 0,
    0, 0, 0, 0, 0, 0, 0, 0, 0, 0, 0, 0, 0, 0, 0, 0, 0, 0, 0, 0, 0, 0, 0, 0, 0, 0, 0, 0, 0, 0, 0, 0,
    0, 0, 0, 0, 0, 0, 0, 0, 0, 0, 0, 0, 0, 0, 0, 0, 0, 0, 0, 0, 0, 0, 0, 0, 0, 0, 0, 0, 0, 0, 0, 0,
    0, 0, 0, 0, 0, 0, 0, 0, 0, 0, 0, 0, 0, 0, 0, 0, 0, 0, 0, 0, 0, 0, 0, 0, 0, 0, 0, 0, 0, 0, 0, 0,
    1, 1, 1, 1, 1, 1, 1, 1, 1, 1, 1, 1, 1, 1, 1, 1, 9, 9, 9, 9, 9, 9, 9, 9, 9, 9, 9, 9, 9, 9, 9, 9,
    7, 7, 7, 7, 7, 7, 7, 7, 7, 7, 7, 7, 7, 7, 7, 7, 7, 7, 7, 7, 7, 7, 7, 7, 7, 7, 7, 7, 7, 7, 7, 7,
    8, 8, 2, 2, 2, 2, 2, 2, 2, 2, 2, 2, 2, 2, 2, 2, 2, 2, 2, 2, 2, 2, 2, 2, 2, 2, 2, 2, 2, 2, 2, 2,
    0xA, 0x3, 0x3, 0x3, 0x3, 0x3, 0x3, 0x3, 0x3, 0x3, 0x3, 0x3, 0x3, 0x4, 0x3, 0x3,
    0xB, 0x6, 0x6, 0x6, 0x5, 0x8, 0x8, 0x8, 0x8, 0x8, 0x8, 0x8, 0x8, 0x8, 0x8, 0x8,
    0x0, 0x1, 0x2, 0x3, 0x5, 0x8, 0x7, 0x1, 0x1, 0x1, 0x4, 0x6, 0x1, 0x1, 0x1, 0x1,
    1, 1, 1, 1, 1, 1, 1, 1, 1, 1, 1, 1, 1, 1, 1, 1, 1, 0, 1, 1, 1, 1, 1, 0, 1, 0, 1, 1, 1, 1, 1, 1,
    1, 2, 1, 1, 1, 1, 1, 2, 1, 2, 1, 1, 1, 1, 1, 1, 1, 1, 1, 1, 1, 1, 1, 2, 1, 1, 1, 1, 1, 1, 1, 1,
    1, 2, 1, 1, 1, 1, 1, 1, 1, 2, 1, 1, 1, 1, 1, 1, 1, 1, 1, 1, 1, 1, 1, 3, 1, 3, 1, 1, 1, 1, 1, 1,
    1, 3, 1, 1, 1, 1, 1, 3, 1, 3, 1, 1, 1, 1, 1, 1, 1, 3, 1, 1, 1, 1, 1, 1, 1, 1, 1, 1, 1, 1, 1, 1]

/-- One byte of UTF-8: the state and the code point after it. -/
def decode (state codep : ℕ) (byte : UInt8) : ℕ × ℕ :=
  let type := utf8d.getD byte.toNat 0
  let codep :=
    if state ≠ UTF8_ACCEPT then (byte.toNat &&& 0x3F) ||| (codep <<< 6)
    else (0xFF >>> type) &&& byte.toNat
  (utf8d.getD (256 + state * 16 + type) 0, codep)

/-- `%04x`. -/
def hexDigits (n : ℕ) : List UInt8 :=
  [n / 4096 % 16, n / 256 % 16, n / 16 % 16, n % 16].map fun d =>
    if d < 10 then .ofNat (0x30 + d) else .ofNat (0x57 + d)

/-- What is written for a code point that ends with the byte. -/
def escaped (codepoint : ℕ) (byte : UInt8) : List UInt8 :=
  if codepoint = 0x08 then ['\\', 'b'].map Char.toUInt8
  else if codepoint = 0x09 then ['\\', 't'].map Char.toUInt8
  else if codepoint = 0x0A then ['\\', 'n'].map Char.toUInt8
  else if codepoint = 0x0C then ['\\', 'f'].map Char.toUInt8
  else if codepoint = 0x0D then ['\\', 'r'].map Char.toUInt8
  else if codepoint = 0x22 then ['\\', '"'].map Char.toUInt8
  else if codepoint = 0x5C then ['\\', '\\'].map Char.toUInt8
  else if codepoint ≤ 0x1F then ['\\', 'u'].map Char.toUInt8 ++ hexDigits codepoint
  else [byte]

/-- The loop over the bytes. -/
def dump_escaped_loop (state codepoint : ℕ) (written : List UInt8) :
    List UInt8 → Outcome (List UInt8)
  | [] => if state = UTF8_ACCEPT then return written else .error .exception
  | byte :: s =>
    let (state, codepoint) := decode state codepoint byte
    if state = UTF8_ACCEPT then
      dump_escaped_loop state codepoint (written ++ escaped codepoint byte) s
    else if state = UTF8_REJECT then
      .error .exception
    else
      dump_escaped_loop state codepoint (written ++ [byte]) s

def dump_escaped (s : List UInt8) : Outcome (List UInt8) := dump_escaped_loop UTF8_ACCEPT 0 [] s

/-! ### Integers -/

def count_digits (x : ℕ) : ℕ :=
  if x < 10 then 1
  else if x < 100 then 2
  else if x < 1000 then 3
  else if x < 10000 then 4
  else count_digits (x / 10000) + 4

/-- The character of a digit. -/
def digit (d : ℕ) : UInt8 := .ofNat (0x30 + d)

/-- The loop that writes the digits of a number from the last one on, two at a time, in front of
those that are written. -/
def writeDigits (abs_value : ℕ) (written : List UInt8) : List UInt8 :=
  if 100 ≤ abs_value then
    let digits_index := abs_value % 100
    writeDigits (abs_value / 100) (digit (digits_index / 10) :: digit (digits_index % 10) :: written)
  else if 10 ≤ abs_value then
    digit (abs_value / 10) :: digit (abs_value % 10) :: written
  else
    digit abs_value :: written

/-- The buffer is written to the end of the last digit, whose place is counted before. -/
def dump_integer (x : ℤ) : Outcome (List UInt8) :=
  if x = 0 then return ['0'.toUInt8]
  else
    let sign := if x < 0 then ['-'.toUInt8] else []
    let digits := writeDigits x.natAbs []
    if digits.length = count_digits x.natAbs then return sign ++ digits else .error .undefined

/-! ### Values -/

/-- A string between quotation marks. -/
def dump_string (s : String) : Outcome (List UInt8) := do
  let written ← dump_escaped (Utf8.bytes s)
  return '"'.toUInt8 :: written ++ ['"'.toUInt8]

mutual

def dump : Json → Outcome (List UInt8)
  | .null       => return ['n', 'u', 'l', 'l'].map Char.toUInt8
  | .bool true  => return ['t', 'r', 'u', 'e'].map Char.toUInt8
  | .bool false => return ['f', 'a', 'l', 's', 'e'].map Char.toUInt8
  | .int n      => dump_integer n
  | .float _    => .error .disabled
  | .str s      => dump_string s
  | .arr l => do
    let elements ← dumpElements l
    return '['.toUInt8 :: elements ++ [']'.toUInt8]
  | .obj fields => do
    let members ← dumpMembers fields
    return '{'.toUInt8 :: members ++ ['}'.toUInt8]

/-- The elements of an array, with commas between them. -/
def dumpElements : List Json → Outcome (List UInt8)
  | [] => return []
  | [j] => dump j
  | j :: l => do
    let element ← dump j
    let elements ← dumpElements l
    return element ++ ','.toUInt8 :: elements

/-- The members of an object. -/
def dumpMembers : List (String × Json) → Outcome (List UInt8)
  | [] => return []
  | [(key, j)] => do
    let name ← dump_string key
    let value ← dump j
    return name ++ ':'.toUInt8 :: value
  | (key, j) :: fields => do
    let name ← dump_string key
    let value ← dump j
    let members ← dumpMembers fields
    return name ++ ':'.toUInt8 :: value ++ ','.toUInt8 :: members

end

end Serializer

end ServerUnit
