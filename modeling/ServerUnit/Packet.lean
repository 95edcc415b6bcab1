import ServerUnit.Lib.FloatFormat
import ServerUnit.Lib.Outcome
import ServerUnit.Task
import Mathlib.Data.Rat.Floor

/-!
# Packets (`include/packet.hpp`, `packet_processor/packet_constructor.cpp`)

A worker's packet is an arbitrary JSON value: nothing but the presence of a head and an id
is known of it, so it is kept as a tree. A server packet is always built by
`PacketConstructor::create` from one of three kinds of body, so it is a record.
-/

namespace ServerUnit

open Lib

/-! ### JSON values -/

/-- A JSON value. Numbers are integers or doubles, the latter as the rationals they are. -/
inductive Json where
  | null
  | bool (b : Bool)
  | int (n : ℤ)
  | float (q : ℚ)
  | str (s : String)
  | arr (l : List Json)
  | obj (fields : List (String × Json))

namespace Json

/-- The member of an object under a key; `null` when there is none. -/
def member (fields : List (String × Json)) (key : String) : Json :=
  (fields.lookup key).getD .null

/-- `json["key"]`: a `null` is read as an empty object, any other non-object throws. -/
def index (key : String) : Json → Outcome Json
  | obj fields => .ok (member fields key)
  | null       => .ok .null
  | _          => .error .exception

/-- Conversion to `std::string`: anything but a string throws. -/
def toStr : Json → Outcome String
  | str s => .ok s
  | _     => .error .exception

/-- A floating-point value cut to an integer. -/
def truncate (q : ℚ) : ℤ := if 0 ≤ q then ⌊q⌋ else ⌈q⌉

/-- Conversion to `int`: an integer keeps its low 32 bits, a floating-point value is
truncated, and is undefined out of range. -/
def toInt : Json → Outcome (BitVec 32)
  | int n   => .ok (BitVec.ofInt 32 n)
  | float q =>
    if -2 ^ 31 ≤ truncate q ∧ truncate q < 2 ^ 31 then .ok (BitVec.ofInt 32 (truncate q))
    else .error .undefined
  | bool b  => .ok (if b then 1 else 0)
  | _       => .error .exception

/-- Conversion to `double`: the nearest one. -/
def toDouble : Json → Outcome ℚ
  | int n   => .ok (FloatFormat.binary64.round n)
  | float q => .ok q
  | _       => .error .exception

/-- The schema type `"number"`: the value of a number. -/
def number? : Json → Option ℚ
  | int n   => some n
  | float q => some q
  | _       => none

/-- The schema type `"string"`. -/
def string? : Json → Option String
  | str s => some s
  | _     => none

end Json

/-! ### Codes -/

/-- `ComputeUnitPacketStatus`: the bits of a worker packet's head. -/
abbrev P_RESET : BitVec 32 := 1 <<< 0
abbrev P_DATA_ACK : BitVec 32 := 1 <<< 2
abbrev P_INTR_RES : BitVec 32 := 1 <<< 3
abbrev P_FINAL_RES : BitVec 32 := 1 <<< 4
abbrev P_ERR : BitVec 32 := 1 <<< 5
abbrev P_QSEND : BitVec 32 := 1 <<< 6

/-- `ServerPacketCodes`. -/
inductive ServerPacketCodes where
  | spHandshake | spDataSent | spIntrAck | spFresAck | spErr | spIgnore
  deriving DecidableEq, Repr

/-! ### Server packets -/

/-- The body of a server packet: none, a template, or a user-data table. -/
inductive PacketBody where
  | empty
  | template (instanceid : String) (algotype : UInt8) (data : String)
  | userData (tableid : String) (priority : TaskPriority) (instancetype data : String)
  deriving DecidableEq

/-- A packet the server sends. -/
structure ServerPacket where
  head : ServerPacketCodes
  id : String
  body : PacketBody
  deriving DecidableEq

/-- `PacketConstructor::create`. -/
def PacketConstructor.create (code : ServerPacketCodes) (workerUid : String)
    (body : PacketBody := .empty) : ServerPacket :=
  { head := code, id := workerUid, body := body }

end ServerUnit
