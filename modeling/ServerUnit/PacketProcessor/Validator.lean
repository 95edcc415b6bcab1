import ServerUnit.PacketProcessor.StatusPacket

/-!
# Received packets (`packet_processor/packet_validator.cpp`, `process_data_packet.cpp`)

The validator job takes a packet off the receiver sink. A packet with the body of a data packet
goes through `ProcessDataPacket` first; every packet goes through `ProcessStatusPacket`.
-/

namespace ServerUnit

open Lib

abbrev FINAL_RESULT_DATA_DIR : String := "/final_result/"
abbrev INTER_RESULT_DATA_DIR : String := "/inter_result/"

/-- `packetSchema`: a string `id`, a string `data` and a number `priority` from `0` to `3`. -/
def isDataPacket : Json → Bool
  | .obj fields =>
    (Json.member fields "id").string?.isSome &&
    (Json.member fields "data").string?.isSome &&
    (match (Json.member fields "priority").number? with
      | some q => 0 ≤ q && q ≤ 3
      | none   => false)
  | _ => false

/-- `packetDataType`. -/
inductive PacketDataType where
  | intermediateResult | finalResult | errorData
  deriving DecidableEq, Repr

structure ProcessDataPacket where
  tableId : String
  data : String
  workerUid : String
  packetStausCode : BitVec 32
  deriving DecidableEq

namespace ProcessDataPacket

/-- The constructor. -/
def ofJson (packet : Json) : Outcome ProcessDataPacket := do
  let body ← packet.index "body"
  let tableId ← (← body.index "id").toStr
  let data ← (← body.index "data").toStr
  let packetStausCode ← (← packet.index "head").toInt
  let workerUid ← (← packet.index "id").toStr
  return { tableId, data, workerUid, packetStausCode }

/-- One bit decides, the intermediate one first. -/
def detectDataType (p : ProcessDataPacket) : PacketDataType :=
  if p.packetStausCode &&& P_INTR_RES ≠ 0 then .intermediateResult
  else if p.packetStausCode &&& P_FINAL_RES ≠ 0 then .finalResult
  else .errorData

/-- Empty data makes no file, and `-1` is returned. -/
def createCsvFromData (p : ProcessDataPacket) (pDataType : PacketDataType) (s : Server) :
    Server × ℤ :=
  if p.data.length = 0 then (s, -1)
  else
    let directory :=
      if pDataType = .intermediateResult then INTER_RESULT_DATA_DIR else FINAL_RESULT_DATA_DIR
    ({ s with csvFiles := s.csvFiles ++ [(directory ++ p.tableId ++ ".csv", p.data)] }, 0)

def pushDataToDb (p : ProcessDataPacket) (s : Server) : Server :=
  { s with
    database :=
      s.database.sqlWriteString p.data USERDAT_RES_COL_ID USERDAT_ALIASNAME_COL_ID p.tableId }

def execute (p : ProcessDataPacket) (s : Server) : Outcome Server := do
  if !(← s.outgoingDataRegistry.findMatchInList p.tableId) then
    return s
  else
    let pDataType := p.detectDataType
    let (s, rc) := p.createCsvFromData pDataType s
    if rc ≠ 0 then
      return s
    else if pDataType ≠ .intermediateResult then
      return p.pushDataToDb s
    else
      return s

end ProcessDataPacket

namespace Server

/-- What `start_validator` does with the packet it took. -/
def processPacket (s : Server) (packet : Json) : Outcome Server := do
  let body ← packet.index "body"
  let s ← if isDataPacket body then do
      let processData ← ProcessDataPacket.ofJson packet
      processData.execute s
    else pure s
  let processStatusPacket ← ProcessStatusPacket.ofJson packet
  s.packetStatusParse processStatusPacket

/-- `start_validator`. -/
def startValidator (s : Server) : Outcome (Server × JobStatus) := do
  let (receiverSink, object) ← s.receiverSink.popObject
  let s := { s with receiverSink }
  match object with
  | none => return (s, .jobDone)
  | some packet => do
    let s ← s.processPacket packet
    return (s, .jobPending)

end Server

end ServerUnit
