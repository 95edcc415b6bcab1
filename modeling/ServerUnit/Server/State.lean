import ServerUnit.PacketProcessor.OutgoingDataRegistry
import ServerUnit.SenderUnit.Templates
import ServerUnit.Sink.Basic

/-!
# The state of the server

The global objects of `main.cpp` in one record, with the heaps their pointers go into. Two
variables of the source are read before they are ever set: the local flag of
`OutgoingDataRegistry::add` and the field `starveCounter` of a sink item. The values they are
found with are the next ones of `addFlag` and `starveCounter`.
-/

namespace ServerUnit

open Lib

/-- `UserDataTable`: the data a user wants processed. The names and the data are taken to be UTF-8
text: of other bytes `dump` would not make a packet's text. -/
structure UserDataTable where
  userTable : String
  priority : TaskPriority
  instanceName : String
  data : Option String
  deriving DecidableEq

/-- The body of the packet; the data pointer is followed. -/
def UserDataTable.toJson (t : UserDataTable) : Outcome PacketBody := do
  let data ← Outcome.ofOption t.data
  return .userData t.userTable t.priority t.instanceName data

structure SenderCoreData where
  newWorkerList : List String
  pendingPacketsList : List OutPacketRef
  deriving DecidableEq

namespace SenderCoreData

def addWorker (d : SenderCoreData) (workerUid : String) : SenderCoreData :=
  { d with newWorkerList := d.newWorkerList ++ [workerUid] }

def addPackets (d : SenderCoreData) (outData : OutPacketRef) : SenderCoreData :=
  { d with pendingPacketsList := d.pendingPacketsList ++ [outData] }

def isNewWorkerListEmpty (d : SenderCoreData) : Bool := d.newWorkerList.length ≤ 0

def isPendingPacketsListEmpty (d : SenderCoreData) : Bool := !(d.pendingPacketsList.length > 0)

end SenderCoreData

structure Server where
  outPackets : Heap OutPacket
  outgoingDataRegistry : OutgoingDataRegistry
  workerRegistry : WorkerRegistry
  packetTimeout : Timeout
  senderSink : Sink UserDataTable
  receiverSink : Sink Json
  templateRegistry : UserDataTemplate
  workerInstanceList : WorkerInstanceList
  senderCoreData : SenderCoreData
  database : Database
  /-- The files written, with their paths below `HOME_DIR`. -/
  csvFiles : List (String × String)
  addFlag : ℕ → Bool
  starveCounter : ℕ → UInt8

namespace Server

/-- The server as `main` starts it; `sinkMaxSize` is `20` there. -/
def init (addFlag : ℕ → Bool) (starveCounter : ℕ → UInt8) : Server :=
  { outPackets := .empty
    outgoingDataRegistry := .new
    workerRegistry := .new
    packetTimeout := .new
    senderSink := .new 20
    receiverSink := .new 20
    templateRegistry := .new
    workerInstanceList := .new
    senderCoreData := ⟨[], []⟩
    database := []
    csvFiles := []
    addFlag, starveCounter }

/-- The object a worker pointer refers to. -/
abbrev getWorker (s : Server) (worker : WorkerRef) : Option Worker :=
  s.workerRegistry.workers.get worker

/-- Store a worker changed by one of its member functions. -/
def putWorker (s : Server) (worker : WorkerRef) (w : Worker) : Server :=
  { s with workerRegistry :=
    { s.workerRegistry with workers := s.workerRegistry.workers.put worker w } }

/-- `worker->queuePacket(new OutPacket(...))`. -/
def queuePacket (s : Server) (worker : WorkerRef) (packet : OutPacket) :
    Outcome (Server × ℕ) := do
  let w ← s.workerRegistry.workers.deref worker
  let (w, rc) ← w.queuePacket s.outPackets.next
  return ({ s with outPackets := s.outPackets.alloc packet }.putWorker worker w, rc)

/-- `globalOutgoingDataRegistry.add(dataTableName, worker)`. -/
def registryAdd (s : Server) (dataTableName : String) (worker : Option WorkerRef) :
    Outcome Server := do
  let registry ← s.outgoingDataRegistry.add (s.addFlag 0) dataTableName worker
  return { s with outgoingDataRegistry := registry, addFlag := fun n => s.addFlag (n + 1) }

/-- `globalOutgoingDataRegistry.assignWorker(id, worker)`. -/
def assignWorker (s : Server) (id : String) (worker : WorkerRef) : Outcome Server := do
  let (registry, _) ← s.outgoingDataRegistry.assignWorker id worker
  return { s with outgoingDataRegistry := registry }

/-- `globalOutgoingDataRegistry.updateTaskStatus(dataTableName, status)`. -/
def updateTaskStatus (s : Server) (dataTableName : String) (status : UserTaskStatus) :
    Outcome Server := do
  let (registry, database, _) ←
    s.outgoingDataRegistry.updateTaskStatus s.database dataTableName status
  return { s with outgoingDataRegistry := registry, database }

/-- `workerInstanceList.addWorker(workerUid)`. -/
def trackWorker (s : Server) (workerUid : String) : Outcome Server := do
  let (workerInstanceList, workerRegistry) ←
    s.workerInstanceList.addWorker s.workerRegistry workerUid
  return { s with workerInstanceList, workerRegistry }

/-- `workerInstanceList.updateWorker(workerUid, templateId)`. -/
def updateTracking (s : Server) (workerUid templateId : String) : Outcome Server := do
  let (workerInstanceList, workerRegistry) ←
    s.workerInstanceList.updateWorker s.workerRegistry workerUid templateId
  return { s with workerInstanceList, workerRegistry }

/-- A session registers a worker that it does not know. -/
def registerWorker (s : Server) (draws : List ℕ) : Outcome Server := do
  let (workerRegistry, workerUid) ← s.workerRegistry.generateWorkerUid draws
  return { s with workerRegistry, senderCoreData := s.senderCoreData.addWorker workerUid }

/-- `globalUserDataTemplateRegistry.update(templateStruct)`. -/
def updateTemplates (s : Server) (templateStruct : List UserDataTemplateStruct) :
    Outcome Server := do
  let (templateRegistry, workerInstanceList, _) ←
    s.templateRegistry.update s.workerInstanceList templateStruct
  return { s with templateRegistry, workerInstanceList }

/-- The end of one round of `executeUserTableExtractor`: the table goes into the sender sink and
its name into the registry. -/
def pushUserTable (s : Server) (userDataTable : UserDataTable) : Outcome Server := do
  let (senderSink, _) ←
    s.senderSink.pushObject (some userDataTable) userDataTable.priority (s.starveCounter 0)
  { s with senderSink, starveCounter := fun n => s.starveCounter (n + 1) }.registryAdd
    userDataTable.userTable none

/-- A session asks for the next packet of its worker. -/
def getQueuedPacket (s : Server) (workerUid : String) :
    Outcome (Server × Option ServerPacket) := do
  let worker ← Outcome.ofOption (← s.workerRegistry.getWorkerFromUid workerUid)
  let w ← s.workerRegistry.workers.deref worker
  let (w, packetTimeout, packet) ← w.getQueuedPacket s.outPackets s.packetTimeout
  return ({ s with packetTimeout }.putWorker worker w, packet)

/-- `worker->matchAckablePacket(id)`. -/
def matchAckablePacket (s : Server) (worker : WorkerRef) (id : String) :
    Outcome (Server × Bool) := do
  let w ← s.workerRegistry.workers.deref worker
  let (w, packetTimeout, outPackets, found) ←
    w.matchAckablePacket s.outPackets s.outgoingDataRegistry.states s.packetTimeout id
  return ({ s with packetTimeout, outPackets }.putWorker worker w, found)

end Server

end ServerUnit
