import ServerUnit.PacketProcessor.Exceptions
import ServerUnit.PacketProcessor.Reception

/-!
# Sessions (`socket/socket.cpp`, `socket/prevalidate_json.cpp`)

A worker talks to the server over a connection, which has a session. The handler `on_read` of a
session runs on one of the threads of `startSocket`, from the message to the answer: it registers
the worker or hands its packet to a validator, and then asks for the worker's next packet again and
again. The program is the sessions, the server with its scheduler, and the threads that read the
database and run the timer. Each statement of a handler that reads or changes what is shared is one
step, and so is each call of `generateWorkerUid`, `pushObject`, `getQueuedPacket` or of a process,
though other threads can come in between the statements of these. `Socket.Overlap` splits the first
two, and the `popObject` of a validator.
-/

namespace ServerUnit

open Lib

/-- `JsonPrevalidator::checkQuickSendBit`. -/
def checkQuickSendBit (packet : Json) : Outcome Bool := do
  let headerBits ← (← packet.index "head").toInt
  return headerBits &&& P_QSEND ≠ 0

/-! ### Quick send mode -/

namespace Worker

def setQuickSendMode (w : Worker) : Worker := { w with quickSendMode := true }

def resetQuickSendMode (w : Worker) : Worker :=
  if w.quickSendMode then { w with quickSendMode := false } else w

def isQuickSendMode (w : Worker) : Bool := w.quickSendMode

end Worker

namespace Server

/-- The worker is set to the mode that its packet asks for. -/
def setMode (s : Server) (worker : WorkerRef) (packet : Json) : Outcome Server := do
  let quick ← checkQuickSendBit packet
  let w ← s.workerRegistry.workers.deref worker
  return s.putWorker worker (if quick then w.setQuickSendMode else w.resetQuickSendMode)

/-- `worker->getQueuedPacket()`. -/
def getQueuedPacketOf (s : Server) (worker : WorkerRef) :
    Outcome (Server × Option ServerPacket) := do
  let w ← s.workerRegistry.workers.deref worker
  let (w, packetTimeout, packet) ← w.getQueuedPacket s.outPackets s.packetTimeout
  return ({ s with packetTimeout }.putWorker worker w, packet)

end Server

/-! ### Sessions -/

/-- An address of a `session`. -/
abbrev SessionRef := ℕ

/-- Where a session stands. -/
inductive SessionPc where
  /-- A message is waited for. -/
  | reading
  /-- In `on_read`: no worker has the id of the packet. -/
  | unknown
  | identified (worker : WorkerRef)
  | modeSet (worker : WorkerRef)
  | pushed (worker : WorkerRef)
  /-- About to call `getQueuedPacket`. -/
  | polling (worker : WorkerRef)
  /-- The worker had no packet. -/
  | polled (worker : WorkerRef)
  /-- About to call `ws_.write`. -/
  | writing (outPacket : ServerPacket)
  /-- `async_write` was called, and `on_read` has returned. -/
  | rewriting (outPacket : ServerPacket)
  | closed
  deriving DecidableEq

namespace SessionPc

/-- A packet is being handled, and its answer is not known. -/
def isHandling : SessionPc → Bool
  | reading | writing _ | rewriting _ | closed => false
  | _ => true

/-- `on_read` is running. -/
def isBusy : SessionPc → Bool
  | reading | rewriting _ | closed => false
  | _ => true

def isPushed : SessionPc → Bool
  | pushed _ => true
  | _ => false

/-- The local variable `worker`. -/
def worker? : SessionPc → Option WorkerRef
  | identified worker | modeSet worker | pushed worker | polling worker | polled worker =>
    some worker
  | _ => none

end SessionPc

/-- What is written to a connection: the text of a packet, or what is found in the place of a text
that was destroyed. `async_write` is given the buffer of a temporary string. -/
inductive Frame where
  | text (outPacket : ServerPacket)
  | destroyed (outPacket : ServerPacket)
  deriving DecidableEq

/-- The histories are not in the source: the messages read, each of those that were answered with
its answer, and what was written, all oldest first. A message is what `JsonPrevalidator` makes of
its text, which is `null` for a text that is no JSON. -/
structure Session where
  pc : SessionPc
  packet : Json
  messages : List Json
  exchanges : List (Json × ServerPacket)
  frames : List Frame

namespace Session

/-- A session whose connection was accepted. -/
def new : Session :=
  { pc := .reading, packet := .null, messages := [], exchanges := [], frames := [] }

/-- The session has a packet for an answer. -/
def answer (s : Session) (outPacket : ServerPacket) : Session :=
  { s with pc := .writing outPacket, exchanges := s.exchanges ++ [(s.packet, outPacket)] }

/-- `on_read` begins with a message. -/
def receive (s : Session) (packet : Json) : Session :=
  { s with packet, messages := s.messages ++ [packet] }

end Session

/-! ### The program -/

/-- The threads of `startSocket`. -/
def ioThreads (totalThreads : ℤ) : ℕ := (max 1 totalThreads).toNat

/-- The histories are not in the source: the packets that the receiver sink took and those that a
validator took off it, and the UIDs given to the sessions, all oldest first. -/
structure Program (n : ℕ) extends Reception n where
  threads : ℕ
  connections : Heap Session
  accepted : List Json
  processed : List Json
  issued : List (String × SessionRef)

inductive ProgramEvent (n : ℕ) where
  /-- The listener accepts a connection. -/
  | connect
  /-- `on_read` begins. -/
  | read (c : SessionRef) (packet : Json)
  /-- A session registers a worker; the numbers are those drawn for its UID. -/
  | register (c : SessionRef) (draws : List ℕ)
  | setMode (c : SessionRef)
  /-- A session pushes its packet into the receiver sink. -/
  | push (c : SessionRef)
  | initValidator (c : SessionRef)
  /-- A session calls `getQueuedPacket`. -/
  | poll (c : SessionRef)
  /-- A session whose worker had no packet looks at the worker's mode. -/
  | checkMode (c : SessionRef)
  /-- `ws_.write` returns or throws. -/
  | write (c : SessionRef) (sent : Bool)
  /-- `on_write` is called. -/
  | rewrite (c : SessionRef) (sent : Bool)
  /-- The connection is closed or fails while a message is waited for. -/
  | disconnect (c : SessionRef)
  /-- The scheduler or one of its threads takes a step. -/
  | process (e : ReceptionEvent n)
  /-- A thread that reads the database, or the timer's, makes a call. -/
  | background (e : ServerEvent)

/-- The steps that are not those of a session. -/
def ReceptionEvent.isScheduled {n : ℕ} : ReceptionEvent n → Bool
  | .receivePacket _ | .initValidator => false
  | _ => true

/-- The calls that are not made by sessions or jobs. -/
def ServerEvent.isBackground : ServerEvent → Bool
  | .updateTemplates _ | .pushUserTable _ | .execute => true
  | _ => false

namespace Program

variable {n : ℕ}

def init (s : Server) (n : ℕ) (totalThreads : ℤ) : Program n :=
  { Reception.init s n with
    threads := ioThreads totalThreads
    connections := .empty
    accepted := []
    processed := []
    issued := [] }

/-- The handlers that are running. -/
def busyThreads (x : Program n) : ℕ := x.connections.countP fun s => s.pc.isBusy

/-- A handler is started only when there is a thread for it. -/
def startHandler (x : Program n) (y : Outcome (Program n)) : Outcome (Program n) :=
  Outcome.guard (x.busyThreads < x.threads) y

def putSession (x : Program n) (c : SessionRef) (s : Session) : Program n :=
  { x with connections := x.connections.put c s }

/-- The packet that a call takes off the receiver sink, if any. -/
def taken (x : Program n) : ReceptionEvent n → List Json
  | .startProc i =>
    match (do let (r, _) ← x.sched.currentJob i; x.sched.jobs.deref r : Outcome _) with
    | .ok job => if job.args = .validator then x.server.receiverSink.objects.take 1 else []
    | .error _ => []
  | _ => []

/-- The first part of `on_read`. -/
def read (x : Program n) (c : SessionRef) (s : Session) (packet : Json) :
    Outcome (Program n) :=
  if validateJson packet then do
    let id ← (← packet.index "id").toStr
    match ← x.server.workerRegistry.getWorkerFromUid id with
    | none => return x.putSession c { s.receive packet with pc := .unknown }
    | some worker => return x.putSession c { s.receive packet with pc := .identified worker }
  else
    return x.putSession c ((s.receive packet).answer (PacketConstructor.create .spHandshake ""))

/-- `generateWorkerUid`, and the answer with the UID. -/
def register (x : Program n) (c : SessionRef) (s : Session) (draws : List ℕ) :
    Outcome (Program n) := do
  let (workerRegistry, workerUid) ← x.server.workerRegistry.generateWorkerUid draws
  let server := { x.server with
    workerRegistry, senderCoreData := x.server.senderCoreData.addWorker workerUid }
  return { x.putSession c (s.answer (PacketConstructor.create .spHandshake workerUid)) with
    server
    issued := x.issued ++ [(workerUid, c)] }

/-- `pushObject`, whose return value is ignored. -/
def push [NeZero n] (x : Program n) (c : SessionRef) (s : Session) (worker : WorkerRef) :
    Outcome (Program n) := do
  let reception ← x.toReception.step (.receivePacket s.packet)
  let room := x.server.receiverSink.getCurrentSinkSpace < MAX_POOL_SIZE
  return { x.putSession c { s with pc := .pushed worker } with
    toReception := reception
    accepted := if room then x.accepted ++ [s.packet] else x.accepted }

/-- `getQueuedPacket`: an empty packet is no answer. -/
def poll (x : Program n) (c : SessionRef) (s : Session) (worker : WorkerRef) :
    Outcome (Program n) := do
  let (server, packet) ← x.server.getQueuedPacketOf worker
  let s := match packet with
    | none => { s with pc := .polled worker }
    | some outPacket => s.answer outPacket
  return { x.putSession c s with server }

/-- In quick send mode a handshake is the answer when there is no packet. -/
def checkMode (x : Program n) (c : SessionRef) (s : Session) (worker : WorkerRef) :
    Outcome (Program n) := do
  let w ← x.server.workerRegistry.workers.deref worker
  if w.isQuickSendMode then
    return x.putSession c (s.answer (PacketConstructor.create .spHandshake w.workerUID))
  else
    return x.putSession c { s with pc := .polling worker }

/-- The handlers of a session. -/
def handle [NeZero n] (x : Program n) (c : SessionRef) (s : Session) :
    ProgramEvent n → Outcome (Program n)
  | .read _ packet => x.startHandler (Outcome.guard (s.pc = .reading) (x.read c s packet))
  | .disconnect _ =>
    x.startHandler (Outcome.guard (s.pc = .reading) (return x.putSession c { s with pc := .closed }))
  | .register _ draws => Outcome.guard (s.pc = .unknown) (x.register c s draws)
  | .setMode _ =>
    match s.pc with
    | .identified worker => do
      let server ← x.server.setMode worker s.packet
      return { x.putSession c { s with pc := .modeSet worker } with server }
    | _ => .error .disabled
  | .push _ =>
    match s.pc with
    | .modeSet worker => x.push c s worker
    | _ => .error .disabled
  | .initValidator _ =>
    match s.pc with
    | .pushed worker => do
      let reception ← x.toReception.step .initValidator
      return { x.putSession c { s with pc := .polling worker } with toReception := reception }
    | _ => .error .disabled
  | .poll _ =>
    match s.pc with
    | .polling worker => x.poll c s worker
    | _ => .error .disabled
  | .checkMode _ =>
    match s.pc with
    | .polled worker => x.checkMode c s worker
    | _ => .error .disabled
  | .write _ sent =>
    match s.pc with
    -- nothing catches what `ws_.write` throws
    | .writing outPacket =>
      if sent then
        return x.putSession c
          { s with pc := .rewriting outPacket, frames := s.frames ++ [.text outPacket] }
      else .error .exception
    | _ => .error .disabled
  | .rewrite _ sent =>
    match s.pc with
    | .rewriting outPacket =>
      x.startHandler <| return x.putSession c <|
        if sent then { s with pc := .reading, frames := s.frames ++ [.destroyed outPacket] }
        else { s with pc := .closed }
    | _ => .error .disabled
  | _ => .error .disabled

def step [NeZero n] (x : Program n) (e : ProgramEvent n) : Outcome (Program n) :=
  match e with
  | .connect => x.startHandler (return { x with connections := x.connections.alloc .new })
  | .process e =>
    Outcome.guard e.isScheduled do
      let reception ← x.toReception.step e
      return { x with toReception := reception, processed := x.processed ++ x.taken e }
  | .background e =>
    Outcome.guard e.isBackground do
      let server ← x.server.step e
      return { x with server }
  | .read c _ | .register c _ | .setMode c | .push c | .initValidator c | .poll c | .checkMode c
  | .write c _ | .rewrite c _ | .disconnect c => do
    let s ← x.connections.deref c
    x.handle c s e

end Program

end ServerUnit
