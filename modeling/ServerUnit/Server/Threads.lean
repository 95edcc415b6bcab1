import ServerUnit.Lib.Machine
import ServerUnit.Sched.Timeout
import Mathlib.Logic.Function.Basic

/-!
# The threads of the server

The calls of `getQueuedPacket`, `matchAckablePacket` and `Timeout::execute` as threads run them:
every `sem_wait` and `sem_post` is a step, together with the code up to the next one. A thread
is described by where it stands. The timer is run along its re-send path: it removes no worker
and finds no packet of a final table.
-/

namespace ServerUnit

open Lib

/-- A call made on a worker. -/
inductive WorkerCall where
  | getQueuedPacket
  | matchAckablePacket (id : String)
  deriving DecidableEq

/-- The value a call is about to return. -/
inductive ReturnValue where
  /-- `json({})`. -/
  | empty
  /-- The packet that a pointer refers to, which is read after the lock is posted. -/
  | packet (outPacket : OutPacketRef)
  | found (b : Bool)
  deriving DecidableEq

inductive Reply where
  | packet (packet : Option ServerPacket)
  | found (b : Bool)
  deriving DecidableEq

def ReturnValue.reply (mem : Heap OutPacket) : ReturnValue → Outcome Reply
  | .empty => return .packet none
  | .packet outPacket => do
    let o ← mem.deref outPacket
    return .packet (some o.packet)
  | .found b => return .found b

/-- Where a thread stands. The flag `locked` says that the call has the worker's lock: past
the re-send branch of `getQueuedPacket` it goes on without. -/
inductive ThreadPc where
  /-- Not in a call; with what the last one returned. -/
  | idle (last : Option Reply)
  /-- At `sem_wait(&workerLock)`. -/
  | lockWorker (worker : WorkerRef) (call : WorkerCall)
  /-- In the re-send branch, at its `sem_post(&workerLock)`. -/
  | resend (worker : WorkerRef)
  /-- In the re-send branch, at the test of `ackPendingQueue.size()`. -/
  | resendTest (worker : WorkerRef)
  /-- In `addPacket`, at `sem_wait(&timeoutListLock)`. -/
  | addPacket (worker : WorkerRef) (outPacket : OutPacketRef) (locked : Bool)
  /-- In `addPacket`, at `sem_post(&timeoutListLock)`. -/
  | addPacketPost (worker : WorkerRef) (outPacket : OutPacketRef) (locked : Bool)
  /-- In `popPacket`, at `sem_wait(&timeoutListLock)`. -/
  | popPacket (worker : WorkerRef) (outPacket : OutPacketRef)
  /-- In `popPacket`, at `sem_post(&timeoutListLock)`. -/
  | popPacketPost (worker : WorkerRef) (outPacket : OutPacketRef)
  /-- At the last `sem_post(&workerLock)`. -/
  | unlockWorker (worker : WorkerRef) (locked : Bool) (value : ReturnValue)
  deriving DecidableEq

/-- Where the timer stands. -/
inductive TimerPc where
  /-- At `sem_wait(&timeoutListLock)`, or sleeping. -/
  | idle
  /-- In `pushToFront`, at `sem_wait(&workerLock)`, with the packets still to be looked at. -/
  | pushToFront (worker : WorkerRef) (outPacket : OutPacketRef) (rest : List OutPacketRef)
  /-- In `pushToFront`, at `sem_post(&workerLock)`. -/
  | pushToFrontPost (worker : WorkerRef) (rest : List OutPacketRef)
  /-- At `sem_post(&timeoutListLock)`. -/
  | unlockList
  deriving DecidableEq

namespace Server

/-! ### The steps of a call -/

/-- `getQueuedPacket` from the test of `senderQueue.size()` to the next semaphore. -/
def chooseQueued (s : Server) (worker : WorkerRef) (w : Worker) (locked : Bool) :
    Outcome (Server × ThreadPc) :=
  match w.senderQueue with
  | [] => return (s.putWorker worker w, .unlockWorker worker locked .empty)
  | p :: queue => do
    let outPacket ← s.outPackets.deref p
    if outPacket.ackable then
      if w.ackPendingQueue.length > WORKER_QUEUE_SIZE / 2 then
        match ← splitFirst (fun q => do return !(← s.outPackets.deref q).ackable)
            w.senderQueue with
        | some (before, _, after) => do
          let previous ← Outcome.ofOption before.getLast?
          return (s.putWorker worker { w with senderQueue := before ++ after },
            .unlockWorker worker locked (.packet previous))
        | none => return (s.putWorker worker w, .unlockWorker worker locked .empty)
      else
        return (s.putWorker worker w, .addPacket worker p locked)
    else
      return (s.putWorker worker { w with senderQueue := queue },
        .unlockWorker worker locked (.packet p))

/-- The step at the first `sem_wait(&workerLock)`. -/
def lockWorker (s : Server) (worker : WorkerRef) (w : Worker) :
    WorkerCall → Outcome (Server × ThreadPc)
  | .getQueuedPacket => do
    let lock ← semWait w.workerLock
    if w.ackPacketPop then
      return (s.putWorker worker { w with ackPacketPop := false, workerLock := lock },
        .resend worker)
    else
      s.chooseQueued worker { w with workerLock := lock } true
  | .matchAckablePacket id => do
    let lock ← semWait w.workerLock
    let s := s.putWorker worker { w with workerLock := lock }
    match ← splitFirst (Worker.hasId s.outPackets s.outgoingDataRegistry.states id)
        w.ackPendingQueue with
    | some (_, p, _) => return (s, .popPacket worker p)
    | none => return (s, .unlockWorker worker true (.found false))

/-- One step of a thread that is in a call. -/
def threadStep (s : Server) : ThreadPc → Outcome (Server × ThreadPc)
  | .idle _ => .error .disabled
  | .lockWorker worker call => do
    let w ← s.workerRegistry.workers.deref worker
    s.lockWorker worker w call
  | .resend worker => do
    let w ← s.workerRegistry.workers.deref worker
    return (s.putWorker worker { w with workerLock := semPost w.workerLock }, .resendTest worker)
  | .resendTest worker => do
    let w ← s.workerRegistry.workers.deref worker
    match w.ackPendingQueue with
    | p :: _ => do
      let outPacket ← s.outPackets.deref p
      return (s, .idle (some (.packet (some outPacket.packet))))
    | [] => s.chooseQueued worker w false
  | .addPacket worker outPacket locked => do
    let lock ← semWait s.packetTimeout.timeoutListLock
    return ({ s with packetTimeout := { s.packetTimeout with
        timedPackets := s.packetTimeout.timedPackets ++ [outPacket]
        timeoutListLock := lock } },
      .addPacketPost worker outPacket locked)
  | .addPacketPost worker outPacket locked => do
    let w ← s.workerRegistry.workers.deref worker
    -- `pop_front` of an empty list is undefined
    let _ ← Outcome.ofOption w.senderQueue.head?
    return ({ s with packetTimeout := { s.packetTimeout with
        timeoutListLock := semPost s.packetTimeout.timeoutListLock } }.putWorker worker { w with
          ackPendingQueue := w.ackPendingQueue ++ [outPacket]
          senderQueue := w.senderQueue.tail },
      .unlockWorker worker locked (.packet outPacket))
  | .popPacket worker outPacket => do
    let lock ← semWait s.packetTimeout.timeoutListLock
    return ({ s with packetTimeout := { s.packetTimeout with
        timedPackets := s.packetTimeout.timedPackets.filter (· ≠ outPacket)
        timeoutListLock := lock } },
      .popPacketPost worker outPacket)
  | .popPacketPost worker outPacket => do
    let w ← s.workerRegistry.workers.deref worker
    return ({ s with
        packetTimeout := { s.packetTimeout with
          timeoutListLock := semPost s.packetTimeout.timeoutListLock }
        outPackets := s.outPackets.free outPacket }.putWorker worker
          { w with ackPendingQueue := w.ackPendingQueue.erase outPacket },
      .unlockWorker worker true (.found true))
  | .unlockWorker worker _ value => do
    let w ← s.workerRegistry.workers.deref worker
    let reply ← value.reply s.outPackets
    return (s.putWorker worker { w with workerLock := semPost w.workerLock }, .idle (some reply))

/-! ### The steps of the timer -/

/-- The loop of `execute` up to the next semaphore. -/
def scanTimed (s : Server) : List OutPacketRef → Outcome (Server × TimerPc)
  | [] => return (s, .unlockList)
  | p :: timedPackets => do
    let outPacket ← s.outPackets.deref p
    let outData ← Outcome.ofOption outPacket.outData
    let outDataState ← s.outgoingDataRegistry.states.deref outData
    if outPacket.status then
      Outcome.guard (outDataState.taskStatus ≠ .dataFinal)
        (scanTimed { s with outPackets := s.outPackets.put p outPacket.checkOut } timedPackets)
    else do
      let worker ← Outcome.ofOption outDataState.worker
      let w ← s.workerRegistry.workers.deref worker
      if w.attendance then
        return (s, .pushToFront worker p timedPackets)
      else
        let (packetTimeout, registered) := s.packetTimeout.isWorkerRegistered worker
        Outcome.guard (registered = false)
          (return ({ s with packetTimeout }, .pushToFront worker p timedPackets))

def timerStep (s : Server) : TimerPc → Outcome (Server × TimerPc)
  | .idle => do
    let lock ← semWait s.packetTimeout.timeoutListLock
    { s with packetTimeout := { s.packetTimeout with timeoutListLock := lock } }.scanTimed
      s.packetTimeout.timedPackets
  | .pushToFront worker outPacket rest => do
    let w ← s.workerRegistry.workers.deref worker
    let lock ← semWait w.workerLock
    return (s.putWorker worker { w with
        ackPendingQueue := outPacket :: w.ackPendingQueue.filter (· ≠ outPacket)
        ackPacketPop := true
        workerLock := lock },
      .pushToFrontPost worker rest)
  | .pushToFrontPost worker rest => do
    let w ← s.workerRegistry.workers.deref worker
    (s.putWorker worker { w with workerLock := semPost w.workerLock }).scanTimed rest
  | .unlockList =>
    return ({ s with packetTimeout := { s.packetTimeout with
      timeoutListLock := semPost s.packetTimeout.timeoutListLock } }, .idle)

end Server

/-! ### All threads -/

/-- The server with its threads, as many as there are names for them, and its timer. -/
structure Threads (Tid : Type) where
  server : Server
  pc : Tid → ThreadPc
  timer : TimerPc

inductive ThreadEvent (Tid : Type) where
  /-- An idle thread makes a call. -/
  | call (tid : Tid) (worker : WorkerRef) (call : WorkerCall)
  /-- A thread takes one step of its call. -/
  | go (tid : Tid)
  | timer
  deriving DecidableEq

namespace Threads

variable {Tid : Type}

/-- Nobody is in a call. -/
def start (s : Server) : Threads Tid := ⟨s, fun _ => .idle none, .idle⟩

variable [DecidableEq Tid]

def step (s : Threads Tid) : ThreadEvent Tid → Outcome (Threads Tid)
  | .call tid worker call =>
    match s.pc tid with
    | .idle _ => return { s with pc := Function.update s.pc tid (.lockWorker worker call) }
    | _ => .error .disabled
  | .go tid => do
    let (server, pc) ← s.server.threadStep (s.pc tid)
    return { s with server, pc := Function.update s.pc tid pc }
  | .timer => do
    let (server, timer) ← s.server.timerStep s.timer
    return { s with server, timer }

end Threads

end ServerUnit
