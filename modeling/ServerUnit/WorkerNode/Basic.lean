import ServerUnit.Lib.Heap
import ServerUnit.Packet

/-!
# Workers and their packets (`worker_node/worker.cpp`, `sched/timeout.cpp`)

The objects of the server refer to one another by pointers, so each kind of object has a
heap and a reference is an address in it. This file has the objects of one worker: its
packets, its two queues, and the timer list that its packets are put on.

A call on a worker takes the worker, the timer and the packet heap, and returns them changed.
The semaphores are kept with their values: `workerLock` is posted and waited exactly where
the source does it.
-/

namespace ServerUnit

open Lib

abbrev WORKER_QUEUE_SIZE : ℕ := 20

/-- `Worker*`. -/
abbrev WorkerRef := ℕ

/-- `OutPacket*`. -/
abbrev OutPacketRef := ℕ

/-- `OutgoingDataState*`. -/
abbrev OutDataRef := ℕ

/-- `OutPacket`: a packet on its way to a worker. -/
structure OutPacket where
  packet : ServerPacket
  outData : Option OutDataRef
  ackable : Bool
  status : Bool
  deriving DecidableEq

/-- The constructor: `status.initFlag()` sets the flag. -/
def OutPacket.new (packet : ServerPacket) (outData : Option OutDataRef) (ackable : Bool) :
    OutPacket :=
  { packet, outData, ackable, status := true }

def OutPacket.checkOut (o : OutPacket) : OutPacket := { o with status := false }

/-- The packet's own flag; the call checks its worker in first. -/
def OutPacket.checkIn (o : OutPacket) : OutPacket := { o with status := true }

/-- `OutgoingDataState`: one table on its way. The constructor leaves `worker` without a
value, which is `none` here. -/
structure OutgoingDataState where
  id : String
  taskStatus : UserTaskStatus
  worker : Option WorkerRef
  deriving DecidableEq

/-- `WorkerStats`, with the queue time taken exactly. -/
structure WorkerStats where
  totalAvilableThreads : ℤ
  taskQueue : List ℤ
  avgQueueTime : ℚ
  deriving DecidableEq

/-- The default constructor. -/
def WorkerStats.zero : WorkerStats := ⟨0, [], 0⟩

/-! ### The timer list -/

structure Timeout where
  timedoutWorkerRegistry : List WorkerRef
  timedPackets : List OutPacketRef
  timeoutListLock : ℕ
  deriving DecidableEq

def Timeout.new : Timeout := ⟨[], [], 1⟩

def Timeout.addPacket (t : Timeout) (outPacket : OutPacketRef) : Outcome Timeout := do
  let lock ← semWait t.timeoutListLock
  return { t with
    timedPackets := t.timedPackets ++ [outPacket]
    timeoutListLock := semPost lock }

def Timeout.popPacket (t : Timeout) (outPacket : OutPacketRef) : Outcome Timeout := do
  let lock ← semWait t.timeoutListLock
  return { t with
    timedPackets := t.timedPackets.filter (· ≠ outPacket)
    timeoutListLock := semPost lock }

@[simp] lemma Timeout.addPacket_eq_ok {t t' : Timeout} {p : OutPacketRef} :
    t.addPacket p = .ok t' ↔
      0 < t.timeoutListLock ∧ t' = { t with timedPackets := t.timedPackets ++ [p] } := by
  obtain ⟨ws, ps, _ | n⟩ := t <;> simp [Timeout.addPacket, semWait, semPost, eq_comm]

@[simp] lemma Timeout.popPacket_eq_ok {t t' : Timeout} {p : OutPacketRef} :
    t.popPacket p = .ok t' ↔
      0 < t.timeoutListLock ∧ t' = { t with timedPackets := t.timedPackets.filter (· ≠ p) } := by
  obtain ⟨ws, ps, _ | n⟩ := t <;> simp [Timeout.popPacket, semWait, semPost, eq_comm]

/-! ### Workers -/

structure Worker where
  workerUID : String
  senderQueue : List OutPacketRef
  ackPendingQueue : List OutPacketRef
  attendance : Bool
  ackPacketPop : Bool
  quickSendMode : Bool
  workerReady : Bool
  workerLock : ℕ
  workerStats : WorkerStats
  deriving DecidableEq

namespace Worker

/-- The constructor `Worker(std::string workerUID)`. -/
def new (workerUID : String) : Worker :=
  { workerUID, senderQueue := [], ackPendingQueue := [], attendance := true,
    ackPacketPop := false, quickSendMode := false, workerReady := false, workerLock := 1,
    workerStats := .zero }

def checkIn (w : Worker) : Worker := { w with attendance := true }

def checkOut (w : Worker) : Worker := { w with attendance := false }

/-- Returns `1`, leaving the packet out, when the queue is over its limit. -/
def queuePacket (w : Worker) (packet : OutPacketRef) : Outcome (Worker × ℕ) :=
  if w.senderQueue.length > WORKER_QUEUE_SIZE then
    return (w, 1)
  else do
    let lock ← semWait w.workerLock
    return ({ w with senderQueue := w.senderQueue ++ [packet], workerLock := semPost lock }, 0)

/-- The second half of `getQueuedPacket`, from the test of `senderQueue.size()` on. An empty
packet is `none`. -/
def sendQueued (mem : Heap OutPacket) (timer : Timeout) (w : Worker) :
    Outcome (Worker × Timeout × Option ServerPacket) :=
  match w.senderQueue with
  | [] => return ({ w with workerLock := semPost w.workerLock }, timer, none)
  | p :: queue => do
    let outPacket ← mem.deref p
    if outPacket.ackable then
      if w.ackPendingQueue.length > WORKER_QUEUE_SIZE / 2 then
        match ← splitFirst (fun q => do return !(← mem.deref q).ackable) w.senderQueue with
        | some (before, _, after) => do
          -- `erase(i--)` leaves `i` on the packet before the erased one: that one is returned
          let previous ← Outcome.ofOption before.getLast?
          let returned ← mem.deref previous
          return ({ w with senderQueue := before ++ after, workerLock := semPost w.workerLock },
            timer, some returned.packet)
        | none => return ({ w with workerLock := semPost w.workerLock }, timer, none)
      else do
        let timer ← timer.addPacket p
        return ({ w with
            senderQueue := queue
            ackPendingQueue := w.ackPendingQueue ++ [p]
            workerLock := semPost w.workerLock },
          timer, some outPacket.packet)
    else
      return ({ w with senderQueue := queue, workerLock := semPost w.workerLock },
        timer, some outPacket.packet)

def getQueuedPacket (mem : Heap OutPacket) (timer : Timeout) (w : Worker) :
    Outcome (Worker × Timeout × Option ServerPacket) := do
  let lock ← semWait w.workerLock
  if w.ackPacketPop then
    let w := { w with ackPacketPop := false, workerLock := semPost lock }
    match w.ackPendingQueue with
    | p :: _ => do
      let outPacket ← mem.deref p
      return (w, timer, some outPacket.packet)
    -- the flag should have been off: go on, without the lock
    | [] => w.sendQueued mem timer
  else
    sendQueued mem timer { w with workerLock := lock }

/-- Sizes are unsigned, so the difference wraps, and it is read as an `int`. -/
def getQueueSize (w : Worker) : ℤ :=
  Int.bmod (WORKER_QUEUE_SIZE * (1 / 2) - (w.senderQueue.length + w.ackPendingQueue.length))
    (2 ^ 32)

/-- `outPacket->getOutDataState()->id == id`. -/
def hasId (mem : Heap OutPacket) (states : Heap OutgoingDataState) (id : String)
    (p : OutPacketRef) : Outcome Bool := do
  let outPacket ← mem.deref p
  let outData ← Outcome.ofOption outPacket.outData
  let outDataState ← states.deref outData
  return outDataState.id == id

/-- The queues hold no null pointers, so the test for one is left out. -/
def matchAckablePacket (mem : Heap OutPacket) (states : Heap OutgoingDataState)
    (timer : Timeout) (w : Worker) (id : String) :
    Outcome (Worker × Timeout × Heap OutPacket × Bool) := do
  let lock ← semWait w.workerLock
  match ← splitFirst (hasId mem states id) w.ackPendingQueue with
  | some (before, p, after) => do
    let timer ← timer.popPacket p
    return ({ w with ackPendingQueue := before ++ after, workerLock := semPost lock },
      timer, mem.free p, true)
  | none => return ({ w with workerLock := semPost lock }, timer, mem, false)

def shutDown (w : Worker) : Outcome (Worker × List OutPacketRef) := do
  let lock ← semWait w.workerLock
  return ({ w with workerLock := semPost lock }, w.ackPendingQueue ++ w.senderQueue)

def pushToFront (w : Worker) (outPacket : OutPacketRef) : Outcome Worker := do
  let lock ← semWait w.workerLock
  return { w with
    ackPendingQueue := outPacket :: w.ackPendingQueue.filter (· ≠ outPacket)
    ackPacketPop := true
    workerLock := semPost lock }

end Worker

end ServerUnit
