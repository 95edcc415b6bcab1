import ServerUnit.Server.Rules

/-!
# The packet timer (`sched/timeout.cpp`)

`Timeout::execute` runs under the lock of the timer list. It goes over the timed packets: one
that was checked in is checked out, one that was not is pushed to the front of a worker's
pending queue, unless the worker is to be removed.
-/

namespace ServerUnit

open Lib

/-- The worker's second strike erases it from the list; a first one enters it. -/
def Timeout.isWorkerRegistered (t : Timeout) (worker : WorkerRef) : Timeout × Bool :=
  if worker ∈ t.timedoutWorkerRegistry then
    ({ t with timedoutWorkerRegistry := t.timedoutWorkerRegistry.erase worker }, true)
  else
    ({ t with timedoutWorkerRegistry := t.timedoutWorkerRegistry ++ [worker] }, false)

namespace Server

/-- The removal of a timed-out worker: its packets go to the sender core. -/
def removeWorker (s : Server) (worker : WorkerRef) : Outcome Server := do
  let (workerRegistry, outPackets) ← s.workerRegistry.deleteWorker worker
  return { s with
    workerRegistry
    senderCoreData := outPackets.foldl SenderCoreData.addPackets s.senderCoreData }

/-- `outDataState->worker->pushToFront(outPacket)`. -/
def pushToFront (s : Server) (worker : WorkerRef) (outPacket : OutPacketRef) :
    Outcome Server := do
  let w ← s.workerRegistry.workers.deref worker
  let w ← w.pushToFront outPacket
  return s.putWorker worker w

/-- The loop of `execute`. The flag says that the call returned from inside the loop. -/
def executeLoop (s : Server) : List OutPacketRef → Outcome (Server × Bool)
  | [] => .ok (s, false)
  | p :: timedPackets => do
    let outPacket ← s.outPackets.deref p
    let outData ← Outcome.ofOption outPacket.outData
    let outDataState ← s.outgoingDataRegistry.states.deref outData
    if outPacket.status then
      if outDataState.taskStatus = .dataFinal then
        -- waits on the list lock, which this call holds; past that, the iterator has lost its
        -- element
        let _ ← s.packetTimeout.popPacket p
        .error .undefined
      else
        executeLoop { s with outPackets := s.outPackets.put p outPacket.checkOut } timedPackets
    else do
      let worker ← Outcome.ofOption outDataState.worker
      let w ← s.workerRegistry.workers.deref worker
      if w.attendance then do
        let s ← s.pushToFront worker p
        s.executeLoop timedPackets
      else
        let (packetTimeout, registered) := s.packetTimeout.isWorkerRegistered worker
        let s := { s with packetTimeout }
        if registered then do
          let s ← s.removeWorker worker
          return (s, true)
        else do
          let s ← s.pushToFront worker p
          s.executeLoop timedPackets

/-- The early return leaves the lock taken. -/
def execute (s : Server) : Outcome Server := do
  let lock ← semWait s.packetTimeout.timeoutListLock
  let (s, returned) ← { s with packetTimeout :=
    { s.packetTimeout with timeoutListLock := lock } }.executeLoop s.packetTimeout.timedPackets
  if returned then
    return s
  else
    return { s with packetTimeout :=
      { s.packetTimeout with timeoutListLock := semPost s.packetTimeout.timeoutListLock } }

/-! ### What the calls can do -/

variable {s s' : Server} {worker : WorkerRef} {p : OutPacketRef} {timedPackets : List OutPacketRef}

lemma pushToFront_eq_ok :
    s.pushToFront worker p = .ok s' ↔ ∃ w, s.getWorker worker = some w ∧ 0 < w.workerLock ∧
      s.putWorker worker { w with
        ackPendingQueue := p :: w.ackPendingQueue.filter (· ≠ p)
        ackPacketPop := true } = s' := by
  simp only [pushToFront, Outcome.bind_eq_ok, Heap.deref_eq_ok, Worker.pushToFront_eq_ok,
    Outcome.pure_eq_ok]
  constructor
  · rintro ⟨w, hw, _, ⟨hlock, rfl⟩, rfl⟩
    exact ⟨w, hw, hlock, rfl⟩
  · rintro ⟨w, hw, hlock, rfl⟩
    exact ⟨w, hw, _, ⟨hlock, rfl⟩, rfl⟩

lemma KeepsWorkers.pushToFront {β : Type*} {f : Worker → β} (hf : Stays f)
    (h : s.pushToFront worker p = .ok s') : KeepsWorkers f s s' := by
  obtain ⟨w, hw, -, rfl⟩ := pushToFront_eq_ok.mp h
  exact put hw rfl (hf w _ _ _ _ _)

lemma isWorkerRegistered_of_mem {timer : Timeout} (h : worker ∈ timer.timedoutWorkerRegistry) :
    timer.isWorkerRegistered worker = ({ timer with
      timedoutWorkerRegistry := timer.timedoutWorkerRegistry.erase worker }, true) :=
  if_pos h

lemma isWorkerRegistered_of_notMem {timer : Timeout}
    (h : worker ∉ timer.timedoutWorkerRegistry) :
    timer.isWorkerRegistered worker = ({ timer with
      timedoutWorkerRegistry := timer.timedoutWorkerRegistry ++ [worker] }, false) :=
  if_neg h

/-- The packet is `o`, of the table `st`. -/
structure Carries (s : Server) (p : OutPacketRef) (o : OutPacket) (st : OutgoingDataState) :
    Prop where
  packet : s.outPackets.get p = some o
  table : ∃ i, o.outData = some i ∧ s.outgoingDataRegistry.states.get i = some st

/-- The packet was not checked in, and its table names the worker, which is `w`. -/
structure Overdue (s : Server) (p : OutPacketRef) (worker : WorkerRef) (w : Worker) : Prop where
  unchecked : ∃ o st, s.Carries p o st ∧ o.status = false ∧ st.worker = some worker
  worker : s.getWorker worker = some w

/-- The worker's first strike. -/
def strike (s : Server) (worker : WorkerRef) : Server :=
  { s with packetTimeout := { s.packetTimeout with
      timedoutWorkerRegistry := s.packetTimeout.timedoutWorkerRegistry ++ [worker] } }

/-- The worker's second strike. -/
def unstrike (s : Server) (worker : WorkerRef) : Server :=
  { s with packetTimeout := { s.packetTimeout with
      timedoutWorkerRegistry := s.packetTimeout.timedoutWorkerRegistry.erase worker } }

/-- What a round of the loop that returns does with the packet `p`, and the rounds that follow. -/
inductive RoundRule (s : Server) (p : OutPacketRef) (timedPackets : List OutPacketRef)
    (s' : Server) (returned : Bool) : Prop where
  /-- It was checked in: it is checked out. -/
  | checkOut (o : OutPacket) (st : OutgoingDataState) (ho : s.Carries p o st)
      (hstatus : o.status = true) (hfinal : st.taskStatus ≠ .dataFinal)
      (hloop : executeLoop { s with outPackets := s.outPackets.put p o.checkOut } timedPackets
        = .ok (s', returned))
  /-- It was not: it is next in line at its worker. -/
  | resend (worker : WorkerRef) (w : Worker) (t : Server) (hw : s.Overdue p worker w)
      (hatt : w.attendance = true) (hpush : s.pushToFront worker p = .ok t)
      (hloop : executeLoop t timedPackets = .ok (s', returned))
  /-- Its worker has not checked in either, and gets its first strike. -/
  | strike (worker : WorkerRef) (w : Worker) (t : Server) (hw : s.Overdue p worker w)
      (habsent : w.attendance = false)
      (hfirst : worker ∉ s.packetTimeout.timedoutWorkerRegistry)
      (hpush : (s.strike worker).pushToFront worker p = .ok t)
      (hloop : executeLoop t timedPackets = .ok (s', returned))
  /-- It gets its second strike, and is removed. -/
  | remove (worker : WorkerRef) (w : Worker) (hw : s.Overdue p worker w)
      (habsent : w.attendance = false)
      (hsecond : worker ∈ s.packetTimeout.timedoutWorkerRegistry)
      (hremove : (s.unstrike worker).removeWorker worker = .ok s') (hreturned : returned = true)

lemma RoundRule.of_executeLoop {returned : Bool}
    (h : s.executeLoop (p :: timedPackets) = .ok (s', returned)) :
    RoundRule s p timedPackets s' returned := by
  simp only [executeLoop, Outcome.bind_eq_ok, Heap.deref_eq_ok, Outcome.ofOption_eq_ok] at h
  obtain ⟨o, ho, i, hdata, st, hst, h⟩ := h
  have hcarries : s.Carries p o st := ⟨ho, i, hdata, hst⟩
  split_ifs at h with hstatus hfinal
  · -- the final path never returns
    simp only [Outcome.bind_eq_ok] at h
    obtain ⟨_, -, h⟩ := h
    cases h
  · exact .checkOut o st hcarries hstatus hfinal h
  · simp only [Outcome.bind_eq_ok, Outcome.ofOption_eq_ok, Heap.deref_eq_ok] at h
    obtain ⟨worker, hworker, w, hw, h⟩ := h
    have hover : s.Overdue p worker w := ⟨⟨o, st, hcarries, by simpa using hstatus, hworker⟩, hw⟩
    cases hatt : w.attendance with
    | true =>
      simp only [hatt, if_true, Outcome.bind_eq_ok] at h
      obtain ⟨t, hpush, hloop⟩ := h
      exact .resend worker w t hover hatt hpush hloop
    | false =>
      simp only [hatt, Bool.false_eq_true, if_false] at h
      by_cases hsecond : worker ∈ s.packetTimeout.timedoutWorkerRegistry
      · simp only [isWorkerRegistered_of_mem hsecond, if_true, Outcome.bind_eq_ok,
          Outcome.pure_eq_ok, Prod.mk.injEq] at h
        obtain ⟨t, hremove, rfl, hreturned⟩ := h
        exact .remove worker w hover hatt hsecond hremove hreturned.symm
      · simp only [isWorkerRegistered_of_notMem hsecond, Bool.false_eq_true, if_false,
          Outcome.bind_eq_ok] at h
        obtain ⟨t, hpush, hloop⟩ := h
        exact .strike worker w t hover hatt hsecond hpush hloop

/-- What `execute` does with one timed packet, as far as it matters where workers attend. -/
inductive ExecuteRule (s : Server) (p : OutPacketRef) (timedPackets : List OutPacketRef)
    (s' : Server) (returned : Bool) : Prop where
  /-- It was checked in: it is checked out. -/
  | checkOut (o : OutPacket) (ho : s.outPackets.get p = some o) (hstatus : o.status = true)
      (hloop : executeLoop { s with outPackets := s.outPackets.put p o.checkOut } timedPackets
        = .ok (s', returned))
  /-- It was not: it is next in line at the worker that its table names. -/
  | resend (o : OutPacket) (i : OutDataRef) (st : OutgoingDataState) (worker : WorkerRef)
      (w : Worker) (t : Server) (ho : s.outPackets.get p = some o) (hstatus : o.status = false)
      (hdata : o.outData = some i) (hst : s.outgoingDataRegistry.states.get i = some st)
      (hworker : st.worker = some worker) (hw : s.getWorker worker = some w)
      (hpush : s.pushToFront worker p = .ok t)
      (hloop : executeLoop t timedPackets = .ok (s', returned))
  /-- The worker has not checked in either: it gets a strike, and the second one removes it. -/
  | absent (worker : WorkerRef) (w : Worker) (hw : s.getWorker worker = some w)
      (habsent : w.attendance = false)

lemma ExecuteRule.of_executeLoop {returned : Bool}
    (h : s.executeLoop (p :: timedPackets) = .ok (s', returned)) :
    ExecuteRule s p timedPackets s' returned := by
  cases RoundRule.of_executeLoop h with
  | checkOut o st ho hstatus hfinal hloop => exact .checkOut o ho.packet hstatus hloop
  | resend worker w t hw hatt hpush hloop =>
    obtain ⟨o, st, ⟨ho, i, hdata, hst⟩, hstatus, hworker⟩ := hw.unchecked
    exact .resend o i st worker w t ho hstatus hdata hst hworker hw.worker hpush hloop
  | strike worker w t hw habsent => exact .absent worker w hw.worker habsent
  | remove worker w hw habsent => exact .absent worker w hw.worker habsent

/-- A call of `execute` is the loop between a wait on the list lock and, unless a worker was
removed, a post. -/
lemma execute_loop (h : s.execute = .ok s') : ∃ lock lock' t returned,
    { s with packetTimeout := { s.packetTimeout with timeoutListLock := lock } }.executeLoop
      s.packetTimeout.timedPackets = .ok (t, returned) ∧
    s' = { t with packetTimeout := { t.packetTimeout with timeoutListLock := lock' } } := by
  simp only [execute, Outcome.bind_eq_ok] at h
  obtain ⟨lock, -, ⟨t, returned⟩, hloop, h⟩ := h
  cases returned with
  | true =>
    cases h
    exact ⟨lock, _, t, true, hloop, rfl⟩
  | false =>
    cases h
    exact ⟨lock, _, t, false, hloop, rfl⟩

end Server

end ServerUnit
