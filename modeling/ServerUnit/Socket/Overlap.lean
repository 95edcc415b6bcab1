import ServerUnit.Sink.Race
import ServerUnit.Socket.Receipts
import ServerUnit.Socket.Registrations
import ServerUnit.WorkerNode.UidDraws

/-!
# Calls that overlap

`generateWorkerUid` searches the lists for the number it has drawn and then adds the worker, and the
calls on the receiver sink look at its size and then wait for its lock. Nothing keeps other threads
out in between. Here each of these calls is two steps, with steps of the others between them. No UID
is given out twice as long as every number is still free when its worker is added, and the packets
received are kept in order as long as there still is room where room was seen.
-/

namespace ServerUnit

open Lib

/-! ### The second steps -/

namespace WorkerRegistry

variable {r : WorkerRegistry}

/-- `generateWorkerUid` after its loop. -/
def pushWorker (r : WorkerRegistry) (finalComputeNodeId : String) : WorkerRegistry :=
  { r with
    workers := r.workers.alloc (.new finalComputeNodeId)
    currentWorkerList := r.workers.next :: r.currentWorkerList
    newWorker := true }

/-- Without anything in between, the two steps are the call. -/
lemma generateWorkerUid_eq (draws : List ℕ) : r.generateWorkerUid draws =
    (fun uid => (r.pushWorker uid, uid)) <$> r.drawUid true draws := by
  unfold generateWorkerUid
  cases r.drawUid true draws <;> rfl

end WorkerRegistry

namespace Server

variable {s : Server}

/-- `pushObject` for a session, from `sem_wait` on. -/
def pushSection (s : Server) (packet : Json) : Outcome Server := do
  let receiverSink ← s.receiverSink.pushSection ⟨packet, .defaultPriority⟩ (s.starveCounter 0)
  return { s with receiverSink, starveCounter := fun n => s.starveCounter (n + 1) }

lemma receivePacket_eq {packet : Json}
    (hroom : s.receiverSink.getCurrentSinkSpace < MAX_POOL_SIZE) :
    s.receivePacket packet = s.pushSection packet := by
  have hcheck : s.receiverSink.pushCheck (some packet) .defaultPriority =
      some ⟨packet, .defaultPriority⟩ := if_neg (Nat.not_le.mpr hroom)
  rw [receivePacket, pushSection, Sink.pushObject_eq, hcheck]
  simp only
  cases s.receiverSink.pushSection ⟨packet, .defaultPriority⟩ (s.starveCounter 0) <;> rfl

/-- `start_validator` from the `sem_wait` of its `popObject` on. -/
def validatorSection (s : Server) : Outcome (Server × JobStatus) := do
  let (receiverSink, item) ← s.receiverSink.popSection
  let s ← { s with receiverSink }.processPacket item.dataObject
  return (s, .jobPending)

lemma startValidator_eq : s.startValidator =
    if s.receiverSink.popCheck then s.validatorSection else .ok (s, .jobDone) := by
  rw [startValidator, validatorSection, Sink.popObject_eq, Sink.popExport_eq]
  split_ifs
  · cases s.receiverSink.popSection <;> rfl
  · rfl

end Server

/-! ### The program -/

namespace Program

variable {n : ℕ}

/-- The worker is added, and the session answers with its UID. -/
def pushWorker (x : Program n) (c : SessionRef) (s : Session) (workerUid : String) : Program n :=
  { x.putSession c (s.answer (PacketConstructor.create .spHandshake workerUid)) with
    server := { x.server with
      workerRegistry := x.server.workerRegistry.pushWorker workerUid
      senderCoreData := x.server.senderCoreData.addWorker workerUid }
    issued := x.issued ++ [(workerUid, c)] }

/-- The session's packet is in the sink. -/
def pushed (x : Program n) (c : SessionRef) (s : Session) (worker : WorkerRef) (server : Server) :
    Program n :=
  { x.putSession c { s with pc := .pushed worker } with
    server
    sessions := x.sessions + 1
    accepted := x.accepted ++ [s.packet] }

/-- The job that the thread comes to is a validator. -/
def startsValidator (x : Program n) (i : Fin n) : Bool :=
  match (do let (r, _) ← x.sched.currentJob i; x.sched.jobs.deref r : Outcome _) with
  | .ok job => job.args = .validator
  | .error _ => false

end Program

/-- The program with the calls that are between their two steps. -/
structure SplitProgram (n : ℕ) extends Program n where
  /-- The numbers that sessions have drawn and found in no list. -/
  drawn : SessionRef → Option ℕ
  /-- The sessions that saw room in the receiver sink. -/
  pushing : SessionRef → Bool
  /-- The threads whose validator saw a packet there. -/
  popping : Fin n → Bool

inductive SplitEvent (n : ℕ) where
  /-- A step that is not one of these calls. -/
  | whole (e : ProgramEvent n)
  /-- The loop of `generateWorkerUid`. It can only end with its first number. -/
  | drawUid (c : SessionRef) (computeNodeId : ℕ)
  | pushWorker (c : SessionRef)
  /-- `pushObject` looks at the size of the sink. -/
  | pushCheck (c : SessionRef)
  | pushSection (c : SessionRef)
  /-- The `popObject` of a validator looks at the size of the sink. -/
  | popCheck (i : Fin n)
  | popSection (i : Fin n)

namespace SplitProgram

variable {n : ℕ}

def init (s : Server) (n : ℕ) (totalThreads : ℤ) : SplitProgram n :=
  { Program.init s n totalThreads with
    drawn := fun _ => none, pushing := fun _ => false, popping := fun _ => false }

/-- The step is none of the calls that have two, nor is its thread in one. A timer that fires during
a call is the same as one that fires after it. -/
def isWhole (x : SplitProgram n) : ProgramEvent n → Bool
  | .register _ _ | .push _ => false
  | .process (.startProc i) => !x.popping i && !x.startsValidator i
  | .process (.pauseProc i) | .process (.endProc i) | .process (.advance i)
  | .process (.timer i) => !x.popping i
  | _ => true

/-- The program takes a step. -/
def stepWhole [NeZero n] (x : SplitProgram n) (e : ProgramEvent n) : Outcome (SplitProgram n) := do
  let toProgram ← x.toProgram.step e
  return { x with toProgram }

/-- The handlers of a session. -/
def handle [NeZero n] (x : SplitProgram n) (c : SessionRef) (s : Session) :
    SplitEvent n → Outcome (SplitProgram n)
  | .drawUid _ computeNodeId =>
    Outcome.guard (s.pc = .unknown && (x.drawn c).isNone) do
      let _ ← x.server.workerRegistry.drawUid true [computeNodeId]
      return { x with drawn := Function.update x.drawn c (some computeNodeId) }
  | .pushWorker _ =>
    match x.drawn c with
    | some computeNodeId => Outcome.guard (s.pc = .unknown) <| return { x with
        toProgram := x.toProgram.pushWorker c s (toString computeNodeId)
        drawn := Function.update x.drawn c none }
    | none => .error .disabled
  | .pushCheck _ =>
    match s.pc with
    | .modeSet _ => Outcome.guard (!x.pushing c) <|
        if (x.server.receiverSink.pushCheck (some s.packet) .defaultPriority).isSome then
          return { x with pushing := Function.update x.pushing c true }
        else
          x.stepWhole (.push c)
    | _ => .error .disabled
  | .pushSection _ =>
    match s.pc with
    | .modeSet worker => Outcome.guard (x.pushing c) do
        let server ← x.server.pushSection s.packet
        return { x with
          toProgram := x.toProgram.pushed c s worker server
          pushing := Function.update x.pushing c false }
    | _ => .error .disabled
  | _ => .error .disabled

/-- A thread calls `start_validator`: what it returns without a packet, it returns at once. -/
def popCheck [NeZero n] (x : SplitProgram n) (i : Fin n) : Outcome (SplitProgram n) :=
  Outcome.guard (!x.popping i && x.startsValidator i) do
    if x.server.receiverSink.popCheck then
      let _ ← x.sched.startProc i .jobPending
      return { x with popping := Function.update x.popping i true }
    else
      x.stepWhole (.process (.startProc i))

/-- `start_validator` goes on with the packet. -/
def popSection [NeZero n] (x : SplitProgram n) (i : Fin n) : Outcome (SplitProgram n) :=
  Outcome.guard (x.popping i && x.startsValidator i) do
    let (server, status) ← x.server.validatorSection
    let reception ← x.toReception.schedule (.startProc i status)
    return { x with
      toProgram := { x.toProgram with
        toReception := { reception with server }
        processed := x.processed ++ x.server.receiverSink.objects.take 1 }
      popping := Function.update x.popping i false }

def step [NeZero n] (x : SplitProgram n) (e : SplitEvent n) : Outcome (SplitProgram n) :=
  match e with
  | .whole e => Outcome.guard (x.isWhole e) (x.stepWhole e)
  | .popCheck i => x.popCheck i
  | .popSection i => x.popSection i
  | .drawUid c _ | .pushWorker c | .pushCheck c | .pushSection c => do
    let s ← x.connections.deref c
    x.handle c s e

end SplitProgram

/-! ### The second steps of calls that nothing disturbed -/

namespace Program

variable {n : ℕ} {x : Program n} {c : SessionRef} {s : Session} {worker : WorkerRef}
  {server : Server}

lemma exists_of_startsValidator {i : Fin n} (h : x.startsValidator i = true) :
    ∃ r timer job, x.sched.currentJob i = .ok (r, timer) ∧ x.sched.jobs.get r = some job ∧
      job.args = .validator := by
  unfold startsValidator at h
  split at h
  · next job hjob =>
    simp only [Outcome.bind_eq_ok, Heap.deref_eq_ok, Prod.exists] at hjob
    obtain ⟨r, timer, hcur, hjob⟩ := hjob
    exact ⟨r, timer, job, hcur, hjob, of_decide_eq_true h⟩
  · cases h

lemma Kept.alive (h : x.Kept) : x.server.workerRegistry.Alive := by
  intro worker hworker
  obtain ⟨w, hw⟩ := h.sound.registered.alive worker hworker
  exact ⟨w.workerUID, WorkerRegistry.uidOf_eq_some.mpr ⟨w, hw, rfl⟩⟩

/-- A packet is put into the sink, whether there is room or not. -/
lemma continues_pushed (hpush : x.server.pushSection s.packet = .ok server) :
    x.server.Continues (x.pushed c s worker server).server := by
  simp only [Server.pushSection, Outcome.bind_eq_ok, Outcome.pure_eq_ok] at hpush
  obtain ⟨receiverSink, -, rfl⟩ := hpush
  exact .of_frame (.of_frame rfl rfl rfl) rfl

lemma Kept.pushed (h : x.Kept) (hs : x.connections.get c = some s) (hpc : s.pc = .modeSet worker)
    (hpush : x.server.pushSection s.packet = .ok server) : (x.pushed c s worker server).Kept := by
  have hmoves : x.server.Moves (x.pushed c s worker server).server := .inl (continues_pushed hpush)
  refine ⟨hmoves.sound h.sound, hmoves.stamped h.stamped, fun d t ht => ?_⟩
  rw [Program.pushed, putSession, Heap.get_put hs] at ht
  split_ifs at ht
  · cases ht
    exact ((h.follows c s hs).mono hmoves).goOn hpc rfl rfl (fun _ h => h) rfl
  · exact (h.follows d t ht).mono hmoves

lemma Issued.pushed (h : x.Issued) (hs : x.connections.get c = some s)
    (hpush : x.server.pushSection s.packet = .ok server) : (x.pushed c s worker server).Issued := by
  refine h.continues (continues_pushed hpush) rfl fun d t ht => ?_
  rw [Program.pushed, putSession, Heap.get_put hs]
  split_ifs with heq
  · cases heq
    cases hs.symm.trans ht
    exact ⟨_, rfl, List.prefix_refl _⟩
  · exact ⟨t, ht, List.prefix_refl _⟩

variable [NeZero n]

/-- A worker with a free number is added as in one step. -/
lemma stepped_pushWorker (hkept : x.Kept) (hs : x.connections.get c = some s)
    (hpc : s.pc = .unknown) {k : ℕ} (hfree : x.server.workerRegistry.IsFree k) :
    Stepped x (x.pushWorker c s (toString k)) := by
  have hgenerate : x.server.workerRegistry.generateWorkerUid [k] =
      .ok (x.server.workerRegistry.pushWorker (toString k), toString k) := by
    rw [WorkerRegistry.generateWorkerUid_eq, hkept.alive.drawUid_of_free hfree]
    rfl
  exact .handled c s _ hs (.registered [k] _ _ hpc hgenerate)

/-- A packet is put into a sink with room as in one step. -/
lemma stepped_pushed (hs : x.connections.get c = some s) (hpc : s.pc = .modeSet worker)
    (hroom : x.server.receiverSink.getCurrentSinkSpace < MAX_POOL_SIZE)
    (hpush : x.server.pushSection s.packet = .ok server) :
    Stepped x (x.pushed c s worker server) := by
  have hstep : x.toReception.step (.receivePacket s.packet) =
      .ok { x.toReception with server, sessions := x.sessions + 1 } := by
    rw [Reception.step, Server.receivePacket_eq hroom, hpush]
    rfl
  have hhandled := Handled.pushed (c := c) worker _ hpc hstep
  rw [if_pos hroom] at hhandled
  exact .handled c s _ hs hhandled

end Program

/-! ### What a step does to the program -/

namespace SplitProgram

variable {n : ℕ} [NeZero n] {x x' : SplitProgram n} {e : SplitEvent n}

/-- What the program is after a step. -/
inductive Split (x : SplitProgram n) : SplitEvent n → Program n → Prop where
  | unchanged (e : SplitEvent n) : Split x e x.toProgram
  | stepped (e : SplitEvent n) (program : Program n) (h : x.toProgram.Stepped program) :
      Split x e program
  | added (c : SessionRef) (s : Session) (k : ℕ) (hs : x.connections.get c = some s)
      (hpc : s.pc = .unknown) (hdrawn : x.drawn c = some k) :
      Split x (.pushWorker c) (x.toProgram.pushWorker c s (toString k))
  | pushed (c : SessionRef) (s : Session) (worker : WorkerRef) (server : Server)
      (hs : x.connections.get c = some s) (hpc : s.pc = .modeSet worker)
      (hpush : x.server.pushSection s.packet = .ok server) :
      Split x (.pushSection c) (x.toProgram.pushed c s worker server)

lemma stepWhole_eq_ok {e : ProgramEvent n} (h : x.stepWhole e = .ok x') :
    x.toProgram.step e = .ok x'.toProgram := by
  simp only [stepWhole, Outcome.bind_eq_ok, Outcome.pure_eq_ok] at h
  obtain ⟨program, hstep, rfl⟩ := h
  exact hstep

/-- A validator that goes on with a packet does what it would do in one step. -/
lemma popSection_eq_ok {i : Fin n} (h : x.popSection i = .ok x') :
    x.toProgram.step (.process (.startProc i)) = .ok x'.toProgram := by
  simp only [popSection, Outcome.guard_eq_ok, Outcome.bind_eq_ok, Outcome.pure_eq_ok,
    Bool.and_eq_true, Prod.exists] at h
  obtain ⟨⟨-, hstarts⟩, server, status, hsection, reception, hschedule, rfl⟩ := h
  obtain ⟨r, timer, job, hcur, hjob, hargs⟩ := Program.exists_of_startsValidator hstarts
  have hcheck : x.server.receiverSink.popCheck = true := by
    cases hitems : x.server.receiverSink.sinkItemList with
    | nil =>
      simp only [Server.validatorSection, Sink.popSection, hitems, Outcome.bind_eq_ok,
        reduceCtorEq, and_false, exists_false, false_and] at hsection
    | cons item items => simp [Sink.popCheck, hitems]
  have hstart : x.server.startProcess job.args = .ok (server, status) := by
    rw [hargs, Server.startProcess, Server.startValidator_eq, if_pos hcheck]
    exact hsection
  have hstep : x.toReception.step (.startProc i) = .ok { reception with server } := by
    simp only [Reception.step, Reception.startProc, Outcome.bind_eq_ok, Heap.deref_eq_ok,
      Outcome.pure_eq_ok, Prod.exists]
    exact ⟨r, timer, hcur, job, hjob, server, status, hstart, reception, hschedule, rfl⟩
  simp only [Program.step, Outcome.guard_eq_ok, Outcome.bind_eq_ok, Outcome.pure_eq_ok]
  refine ⟨rfl, _, hstep, ?_⟩
  rw [Program.taken_startProc hcur hjob, if_pos hargs]

lemma toProgram_of_drawUid {c : SessionRef} {k : ℕ} (h : x.step (.drawUid c k) = .ok x') :
    x'.toProgram = x.toProgram := by
  simp only [step, handle, Outcome.guard_eq_ok, Outcome.bind_eq_ok, Outcome.pure_eq_ok] at h
  obtain ⟨_, -, -, _, -, rfl⟩ := h
  rfl

lemma Split.of_pushWorker {c : SessionRef} (h : x.step (.pushWorker c) = .ok x') :
    Split x (.pushWorker c) x'.toProgram := by
  simp only [step, Outcome.bind_eq_ok, Heap.deref_eq_ok] at h
  obtain ⟨s, hs, h⟩ := h
  cases hdrawn : x.drawn c with
  | none =>
    simp only [handle, hdrawn] at h
    cases h
  | some k =>
    simp only [handle, hdrawn, Outcome.guard_eq_ok, Outcome.pure_eq_ok] at h
    obtain ⟨hpc, rfl⟩ := h
    exact .added c s k hs hpc hdrawn

lemma Split.of_pushCheck {c : SessionRef} (h : x.step (.pushCheck c) = .ok x') :
    Split x (.pushCheck c) x'.toProgram := by
  simp only [step, Outcome.bind_eq_ok, Heap.deref_eq_ok] at h
  obtain ⟨s, hs, h⟩ := h
  cases hpc : s.pc <;> simp only [handle, hpc, reduceCtorEq] at h
  next worker =>
    obtain ⟨-, h⟩ := Outcome.guard_eq_ok.mp h
    split_ifs at h
    · cases h
      exact .unchanged _
    · exact .stepped _ _ (.of_step (stepWhole_eq_ok h))

lemma Split.of_pushSection {c : SessionRef} (h : x.step (.pushSection c) = .ok x') :
    Split x (.pushSection c) x'.toProgram := by
  simp only [step, Outcome.bind_eq_ok, Heap.deref_eq_ok] at h
  obtain ⟨s, hs, h⟩ := h
  cases hpc : s.pc <;> simp only [handle, hpc, reduceCtorEq] at h
  next worker =>
    simp only [Outcome.guard_eq_ok, Outcome.bind_eq_ok, Outcome.pure_eq_ok] at h
    obtain ⟨-, server, hpush, rfl⟩ := h
    exact .pushed c s worker server hs hpc hpush

lemma Split.of_step (h : x.step e = .ok x') : Split x e x'.toProgram := by
  cases e with
  | whole e =>
    obtain ⟨-, h⟩ := Outcome.guard_eq_ok.mp h
    exact .stepped _ _ (.of_step (stepWhole_eq_ok h))
  | drawUid c k =>
    rw [toProgram_of_drawUid h]
    exact .unchanged _
  | pushWorker c => exact .of_pushWorker h
  | pushCheck c => exact .of_pushCheck h
  | pushSection c => exact .of_pushSection h
  | popCheck i =>
    obtain ⟨-, h⟩ := Outcome.guard_eq_ok.mp h
    split_ifs at h
    · simp only [Outcome.bind_eq_ok, Outcome.pure_eq_ok] at h
      obtain ⟨_, -, rfl⟩ := h
      exact .unchanged _
    · exact .stepped _ _ (.of_step (stepWhole_eq_ok h))
  | popSection i => exact .stepped _ _ (.of_step (popSection_eq_ok h))

/-! ### Every run -/

/-- When a worker is added, its number is still free. -/
def UidsFree (x : SplitProgram n) : SplitEvent n → Prop
  | .pushWorker c => ∀ k ∈ x.drawn c, x.server.workerRegistry.IsFree k
  | _ => True

/-- When a packet is put into the sink, there still is room. -/
def RoomLeft (x : SplitProgram n) : SplitEvent n → Prop
  | .pushSection _ => x.server.receiverSink.getCurrentSinkSpace < MAX_POOL_SIZE
  | _ => True

variable {addFlag : ℕ → Bool} {starveCounter : ℕ → UInt8} {totalThreads : ℤ}
  {es : List (SplitEvent n)} {program : Program n}

/-- A packet is put into the sink, or the program takes a step or none. -/
lemma Split.cases_of_free (h : Split x e program) (hkept : x.Kept) (hfree : x.UidsFree e) :
    program = x.toProgram ∨ x.toProgram.Stepped program ∨
      ∃ c s worker server, e = .pushSection c ∧ x.connections.get c = some s ∧
        s.pc = .modeSet worker ∧ x.server.pushSection s.packet = .ok server ∧
        program = x.toProgram.pushed c s worker server := by
  cases h with
  | unchanged => exact .inl rfl
  | stepped _ program hstep => exact .inr (.inl hstep)
  | added c s k hs hpc hdrawn =>
    exact .inr (.inl (Program.stepped_pushWorker hkept hs hpc (hfree k hdrawn)))
  | pushed c s worker server hs hpc hpush =>
    exact .inr (.inr ⟨c, s, worker, server, rfl, hs, hpc, hpush, rfl⟩)

/-- In every run in which each number is still free when its worker is added, no UID is given out
twice, the workers are those whose UIDs were given out, each UID was told to the session that
registered the worker, and every answer to a packet has one of these UIDs for its id, while only
what is no packet is answered with an empty one. -/
theorem run_issued
    (hfree : Meets step UidsFree (init (.init addFlag starveCounter) n totalThreads) es)
    (h : run step (init (.init addFlag starveCounter) n totalThreads) es = .ok x) :
    x.Issued ∧ ∀ c s, x.connections.get c = some s → ∀ exchange ∈ s.exchanges,
      if validateJson exchange.1 then exchange.2.id ∈ x.issued.map Prod.fst
      else exchange.2.id = "" := by
  have hI : x.Kept ∧ x.Issued := by
    refine run_induct (I := fun y : SplitProgram n => y.Kept ∧ y.Issued) ?_
      ⟨Program.kept_init _ _ _, Program.issued_init _ _ _⟩ hfree h
    rintro y e y' ⟨hkept, hissued⟩ hC hstep
    rcases (Split.of_step hstep).cases_of_free hkept hC with heq | hstepped |
      ⟨c, s, worker, server, -, hs, hpc, hpush, heq⟩
    · rw [heq]
      exact ⟨hkept, hissued⟩
    · exact ⟨hkept.step hstepped, hissued.step hkept hstepped⟩
    · rw [heq]
      exact ⟨hkept.pushed hs hpc hpush, hissued.pushed hs hpush⟩
  exact ⟨hI.2, fun c s hs _ hmem => hI.2.answered hI.1 hs hmem⟩

instance (x : SplitProgram n) : ∀ e, Decidable (x.UidsFree e)
  | .pushWorker c => inferInstanceAs (Decidable (∀ k ∈ x.drawn c, _))
  | .whole _ | .drawUid _ _ | .pushCheck _ | .pushSection _ | .popCheck _ | .popSection _ =>
    isTrue trivial

instance (x : SplitProgram n) : ∀ e, Decidable (x.RoomLeft e)
  | .pushSection _ => inferInstanceAs (Decidable (_ < MAX_POOL_SIZE))
  | .whole _ | .drawUid _ _ | .pushWorker _ | .pushCheck _ | .popCheck _ | .popSection _ =>
    isTrue trivial

/-- Two workers connect, and both numbers are drawn before a worker is added. -/
theorem run_issued_twoWorkers : ∃ x,
    run step (init (.init (fun _ => false) fun _ => 0) 1 2)
      [.whole .connect, .whole .connect, .whole (.read 0 Program.helloPacket),
        .whole (.read 1 Program.helloPacket), .drawUid 0 1234, .drawUid 1 2345, .pushWorker 1,
        .pushWorker 0, .whole (.write 0 true)] = .ok x ∧
      x.Issued ∧ ∀ c s, x.connections.get c = some s → ∀ exchange ∈ s.exchanges,
        if validateJson exchange.1 then exchange.2.id ∈ x.issued.map Prod.fst
        else exchange.2.id = "" :=
  Outcome.exists_ok_and (by decide) fun _ h => run_issued (by decide) h

/-- Both workers' numbers are drawn before a worker is added, and are the same. -/
theorem run_not_issued : ∃ x,
    run step (init (.init (fun _ => false) fun _ => 0) 1 2)
      [.whole .connect, .whole .connect, .whole (.read 0 Program.helloPacket),
        .whole (.read 1 Program.helloPacket), .drawUid 0 1234, .drawUid 1 1234, .pushWorker 1,
        .pushWorker 0] = .ok x ∧
      ¬ x.Issued := by
  obtain ⟨x, hx, htwice⟩ : ∃ x,
      run step (init (.init (fun _ => false) fun _ => 0) 1 2)
        [.whole .connect, .whole .connect, .whole (.read 0 Program.helloPacket),
          .whole (.read 1 Program.helloPacket), .drawUid 0 1234, .drawUid 1 1234, .pushWorker 1,
          .pushWorker 0] = .ok x ∧ x.issued.map Prod.fst = ["1234", "1234"] :=
    Outcome.exists_ok_of_eval (by decide)
  refine ⟨x, hx, fun hissued => ?_⟩
  have honce := hissued.once
  rw [htwice] at honce
  exact absurd honce (by decide)

/-- In every run in which moreover there still is room when a packet is put into the sink, the
packets that it accepted are processed in their order, each once, and none that waits is
forgotten. -/
theorem run_receipts
    (hfree : Meets step (fun x e => UidsFree x e ∧ RoomLeft x e)
      (init (.init addFlag starveCounter) n totalThreads) es)
    (h : run step (init (.init addFlag starveCounter) n totalThreads) es = .ok x) :
    x.Receipts := by
  have hI : x.Kept ∧ x.Counted ∧ x.Ordered := by
    refine run_induct (I := fun y : SplitProgram n => y.Kept ∧ y.Counted ∧ y.Ordered) ?_
      ⟨Program.kept_init _ _ _, Program.counted_init _ _ _⟩ hfree h
    rintro y e y' ⟨hkept, hcounted, hordered⟩ ⟨hC, hroom⟩ hstep
    rcases (Split.of_step hstep).cases_of_free hkept hC with heq | hstepped |
      ⟨c, s, worker, server, rfl, hs, hpc, hpush, heq⟩
    · rw [heq]
      exact ⟨hkept, hcounted, hordered⟩
    · exact ⟨hkept.step hstepped, hcounted.step hkept hstepped, hordered.step hkept hstepped⟩
    · have hstepped := Program.stepped_pushed hs hpc hroom hpush
      rw [heq]
      exact ⟨hkept.step hstepped, hcounted.step hkept hstepped, hordered.step hkept hstepped⟩
  exact hI.2.1.receipts hI.2.2

/-- Two sessions see room before either has put its packet into the sink, and one of them puts it
there after a validator has seen the other's packet. -/
theorem run_receipts_twoPackets : ∃ x,
    run step (init (.init (fun _ => false) fun _ => 0) 1 2)
      [.whole .connect, .whole .connect, .whole (.read 0 Program.helloPacket), .drawUid 0 1234,
        .pushWorker 0, .whole (.write 0 true), .whole (.rewrite 0 true),
        .whole (.read 0 Program.quickPacket), .whole (.read 1 Program.quickPacket),
        .whole (.setMode 0), .whole (.setMode 1), .pushCheck 0, .pushCheck 1, .pushSection 1,
        .whole (.initValidator 1), .whole (.process .countSlots), .whole (.process .place),
        .popCheck 0, .pushSection 0, .popSection 0] = .ok x ∧
      x.Receipts :=
  Outcome.exists_ok_and (by decide) fun _ h => run_receipts (by decide) h

end SplitProgram

end ServerUnit
