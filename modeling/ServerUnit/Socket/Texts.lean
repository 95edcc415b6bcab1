import ServerUnit.PacketProcessor.PacketTexts
import ServerUnit.PacketProcessor.Schemas
import ServerUnit.Socket.Receipts

/-!
# The texts of the sessions (`socket/socket.cpp`, `packet_processor/packet_constructor.cpp`)

What comes over a connection and goes out over it are texts. A message is parsed and then checked by
the validator that is made of a schema; an answer is a `json` value, whose text is written. Seen from
the packets, the sessions with texts do the steps of `Program` and no others, and every text that is
written is parsed to the packet of the answer, and to no other.

The names and data in packets are UTF-8 text. This is a hypothesis on the files and the database that
they come from: other bytes are not a `String`, and there is no text of them, since `dump` throws
(`Serializer.exists_dump_escaped_iff`).
-/

namespace ServerUnit

open Lib

/-! ### Messages -/

namespace Json.Stored

variable {j : Json}

lemma keysDistinct (h : j.Stored) : j.KeysDistinct := by
  cases j with
  | obj fields => exact (stored_obj_iff.mp h).1.nodup
  | _ => trivial

/-- A member of a value. -/
lemma index {key : String} {value : Json} (h : j.Stored) (hindex : j.index key = .ok value) :
    value.Stored := by
  cases j with
  | obj fields =>
    cases hindex
    rw [member]
    cases hlookup : fields.lookup key with
    | none => trivial
    | some value => exact (stored_obj_iff.mp h).2 _ (Shape.mem_of_lookup hlookup)
  | null =>
    cases hindex
    trivial
  | bool | int | float | str | arr => cases hindex

end Json.Stored

namespace JsonPrevalidator

/-- The constructor. A text that cannot be parsed leaves a `null`. -/
def ofText (out : List UInt8) : Json :=
  match Parser.parse out with
  | .ok packet => packet
  | .error _ => .null

/-- `validateJson`. -/
def validate (packet : Json) : Outcome Bool := json_validator packetSchema packet

lemma stored_ofText (out : List UInt8) : (ofText out).Stored := by
  rw [ofText]
  cases hparse : Parser.parse out with
  | error fault => trivial
  | ok packet => exact Parser.stored_of_parse hparse

lemma validate_ofText (out : List UInt8) :
    validate (ofText out) = .ok (validateJson (ofText out)) :=
  Shape.json_validator_json (Shape.prevalidated_describes_iff (stored_ofText out).keysDistinct)

end JsonPrevalidator

/-! ### Processing -/

/-- The constructor, with the validators that are made of the schemas. -/
def ProcessStatusPacket.ofValidated (packet : Json) : Outcome ProcessStatusPacket := do
  if ← json_validator packetIdSchema packet then
    let (tableId, errorString) := readBody packet
    let workerUid ← (← packet.index "id").toStr
    let statusCode ← (← packet.index "head").toInt
    let stats ← packet.index "stats"
    if ← json_validator packetStatsSchema stats then
      let queueTime ← (← stats.index "avgQueueTime").toDouble
      let vectorString ← (← stats.index "taskQueue").toStr
      let threadCount ← (← stats.index "totalAvailableThreads").toInt
      return { statusCode, tableId, errorString, workerUid, statsPresent := true,
               queueTime, vectorString, threadCount }
    else
      return { statusCode, tableId, errorString, workerUid, statsPresent := false,
               queueTime := 0, vectorString := "", threadCount := 0 }
  else .error .undefined

/-- What `start_validator` does with the packet it took. -/
def Server.processValidated (s : Server) (packet : Json) : Outcome Server := do
  let body ← packet.index "body"
  let s ← if ← json_validator PacketValidator.packetSchema body then do
      let processData ← ProcessDataPacket.ofJson packet
      processData.execute s
    else pure s
  let processStatusPacket ← ProcessStatusPacket.ofValidated packet
  s.packetStatusParse processStatusPacket

namespace Json.Stored

variable {packet : Json}

lemma validate_id (h : packet.Stored) :
    json_validator ProcessStatusPacket.packetIdSchema packet = .ok packet.sender.isSome :=
  Shape.json_validator_json (Shape.identified_describes_iff h.keysDistinct)

lemma validate_stats {stats : Json} (h : stats.Stored) :
    json_validator ProcessStatusPacket.packetStatsSchema stats = .ok (validStats stats) :=
  Shape.json_validator_json (Shape.stats_describes_iff h.keysDistinct)

lemma validate_body {body : Json} (h : body.Stored) :
    json_validator PacketValidator.packetSchema body = .ok (isDataPacket body) :=
  Shape.json_validator_json (Shape.dataBody_describes_iff h.keysDistinct)

lemma ofValidated_eq (h : packet.Stored) :
    ProcessStatusPacket.ofValidated packet = ProcessStatusPacket.ofJson packet := by
  rw [ProcessStatusPacket.ofValidated, h.validate_id, Outcome.ok_bind]
  cases packet with
  | obj fields =>
    have hstats : (member fields "stats").Stored := h.index rfl
    simp only [Json.index, Outcome.ok_bind, hstats.validate_stats]
    rfl
  | _ => rfl

lemma processValidated_eq (h : packet.Stored) (s : Server) :
    s.processValidated packet = s.processPacket packet := by
  rw [Server.processValidated, Server.processPacket]
  cases hbody : packet.index "body" with
  | error => rfl
  | ok body =>
    rw [Outcome.ok_bind, Outcome.ok_bind, (h.index hbody).validate_body, Outcome.ok_bind]
    simp only [h.ofValidated_eq]

end Json.Stored

/-! ### What the sessions read and wrote -/

/-- The handler neither reads a text nor writes one. -/
def ProgramEvent.isQuiet {n : ℕ} : ProgramEvent n → Bool
  | .read _ _ | .write _ _ => false
  | _ => true

/-- The packet whose text the frame is. -/
def Frame.packet? : Frame → Option ServerPacket
  | text outPacket => some outPacket
  | destroyed _ => none

namespace Session

/-- The answers that were written, each counted once. -/
def sent (s : Session) : List ServerPacket := s.frames.filterMap Frame.packet?

lemma filterMap_twice (exchanges : List (Json × ServerPacket)) :
    (exchanges.flatMap fun exchange => twice exchange.2).filterMap Frame.packet? =
      exchanges.map Prod.snd := by
  induction exchanges with
  | nil => rfl
  | cons exchange exchanges ih =>
    rw [List.flatMap_cons, List.filterMap_append, ih]
    rfl

/-- At most one answer is not written. -/
lemma Follows.exists_sent {s : Session} {server : Server} (h : s.Follows server) :
    ∃ rest, s.exchanges.map Prod.snd = s.sent ++ rest ∧ rest.length ≤ 1 := by
  obtain ⟨owed, howes, hframes⟩ := h.frames
  refine ⟨owed.filterMap Frame.packet?, ?_, ?_⟩
  · rw [← filterMap_twice, ← hframes, List.filterMap_append, Session.sent]
  · cases hpc : s.pc <;> rw [hpc] at howes
    case closed => exact (List.length_filterMap_le _ _).trans howes
    all_goals
      subst howes
      first | exact le_rfl | exact Nat.zero_le 1

/-- The texts that were read and written belong together: each text but at most the last has an
answer, and each answer but at most the last has been written, as a text that is parsed to it and to
no other. -/
structure Converses (s : Session) (received written : List (List UInt8)) : Prop where
  answered : ∃ rest, received.map JsonPrevalidator.ofText = s.exchanges.map Prod.fst ++ rest ∧
    rest.length ≤ 1
  sent : ∃ answers rest, s.exchanges.map Prod.snd = answers ++ rest ∧ rest.length ≤ 1 ∧
    List.Forall₂ IsTextOf written answers

end Session

/-- The messages of a connection and the answers that were written. -/
def history (connections : Heap Session) (c : SessionRef) : List Json × List ServerPacket :=
  match connections.get c with
  | none => ([], [])
  | some s => (s.messages, s.sent)

section

variable {connections : Heap Session} {c d : SessionRef} {s s' : Session}

lemma history_of_get (h : connections.get c = some s) :
    history connections c = (s.messages, s.sent) := by
  rw [history, h]

lemma history_put (h : connections.get c = some s) :
    history (connections.put c s') d =
      if d = c then (s'.messages, s'.sent) else history connections d := by
  rw [history, history, Heap.get_put h]
  split_ifs <;> rfl

/-- What a session does without a text. -/
lemma history_put_of_eq (h : connections.get c = some s) (hmessages : s'.messages = s.messages)
    (hsent : s'.sent = s.sent) : history (connections.put c s') = history connections := by
  funext d
  rw [history_put h, hmessages, hsent, ← history_of_get h]
  split_ifs with hd
  · rw [hd]
  · rfl

/-- A connection that is accepted has no texts. -/
lemma history_alloc : history (connections.alloc .new) = history connections := by
  funext d
  by_cases hd : d = connections.next
  · rw [hd, history, history, Heap.get_alloc_self, Heap.get_next]
    rfl
  · rw [history, history, Heap.get_alloc_of_ne hd]

end

namespace Program

variable {n : ℕ} {x x' : Program n} {c : SessionRef} {s : Session}

/-- A message is read. -/
lemma connections_of_read {packet : Json} (h : x.read c s packet = .ok x') : ∃ s',
    x'.connections = x.connections.put c s' ∧ s'.messages = s.messages ++ [packet] ∧
      s'.sent = s.sent := by
  unfold read at h
  split_ifs at h
  · simp only [Outcome.bind_eq_ok] at h
    obtain ⟨_, -, id, -, found, -, h⟩ := h
    cases found <;> cases h <;> exact ⟨_, rfl, rfl, rfl⟩
  · cases h
    exact ⟨_, rfl, rfl, rfl⟩

variable [NeZero n]

/-- Where a message is waited for or an answer is written, nothing else is done without a text. -/
lemma disconnect_of_handle {e : ProgramEvent n} (he : e.isQuiet = true)
    (h : x.handle c s e = .ok x') :
    (s.pc = .reading → ∃ d, e = .disconnect d) ∧ ∀ outPacket, s.pc ≠ .writing outPacket := by
  constructor
  · intro hpc
    cases e <;> simp [handle, hpc, ProgramEvent.isQuiet] at h he ⊢
  · intro outPacket hpc
    cases e <;> simp [handle, hpc, startHandler_eq_ok, ProgramEvent.isQuiet] at h he

/-- A handler without a text. -/
lemma history_of_handle {e : ProgramEvent n} (he : e.isQuiet = true)
    (hs : x.connections.get c = some s) (h : x.handle c s e = .ok x') :
    history x'.connections = history x.connections := by
  obtain ⟨hreading, hwriting⟩ := disconnect_of_handle he h
  by_cases hpc : s.pc = .reading
  · obtain ⟨d, rfl⟩ := hreading hpc
    simp only [handle, startHandler_eq_ok, Outcome.guard_eq_ok, Outcome.pure_eq_ok] at h
    obtain ⟨-, -, rfl⟩ := h
    exact history_put_of_eq hs rfl rfl
  · cases Handled.of_handle h with
    | refused _ _ hreading | stranger _ _ _ hreading | known _ _ _ _ hreading
    | disconnected _ hreading => exact absurd hreading hpc
    | written outPacket hwritten => exact absurd hwritten (hwriting outPacket)
    | registered | modeSet | pushed | scheduled | idle | served | quick | again | broken =>
      exact history_put_of_eq hs rfl rfl
    | rewritten =>
      refine history_put_of_eq hs rfl ?_
      rw [Session.sent, List.filterMap_append]
      exact List.append_nil _

/-- A step without a text. -/
lemma history_of_step {e : ProgramEvent n} (he : e.isQuiet = true) (h : x.step e = .ok x') :
    history x'.connections = history x.connections := by
  have hhandle : ∀ c, x.step e = (do let s ← x.connections.deref c; x.handle c s e) →
      history x'.connections = history x.connections := by
    intro c hstep
    rw [hstep, Outcome.bind_eq_ok] at h
    obtain ⟨s, hs, h⟩ := h
    exact history_of_handle he (Heap.deref_eq_ok.mp hs) h
  cases e with
  | connect =>
    simp only [step, startHandler_eq_ok, Outcome.pure_eq_ok] at h
    obtain ⟨-, rfl⟩ := h
    exact history_alloc
  | process e =>
    simp only [step, Outcome.guard_eq_ok, Outcome.bind_eq_ok, Outcome.pure_eq_ok] at h
    obtain ⟨-, reception, -, rfl⟩ := h
    rfl
  | background e =>
    simp only [step, Outcome.guard_eq_ok, Outcome.bind_eq_ok, Outcome.pure_eq_ok] at h
    obtain ⟨-, server, -, rfl⟩ := h
    rfl
  | read c | register c | setMode c | push c | initValidator c | poll c | checkMode c | write c
  | rewrite c | disconnect c => exact hhandle c rfl

end Program

/-! ### The program with texts -/

inductive TextEvent (n : ℕ) where
  /-- `on_read` begins. -/
  | read (c : SessionRef) (out : List UInt8)
  /-- `ws_.write` returns or throws. -/
  | write (c : SessionRef) (sent : Bool)
  | quiet (e : ProgramEvent n) (he : e.isQuiet = true)

/-- The event as it is seen from the packets. -/
def TextEvent.event {n : ℕ} : TextEvent n → ProgramEvent n
  | .read c out => .read c (JsonPrevalidator.ofText out)
  | .write c sent => .write c sent
  | .quiet e _ => e

/-- The histories of what was read and written on the connections are not in the source. -/
structure TextProgram (n : ℕ) where
  program : Program n
  received : List (SessionRef × List UInt8)
  written : List (SessionRef × List UInt8)

namespace TextProgram

variable {n : ℕ}

def init (program : Program n) : TextProgram n := { program, received := [], written := [] }

/-- The first part of `on_read`. -/
def read (x : Program n) (c : SessionRef) (s : Session) (out : List UInt8) :
    Outcome (Program n) := do
  let packet := JsonPrevalidator.ofText out
  if ← JsonPrevalidator.validate packet then
    let id ← (← packet.index "id").toStr
    match ← x.server.workerRegistry.getWorkerFromUid id with
    | none => return x.putSession c { s.receive packet with pc := .unknown }
    | some worker => return x.putSession c { s.receive packet with pc := .identified worker }
  else
    return x.putSession c ((s.receive packet).answer (PacketConstructor.create .spHandshake ""))

def step [NeZero n] (w : TextProgram n) : TextEvent n → Outcome (TextProgram n)
  | .read c out => do
    let s ← w.program.connections.deref c
    let program ← w.program.startHandler <| Outcome.guard (s.pc = .reading) <|
      read w.program c s out
    return { w with program, received := w.received ++ [(c, out)] }
  | .write c sent => do
    let s ← w.program.connections.deref c
    match s.pc with
    | .writing outPacket => do
      let text ← Serializer.dump outPacket.toJson
      let program ← w.program.handle c s (.write c sent)
      return { w with program, written := w.written ++ [(c, text)] }
    | _ => .error .disabled
  | .quiet e _ => do
    let program ← w.program.step e
    return { w with program }

lemma read_eq (x : Program n) (c : SessionRef) (s : Session) (out : List UInt8) :
    read x c s out = x.read c s (JsonPrevalidator.ofText out) := by
  rw [read, JsonPrevalidator.validate_ofText, Outcome.ok_bind]
  rfl

variable [NeZero n]

/-- Seen from the packets, a step with texts is a step of the program. -/
lemma step_map (w : TextProgram n) (e : TextEvent n) :
    (w.step e).map program = w.program.step e.event := by
  cases e with
  | read c out =>
    rw [step, TextEvent.event, Program.step]
    cases hs : w.program.connections.deref c with
    | error => rfl
    | ok s =>
      simp only [Outcome.ok_bind, read_eq, Program.handle]
      cases w.program.startHandler (Outcome.guard (s.pc = .reading)
        (w.program.read c s (JsonPrevalidator.ofText out))) <;> rfl
  | write c sent =>
    rw [step, TextEvent.event, Program.step]
    cases hs : w.program.connections.deref c with
    | error => rfl
    | ok s =>
      simp only [Outcome.ok_bind]
      cases hpc : s.pc with
      | writing outPacket =>
        obtain ⟨text, hdump, -⟩ := outPacket.exists_text
        simp only [hdump, Outcome.ok_bind]
        cases w.program.handle c s (.write c sent) <;> rfl
      | _ => simp only [Program.handle, hpc]; rfl
  | quiet e he =>
    rw [step, TextEvent.event]
    cases w.program.step e <;> rfl

/-! ### What was written -/

variable {w w' : TextProgram n}

/-- The texts of a connection. -/
def textsOf (c : SessionRef) (l : List (SessionRef × List UInt8)) : List (List UInt8) :=
  l.filterMap fun p => if p.1 = c then some p.2 else none

/-- What was read on each connection are its messages, and what was written the texts of its
answers. -/
def Recorded (w : TextProgram n) : Prop :=
  ∀ c, (history w.program.connections c).1 = (textsOf c w.received).map JsonPrevalidator.ofText ∧
    List.Forall₂ IsTextOf (textsOf c w.written) (history w.program.connections c).2

omit [NeZero n] in
lemma textsOf_append {c d : SessionRef} {text : List UInt8}
    {l : List (SessionRef × List UInt8)} :
    textsOf c (l ++ [(d, text)]) = if c = d then textsOf c l ++ [text] else textsOf c l := by
  rw [textsOf, List.filterMap_append]
  split_ifs with hc
  · rw [hc, textsOf]
    simp
  · simp [textsOf, Ne.symm hc]

lemma Recorded.step {e : TextEvent n} (hw : w.Recorded) (h : w.step e = .ok w') : w'.Recorded := by
  intro c
  obtain ⟨hreceived, hwritten⟩ := hw c
  cases e with
  | read d out =>
    simp only [TextProgram.step, Outcome.bind_eq_ok, Heap.deref_eq_ok, Program.startHandler_eq_ok,
      Outcome.guard_eq_ok, read_eq, Outcome.pure_eq_ok] at h
    obtain ⟨s, hs, program, ⟨-, -, hread⟩, rfl⟩ := h
    obtain ⟨s', hput, hmessages, hsent⟩ := Program.connections_of_read hread
    dsimp only
    rw [hput, history_put hs, textsOf_append]
    split_ifs with hc
    · subst hc
      rw [history_of_get hs] at hreceived hwritten
      refine ⟨?_, hsent ▸ hwritten⟩
      rw [hmessages, List.map_append, ← hreceived]
      rfl
    · exact ⟨hreceived, hwritten⟩
  | write d sent =>
    simp only [TextProgram.step, Outcome.bind_eq_ok, Heap.deref_eq_ok] at h
    obtain ⟨s, hs, h⟩ := h
    cases hpc : s.pc <;> simp only [hpc, reduceCtorEq] at h
    next outPacket =>
      obtain ⟨text, hdump, htext⟩ := outPacket.exists_text
      simp only [hdump, Outcome.ok_bind, Outcome.bind_eq_ok, Outcome.pure_eq_ok, Program.handle,
        hpc] at h
      obtain ⟨program, hsent, rfl⟩ := h
      cases sent with
      | false => cases hsent
      | true =>
        cases hsent
        dsimp only [Program.putSession]
        rw [history_put hs, textsOf_append]
        split_ifs with hc
        · subst hc
          rw [history_of_get hs] at hreceived hwritten
          refine ⟨hreceived, ?_⟩
          rw [Session.sent, List.filterMap_append]
          exact List.rel_append hwritten (.cons htext .nil)
        · exact ⟨hreceived, hwritten⟩
  | quiet e he =>
    simp only [TextProgram.step, Outcome.bind_eq_ok, Outcome.pure_eq_ok] at h
    obtain ⟨program, hstep, rfl⟩ := h
    have hhistory := Program.history_of_step he hstep
    dsimp only
    rw [hhistory]
    exact ⟨hreceived, hwritten⟩

/-- Seen from the packets, a run with texts is a run of the program: no text is refused that the
program takes, none is taken that it refuses, and no answer is without a text. -/
theorem run_map (w : TextProgram n) (es : List (TextEvent n)) :
    (run step w es).map program = run Program.step w.program (es.map TextEvent.event) :=
  map_run step_map w es

/-- A text that cannot be parsed, a packet of a new worker, and one of a worker in quick send mode,
which is processed. -/
def conversation (i : Fin 1) : List (TextEvent 1) :=
  [.quiet .connect rfl, .read 0 (Utf8.bytes "\x7b\"head\": 2"), .write 0 true,
    .quiet (.rewrite 0 true) rfl, .read 0 (Utf8.bytes "\x7b\"head\": 2, \"id\": \"\"\x7d"),
    .quiet (.register 0 [1234]) rfl, .write 0 true, .quiet (.rewrite 0 true) rfl,
    .read 0 (Utf8.bytes "\x7b\"id\": \"1234\", \"head\": 66\x7d"), .quiet (.setMode 0) rfl,
    .quiet (.push 0) rfl, .quiet (.initValidator 0) rfl, .quiet (.process .countSlots) rfl,
    .quiet (.process .place) rfl, .quiet (.process (.startProc i)) rfl]

theorem run_map_conversation : ∃ x,
    run Program.step (.init (.init (fun _ => false) fun _ => 0) 1 2)
        ((conversation 0).map TextEvent.event) = .ok x ∧
      (run step (init (.init (.init (fun _ => false) fun _ => 0) 1 2)) (conversation 0)).map program =
        .ok x := by
  have hmap := run_map (init (.init (.init (fun _ => false) fun _ => 0) 1 2)) (conversation 0)
  obtain ⟨x, h, -⟩ : ∃ x, run Program.step (.init (.init (fun _ => false) fun _ => 0) 1 2)
      ((conversation 0).map TextEvent.event) = .ok x ∧ x.processed.length = 1 :=
    Outcome.exists_ok_of_eval (by decide +kernel)
  exact ⟨x, h, hmap.trans h⟩

/-- What the program with texts keeps. -/
lemma kept_of_run {addFlag : ℕ → Bool} {starveCounter : ℕ → UInt8} {totalThreads : ℤ}
    {es : List (TextEvent n)}
    (h : run step (init (.init (.init addFlag starveCounter) n totalThreads)) es = .ok w) :
    w.program.Kept ∧ w.program.Ordered ∧ w.Recorded := by
  have hmap := map_run step_map (init (.init (.init addFlag starveCounter) n totalThreads)) es
  rw [h] at hmap
  obtain ⟨hkept, -, hordered⟩ := Program.counted_of_run hmap.symm
  exact ⟨hkept, hordered,
    run_invariant (fun _ _ _ hI hstep => hI.step hstep) (fun _ => ⟨rfl, .nil⟩) h⟩

/-- In every run the texts of each connection are a conversation. -/
theorem run_converses {addFlag : ℕ → Bool} {starveCounter : ℕ → UInt8} {totalThreads : ℤ}
    {es : List (TextEvent n)}
    (h : run step (init (.init (.init addFlag starveCounter) n totalThreads)) es = .ok w) :
    ∀ c s, w.program.connections.get c = some s →
      s.Converses (textsOf c w.received) (textsOf c w.written) := by
  obtain ⟨hkept, -, hrecorded⟩ := kept_of_run h
  intro c s hs
  have hfollows := hkept.follows c s hs
  obtain ⟨hreceived, hwritten⟩ := hrecorded c
  rw [history_of_get hs] at hreceived hwritten
  obtain ⟨rest, hsent, hlength⟩ := hfollows.exists_sent
  refine ⟨⟨s.unanswered, ?_, ?_⟩, s.sent, rest, hsent, hlength, hwritten⟩
  · rw [← hreceived, hfollows.messages]
  · rw [Session.unanswered]
    split_ifs
    · exact le_rfl
    · exact Nat.zero_le 1

theorem run_converses_conversation : ∃ w,
    run step (init (.init (.init (fun _ => false) fun _ => 0) 1 2)) (conversation 0) = .ok w ∧
      ∀ c s, w.program.connections.get c = some s →
        s.Converses (textsOf c w.received) (textsOf c w.written) :=
  Outcome.exists_ok_and (by decide +kernel) fun _ h => run_converses h

/-- In every run the validators of the schemas lead each packet that is processed where the model
does. -/
theorem run_validated {addFlag : ℕ → Bool} {starveCounter : ℕ → UInt8} {totalThreads : ℤ}
    {es : List (TextEvent n)}
    (h : run step (init (.init (.init addFlag starveCounter) n totalThreads)) es = .ok w) :
    ∀ packet ∈ w.program.processed, ∀ s : Server,
      s.processValidated packet = s.processPacket packet := by
  obtain ⟨-, hordered, hrecorded⟩ := kept_of_run h
  intro packet hpacket
  have haccepted : packet ∈ w.program.accepted := by
    rw [hordered.inOrder]
    exact List.mem_append_left _ hpacket
  obtain ⟨-, c, s, hs, hmem⟩ := hordered.origin packet haccepted
  obtain ⟨hreceived, -⟩ := hrecorded c
  rw [history_of_get hs] at hreceived
  have hmessages : s.messages = (textsOf c w.received).map JsonPrevalidator.ofText := hreceived
  rw [hmessages] at hmem
  obtain ⟨out, -, rfl⟩ := List.mem_map.mp hmem
  exact (JsonPrevalidator.stored_ofText out).processValidated_eq

theorem run_validated_conversation : ∃ w,
    run step (init (.init (.init (fun _ => false) fun _ => 0) 1 2)) (conversation 0) = .ok w ∧
      w.program.processed.length = 1 ∧ ∀ packet ∈ w.program.processed, ∀ s : Server,
        s.processValidated packet = s.processPacket packet := by
  obtain ⟨w, h, hlength⟩ : ∃ w,
      run step (init (.init (.init (fun _ => false) fun _ => 0) 1 2)) (conversation 0) = .ok w ∧
        w.program.processed.length = 1 := Outcome.exists_ok_of_eval (by decide +kernel)
  exact ⟨w, h, hlength, run_validated h⟩

end TextProgram

end ServerUnit
