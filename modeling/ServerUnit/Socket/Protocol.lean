import ServerUnit.Server.Stamps
import ServerUnit.Socket.Handlers

/-!
# The protocol of the sessions

Every message a session reads is answered once, and the answer is written twice, the second time
from a string that is gone. A text that is no packet is answered with an empty id; a packet is
answered with the UID of a registered worker. The pointer a session holds while it waits for a
packet stays the worker that its message named.
-/

namespace ServerUnit

open Lib

/-! ### The sessions -/

/-- A text that is no packet is answered with an empty id, a packet with a worker's UID. -/
def Answered (server : Server) (packet : Json) (outPacket : ServerPacket) : Prop :=
  if validateJson packet then server.IsUid outPacket.id
  else outPacket = PacketConstructor.create .spHandshake ""

namespace Session

/-- How an answer goes out. -/
def twice (outPacket : ServerPacket) : List Frame := [.text outPacket, .destroyed outPacket]

/-- What of the last answer is not written. A connection that failed may owe its second half. -/
def Owes : SessionPc → List Frame → Prop
  | .writing outPacket, frames => frames = twice outPacket
  | .rewriting outPacket, frames => frames = [.destroyed outPacket]
  | .closed, frames => frames.length ≤ 1
  | _, frames => frames = []

/-- The message that has no answer yet. -/
def unanswered (s : Session) : List Json := if s.pc.isHandling then [s.packet] else []

/-- The protocol: the messages are answered one by one, in their order, and each answer is written
twice before the next message is read. -/
structure Follows (s : Session) (server : Server) : Prop where
  messages : s.messages = s.exchanges.map Prod.fst ++ s.unanswered
  frames : ∃ owed, Owes s.pc owed ∧
    s.frames ++ owed = s.exchanges.flatMap fun exchange => twice exchange.2
  answered : ∀ exchange ∈ s.exchanges, Answered server exchange.1 exchange.2
  /-- A packet that is handled is a packet. -/
  valid : s.pc.isHandling = true → validateJson s.packet = true
  /-- The worker that is asked for a packet is there, and is the one that the message names. -/
  worker : ∀ worker, s.pc.worker? = some worker →
    ∃ w, server.getWorker worker = some w ∧ s.packet.sender = some w.workerUID

end Session

/-! ### What a step does to the server -/

namespace Server

variable {s s' : Server} {worker : WorkerRef} {w : Worker} {uid : String}

/-- The server continues, or registers a worker. -/
def Moves (s s' : Server) : Prop :=
  Continues s s' ∨ ∃ draws, s.registerWorker draws = .ok s'

namespace Moves

lemma sound (h : Moves s s') (hs : s.Sound) : s'.Sound := by
  rcases h with h | ⟨draws, h⟩
  · exact h.toEvolves.sound hs
  · exact hs.step (e := .registerWorker draws) h

/-- A worker stays where it is. -/
lemma getWorker (h : Moves s s') (hw : s.getWorker worker = some w) :
    ∃ w', s'.getWorker worker = some w' ∧ w'.workerUID = w.workerUID := by
  rcases h with h | ⟨draws, h⟩
  · exact exists_of_map_eq (h.workerUID_eq worker) hw
  · obtain ⟨registry, uid, hgenerate, rfl⟩ := registerWorker_eq_ok.mp h
    obtain ⟨rfl, -⟩ := WorkerRegistry.generateWorkerUid_cases hgenerate
    exact ⟨w, Heap.get_alloc_of_get hw, rfl⟩

lemma isUid (h : Moves s s') (huid : s.IsUid uid) : s'.IsUid uid := by
  obtain ⟨worker, w, hw, rfl⟩ := huid
  obtain ⟨w', hw', heq⟩ := h.getWorker hw
  exact ⟨worker, w', hw', heq⟩

lemma stamped (h : Moves s s') (hs : s.Stamped) : s'.Stamped := by
  have hmoves := h
  rcases h with h | ⟨draws, h⟩
  · exact h.stamped hs
  · obtain ⟨registry, uid, -, rfl⟩ := registerWorker_eq_ok.mp h
    exact fun p o ho => hmoves.isUid (hs p o ho)

end Moves

/-- A packet that is returned was made for a worker. -/
lemma isUid_of_getQueuedPacket {workerUid : String} {outPacket : ServerPacket} (hs : s.Stamped)
    (h : s.getQueuedPacket workerUid = .ok (s', some outPacket)) : s.IsUid outPacket.id := by
  obtain ⟨_, w, w', timer, -, -, hget, -⟩ := getQueuedPacket_eq_ok.mp h
  have hsend : ∀ {v v' : Worker} {t t' : Timeout},
      Worker.SendRule s.outPackets t v v' t' (some outPacket) →
        ∃ p o, s.outPackets.get p = some o ∧ o.packet = outPacket := by
    intro v v' t t' hrule
    cases hrule with
    | skipped _ _ _ previous _ o' _ _ _ _ _ _ ho' => exact ⟨previous, o', ho', rfl⟩
    | acked p _ o _ _ ho => exact ⟨p, o, ho, rfl⟩
    | plain p _ o _ ho => exact ⟨p, o, ho, rfl⟩
  obtain ⟨p, o, ho, rfl⟩ : ∃ p o, s.outPackets.get p = some o ∧ o.packet = outPacket := by
    cases Worker.GetRule.of_getQueuedPacket hget with
    | resend p _ o _ _ _ ho => exact ⟨p, o, ho, rfl⟩
    | unlocked _ _ _ _ _ _ hrule => exact hsend hrule
    | locked _ _ _ _ _ _ hrule => exact hsend hrule
  exact hs p o ho

end Server

namespace Reception

variable {n : ℕ} [NeZero n] {r r' : Reception n}

/-- The server continues with every step of the scheduler and its threads. -/
lemma step_server {e : ReceptionEvent n} (hs : r.server.Sound) (h : r.step e = .ok r') :
    r.server.Continues r'.server := by
  have hquiet : ∀ {e : SchedEvent ServerProcess n} {y}, r.schedule e = .ok y →
      r.server.Continues y.server := by
    intro e y hy
    obtain ⟨sched, -, rfl⟩ := schedule_cases hy
    exact .refl _
  cases e with
  | start =>
    simp only [step, Outcome.guard_eq_ok, Outcome.bind_eq_ok, Outcome.pure_eq_ok] at h
    obtain ⟨-, y, hy, rfl⟩ := h
    have hserver := hquiet hy
    exact hserver
  | receivePacket packet =>
    simp only [step, Server.receivePacket, Outcome.bind_eq_ok, Outcome.pure_eq_ok] at h
    obtain ⟨server, ⟨⟨sink, rc⟩, -, rfl⟩, rfl⟩ := h
    exact .of_frame (.of_frame rfl rfl rfl) rfl
  | initValidator =>
    simp only [step, Outcome.guard_eq_ok, Outcome.bind_eq_ok, Outcome.pure_eq_ok] at h
    obtain ⟨-, y, hy, rfl⟩ := h
    have hserver := hquiet hy
    exact hserver
  | startProc i =>
    simp only [step, startProc, Outcome.bind_eq_ok, Outcome.pure_eq_ok, Prod.exists] at h
    obtain ⟨_, _, -, job, -, server, status, hstart, y, hy, rfl⟩ := h
    exact .startProcess hs hstart
  | countSlots | place | pauseProc | endProc | advance | timer => exact hquiet h

end Reception

namespace Program

variable {n : ℕ} {x x' : Program n} {c : SessionRef} {s : Session}

/-- The session registers a worker, and answers with its UID. -/
def Registers (x : Program n) (c : SessionRef) (s : Session) (x' : Program n) : Prop :=
  ∃ draws workerRegistry workerUid, s.pc = .unknown ∧
    x.server.workerRegistry.generateWorkerUid draws = .ok (workerRegistry, workerUid) ∧
    x' = { x.putSession c (s.answer (PacketConstructor.create .spHandshake workerUid)) with
      server := { x.server with
        workerRegistry, senderCoreData := x.server.senderCoreData.addWorker workerUid }
      issued := x.issued ++ [(workerUid, c)] }

lemma Registers.moves (h : Registers x c s x') : x.server.Moves x'.server := by
  obtain ⟨draws, workerRegistry, workerUid, -, hgenerate, rfl⟩ := h
  exact .inr ⟨draws, Server.registerWorker_eq_ok.mpr ⟨workerRegistry, workerUid, hgenerate, rfl⟩⟩

variable [NeZero n]

/-- A handler registers a worker, or the server continues. -/
lemma Handled.continues (h : Handled x c s x') (hs : x.server.Sound) :
    (x.server.Continues x'.server ∧ x'.issued = x.issued) ∨ Registers x c s x' := by
  cases h with
  | registered draws workerRegistry workerUid hpc hgenerate =>
    exact .inr ⟨draws, workerRegistry, workerUid, hpc, hgenerate, rfl⟩
  | modeSet worker server _ hmode =>
    obtain ⟨w, quick, hw, -, rfl⟩ := Server.setMode_eq_ok hmode
    exact .inl ⟨.of_frame (.of_put hw rfl rfl (fun _ hp => hp) (le_refl _) rfl rfl) rfl, rfl⟩
  | pushed _ _ _ hstep => exact .inl ⟨Reception.step_server hs hstep, rfl⟩
  | scheduled _ _ _ hstep => exact .inl ⟨Reception.step_server hs hstep, rfl⟩
  | idle _ _ _ hget =>
    obtain ⟨_, -, hget⟩ := Server.getQueuedPacket_of_pointer hs hget
    exact .inl ⟨.getQueuedPacket hget, rfl⟩
  | served _ _ _ _ hget =>
    obtain ⟨_, -, hget⟩ := Server.getQueuedPacket_of_pointer hs hget
    exact .inl ⟨.getQueuedPacket hget, rfl⟩
  | refused | stranger | known | disconnected | quick | again | written | rewritten | broken =>
    exact .inl ⟨.refl _, rfl⟩

lemma Handled.moves (h : Handled x c s x') (hs : x.server.Sound) : x.server.Moves x'.server := by
  rcases h.continues hs with ⟨hcontinues, -⟩ | hregisters
  · exact .inl hcontinues
  · exact hregisters.moves

/-- A step registers a worker for a session, or the server continues. -/
lemma Stepped.continues (h : Stepped x x') (hs : x.server.Sound) :
    (x.server.Continues x'.server ∧ x'.issued = x.issued) ∨
      ∃ c s, x.connections.get c = some s ∧ Registers x c s x' := by
  cases h with
  | connected => exact .inl ⟨.refl _, rfl⟩
  | processed e reception _ hstep => exact .inl ⟨Reception.step_server hs hstep, rfl⟩
  | called e server he hstep =>
    refine .inl ⟨?_, rfl⟩
    cases e with
    | updateTemplates templateStruct =>
      obtain ⟨_, _, _, -, rfl⟩ := Server.updateTemplates_eq_ok.mp hstep
      exact .of_frame (.of_frame rfl rfl rfl) rfl
    | pushUserTable userDataTable =>
      obtain ⟨_, _, _, _, rfl⟩ := Server.pushUserTable_frame hstep
      exact .of_frame (.of_frame rfl rfl rfl) rfl
    | execute => exact .execute hs hstep
    | registerWorker | pushInstanceToWorkerQueue | pushUserDataToWorkerQueue | getQueuedPacket
    | acknowledge => cases he
  | handled c s _ hc h =>
    rcases h.continues hs with hcontinues | hregisters
    · exact .inl hcontinues
    · exact .inr ⟨c, s, hc, hregisters⟩

lemma Stepped.moves (h : Stepped x x') (hs : x.server.Sound) : x.server.Moves x'.server := by
  rcases h.continues hs with ⟨hcontinues, -⟩ | ⟨_, _, -, hregisters⟩
  · exact .inl hcontinues
  · exact hregisters.moves

end Program

/-! ### What a step does to the sessions -/

namespace Session.Follows

variable {s : Session} {server server' : Server} {packet : Json} {outPacket : ServerPacket}
  {pc : SessionPc}

lemma new (server : Server) : Session.new.Follows server := by
  refine ⟨rfl, ⟨[], rfl, rfl⟩, ?_, ?_, ?_⟩ <;> simp [Session.new, SessionPc.isHandling,
    SessionPc.worker?]

/-- The server goes on. -/
lemma mono (h : s.Follows server) (hmoves : server.Moves server') : s.Follows server' := by
  refine ⟨h.messages, h.frames, fun exchange hmem => ?_, h.valid, fun worker hworker => ?_⟩
  · have hanswered := h.answered exchange hmem
    unfold Answered at hanswered ⊢
    split_ifs at hanswered ⊢
    · exact hmoves.isUid hanswered
    · exact hanswered
  · obtain ⟨w, hw, hid⟩ := h.worker worker hworker
    obtain ⟨w', hw', heq⟩ := hmoves.getWorker hw
    exact ⟨w', hw', by rw [hid, heq]⟩

/-- A message is read. -/
lemma receive (h : s.Follows server) (hpc : s.pc = .reading) (hvalid : validateJson packet = true)
    (hhandling : pc.isHandling = true) (howes : ∀ frames, Owes .reading frames → Owes pc frames)
    (hworker : ∀ worker, pc.worker? = some worker →
      ∃ w, server.getWorker worker = some w ∧ packet.sender = some w.workerUID) :
    Follows { s.receive packet with pc } server := by
  obtain ⟨owed, howed, hframes⟩ := h.frames
  rw [hpc] at howed
  refine ⟨?_, ⟨owed, howes owed howed, hframes⟩, h.answered, fun _ => hvalid, hworker⟩
  have hmessages := h.messages
  simp only [unanswered, hpc, SessionPc.isHandling, Bool.false_eq_true, if_false,
    List.append_nil] at hmessages
  simp only [Session.receive, unanswered, hhandling, if_true, hmessages]

/-- The handler goes on, with the same message. -/
lemma goOn {pc₀ : SessionPc} (h : s.Follows server) (hpc₀ : s.pc = pc₀)
    (hhandling : pc₀.isHandling = true) (hpc : pc.isHandling = true)
    (howes : ∀ frames, Owes pc₀ frames → Owes pc frames) (hworker : pc.worker? = pc₀.worker?) :
    Follows { s with pc } server := by
  subst hpc₀
  obtain ⟨owed, howed, hframes⟩ := h.frames
  refine ⟨?_, ⟨owed, howes owed howed, hframes⟩, h.answered, fun _ => h.valid hhandling, ?_⟩
  · rw [h.messages, unanswered, unanswered, hhandling, hpc]
  · rw [hworker]
    exact h.worker

/-- Nothing is owed. -/
lemma frames_eq (h : s.Follows server) (howes : ∀ frames, Owes s.pc frames → frames = []) :
    s.frames = s.exchanges.flatMap fun exchange => twice exchange.2 := by
  obtain ⟨owed, howed, hframes⟩ := h.frames
  rwa [howes owed howed, List.append_nil] at hframes

/-- The message in hand is answered. -/
lemma answer (hmessages : s.messages = s.exchanges.map Prod.fst ++ [s.packet])
    (hframes : s.frames = s.exchanges.flatMap fun exchange => twice exchange.2)
    (hall : ∀ exchange ∈ s.exchanges, Answered server exchange.1 exchange.2)
    (hanswered : Answered server s.packet outPacket) : (s.answer outPacket).Follows server := by
  refine ⟨?_, ⟨twice outPacket, rfl, ?_⟩, ?_, ?_, ?_⟩
  · simp [Session.answer, unanswered, SessionPc.isHandling, hmessages]
  · simp [Session.answer, hframes]
  · intro exchange hmem
    rcases List.mem_append.mp hmem with hmem | hmem
    · exact hall exchange hmem
    · rw [List.mem_singleton.mp hmem]
      exact hanswered
  · simp [Session.answer, SessionPc.isHandling]
  · simp [Session.answer, SessionPc.worker?]

/-- The packet in hand is answered with a worker's UID. -/
lemma answer_packet (h : s.Follows server) (hhandling : s.pc.isHandling = true)
    (howes : ∀ frames, Owes s.pc frames → frames = []) (huid : server.IsUid outPacket.id) :
    (s.answer outPacket).Follows server := by
  refine .answer ?_ (h.frames_eq howes) h.answered ?_
  · rw [h.messages, unanswered, hhandling, if_pos rfl]
  · rw [Answered, if_pos (h.valid hhandling)]
    exact huid

/-- A text that is no packet is refused. -/
lemma refuse (h : s.Follows server) (hpc : s.pc = .reading)
    (hinvalid : validateJson packet = false) :
    ((s.receive packet).answer (PacketConstructor.create .spHandshake "")).Follows server := by
  have hmessages := h.messages
  rw [unanswered, hpc, SessionPc.isHandling, if_neg Bool.false_ne_true, List.append_nil]
    at hmessages
  refine .answer ?_ (h.frames_eq fun frames howed => ?_) h.answered ?_
  · rw [Session.receive, hmessages]
  · rw [hpc] at howed
    exact howed
  · rw [Answered, Session.receive, hinvalid, if_neg Bool.false_ne_true]

/-- A frame of the answer goes out. -/
lemma sent (h : s.Follows server) (hhandling : s.pc.isHandling = false)
    (hpc : pc.isHandling = false) (hworker : pc.worker? = none) {frames : List Frame}
    (howes : ∀ owed, Owes s.pc owed → ∃ owed', Owes pc owed' ∧ owed = frames ++ owed') :
    Follows { s with pc, frames := s.frames ++ frames } server := by
  obtain ⟨owed, howed, hframes⟩ := h.frames
  obtain ⟨owed', howed', rfl⟩ := howes owed howed
  refine ⟨?_, ⟨owed', howed', ?_⟩, h.answered, ?_, ?_⟩
  · rw [h.messages, unanswered, unanswered, hhandling, hpc]
  · rw [← hframes, List.append_assoc]
  · simp [hpc]
  · simp [hworker]

/-- The connection ends. -/
lemma close (h : s.Follows server) (hhandling : s.pc.isHandling = false)
    (howes : ∀ owed, Owes s.pc owed → owed.length ≤ 1) :
    Follows { s with pc := .closed } server := by
  obtain ⟨owed, howed, hframes⟩ := h.frames
  refine ⟨?_, ⟨owed, howes owed howed, hframes⟩, h.answered, ?_, ?_⟩
  · rw [h.messages, unanswered, unanswered, hhandling]
    rfl
  · simp [SessionPc.isHandling]
  · simp [SessionPc.worker?]

end Session.Follows

namespace Program

variable {n : ℕ} {x x' : Program n} {c : SessionRef} {s : Session}

/-- What holds in every state of the program. -/
structure Kept (x : Program n) : Prop where
  sound : x.server.Sound
  stamped : x.server.Stamped
  follows : ∀ c s, x.connections.get c = some s → s.Follows x.server

lemma kept_init (addFlag : ℕ → Bool) (starveCounter : ℕ → UInt8) (totalThreads : ℤ) :
    (init (.init addFlag starveCounter) n totalThreads).Kept := by
  refine ⟨Server.sound_init addFlag starveCounter, ?_, ?_⟩
  · intro p o ho
    cases ho
  · intro c s hs
    cases hs

variable [NeZero n]

/-- The session of a handler follows the protocol afterwards. -/
lemma Handled.follows (h : Handled x c s x') (hs : x.server.Sound) (hstamped : x.server.Stamped)
    (hfollows : s.Follows x.server) :
    ∃ s', x'.connections = x.connections.put c s' ∧ s'.Follows x'.server := by
  have hmoves := h.moves hs
  cases h with
  | refused packet _ hpc hinvalid => exact ⟨_, rfl, hfollows.refuse hpc hinvalid⟩
  | stranger packet id _ hpc hvalid =>
    exact ⟨_, rfl, hfollows.receive hpc hvalid rfl (fun _ h => h) (fun _ h => by cases h)⟩
  | known packet worker w _ hpc hvalid hw hid =>
    refine ⟨_, rfl, hfollows.receive hpc hvalid rfl (fun _ h => h) fun b hb => ?_⟩
    cases hb
    exact ⟨w, hw, hid⟩
  | disconnected _ hpc =>
    refine ⟨_, rfl, hfollows.close (by rw [hpc]; rfl) fun owed howed => ?_⟩
    rw [hpc] at howed
    rw [howed]
    exact Nat.zero_le 1
  | registered draws workerRegistry workerUid hpc hgenerate =>
    refine ⟨_, rfl, (hfollows.mono hmoves).answer_packet (by rw [hpc]; rfl) ?_ ?_⟩
    · intro frames howed
      rwa [hpc] at howed
    · obtain ⟨rfl, -⟩ := WorkerRegistry.generateWorkerUid_cases hgenerate
      exact ⟨_, _, Heap.get_alloc_self _ _, rfl⟩
  | served worker server outPacket hpc hget =>
    obtain ⟨w, -, hget⟩ := Server.getQueuedPacket_of_pointer hs hget
    refine ⟨_, rfl, (hfollows.mono hmoves).answer_packet (by rw [hpc]; rfl) ?_ ?_⟩
    · intro frames howed
      rwa [hpc] at howed
    · exact hmoves.isUid (Server.isUid_of_getQueuedPacket hstamped hget)
  | quick worker w hpc hw hquick =>
    refine ⟨_, rfl, hfollows.answer_packet (by rw [hpc]; rfl) ?_ ⟨worker, w, hw, rfl⟩⟩
    intro frames howed
    rwa [hpc] at howed
  | modeSet _ _ hpc | pushed _ _ hpc | scheduled _ _ hpc | idle _ _ hpc | again _ _ hpc =>
    exact ⟨_, rfl, (hfollows.mono hmoves).goOn hpc rfl rfl (fun _ h => h) rfl⟩
  | written outPacket hpc =>
    refine ⟨_, rfl, hfollows.sent (by rw [hpc]; rfl) rfl rfl fun owed howed => ?_⟩
    rw [hpc] at howed
    exact ⟨_, rfl, howed⟩
  | rewritten outPacket _ hpc =>
    refine ⟨_, rfl, hfollows.sent (by rw [hpc]; rfl) rfl rfl fun owed howed => ?_⟩
    rw [hpc] at howed
    exact ⟨_, rfl, howed⟩
  | broken outPacket _ hpc =>
    refine ⟨_, rfl, hfollows.close (by rw [hpc]; rfl) fun owed howed => ?_⟩
    rw [hpc] at howed
    rw [howed]
    exact le_refl 1

lemma Kept.step (h : x.Kept) (hstep : Stepped x x') : x'.Kept := by
  have hmoves := hstep.moves h.sound
  refine ⟨hmoves.sound h.sound, hmoves.stamped h.stamped, fun c s' hs' => ?_⟩
  cases hstep with
  | connected =>
    by_cases hc : c = x.connections.next
    · rw [hc, Heap.get_alloc_self] at hs'
      cases hs'
      exact .new _
    · rw [Heap.get_alloc_of_ne hc] at hs'
      exact h.follows c s' hs'
  | processed | called => exact (h.follows c s' hs').mono hmoves
  | handled d s _ hs hhandled =>
    obtain ⟨s₁, hput, hfollows⟩ := hhandled.follows h.sound h.stamped (h.follows d s hs)
    rw [hput, Heap.get_put hs] at hs'
    split_ifs at hs'
    · cases hs'
      exact hfollows
    · exact (h.follows c s' hs').mono hmoves

lemma kept_of_run {addFlag : ℕ → Bool} {starveCounter : ℕ → UInt8} {totalThreads : ℤ}
    {es : List (ProgramEvent n)}
    (h : run step (init (.init addFlag starveCounter) n totalThreads) es = .ok x) : x.Kept :=
  run_invariant (fun _ _ _ hI hs => hI.step (.of_step hs))
    (kept_init addFlag starveCounter totalThreads) h

/-- In every run every session follows the protocol. -/
theorem run_follows {addFlag : ℕ → Bool} {starveCounter : ℕ → UInt8} {totalThreads : ℤ}
    {es : List (ProgramEvent n)}
    (h : run step (init (.init addFlag starveCounter) n totalThreads) es = .ok x) :
    ∀ c s, x.connections.get c = some s → s.Follows x.server :=
  (kept_of_run h).follows

/-- A packet of a worker without a UID. -/
def helloPacket : Json := .obj [("head", .int 2), ("id", .str "")]

/-- A packet of the worker `1234` in quick send mode. -/
def quickPacket : Json := .obj [("head", .int 66), ("id", .str "1234")]

/-- A worker is registered, and then answered in quick send mode. -/
theorem run_follows_quick : ∃ x,
    run step (init (.init (fun _ => false) fun _ => 0) 1 1)
      [.connect, .read 0 helloPacket, .register 0 [1234], .write 0 true, .rewrite 0 true,
        .read 0 quickPacket, .setMode 0, .push 0, .initValidator 0, .poll 0, .checkMode 0,
        .write 0 true] = .ok x ∧
      ∀ c s, x.connections.get c = some s → s.Follows x.server :=
  Outcome.exists_ok_and (by decide) fun _ h => run_follows h

end Program

end ServerUnit
