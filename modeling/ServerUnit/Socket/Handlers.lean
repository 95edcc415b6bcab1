import ServerUnit.Socket.Session

/-!
# What the handlers of the sessions do

Each statement of `on_read` and `on_write` has one rule here. Later files case on the rules and never
unfold the handlers.
-/

namespace ServerUnit

open Lib

namespace Json

variable {packet : Json} {id : String}

lemma sender_eq_some (h : (packet.index "id" >>= toStr) = .ok id) : packet.sender = some id := by
  simp only [Outcome.bind_eq_ok] at h
  obtain ⟨j, hj, hid⟩ := h
  cases packet with
  | obj fields =>
    cases hj
    cases hm : member fields "id" <;> rw [hm] at hid <;> cases hid
    rw [sender, hm, string?]
  | null =>
    cases hj
    cases hid
  | bool | int | float | str | arr => cases hj

end Json

lemma Worker.resetQuickSendMode_eq (w : Worker) :
    w.resetQuickSendMode = { w with quickSendMode := false } := by
  obtain ⟨_, _, _, _, _, quick, _, _, _⟩ := w
  cases quick <;> rfl

namespace Server

variable {s s' : Server} {worker : WorkerRef}

/-- A worker asked by its pointer is asked by its UID. -/
lemma getQueuedPacket_of_pointer {packet : Option ServerPacket} (hs : s.Sound)
    (h : s.getQueuedPacketOf worker = .ok (s', packet)) :
    ∃ w, s.getWorker worker = some w ∧ s.getQueuedPacket w.workerUID = .ok (s', packet) := by
  simp only [getQueuedPacketOf, Outcome.bind_eq_ok, Heap.deref_eq_ok, Outcome.pure_eq_ok,
    Prod.mk.injEq] at h
  obtain ⟨w, hw, ⟨w', timer, out⟩, hget, rfl, rfl⟩ := h
  have hfound := hs.registered.getWorkerFromUid (fun _ hb => hb)
    (hs.registered.listed worker w hw) hw
  exact ⟨w, hw, getQueuedPacket_eq_ok.mpr ⟨worker, w, w', timer, hfound, hw, hget, rfl⟩⟩

lemma setMode_eq_ok {packet : Json} (h : s.setMode worker packet = .ok s') :
    ∃ w quick, s.getWorker worker = some w ∧ checkQuickSendBit packet = .ok quick ∧
      s' = s.putWorker worker { w with quickSendMode := quick } := by
  simp only [setMode, Outcome.bind_eq_ok, Heap.deref_eq_ok, Outcome.pure_eq_ok] at h
  obtain ⟨quick, hquick, w, hw, rfl⟩ := h
  refine ⟨w, quick, hw, hquick, ?_⟩
  cases quick with
  | true => rfl
  | false => rw [if_neg Bool.false_ne_true, Worker.resetQuickSendMode_eq]

end Server

namespace Program

variable {n : ℕ} {x x' : Program n} {c : SessionRef} {s : Session}

lemma startHandler_eq_ok {y : Outcome (Program n)} :
    x.startHandler y = .ok x' ↔ x.busyThreads < x.threads ∧ y = .ok x' :=
  Outcome.guard_eq_ok

variable [NeZero n]

/-- What a handler of a session does. -/
inductive Handled (x : Program n) (c : SessionRef) (s : Session) : Program n → Prop where
  | refused (packet : Json) (hfree : x.busyThreads < x.threads) (hpc : s.pc = .reading)
      (hinvalid : validateJson packet = false) :
      Handled x c s (x.putSession c
        ((s.receive packet).answer (PacketConstructor.create .spHandshake "")))
  | stranger (packet : Json) (id : String) (hfree : x.busyThreads < x.threads)
      (hpc : s.pc = .reading) (hvalid : validateJson packet = true) (hid : packet.sender = some id)
      (hnone : x.server.workerRegistry.getWorkerFromUid id = .ok none) :
      Handled x c s (x.putSession c { s.receive packet with pc := .unknown })
  | known (packet : Json) (worker : WorkerRef) (w : Worker) (hfree : x.busyThreads < x.threads)
      (hpc : s.pc = .reading) (hvalid : validateJson packet = true)
      (hw : x.server.getWorker worker = some w) (hid : packet.sender = some w.workerUID) :
      Handled x c s (x.putSession c { s.receive packet with pc := .identified worker })
  | disconnected (hfree : x.busyThreads < x.threads) (hpc : s.pc = .reading) :
      Handled x c s (x.putSession c { s with pc := .closed })
  | registered (draws : List ℕ) (workerRegistry : WorkerRegistry) (workerUid : String)
      (hpc : s.pc = .unknown)
      (hgenerate : x.server.workerRegistry.generateWorkerUid draws =
        .ok (workerRegistry, workerUid)) :
      Handled x c s
        { x.putSession c (s.answer (PacketConstructor.create .spHandshake workerUid)) with
          server := { x.server with
            workerRegistry, senderCoreData := x.server.senderCoreData.addWorker workerUid }
          issued := x.issued ++ [(workerUid, c)] }
  | modeSet (worker : WorkerRef) (server : Server) (hpc : s.pc = .identified worker)
      (hmode : x.server.setMode worker s.packet = .ok server) :
      Handled x c s { x.putSession c { s with pc := .modeSet worker } with server }
  | pushed (worker : WorkerRef) (reception : Reception n) (hpc : s.pc = .modeSet worker)
      (hstep : x.toReception.step (.receivePacket s.packet) = .ok reception) :
      Handled x c s { x.putSession c { s with pc := .pushed worker } with
        toReception := reception
        accepted :=
          if x.server.receiverSink.getCurrentSinkSpace < MAX_POOL_SIZE then
            x.accepted ++ [s.packet]
          else x.accepted }
  | scheduled (worker : WorkerRef) (reception : Reception n) (hpc : s.pc = .pushed worker)
      (hstep : x.toReception.step .initValidator = .ok reception) :
      Handled x c s { x.putSession c { s with pc := .polling worker } with
        toReception := reception }
  | idle (worker : WorkerRef) (server : Server) (hpc : s.pc = .polling worker)
      (hget : x.server.getQueuedPacketOf worker = .ok (server, none)) :
      Handled x c s { x.putSession c { s with pc := .polled worker } with server }
  | served (worker : WorkerRef) (server : Server) (outPacket : ServerPacket)
      (hpc : s.pc = .polling worker)
      (hget : x.server.getQueuedPacketOf worker = .ok (server, some outPacket)) :
      Handled x c s { x.putSession c (s.answer outPacket) with server }
  | quick (worker : WorkerRef) (w : Worker) (hpc : s.pc = .polled worker)
      (hw : x.server.getWorker worker = some w) (hquick : w.quickSendMode = true) :
      Handled x c s (x.putSession c
        (s.answer (PacketConstructor.create .spHandshake w.workerUID)))
  | again (worker : WorkerRef) (w : Worker) (hpc : s.pc = .polled worker)
      (hw : x.server.getWorker worker = some w) (hquick : w.quickSendMode = false) :
      Handled x c s (x.putSession c { s with pc := .polling worker })
  | written (outPacket : ServerPacket) (hpc : s.pc = .writing outPacket) :
      Handled x c s (x.putSession c
        { s with pc := .rewriting outPacket, frames := s.frames ++ [.text outPacket] })
  | rewritten (outPacket : ServerPacket) (hfree : x.busyThreads < x.threads)
      (hpc : s.pc = .rewriting outPacket) :
      Handled x c s (x.putSession c
        { s with pc := .reading, frames := s.frames ++ [.destroyed outPacket] })
  | broken (outPacket : ServerPacket) (hfree : x.busyThreads < x.threads)
      (hpc : s.pc = .rewriting outPacket) :
      Handled x c s (x.putSession c { s with pc := .closed })

lemma Handled.of_read {packet : Json} (hfree : x.busyThreads < x.threads)
    (hpc : s.pc = .reading) (h : x.read c s packet = .ok x') : Handled x c s x' := by
  unfold read at h
  cases hvalid : validateJson packet with
  | false =>
    rw [hvalid, if_neg Bool.false_ne_true, Outcome.pure_eq_ok] at h
    rw [← h]
    exact .refused packet hfree hpc hvalid
  | true =>
    simp only [hvalid, if_true, Outcome.bind_eq_ok] at h
    obtain ⟨j, hj, id, hid, found, hfound, h⟩ := h
    have hsender : packet.sender = some id :=
      Json.sender_eq_some (Outcome.bind_eq_ok.mpr ⟨j, hj, hid⟩)
    cases found with
    | none =>
      rw [Outcome.pure_eq_ok] at h
      rw [← h]
      exact .stranger packet id hfree hpc hvalid hsender hfound
    | some worker =>
      obtain ⟨-, w, hw, rfl⟩ := WorkerRegistry.of_getWorkerFromUid hfound
      rw [Outcome.pure_eq_ok] at h
      rw [← h]
      exact .known packet worker w hfree hpc hvalid hw hsender

/-- A handler that returns did one of the things it can do. -/
lemma Handled.of_handle {e : ProgramEvent n} (h : x.handle c s e = .ok x') :
    Handled x c s x' := by
  cases e with
  | read _ packet =>
    simp only [handle, startHandler_eq_ok, Outcome.guard_eq_ok] at h
    exact .of_read h.1 h.2.1 h.2.2
  | disconnect =>
    simp only [handle, startHandler_eq_ok, Outcome.guard_eq_ok, Outcome.pure_eq_ok] at h
    obtain ⟨hfree, hpc, rfl⟩ := h
    exact .disconnected hfree hpc
  | register _ draws =>
    simp only [handle, register, Outcome.guard_eq_ok, Outcome.bind_eq_ok, Outcome.pure_eq_ok,
      Prod.exists] at h
    obtain ⟨hpc, workerRegistry, workerUid, hgenerate, rfl⟩ := h
    exact .registered draws workerRegistry workerUid hpc hgenerate
  | setMode =>
    cases hpc : s.pc <;> simp only [handle, hpc, reduceCtorEq] at h
    next worker =>
      simp only [Outcome.bind_eq_ok, Outcome.pure_eq_ok] at h
      obtain ⟨server, hmode, rfl⟩ := h
      exact .modeSet worker server hpc hmode
  | push =>
    cases hpc : s.pc <;> simp only [handle, hpc, reduceCtorEq] at h
    next worker =>
      simp only [push, Outcome.bind_eq_ok, Outcome.pure_eq_ok] at h
      obtain ⟨reception, hstep, rfl⟩ := h
      exact .pushed worker reception hpc hstep
  | initValidator =>
    cases hpc : s.pc <;> simp only [handle, hpc, reduceCtorEq] at h
    next worker =>
      simp only [Outcome.bind_eq_ok, Outcome.pure_eq_ok] at h
      obtain ⟨reception, hstep, rfl⟩ := h
      exact .scheduled worker reception hpc hstep
  | poll =>
    cases hpc : s.pc <;> simp only [handle, hpc, reduceCtorEq] at h
    next worker =>
      simp only [poll, Outcome.bind_eq_ok, Outcome.pure_eq_ok, Prod.exists] at h
      obtain ⟨server, packet, hget, rfl⟩ := h
      cases packet with
      | none => exact .idle worker server hpc hget
      | some outPacket => exact .served worker server outPacket hpc hget
  | checkMode =>
    cases hpc : s.pc <;> simp only [handle, hpc, reduceCtorEq] at h
    next worker =>
      simp only [checkMode, Outcome.bind_eq_ok, Heap.deref_eq_ok] at h
      obtain ⟨w, hw, h⟩ := h
      cases hquick : w.quickSendMode with
      | true =>
        rw [Worker.isQuickSendMode, hquick, if_pos rfl, Outcome.pure_eq_ok] at h
        rw [← h]
        exact .quick worker w hpc hw hquick
      | false =>
        rw [Worker.isQuickSendMode, hquick, if_neg Bool.false_ne_true, Outcome.pure_eq_ok] at h
        rw [← h]
        exact .again worker w hpc hw hquick
  | write _ sent =>
    cases hpc : s.pc <;> simp only [handle, hpc, reduceCtorEq] at h
    next outPacket =>
      cases sent with
      | true =>
        cases h
        exact .written outPacket hpc
      | false => cases h
  | rewrite _ sent =>
    cases hpc : s.pc <;> simp only [handle, hpc, reduceCtorEq] at h
    next outPacket =>
      simp only [startHandler_eq_ok, Outcome.pure_eq_ok] at h
      obtain ⟨hfree, rfl⟩ := h
      cases sent with
      | true => exact .rewritten outPacket hfree hpc
      | false => exact .broken outPacket hfree hpc
  | connect => cases h
  | process e => cases h
  | background e => cases h

/-- What a step of the program does. -/
inductive Stepped (x : Program n) : Program n → Prop where
  | connected (hfree : x.busyThreads < x.threads) :
      Stepped x { x with connections := x.connections.alloc .new }
  | processed (e : ReceptionEvent n) (reception : Reception n) (he : e.isScheduled = true)
      (hstep : x.toReception.step e = .ok reception) :
      Stepped x { x with toReception := reception, processed := x.processed ++ x.taken e }
  | called (e : ServerEvent) (server : Server) (he : e.isBackground = true)
      (hstep : x.server.step e = .ok server) : Stepped x { x with server }
  | handled (c : SessionRef) (s : Session) (x' : Program n) (hs : x.connections.get c = some s)
      (h : Handled x c s x') : Stepped x x'

lemma Stepped.of_step {e : ProgramEvent n} (h : x.step e = .ok x') : Stepped x x' := by
  cases e with
  | connect =>
    simp only [step, startHandler_eq_ok, Outcome.pure_eq_ok] at h
    obtain ⟨hfree, rfl⟩ := h
    exact .connected hfree
  | process e =>
    simp only [step, Outcome.guard_eq_ok, Outcome.bind_eq_ok, Outcome.pure_eq_ok] at h
    obtain ⟨he, reception, hstep, rfl⟩ := h
    exact .processed e reception he hstep
  | background e =>
    simp only [step, Outcome.guard_eq_ok, Outcome.bind_eq_ok, Outcome.pure_eq_ok] at h
    obtain ⟨he, server, hstep, rfl⟩ := h
    exact .called e server he hstep
  | read c | register c | setMode c | push c | initValidator c | poll c | checkMode c | write c
  | rewrite c | disconnect c =>
    simp only [step, Outcome.bind_eq_ok, Heap.deref_eq_ok] at h
    obtain ⟨s, hs, h⟩ := h
    exact .handled c s x' hs (.of_handle h)

end Program

end ServerUnit
