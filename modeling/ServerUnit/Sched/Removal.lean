import ServerUnit.Sched.Timeout
import Mathlib.Data.List.Perm.Basic
import Mathlib.Data.List.Nodup

/-!
# The removal of a worker

`execute` removes a worker that has timed out twice, from inside the loop over the timed packets:
its packets are handed to the sender core, and it leaves the list of workers. The timer list and
the registry are not touched, so the packet that the loop was at goes on naming it.
-/

namespace ServerUnit

open Lib

namespace Server

/-- The table of the packet names the worker. -/
def Names (s : Server) (p : OutPacketRef) (worker : WorkerRef) : Prop :=
  ∃ o i st, s.outPackets.get p = some o ∧ o.outData = some i ∧
    s.outgoingDataRegistry.states.get i = some st ∧ st.worker = some worker

/-- Each timed packet waits for its acknowledgement at the worker that its table names. -/
def TimedPending (s : Server) : Prop :=
  ∀ p ∈ s.packetTimeout.timedPackets, ∃ worker w, s.Names p worker ∧
    s.getWorker worker = some w ∧ p ∈ w.ackPendingQueue

/-- A call of `execute` removes the worker, which was `w` before. -/
structure Removes (s s' : Server) (worker : WorkerRef) (w : Worker) : Prop where
  execute : s.execute = .ok s'
  before : s.getWorker worker = some w
  after : s'.getWorker worker = none

/-- The loop, having gone over the packets `before`, finds the packet not checked in (or checked
out by now) and its worker absent. -/
structure Struck (s : Server) (before : List OutPacketRef) (p : OutPacketRef)
    (worker : WorkerRef) : Prop where
  names : s.Names p worker
  absent : ∃ w, s.getWorker worker = some w ∧ w.attendance = false
  unchecked : p ∈ before ∨ ∃ o, s.outPackets.get p = some o ∧ o.status = false

/-- Some worker gets a strike from these packets after an earlier one, of this call or of a call
before. -/
def SecondStrike (s : Server) (timedPackets : List OutPacketRef) : Prop :=
  ∃ before p after worker, timedPackets = before ++ p :: after ∧ s.Struck before p worker ∧
    (worker ∈ s.packetTimeout.timedoutWorkerRegistry ∨
      ∃ before' q after', before = before' ++ q :: after' ∧ s.Struck before' q worker)

/-- The worker, which was `w`, is not referred to any more. -/
structure Forgotten (s' : Server) (worker : WorkerRef) (w : Worker) : Prop where
  unlisted : worker ∉ s'.workerRegistry.currentWorkerList
  pending : ∀ p ∈ w.ackPendingQueue ++ w.senderQueue,
    s'.senderCoreData.pendingPacketsList.count p = 1
  untimed : ∀ p ∈ s'.packetTimeout.timedPackets, ¬ s'.Names p worker
  unnamed : ∀ i ∈ s'.outgoingDataRegistry.outDataRegistryList, ∀ st,
    s'.outgoingDataRegistry.states.get i = some st → st.worker ≠ some worker

variable {s s' t : Server} {worker b : WorkerRef} {w : Worker} {p : OutPacketRef}
  {timedPackets : List OutPacketRef} {returned : Bool}

/-! ### What the loop does -/

lemma foldl_addPackets (d : SenderCoreData) (ps : List OutPacketRef) :
    ps.foldl SenderCoreData.addPackets d =
      { d with pendingPacketsList := d.pendingPacketsList ++ ps } := by
  induction ps generalizing d with
  | nil => simp
  | cons p ps ih => rw [List.foldl_cons, ih, SenderCoreData.addPackets, List.append_assoc,
      List.singleton_append]

lemma removeWorker_eq_ok : s.removeWorker worker = .ok s' ↔
    ∃ w, s.getWorker worker = some w ∧ 0 < w.workerLock ∧
      s' = { s with
        workerRegistry := { s.workerRegistry with
          workers := s.workerRegistry.workers.free worker
          currentWorkerList := s.workerRegistry.currentWorkerList.filter (· ≠ worker)
          deadWorkerList := w.workerUID :: s.workerRegistry.deadWorkerList }
        senderCoreData := { s.senderCoreData with
          pendingPacketsList := s.senderCoreData.pendingPacketsList ++
            (w.ackPendingQueue ++ w.senderQueue) } } := by
  simp only [removeWorker, Outcome.bind_eq_ok, Outcome.pure_eq_ok, Prod.exists,
    WorkerRegistry.deleteWorker_eq_ok, foldl_addPackets]
  constructor
  · rintro ⟨_, _, ⟨w, hw, hlock, rfl, rfl⟩, rfl⟩
    exact ⟨w, hw, hlock, rfl⟩
  · rintro ⟨w, hw, hlock, rfl⟩
    exact ⟨_, _, ⟨w, hw, hlock, rfl, rfl⟩, rfl⟩

/-- The timer list after the round that resends `p` to the worker: the workers struck are those of
before and the worker, if it is absent; it was not among them then. -/
structure Resends (s : Server) (p : OutPacketRef) (worker : WorkerRef) (timer : Timeout) :
    Prop where
  names : s.Names p worker
  unchecked : ∃ o, s.outPackets.get p = some o ∧ o.status = false
  timed : timer.timedPackets = s.packetTimeout.timedPackets
  struck : ∀ b, b ∈ timer.timedoutWorkerRegistry ↔
    b ∈ s.packetTimeout.timedoutWorkerRegistry ∨ s.Struck [] p b
  first : s.Struck [] p worker → worker ∉ s.packetTimeout.timedoutWorkerRegistry

/-- What one round of the loop does, with the rounds that follow. -/
inductive LoopRule (s : Server) (p : OutPacketRef) (timedPackets : List OutPacketRef)
    (s' : Server) (returned : Bool) : Prop where
  | checkOut (o : OutPacket) (ho : s.outPackets.get p = some o) (hstatus : o.status = true)
      (hloop : executeLoop { s with outPackets := s.outPackets.put p o.checkOut } timedPackets
        = .ok (s', returned))
  /-- The worker is there, or gets its first strike. -/
  | resend (worker : WorkerRef) (timer : Timeout) (t : Server) (hresends : s.Resends p worker timer)
      (hpush : { s with packetTimeout := timer }.pushToFront worker p = .ok t)
      (hloop : executeLoop t timedPackets = .ok (s', returned))
  | remove (worker : WorkerRef) (timer : Timeout) (hstruck : s.Struck [] p worker)
      (hsecond : worker ∈ s.packetTimeout.timedoutWorkerRegistry)
      (htimed : timer.timedPackets = s.packetTimeout.timedPackets)
      (hremove : { s with packetTimeout := timer }.removeWorker worker = .ok s')
      (hreturned : returned = true)

/-- The table of a packet names one worker at most. -/
lemma Names.unique (h : s.Names p worker) (h' : s.Names p b) : worker = b := by
  obtain ⟨o, i, st, ho, hdata, hst, hworker⟩ := h
  obtain ⟨o', i', st', ho', hdata', hst', hb⟩ := h'
  cases ho.symm.trans ho'
  cases hdata.symm.trans hdata'
  cases hst.symm.trans hst'
  exact Option.some.inj (hworker.symm.trans hb)

lemma Overdue.names (h : s.Overdue p worker w) : s.Names p worker := by
  obtain ⟨o, st, ⟨ho, i, hdata, hst⟩, -, hworker⟩ := h.unchecked
  exact ⟨o, i, st, ho, hdata, hst, hworker⟩

lemma Overdue.unchecked_packet (h : s.Overdue p worker w) :
    ∃ o, s.outPackets.get p = some o ∧ o.status = false := by
  obtain ⟨o, st, ho, hstatus, -⟩ := h.unchecked
  exact ⟨o, ho.packet, hstatus⟩

/-- The round strikes no worker but the one named, and that one only if it is absent. -/
lemma Overdue.struck_iff (h : s.Overdue p worker w) :
    s.Struck [] p b ↔ b = worker ∧ w.attendance = false := by
  constructor
  · rintro ⟨hb, ⟨v, hv, habsent⟩, -⟩
    cases hb.unique h.names
    cases h.worker.symm.trans hv
    exact ⟨rfl, habsent⟩
  · rintro ⟨rfl, habsent⟩
    exact ⟨h.names, ⟨w, h.worker, habsent⟩, .inr h.unchecked_packet⟩

lemma LoopRule.of_executeLoop (h : s.executeLoop (p :: timedPackets) = .ok (s', returned)) :
    LoopRule s p timedPackets s' returned := by
  cases RoundRule.of_executeLoop h with
  | checkOut o st ho hstatus hfinal hloop => exact .checkOut o ho.packet hstatus hloop
  | resend worker w t hw hatt hpush hloop =>
    refine .resend worker s.packetTimeout t ⟨hw.names, hw.unchecked_packet, rfl, ?_, ?_⟩ hpush hloop
    · simp [hw.struck_iff, hatt]
    · simp [hw.struck_iff, hatt]
  | strike worker w t hw habsent hfirst hpush hloop =>
    refine .resend worker (s.strike worker).packetTimeout t
      ⟨hw.names, hw.unchecked_packet, rfl, ?_, fun _ => hfirst⟩ hpush hloop
    simp [strike, hw.struck_iff, habsent]
  | remove worker w hw habsent hsecond hremove hreturned =>
    exact .remove worker (s.unstrike worker).packetTimeout (hw.struck_iff.mpr ⟨rfl, habsent⟩)
      hsecond rfl hremove hreturned

/-- What no round changes: the timed packets, and which tables the packets are of. -/
structure SameTables (s s' : Server) : Prop where
  registry : s'.outgoingDataRegistry = s.outgoingDataRegistry
  timed : s'.packetTimeout.timedPackets = s.packetTimeout.timedPackets
  outData : ∀ q, (s'.outPackets.get q).map OutPacket.outData =
    (s.outPackets.get q).map OutPacket.outData

namespace SameTables

lemma trans (h : SameTables s t) (h' : SameTables t s') : SameTables s s' :=
  ⟨h'.registry.trans h.registry, h'.timed.trans h.timed,
    fun q => (h'.outData q).trans (h.outData q)⟩

lemma names (h : SameTables s s') : s'.Names p worker ↔ s.Names p worker := by
  constructor
  · rintro ⟨o', i, st, ho', hdata, hst, hworker⟩
    obtain ⟨o, ho, hsame⟩ := exists_of_map_eq (h.outData p).symm ho'
    exact ⟨o, i, st, ho, hsame.trans hdata, h.registry ▸ hst, hworker⟩
  · rintro ⟨o, i, st, ho, hdata, hst, hworker⟩
    obtain ⟨o', ho', hsame⟩ := exists_of_map_eq (h.outData p) ho
    exact ⟨o', i, st, ho', hsame.trans hdata, h.registry ▸ hst, hworker⟩

lemma checkOut {o : OutPacket} (ho : s.outPackets.get p = some o) :
    SameTables s { s with outPackets := s.outPackets.put p o.checkOut } := by
  refine ⟨rfl, rfl, fun q => ?_⟩
  dsimp only
  rw [Heap.get_put ho]
  split_ifs with hq
  · rw [hq, ho]
    rfl
  · rfl

lemma pushToFront {timer : Timeout}
    (htimed : timer.timedPackets = s.packetTimeout.timedPackets)
    (h : { s with packetTimeout := timer }.pushToFront worker p = .ok t) : SameTables s t := by
  obtain ⟨w, -, -, rfl⟩ := pushToFront_eq_ok.mp h
  exact ⟨rfl, htimed, fun _ => rfl⟩

lemma executeLoop (h : s.executeLoop timedPackets = .ok (s', returned)) : SameTables s s' := by
  induction timedPackets generalizing s with
  | nil =>
    cases h
    exact ⟨rfl, rfl, fun _ => rfl⟩
  | cons p timedPackets ih =>
    cases LoopRule.of_executeLoop h with
    | checkOut o ho hstatus hloop => exact (checkOut ho).trans (ih hloop)
    | resend worker timer t hresends hpush hloop =>
      exact (pushToFront hresends.timed hpush).trans (ih hloop)
    | remove worker timer hstruck hsecond htimed hremove hreturned =>
      obtain ⟨w, -, -, rfl⟩ := removeWorker_eq_ok.mp hremove
      exact ⟨rfl, htimed, fun _ => rfl⟩

end SameTables

/-- A packet pushed to the front of a worker's pending queue: the others keep theirs, and this one
has the same packets pending, if the packet was among them. -/
lemma getWorker_pushToFront {timer : Timeout}
    (h : { s with packetTimeout := timer }.pushToFront b p = .ok t)
    (hw : s.getWorker worker = some w) :
    ∃ w', t.getWorker worker = some w' ∧ w'.senderQueue = w.senderQueue ∧
      (w.ackPendingQueue.Nodup → (b = worker → p ∈ w.ackPendingQueue) →
        w'.ackPendingQueue.Perm w.ackPendingQueue) := by
  obtain ⟨v, hv, -, rfl⟩ := pushToFront_eq_ok.mp h
  by_cases hb : worker = b
  · subst hb
    rw [show s.getWorker worker = some v from hv] at hw
    cases hw
    refine ⟨_, Heap.get_put_self hv, rfl, ?_⟩
    intro hnodup hmem
    show (p :: w.ackPendingQueue.filter (· ≠ p)).Perm w.ackPendingQueue
    have herase : w.ackPendingQueue.filter (· ≠ p) = w.ackPendingQueue.erase p := by
      rw [hnodup.erase_eq_filter p]
      congr
      funext q
      exact decide_not
    rw [herase]
    exact (List.perm_cons_erase (hmem rfl)).symm
  · exact ⟨w, (Heap.get_put_of_ne hb).trans hw, rfl, fun _ _ => .refl _⟩

/-! ### When a worker is removed -/

/-- The call has taken the list lock, or given it back. -/
def withListLock (s : Server) (lock : ℕ) : Server :=
  { s with packetTimeout := { s.packetTimeout with timeoutListLock := lock } }

/-- What a round leaves that the loop goes on from: the packet is checked out, and its worker may
have a strike, its first one. -/
structure Round (s : Server) (p : OutPacketRef) (t : Server) : Prop where
  tables : SameTables s t
  lock : t.packetTimeout.timeoutListLock = s.packetTimeout.timeoutListLock
  packets : ∀ q, t.outPackets.get q =
    if q = p then (s.outPackets.get q).map OutPacket.checkOut else s.outPackets.get q
  workers : ∀ b, (t.getWorker b).map (fun w => (w.attendance, w.workerLock)) =
    (s.getWorker b).map (fun w => (w.attendance, w.workerLock))
  registry : ∀ b, b ∈ t.packetTimeout.timedoutWorkerRegistry ↔
    b ∈ s.packetTimeout.timedoutWorkerRegistry ∨ s.Struck [] p b
  first : ∀ b, s.Struck [] p b → b ∉ s.packetTimeout.timedoutWorkerRegistry

namespace Round

lemma checkOut {o : OutPacket} (ho : s.outPackets.get p = some o) (hstatus : o.status = true) :
    Round s p { s with outPackets := s.outPackets.put p o.checkOut } := by
  have hnot : ∀ b, ¬ s.Struck [] p b := by
    rintro b ⟨-, -, hmem | ⟨o', ho', hfalse⟩⟩
    · cases hmem
    · cases ho.symm.trans ho'
      rw [hstatus] at hfalse
      cases hfalse
  refine ⟨.checkOut ho, rfl, fun q => ?_, fun _ => rfl, by simp [hnot], fun b hb => absurd hb (hnot b)⟩
  rw [Heap.get_put ho]
  split_ifs with hq
  · rw [hq, ho, Option.map_some]
  · rfl

/-- Pushing a packet to the front changes no packet, no attendance and no lock. -/
lemma pushToFront (timer : Timeout) (hover : s.Overdue p worker w)
    (htimed : timer.timedPackets = s.packetTimeout.timedPackets)
    (hlock : timer.timeoutListLock = s.packetTimeout.timeoutListLock)
    (hregistry : ∀ b, b ∈ timer.timedoutWorkerRegistry ↔
      b ∈ s.packetTimeout.timedoutWorkerRegistry ∨ s.Struck [] p b)
    (hfirst : ∀ b, s.Struck [] p b → b ∉ s.packetTimeout.timedoutWorkerRegistry)
    (h : { s with packetTimeout := timer }.pushToFront worker p = .ok t) : Round s p t := by
  have hsame := SameTables.pushToFront htimed h
  obtain ⟨v, hv, -, rfl⟩ := pushToFront_eq_ok.mp h
  refine ⟨hsame, hlock, fun q => ?_, ?_, hregistry, hfirst⟩
  · split_ifs with hq
    · -- it was checked out already
      obtain ⟨o, ho, hstatus⟩ := hover.unchecked_packet
      rw [hq, show (s.outPackets.get p).map OutPacket.checkOut = some o.checkOut by simp [ho]]
      simp [putWorker, ho, OutPacket.checkOut, ← hstatus]
    · rfl
  · apply KeepsWorkers.put (f := fun w => (w.attendance, w.workerLock)) hv
    · rfl
    · rfl

lemma attendance (h : Round s p t) (b : WorkerRef) :
    (t.getWorker b).map Worker.attendance = (s.getWorker b).map Worker.attendance := by
  simpa [Function.comp_def] using congrArg (Option.map Prod.fst) (h.workers b)

/-- The packet of the round is not checked in from then on, and the others are as they were. -/
lemma unchecked_iff {q : OutPacketRef} {before : List OutPacketRef} (h : Round s p t)
    (hq : s.Names q worker) :
    (q ∈ before ∨ ∃ o, t.outPackets.get q = some o ∧ o.status = false) ↔
      (q ∈ p :: before ∨ ∃ o, s.outPackets.get q = some o ∧ o.status = false) := by
  obtain ⟨o, i, st, ho, -⟩ := hq
  rw [h.packets q]
  by_cases hq : q = p
  · simp [hq, hq ▸ ho, OutPacket.checkOut]
  · simp [hq]

lemma struck_iff {q : OutPacketRef} {before : List OutPacketRef} (h : Round s p t) :
    t.Struck before q worker ↔ s.Struck (p :: before) q worker := by
  have habsent : (∃ w, t.getWorker worker = some w ∧ w.attendance = false) ↔
      ∃ w, s.getWorker worker = some w ∧ w.attendance = false := by
    rw [← Option.map_eq_some_iff, ← Option.map_eq_some_iff, h.attendance]
  constructor
  · rintro ⟨hq, ha, hu⟩
    have hnames := h.tables.names.mp hq
    exact ⟨hnames, habsent.mp ha, (h.unchecked_iff hnames).mp hu⟩
  · rintro ⟨hq, ha, hu⟩
    exact ⟨h.tables.names.mpr hq, habsent.mpr ha, (h.unchecked_iff hq).mpr hu⟩

end Round

/-- A round either goes on, or removes a worker that has a strike. -/
lemma exists_round (h : s.executeLoop (p :: timedPackets) = .ok (s', returned)) :
    (∃ t, s.Round p t ∧ t.executeLoop timedPackets = .ok (s', returned)) ∨
      ∃ worker w, s.Overdue p worker w ∧ w.attendance = false ∧
        worker ∈ s.packetTimeout.timedoutWorkerRegistry ∧
        (s.unstrike worker).removeWorker worker = .ok s' ∧ returned = true := by
  cases RoundRule.of_executeLoop h with
  | checkOut o st ho hstatus hfinal hloop => exact .inl ⟨_, .checkOut ho.packet hstatus, hloop⟩
  | resend worker w t hw hatt hpush hloop =>
    refine .inl ⟨t, .pushToFront s.packetTimeout hw rfl rfl ?_ ?_ hpush, hloop⟩
    · simp [hw.struck_iff, hatt]
    · simp [hw.struck_iff, hatt]
  | strike worker w t hw habsent hfirst hpush hloop =>
    refine .inl ⟨t, .pushToFront (s.strike worker).packetTimeout hw rfl rfl ?_ ?_ hpush, hloop⟩
    · simp [strike, hw.struck_iff, habsent]
    · simpa [hw.struck_iff, habsent] using hfirst
  | remove worker w hw habsent hsecond hremove hreturned =>
    exact .inr ⟨worker, w, hw, habsent, hsecond, hremove, hreturned⟩

/-- The strike is not the worker's first one. -/
def StruckTwice (s : Server) (before : List OutPacketRef) (p : OutPacketRef)
    (worker : WorkerRef) : Prop :=
  s.Struck before p worker ∧ (worker ∈ s.packetTimeout.timedoutWorkerRegistry ∨
    ∃ before' q after', before = before' ++ q :: after' ∧ s.Struck before' q worker)

lemma secondStrike_iff : s.SecondStrike timedPackets ↔ ∃ before p after,
    timedPackets = before ++ p :: after ∧ ∃ worker, s.StruckTwice before p worker := by
  simp only [SecondStrike, StruckTwice, exists_and_left]

lemma struckTwice_nil : s.StruckTwice [] p worker ↔
    s.Struck [] p worker ∧ worker ∈ s.packetTimeout.timedoutWorkerRegistry := by
  rw [StruckTwice, or_iff_left not_exists_place_nil]

/-- A round leaves the second strikes to the rounds that follow. -/
lemma Round.struckTwice_iff {q : OutPacketRef} {before : List OutPacketRef} (h : Round s p t) :
    t.StruckTwice before q worker ↔ s.StruckTwice (p :: before) q worker := by
  simp only [StruckTwice, exists_place_cons, h.struck_iff, h.registry, or_assoc]

lemma Round.not_struckTwice (h : Round s p t) : ¬ s.StruckTwice [] p worker := by
  rw [struckTwice_nil]
  rintro ⟨hstruck, hmem⟩
  exact h.first worker hstruck hmem

lemma Round.secondStrike_iff (h : Round s p t) :
    t.SecondStrike timedPackets ↔ s.SecondStrike (p :: timedPackets) := by
  simp only [Server.secondStrike_iff, exists_place_cons, h.struckTwice_iff, h.not_struckTwice,
    exists_false, false_or]

/-! The list lock makes no difference to the strikes. -/

lemma struck_withListLock {lock : ℕ} {before : List OutPacketRef} :
    (s.withListLock lock).Struck before p worker ↔ s.Struck before p worker :=
  ⟨fun ⟨hnames, habsent, hunchecked⟩ => ⟨hnames, habsent, hunchecked⟩,
    fun ⟨hnames, habsent, hunchecked⟩ => ⟨hnames, habsent, hunchecked⟩⟩

lemma struckTwice_withListLock {lock : ℕ} {before : List OutPacketRef} :
    (s.withListLock lock).StruckTwice before p worker ↔ s.StruckTwice before p worker := by
  simp only [StruckTwice, struck_withListLock]
  rfl

lemma secondStrike_withListLock {lock : ℕ} :
    (s.withListLock lock).SecondStrike timedPackets ↔ s.SecondStrike timedPackets := by
  simp only [secondStrike_iff, struckTwice_withListLock]

/-- The loop returns early exactly at a second strike. -/
lemma returned_iff_secondStrike (h : s.executeLoop timedPackets = .ok (s', returned)) :
    returned = true ↔ s.SecondStrike timedPackets := by
  induction timedPackets generalizing s with
  | nil =>
    cases h
    rw [secondStrike_iff]
    exact iff_of_false Bool.false_ne_true not_exists_place_nil
  | cons p timedPackets ih =>
    rcases exists_round h with ⟨t, hround, hloop⟩ | ⟨worker, w, hw, habsent, hsecond, -, hreturned⟩
    · exact (ih hloop).trans hround.secondStrike_iff
    · refine iff_of_true hreturned (secondStrike_iff.mpr (exists_place_cons.mpr (.inl ?_)))
      exact ⟨worker, struckTwice_nil.mpr ⟨hw.struck_iff.mpr ⟨rfl, habsent⟩, hsecond⟩⟩

/-- A worker is gone after the loop exactly when the loop returned early. -/
lemma returned_iff_removed (h : s.executeLoop timedPackets = .ok (s', returned)) :
    returned = true ↔ ∃ worker w, s.getWorker worker = some w ∧ s'.getWorker worker = none := by
  have hnone : (∃ worker w, s.getWorker worker = some w ∧ s'.getWorker worker = none) ↔
      ∃ worker, ∃ a, (s.getWorker worker).map Worker.attendance = some a ∧
        (s'.getWorker worker).map Worker.attendance = none := by
    simp
  rw [hnone]
  clear hnone
  induction timedPackets generalizing s with
  | nil =>
    cases h
    refine iff_of_false Bool.false_ne_true ?_
    rintro ⟨worker, a, ha, hgone⟩
    rw [ha] at hgone
    cases hgone
  | cons p timedPackets ih =>
    rcases exists_round h with ⟨t, hround, hloop⟩ | ⟨worker, w, -, -, -, hremove, hreturned⟩
    · refine (ih hloop).trans ?_
      simp only [hround.attendance]
    · obtain ⟨w, hw, -, rfl⟩ := removeWorker_eq_ok.mp hremove
      have hgone : (s.workerRegistry.workers.free worker).get worker = none :=
        Heap.get_free_self _ worker
      refine iff_of_true hreturned ⟨worker, w.attendance, ?_, ?_⟩
      · rw [show s.getWorker worker = some w from hw, Option.map_some]
      · dsimp only [getWorker, unstrike]
        rw [hgone, Option.map_none]

/-! ### What a removal leaves behind -/

/-- The packet that the loop was at names the worker removed. -/
lemma exists_names_of_executeLoop (h : s.executeLoop timedPackets = .ok (s', returned))
    (hw : s.getWorker worker = some w) (hgone : s'.getWorker worker = none) :
    ∃ p ∈ timedPackets, s.Names p worker := by
  induction timedPackets generalizing s w with
  | nil =>
    cases h
    rw [hw] at hgone
    cases hgone
  | cons p timedPackets ih =>
    cases LoopRule.of_executeLoop h with
    | checkOut o ho hstatus hloop =>
      obtain ⟨q, hq, hnames⟩ := ih hloop hw
      exact ⟨q, List.mem_cons_of_mem _ hq, (SameTables.checkOut ho).names.mp hnames⟩
    | resend b timer t hresends hpush hloop =>
      obtain ⟨w', hw', -, -⟩ := getWorker_pushToFront hpush hw
      obtain ⟨q, hq, hnames⟩ := ih hloop hw'
      exact ⟨q, List.mem_cons_of_mem _ hq, (SameTables.pushToFront hresends.timed hpush).names.mp hnames⟩
    | remove b timer hstruck hsecond htimed hremove hreturned =>
      obtain ⟨v, hv, -, rfl⟩ := removeWorker_eq_ok.mp hremove
      by_cases hb : worker = b
      · exact ⟨p, List.mem_cons_self, hb ▸ hstruck.names⟩
      · dsimp only [getWorker] at hgone
        rw [Heap.get_free_of_ne hb] at hgone
        exact absurd (hw.symm.trans hgone) (Option.some_ne_none w)

/-- The worker removed leaves the list, and its packets go to the end of the pending ones. -/
lemma pending_of_executeLoop (h : s.executeLoop timedPackets = .ok (s', returned))
    (hw : s.getWorker worker = some w) (hgone : s'.getWorker worker = none)
    (hnodup : w.ackPendingQueue.Nodup)
    (htimed : ∀ p ∈ timedPackets, s.Names p worker → p ∈ w.ackPendingQueue) :
    worker ∉ s'.workerRegistry.currentWorkerList ∧
      ∃ ack, ack.Perm w.ackPendingQueue ∧ s'.senderCoreData.pendingPacketsList =
        s.senderCoreData.pendingPacketsList ++ (ack ++ w.senderQueue) := by
  induction timedPackets generalizing s w with
  | nil =>
    cases h
    rw [hw] at hgone
    cases hgone
  | cons p timedPackets ih =>
    have hrest : ∀ q ∈ timedPackets, s.Names q worker → q ∈ w.ackPendingQueue := fun q hq =>
      htimed q (List.mem_cons_of_mem _ hq)
    cases LoopRule.of_executeLoop h with
    | checkOut o ho hstatus hloop =>
      exact ih (s := { s with outPackets := s.outPackets.put p o.checkOut }) hloop hw hnodup
        fun q hq hnames => hrest q hq ((SameTables.checkOut ho).names.mp hnames)
    | resend b timer t hresends hpush hloop =>
      obtain ⟨w', hw', hqueue, hperm⟩ := getWorker_pushToFront hpush hw
      have hperm := hperm hnodup fun hb => htimed p List.mem_cons_self (hb ▸ hresends.names)
      have hpending : t.senderCoreData = s.senderCoreData := by
        obtain ⟨v, -, -, rfl⟩ := pushToFront_eq_ok.mp hpush
        rfl
      rw [← hpending, ← hqueue]
      obtain ⟨hlist, ack, hack, heq⟩ := ih hloop hw' (hperm.nodup_iff.mpr hnodup)
        fun q hq hnames => hperm.mem_iff.mpr
          (hrest q hq ((SameTables.pushToFront hresends.timed hpush).names.mp hnames))
      exact ⟨hlist, ack, hack.trans hperm, heq⟩
    | remove b timer hstruck hsecond hsame hremove hreturned =>
      obtain ⟨v, hv, -, rfl⟩ := removeWorker_eq_ok.mp hremove
      by_cases hb : worker = b
      · subst hb
        rw [show s.getWorker worker = some v from hv] at hw
        cases hw
        exact ⟨by simp, w.ackPendingQueue, .refl _, rfl⟩
      · dsimp only [getWorker] at hgone
        rw [Heap.get_free_of_ne hb] at hgone
        exact absurd (hw.symm.trans hgone) (Option.some_ne_none w)

/-- What `execute` does clean up: the worker leaves the list, and each of its packets is pending
once, if none of them was in two places before. -/
theorem pending_of_removes (hpending : s.TimedPending) (h : Removes s s' worker w)
    (hnodup : (s.senderCoreData.pendingPacketsList ++
      (w.ackPendingQueue ++ w.senderQueue)).Nodup) :
    worker ∉ s'.workerRegistry.currentWorkerList ∧
      ∀ p ∈ w.ackPendingQueue ++ w.senderQueue,
        s'.senderCoreData.pendingPacketsList.count p = 1 := by
  obtain ⟨lock, lock', t, returned, hloop, rfl⟩ := execute_loop h.execute
  have hack : w.ackPendingQueue.Nodup :=
    (List.nodup_append.mp (List.nodup_append.mp hnodup).2.1).1
  have htimed : ∀ p ∈ s.packetTimeout.timedPackets, s.Names p worker →
      p ∈ w.ackPendingQueue := by
    intro p hp hnames
    obtain ⟨b, v, hb, hv, hmem⟩ := hpending p hp
    cases hb.unique hnames
    cases h.before.symm.trans hv
    exact hmem
  obtain ⟨hlist, ack, hperm, heq⟩ := pending_of_executeLoop hloop h.before h.after hack htimed
  refine ⟨hlist, fun p hp => ?_⟩
  have hall : t.senderCoreData.pendingPacketsList.Perm (s.senderCoreData.pendingPacketsList ++
      (w.ackPendingQueue ++ w.senderQueue)) := by
    rw [heq]
    exact (hperm.append_right _).append_left _
  show t.senderCoreData.pendingPacketsList.count p = 1
  rw [hall.count_eq]
  exact List.count_eq_one_of_mem hnodup (List.mem_append_right _ hp)

/-- Whenever `execute` removes a worker, a timed packet goes on naming it. -/
lemma not_forgotten_of_removes (h : Removes s s' worker w) : ¬ s'.Forgotten worker w := by
  intro hforgotten
  obtain ⟨lock, lock', t, returned, hloop, rfl⟩ := execute_loop h.execute
  obtain ⟨p, hp, hnames⟩ := exists_names_of_executeLoop hloop h.before h.after
  have hsame := SameTables.executeLoop hloop
  exact hforgotten.untimed p (hsame.timed ▸ hp) (hsame.names.mpr hnames)

/-- `execute` removes a worker exactly at a second strike. -/
lemma exists_removes_iff (h : s.execute = .ok s') :
    (∃ worker w, Removes s s' worker w) ↔ s.SecondStrike s.packetTimeout.timedPackets := by
  obtain ⟨lock, lock', t, returned, hloop, rfl⟩ := execute_loop h
  have hsecond : returned = true ↔ s.SecondStrike s.packetTimeout.timedPackets :=
    (returned_iff_secondStrike hloop).trans secondStrike_withListLock
  rw [← hsecond, returned_iff_removed hloop]
  exact ⟨fun ⟨worker, w, hr⟩ => ⟨worker, w, hr.before, hr.after⟩,
    fun ⟨worker, w, hbefore, hafter⟩ => ⟨worker, w, h, hbefore, hafter⟩⟩

/-- The workers removed by `execute` are referred to no more exactly when it removes none, which
is when no worker gets its second strike. -/
theorem forgotten_iff_not_secondStrike (h : s.execute = .ok s') :
    (∀ worker w, Removes s s' worker w → s'.Forgotten worker w) ↔
      ¬ s.SecondStrike s.packetTimeout.timedPackets := by
  rw [← exists_removes_iff h]
  constructor
  · rintro hall ⟨worker, w, hr⟩
    exact not_forgotten_of_removes hr (hall worker w hr)
  · intro hnone worker w hr
    exact absurd ⟨worker, w, hr⟩ hnone

/-- The worker `1`, which has not checked in, with the packet of a table sent and another queued. -/
def absentWorker : Worker :=
  { Worker.new "1" with attendance := false, ackPendingQueue := [0], senderQueue := [1] }

/-- The absent worker has its first strike. -/
def struckServer : Server :=
  { init (fun _ => false) (fun _ => 0) with
    outPackets := ⟨[some ⟨⟨.spDataSent, "1", .userData "A" .lowPriority "T" "1,2"⟩, some 0, true, false⟩,
      some ⟨⟨.spDataSent, "1", .userData "B" .lowPriority "T" "3,4"⟩, some 1, true, true⟩]⟩
    outgoingDataRegistry :=
      ⟨[0, 1], ⟨[some ⟨"A", .dataReady, some 0⟩, some ⟨"B", .dataReady, some 0⟩]⟩⟩
    workerRegistry := ⟨⟨[some absentWorker]⟩, [0], [], false⟩
    packetTimeout := ⟨[0], [0], 1⟩ }

theorem forgotten_iff_not_secondStrike_struck : ∃ s', struckServer.execute = .ok s' ∧
    ((∀ worker w, Removes struckServer s' worker w → s'.Forgotten worker w) ↔
      ¬ struckServer.SecondStrike struckServer.packetTimeout.timedPackets) :=
  Outcome.exists_ok_and (by decide) fun _ h => forgotten_iff_not_secondStrike h

/-- The second strike removes the worker; the timer list and the registry go on naming it. -/
theorem execute_not_forgotten : ∃ s', struckServer.TimedPending ∧
    Removes struckServer s' 0 absentWorker ∧ ¬ s'.Forgotten 0 absentWorker := by
  obtain ⟨s', h, hgone⟩ : ∃ s', struckServer.execute = .ok s' ∧ s'.getWorker 0 = none :=
    Outcome.exists_ok_of_eval (by decide)
  have hremoves : Removes struckServer s' 0 absentWorker := ⟨h, rfl, hgone⟩
  refine ⟨s', ?_, hremoves, not_forgotten_of_removes hremoves⟩
  intro p hp
  rw [List.mem_singleton.mp hp]
  exact ⟨0, absentWorker, ⟨_, 0, _, rfl, rfl, rfl, rfl⟩, rfl, List.mem_singleton_self 0⟩

end Server

end ServerUnit
