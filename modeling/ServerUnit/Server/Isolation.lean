import ServerUnit.Server.Calls
import Mathlib.Data.List.Nodup

/-!
# Isolation of the workers' packets

A packet is made for one worker and carries its UID. The registry object of the packet's table
is shared by the packets of all workers, and the timer re-sends a packet to the worker that this
object names. As long as every re-sent packet goes back to the worker it was made for, the
packets of different workers stay apart.
-/

namespace ServerUnit

open Lib

/-- The packets a worker holds. -/
def Worker.packets (w : Worker) : List OutPacketRef := w.senderQueue ++ w.ackPendingQueue

lemma Worker.mem_packets {w : Worker} {p : OutPacketRef} :
    p ∈ w.packets ↔ p ∈ w.senderQueue ∨ p ∈ w.ackPendingQueue := List.mem_append

/-- The packet is allocated and was made for the UID. -/
def AddressedTo (mem : Heap OutPacket) (workerUID : String) (p : OutPacketRef) : Prop :=
  ∃ o ∈ mem.get p, o.packet.id = workerUID

/-- The workers have their own UIDs and packets, and the timer only has packets that some worker
waits for. -/
structure Separated (mem : Heap OutPacket) (workers : Heap Worker)
    (currentWorkerList : List WorkerRef) (timed : List OutPacketRef) : Prop
    extends Registered workers currentWorkerList where
  addressed : ∀ worker w, workers.get worker = some w →
    ∀ p ∈ w.packets, AddressedTo mem w.workerUID p
  single : ∀ worker w, workers.get worker = some w → w.packets.Nodup
  pending : ∀ p ∈ timed, ∃ worker w, workers.get worker = some w ∧ p ∈ w.ackPendingQueue
  timedOnce : timed.Nodup

namespace Separated

variable {mem mem' : Heap OutPacket} {workers : Heap Worker} {list : List WorkerRef}
  {timed timed' : List OutPacketRef} {timer timer' : Timeout} {worker : WorkerRef}
  {w w' : Worker} {p : OutPacketRef}

/-- Two workers that hold one packet are the same. -/
lemma eq_of_mem (h : Separated mem workers list timed) {a b : WorkerRef} {wa wb : Worker}
    (ha : workers.get a = some wa) (hb : workers.get b = some wb) (hpa : p ∈ wa.packets)
    (hpb : p ∈ wb.packets) : a = b := by
  obtain ⟨o, ho, hoa⟩ := h.addressed a wa ha p hpa
  obtain ⟨o', ho', hob⟩ := h.addressed b wb hb p hpb
  rw [Option.mem_def] at ho ho'
  rw [ho] at ho'
  cases ho'
  exact h.distinct a b wa wb ha hb (hoa.symm.trans hob)

/-- A packet in a sender queue is not timed. -/
lemma not_timed (h : Separated mem workers list timed) (hw : workers.get worker = some w)
    (hp : p ∈ w.senderQueue) : p ∉ timed := by
  intro ht
  obtain ⟨b, wb, hb, hpb⟩ := h.pending p ht
  have hab : worker = b :=
    h.eq_of_mem hw hb (Worker.mem_packets.mpr (.inl hp)) (Worker.mem_packets.mpr (.inr hpb))
  subst hab
  rw [hw] at hb
  cases hb
  exact (List.nodup_append.mp (h.single worker w hw)).2.2 p hp p hpb rfl

/-- One worker, the packets and the timer list change. -/
lemma update (h : Separated mem workers list timed) (hw : workers.get worker = some w)
    (huid : w'.workerUID = w.workerUID) (hatt : w'.attendance = w.attendance)
    (haddr : ∀ p ∈ w'.packets, AddressedTo mem' w.workerUID p)
    (hnodup : w'.packets.Nodup)
    (hothers : ∀ b wb, b ≠ worker → workers.get b = some wb →
      ∀ p ∈ wb.packets, mem'.get p = mem.get p)
    (hpend : ∀ p ∈ timed', p ∈ w'.ackPendingQueue ∨ (p ∈ timed ∧ p ∉ w.ackPendingQueue))
    (honce : timed'.Nodup) :
    Separated mem' (workers.put worker w') list timed' := by
  have hget : ∀ b wb, (workers.put worker w').get b = some wb →
      (b = worker ∧ wb = w') ∨ (b ≠ worker ∧ workers.get b = some wb) := by
    intro b wb hb
    rw [Heap.get_put hw] at hb
    split_ifs at hb with heq
    · exact .inl ⟨heq, (Option.some.inj hb).symm⟩
    · exact .inr ⟨heq, hb⟩
  refine ⟨h.toRegistered.put hw ?_, ?_, ?_, ?_, honce⟩
  · rw [Worker.identity, Worker.identity, huid, hatt]
  · intro b wb hb p hp
    rcases hget b wb hb with ⟨-, rfl⟩ | ⟨hne, hb⟩
    · rw [huid]
      exact haddr p hp
    · obtain ⟨o, ho, hid⟩ := h.addressed b wb hb p hp
      exact ⟨o, (hothers b wb hne hb p hp).trans ho, hid⟩
  · intro b wb hb
    rcases hget b wb hb with ⟨-, rfl⟩ | ⟨-, hb⟩
    · exact hnodup
    · exact h.single b wb hb
  · intro p hp
    rcases hpend p hp with hp | ⟨hp, hnot⟩
    · exact ⟨worker, w', Heap.get_put_self hw, hp⟩
    · obtain ⟨b, wb, hb, hpb⟩ := h.pending p hp
      have hne : b ≠ worker := by
        rintro rfl
        rw [hw] at hb
        cases hb
        exact hnot hpb
      exact ⟨b, wb, by rw [Heap.get_put_of_ne hne, hb], hpb⟩

/-- The worker changes, but not in its packets. -/
lemma update_same (h : Separated mem workers list timed) (hw : workers.get worker = some w)
    (huid : w'.workerUID = w.workerUID) (hatt : w'.attendance = w.attendance)
    (hsender : w'.senderQueue = w.senderQueue) (hpending : w'.ackPendingQueue = w.ackPendingQueue) :
    Separated mem (workers.put worker w') list timed := by
  have hpackets : w'.packets = w.packets := by rw [Worker.packets, Worker.packets, hsender, hpending]
  refine h.update hw huid hatt ?_ ?_ (fun _ _ _ _ _ _ => rfl) ?_ h.timedOnce
  · rw [hpackets]
    exact h.addressed worker w hw
  · rw [hpackets]
    exact h.single worker w hw
  · intro p hp
    rw [hpending]
    by_cases hmem : p ∈ w.ackPendingQueue
    · exact .inl hmem
    · exact .inr ⟨hp, hmem⟩

/-- Packets change in what is not their id. -/
lemma mem_change (h : Separated mem workers list timed)
    (hmem : ∀ p o, mem.get p = some o → ∃ o' ∈ mem'.get p, o'.packet.id = o.packet.id) :
    Separated mem' workers list timed := by
  refine { h with addressed := ?_ }
  intro worker w hw p hp
  obtain ⟨o, ho, hid⟩ := h.addressed worker w hw p hp
  obtain ⟨o', ho', hid'⟩ := hmem p o ho
  exact ⟨o', ho', hid'.trans hid⟩

lemma alloc (h : Separated mem workers list timed) (o : OutPacket) :
    Separated (mem.alloc o) workers list timed :=
  h.mem_change fun _ o' ho' => ⟨o', Heap.get_alloc_of_get ho', rfl⟩

lemma checkOut (h : Separated mem workers list timed) {o : OutPacket} (ho : mem.get p = some o) :
    Separated (mem.put p o.checkOut) workers list timed := by
  apply h.mem_change
  intro q o' ho'
  by_cases heq : q = p
  · subst heq
    rw [ho] at ho'
    cases ho'
    exact ⟨o.checkOut, Heap.get_put_self ho, rfl⟩
  · exact ⟨o', (Heap.get_put_of_ne heq).trans ho', rfl⟩

/-- A new worker, under a UID that was free. -/
lemma register (h : Separated mem workers list timed) {workerUID : String}
    (hfree : ∀ worker ∈ list, ∃ w, workers.get worker = some w ∧ w.workerUID ≠ workerUID) :
    Separated mem (workers.alloc (.new workerUID)) (workers.next :: list) timed := by
  have hget : ∀ b wb, (workers.alloc (.new workerUID)).get b = some wb →
      wb = .new workerUID ∨ workers.get b = some wb := by
    intro b wb hb
    by_cases heq : b = workers.next
    · subst heq
      rw [Heap.get_alloc_self] at hb
      exact .inl (Option.some.inj hb).symm
    · rw [Heap.get_alloc_of_ne heq] at hb
      exact .inr hb
  refine ⟨h.toRegistered.register hfree, ?_, ?_, ?_, h.timedOnce⟩
  · intro b wb hb p hp
    rcases hget b wb hb with rfl | hb
    · simp [Worker.packets, Worker.new] at hp
    · exact h.addressed b wb hb p hp
  · intro b wb hb
    rcases hget b wb hb with rfl | hb
    · simp [Worker.packets, Worker.new]
    · exact h.single b wb hb
  · intro p hp
    obtain ⟨b, wb, hb, hpb⟩ := h.pending p hp
    exact ⟨b, wb, Heap.get_alloc_of_get hb, hpb⟩

/-! ### The calls on one worker -/

/-- A packet of `worker` is the packet it was. -/
lemma get_eq (h : Separated mem workers list timed) (hw : workers.get worker = some w)
    (hp : p ∈ w.packets) (hmem : ∀ o, mem.get p = some o → mem'.get p = some o) :
    mem'.get p = mem.get p := by
  obtain ⟨o, ho, -⟩ := h.addressed worker w hw p hp
  rw [Option.mem_def] at ho
  rw [hmem o ho, ho]

/-- A new packet, made for the worker, at the back of its sender queue. -/
lemma queuePacket (h : Separated mem workers list timed) (hw : workers.get worker = some w)
    {o : OutPacket} (hid : o.packet.id = w.workerUID) :
    Separated (mem.alloc o)
      (workers.put worker { w with senderQueue := w.senderQueue ++ [mem.next] }) list timed := by
  have hnew : mem.next ∉ w.packets := by
    intro hp
    obtain ⟨o', ho', -⟩ := h.addressed worker w hw _ hp
    simp at ho'
  have hperm : ({ w with senderQueue := w.senderQueue ++ [mem.next] } : Worker).packets.Perm
      (mem.next :: w.packets) := by
    simp only [Worker.packets, List.append_assoc]
    exact List.perm_middle
  refine h.update hw rfl rfl ?_ ?_ ?_ ?_ h.timedOnce
  · intro p hp
    rcases List.mem_cons.mp (hperm.mem_iff.mp hp) with rfl | hp
    · exact ⟨o, Heap.get_alloc_self _ _, hid⟩
    · obtain ⟨o', ho', hid'⟩ := h.addressed worker w hw p hp
      exact ⟨o', Heap.get_alloc_of_get ho', hid'⟩
  · exact hperm.nodup_iff.mpr (List.nodup_cons.mpr ⟨hnew, h.single worker w hw⟩)
  · intro b wb _ hb p hp
    exact h.get_eq hb hp fun _ => Heap.get_alloc_of_get
  · intro p hp
    by_cases hmem : p ∈ w.ackPendingQueue
    · exact .inl hmem
    · exact .inr ⟨hp, hmem⟩

/-- A packet moves from the sender queue to the pending queue and the timer, or leaves. -/
lemma getQueuedPacket (h : Separated mem workers list timer.timedPackets)
    (hw : workers.get worker = some w) {out : Option ServerPacket}
    (hg : w.getQueuedPacket mem timer = .ok (w', timer', out)) :
    Separated mem (workers.put worker w') list timer'.timedPackets := by
  obtain ⟨hmove, hw'⟩ := Worker.getQueuedPacket_move hg
  have huid : w'.workerUID = w.workerUID := by rw [hw']
  have hatt : w'.attendance = w.attendance := by rw [hw']
  have haddr := h.addressed worker w hw
  have hsingle := h.single worker w hw
  generalize hsq : w.senderQueue = sq at hmove
  generalize hpq : w.ackPendingQueue = pq at hmove
  generalize hsq' : w'.senderQueue = sq' at hmove
  generalize hpq' : w'.ackPendingQueue = pq' at hmove
  have hpackets : w.packets = sq ++ pq := by rw [Worker.packets, hsq, hpq]
  have hpackets' : w'.packets = sq' ++ pq' := by rw [Worker.packets, hsq', hpq']
  rw [hpackets] at haddr hsingle
  cases hmove with
  | stay => exact h.update_same hw huid hatt (hsq'.trans hsq.symm) (hpq'.trans hpq.symm)
  | toPending p _ o _ hqueue =>
    subst hqueue
    have hperm : (sq' ++ (pq ++ [p])).Perm (p :: sq' ++ pq) := by
      rw [← List.append_assoc]
      exact List.perm_append_singleton p (sq' ++ pq)
    refine h.update hw huid hatt ?_ ?_ (fun _ _ _ _ _ _ => rfl) ?_ ?_
    · rw [hpackets']
      exact fun q hq => haddr q (hperm.mem_iff.mp hq)
    · rw [hpackets']
      exact hperm.nodup_iff.mpr hsingle
    · intro q hq
      rw [hpq', hpq]
      rcases List.mem_append.mp hq with hq | hq
      · by_cases hmem : q ∈ pq
        · exact .inl (List.mem_append_left _ hmem)
        · exact .inr ⟨hq, hmem⟩
      · exact .inl (List.mem_append_right _ hq)
    · have hnot : p ∉ timer.timedPackets := h.not_timed hw (by simp [hsq])
      rw [List.nodup_append]
      refine ⟨h.timedOnce, List.nodup_singleton p, ?_⟩
      rintro q hq r hr rfl
      rw [List.mem_singleton.mp hr] at hq
      exact hnot hq
  | leave before after p o hqueue =>
    subst hqueue
    have hsub : List.Sublist (before ++ after ++ pq) (before ++ p :: after ++ pq) :=
      ((List.sublist_cons_self p after).append_left before).append_right pq
    refine h.update hw huid hatt ?_ ?_ (fun _ _ _ _ _ _ => rfl) ?_ h.timedOnce
    · rw [hpackets']
      exact fun q hq => haddr q (hsub.subset hq)
    · rw [hpackets']
      exact hsingle.sublist hsub
    · intro q hq
      rw [hpq', hpq]
      by_cases hmem : q ∈ pq
      · exact .inl hmem
      · exact .inr ⟨hq, hmem⟩

/-- The packet found leaves its only queue, the timer and the heap. -/
lemma matchAckablePacket (h : Separated mem workers list timed)
    (hw : workers.get worker = some w) {before after : List OutPacketRef}
    (hq : w.ackPendingQueue = before ++ p :: after) :
    Separated (mem.free p)
      (workers.put worker { w with ackPendingQueue := before ++ after }) list
      (timed.filter (· ≠ p)) := by
  have hsingle := h.single worker w hw
  have hperm : w.packets.Perm
      (p :: ({ w with ackPendingQueue := before ++ after } : Worker).packets) := by
    simp only [Worker.packets, hq, ← List.append_assoc]
    exact List.perm_middle
  obtain ⟨hnot, hnodup⟩ := List.nodup_cons.mp (hperm.nodup_iff.mp hsingle)
  have hpacket : p ∈ w.packets := hperm.mem_iff.mpr List.mem_cons_self
  refine h.update hw rfl rfl ?_ hnodup ?_ ?_ (h.timedOnce.filter _)
  · intro q hmem
    obtain ⟨o, ho, hid⟩ := h.addressed worker w hw q
      (hperm.mem_iff.mpr (List.mem_cons_of_mem _ hmem))
    have hne : q ≠ p := ne_of_mem_of_not_mem hmem hnot
    exact ⟨o, (Heap.get_free_of_ne hne).trans ho, hid⟩
  · intro b wb hne hb q hmem
    apply Heap.get_free_of_ne
    rintro rfl
    exact hne (h.eq_of_mem hb hw hmem hpacket)
  · intro q hmem
    simp only [List.mem_filter, decide_eq_true_eq] at hmem
    by_cases hpend : q ∈ w.ackPendingQueue
    · left
      rw [hq] at hpend
      simp only [List.mem_append, List.mem_cons] at hpend ⊢
      rcases hpend with hpend | rfl | hpend
      · exact .inl hpend
      · exact absurd rfl hmem.2
      · exact .inr hpend
    · exact .inr ⟨hmem.1, hpend⟩

/-- A timed packet goes to the front of the worker it was made for. -/
lemma pushToFront (h : Separated mem workers list timed) (hw : workers.get worker = some w)
    (hp : p ∈ timed) (hid : AddressedTo mem w.workerUID p) :
    Separated mem
      (workers.put worker { w with
        ackPendingQueue := p :: w.ackPendingQueue.filter (· ≠ p)
        ackPacketPop := true }) list timed := by
  -- the worker that waits for the packet has the UID in it, so it is this one
  have hpend : p ∈ w.ackPendingQueue := by
    obtain ⟨b, wb, hb, hpb⟩ := h.pending p hp
    obtain ⟨o, ho, hob⟩ := h.addressed b wb hb p (Worker.mem_packets.mpr (.inr hpb))
    obtain ⟨o', ho', how⟩ := hid
    rw [Option.mem_def] at ho ho'
    rw [ho] at ho'
    cases ho'
    have hab : b = worker := h.distinct b worker wb w hb hw (hob.symm.trans how)
    subst hab
    rw [hw] at hb
    cases hb
    exact hpb
  have hsingle := h.single worker w hw
  have hperm : (p :: w.ackPendingQueue.filter (· ≠ p)).Perm w.ackPendingQueue := by
    have hnodup : w.ackPendingQueue.Nodup := (List.nodup_append.mp hsingle).2.1
    have herase := (List.perm_cons_erase hpend).symm
    rw [hnodup.erase_eq_filter] at herase
    simpa [bne, Bool.beq_eq_decide_eq] using herase
  have hpackets := hperm.append_left w.senderQueue
  refine h.update hw rfl rfl ?_ ?_ (fun _ _ _ _ _ _ => rfl) ?_ h.timedOnce
  · exact fun q hq => h.addressed worker w hw q (hpackets.mem_iff.mp hq)
  · exact hpackets.nodup_iff.mpr hsingle
  · intro q hq
    by_cases hmem : q ∈ w.ackPendingQueue
    · exact .inl (hperm.mem_iff.mpr hmem)
    · exact .inr ⟨hq, hmem⟩

end Separated

/-! ### The calls on the server -/

namespace Server

/-- The workers of the server are separated. -/
abbrev IsSeparated (s : Server) : Prop :=
  Separated s.outPackets s.workerRegistry.workers s.workerRegistry.currentWorkerList
    s.packetTimeout.timedPackets

/-- Every packet that `execute` would re-send belongs to a table whose recorded worker has the UID
that the packet carries. -/
def ResendsHome (s : Server) (timedPackets : List OutPacketRef) : Prop :=
  ∀ p ∈ timedPackets, ∀ o ∈ s.outPackets.get p, o.status = false →
    ∀ i ∈ o.outData, ∀ st ∈ s.outgoingDataRegistry.states.get i, ∀ worker ∈ st.worker,
      ∀ w ∈ s.getWorker worker, o.packet.id = w.workerUID

variable {s s' : Server} {worker : WorkerRef} {w : Worker}

namespace IsSeparated

lemma init (addFlag : ℕ → Bool) (starveCounter : ℕ → UInt8) :
    (Server.init addFlag starveCounter).IsSeparated := by
  refine ⟨⟨?_, ?_, ?_, ?_⟩, ?_, ?_, ?_, ?_⟩ <;>
    simp [Server.init, WorkerRegistry.new, Timeout.new]

lemma trackWorker (h : s.IsSeparated) {workerUid : String}
    (hs : s.trackWorker workerUid = .ok s') : s'.IsSeparated := by
  obtain ⟨l, registry, hadd, rfl⟩ := trackWorker_eq_ok.mp hs
  rcases WorkerInstanceList.addWorker_cases hadd with ⟨-, rfl, rfl⟩ | ⟨worker, w, -, hw, rfl, rfl⟩
  · exact h
  · exact Separated.update_same h hw rfl rfl rfl rfl

lemma updateTracking (h : s.IsSeparated) {workerUid templateId : String}
    (hs : s.updateTracking workerUid templateId = .ok s') : s'.IsSeparated := by
  obtain ⟨l, registry, hupdate, rfl⟩ := updateTracking_eq_ok.mp hs
  cases WorkerInstanceList.UpdateRule.of_updateWorker hupdate with
  | untracked | waiting => exact h
  | ready before after e worker w _ _ _ _ _ hw =>
    exact Separated.update_same h hw rfl rfl rfl rfl

lemma queuePacket (h : s.IsSeparated) {packet : OutPacket} {rc : ℕ}
    (hs : s.queuePacket worker packet = .ok (s', rc))
    (hid : ∀ w, s.getWorker worker = some w → packet.packet.id = w.workerUID) :
    s'.IsSeparated := by
  obtain ⟨w, hw, ⟨-, -, rfl⟩ | ⟨-, -, -, rfl⟩⟩ := queuePacket_cases hs
  · exact Separated.alloc h packet
  · exact Separated.queuePacket h hw (hid w hw)

lemma getQueuedPacket (h : s.IsSeparated) {workerUid : String} {packet : Option ServerPacket}
    (hs : s.getQueuedPacket workerUid = .ok (s', packet)) : s'.IsSeparated := by
  obtain ⟨worker, w, w', timer, -, hw, hg, rfl⟩ := getQueuedPacket_eq_ok.mp hs
  exact Separated.getQueuedPacket h hw hg

lemma matchAckablePacket (h : s.IsSeparated) {id : String} {found : Bool}
    (hs : s.matchAckablePacket worker id = .ok (s', found)) : s'.IsSeparated := by
  obtain ⟨w, hw, ⟨-, before, after, p, hq, -, rfl⟩ | ⟨-, rfl⟩⟩ := matchAckablePacket_cases hs
  · exact Separated.matchAckablePacket h hw hq
  · exact h

/-! #### The sender core -/

lemma dispatch : DispatchRule fun s s' : Server => s.IsSeparated → s'.IsSeparated where
  refl _ h := h
  trans h h' hs := h' (h hs)
  registryAdd hadd h := by
    obtain ⟨r, -, rfl⟩ := registryAdd_eq_ok.mp hadd
    exact h
  queuePacket hw hid hq h := by
    apply h.queuePacket hq
    intro w' hw'
    cases hw.symm.trans hw'
    exact hid
  assignWorker hassign h := by
    obtain ⟨r, b, -, rfl⟩ := assignWorker_eq_ok.mp hassign
    exact h
  updateTaskStatus hupdate h := by
    obtain ⟨r, db, b, -, rfl⟩ := updateTaskStatus_eq_ok.mp hupdate
    exact h
  trackWorker htrack h := h.trackWorker htrack
  senderSink _ _ h := h
  newWorkerList _ _ h := h
  resetFlag _ h := h

/-! #### Acknowledgements -/

lemma noteTemplate (h : s.IsSeparated) {tableId : String}
    (hs : s.noteTemplate w tableId = .ok s') : s'.IsSeparated := by
  simp only [Server.noteTemplate, Outcome.bind_eq_ok] at hs
  obtain ⟨found, -, hs⟩ := hs
  cases found with
  | true => exact h.updateTracking hs
  | false =>
    cases hs
    exact h

lemma storeStats (h : s.IsSeparated) {p : ProcessStatusPacket}
    (hs : s.storeStats worker p = .ok s') : s'.IsSeparated := by
  rcases storeStats_cases hs with rfl | ⟨w, _, hw, rfl⟩
  · exact h
  · exact Separated.update_same h hw rfl rfl rfl rfl

/-- The branch of the switch that an acknowledgement takes. -/
lemma acknowledge (h : s.IsSeparated) {p : ProcessStatusPacket}
    (hack : maskQuickSend p.statusCode = P_DATA_ACK) (hs : s.packetStatusParse p = .ok s') :
    s'.IsSeparated := by
  rcases packetStatusParse_cases hs with ⟨-, rfl⟩ | ⟨worker, t, -, ht, hstore⟩
  · exact h
  · refine storeStats ?_ hstore
    rw [hack] at ht
    obtain ⟨w, found, t₁, -, hm, ht⟩ := switchStatus_ack.mp ht
    have hsep := h.matchAckablePacket hm
    cases found with
    | true => exact hsep.noteTemplate ht
    | false =>
      cases ht
      exact hsep

/-! #### The timer -/

lemma executeLoop (h : s.IsSeparated) {timedPackets : List OutPacketRef} {returned : Bool}
    (hsub : ∀ p ∈ timedPackets, p ∈ s.packetTimeout.timedPackets) (hnodup : timedPackets.Nodup)
    (hhome : s.ResendsHome timedPackets)
    (hs : s.executeLoop timedPackets = .ok (s', returned)) : s'.IsSeparated := by
  induction timedPackets generalizing s with
  | nil =>
    cases hs
    exact h
  | cons p timedPackets ih =>
    obtain ⟨hp, hnodup⟩ := List.nodup_cons.mp hnodup
    have hsub' : ∀ q ∈ timedPackets, q ∈ s.packetTimeout.timedPackets := fun q hq =>
      hsub q (List.mem_cons_of_mem _ hq)
    have hhome' : s.ResendsHome timedPackets := fun q hq =>
      hhome q (List.mem_cons_of_mem _ hq)
    cases ExecuteRule.of_executeLoop hs with
    | checkOut o ho hstatus hloop =>
      refine ih ?_ ?_ hnodup ?_ hloop
      · exact Separated.checkOut h ho
      · exact hsub'
      · -- the other packets keep their flags
        intro q hq o' ho'
        have hne : q ≠ p := ne_of_mem_of_not_mem hq hp
        exact hhome' q hq o' ((Heap.get_put_of_ne hne).symm.trans ho')
    | resend o i st worker w t ho hstatus hdata hst hworker hw hpush hloop =>
      have hid := hhome p List.mem_cons_self o ho hstatus i hdata st hst worker hworker w hw
      obtain ⟨w', hw', -, rfl⟩ := pushToFront_eq_ok.mp hpush
      rw [hw] at hw'
      cases hw'
      refine ih ?_ ?_ hnodup ?_ hloop
      · exact Separated.pushToFront h hw (hsub p List.mem_cons_self) ⟨o, ho, hid⟩
      · exact hsub'
      · -- the workers keep their UIDs
        intro q hq o' ho' hstatus' i' hdata' st' hst' worker' hworker' w' hw'
        have hget := (Heap.get_put hw).symm.trans hw'
        split_ifs at hget with heq
        · cases hget
          subst heq
          exact hhome' q hq o' ho' hstatus' i' hdata' st' hst' worker' hworker' w hw
        · exact hhome' q hq o' ho' hstatus' i' hdata' st' hst' worker' hworker' w' hget
    | absent worker w hw habsent =>
      rw [h.attends worker w hw] at habsent
      cases habsent

lemma execute (h : s.IsSeparated) (hhome : s.ResendsHome s.packetTimeout.timedPackets)
    (hs : s.execute = .ok s') : s'.IsSeparated := by
  obtain ⟨lock, lock', t, returned, hloop, rfl⟩ := execute_loop hs
  have ht : t.IsSeparated :=
    IsSeparated.executeLoop (s := { s with
      packetTimeout := { s.packetTimeout with timeoutListLock := lock } })
      h (fun _ hp => hp) h.timedOnce hhome hloop
  exact ht

/-- What one step preserves. -/
lemma step (h : s.IsSeparated) {e : ServerEvent}
    (hhome : e = .execute → s.ResendsHome s.packetTimeout.timedPackets)
    (hs : s.step e = .ok s') : s'.IsSeparated := by
  cases e with
  | registerWorker draws =>
    obtain ⟨registry, uid, hgen, rfl⟩ := registerWorker_eq_ok.mp hs
    obtain ⟨rfl, hfree⟩ := WorkerRegistry.generateWorkerUid_cases hgen
    exact Separated.register h hfree
  | updateTemplates templateStruct =>
    obtain ⟨_, _, _, -, rfl⟩ := updateTemplates_eq_ok.mp hs
    exact h
  | pushUserTable userDataTable =>
    obtain ⟨_, _, _, _, rfl⟩ := pushUserTable_frame hs
    exact h
  | pushInstanceToWorkerQueue workerList =>
    simp only [Server.step, Outcome.bind_eq_ok, Outcome.pure_eq_ok] at hs
    obtain ⟨⟨t, rest⟩, hpush, rfl⟩ := hs
    exact dispatch.pushInstanceLoop hpush h
  | pushUserDataToWorkerQueue => exact dispatch.pushUserDataToWorkerQueue hs h
  | getQueuedPacket workerUid =>
    simp only [Server.step, Outcome.bind_eq_ok, Outcome.pure_eq_ok] at hs
    obtain ⟨⟨t, out⟩, hget, rfl⟩ := hs
    exact h.getQueuedPacket hget
  | acknowledge p =>
    simp only [Server.step, Outcome.guard_eq_ok] at hs
    exact h.acknowledge hs.1 hs.2
  | execute => exact h.execute (hhome rfl) hs

end IsSeparated

/-! ### Every run -/

/-- The packets in a worker's queues carry its UID, and no packet is in the queues of two
workers. -/
def Isolated (s : Server) : Prop :=
  (∀ worker ∈ s.workerRegistry.currentWorkerList, ∃ w ∈ s.getWorker worker,
    ∀ p ∈ w.packets, AddressedTo s.outPackets w.workerUID p) ∧
  (∀ a ∈ s.workerRegistry.currentWorkerList, ∀ b ∈ s.workerRegistry.currentWorkerList, a ≠ b →
    ∀ wa ∈ s.getWorker a, ∀ wb ∈ s.getWorker b, ∀ p ∈ wa.packets, p ∉ wb.packets)

lemma IsSeparated.isolated (h : s.IsSeparated) : s.Isolated := by
  constructor
  · intro worker hworker
    obtain ⟨w, hw⟩ := h.alive worker hworker
    exact ⟨w, hw, h.addressed worker w hw⟩
  · intro a _ b _ hne wa ha wb hb p hpa hpb
    exact hne (h.eq_of_mem ha hb hpa hpb)

/-- As long as the timer sends packets back to the workers they were made for, the workers'
packets are isolated. -/
theorem run_isolated {addFlag : ℕ → Bool} {starveCounter : ℕ → UInt8} {es : List ServerEvent}
    (hhome : Meets step (fun s e => e = .execute → s.ResendsHome s.packetTimeout.timedPackets)
      (init addFlag starveCounter) es)
    (h : run step (init addFlag starveCounter) es = .ok s) : s.Isolated := by
  have hsep : s.IsSeparated :=
    run_induct (fun _ _ _ hI hC hs => IsSeparated.step hI hC hs)
      (IsSeparated.init addFlag starveCounter) hhome h
  exact hsep.isolated

instance (s : Server) (timedPackets : List OutPacketRef) :
    Decidable (s.ResendsHome timedPackets) :=
  inferInstanceAs (Decidable (∀ p ∈ timedPackets, ∀ o ∈ s.outPackets.get p, o.status = false →
    ∀ i ∈ o.outData, ∀ st ∈ s.outgoingDataRegistry.states.get i, ∀ worker ∈ st.worker,
      ∀ w ∈ s.getWorker worker, o.packet.id = w.workerUID))

/-- The only worker's packet is sent, times out twice, is re-sent and acknowledged. -/
theorem run_isolated_resend : ∃ s,
    run step (init (fun _ => false) (fun _ => 0))
      [.registerWorker [1], .updateTemplates [⟨"T", 0, some "rule"⟩],
       .pushInstanceToWorkerQueue ["1"], .getQueuedPacket "1", .execute, .execute,
       .getQueuedPacket "1", .acknowledge ⟨P_DATA_ACK, "T", "", "1", false, 0, "", 0⟩] = .ok s ∧
    s.Isolated :=
  Outcome.exists_ok_and (by decide) fun _ hs => run_isolated (by decide) hs

instance (s : Server) : Decidable s.Isolated :=
  have (mem : Heap OutPacket) (uid : String) (p : OutPacketRef) :
      Decidable (AddressedTo mem uid p) :=
    inferInstanceAs (Decidable (∃ o ∈ mem.get p, o.packet.id = uid))
  inferInstanceAs (Decidable (_ ∧ _))

/-- Two workers are sent the same template. When the first one's packet times out, the timer
puts it into the pending queue of the second. -/
theorem run_not_isolated : ∃ s,
    run step (init (fun _ => false) (fun _ => 0))
      [.registerWorker [1], .registerWorker [2], .updateTemplates [⟨"T", 0, some "rule"⟩],
       .pushInstanceToWorkerQueue ["1", "2"], .getQueuedPacket "1", .execute, .execute] = .ok s ∧
    ¬ s.Isolated :=
  Outcome.exists_ok_of_eval (by decide)

end Server

end ServerUnit
