import ServerUnit.SenderUnit.Offers
import ServerUnit.Server.Calls

/-!
# The reachable states

The server with all of its jobs: the calls of `ServerEvent`, the sender core, the reception of
packets and the validator. In every state it can reach, the workers are registered under
different UIDs, their queues only have packets that were made, and no packet is pending: workers
always attend, so none is removed.
-/

namespace ServerUnit

open Lib

inductive ServerJob where
  | call (e : ServerEvent)
  | startSenderCore
  /-- A session received a packet. -/
  | receivePacket (packet : Json)
  | startValidator

namespace Server

def receivePacket (s : Server) (packet : Json) : Outcome Server := do
  let (receiverSink, _) ←
    s.receiverSink.pushObject (some packet) .defaultPriority (s.starveCounter 0)
  return { s with receiverSink, starveCounter := fun n => s.starveCounter (n + 1) }

def work (s : Server) : ServerJob → Outcome Server
  | .call e => s.step e
  | .startSenderCore => do
    let (s, _) ← s.startSenderCore
    return s
  | .receivePacket packet => s.receivePacket packet
  | .startValidator => do
    let (s, _) ← s.startValidator
    return s

/-- What holds in every reachable state. -/
structure Sound (s : Server) : Prop where
  registered : Registered s.workerRegistry.workers s.workerRegistry.currentWorkerList
  allocated : s.QueuesAllocated
  idle : s.senderCoreData.pendingPacketsList = []

/-- The workers stay who they are, and their queues only get packets that were made. -/
structure Evolves (s s' : Server) : Prop where
  list : s'.workerRegistry.currentWorkerList = s.workerRegistry.currentWorkerList
  identity : ∀ b, (s'.getWorker b).map Worker.identity = (s.getWorker b).map Worker.identity
  next : s.outPackets.next ≤ s'.outPackets.next
  queue : ∀ b w w', s.getWorker b = some w → s'.getWorker b = some w' →
    ∀ p ∈ w'.senderQueue, p ∈ w.senderQueue ∨ p < s'.outPackets.next
  pending : s'.senderCoreData.pendingPacketsList = s.senderCoreData.pendingPacketsList

variable {s s' t : Server} {worker : WorkerRef} {w w' : Worker} {o : OutPacket}

namespace Evolves

lemma refl (s : Server) : Evolves s s := by
  refine ⟨rfl, fun _ => rfl, le_refl _, fun b w w' hw hw' p hp => .inl ?_, rfl⟩
  rw [hw] at hw'
  cases hw'
  exact hp

lemma trans (h : Evolves s t) (h' : Evolves t s') : Evolves s s' := by
  refine ⟨h'.list.trans h.list, fun b => (h'.identity b).trans (h.identity b), h.next.trans h'.next,
    fun b w w' hw hw' p hp => ?_, h'.pending.trans h.pending⟩
  obtain ⟨v, hv, -⟩ := exists_of_map_eq (h.identity b) hw
  rcases h'.queue b v w' hv hw' p hp with hp | hp
  · exact (h.queue b w v hw hv p hp).imp_right fun hlt => lt_of_lt_of_le hlt h'.next
  · exact .inr hp

lemma sound (h : Evolves s s') (hs : s.Sound) : s'.Sound := by
  refine ⟨?_, fun b w' hw' p hp => ?_, h.pending.trans hs.idle⟩
  · rw [h.list]
    exact hs.registered.congr h.identity
  · obtain ⟨w, hw, -⟩ := exists_of_map_eq (h.identity b).symm hw'
    rcases h.queue b w w' hw hw' p hp with hp | hp
    · exact lt_of_lt_of_le (hs.allocated b w hw p hp) h.next
    · exact hp

/-- One worker is stored under its identity, with no new packet in its queue. -/
lemma of_put (hw : s.getWorker worker = some w)
    (hworkers : s'.workerRegistry.workers = s.workerRegistry.workers.put worker w')
    (hid : w'.identity = w.identity) (hqueue : ∀ p ∈ w'.senderQueue, p ∈ w.senderQueue)
    (hnext : s.outPackets.next ≤ s'.outPackets.next)
    (hlist : s'.workerRegistry.currentWorkerList = s.workerRegistry.currentWorkerList)
    (hpending : s'.senderCoreData.pendingPacketsList = s.senderCoreData.pendingPacketsList) :
    Evolves s s' := by
  refine ⟨hlist, KeepsWorkers.put hw hworkers hid, hnext, fun b v v' hv hv' p hp => .inl ?_,
    hpending⟩
  rw [getWorker, hworkers, Heap.get_put hw] at hv'
  split_ifs at hv' with heq
  · cases hv'
    rw [heq, hw] at hv
    cases hv
    exact hqueue p hp
  · cases hv.symm.trans hv'
    exact hp

/-- Nothing changes that matters here. -/
lemma of_frame (hworkers : s'.workerRegistry = s.workerRegistry)
    (hmem : s'.outPackets.next = s.outPackets.next)
    (hpending : s'.senderCoreData.pendingPacketsList = s.senderCoreData.pendingPacketsList) :
    Evolves s s' := by
  have hget : ∀ b, s'.getWorker b = s.getWorker b := fun b => by rw [getWorker, hworkers]
  refine ⟨by rw [hworkers], fun b => by rw [hget], hmem.ge, fun b v v' hv hv' p hp => .inl ?_,
    hpending⟩
  rw [hget, hv] at hv'
  cases hv'
  exact hp

/-! ### The calls -/

lemma queuePacket {rc : ℕ} (h : s.queuePacket worker o = .ok (s', rc)) : Evolves s s' := by
  have hid := KeepsWorkers.queuePacket stays_identity h
  obtain ⟨w, hw, ⟨-, -, rfl⟩ | ⟨-, -, -, rfl⟩⟩ := queuePacket_cases h
  · refine ⟨rfl, fun _ => rfl, ?_, fun b v v' hv hv' p hp => .inl ?_, rfl⟩
    · rw [Heap.next_alloc]
      exact Nat.le_succ _
    · cases hv.symm.trans hv'
      exact hp
  · refine ⟨rfl, hid, ?_, fun b v v' hv hv' p hp => ?_, rfl⟩
    · rw [putWorker_outPackets, Heap.next_alloc]
      exact Nat.le_succ _
    · have hv' := (Heap.get_put hw).symm.trans hv'
      split_ifs at hv' with heq
      · cases hv'
        subst heq
        cases hw.symm.trans hv
        rcases List.mem_append.mp hp with hp | hp
        · exact .inl hp
        · right
          rw [List.mem_singleton.mp hp, putWorker_outPackets, Heap.next_alloc]
          exact Nat.lt_succ_self _
      · cases hv.symm.trans hv'
        exact .inl hp

lemma trackWorker {workerUid : String} (h : s.trackWorker workerUid = .ok s') : Evolves s s' := by
  obtain ⟨l, registry, hadd, rfl⟩ := trackWorker_eq_ok.mp h
  rcases WorkerInstanceList.addWorker_cases hadd with ⟨-, rfl, rfl⟩ | ⟨worker, w, -, hw, rfl, rfl⟩
  · exact of_frame rfl rfl rfl
  · exact of_put hw rfl rfl (fun _ hp => hp) (le_refl _) rfl rfl

lemma updateTracking {workerUid templateId : String}
    (h : s.updateTracking workerUid templateId = .ok s') : Evolves s s' := by
  obtain ⟨l, registry, hupdate, rfl⟩ := updateTracking_eq_ok.mp h
  cases WorkerInstanceList.UpdateRule.of_updateWorker hupdate with
  | untracked | waiting => exact of_frame rfl rfl rfl
  | ready before after e worker w _ _ _ _ _ hw =>
    exact of_put hw rfl rfl (fun _ hp => hp) (le_refl _) rfl rfl

lemma registryAdd {id : String} {o : Option WorkerRef} (h : s.registryAdd id o = .ok s') :
    Evolves s s' := by
  obtain ⟨r, -, rfl⟩ := registryAdd_eq_ok.mp h
  exact of_frame rfl rfl rfl

lemma assignWorker {id : String} (h : s.assignWorker id worker = .ok s') : Evolves s s' := by
  obtain ⟨r, b, -, rfl⟩ := assignWorker_eq_ok.mp h
  exact of_frame rfl rfl rfl

lemma updateTaskStatus {id : String} {status : UserTaskStatus}
    (h : s.updateTaskStatus id status = .ok s') : Evolves s s' := by
  obtain ⟨r, db, b, -, rfl⟩ := updateTaskStatus_eq_ok.mp h
  exact of_frame rfl rfl rfl

lemma getQueuedPacket {workerUid : String} {packet : Option ServerPacket}
    (h : s.getQueuedPacket workerUid = .ok (s', packet)) : Evolves s s' := by
  obtain ⟨worker, w, w', timer, -, hw, hg, rfl⟩ := getQueuedPacket_eq_ok.mp h
  obtain ⟨hmove, hw'⟩ := Worker.getQueuedPacket_move hg
  refine of_put hw rfl (by rw [hw']; rfl) ?_ (le_refl _) rfl rfl
  generalize hsq : w.senderQueue = sq at hmove
  generalize hsq' : w'.senderQueue = sq' at hmove
  generalize w.ackPendingQueue = pq at hmove
  generalize w'.ackPendingQueue = pq' at hmove
  cases hmove with
  | stay => exact fun _ hp => hp
  | toPending p _ o _ hq => exact fun q hp => hq ▸ List.mem_cons_of_mem p hp
  | leave before after p o hq =>
    intro q hp
    rw [hq]
    simp only [List.mem_append, List.mem_cons] at hp ⊢
    exact hp.imp_right .inr

lemma matchAckablePacket {id : String} {found : Bool}
    (h : s.matchAckablePacket worker id = .ok (s', found)) : Evolves s s' := by
  obtain ⟨w, hw, ⟨-, before, after, p, -, -, rfl⟩ | ⟨-, rfl⟩⟩ := matchAckablePacket_cases h
  · exact of_put hw rfl rfl (fun _ hp => hp) (by simp) rfl rfl
  · exact .refl _

lemma pushToFront {p : OutPacketRef} (h : s.pushToFront worker p = .ok s') : Evolves s s' := by
  obtain ⟨w, hw, -, rfl⟩ := pushToFront_eq_ok.mp h
  exact of_put hw rfl rfl (fun _ hp => hp) (le_refl _) rfl rfl

/-! #### The sender core -/

lemma dispatch : DispatchRule Evolves where
  refl := refl
  trans := trans
  registryAdd := registryAdd
  queuePacket _ _ h := queuePacket h
  assignWorker := assignWorker
  updateTaskStatus := updateTaskStatus
  trackWorker := trackWorker
  senderSink _ _ := of_frame rfl rfl rfl
  newWorkerList _ _ := of_frame rfl rfl rfl
  resetFlag _ := of_frame rfl rfl rfl

/-! #### The timer -/

lemma executeLoop {timedPackets : List OutPacketRef} {returned : Bool}
    (hreg : Registered s.workerRegistry.workers s.workerRegistry.currentWorkerList)
    (h : s.executeLoop timedPackets = .ok (s', returned)) : Evolves s s' := by
  induction timedPackets generalizing s with
  | nil =>
    cases h
    exact .refl _
  | cons p timedPackets ih =>
    cases ExecuteRule.of_executeLoop h with
    | checkOut o ho hstatus hloop =>
      have hput : Evolves s { s with outPackets := s.outPackets.put p o.checkOut } :=
        of_frame rfl (Heap.next_put _ _ _) rfl
      exact hput.trans (ih (by exact hreg) hloop)
    | resend o i st worker w t ho hstatus hdata hst hworker hw hpush hloop =>
      have hput := pushToFront hpush
      refine hput.trans (ih ?_ hloop)
      rw [hput.list]
      exact hreg.congr hput.identity
    | absent worker w hw habsent =>
      rw [hreg.attends worker w hw] at habsent
      cases habsent

lemma execute (hreg : Registered s.workerRegistry.workers s.workerRegistry.currentWorkerList)
    (h : s.execute = .ok s') : Evolves s s' := by
  obtain ⟨lock, lock', t, returned, hloop, rfl⟩ := execute_loop h
  have hlock : Evolves s { s with
      packetTimeout := { s.packetTimeout with timeoutListLock := lock } } := of_frame rfl rfl rfl
  have ht := hlock.trans (executeLoop (by exact hreg) hloop)
  exact ht.trans (of_frame rfl rfl rfl)

/-! #### Received packets -/

lemma storeStats {p : ProcessStatusPacket} (h : s.storeStats worker p = .ok s') :
    Evolves s s' := by
  rcases storeStats_cases h with rfl | ⟨w, _, hw, rfl⟩
  · exact .refl _
  · exact of_put hw rfl rfl (fun _ hp => hp) (le_refl _) rfl rfl

lemma validator : ValidatorRule Evolves where
  refl := refl
  trans := trans
  storeData h := by
    obtain ⟨_, _, rfl, -⟩ := ProcessDataPacket.execute_cases h
    exact of_frame rfl rfl rfl
  updateTaskStatus := updateTaskStatus
  queuePacket := queuePacket
  matchAckablePacket := matchAckablePacket
  updateTracking := updateTracking
  storeStats := storeStats

lemma startValidator {status : JobStatus} (h : s.startValidator = .ok (s', status)) :
    Evolves s s' := by
  simp only [Server.startValidator, Outcome.bind_eq_ok] at h
  obtain ⟨⟨sink, object⟩, -, h⟩ := h
  have hsink : Evolves s { s with receiverSink := sink } := of_frame rfl rfl rfl
  cases object with
  | none =>
    cases h
    exact hsink
  | some packet =>
    simp only [Outcome.bind_eq_ok, Outcome.pure_eq_ok, Prod.mk.injEq] at h
    obtain ⟨t, ht, rfl, -⟩ := h
    exact hsink.trans (validator.processPacket ht)

end Evolves

/-! ### Every run -/

lemma senderCoreDispatch_of_idle (h : s.senderCoreData.pendingPacketsList = []) :
    s.startSenderCore = s.senderCoreDispatch := by
  simp [startSenderCore, SenderCoreData.isPendingPacketsListEmpty, h]

lemma Sound.step (h : s.Sound) {e : ServerEvent} (hs : s.step e = .ok s') : s'.Sound := by
  cases e with
  | registerWorker draws =>
    obtain ⟨registry, uid, hgen, rfl⟩ := registerWorker_eq_ok.mp hs
    obtain ⟨rfl, hfree⟩ := WorkerRegistry.generateWorkerUid_cases hgen
    refine ⟨h.registered.register hfree, ?_, h.idle⟩
    intro b w hw p hp
    dsimp only [getWorker] at hw
    by_cases heq : b = s.workerRegistry.workers.next
    · rw [heq, Heap.get_alloc_self, Option.some.injEq] at hw
      rw [← hw] at hp
      cases hp
    · rw [Heap.get_alloc_of_ne heq] at hw
      exact h.allocated b w hw p hp
  | updateTemplates templateStruct =>
    obtain ⟨_, _, _, -, rfl⟩ := updateTemplates_eq_ok.mp hs
    exact ⟨h.registered, h.allocated, h.idle⟩
  | pushUserTable userDataTable =>
    obtain ⟨_, _, _, _, rfl⟩ := pushUserTable_frame hs
    exact ⟨h.registered, h.allocated, h.idle⟩
  | pushInstanceToWorkerQueue workerList =>
    simp only [Server.step, pushInstanceToWorkerQueue, Outcome.bind_eq_ok,
      Outcome.pure_eq_ok] at hs
    obtain ⟨⟨t, rest⟩, hpush, rfl⟩ := hs
    exact (Evolves.dispatch.pushInstanceLoop hpush).sound h
  | pushUserDataToWorkerQueue => exact (Evolves.dispatch.pushUserDataToWorkerQueue hs).sound h
  | getQueuedPacket workerUid =>
    simp only [Server.step, Outcome.bind_eq_ok, Outcome.pure_eq_ok] at hs
    obtain ⟨⟨t, out⟩, hget, rfl⟩ := hs
    exact (Evolves.getQueuedPacket hget).sound h
  | acknowledge p =>
    simp only [Server.step, Outcome.guard_eq_ok] at hs
    exact (Evolves.validator.packetStatusParse hs.2).sound h
  | execute => exact (Evolves.execute h.registered hs).sound h

/-- What one job preserves. -/
lemma Sound.work (h : s.Sound) {j : ServerJob} (hs : s.work j = .ok s') : s'.Sound := by
  cases j with
  | call e => exact h.step hs
  | startSenderCore =>
    simp only [Server.work, senderCoreDispatch_of_idle h.idle, Outcome.bind_eq_ok,
      Outcome.pure_eq_ok] at hs
    obtain ⟨⟨t, status⟩, ht, rfl⟩ := hs
    exact (Evolves.dispatch.senderCoreDispatch ht).sound h
  | receivePacket packet =>
    simp only [Server.work, receivePacket, Outcome.bind_eq_ok, Outcome.pure_eq_ok] at hs
    obtain ⟨⟨sink, rc⟩, -, rfl⟩ := hs
    exact ⟨h.registered, h.allocated, h.idle⟩
  | startValidator =>
    simp only [Server.work, Outcome.bind_eq_ok, Outcome.pure_eq_ok] at hs
    obtain ⟨⟨t, status⟩, ht, rfl⟩ := hs
    exact (Evolves.startValidator ht).sound h

lemma sound_init (addFlag : ℕ → Bool) (starveCounter : ℕ → UInt8) :
    (init addFlag starveCounter).Sound := by
  refine ⟨⟨?_, ?_, ?_, ?_⟩, ?_, rfl⟩ <;>
    simp [init, WorkerRegistry.new, QueuesAllocated, getWorker]

theorem sound_of_run {addFlag : ℕ → Bool} {starveCounter : ℕ → UInt8} {js : List ServerJob}
    (h : run work (init addFlag starveCounter) js = .ok s) : s.Sound :=
  run_invariant (fun _ _ _ hI hs => Sound.work hI hs) (sound_init addFlag starveCounter) h

end Server

end ServerUnit
