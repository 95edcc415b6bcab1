import ServerUnit.PacketProcessor.Reception

/-!
# The UIDs on packets

Every packet is made for a worker and carries its UID. No worker is ever removed, so all packets
that there are carry UIDs of registered workers, whichever queue they are in and whoever they are
sent to.
-/

namespace ServerUnit

open Lib

namespace Server

variable {s s' t : Server} {worker : WorkerRef} {w : Worker} {uid : String}

/-- A worker has the UID. -/
def IsUid (s : Server) (uid : String) : Prop :=
  ∃ worker w, s.getWorker worker = some w ∧ w.workerUID = uid

/-- Each packet carries the UID of a worker. -/
def Stamped (s : Server) : Prop := ∀ p o, s.outPackets.get p = some o → s.IsUid o.packet.id

/-- The workers stay who they are, and each new packet carries the UID of one of them. -/
structure Continues (s s' : Server) : Prop extends Evolves s s' where
  made : ∀ p o', s'.outPackets.get p = some o' →
    (∃ o, s.outPackets.get p = some o ∧ o.packet = o'.packet) ∨ s.IsUid o'.packet.id

namespace Evolves

lemma workerUID_eq (h : Evolves s s') (b : WorkerRef) :
    (s'.getWorker b).map Worker.workerUID = (s.getWorker b).map Worker.workerUID := by
  have hb := congrArg (Option.map Prod.fst) (h.identity b)
  rwa [Option.map_map, Option.map_map] at hb

lemma isUid_iff (h : Evolves s s') : s'.IsUid uid ↔ s.IsUid uid := by
  constructor
  · rintro ⟨b, w', hw', rfl⟩
    obtain ⟨w, hw, heq⟩ := exists_of_map_eq (h.workerUID_eq b).symm hw'
    exact ⟨b, w, hw, heq⟩
  · rintro ⟨b, w, hw, rfl⟩
    obtain ⟨w', hw', heq⟩ := exists_of_map_eq (h.workerUID_eq b) hw
    exact ⟨b, w', hw', heq⟩

end Evolves

namespace Continues

lemma of_frame (h : Evolves s s') (hpackets : s'.outPackets = s.outPackets) :
    Continues s s' := by
  refine ⟨h, fun p o' ho' => .inl ⟨o', ?_, rfl⟩⟩
  rw [← hpackets]
  exact ho'

lemma refl (s : Server) : Continues s s := .of_frame (.refl s) rfl

lemma trans (h : Continues s t) (h' : Continues t s') : Continues s s' := by
  refine ⟨h.toEvolves.trans h'.toEvolves, fun p o' ho' => ?_⟩
  rcases h'.made p o' ho' with ⟨o, ho, heq⟩ | huid
  · rw [← heq]
    exact h.made p o ho
  · exact .inr (h.isUid_iff.mp huid)

lemma stamped (h : Continues s s') (hs : s.Stamped) : s'.Stamped := by
  intro p o' ho'
  rw [h.isUid_iff]
  rcases h.made p o' ho' with ⟨o, ho, heq⟩ | huid
  · rw [← heq]
    exact hs p o ho
  · exact huid

/-! ### The calls -/

lemma queuePacket {packet : OutPacket} {rc : ℕ} (huid : s.IsUid packet.packet.id)
    (h : s.queuePacket worker packet = .ok (s', rc)) : Continues s s' := by
  refine ⟨.queuePacket h, fun p o' ho' => ?_⟩
  have hpackets : s'.outPackets = s.outPackets.alloc packet := by
    obtain ⟨_, -, ⟨-, -, rfl⟩ | ⟨-, -, -, rfl⟩⟩ := queuePacket_cases h <;> rfl
  rw [hpackets] at ho'
  by_cases hp : p = s.outPackets.next
  · rw [hp, Heap.get_alloc_self, Option.some.injEq] at ho'
    rw [← ho']
    exact .inr huid
  · rw [Heap.get_alloc_of_ne hp] at ho'
    exact .inl ⟨o', ho', rfl⟩

lemma updateTaskStatus {id : String} {status : UserTaskStatus}
    (h : s.updateTaskStatus id status = .ok s') : Continues s s' := by
  have hrest := h
  obtain ⟨_, _, _, -, rfl⟩ := updateTaskStatus_eq_ok.mp hrest
  exact .of_frame (.updateTaskStatus h) rfl

lemma updateTracking {workerUid templateId : String}
    (h : s.updateTracking workerUid templateId = .ok s') : Continues s s' := by
  have hrest := h
  obtain ⟨_, _, -, rfl⟩ := updateTracking_eq_ok.mp hrest
  exact .of_frame (.updateTracking h) rfl

lemma getQueuedPacket {workerUid : String} {packet : Option ServerPacket}
    (h : s.getQueuedPacket workerUid = .ok (s', packet)) : Continues s s' := by
  have hrest := h
  obtain ⟨_, _, _, _, -, -, -, rfl⟩ := getQueuedPacket_eq_ok.mp hrest
  exact .of_frame (.getQueuedPacket h) rfl

lemma matchAckablePacket {id : String} {found : Bool}
    (h : s.matchAckablePacket worker id = .ok (s', found)) : Continues s s' := by
  refine ⟨.matchAckablePacket h, fun p o' ho' => .inl ⟨o', ?_, rfl⟩⟩
  obtain ⟨_, -, ⟨-, _, _, q, -, -, rfl⟩ | ⟨-, rfl⟩⟩ := matchAckablePacket_cases h
  · rw [putWorker_outPackets] at ho'
    by_cases hp : p = q
    · rw [hp, Heap.get_free_self] at ho'
      cases ho'
    · rwa [Heap.get_free_of_ne hp] at ho'
  · exact ho'

/-! #### The sender core -/

lemma dispatch : DispatchRule Continues where
  refl := refl
  trans := trans
  registryAdd h := by
    have hrest := h
    obtain ⟨_, -, rfl⟩ := registryAdd_eq_ok.mp hrest
    exact .of_frame (.registryAdd h) rfl
  queuePacket hw hid h := queuePacket ⟨_, _, hw, hid.symm⟩ h
  assignWorker h := by
    have hrest := h
    obtain ⟨_, _, -, rfl⟩ := assignWorker_eq_ok.mp hrest
    exact .of_frame (.assignWorker h) rfl
  updateTaskStatus := updateTaskStatus
  trackWorker h := by
    have hrest := h
    obtain ⟨_, _, -, rfl⟩ := trackWorker_eq_ok.mp hrest
    exact .of_frame (.trackWorker h) rfl
  senderSink _ _ := .of_frame (.of_frame rfl rfl rfl) rfl
  newWorkerList _ _ := .of_frame (.of_frame rfl rfl rfl) rfl
  resetFlag _ := .of_frame (.of_frame rfl rfl rfl) rfl

lemma startSenderCore {status : JobStatus} (hs : s.Sound)
    (h : s.startSenderCore = .ok (s', status)) : Continues s s' := by
  rw [senderCoreDispatch_of_idle hs.idle] at h
  exact dispatch.senderCoreDispatch h

/-! #### The validator -/

lemma noteTemplate {tableId : String} (h : s.noteTemplate w tableId = .ok s') :
    Continues s s' := by
  simp only [Server.noteTemplate, Outcome.bind_eq_ok] at h
  obtain ⟨found, -, h⟩ := h
  cases found with
  | true => exact updateTracking h
  | false =>
    cases h
    exact .refl s

/-- The acknowledgement of a result is for the worker that the result is from. -/
lemma noteResult {p : ProcessStatusPacket} {status : UserTaskStatus} {code : ServerPacketCodes}
    (huid : s.IsUid p.workerUid) (h : s.noteResult worker p status code = .ok s') :
    Continues s s' := by
  simp only [Server.noteResult, Outcome.bind_eq_ok] at h
  obtain ⟨t, ht, found, -, h⟩ := h
  have hupdate := updateTaskStatus ht
  cases found with
  | none =>
    cases h
    exact hupdate
  | some i =>
    simp only [Outcome.bind_eq_ok, Outcome.pure_eq_ok] at h
    obtain ⟨⟨u, rc⟩, hq, rfl⟩ := h
    exact hupdate.trans (queuePacket (hupdate.isUid_iff.mpr huid) hq)

lemma switchStatus {statusCode : BitVec 32} {p : ProcessStatusPacket} (huid : s.IsUid p.workerUid)
    (h : s.switchStatus worker statusCode p = .ok s') : Continues s s' := by
  simp only [Server.switchStatus, Outcome.bind_eq_ok] at h
  obtain ⟨w, -, h⟩ := h
  split_ifs at h
  · exact noteTemplate h
  · simp only [Outcome.bind_eq_ok] at h
    obtain ⟨⟨t, found⟩, hm, h⟩ := h
    cases found with
    | true => exact (matchAckablePacket hm).trans (noteTemplate h)
    | false =>
      cases h
      exact matchAckablePacket hm
  · exact noteResult huid h
  · exact noteResult huid h
  · exact updateTaskStatus h
  all_goals
    cases h
    exact .refl s

lemma packetStatusParse {p : ProcessStatusPacket} (h : s.packetStatusParse p = .ok s') :
    Continues s s' := by
  rcases packetStatusParse_cases h with ⟨-, rfl⟩ | ⟨worker, t, hfound, ht, hstore⟩
  · exact .refl s'
  · obtain ⟨-, w, hw, huid⟩ := WorkerRegistry.of_getWorkerFromUid hfound
    refine (switchStatus ⟨worker, w, hw, huid⟩ ht).trans ?_
    refine .of_frame (.storeStats hstore) ?_
    rcases storeStats_cases hstore with rfl | ⟨_, _, -, rfl⟩ <;> rfl

lemma processPacket {packet : Json} (h : s.processPacket packet = .ok s') : Continues s s' := by
  obtain ⟨csvFiles, database, p, -, h⟩ := processPacket_parse h
  have hfiles : Continues s { s with csvFiles := csvFiles, database := database } :=
    .of_frame (.of_frame rfl rfl rfl) rfl
  exact hfiles.trans (packetStatusParse h)

lemma startValidator {status : JobStatus} (h : s.startValidator = .ok (s', status)) :
    Continues s s' := by
  simp only [Server.startValidator, Outcome.bind_eq_ok] at h
  obtain ⟨⟨sink, object⟩, -, h⟩ := h
  have hsink : Continues s { s with receiverSink := sink } := .of_frame (.of_frame rfl rfl rfl) rfl
  cases object with
  | none =>
    cases h
    exact hsink
  | some packet =>
    simp only [Outcome.bind_eq_ok, Outcome.pure_eq_ok, Prod.mk.injEq] at h
    obtain ⟨t, ht, rfl, -⟩ := h
    exact hsink.trans (processPacket ht)

lemma startProcess {process : ServerProcess} {status : JobStatus} (hs : s.Sound)
    (h : s.startProcess process = .ok (s', status)) : Continues s s' := by
  cases process with
  | senderCore => exact startSenderCore hs h
  | validator => exact startValidator h

/-! #### The timer -/

lemma executeLoop {timedPackets : List OutPacketRef} {returned : Bool} (hs : s.Sound)
    (h : s.executeLoop timedPackets = .ok (s', returned)) : Continues s s' := by
  induction timedPackets generalizing s with
  | nil =>
    cases h
    exact .refl _
  | cons p timedPackets ih =>
    cases ExecuteRule.of_executeLoop h with
    | checkOut o ho hstatus hloop =>
      have hput : Continues s { s with outPackets := s.outPackets.put p o.checkOut } := by
        refine ⟨.of_frame rfl (Heap.next_put _ _ _) rfl, fun q o' ho' => .inl ?_⟩
        simp only [Heap.get_put ho] at ho'
        split_ifs at ho' with heq
        · cases ho'
          exact ⟨o, heq ▸ ho, rfl⟩
        · exact ⟨o', ho', rfl⟩
      exact hput.trans (ih (hput.sound hs) hloop)
    | resend o i st worker w t ho hstatus hdata hst hworker hw hpush hloop =>
      have hput : Continues s t := by
        refine .of_frame (.pushToFront hpush) ?_
        obtain ⟨_, -, -, rfl⟩ := pushToFront_eq_ok.mp hpush
        rfl
      exact hput.trans (ih (hput.sound hs) hloop)
    | absent worker w hw habsent =>
      rw [hs.registered.attends worker w hw] at habsent
      cases habsent

lemma execute (hs : s.Sound) (h : s.execute = .ok s') : Continues s s' := by
  obtain ⟨lock, lock', t, returned, hloop, rfl⟩ := execute_loop h
  have hlock : Continues s { s with
      packetTimeout := { s.packetTimeout with timeoutListLock := lock } } :=
    .of_frame (.of_frame rfl rfl rfl) rfl
  have hrest := hlock.trans (executeLoop (hlock.sound hs) hloop)
  exact hrest.trans (.of_frame (.of_frame rfl rfl rfl) rfl)

end Continues

end Server

end ServerUnit
