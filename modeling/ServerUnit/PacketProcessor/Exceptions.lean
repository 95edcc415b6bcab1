import ServerUnit.PacketProcessor.Results
import ServerUnit.SenderUnit.StoredStats

/-!
# Exceptions in the validator job

What a packet must be before its parts are read is checked by schemas. They say nothing of the text
of a string, and `adv_tokenizer` reads integers out of `taskQueue`. Nothing catches what `std::stoi`
throws there.
-/

namespace ServerUnit

open Lib

/-! ### Packets -/

/-- `JsonPrevalidator::validateJson`: a number `head` and a string `id`. -/
def validateJson : Json → Bool
  | .obj fields =>
    (Json.member fields "head").number?.isSome && (Json.member fields "id").string?.isSome
  | _ => false

namespace Json

/-- The UID that the packet comes with. -/
def sender : Json → Option String
  | .obj fields => (member fields "id").string?
  | _ => none

/-- The text of `taskQueue`, if the statistics of the packet are valid. -/
def reportedQueue : Json → Option String
  | .obj fields =>
    match member fields "stats" with
    | .obj stats => if validStats (.obj stats) then (member stats "taskQueue").string? else none
    | _ => none
  | _ => none

/-- There is an integer in each word of the text. -/
def StatsReadable (packet : Json) : Prop :=
  ∀ text ∈ packet.reportedQueue, ∀ word ∈ text.toList.splitOn ',', (stoi word).toBool = true

instance (packet : Json) : Decidable packet.StatsReadable :=
  inferInstanceAs (Decidable (∀ text ∈ packet.reportedQueue, _))

/-- The conversion of a number to `int` is defined. -/
def FitsInt : Json → Prop
  | .float q => -2 ^ 31 ≤ truncate q ∧ truncate q < 2 ^ 31
  | _ => True

/-- The conversions of the numbers in the packet are defined. -/
def Convertible : Json → Prop
  | .obj fields =>
    (member fields "head").FitsInt ∧
      match member fields "stats" with
      | .obj stats => validStats (.obj stats) = true →
          (member stats "totalAvailableThreads").FitsInt
      | _ => True
  | _ => False

variable {j : Json}

lemma number_cases (h : j.number?.isSome) : (∃ n, j = .int n) ∨ ∃ q, j = .float q := by
  cases j <;> simp [number?] at h ⊢

lemma string_cases (h : j.string?.isSome) : ∃ s, j = .str s := by
  cases j <;> simp [string?] at h ⊢

/-- The conversion to `int` does not throw. -/
lemma returnsIf_toInt {I : Prop} (h : j.number?.isSome) (hI : I → j.FitsInt) :
    j.toInt.ReturnsIf I := by
  rcases number_cases h with ⟨n, rfl⟩ | ⟨q, rfl⟩
  · exact .ok _
  · rw [toInt]
    split_ifs with hfits
    · exact .ok _
    · exact .error ⟨by decide, fun h => hfits (hI h)⟩

lemma exists_toDouble (h : j.number?.isSome) : ∃ q, j.toDouble = .ok q := by
  rcases number_cases h with ⟨n, rfl⟩ | ⟨q, rfl⟩
  · exact ⟨_, rfl⟩
  · exact ⟨_, rfl⟩

lemma exists_number {d : ℚ} (h : j.toDouble = .ok d) : ∃ q, j.number? = some q := by
  cases j with
  | int n | float q => exact ⟨_, rfl⟩
  | _ => cases h

end Json

/-! ### Words -/

/-- What is no integer throws. -/
lemma stoi_eq_error {word : List Char} {fault : Fault} (h : stoi word = .error fault) :
    fault = .exception := by
  unfold stoi at h
  simp only at h
  split_ifs at h <;> cases h <;> rfl

/-- All words are read when each has an integer in it. -/
lemma exists_adv_tokenizer {text : String} : (∃ counts, adv_tokenizer text ',' = .ok counts) ↔
    ∀ word ∈ text.toList.splitOn ',', (stoi word).toBool = true := by
  rw [adv_tokenizer, Outcome.exists_mapM_eq_ok]
  refine forall₂_congr fun word _ => ?_
  cases stoi word <;> simp [Except.toBool]

lemma adv_tokenizer_eq_error {text : String} {fault : Fault}
    (h : adv_tokenizer text ',' = .error fault) : fault = .exception := by
  refine Outcome.FailsWith.mapM (F := (· = .exception)) (fun word _ => ?_) fault h
  exact fun _ => stoi_eq_error

lemma throwsWhen_adv_tokenizer {I : Prop} {text : String} :
    (adv_tokenizer text ',').ThrowsWhen I (¬ ∃ counts, adv_tokenizer text ',' = .ok counts) := by
  refine ⟨fun h => .of_ok (not_not.mp h), fun hnot => ?_⟩
  cases hcounts : adv_tokenizer text ',' with
  | error fault => exact ⟨fault, rfl, fun _ => adv_tokenizer_eq_error hcounts⟩
  | ok counts => exact absurd ⟨counts, hcounts⟩ hnot

/-! ### The status packet -/

namespace ProcessStatusPacket

variable {packet : Json}

/-- Valid statistics are an object with the three members. -/
lemma exists_of_validStats {j : Json} (h : validStats j = true) :
    ∃ stats, j = .obj stats ∧ (Json.member stats "avgQueueTime").number?.isSome ∧
      (Json.member stats "taskQueue").string?.isSome ∧
      (Json.member stats "totalAvailableThreads").number?.isSome := by
  cases j with
  | obj stats =>
    simp only [validStats, Bool.and_eq_true] at h
    exact ⟨stats, rfl, h.1.1, h.1.2, h.2⟩
  | _ => simp [validStats] at h

lemma ofJson_eq {fields : List (String × Json)} {workerUid : String}
    (hid : Json.member fields "id" = .str workerUid) : ofJson (.obj fields) = (do
      let statusCode ← (Json.member fields "head").toInt
      let (tableId, errorString) := readBody (.obj fields)
      let stats := Json.member fields "stats"
      if validStats stats then do
        let queueTime ← (← stats.index "avgQueueTime").toDouble
        let vectorString ← (← stats.index "taskQueue").toStr
        let threadCount ← (← stats.index "totalAvailableThreads").toInt
        return ⟨statusCode, tableId, errorString, workerUid, true, queueTime, vectorString,
          threadCount⟩
      else
        return ⟨statusCode, tableId, errorString, workerUid, false, 0, "", 0⟩) := by
  simp only [ofJson, hid, Json.string?, Option.isSome_some, if_true, Json.index, Json.toStr,
    Outcome.ok_bind]

/-- The numbers of an accepted packet are all that its constructor can fail on. -/
lemma returnsIf_ofJson (h : validateJson packet = true) :
    (ofJson packet).ReturnsIf packet.Convertible := by
  cases packet with
  | obj fields =>
    obtain ⟨hhead, hid⟩ := Bool.and_eq_true_iff.mp h
    obtain ⟨workerUid, hid⟩ := Json.string_cases hid
    rw [ofJson_eq hid]
    apply (Json.returnsIf_toInt hhead fun hconv => hconv.1).bind
    intro statusCode _
    simp only
    split_ifs with hstats
    · obtain ⟨stats, hobj, htime, hqueue, hthreads⟩ := exists_of_validStats hstats
      obtain ⟨vectorString, hqueue⟩ := Json.string_cases hqueue
      have hfits : (Json.obj fields).Convertible →
          (Json.member stats "totalAvailableThreads").FitsInt := by
        intro hconv
        have hconv := hconv.2
        rw [hobj] at hconv hstats
        exact hconv hstats
      rw [hobj]
      apply (Outcome.ReturnsIf.of_ok (Json.exists_toDouble htime)).bind
      intro queueTime _
      simp only [Json.index, Outcome.ok_bind, hqueue, Json.toStr]
      exact (Json.returnsIf_toInt hthreads hfits).bind fun _ _ => .ok _
    · exact .ok _
  | _ => simp [validateJson] at h

/-- What the constructor makes of a packet that the session accepted. -/
structure Reads (p : ProcessStatusPacket) (packet : Json) : Prop where
  workerUid : packet.sender = some p.workerUid
  reported : packet.reportedQueue = if p.statsPresent then some p.vectorString else none

lemma reads_of_ofJson {p : ProcessStatusPacket} (h : validateJson packet = true)
    (hp : ofJson packet = .ok p) : p.Reads packet := by
  cases packet with
  | obj fields =>
    obtain ⟨workerUid, hid⟩ := Json.string_cases (Bool.and_eq_true_iff.mp h).2
    have hsender : (Json.obj fields).sender = some workerUid := by
      simp [Json.sender, hid, Json.string?]
    simp only [ofJson_eq hid, Outcome.bind_eq_ok] at hp
    obtain ⟨statusCode, -, hp⟩ := hp
    split_ifs at hp with hstats
    · obtain ⟨stats, hobj, -, hqueue, -⟩ := exists_of_validStats hstats
      obtain ⟨vectorString, hqueue⟩ := Json.string_cases hqueue
      rw [hobj] at hp hstats
      simp only [Outcome.bind_eq_ok, Json.index, Outcome.ok_bind, hqueue, Json.toStr] at hp
      obtain ⟨queueTime, -, threadCount, -, hp⟩ := hp
      cases hp
      exact ⟨hsender, by simp [Json.reportedQueue, hobj, hstats, hqueue, Json.string?]⟩
    · cases hp
      refine ⟨hsender, ?_⟩
      cases hobj : Json.member fields "stats" with
      | obj stats =>
        rw [hobj] at hstats
        simp [Json.reportedQueue, hobj, hstats]
      | _ => simp [Json.reportedQueue, hobj]
  | _ => simp [validateJson] at h

/-- The text is read when there are statistics. -/
lemma Reads.statsReadable_iff {p : ProcessStatusPacket} (h : p.Reads packet) :
    packet.StatsReadable ↔
      (p.statsPresent = true → ∃ counts, adv_tokenizer p.vectorString ',' = .ok counts) := by
  rw [Json.StatsReadable, h.reported, exists_adv_tokenizer]
  cases p.statsPresent <;> simp

end ProcessStatusPacket

/-! ### The data packet -/

/-- A data packet has the members that its constructor reads. -/
lemma ProcessDataPacket.returnsIf_ofJson {packet body : Json} (h : validateJson packet = true)
    (hbody : packet.index "body" = .ok body) (hdata : isDataPacket body = true) :
    (ofJson packet).ReturnsIf packet.Convertible := by
  cases packet with
  | obj fields =>
    obtain ⟨hhead, hid⟩ := Bool.and_eq_true_iff.mp h
    obtain ⟨workerUid, hid⟩ := Json.string_cases hid
    cases body with
    | obj members =>
      simp only [isDataPacket, Bool.and_eq_true] at hdata
      obtain ⟨⟨htable, htext⟩, -⟩ := hdata
      obtain ⟨tableId, htable⟩ := Json.string_cases htable
      obtain ⟨data, htext⟩ := Json.string_cases htext
      rw [ofJson, hbody]
      simp only [Json.index, Outcome.ok_bind, htable, htext, Json.toStr, hid]
      exact (Json.returnsIf_toInt hhead fun hconv => hconv.1).bind fun _ _ => .ok _
    | _ => simp [isDataPacket] at hdata
  | _ => simp [validateJson] at h

/-! ### What returns -/

lemma Timeout.returnsIf_popPacket {I : Prop} {timer : Timeout} (p : OutPacketRef)
    (htimer : I → 0 < timer.timeoutListLock) : (timer.popPacket p).ReturnsIf I :=
  (Outcome.ReturnsIf.semWait htimer).bind fun _ _ => .ok _

lemma UserDataTemplate.returnsIf_isMatchingFound {I : Prop} {t : UserDataTemplate}
    (templateId : String) (hlock : I → 0 < t.uDataTemplateListLock) :
    (t.isMatchingFound templateId).ReturnsIf I :=
  (Outcome.ReturnsIf.semWait hlock).bind fun _ _ => .ok _

lemma WorkerRegistry.returnsIf_getWorkerFromUid {I : Prop} {r : WorkerRegistry}
    {workerUid : String} (h : I → ∃ found, r.getWorkerFromUid workerUid = .ok found) :
    (r.getWorkerFromUid workerUid).ReturnsIf I := by
  have hsearch : (splitFirst (r.hasUid workerUid) r.currentWorkerList).ReturnsIf False := by
    apply Outcome.FailsWith.splitFirst
    intro b _
    exact (Heap.returnsIf_deref False.elim).bind fun _ _ => .ok _
  have hthrows : (r.getWorkerFromUid workerUid).ReturnsIf False := hsearch.bind fun _ _ => .ok _
  exact hthrows.of_imp h

lemma WorkerInstanceList.returnsIf_updateWorker {I : Prop} {l : WorkerInstanceList}
    {registry : WorkerRegistry} {workerUid templateId : String}
    (hworker : I → ∃ worker, registry.getWorkerFromUid workerUid = .ok (some worker)) :
    (l.updateWorker registry workerUid templateId).ReturnsIf I := by
  have hsearch : (splitFirst (fun e => .ok (workerUid == e.workerUid)) l.workerList).ReturnsIf I :=
    .splitFirst fun e _ => .ok _
  apply hsearch.bind
  intro found hfound
  cases found with
  | none => exact .ok _
  | some found =>
    obtain ⟨before, e, after⟩ := found
    obtain ⟨-, -, he⟩ := splitFirst_eq_some hfound
    have hsame : (e.update templateId).workerUid = workerUid :=
      (beq_iff_eq.mp (Except.ok.inj he)).symm
    simp only
    split_ifs
    · rw [hsame]
      have hsome : I → ∃ found, registry.getWorkerFromUid workerUid = .ok found := by
        intro hI
        obtain ⟨worker, hworker⟩ := hworker hI
        exact ⟨some worker, hworker⟩
      apply (WorkerRegistry.returnsIf_getWorkerFromUid hsome).bind
      intro found hfound
      have hfound' : I → ∃ worker, found = some worker := by
        intro hI
        obtain ⟨worker, hworker⟩ := hworker hI
        cases hfound.symm.trans hworker
        exact ⟨worker, rfl⟩
      apply (Outcome.ReturnsIf.ofOption hfound').bind
      intro worker hworker
      rw [Outcome.ofOption_eq_ok.mp hworker] at hfound
      obtain ⟨-, w, hw, -⟩ := WorkerRegistry.of_getWorkerFromUid hfound
      exact (Heap.returnsIf_deref fun _ => ⟨w, hw⟩).bind fun _ _ => .ok _
    · exact .ok _

namespace OutgoingDataRegistry

/-- The entries are there. -/
def Allocated (r : OutgoingDataRegistry) : Prop :=
  ∀ i ∈ r.outDataRegistryList, ∃ st, r.states.get i = some st

variable {I : Prop} {r : OutgoingDataRegistry} {id : String}

lemma returnsIf_find (h : I → r.Allocated) : (r.find id).ReturnsIf I := by
  apply Outcome.FailsWith.splitFirst
  intro i hi
  exact (Heap.returnsIf_deref fun hI => h hI i hi).bind fun _ _ => .ok _

lemma returnsIf_findMatchInList (h : I → r.Allocated) : (r.findMatchInList id).ReturnsIf I :=
  (returnsIf_find h).bind fun _ _ => .ok _

lemma returnsIf_getRegistryFromId (h : I → r.Allocated) :
    (r.getRegistryFromId id).ReturnsIf I :=
  (returnsIf_find h).bind fun _ _ => .ok _

lemma returnsIf_updateTaskStatus {db : Database} {status : UserTaskStatus}
    (h : I → r.Allocated) : (r.updateTaskStatus db id status).ReturnsIf I := by
  apply (returnsIf_find h).bind
  intro found hfound
  cases found with
  | none => exact .ok _
  | some found =>
    obtain ⟨before, i, after⟩ := found
    obtain ⟨-, st, hst, -⟩ := find_eq_some hfound
    apply (Heap.returnsIf_deref fun _ => ⟨st, hst⟩).bind
    intro st _
    split_ifs <;> exact .ok _

/-- A status that is updated moves no entry. -/
lemma Allocated.updateTaskStatus {r' : OutgoingDataRegistry} {db db' : Database}
    {status : UserTaskStatus} {b : Bool} (h : r.Allocated)
    (hr : r.updateTaskStatus db id status = .ok (r', db', b)) : r'.Allocated := by
  rcases updateTaskStatus_cases hr with ⟨-, rfl, -⟩ |
    ⟨-, i, -, st, -, hst, ⟨-, rfl, -⟩ | ⟨-, rfl, -⟩⟩
  · exact h
  · exact h
  · intro j hj
    rw [Heap.get_put hst]
    split_ifs with heq
    · exact ⟨_, rfl⟩
    · exact h j hj

end OutgoingDataRegistry

/-- A data packet whose table is not found is dropped. -/
lemma ProcessDataPacket.returnsIf_execute {I : Prop} {s : Server} {d : ProcessDataPacket}
    (h : I → s.outgoingDataRegistry.Allocated) : (d.execute s).ReturnsIf I := by
  apply (OutgoingDataRegistry.returnsIf_findMatchInList h).bind
  intro found _
  split_ifs
  · exact .ok _
  · simp only
    split_ifs <;> exact .ok _

namespace Worker

variable {I : Prop} {w : Worker}

lemma returnsIf_queuePacket (p : OutPacketRef) (hlock : I → 0 < w.workerLock) :
    (w.queuePacket p).ReturnsIf I := by
  unfold queuePacket
  split_ifs
  · exact .ok _
  · exact (Outcome.ReturnsIf.semWait hlock).bind fun _ _ => .ok _

/-- A packet that is there, with a table that is there. -/
def PacketAllocated (mem : Heap OutPacket) (states : Heap OutgoingDataState)
    (p : OutPacketRef) : Prop :=
  ∃ outPacket i st, mem.get p = some outPacket ∧ outPacket.outData = some i ∧
    states.get i = some st

lemma returnsIf_hasId {mem : Heap OutPacket} {states : Heap OutgoingDataState} {p : OutPacketRef}
    (id : String) (h : I → PacketAllocated mem states p) :
    (hasId mem states id p).ReturnsIf I := by
  have hpacket : I → ∃ outPacket, mem.get p = some outPacket := by
    intro hI
    obtain ⟨outPacket, -, -, hp, -⟩ := h hI
    exact ⟨outPacket, hp⟩
  apply (Heap.returnsIf_deref hpacket).bind
  intro outPacket hp
  rw [Heap.deref_eq_ok] at hp
  have hdata : I → ∃ i, outPacket.outData = some i := by
    intro hI
    obtain ⟨_, i, -, hp', hi, -⟩ := h hI
    cases hp'.symm.trans hp
    exact ⟨i, hi⟩
  apply (Outcome.ReturnsIf.ofOption hdata).bind
  intro i hi
  rw [Outcome.ofOption_eq_ok] at hi
  have hstate : I → ∃ st, states.get i = some st := by
    intro hI
    obtain ⟨_, i', st, hp', hi', hst⟩ := h hI
    cases hp'.symm.trans hp
    cases hi'.symm.trans hi
    exact ⟨st, hst⟩
  exact (Heap.returnsIf_deref hstate).bind fun _ _ => .ok _

lemma returnsIf_matchAckablePacket {mem : Heap OutPacket} {states : Heap OutgoingDataState}
    {timer : Timeout} (id : String) (hlock : I → 0 < w.workerLock)
    (htimer : I → 0 < timer.timeoutListLock)
    (hpackets : I → ∀ p ∈ w.ackPendingQueue, PacketAllocated mem states p) :
    (w.matchAckablePacket mem states timer id).ReturnsIf I := by
  apply (Outcome.ReturnsIf.semWait hlock).bind
  intro lock _
  have hsearch : (splitFirst (hasId mem states id) w.ackPendingQueue).ReturnsIf I := by
    apply Outcome.FailsWith.splitFirst
    intro p hp
    exact returnsIf_hasId id fun hI => hpackets hI p hp
  apply hsearch.bind
  intro found _
  cases found with
  | none => exact .ok _
  | some found => exact (Timeout.returnsIf_popPacket _ htimer).bind fun _ _ => .ok _

end Worker

namespace Server

/-- Nothing is in the way of a packet of the worker: no lock is held, and what its calls follow is
there. -/
structure Intact (s : Server) (worker : WorkerRef) : Prop where
  receiverSink : 0 < s.receiverSink.sinkLock
  templates : 0 < s.templateRegistry.uDataTemplateListLock
  timer : 0 < s.packetTimeout.timeoutListLock
  entries : s.outgoingDataRegistry.Allocated
  lock : ∀ w, s.getWorker worker = some w → 0 < w.workerLock
  packets : ∀ w, s.getWorker worker = some w → ∀ p ∈ w.ackPendingQueue,
    Worker.PacketAllocated s.outPackets s.outgoingDataRegistry.states p

variable {I : Prop} {s t : Server} {worker : WorkerRef} {p : ProcessStatusPacket}

lemma returnsIf_updateTaskStatus {id : String} {status : UserTaskStatus}
    (h : I → s.outgoingDataRegistry.Allocated) : (s.updateTaskStatus id status).ReturnsIf I :=
  (OutgoingDataRegistry.returnsIf_updateTaskStatus h).bind fun _ _ => .ok _

lemma returnsIf_noteTemplate {w : Worker} {tableId : String}
    (hlock : I → 0 < s.templateRegistry.uDataTemplateListLock)
    (hworker : I → ∃ b, s.workerRegistry.getWorkerFromUid w.workerUID = .ok (some b)) :
    (s.noteTemplate w tableId).ReturnsIf I := by
  apply (UserDataTemplate.returnsIf_isMatchingFound tableId hlock).bind
  intro found _
  split_ifs
  · exact (WorkerInstanceList.returnsIf_updateWorker hworker).bind fun _ _ => .ok _
  · exact .ok _

lemma returnsIf_queuePacket {outPacket : OutPacket} {w : Worker}
    (hw : s.getWorker worker = some w) (hlock : I → 0 < w.workerLock) :
    (s.queuePacket worker outPacket).ReturnsIf I := by
  apply (Heap.returnsIf_deref fun _ => ⟨w, hw⟩).bind
  intro v hv
  cases (Heap.deref_eq_ok.mp hv).symm.trans hw
  exact (Worker.returnsIf_queuePacket _ hlock).bind fun _ _ => .ok _

/-- The acknowledgement of a result goes to a worker that the registry of tables knows nothing
of. -/
lemma returnsIf_noteResult {status : UserTaskStatus} {code : ServerPacketCodes} {w : Worker}
    (hw : s.getWorker worker = some w) (hlock : I → 0 < w.workerLock)
    (hentries : I → s.outgoingDataRegistry.Allocated) :
    (s.noteResult worker p status code).ReturnsIf I := by
  apply (returnsIf_updateTaskStatus hentries).bind
  intro t ht
  obtain ⟨r, database, b, hr, rfl⟩ := updateTaskStatus_eq_ok.mp ht
  have hentries' : I → r.Allocated := fun hI => (hentries hI).updateTaskStatus hr
  apply (OutgoingDataRegistry.returnsIf_getRegistryFromId hentries').bind
  intro outDataState _
  cases outDataState with
  | none => exact .ok _
  | some i => exact (returnsIf_queuePacket (by exact hw) hlock).bind fun _ _ => .ok _

lemma returnsIf_matchAckablePacket {id : String} {w : Worker}
    (hw : s.getWorker worker = some w) :
    (s.matchAckablePacket worker id).ReturnsIf (s.Intact worker) := by
  apply (Heap.returnsIf_deref fun _ => ⟨w, hw⟩).bind
  intro v hv
  rw [Heap.deref_eq_ok] at hv
  have hmatch : (v.matchAckablePacket s.outPackets s.outgoingDataRegistry.states s.packetTimeout
      id).ReturnsIf (s.Intact worker) := by
    apply Worker.returnsIf_matchAckablePacket
    · exact fun h => h.lock v hv
    · exact fun h => h.timer
    · exact fun h => h.packets v hv
  exact hmatch.bind fun _ _ => .ok _

lemma stays_workerUID : Stays Worker.workerUID := fun _ _ _ _ _ _ => rfl

/-- The switch returns for a packet of a registered worker. -/
lemma returnsIf_switchStatus {statusCode : BitVec 32}
    (hworker : s.workerRegistry.getWorkerFromUid p.workerUid = .ok (some worker)) :
    (s.switchStatus worker statusCode p).ReturnsIf (s.Intact worker) := by
  obtain ⟨-, w, hw, huid⟩ := WorkerRegistry.of_getWorkerFromUid hworker
  rw [← huid] at hworker
  apply (Heap.returnsIf_deref fun _ => ⟨w, hw⟩).bind
  intro v hv
  cases (Heap.deref_eq_ok.mp hv).symm.trans hw
  split_ifs
  · exact returnsIf_noteTemplate (fun h => h.templates) fun _ => ⟨worker, hworker⟩
  · apply (returnsIf_matchAckablePacket hw).bind
    rintro ⟨t, found⟩ ht
    simp only
    split_ifs
    · obtain ⟨-, -, htemplates, hlist⟩ := matchAckablePacket_frame ht
      have huid := KeepsWorkers.matchAckablePacket stays_workerUID ht
      rw [← WorkerRegistry.getWorkerFromUid_congr hlist huid] at hworker
      apply returnsIf_noteTemplate _ fun _ => ⟨worker, hworker⟩
      rw [htemplates]
      exact fun h => h.templates
    · exact .ok _
  · exact returnsIf_noteResult hw (fun h => h.lock w hw) fun h => h.entries
  · exact returnsIf_noteResult hw (fun h => h.lock w hw) fun h => h.entries
  · exact returnsIf_updateTaskStatus fun h => h.entries
  · exact .ok _
  · exact .ok _

/-- The statistics are stored unless they cannot be read. -/
lemma throwsWhen_storeStats {w : Worker} (hw : s.getWorker worker = some w) :
    (s.storeStats worker p).ThrowsWhen I
      (¬ (p.statsPresent = true → ∃ counts, adv_tokenizer p.vectorString ',' = .ok counts)) := by
  rw [storeStats]
  split_ifs with hstats
  · apply (throwsWhen_adv_tokenizer.congr _).bind
    · intro counts _
      exact (Heap.returnsIf_deref fun _ => ⟨w, hw⟩).bind fun _ _ => .ok _
    · simp [hstats]
  · exact ⟨fun _ => .ok _, fun hnot => absurd (fun h => absurd h hstats) hnot⟩

lemma throwsWhen_packetStatusParse {packet : Json}
    (hreads : p.Reads packet)
    (hworker : s.workerRegistry.getWorkerFromUid p.workerUid = .ok (some worker)) :
    (s.packetStatusParse p).ThrowsWhen (s.Intact worker) (¬ packet.StatsReadable) := by
  rw [packetStatusParse, hworker, Outcome.ok_bind]
  apply (returnsIf_switchStatus hworker).bind_throwsWhen
  intro t ht
  obtain ⟨-, w, hw, -⟩ := WorkerRegistry.of_getWorkerFromUid hworker
  have hkeeps := (KeepsWorkers.switchRule stays_workerUID).switchStatus ht worker
  obtain ⟨v, hv, -⟩ := exists_of_map_eq hkeeps hw
  exact (throwsWhen_storeStats hv).congr (not_congr hreads.statsReadable_iff.symm)

/-- A packet of a registered worker throws exactly when its statistics cannot be read. -/
lemma throwsWhen_processPacket {packet : Json} {workerUid : String}
    (haccepted : validateJson packet = true) (hid : packet.sender = some workerUid)
    (hworker : s.workerRegistry.getWorkerFromUid workerUid = .ok (some worker)) :
    (s.processPacket packet).ThrowsWhen (s.Intact worker ∧ packet.Convertible)
      (¬ packet.StatsReadable) := by
  have hparse : ∀ t : Server, t.workerRegistry = s.workerRegistry →
      (s.Intact worker → t.Intact worker) →
      (ProcessStatusPacket.ofJson packet >>= t.packetStatusParse).ThrowsWhen
        (s.Intact worker ∧ packet.Convertible) (¬ packet.StatsReadable) := by
    intro t hregistry hintact
    apply ((ProcessStatusPacket.returnsIf_ofJson haccepted).mono And.right).bind_throwsWhen
    intro p hp
    have hreads := ProcessStatusPacket.reads_of_ofJson haccepted hp
    have hworker' : t.workerRegistry.getWorkerFromUid p.workerUid = .ok (some worker) := by
      rw [hregistry, ← Option.some.inj (hid.symm.trans hreads.workerUid)]
      exact hworker
    exact (throwsWhen_packetStatusParse hreads hworker').mono fun h => hintact h.1
  obtain ⟨body, hbody⟩ : ∃ body, packet.index "body" = .ok body := by
    cases packet with
    | obj fields => exact ⟨_, rfl⟩
    | _ => simp [validateJson] at haccepted
  rw [processPacket, hbody, Outcome.ok_bind]
  split_ifs with hdata
  · apply ((ProcessDataPacket.returnsIf_ofJson haccepted hbody hdata).mono
      And.right).bind_throwsWhen
    intro d _
    apply (ProcessDataPacket.returnsIf_execute fun h => h.1.entries).bind_throwsWhen
    intro t ht
    obtain ⟨csvFiles, database, rfl, -⟩ := ProcessDataPacket.execute_cases ht
    exact hparse _ rfl fun h => ⟨h.1, h.2, h.3, h.4, h.5, h.6⟩
  · exact hparse s rfl id

/-! ### The validator job -/

variable {workerUid : String} {item : SinkItem Json} {items : List (SinkItem Json)}

lemma throwsWhen_startValidator (hfront : s.receiverSink.sinkItemList = item :: items)
    (haccepted : validateJson item.dataObject = true)
    (hid : item.dataObject.sender = some workerUid)
    (hworker : s.workerRegistry.getWorkerFromUid workerUid = .ok (some worker)) :
    s.startValidator.ThrowsWhen (s.Intact worker ∧ item.dataObject.Convertible)
      (¬ item.dataObject.StatsReadable) := by
  rw [startValidator, Sink.popObject, hfront]
  simp only [bind_assoc, pure_bind]
  have hwait : (semWait s.receiverSink.sinkLock).ReturnsIf
      (s.Intact worker ∧ item.dataObject.Convertible) := .semWait fun h => h.1.receiverSink
  apply hwait.bind_throwsWhen
  intro lock _
  apply Outcome.ThrowsWhen.bind _ fun _ _ => .ok _
  apply (throwsWhen_processPacket haccepted hid (by exact hworker)).mono
  exact fun h => ⟨⟨Nat.succ_pos lock, h.1.2, h.1.3, h.1.4, h.1.5, h.1.6⟩, h.2⟩

/-- A packet that the session accepted, of a registered worker, is next. If its statistics can be
read, no exception leaves the job; if not, the job does not return. Where nothing else is in the
way it returns exactly if they can be read, and throws exactly if not. -/
theorem startValidator_throws_iff (hfront : s.receiverSink.sinkItemList = item :: items)
    (haccepted : validateJson item.dataObject = true)
    (hid : item.dataObject.sender = some workerUid)
    (hworker : s.workerRegistry.getWorkerFromUid workerUid = .ok (some worker)) :
    (item.dataObject.StatsReadable → s.startValidator ≠ .error .exception) ∧
    (¬ item.dataObject.StatsReadable → ∀ r, s.startValidator ≠ .ok r) ∧
    (s.Intact worker → item.dataObject.Convertible →
      ((∃ r, s.startValidator = .ok r) ↔ item.dataObject.StatsReadable) ∧
      (s.startValidator = .error .exception ↔ ¬ item.dataObject.StatsReadable)) := by
  have hthrows := throwsWhen_startValidator hfront haccepted hid hworker
  have hreturn : item.dataObject.StatsReadable → s.startValidator.ReturnsIf
      (s.Intact worker ∧ item.dataObject.Convertible) :=
    fun h => hthrows.returns (not_not_intro h)
  refine ⟨fun h => (hreturn h).ne_exception, fun h => (hthrows.throws h).ne_ok, ?_⟩
  intro hintact hconv
  by_cases h : item.dataObject.StatsReadable
  · obtain ⟨r, hr⟩ := (hreturn h).exists_ok ⟨hintact, hconv⟩
    simp [h, hr]
  · have heq := (hthrows.throws h).eq_exception ⟨hintact, hconv⟩
    simp [h, heq]

/-- A status packet with statistics. -/
def statusPacket (workerUid taskQueue : String) : Json :=
  .obj [("head", .int 0), ("id", .str workerUid), ("stats", .obj [("avgQueueTime", .int 1),
    ("taskQueue", .str taskQueue), ("totalAvailableThreads", .int 1)])]

lemma convertible_statusPacket (workerUid taskQueue : String) :
    (statusPacket workerUid taskQueue).Convertible := ⟨trivial, fun _ => trivial⟩

/-- The packet of the ready worker waits in the receiver sink. -/
def waitingServer (taskQueue : String) : Server :=
  { readyServer "1" with
    receiverSink := ⟨[⟨statusPacket "1" taskQueue, .mediumPriority, 0⟩], 1, 20⟩ }

lemma intact_waitingServer (taskQueue : String) : (waitingServer taskQueue).Intact 0 where
  receiverSink := Nat.one_pos
  templates := Nat.one_pos
  timer := Nat.one_pos
  entries i hi := by cases hi
  lock w hw := by
    cases hw
    exact Nat.one_pos
  packets w hw p hp := by
    cases hw
    cases hp

/-- Four counts. -/
theorem startValidator_throws_iff_counts :
    ∃ r, (waitingServer "1,0,0,0").startValidator = .ok r := by
  have hthrows := @startValidator_throws_iff (waitingServer "1,0,0,0") 0 "1"
    ⟨statusPacket "1" "1,0,0,0", .mediumPriority, 0⟩ [] rfl (by decide) rfl
    (getWorkerFromUid_readyServer "1")
  apply (hthrows.2.2 (intact_waitingServer _) (convertible_statusPacket _ _)).1.mpr
  decide

/-- Statistics of a registered worker that the schema takes, and a word without a digit. -/
theorem startValidator_throws :
    validateJson (statusPacket "1" "abc") = true ∧
    (waitingServer "abc").receiverSink.sinkItemList.map SinkItem.dataObject
      = [statusPacket "1" "abc"] ∧
    (statusPacket "1" "abc").sender = some "1" ∧
    (waitingServer "abc").workerRegistry.getWorkerFromUid "1" = .ok (some 0) ∧
    (waitingServer "abc").startValidator = .error .exception ∧
    (waitingServer "").startValidator = .error .exception := by
  refine ⟨by decide, rfl, rfl, getWorkerFromUid_readyServer "1", ?_, ?_⟩
  · rfl
  · rfl

end Server

end ServerUnit
