import ServerUnit.SenderUnit.TemplateUpdate
import ServerUnit.Server.Reachable

/-!
# What the sender core drops

One call of `startSenderCore` instructs workers and hands out at most one user-data table. It
does not look at whether a worker's queue took the packet: the table is popped from the sink and
the worker is tracked either way. So nothing is lost exactly when every queue has room for
all it is offered.
-/

namespace ServerUnit

open Lib

namespace Server

variable {s s' t : Server} {b worker : WorkerRef} {w wb : Worker}

/-! ### The workers that are instructed -/

/-- What instructing the workers of a list does besides the offers. -/
structure Instructs (json : List TemplateJson) (s t : Server) (workerList : List String) :
    Prop where
  list : t.workerRegistry.currentWorkerList = s.workerRegistry.currentWorkerList
  identity : ∀ b, (t.getWorker b).map Worker.identity = (s.getWorker b).map Worker.identity
  others : ∀ b w, s.getWorker b = some w → w.workerUID ∉ workerList ∨ json = [] →
    t.getWorker b = some w
  unready : ∀ b w, t.getWorker b = some w → w.workerUID ∈ workerList → json ≠ [] →
    w.workerReady = false
  entries : ∃ entries, t.workerInstanceList.workerList =
      s.workerInstanceList.workerList ++ entries ∧
    t.outPackets.next = s.outPackets.next + entries.length ∧
    ∀ e ∈ entries, e.workerUid ∈ workerList
  sink : t.senderSink = s.senderSink

namespace Instructs

variable {json : List TemplateJson} {workerList : List String} {uid : String}

lemma registered (h : Instructs json s t workerList)
    (hreg : Registered s.workerRegistry.workers s.workerRegistry.currentWorkerList) :
    Registered t.workerRegistry.workers t.workerRegistry.currentWorkerList := by
  rw [h.list]
  exact hreg.congr h.identity

lemma nil (s : Server) : Instructs json s s [] :=
  ⟨rfl, fun _ => rfl, fun _ _ hw _ => hw, by simp, ⟨[], by simp, rfl, by simp⟩, rfl⟩

/-- One worker after the other. -/
lemma cons (h : Instructs json s t [uid]) (h' : Instructs json t s' workerList) :
    Instructs json s s' (uid :: workerList) := by
  refine ⟨h'.list.trans h.list, fun b => (h'.identity b).trans (h.identity b), ?_, ?_, ?_,
    h'.sink.trans h.sink⟩
  · intro b w hw hnot
    have hone := h.others b w hw (hnot.imp_left fun hn => by simp at hn ⊢; exact hn.1)
    exact h'.others b w hone (hnot.imp_left fun hn hmem => hn (List.mem_cons_of_mem _ hmem))
  · intro b w' hw' hmem hne
    by_cases hrest : w'.workerUID ∈ workerList
    · exact h'.unready b w' hw' hrest hne
    · -- the rest of the list does not name the worker, so it is as the first round left it
      obtain ⟨w, hw, hid⟩ := exists_of_map_eq (h'.identity b).symm hw'
      have huid : w.workerUID = w'.workerUID := congrArg Prod.fst hid
      have hsame := h'.others b w hw (.inl (by rwa [huid]))
      rw [hw'] at hsame
      cases hsame
      exact h.unready b w' hw ((List.mem_cons.mp hmem).elim (fun he => by simp [he])
        fun hm => absurd hm hrest) hne
  · obtain ⟨es, hes, hnext, hmem⟩ := h.entries
    obtain ⟨es', hes', hnext', hmem'⟩ := h'.entries
    refine ⟨es ++ es', by rw [hes', hes, List.append_assoc], ?_, ?_⟩
    · rw [hnext', hnext, List.length_append, Nat.add_assoc]
    · intro e he
      rcases List.mem_append.mp he with he | he
      · rw [List.mem_singleton.mp (hmem e he)]
        exact List.mem_cons_self
      · exact List.mem_cons_of_mem _ (hmem' e he)

/-- A list whose first UID is no worker's. -/
lemma skip (hnone : ∀ b w, s.getWorker b = some w → w.workerUID ≠ uid)
    (h : Instructs json s t workerList) : Instructs json s t (uid :: workerList) := by
  refine ⟨h.list, h.identity, ?_, ?_, ?_, h.sink⟩
  · intro b w hw hnot
    exact h.others b w hw (hnot.imp_left fun hn hmem => hn (List.mem_cons_of_mem _ hmem))
  · intro b w' hw' hmem hne
    refine h.unready b w' hw' ?_ hne
    obtain ⟨w, hw, hid⟩ := exists_of_map_eq (h.identity b).symm hw'
    have huid : w.workerUID = w'.workerUID := congrArg Prod.fst hid
    exact (List.mem_cons.mp hmem).resolve_left fun he => hnone b w hw (huid.trans he)
  · obtain ⟨es, hes, hnext, hmem⟩ := h.entries
    exact ⟨es, hes, hnext, fun e he => List.mem_cons_of_mem _ (hmem e he)⟩

/-- A worker with another UID is left alone. -/
lemma pushInstance_other {j : TemplateJson} (hw : s.getWorker worker = some w)
    (hb : s.getWorker b = some wb) (hne : wb.workerUID ≠ w.workerUID)
    (h : s.pushInstance worker j = .ok s') :
    s'.getWorker b = some wb := by
  obtain ⟨s₁, w₁, outData, s₂, rc, s₃, s₄, h₁, hw₁, -, h₂, h₃, h₄, h₅⟩ := pushInstance_eq_ok.mp h
  obtain ⟨r, -, rfl⟩ := registryAdd_eq_ok.mp h₁
  have heq : w = w₁ := Option.some.inj (hw.symm.trans hw₁)
  subst heq
  obtain ⟨r₃, c, -, rfl⟩ := assignWorker_eq_ok.mp h₃
  obtain ⟨r₄, db, c₄, -, rfl⟩ := updateTaskStatus_eq_ok.mp h₄
  obtain ⟨l, registry, hadd, rfl⟩ := trackWorker_eq_ok.mp h₅
  have hbne : b ≠ worker := by
    rintro rfl
    rw [hw] at hb
    cases hb
    exact hne rfl
  have hb₂ : s₂.getWorker b = some wb := by
    obtain ⟨v, -, ⟨-, -, rfl⟩ | ⟨-, -, -, rfl⟩⟩ := queuePacket_cases h₂
    · exact hb
    · exact (Heap.get_put_of_ne hbne).trans hb
  rcases WorkerInstanceList.addWorker_cases hadd with
    ⟨-, rfl, rfl⟩ | ⟨worker', w', hfound, hw', rfl, rfl⟩
  · exact hb₂
  · obtain ⟨-, w'', hw'', huid⟩ := WorkerRegistry.of_getWorkerFromUid hfound
    refine (Heap.get_put_of_ne ?_).trans hb₂
    rintro rfl
    have heq : w'' = wb := Option.some.inj (hw''.symm.trans hb₂)
    exact hne (heq ▸ huid)

lemma pushInstances_other {json : List TemplateJson} (hw : s.getWorker worker = some w)
    (hb : s.getWorker b = some wb) (hne : wb.workerUID ≠ w.workerUID)
    (h : s.pushInstances worker json = .ok s') : s'.getWorker b = some wb := by
  induction json generalizing s w with
  | nil =>
    cases h
    exact hb
  | cons j json ih =>
    simp only [Server.pushInstances, Outcome.bind_eq_ok] at h
    obtain ⟨t, ht, h⟩ := h
    obtain ⟨o, -, hone⟩ := Offers.pushInstance hw ht
    obtain ⟨w', hw', hid⟩ := exists_of_map_eq (hone.identity worker) hw
    have huid : w'.workerUID = w.workerUID := congrArg Prod.fst hid
    exact ih hw' (pushInstance_other hw hb hne ht) (by rwa [huid]) h

/-- Handing out packets leaves the sender sink alone. -/
lemma handout_senderSink : HandoutRule fun s s' : Server => s'.senderSink = s.senderSink :=
  .of_frame (f := Server.senderSink) fun _ _ _ _ _ _ _ => rfl

/-- One round of the loop. -/
lemma pushInstances {json : List TemplateJson}
    (hreg : Registered s.workerRegistry.workers s.workerRegistry.currentWorkerList)
    (hw : s.getWorker worker = some w) (h : s.pushInstances worker json = .ok s') :
    Instructs json s s' [w.workerUID] := by
  have htracked := TrackedBy.pushInstances hreg hw h
  obtain ⟨os, hos, hoffers⟩ := Offers.pushInstances hw h
  have hlen : os.length = json.length := by simpa using congrArg List.length hos
  refine ⟨htracked.list, htracked.identity, ?_, ?_, ?_, handout_senderSink.pushInstances h⟩
  · rintro b wb hb (hnot | rfl)
    · exact pushInstances_other hw hb (by simpa using hnot) h
    · cases h
      exact hb
  · intro b w' hw' hmem hne
    have hview := htracked.view b
    rw [hw', Option.map_some, Option.map_map, eq_comm, Option.map_eq_some_iff] at hview
    obtain ⟨v, -, hv⟩ := hview
    have hready : (v.view.2 && (json.length == 0 || v.view.1.1 != w.workerUID))
        = w'.workerReady := congrArg Prod.snd hv
    have huid : v.view.1.1 = w'.workerUID := congrArg (fun x => x.1.1) hv
    have hpos : (json.length == 0) = false := by
      simpa using hne
    rw [← hready, huid, List.mem_singleton.mp hmem, hpos]
    simp
  · refine ⟨_, congrArg WorkerInstanceList.workerList htracked.tracked, ?_, ?_⟩
    · rw [hoffers.next, List.length_map, hlen, List.length_replicate]
    · intro e he
      rw [List.eq_of_mem_replicate he]
      exact List.mem_singleton_self _

/-- The whole loop. -/
lemma pushInstanceLoop {json : List TemplateJson} {workerList rest : List String}
    (hreg : Registered s.workerRegistry.workers s.workerRegistry.currentWorkerList)
    (h : pushInstanceLoop json s workerList = .ok (s', rest)) :
    Instructs json s s' workerList := by
  induction workerList generalizing s with
  | nil =>
    cases h
    exact .nil _
  | cons uid workerList ih =>
    simp only [Server.pushInstanceLoop, Outcome.bind_eq_ok] at h
    obtain ⟨found, hfound, h⟩ := h
    cases found with
    | none =>
      refine skip (fun b w hw => ?_) (ih hreg h)
      obtain ⟨w', hw', hne⟩ := WorkerRegistry.of_getWorkerFromUid_none hfound b
        (hreg.listed b w hw)
      cases hw.symm.trans hw'
      exact hne
    | some worker =>
      simp only [Outcome.bind_eq_ok] at h
      obtain ⟨t, ht, h⟩ := h
      obtain ⟨-, w, hw, huid⟩ := WorkerRegistry.of_getWorkerFromUid hfound
      have hround := pushInstances hreg hw ht
      rw [huid] at hround
      exact hround.cons (ih (hround.registered hreg) h)

end Instructs

/-! ### The two parts of a call -/

/-- The UIDs whose workers a call of `startSenderCore` instructs. -/
def instructedUids (s : Server) : List String :=
  if s.templateRegistry.getUpdateStatus then
    addUids s.senderCoreData.newWorkerList (s.workerRegistry.currentWorkerList.map s.uidOf)
  else s.senderCoreData.newWorkerList

/-- Whether the call goes on to user data. -/
def handsOutData (s : Server) : Bool :=
  s.templateRegistry.getUpdateStatus || s.senderCoreData.isNewWorkerListEmpty

/-- The workers to instruct have been instructed, with one packet offered for each template. -/
structure InstructsBy (s t : Server) (offers : List (WorkerRef × OutPacket)) : Prop where
  instructs : Instructs s.templateRegistry.toJson s t s.instructedUids
  offered : Offers s offers t
  packets : ∀ b ∈ s.workerRegistry.currentWorkerList, ∀ w, s.getWorker b = some w →
    (offersTo b offers).map (·.packet) =
      (List.replicate (s.instructedUids.count w.workerUID)
        s.templateRegistry.toJson).flatten.map (templatePacket w.workerUID)

namespace InstructsBy

variable {rest : List String}

/-- What the sender core remembers of new workers is not looked at. -/
lemma setSenderCoreData {offers : List (WorkerRef × OutPacket)} (h : InstructsBy s t offers)
    (senderCoreData : SenderCoreData) : InstructsBy s { t with senderCoreData } offers where
  instructs := ⟨h.instructs.list, h.instructs.identity, h.instructs.others, h.instructs.unready,
    h.instructs.entries, h.instructs.sink⟩
  offered := h.offered.append_same ⟨rfl, rfl, fun _ => rfl⟩
  packets := h.packets

/-- The templates were updated: the list is used up. -/
lemma of_updateAll (hs : s.Sound) (hflag : s.templateRegistry.getUpdateStatus = true)
    (h : s.updateAllWorkerInstances s.senderCoreData.newWorkerList = .ok (t, rest)) :
    rest = [] ∧ ∃ offers, InstructsBy s t offers := by
  obtain ⟨hrest, offers, hoffers, -, hcount⟩ :=
    updateAllWorkerInstances_offers (Registered.distinctUids hs.registered) h
  simp only [updateAllWorkerInstances, pushInstanceToWorkerQueue, Outcome.bind_eq_ok,
    Outcome.pure_eq_ok, Prod.mk.injEq] at h
  obtain ⟨l, hl, ⟨t₀, rest'⟩, hpush, rfl, -⟩ := h
  have hinst := Instructs.pushInstanceLoop hs.registered hpush
  rw [addWorkers_eq hl] at hinst
  have huids : s.instructedUids = addUids s.senderCoreData.newWorkerList
      (s.workerRegistry.currentWorkerList.map s.uidOf) := by rw [instructedUids, if_pos hflag]
  refine ⟨hrest, offers, ?_, hoffers, ?_⟩
  · rw [huids]
    exact ⟨hinst.list, hinst.identity, hinst.others, hinst.unready, hinst.entries, hinst.sink⟩
  · rw [huids]
    exact hcount

/-- They were not: the new workers are instructed. -/
lemma of_pushInstance (hs : s.Sound) (hflag : s.templateRegistry.getUpdateStatus = false)
    (h : s.pushInstanceToWorkerQueue s.senderCoreData.newWorkerList = .ok (t, rest)) :
    ∃ offers, InstructsBy s t offers := by
  rw [pushInstanceToWorkerQueue] at h
  have huids : s.instructedUids = s.senderCoreData.newWorkerList := by
    rw [instructedUids, hflag, if_neg Bool.false_ne_true]
  have hinst := Instructs.pushInstanceLoop hs.registered h
  obtain ⟨-, offers, hoffers, -, hcount⟩ :=
    Offers.pushInstanceLoop (Registered.distinctUids hs.registered) h
  refine ⟨offers, ?_, hoffers, ?_⟩
  · rw [huids]
    exact hinst
  · rw [huids]
    exact hcount

/-- Nobody is to be instructed. -/
lemma of_nil (h : s.instructedUids = []) : InstructsBy s s [] := by
  refine ⟨?_, .done (.refl s), ?_⟩
  · rw [h]
    exact .nil s
  · rw [h]
    simp

end InstructsBy

/-- The workers are instructed first, and user data is handed out after that. -/
lemma startSenderCore_parts {status : JobStatus} (hs : s.Sound)
    (hpending : s.senderCoreData.pendingPacketsList = [])
    (h : s.startSenderCore = .ok (s', status)) :
    ∃ t offers, InstructsBy s t offers ∧
      (if s.handsOutData then t.pushUserDataToWorkerQueue = .ok s' else t = s') := by
  rw [senderCoreDispatch_of_idle hpending] at h
  simp only [senderCoreDispatch, Outcome.bind_eq_ok, Outcome.pure_eq_ok, Prod.mk.injEq] at h
  obtain ⟨t, ht, t', ht', rfl, -⟩ := h
  unfold instructOnUpdate at ht
  split_ifs at ht with hflag
  · simp only [Outcome.bind_eq_ok, Outcome.pure_eq_ok] at ht
    obtain ⟨⟨t₁, rest⟩, hupdate, rfl⟩ := ht
    obtain ⟨rfl, offers, hby⟩ := InstructsBy.of_updateAll hs hflag hupdate
    refine ⟨_, offers, hby.setSenderCoreData { t₁.senderCoreData with newWorkerList := [] }, ?_⟩
    rw [handsOutData, hflag, Bool.true_or, if_pos rfl]
    simpa [instructNewOrPushData, SenderCoreData.isNewWorkerListEmpty] using ht'
  · cases ht
    unfold instructNewOrPushData at ht'
    have hflag : s.templateRegistry.getUpdateStatus = false := by simpa using hflag
    cases hempty : s.senderCoreData.isNewWorkerListEmpty with
    | false =>
      simp only [hempty, Bool.not_false, if_true, Outcome.bind_eq_ok, Outcome.pure_eq_ok] at ht'
      obtain ⟨⟨t₀, rest⟩, hpush, rfl⟩ := ht'
      obtain ⟨offers, hby⟩ := InstructsBy.of_pushInstance hs hflag hpush
      refine ⟨_, offers, hby.setSenderCoreData { t₀.senderCoreData with newWorkerList := rest }, ?_⟩
      rw [handsOutData, hflag, hempty, Bool.or_self, if_neg Bool.false_ne_true]
    | true =>
      simp only [hempty, Bool.not_true, Bool.false_eq_true, if_false] at ht'
      have hnil : s.senderCoreData.newWorkerList = [] := by
        simpa [SenderCoreData.isNewWorkerListEmpty] using hempty
      refine ⟨s, [], .of_nil ?_, ?_⟩
      · rw [instructedUids, hflag, if_neg Bool.false_ne_true, hnil]
      · simpa [handsOutData, hempty] using ht'

/-- Handing out user data: nothing happens, since no worker is found, or the front of the sink is
offered to the worker found. -/
lemma pushUserData_parts (h : t.pushUserDataToWorkerQueue = .ok s') :
    (s' = t ∧ ∀ taskPriority worker, t.senderSink.getTopTaskPriority = .ok taskPriority →
      findIdealWorker t.workerRegistry taskPriority ≠ .ok (some worker)) ∨
    ∃ taskPriority worker w o item items body,
      t.senderSink.getTopTaskPriority = .ok taskPriority ∧
      findIdealWorker t.workerRegistry taskPriority = .ok (some worker) ∧
      t.getWorker worker = some w ∧ t.senderSink.sinkItemList = item :: items ∧
      item.dataObject.toJson = .ok body ∧
      o.packet = PacketConstructor.create .spDataSent w.workerUID body ∧
      Offers t [(worker, o)] s' ∧ s'.senderSink.sinkItemList = items ∧
      s'.workerInstanceList = t.workerInstanceList := by
  unfold pushUserDataToWorkerQueue at h
  split_ifs at h with hempty
  · left
    refine ⟨(Outcome.pure_eq_ok.mp h).symm, fun π worker hπ => ?_⟩
    have hnil : t.senderSink.sinkItemList = [] := by
      simpa [Sink.isSinkEmpty] using hempty
    simp [Sink.getTopTaskPriority, hnil] at hπ
  · simp only [Outcome.bind_eq_ok] at h
    obtain ⟨π, hπ, found, hfound, h⟩ := h
    cases found with
    | none =>
      left
      refine ⟨(Outcome.pure_eq_ok.mp h).symm, fun π' worker hπ' hw => ?_⟩
      rw [hπ] at hπ'
      cases hπ'
      rw [hfound] at hw
      cases hw
    | some worker =>
      right
      obtain ⟨sink, table, body, w, outData, s₂, rc, s₃, hpop, hbody, hw, -, h₂, h₃, h₄⟩ :=
        dispatchUserData_eq_ok.mp h
      rcases Sink.popObject_cases hpop with ⟨-, -, hnone⟩ | ⟨item, items, hitems, hitem, rfl⟩
      · cases hnone
      · cases hitem
        obtain ⟨r₃, c, -, rfl⟩ := assignWorker_eq_ok.mp h₃
        obtain ⟨r₄, db, c₄, -, rfl⟩ := updateTaskStatus_eq_ok.mp h₄
        have hsame : SameQueues t
            { t with senderSink := { t.senderSink with sinkItemList := items } } :=
          ⟨rfl, rfl, fun _ => rfl⟩
        have hrest : s₂.senderSink.sinkItemList = items ∧
            s₂.workerInstanceList = t.workerInstanceList := by
          obtain ⟨v, -, ⟨-, -, rfl⟩ | ⟨-, -, -, rfl⟩⟩ := queuePacket_cases h₂ <;> exact ⟨rfl, rfl⟩
        exact ⟨π, worker, w, _, item, items, body, hπ, hfound, hw, hitems, hbody, rfl,
          .offer hsame h₂ (.done ⟨rfl, rfl, fun _ => rfl⟩), hrest.1, hrest.2⟩

/-! ### The worker that user data goes to -/

/-- Whether the call leaves the worker as ready as it was: it is not instructed. -/
def keepsReady (s : Server) (b : WorkerRef) : Bool :=
  s.templateRegistry.toJson.isEmpty || !s.instructedUids.contains (s.uidOf b)

/-- The registry with only the workers that the call does not instruct. -/
def otherWorkers (s : Server) : WorkerRegistry :=
  { s.workerRegistry with
    currentWorkerList := s.workerRegistry.currentWorkerList.filter s.keepsReady }

lemma keepsReady_iff (hw : s.getWorker b = some w) :
    s.keepsReady b = true ↔
      w.workerUID ∉ s.instructedUids ∨ s.templateRegistry.toJson = [] := by
  rw [keepsReady, uidOf_eq hw, Bool.or_eq_true, List.isEmpty_iff, Bool.not_eq_true',
    ← Bool.not_eq_true, List.contains_iff_mem, or_comm]

/-- Workers that have just been instructed are not chosen. -/
lemma findIdealWorker_iff {taskPriority : TaskPriority}
    (hreg : Registered s.workerRegistry.workers s.workerRegistry.currentWorkerList)
    (hinst : Instructs s.templateRegistry.toJson s t s.instructedUids) :
    findIdealWorker t.workerRegistry taskPriority = .ok (some worker) ↔
      findIdealWorker s.otherWorkers taskPriority = .ok (some worker) := by
  have hkept : ∀ b ∈ s.workerRegistry.currentWorkerList, s.keepsReady b = true →
      t.getWorker b = s.getWorker b := by
    intro b hb hkeep
    obtain ⟨w, hw⟩ := hreg.alive b hb
    rw [hinst.others b w hw ((keepsReady_iff hw).mp hkeep)]
    exact hw.symm
  have hunready : ∀ b ∈ s.workerRegistry.currentWorkerList, s.keepsReady b = false →
      ∃ w, t.getWorker b = some w ∧ w.workerReady = false := by
    intro b hb hkeep
    obtain ⟨w, hw⟩ := hreg.alive b hb
    have hnot := (keepsReady_iff hw).not.mp (by simp [hkeep])
    obtain ⟨hmem, hne⟩ := not_or.mp hnot
    obtain ⟨w', hw', hid⟩ := exists_of_map_eq (hinst.identity b) hw
    have huid : w'.workerUID = w.workerUID := congrArg Prod.fst hid
    exact ⟨w', hw', hinst.unready b w' hw' (by rw [huid]; exact not_not.mp hmem) hne⟩
  have hchoose : chooseWorker t.workerRegistry.workers taskPriority none
      t.workerRegistry.currentWorkerList = chooseWorker s.workerRegistry.workers taskPriority none
        (s.workerRegistry.currentWorkerList.filter s.keepsReady) := by
    rw [hinst.list]
    exact chooseWorker_filter hkept hunready
  have hothers : ∀ b ∈ s.otherWorkers.currentWorkerList, b ∈ s.workerRegistry.currentWorkerList :=
    fun b hb => List.mem_of_mem_filter hb
  have hfound : findIdealWorker s.otherWorkers taskPriority = .ok (some worker) ↔ _ :=
    findIdealWorker_eq_some (by exact hreg) hothers
  rw [findIdealWorker_eq_some (hinst.registered hreg) (fun _ hb => hb), hfound, hchoose,
    hinst.list]
  refine exists_congr fun c => and_congr_right fun hc => and_congr_right fun _ => ?_
  constructor
  · rintro ⟨hmem, w', hw', huid'⟩
    -- the candidate was found among the workers that are left alone
    rcases chooseWorker_mem hc with hnone | ⟨b, hb, w, hw, -, huid⟩
    · cases hnone
    · obtain ⟨hlisted, hkeep⟩ := List.mem_filter.mp hb
      have hsame := (hkept b hlisted hkeep).trans hw
      have hbw : b = worker :=
        (hinst.registered hreg).distinct b worker w w' hsame hw' (huid.trans huid'.symm)
      subst hbw
      exact ⟨hb, w, hw, huid⟩
  · rintro ⟨hb, w, hw, huid⟩
    obtain ⟨hlisted, hkeep⟩ := List.mem_filter.mp hb
    exact ⟨hlisted, w, (hkept worker hlisted hkeep).trans hw, huid⟩

/-! ### When nothing is dropped -/

/-- What the call pops or tracks is in its worker's queue, and a refusal changes nothing else. -/
structure NothingDropped (s s' : Server) : Prop where
  /-- A table popped from the sink is in a packet of some worker's queue. -/
  popped : ∀ item items, s.senderSink.sinkItemList = item :: items →
    s'.senderSink.sinkItemList = items → ∃ b w p o body, s'.getWorker b = some w ∧
      p ∈ w.senderQueue ∧ s.outPackets.next ≤ p ∧ s'.outPackets.get p = some o ∧
      item.dataObject.toJson = .ok body ∧
      o.packet = PacketConstructor.create .spDataSent w.workerUID body
  /-- A worker that is tracked has a packet for each template. -/
  tracked : ∀ e ∈ s'.workerInstanceList.workerList.drop s.workerInstanceList.workerList.length,
    ∀ b w, s'.getWorker b = some w → w.workerUID = e.workerUid →
      ∀ j ∈ s.templateRegistry.toJson, ∃ p o, p ∈ w.senderQueue ∧ s.outPackets.next ≤ p ∧
        s'.outPackets.get p = some o ∧ o.packet = templatePacket w.workerUID j
  refusal : Refused s s' → s'.senderSink = s.senderSink ∧
    s'.workerInstanceList = s.workerInstanceList ∧
    ∀ i st, s.outgoingDataRegistry.states.get i = some st →
      (s'.outgoingDataRegistry.states.get i).map (·.taskStatus) = some st.taskStatus

/-- Every instructed worker has room for the templates as often as it is instructed, and the
worker user data goes to has room for one more packet. -/
def RoomForAll (s : Server) : Prop :=
  (∀ b ∈ s.workerRegistry.currentWorkerList, ∀ w, s.getWorker b = some w →
    s.instructedUids.count w.workerUID * s.templateRegistry.toJson.length ≤ w.room) ∧
  (s.handsOutData = true → ∀ taskPriority worker w,
    s.senderSink.getTopTaskPriority = .ok taskPriority →
    findIdealWorker s.otherWorkers taskPriority = .ok (some worker) → s.getWorker worker = some w →
      w.senderQueue.length ≤ WORKER_QUEUE_SIZE)

/-- A queue with room for all offers has a packet for each. -/
lemma Offers.queued {offers : List (WorkerRef × OutPacket)} (h : Offers s offers s')
    (hw : s.getWorker b = some w) (hw' : s'.getWorker b = some wb)
    (hroom : (offersTo b offers).length ≤ w.room) {o : OutPacket} (ho : o ∈ offersTo b offers) :
    ∃ p ∈ wb.senderQueue, s.outPackets.next ≤ p ∧ s'.outPackets.get p = some o := by
  obtain ⟨w', ps, hget, -, hq, hps, hnew, -⟩ := h.took hw
  rw [hw'] at hget
  cases hget
  rw [List.take_of_length_le hroom] at hps
  have hmem : some o ∈ ps.map s'.outPackets.get := by
    rw [hps]
    exact List.mem_map_of_mem ho
  obtain ⟨p, hp, hget⟩ := List.mem_map.mp hmem
  exact ⟨p, by rw [hq]; exact List.mem_append_right _ hp, hnew p hp, hget⟩

/-- What a call does after the workers of the first state have been instructed. -/
inductive UserDataRule (s t s' : Server) : Prop where
  | idle (hsame : s' = t) (hnone : s.handsOutData = true → ∀ taskPriority worker,
      s.senderSink.getTopTaskPriority = .ok taskPriority →
      findIdealWorker s.otherWorkers taskPriority ≠ .ok (some worker))
  | offered {taskPriority : TaskPriority} {worker : WorkerRef} {w : Worker} {o : OutPacket}
      {item : SinkItem UserDataTable} {items : List (SinkItem UserDataTable)} {body : PacketBody}
      (hhands : s.handsOutData = true)
      (hpriority : s.senderSink.getTopTaskPriority = .ok taskPriority)
      (hfound : findIdealWorker s.otherWorkers taskPriority = .ok (some worker))
      (hw : s.getWorker worker = some w) (hkeep : s.keepsReady worker = true)
      (hitems : s.senderSink.sinkItemList = item :: items)
      (hbody : item.dataObject.toJson = .ok body)
      (hpacket : o.packet = PacketConstructor.create .spDataSent w.workerUID body)
      (hoffer : Offers t [(worker, o)] s') (hpopped : s'.senderSink.sinkItemList = items)
      (htracked : s'.workerInstanceList = t.workerInstanceList) : UserDataRule s t s'

lemma userDataRule (hs : s.Sound)
    (hinst : Instructs s.templateRegistry.toJson s t s.instructedUids)
    (h : if s.handsOutData then t.pushUserDataToWorkerQueue = .ok s' else t = s') :
    UserDataRule s t s' := by
  have hiff : ∀ taskPriority worker,
      findIdealWorker t.workerRegistry taskPriority = .ok (some worker) ↔
        findIdealWorker s.otherWorkers taskPriority = .ok (some worker) :=
    fun _ _ => findIdealWorker_iff hs.registered hinst
  split_ifs at h with hhands
  · rcases pushUserData_parts h with ⟨rfl, hnone⟩ |
      ⟨π, worker, w, o, item, items, body, hπ, hfound, hw, hitems, hbody, hpacket, hoffer,
        hpopped, htracked⟩
    · refine .idle rfl fun _ π worker hπ hfound => ?_
      exact hnone π worker (by rwa [hinst.sink]) ((hiff π worker).mpr hfound)
    · rw [hinst.sink] at hπ hitems
      have hother := (hiff π worker).mp hfound
      obtain ⟨c, -, -, hmem, v, hv, -⟩ := (findIdealWorker_eq_some (by exact hs.registered)
        (fun b hb => List.mem_of_mem_filter hb)).mp hother
      have hkeep := (List.mem_filter.mp hmem).2
      have hsame := hinst.others worker v hv ((keepsReady_iff hv).mp hkeep)
      rw [hw] at hsame
      cases hsame
      exact .offered hhands hπ hother hv hkeep hitems hbody hpacket hoffer hpopped htracked
  · exact .idle h.symm fun ht => absurd ht hhands

/-- A packet is refused exactly when some queue has no room. -/
lemma startSenderCore_refused_iff {offers : List (WorkerRef × OutPacket)} (hs : s.Sound)
    (hoffers : Offers s offers t) (hrule : UserDataRule s t s')
    (hcount : ∀ b w, s.getWorker b = some w → (offersTo b offers).length =
      s.instructedUids.count w.workerUID * s.templateRegistry.toJson.length) :
    Refused s s' ↔ ¬ s.RoomForAll := by
  cases hrule with
  | idle hsame hnone =>
    subst hsame
    rw [hoffers.refused_iff hs.allocated, iff_not_comm]
    constructor
    · rintro ⟨hroom, -⟩ ⟨b, w, hw, hlt⟩
      rw [hcount b w hw] at hlt
      exact absurd (hroom b (hs.registered.listed b w hw) w hw) hlt.not_ge
    · intro hfits
      refine ⟨fun b _ w hw => ?_, fun hhands π worker w hπ hfound _ => ?_⟩
      · rw [← hcount b w hw]
        exact not_lt.mp fun hlt => hfits ⟨b, w, hw, hlt⟩
      · exact absurd hfound (hnone hhands π worker hπ)
  | @offered π worker w o item items body hhands hpriority hfound hw hkeep hitems hbody hpacket
      hoffer hpopped htracked =>
    -- the worker user data goes to was offered no template
    have hzero : (offersTo worker offers).length = 0 := by
      rw [hcount worker w hw]
      rcases (keepsReady_iff hw).mp hkeep with hnot | hnil
      · rw [List.count_eq_zero_of_not_mem hnot, Nat.zero_mul]
      · rw [hnil, List.length_nil, Nat.mul_zero]
    have hlast : (offersTo worker (offers ++ [(worker, o)])).length = 1 := by
      rw [offersTo_append, List.length_append, hzero, offersTo_cons_self]
      rfl
    have hother : ∀ b, b ≠ worker →
        offersTo b (offers ++ [(worker, o)]) = offersTo b offers := by
      intro b hne
      rw [offersTo_append, offersTo_cons_of_ne (Ne.symm hne), offersTo_nil, List.append_nil]
    rw [(hoffers.append hoffer).refused_iff hs.allocated, iff_not_comm]
    constructor
    · rintro ⟨hroom, hdata⟩ ⟨b, v, hv, hlt⟩
      by_cases heq : b = worker
      · subst heq
        have hle := hdata hhands π b v hpriority hfound hv
        rw [hlast, Worker.room] at hlt
        omega
      · rw [hother b heq, hcount b v hv] at hlt
        exact absurd (hroom b (hs.registered.listed b v hv) v hv) hlt.not_ge
    · intro hfits
      refine ⟨fun b _ v hv => ?_, fun _ π' worker' v hπ' hfound' hv => ?_⟩
      · refine (hcount b v hv).symm.trans_le (le_trans ?_
          (not_lt.mp fun hlt => hfits ⟨b, v, hv, hlt⟩))
        rw [offersTo_append, List.length_append]
        exact Nat.le_add_right _ _
      · rw [hpriority] at hπ'
        cases hπ'
        rw [hfound] at hfound'
        cases hfound'
        have hle := not_lt.mp fun hlt => hfits ⟨worker, v, hv, hlt⟩
        rw [hlast, Worker.room] at hle
        omega

lemma UserDataRule.offers {offers : List (WorkerRef × OutPacket)} (hoffers : Offers s offers t)
    (h : UserDataRule s t s') : ∃ rest, Offers s (offers ++ rest) s' := by
  cases h with
  | idle hsame hnone =>
    subst hsame
    exact ⟨[], by rwa [List.append_nil]⟩
  | offered hhands hpriority hfound hw hkeep hitems hbody hpacket hoffer hpopped htracked =>
    exact ⟨_, hoffers.append hoffer⟩

lemma UserDataRule.tracked (h : UserDataRule s t s') :
    s'.workerInstanceList = t.workerInstanceList := by
  cases h with
  | idle hsame hnone => rw [hsame]
  | offered hhands hpriority hfound hw hkeep hitems hbody hpacket hoffer hpopped htracked =>
    exact htracked

/-- A refusal is not undone: the table has left the sink, or a worker is tracked. -/
lemma UserDataRule.not_undone {json : List TemplateJson} {workerList : List String}
    (hinst : Instructs json s t workerList)
    (h : UserDataRule s t s') (hrefused : Refused s s') :
    s'.senderSink ≠ s.senderSink ∨ s'.workerInstanceList ≠ s.workerInstanceList := by
  cases h with
  | idle hsame hnone =>
    right
    subst hsame
    obtain ⟨p, hle, hlt, -⟩ := hrefused
    obtain ⟨entries, hentries, hnext, -⟩ := hinst.entries
    intro heq
    rw [heq] at hentries
    have hnil : entries = [] := List.self_eq_append_right.mp hentries
    rw [hnil, List.length_nil] at hnext
    omega
  | @offered π worker w o item items body hhands hpriority hfound hw hkeep hitems hbody hpacket
      hoffer hpopped htracked =>
    left
    intro heq
    rw [heq, hitems] at hpopped
    exact List.cons_ne_self item items hpopped

/-- A table that is popped is in the queue of its worker, if that has room. -/
lemma UserDataRule.popped (hinst : Instructs s.templateRegistry.toJson s t s.instructedUids)
    (hnext : s.outPackets.next ≤ t.outPackets.next) (hroom : s.RoomForAll)
    (h : UserDataRule s t s') {item : SinkItem UserDataTable}
    {items : List (SinkItem UserDataTable)} (hs : s.senderSink.sinkItemList = item :: items)
    (hs' : s'.senderSink.sinkItemList = items) :
    ∃ b w p o body, s'.getWorker b = some w ∧ p ∈ w.senderQueue ∧ s.outPackets.next ≤ p ∧
      s'.outPackets.get p = some o ∧ item.dataObject.toJson = .ok body ∧
      o.packet = PacketConstructor.create .spDataSent w.workerUID body := by
  cases h with
  | idle hsame hnone =>
    rw [hsame, hinst.sink, hs] at hs'
    exact absurd hs' (List.cons_ne_self item items)
  | @offered π worker w o item' items' body hhands hpriority hfound hw hkeep hitems hbody
      hpacket hoffer hpopped htracked =>
    rw [hs] at hitems
    cases hitems
    have ht : t.getWorker worker = some w := hinst.others worker w hw ((keepsReady_iff hw).mp hkeep)
    obtain ⟨w', -, hw', hid, -⟩ := hoffer.took ht
    have hfits : (offersTo worker [(worker, o)]).length ≤ w.room := by
      have hle := hroom.2 hhands π worker w hpriority hfound hw
      rw [offersTo_cons_self, offersTo_nil, List.length_singleton, Worker.room]
      omega
    obtain ⟨p, hp, hnew, hget⟩ := hoffer.queued ht hw' hfits
      (by rw [offersTo_cons_self]; exact List.mem_cons_self)
    have huid : w'.workerUID = w.workerUID := congrArg Prod.fst hid
    exact ⟨worker, w', p, o, body, hw', hp, hnext.trans hnew, hget, hbody, by rw [hpacket, huid]⟩

/-- In every reachable state a call of `startSenderCore` drops nothing exactly when every queue has
room for what it is offered. -/
theorem startSenderCore_dropsNothing_iff {addFlag : ℕ → Bool} {starveCounter : ℕ → UInt8}
    {js : List ServerJob} {status : JobStatus}
    (hrun : run work (init addFlag starveCounter) js = .ok s)
    (hpending : s.senderCoreData.pendingPacketsList = [])
    (h : s.startSenderCore = .ok (s', status)) :
    NothingDropped s s' ↔ s.RoomForAll := by
  have hs := sound_of_run hrun
  obtain ⟨t, offers, ⟨hinst, hoffers, hpackets⟩, htail⟩ := startSenderCore_parts hs hpending h
  have hrule := userDataRule hs hinst htail
  have hlisted := hs.registered.listed
  have hcount : ∀ b w, s.getWorker b = some w → (offersTo b offers).length =
      s.instructedUids.count w.workerUID * s.templateRegistry.toJson.length := by
    intro b w hw
    have hlen := congrArg List.length (hpackets b (hlisted b w hw) w hw)
    rwa [List.length_map, List.length_map, List.length_flatten, List.map_replicate,
      List.sum_replicate_nat] at hlen
  have hrefused := startSenderCore_refused_iff hs hoffers hrule hcount
  constructor
  · intro hnothing
    by_contra hroom
    have hlost := hrefused.mpr hroom
    obtain ⟨hsink, htracked, -⟩ := hnothing.refusal hlost
    rcases hrule.not_undone hinst hlost with hne | hne
    · exact hne hsink
    · exact hne htracked
  · intro hroom
    have hnot : ¬ Refused s s' := fun hlost => hrefused.mp hlost hroom
    refine ⟨fun item items hitems hpopped => ?_, ?_, fun hlost => absurd hlost hnot⟩
    · exact hrule.popped hinst (by rw [hoffers.next]; exact Nat.le_add_right _ _) hroom hitems
        hpopped
    · intro e he b w' hw' huid j hj
      obtain ⟨entries, hentries, -, hmem⟩ := hinst.entries
      rw [hrule.tracked, hentries, List.drop_left] at he
      obtain ⟨rest, hall⟩ := hrule.offers hoffers
      obtain ⟨w, -, hw, -, -⟩ := hall.queue_back hw'
      obtain ⟨w'', -, hw'', hid, -⟩ := hall.took hw
      rw [hw'] at hw''
      cases hw''
      have hsame : w'.workerUID = w.workerUID := congrArg Prod.fst hid
      have hpos : 0 < s.instructedUids.count w.workerUID := by
        rw [← hsame, huid]
        exact List.count_pos_iff.mpr (hmem e he)
      -- the template is among those offered to the worker
      have hoffered : templatePacket w.workerUID j ∈ (offersTo b offers).map (·.packet) := by
        rw [hpackets b (hlisted b w hw) w hw]
        exact List.mem_map_of_mem (List.mem_flatten.mpr
          ⟨_, List.mem_replicate.mpr ⟨hpos.ne', rfl⟩, hj⟩)
      obtain ⟨o, ho, hpacket⟩ := List.mem_map.mp hoffered
      have hfits : (offersTo b (offers ++ rest)).length ≤ w.room := not_lt.mp fun hlt =>
        hnot ((hall.refused_iff hs.allocated).mpr ⟨b, w, hw, hlt⟩)
      obtain ⟨p, hp, hnew, hget⟩ := hall.queued hw hw' hfits
        (by rw [offersTo_append]; exact List.mem_append_left _ ho)
      exact ⟨p, o, hp, hnew, hget, by rw [hpacket, hsame]⟩

/-- The only worker is sent the only template, and then a table. -/
theorem startSenderCore_dropsNothing_data : ∃ s r,
    run work (init (fun _ => false) (fun _ => 0))
      [.call (.registerWorker [1]), .call (.updateTemplates [⟨"T", 0, some "rule"⟩]),
       .startSenderCore, .call (.getQueuedPacket "1"), .call (.pushUserTable
         ⟨"D", .highPriority, "T", some "1,2"⟩)] = .ok s ∧
    s.startSenderCore = .ok r ∧ (NothingDropped s r.1 ↔ s.RoomForAll) := by
  have hrun : ∃ s, run work (init (fun _ => false) (fun _ => 0))
      [.call (.registerWorker [1]), .call (.updateTemplates [⟨"T", 0, some "rule"⟩]),
       .startSenderCore, .call (.getQueuedPacket "1"), .call (.pushUserTable
         ⟨"D", .highPriority, "T", some "1,2"⟩)] = .ok s ∧
      (s.senderCoreData.pendingPacketsList = [] ∧ s.startSenderCore.toBool = true) :=
    Outcome.exists_ok_of_eval (by decide)
  obtain ⟨s, hs, hpending, hcall⟩ := hrun
  obtain ⟨r, hr, hiff⟩ := Outcome.exists_ok_and hcall fun r hr =>
    startSenderCore_dropsNothing_iff hs hpending hr
  exact ⟨s, r, hs, hr, hiff⟩

/-- As many templates as one name each. -/
def templatesNamed (names : List String) : List UserDataTemplateStruct :=
  names.map fun name => ⟨name, 0, some "rule"⟩

/-- The queue of the only worker has no room for the last of 22 templates. -/
theorem startSenderCore_drops : ∃ s r,
    run work (init (fun _ => false) (fun _ => 0))
      [.call (.registerWorker [1]), .call (.updateTemplates (templatesNamed
        ((List.range (WORKER_QUEUE_SIZE + 2)).map toString)))] = .ok s ∧
    s.senderCoreData.pendingPacketsList = [] ∧ s.startSenderCore = .ok r ∧
    ¬ NothingDropped s r.1 := by
  have hrun : ∃ s, run work (init (fun _ => false) (fun _ => 0))
      [.call (.registerWorker [1]), .call (.updateTemplates (templatesNamed
        ((List.range (WORKER_QUEUE_SIZE + 2)).map toString)))] = .ok s ∧
      (s.senderCoreData.pendingPacketsList = [] ∧
        s.startSenderCore.toOption.any fun r => decide (
          ∃ e ∈ r.1.workerInstanceList.workerList.drop s.workerInstanceList.workerList.length,
          ∃ w ∈ r.1.getWorker 0, w.workerUID = e.workerUid ∧ ∃ j ∈ s.templateRegistry.toJson,
          ∀ p ∈ w.senderQueue, ∀ o ∈ r.1.outPackets.get p,
            o.packet ≠ templatePacket w.workerUID j)) :=
    Outcome.exists_ok_of_eval (by decide +kernel)
  obtain ⟨s, hs, hpending, hcall⟩ := hrun
  obtain ⟨r, hr, e, he, w, hw, huid, j, hj, hnone⟩ := Outcome.exists_ok_of_eval hcall
  refine ⟨s, r, hs, hpending, hr, fun hnothing => ?_⟩
  obtain ⟨p, o, hp, -, ho, hpacket⟩ := hnothing.tracked e he 0 w hw huid j hj
  exact hnone p hp o ho hpacket

end Server

end ServerUnit
