import ServerUnit.Server.Roster

/-!
# Readiness means fully instructed

A ledger next to the server records what the most recent `pushInstanceToWorkerQueue` that named
a worker sent to it, and what the worker has acknowledged since. The entries that track a worker
decide when it is ready: the first of them has to list every template that was sent and is not
acknowledged.
-/

namespace ServerUnit

open Lib

/-- The first tracking entry of a worker. -/
def WorkerInstanceList.firstEntry (l : WorkerInstanceList) (workerUid : String) :
    Option WorkerInstanceStruct :=
  l.workerList.find? (fun e => e.workerUid = workerUid)

section FirstEntry

variable {before after : List WorkerInstanceStruct} {e : WorkerInstanceStruct} {uid : String}

lemma find?_of_first (hbefore : ∀ e ∈ before, e.workerUid ≠ uid) (he : e.workerUid = uid) :
    (before ++ e :: after).find? (fun e => e.workerUid = uid) = some e := by
  rw [List.find?_append, List.find?_eq_none.mpr fun e he => by simpa using hbefore e he,
    Option.none_or]
  simp [he]

/-- The entries of other workers do not count. -/
lemma find?_skip (hne : e.workerUid ≠ uid) :
    (before ++ e :: after).find? (fun e => e.workerUid = uid) =
      (before ++ after).find? (fun e => e.workerUid = uid) := by
  simp [List.find?_append, hne]

end FirstEntry

/-! ### The ledger -/

/-- By worker: the templates sent to it last, and those it has acknowledged since. -/
structure Ledger where
  sent : String → List String
  acked : String → List String

namespace Ledger

def empty : Ledger := ⟨fun _ => [], fun _ => []⟩

/-- The worker was sent templates. -/
def instruct (l : Ledger) (workerUid : String) (ids : List String) : Ledger :=
  { sent := fun uid => if uid = workerUid then ids else l.sent uid
    acked := fun uid => if uid = workerUid then [] else l.acked uid }

/-- The worker acknowledged a packet. -/
def ack (l : Ledger) (workerUid id : String) : Ledger :=
  { l with acked := fun uid => if uid = workerUid then id :: l.acked uid else l.acked uid }

lemma mem_acked_ack {l : Ledger} {workerUid id uid i : String} (h : i ∈ l.acked uid) :
    i ∈ (l.ack workerUid id).acked uid := by
  simp only [ack]
  split_ifs
  · exact List.mem_cons_of_mem _ h
  · exact h

end Ledger

namespace Server

/-- The UID is a registered worker's. -/
def isRegistered (s : Server) (workerUid : String) : Bool :=
  match s.workerRegistry.getWorkerFromUid workerUid with
  | .ok (some _) => true
  | _            => false

/-- The names of the templates, as a call of `pushInstanceToWorkerQueue` sends them. -/
def templateIds (s : Server) : List String := s.templateRegistry.toJson.map (·.instanceid)

/-- The acknowledgement matches a pending packet of its worker. -/
def accepts (s : Server) (p : ProcessStatusPacket) : Bool :=
  match s.workerRegistry.getWorkerFromUid p.workerUid with
  | .ok (some worker) =>
    match s.matchAckablePacket worker p.tableId with
    | .ok (_, found) => found
    | .error _       => false
  | _ => false

end Server

/-- What a call adds to the ledger. -/
def Ledger.note (l : Ledger) (s : Server) : ServerEvent → Ledger
  | .pushInstanceToWorkerQueue workerList =>
    workerList.foldl
      (fun l uid => if s.isRegistered uid then l.instruct uid s.templateIds else l) l
  | .acknowledge p => if s.accepts p then l.ack p.workerUid p.tableId else l
  | _ => l

/-- The server with the ledger of its run. -/
structure Audit where
  server : Server
  ledger : Ledger

def Audit.init (addFlag : ℕ → Bool) (starveCounter : ℕ → UInt8) : Audit :=
  ⟨.init addFlag starveCounter, .empty⟩

def Audit.step (a : Audit) (e : ServerEvent) : Outcome Audit := do
  let server ← a.server.step e
  return ⟨server, a.ledger.note a.server e⟩

/-! ### The invariant -/

namespace Server

/-- What holds of the workers, the tracking entries and the ledger. -/
structure Instructed (s : Server) (l : Ledger) : Prop where
  registered : Registered s.workerRegistry.workers s.workerRegistry.currentWorkerList
  names : s.workerInstanceList.templateIdList = s.templateIds
  ready : ∀ b v, (s.getWorker b).map Worker.view = some v → v.2 = true →
    ∀ id ∈ l.sent v.1.1, id ∈ l.acked v.1.1
  entry : ∀ uid e, s.workerInstanceList.firstEntry uid = some e →
    ∀ id ∈ l.sent uid, id ∈ l.acked uid ∨ id ∈ e.templateIdList

/-- The first entry of every worker in the list tracks all templates. -/
def EntriesComplete (s : Server) (workerList : List String) : Prop :=
  ∀ uid ∈ workerList, ∀ e ∈ s.workerInstanceList.firstEntry uid, ∀ id ∈ s.templateIds,
    id ∈ e.templateIdList

variable {s s' : Server} {l : Ledger} {worker : WorkerRef} {w : Worker}

lemma SameRoster.instructed (hroster : SameRoster s s') (h : s.Instructed l) :
    s'.Instructed l := by
  refine ⟨hroster.registered h.registered, ?_, ?_, ?_⟩
  · rw [templateIds, hroster.tracked, hroster.templates]
    exact h.names
  · intro b v hv
    rw [hroster.view] at hv
    exact h.ready b v hv
  · intro uid e he
    rw [hroster.tracked] at he
    exact h.entry uid e he

namespace Instructed

/-- An acknowledgement on the record harms nothing. -/
lemma ack (h : s.Instructed l) (workerUid id : String) : s.Instructed (l.ack workerUid id) :=
  ⟨h.registered, h.names,
    fun b v hv hready i hi => Ledger.mem_acked_ack (h.ready b v hv hready i hi),
    fun uid e he i hi => (h.entry uid e he i hi).imp_left Ledger.mem_acked_ack⟩

/-- One worker is sent all templates. -/
lemma instruct (h : s.Instructed l) {workerUid : String}
    (htracked : TrackedBy s s' workerUid s.templateIds.length)
    (hcomplete : ∀ e ∈ s.workerInstanceList.firstEntry workerUid, ∀ id ∈ s.templateIds,
      id ∈ e.templateIdList) :
    s'.Instructed (l.instruct workerUid s.templateIds) := by
  have hids : s'.templateIds = s.templateIds := by
    rw [templateIds, htracked.templates, templateIds]
  refine ⟨htracked.registered h.registered, ?_, ?_, ?_⟩
  · rw [hids, htracked.tracked]
    exact h.names
  · intro b v' hv' hready id hid
    rw [htracked.view, Option.map_eq_some_iff] at hv'
    obtain ⟨v, hv, rfl⟩ := hv'
    simp only [unready, Bool.and_eq_true, Bool.or_eq_true, beq_iff_eq, bne_iff_ne] at hready
    simp only [unready, Ledger.instruct] at hid ⊢
    by_cases huid : v.1.1 = workerUid
    · -- ready in spite of the tracking: nothing was sent
      rw [if_pos huid] at hid
      rcases hready.2 with hzero | hne
      · rw [List.length_eq_zero_iff.mp hzero] at hid
        cases hid
      · exact absurd huid hne
    · rw [if_neg huid] at hid ⊢
      exact h.ready b v hv hready.1 id hid
  · intro uid e he id hid
    rw [htracked.tracked, WorkerInstanceList.firstEntry, List.find?_append, Option.or_eq_some_iff]
      at he
    by_cases huid : uid = workerUid
    · subst huid
      right
      simp only [Ledger.instruct, if_true] at hid
      rcases he with he | ⟨-, he⟩
      · exact hcomplete e he id hid
      · have hmem := List.eq_of_mem_replicate (List.mem_of_find?_eq_some he)
        rw [hmem, h.names]
        exact hid
    · simp only [Ledger.instruct, if_neg huid] at hid ⊢
      rcases he with he | ⟨-, he⟩
      · exact h.entry uid e he id hid
      · have hmem := List.eq_of_mem_replicate (List.mem_of_find?_eq_some he)
        have htrue := List.find?_some he
        rw [hmem] at htrue
        simp only [decide_eq_true_eq] at htrue
        exact absurd htrue.symm huid

/-- All registered workers of a list are sent all templates. -/
lemma pushInstanceLoop (h : s.Instructed l) {workerList rest : List String}
    (hcomplete : s.EntriesComplete workerList)
    (hs : pushInstanceLoop s.templateRegistry.toJson s workerList = .ok (s', rest)) :
    s'.Instructed (workerList.foldl
      (fun l uid => if s.isRegistered uid then l.instruct uid s.templateIds else l) l) := by
  induction workerList generalizing s l with
  | nil =>
    cases hs
    exact h
  | cons uid workerList ih =>
    have hrest : s.EntriesComplete workerList := fun u hu =>
      hcomplete u (List.mem_cons_of_mem _ hu)
    simp only [Server.pushInstanceLoop, Outcome.bind_eq_ok] at hs
    obtain ⟨found, hfound, hs⟩ := hs
    rw [List.foldl_cons]
    cases found with
    | none =>
      rw [if_neg (by simp [isRegistered, hfound])]
      exact ih h hrest hs
    | some worker =>
      simp only [Outcome.bind_eq_ok] at hs
      obtain ⟨t, ht, hs⟩ := hs
      obtain ⟨-, w, hw, huid⟩ := WorkerRegistry.of_getWorkerFromUid hfound
      have htracked : TrackedBy s t uid s.templateIds.length := by
        rw [← huid, templateIds, List.length_map]
        exact TrackedBy.pushInstances h.registered hw ht
      have hinst := h.instruct htracked (hcomplete uid List.mem_cons_self)
      -- the loop goes on with the same templates and the same registered UIDs
      have hjson : t.templateRegistry = s.templateRegistry := htracked.templates
      have hids : t.templateIds = s.templateIds := by rw [templateIds, hjson, templateIds]
      have hreg : t.isRegistered = s.isRegistered := by
        funext u
        unfold isRegistered
        rw [WorkerRegistry.getWorkerFromUid_congr htracked.list]
        intro b
        have hid := congrArg (Option.map Prod.fst) (htracked.identity b)
        rw [Option.map_map, Option.map_map] at hid
        exact hid
      have hcomplete' : t.EntriesComplete workerList := by
        intro u hu e he id hid
        rw [hids] at hid
        rw [htracked.tracked, WorkerInstanceList.firstEntry, Option.mem_def, List.find?_append,
          Option.or_eq_some_iff] at he
        rcases he with he | ⟨-, he⟩
        · exact hrest u hu e he id hid
        · rw [List.eq_of_mem_replicate (List.mem_of_find?_eq_some he), h.names]
          exact hid
      rw [if_pos (by simp [isRegistered, hfound]), ← hreg, ← hids]
      rw [← hids] at hinst
      exact ih hinst hcomplete' (by rw [hjson]; exact hs)

/-- What was sent and is not acknowledged yet is still in the worker's first entry. -/
lemma acked_or_left (h : s.Instructed l) {workerUid : String} {e : WorkerInstanceStruct}
    (he : s.workerInstanceList.firstEntry workerUid = some e) (id : String) :
    ∀ i ∈ l.sent workerUid, i ∈ (l.ack workerUid id).acked workerUid ∨
      i ∈ e.templateIdList.erase id := by
  intro i hi
  rcases h.entry workerUid e he i hi with hacked | hlisted
  · exact .inl (Ledger.mem_acked_ack hacked)
  · by_cases heq : i = id
    · left
      simp [Ledger.ack, heq]
    · exact .inr ((List.mem_erase_of_ne heq).mpr hlisted)

/-- The tracker hears of an acknowledged template: the worker's first entry loses it, and is gone
with the last one. -/
lemma updateTracking (h : s.Instructed l) {workerUid id : String}
    (hs : s.updateTracking workerUid id = .ok s') : s'.Instructed (l.ack workerUid id) := by
  obtain ⟨instances, registry, hupdate, rfl⟩ := updateTracking_eq_ok.mp hs
  cases WorkerInstanceList.UpdateRule.of_updateWorker hupdate with
  | untracked => exact h.ack workerUid id
  | ready before after e worker w hlist hbefore he hlast hworker hw =>
    have hall : ∀ i ∈ l.sent workerUid, i ∈ (l.ack workerUid id).acked workerUid := by
      intro i hi
      have hfirst : s.workerInstanceList.firstEntry workerUid = some e := by
        rw [WorkerInstanceList.firstEntry, hlist]
        exact find?_of_first hbefore he
      have hi' := h.acked_or_left hfirst id i hi
      rw [hlast] at hi'
      simpa using hi'
    obtain ⟨-, w', hw', huid⟩ := WorkerRegistry.of_getWorkerFromUid hworker
    rw [hw] at hw'
    cases hw'
    refine ⟨h.registered.put hw rfl, h.names, ?_, ?_⟩
    · intro b v hv hready i hi
      dsimp only [getWorker] at hv
      rw [Heap.get_put hw] at hv
      split_ifs at hv with heq
      · rw [Option.map_some, Option.some.injEq] at hv
        subst hv
        rw [show (Worker.view { w with workerReady := true }).1.1 = workerUid from huid] at hi ⊢
        exact hall i hi
      · exact Ledger.mem_acked_ack (h.ready b v hv hready i hi)
    · intro uid e' he' i hi
      by_cases heq : uid = workerUid
      · rw [heq] at hi ⊢
        exact .inl (hall i hi)
      · refine (h.entry uid e' ?_ i hi).imp_left Ledger.mem_acked_ack
        rw [WorkerInstanceList.firstEntry, hlist, find?_skip (by rw [he]; exact Ne.symm heq)]
        exact he'
  | waiting before after e hlist hbefore he hmore =>
    refine ⟨h.registered, h.names, ?_, ?_⟩
    · exact fun b v hv hready i hi => Ledger.mem_acked_ack (h.ready b v hv hready i hi)
    · intro uid e' he' i hi
      have hupd : (e.update id).workerUid = workerUid := he
      simp only [WorkerInstanceList.firstEntry] at he'
      by_cases heq : uid = workerUid
      · rw [heq] at he' hi ⊢
        rw [find?_of_first hbefore hupd, Option.some.injEq] at he'
        subst he'
        apply h.acked_or_left _ id i hi
        rw [WorkerInstanceList.firstEntry, hlist]
        exact find?_of_first hbefore he
      · refine (h.entry uid e' ?_ i hi).imp_left Ledger.mem_acked_ack
        rw [find?_skip (by rw [hupd]; exact Ne.symm heq)] at he'
        rw [WorkerInstanceList.firstEntry, hlist, find?_skip (by rw [he]; exact Ne.symm heq)]
        exact he'

lemma acknowledge (h : s.Instructed l) {p : ProcessStatusPacket}
    (hack : maskQuickSend p.statusCode = P_DATA_ACK) (hs : s.packetStatusParse p = .ok s') :
    s'.Instructed (l.note s (.acknowledge p)) := by
  rcases packetStatusParse_cases hs with ⟨hfound, rfl⟩ | ⟨worker, t, hfound, ht, hstore⟩
  · simpa [Ledger.note, accepts, hfound] using h
  · apply SameRoster.instructed (SameRoster.storeStats hstore)
    rw [hack] at ht
    obtain ⟨w, found, t₁, hw, hm, ht⟩ := switchStatus_ack.mp ht
    obtain ⟨-, w', hw', huid⟩ := WorkerRegistry.of_getWorkerFromUid hfound
    have heq : w = w' := Option.some.inj (hw.symm.trans hw')
    subst heq
    have hmatch : t₁.Instructed l := SameRoster.instructed (SameRoster.matchAckablePacket hm) h
    simp only [Ledger.note, accepts, hfound, hm]
    cases found with
    | false =>
      cases ht
      exact hmatch
    | true =>
      simp only [if_true, noteTemplate, Outcome.bind_eq_ok] at ht
      obtain ⟨isTemplate, -, ht⟩ := ht
      rw [huid] at ht
      cases isTemplate with
      | true => exact hmatch.updateTracking ht
      | false =>
        cases ht
        exact hmatch.ack p.workerUid p.tableId

lemma registerWorker (h : s.Instructed l) {draws : List ℕ}
    (hs : s.registerWorker draws = .ok s') : s'.Instructed l := by
  obtain ⟨registry, uid, hgen, rfl⟩ := registerWorker_eq_ok.mp hs
  obtain ⟨rfl, hfree⟩ := WorkerRegistry.generateWorkerUid_cases hgen
  refine ⟨h.registered.register hfree, h.names, ?_, h.entry⟩
  intro b v hv hready
  dsimp only [getWorker] at hv
  by_cases heq : b = s.workerRegistry.workers.next
  · rw [heq, Heap.get_alloc_self, Option.map_some, Option.some.injEq] at hv
    rw [← hv] at hready
    cases hready
  · rw [Heap.get_alloc_of_ne heq] at hv
    exact h.ready b v hv hready

lemma updateTemplates (h : s.Instructed l) {templateStruct : List UserDataTemplateStruct}
    (hs : s.updateTemplates templateStruct = .ok s') : s'.Instructed l := by
  obtain ⟨t, instances, rc, hupdate, rfl⟩ := updateTemplates_eq_ok.mp hs
  rcases UserDataTemplate.update_cases hupdate with ⟨-, rfl, rfl⟩ | ⟨json, hjson, rfl, rfl⟩
  · exact h
  · refine ⟨h.registered, ?_, h.ready, h.entry⟩
    exact (UserDataTemplate.instanceids_of_mapM_render hjson).symm

/-- What one step preserves. -/
lemma step (h : s.Instructed l) {e : ServerEvent}
    (hcomplete : ∀ workerList, e = .pushInstanceToWorkerQueue workerList →
      s.EntriesComplete workerList)
    (hs : s.step e = .ok s') : s'.Instructed (l.note s e) := by
  cases e with
  | registerWorker draws => exact h.registerWorker hs
  | updateTemplates templateStruct => exact h.updateTemplates hs
  | pushUserTable userDataTable =>
    obtain ⟨_, _, _, _, rfl⟩ := pushUserTable_frame hs
    exact ⟨h.registered, h.names, h.ready, h.entry⟩
  | pushInstanceToWorkerQueue workerList =>
    simp only [Server.step, Outcome.bind_eq_ok, Outcome.pure_eq_ok] at hs
    obtain ⟨⟨t, rest⟩, hpush, rfl⟩ := hs
    exact h.pushInstanceLoop (hcomplete workerList rfl) hpush
  | pushUserDataToWorkerQueue => exact (SameRoster.pushUserDataToWorkerQueue hs).instructed h
  | getQueuedPacket workerUid =>
    simp only [Server.step, Outcome.bind_eq_ok, Outcome.pure_eq_ok] at hs
    obtain ⟨⟨t, out⟩, hget, rfl⟩ := hs
    exact (SameRoster.getQueuedPacket hget).instructed h
  | acknowledge p =>
    simp only [Server.step, Outcome.guard_eq_ok] at hs
    exact h.acknowledge hs.1 hs.2
  | execute => exact (SameRoster.execute h.registered hs).instructed h

end Instructed

end Server

/-! ### Every run -/

namespace Audit

/-- A worker that is ready has acknowledged what it was sent. -/
def ReadyInstructed (a : Audit) : Prop :=
  ∀ worker ∈ a.server.workerRegistry.currentWorkerList, ∀ w ∈ a.server.getWorker worker,
    w.workerReady = true → ∀ id ∈ a.ledger.sent w.workerUID, id ∈ a.ledger.acked w.workerUID

/-- Instructing workers meets complete first entries only. -/
def InstructsComplete (a : Audit) : ServerEvent → Prop
  | .pushInstanceToWorkerQueue workerList => a.server.EntriesComplete workerList
  | _ => True

lemma instructed_init (addFlag : ℕ → Bool) (starveCounter : ℕ → UInt8) :
    (init addFlag starveCounter).server.Instructed (init addFlag starveCounter).ledger := by
  refine ⟨⟨?_, ?_, ?_, ?_⟩, ?_, ?_, ?_⟩ <;>
    simp [init, Server.init, WorkerRegistry.new, WorkerInstanceList.new, Server.templateIds,
      UserDataTemplate.new, UserDataTemplate.toJson, Ledger.empty]

/-- As long as every worker that is instructed has no tracking entry, or a first one that still
lists all templates, a worker that is ready has acknowledged all that it was sent. -/
theorem run_readyInstructed {addFlag : ℕ → Bool} {starveCounter : ℕ → UInt8} {a : Audit}
    {es : List ServerEvent} (hcomplete : Meets step InstructsComplete (init addFlag starveCounter) es)
    (h : run step (init addFlag starveCounter) es = .ok a) : a.ReadyInstructed := by
  have hstep : ∀ (a : Audit) e a', a.server.Instructed a.ledger → a.InstructsComplete e →
      step a e = .ok a' → a'.server.Instructed a'.ledger := by
    intro a e a' hI hC hs
    simp only [step, Outcome.bind_eq_ok, Outcome.pure_eq_ok] at hs
    obtain ⟨server, hserver, rfl⟩ := hs
    refine hI.step ?_ hserver
    rintro workerList rfl
    exact hC
  have hI := run_induct hstep (instructed_init addFlag starveCounter) hcomplete h
  intro worker _ w hw hready
  refine hI.ready worker w.view ?_ hready
  rw [hw]
  rfl

instance (a : Audit) : ∀ e, Decidable (a.InstructsComplete e)
  | .pushInstanceToWorkerQueue workerList =>
    inferInstanceAs (Decidable (∀ uid ∈ workerList,
      ∀ e ∈ a.server.workerInstanceList.firstEntry uid, ∀ id ∈ a.server.templateIds,
        id ∈ e.templateIdList))
  | .registerWorker _ | .updateTemplates _ | .pushUserTable _ | .pushUserDataToWorkerQueue
  | .getQueuedPacket _ | .acknowledge _ | .execute => isTrue trivial

instance (a : Audit) : Decidable a.ReadyInstructed := inferInstanceAs (Decidable (∀ _ ∈ _, _))

/-- An acknowledgement of a table by the worker `1`. -/
def acknowledgement (tableId : String) : ServerEvent :=
  .acknowledge ⟨P_DATA_ACK, tableId, "", "1", false, 0, "", 0⟩

/-- Two templates are pushed twice, the second time to a worker whose first entry lists both. It
acknowledges them and is ready. -/
theorem run_readyInstructed_twice : ∃ a,
    run step (init (fun _ => false) (fun _ => 0))
      [.registerWorker [1],
       .updateTemplates [⟨"T1", 0, some "rule"⟩, ⟨"T2", 0, some "rule"⟩],
       .pushInstanceToWorkerQueue ["1"], .getQueuedPacket "1", .getQueuedPacket "1",
       .pushInstanceToWorkerQueue ["1"], .getQueuedPacket "1", .getQueuedPacket "1",
       acknowledgement "T1", acknowledgement "T2"] = .ok a ∧
    a.ReadyInstructed :=
  Outcome.exists_ok_and (by decide) fun _ ha => run_readyInstructed (by decide) ha

/-- Two templates make two entries of two templates each, and acknowledging both leaves the second
entry behind. After an update to three templates, acknowledging the first two makes the worker
ready. -/
theorem run_not_readyInstructed : ∃ a,
    run step (init (fun _ => false) (fun _ => 0))
      [.registerWorker [1],
       .updateTemplates [⟨"T1", 0, some "rule"⟩, ⟨"T2", 0, some "rule"⟩],
       .pushInstanceToWorkerQueue ["1"], .getQueuedPacket "1", .getQueuedPacket "1",
       acknowledgement "T1", acknowledgement "T2",
       .updateTemplates [⟨"T3", 0, some "rule"⟩],
       .pushInstanceToWorkerQueue ["1"], .getQueuedPacket "1", .getQueuedPacket "1",
       acknowledgement "T1", acknowledgement "T2"] = .ok a ∧
    ¬ a.ReadyInstructed :=
  Outcome.exists_ok_of_eval (by decide)

end Audit

end ServerUnit
