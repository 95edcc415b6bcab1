import ServerUnit.Server.Steps

/-!
# Identities, readiness and tracking

Of the server only the identities and readiness of the workers, the templates and the tracking
entries decide when a worker becomes ready. Most calls leave all of these alone; a call that
instructs a worker tracks it.
-/

namespace ServerUnit

open Lib

/-- The identity of a worker, and whether it is ready. -/
def Worker.view (w : Worker) : (String × Bool) × Bool := (w.identity, w.workerReady)

namespace Server

/-! ### What most calls leave alone -/

/-- The workers have the same identities and readiness, and the tracking entries and the
templates are the same. -/
structure SameRoster (s s' : Server) : Prop where
  list : s'.workerRegistry.currentWorkerList = s.workerRegistry.currentWorkerList
  view : ∀ b, (s'.getWorker b).map Worker.view = (s.getWorker b).map Worker.view
  tracked : s'.workerInstanceList = s.workerInstanceList
  templates : s'.templateRegistry = s.templateRegistry

variable {s s' t : Server} {worker : WorkerRef} {w w' : Worker}

namespace SameRoster

lemma rfl : SameRoster s s := ⟨.refl _, fun _ => .refl _, .refl _, .refl _⟩

lemma trans (h : SameRoster s t) (h' : SameRoster t s') : SameRoster s s' :=
  ⟨h'.list.trans h.list, fun b => (h'.view b).trans (h.view b), h'.tracked.trans h.tracked,
    h'.templates.trans h.templates⟩

lemma identity (h : SameRoster s s') (b : WorkerRef) :
    (s'.getWorker b).map Worker.identity = (s.getWorker b).map Worker.identity := by
  have hview := congrArg (Option.map Prod.fst) (h.view b)
  rw [Option.map_map, Option.map_map] at hview
  exact hview

lemma registered (h : SameRoster s s')
    (hreg : Registered s.workerRegistry.workers s.workerRegistry.currentWorkerList) :
    Registered s'.workerRegistry.workers s'.workerRegistry.currentWorkerList := by
  rw [h.list]
  exact hreg.congr h.identity

/-- One worker is stored with what it had of identity and readiness. -/
lemma of_put (hw : s.getWorker worker = some w)
    (hworkers : s'.workerRegistry.workers = s.workerRegistry.workers.put worker w')
    (hview : w'.view = w.view)
    (hlist : s'.workerRegistry.currentWorkerList = s.workerRegistry.currentWorkerList)
    (htracked : s'.workerInstanceList = s.workerInstanceList)
    (htemplates : s'.templateRegistry = s.templateRegistry) : SameRoster s s' :=
  ⟨hlist, KeepsWorkers.put hw hworkers hview, htracked, htemplates⟩

lemma queuePacket {packet : OutPacket} {rc : ℕ}
    (h : s.queuePacket worker packet = .ok (s', rc)) : SameRoster s s' := by
  obtain ⟨w, hw, ⟨-, -, rfl⟩ | ⟨-, -, -, rfl⟩⟩ := queuePacket_cases h
  · exact ⟨.refl _, fun _ => .refl _, .refl _, .refl _⟩
  · exact of_put hw (.refl _) (.refl _) (.refl _) (.refl _) (.refl _)

lemma getQueuedPacket {workerUid : String} {packet : Option ServerPacket}
    (h : s.getQueuedPacket workerUid = .ok (s', packet)) : SameRoster s s' := by
  obtain ⟨worker, w, w', timer, -, hw, hg, rfl⟩ := getQueuedPacket_eq_ok.mp h
  obtain ⟨-, hw'⟩ := Worker.getQueuedPacket_move hg
  refine of_put hw (.refl _) ?_ (.refl _) (.refl _) (.refl _)
  rw [hw']
  exact .refl _

lemma matchAckablePacket {id : String} {found : Bool}
    (h : s.matchAckablePacket worker id = .ok (s', found)) : SameRoster s s' := by
  obtain ⟨w, hw, ⟨-, before, after, p, -, -, rfl⟩ | ⟨-, rfl⟩⟩ := matchAckablePacket_cases h
  · exact of_put hw (.refl _) (.refl _) (.refl _) (.refl _) (.refl _)
  · exact .rfl

lemma storeStats {p : ProcessStatusPacket} (h : s.storeStats worker p = .ok s') :
    SameRoster s s' := by
  rcases storeStats_cases h with rfl | ⟨w, _, hw, rfl⟩
  · exact .rfl
  · exact of_put hw (.refl _) (.refl _) (.refl _) (.refl _) (.refl _)

lemma pushUserDataToWorkerQueue (h : s.pushUserDataToWorkerQueue = .ok s') :
    SameRoster s s' := by
  rcases pushUserDataToWorkerQueue_cases h with rfl | ⟨_, worker, -, -, h⟩
  · exact .rfl
  · obtain ⟨sink, t, packet, w, o, s₂, rc, s₃, -, -, hw, -, h₂, h₃, h₄⟩ :=
      dispatchUserData_eq_ok.mp h
    obtain ⟨r₃, b, -, rfl⟩ := assignWorker_eq_ok.mp h₃
    obtain ⟨r₄, db, b₄, -, rfl⟩ := updateTaskStatus_eq_ok.mp h₄
    have hqueue := queuePacket h₂
    exact ⟨hqueue.list, hqueue.view, hqueue.tracked, hqueue.templates⟩

lemma executeLoop {timedPackets : List OutPacketRef} {returned : Bool}
    (hreg : Registered s.workerRegistry.workers s.workerRegistry.currentWorkerList)
    (h : s.executeLoop timedPackets = .ok (s', returned)) : SameRoster s s' := by
  induction timedPackets generalizing s with
  | nil =>
    cases h
    exact .rfl
  | cons p timedPackets ih =>
    cases ExecuteRule.of_executeLoop h with
    | checkOut o ho hstatus hloop =>
      have hrest := ih (by exact hreg) hloop
      exact ⟨hrest.list, hrest.view, hrest.tracked, hrest.templates⟩
    | resend o i st worker w t ho hstatus hdata hst hworker hw hpush hloop =>
      have hput : SameRoster s t := by
        obtain ⟨w', hw', -, rfl⟩ := pushToFront_eq_ok.mp hpush
        exact of_put hw' (.refl _) (.refl _) (.refl _) (.refl _) (.refl _)
      exact hput.trans (ih (hput.registered hreg) hloop)
    | absent worker w hw habsent =>
      rw [hreg.attends worker w hw] at habsent
      cases habsent

lemma execute
    (hreg : Registered s.workerRegistry.workers s.workerRegistry.currentWorkerList)
    (h : s.execute = .ok s') : SameRoster s s' := by
  obtain ⟨lock, lock', t, returned, hloop, rfl⟩ := execute_loop h
  have hrest := executeLoop (by exact hreg) hloop
  exact ⟨hrest.list, hrest.view, hrest.tracked, hrest.templates⟩

end SameRoster

/-! ### Tracking a worker -/

/-- `n` trackings of a worker take its readiness away, if `n` is not `0`. -/
def unready (n : ℕ) (workerUid : String) (v : (String × Bool) × Bool) : (String × Bool) × Bool :=
  (v.1, v.2 && (n == 0 || v.1.1 != workerUid))

lemma unready_unready (n : ℕ) (workerUid : String) (v : (String × Bool) × Bool) :
    unready n workerUid (unready 1 workerUid v) = unready (n + 1) workerUid v := by
  simp only [unready]
  cases v.2 <;> cases hne : v.1.1 != workerUid <;> simp

/-- From `s` to `s'` the worker was tracked `n` times. -/
structure TrackedBy (s s' : Server) (workerUid : String) (n : ℕ) : Prop where
  list : s'.workerRegistry.currentWorkerList = s.workerRegistry.currentWorkerList
  view : ∀ b, (s'.getWorker b).map Worker.view =
    ((s.getWorker b).map Worker.view).map (unready n workerUid)
  tracked : s'.workerInstanceList = { s.workerInstanceList with
    workerList := s.workerInstanceList.workerList ++
      List.replicate n ⟨workerUid, s.workerInstanceList.templateIdList⟩ }
  templates : s'.templateRegistry = s.templateRegistry

namespace TrackedBy

variable {workerUid : String} {n : ℕ}

lemma zero : TrackedBy s s workerUid 0 := by
  refine ⟨rfl, fun b => ?_, by simp, rfl⟩
  cases s.getWorker b <;> simp [unready]

lemma succ (h : TrackedBy s t workerUid 1) (h' : TrackedBy t s' workerUid n) :
    TrackedBy s s' workerUid (n + 1) := by
  refine ⟨h'.list.trans h.list, fun b => ?_, ?_, h'.templates.trans h.templates⟩
  · rw [h'.view, h.view, Option.map_map]
    refine congrArg (fun f => Option.map f _) ?_
    funext v
    exact unready_unready n workerUid v
  · rw [h'.tracked, h.tracked]
    simp [List.replicate_succ]

lemma identity (h : TrackedBy s s' workerUid n) (b : WorkerRef) :
    (s'.getWorker b).map Worker.identity = (s.getWorker b).map Worker.identity := by
  have hview := congrArg (Option.map Prod.fst) (h.view b)
  rw [Option.map_map, Option.map_map, Option.map_map] at hview
  exact hview

lemma registered (h : TrackedBy s s' workerUid n)
    (hreg : Registered s.workerRegistry.workers s.workerRegistry.currentWorkerList) :
    Registered s'.workerRegistry.workers s'.workerRegistry.currentWorkerList := by
  rw [h.list]
  exact hreg.congr h.identity

lemma trans_left (h : SameRoster s t) (h' : TrackedBy t s' workerUid n) :
    TrackedBy s s' workerUid n := by
  refine ⟨h'.list.trans h.list, fun b => ?_, ?_, h'.templates.trans h.templates⟩
  · rw [h'.view, h.view]
  · rw [h'.tracked, h.tracked]

/-- The worker that is tracked is registered, so the call finds it, and no other. -/
lemma trackWorker
    (hreg : Registered s.workerRegistry.workers s.workerRegistry.currentWorkerList)
    (hw : s.getWorker worker = some w) (h : s.trackWorker w.workerUID = .ok s') :
    TrackedBy s s' w.workerUID 1 := by
  obtain ⟨l, registry, hadd, rfl⟩ := trackWorker_eq_ok.mp h
  rcases WorkerInstanceList.addWorker_cases hadd with
    ⟨hnone, -⟩ | ⟨worker', w', hfound, hw', rfl, rfl⟩
  · obtain ⟨w', hw', hne⟩ := WorkerRegistry.of_getWorkerFromUid_none hnone worker
      (hreg.listed worker w hw)
    have heq : w = w' := Option.some.inj (hw.symm.trans hw')
    exact absurd (congrArg Worker.workerUID heq.symm) hne
  · obtain ⟨-, w'', hw'', huid⟩ := WorkerRegistry.of_getWorkerFromUid hfound
    rw [hw'] at hw''
    cases hw''
    refine ⟨rfl, fun b => ?_, rfl, rfl⟩
    dsimp only [getWorker]
    rw [Heap.get_put hw']
    split_ifs with heq
    · rw [heq, hw']
      simp [unready, Worker.view, Worker.identity, huid]
    · cases hb : s.workerRegistry.workers.get b with
      | none => rfl
      | some wb =>
        have hne : wb.workerUID ≠ w.workerUID := fun he =>
          heq (hreg.distinct b worker' wb w' hb hw' (he.trans huid.symm))
        simp [unready, Worker.view, Worker.identity, hne]

lemma pushInstance
    (hreg : Registered s.workerRegistry.workers s.workerRegistry.currentWorkerList)
    (hw : s.getWorker worker = some w) {j : TemplateJson}
    (h : s.pushInstance worker j = .ok s') : TrackedBy s s' w.workerUID 1 := by
  obtain ⟨s₁, w₁, o, s₂, rc, s₃, s₄, h₁, hw₁, -, h₂, h₃, h₄, h₅⟩ := pushInstance_eq_ok.mp h
  obtain ⟨r, -, rfl⟩ := registryAdd_eq_ok.mp h₁
  have heq : w = w₁ := Option.some.inj (hw.symm.trans hw₁)
  subst heq
  have hqueue := SameRoster.queuePacket h₂
  obtain ⟨r₃, b, -, rfl⟩ := assignWorker_eq_ok.mp h₃
  obtain ⟨r₄, db, b₄, -, rfl⟩ := updateTaskStatus_eq_ok.mp h₄
  have hroster : SameRoster s { s₂ with outgoingDataRegistry := r₄, database := db } :=
    ⟨hqueue.list, hqueue.view, hqueue.tracked, hqueue.templates⟩
  obtain ⟨w', hw', hid⟩ : ∃ w', s₂.getWorker worker = some w' ∧ w'.view = w.view :=
    exists_of_map_eq (hqueue.view worker) hw
  have huid : w'.workerUID = w.workerUID := congrArg (fun v => v.1.1) hid
  rw [← huid] at h₅ ⊢
  exact trans_left hroster (trackWorker (hroster.registered hreg) hw' h₅)

lemma pushInstances
    (hreg : Registered s.workerRegistry.workers s.workerRegistry.currentWorkerList)
    (hw : s.getWorker worker = some w) {json : List TemplateJson}
    (h : s.pushInstances worker json = .ok s') : TrackedBy s s' w.workerUID json.length := by
  induction json generalizing s w with
  | nil =>
    cases h
    exact zero
  | cons j json ih =>
    simp only [Server.pushInstances, Outcome.bind_eq_ok] at h
    obtain ⟨t, ht, h⟩ := h
    have hone := pushInstance hreg hw ht
    obtain ⟨w', hw', hid⟩ := exists_of_map_eq (hone.identity worker) hw
    have huid : w'.workerUID = w.workerUID := congrArg Prod.fst hid
    have hrest := ih (hone.registered hreg) hw' h
    rw [huid] at hrest
    exact hone.succ hrest

end TrackedBy

end Server

end ServerUnit
