import ServerUnit.SenderUnit.Offers
import ServerUnit.SenderUnit.TemplateCopies
import ServerUnit.Server.Calls

/-!
# Template updates that come in between

`updateAllWorkerInstances` works from the copy of the templates that `toJson` made, and clears the
update flag when it is done. The monitor can add a template between the two: the flag that says so
is cleared with the rest.
-/

namespace ServerUnit

open Lib

/-- Where the sender core is: outside of `updateAllWorkerInstances`, or inside and before `toJson`,
before the packets are queued, or before `resetFlag`. -/
inductive TemplatePhase where
  | idle
  | entered
  | copied (workerList : List String) (instanceJson : List TemplateJson)
  | queued (workerList : List String)
  deriving DecidableEq

/-- The server, where its sender core is, and the bodies of all packets queued to the worker. -/
structure TemplateThread where
  server : Server
  phase : TemplatePhase
  bodies : List PacketBody

inductive TemplateEvent where
  /-- The monitor's call of `UserDataTemplate::update`. -/
  | update (templateStruct : List UserDataTemplateStruct)
  | getUpdateStatus
  | toJson
  | queuePackets
  | resetFlag
  /-- The worker fetches a packet. -/
  | getQueuedPacket (workerUid : String)

/-- The body of the packet that brings a template. -/
def TemplateJson.body (j : TemplateJson) : PacketBody :=
  .template j.instanceid j.algotype j.data

namespace Server

/-- The queue of every worker takes this many packets. -/
def HasRoom (s : Server) (n : ℕ) : Prop :=
  ∀ b ∈ s.workerRegistry.currentWorkerList, ∀ w ∈ s.getWorker b, n ≤ w.room

instance (s : Server) (n : ℕ) : Decidable (s.HasRoom n) :=
  inferInstanceAs (Decidable (∀ b ∈ _, ∀ w ∈ s.getWorker b, n ≤ w.room))

/-- The bodies of the packets at the end of a worker's queue that were not in it before. -/
def queuedBodies (s s' : Server) (worker : WorkerRef) : List PacketBody :=
  match s.getWorker worker, s'.getWorker worker with
  | some w, some w' =>
    (w'.senderQueue.drop w.senderQueue.length).filterMap fun p =>
      (s'.outPackets.get p).map (·.packet.body)
  | _, _ => []

end Server

namespace TemplateThread

def step (x : TemplateThread) : TemplateEvent → Outcome TemplateThread
  | .update templateStruct => do
    let server ← x.server.updateTemplates templateStruct
    return { x with server }
  | .getUpdateStatus =>
    match x.phase with
    | .idle => return { x with
        phase := if x.server.templateRegistry.getUpdateStatus then .entered else .idle }
    | _ => .error .disabled
  | .toJson =>
    match x.phase with
    | .entered => do
      let workerList ← x.server.addWorkers x.server.senderCoreData.newWorkerList
        x.server.workerRegistry.currentWorkerList
      return { x with phase := .copied workerList x.server.templateRegistry.toJson }
    | _ => .error .disabled
  | .queuePackets =>
    match x.phase with
    | .copied workerList instanceJson =>
      Outcome.guard (x.server.HasRoom instanceJson.length) do
        let (server, workerList) ← Server.pushInstanceLoop instanceJson x.server workerList
        return ⟨server, .queued workerList, x.bodies ++
          x.server.workerRegistry.currentWorkerList.flatMap (x.server.queuedBodies server)⟩
    | _ => .error .disabled
  | .resetFlag =>
    match x.phase with
    | .queued workerList => return { x with
        server := { x.server with
          templateRegistry := x.server.templateRegistry.resetFlag
          senderCoreData := { x.server.senderCoreData with newWorkerList := workerList } }
        phase := .idle }
    | _ => .error .disabled
  | .getQueuedPacket workerUid => do
    let (server, _) ← x.server.getQueuedPacket workerUid
    return { x with server }

/-- Every template has been queued to the worker. -/
def AllQueued (x : TemplateThread) : Prop :=
  ∀ i ∈ x.server.templateRegistry.uDataTemplateList, ∃ j, Renders i j ∧ j.body ∈ x.bodies

/-- Outside of `updateAllWorkerInstances` a clear flag says that every template has been queued. -/
def NoneForgotten (x : TemplateThread) : Prop :=
  x.phase = .idle → x.server.templateRegistry.dataUpdated = false → x.AllQueued

/-- An update that comes between `toJson` and `resetFlag` adds no template. -/
def UpdatesOutside (x : TemplateThread) : TemplateEvent → Prop
  | .update templateStruct =>
    x.phase = .idle ∨ x.phase = .entered ∨ ∀ i ∈ templateStruct,
      i.templateName ∈ templateNames x.server.templateRegistry.uDataTemplateList
  | _ => True

end TemplateThread

namespace Server

variable {s s' : Server} {worker : WorkerRef} {w : Worker}

/-! ### The calls of the sender core -/

/-- Uninterrupted, the steps are `updateAllWorkerInstances`. -/
lemma updateAllWorkerInstances_eq (workerList : List String) :
    s.updateAllWorkerInstances workerList = (do
      let workerList ← s.addWorkers workerList s.workerRegistry.currentWorkerList
      let instanceJson := s.templateRegistry.toJson
      let (t, workerList) ← pushInstanceLoop instanceJson s workerList
      return ({ t with templateRegistry := t.templateRegistry.resetFlag }, workerList)) := rfl

/-- Handing out packets changes neither the templates nor the lists of the sender core. -/
lemma handout_templates : HandoutRule fun s s' : Server =>
    (s'.templateRegistry, s'.senderCoreData) = (s.templateRegistry, s.senderCoreData) :=
  .of_frame (f := fun s => (s.templateRegistry, s.senderCoreData)) fun _ _ _ _ _ _ _ => rfl

/-- The worker is the only one that is registered, and new workers are no others. -/
structure Sole (s : Server) (worker : WorkerRef) (uid : String) : Prop where
  list : s.workerRegistry.currentWorkerList = [worker]
  identity : (s.getWorker worker).map (·.workerUID) = some uid

variable {uid : String}

namespace Sole

lemma distinctUids (h : s.Sole worker uid) : s.DistinctUids := by
  intro a ha b hb wa wb _ _ _
  rw [h.list, List.mem_singleton] at ha hb
  rw [ha, hb]

lemma exists_worker (h : s.Sole worker uid) :
    ∃ w, s.getWorker worker = some w ∧ w.workerUID = uid :=
  Option.map_eq_some_iff.mp h.identity

/-- The worker's UID is in the list of those to instruct. -/
lemma addWorkers (h : s.Sole worker uid) {workerList l : List String}
    (hlist : ∀ u ∈ workerList, u = uid)
    (hl : s.addWorkers workerList s.workerRegistry.currentWorkerList = .ok l) :
    uid ∈ l ∧ ∀ u ∈ l, u = uid := by
  obtain ⟨w, hw, rfl⟩ := h.exists_worker
  simp only [h.list, Server.addWorkers, Outcome.bind_eq_ok, Heap.deref_eq_ok] at hl
  obtain ⟨v, hv, hl⟩ := hl
  cases hw.symm.trans hv
  split_ifs at hl with hpresent
  · obtain ⟨u, hu, hne⟩ := List.any_eq_true.mp hpresent
    rw [hlist u hu, bne_self_eq_false] at hne
    cases hne
  · cases hl
    refine ⟨by simp, fun u hu => ?_⟩
    rcases List.mem_append.mp hu with hu | hu
    · exact hlist u hu
    · exact List.mem_singleton.mp hu

/-- The worker stays through a call that keeps identities. -/
lemma of_identity (h : s.Sole worker uid)
    (hlist : s'.workerRegistry.currentWorkerList = s.workerRegistry.currentWorkerList)
    (hid : (s'.getWorker worker).map Worker.identity = (s.getWorker worker).map Worker.identity) :
    s'.Sole worker uid := by
  refine ⟨hlist.trans h.list, ?_⟩
  obtain ⟨w, hw, huid⟩ := h.exists_worker
  obtain ⟨w', hw', hsame⟩ := exists_of_map_eq hid hw
  have huid' : w'.workerUID = w.workerUID := congrArg Prod.fst hsame
  rw [hw', Option.map_some, huid', huid]

/-- With room for all templates, each of them is queued. -/
lemma queued (h : s.Sole worker uid) {instanceJson : List TemplateJson}
    {workerList rest : List String} (huid : uid ∈ workerList)
    (hroom : s.HasRoom instanceJson.length)
    (hloop : pushInstanceLoop instanceJson s workerList = .ok (s', rest)) :
    s'.Sole worker uid ∧ rest = [] ∧ ∀ j ∈ instanceJson, j.body ∈ s.queuedBodies s' worker := by
  obtain ⟨w, hw, rfl⟩ := h.exists_worker
  obtain ⟨hrest, offers, hoffers, -, hcount⟩ := Offers.pushInstanceLoop h.distinctUids hloop
  have hmem : worker ∈ s.workerRegistry.currentWorkerList := by simp [h.list]
  refine ⟨h.of_identity hoffers.list (hoffers.identity worker), hrest, fun j hj => ?_⟩
  obtain ⟨w', ps, hw', -, hqueue, hps, -, -⟩ := hoffers.took hw
  -- the templates are the first that the worker is offered
  obtain ⟨c, hc⟩ := Nat.exists_eq_succ_of_ne_zero
    (List.count_pos_iff.mpr huid).ne'
  have hoffered := hcount worker hmem w hw
  rw [hc, List.replicate_succ, List.flatten_cons, List.map_append] at hoffered
  have htaken : templatePacket w.workerUID j ∈
      ((offersTo worker offers).take w.room).map (·.packet) := by
    rw [List.map_take, hoffered, List.take_append]
    refine List.mem_append_left _ ?_
    rw [List.take_of_length_le (by simpa using hroom worker hmem w hw)]
    exact List.mem_map_of_mem hj
  obtain ⟨o, ho, hpacket⟩ := List.mem_map.mp htaken
  have hsome : some o ∈ ps.map s'.outPackets.get := by
    rw [hps]
    exact List.mem_map_of_mem ho
  obtain ⟨p, hp, hget⟩ := List.mem_map.mp hsome
  simp only [queuedBodies, hw, hw', hqueue, List.drop_left]
  refine List.mem_filterMap.mpr ⟨p, hp, ?_⟩
  rw [hget, Option.map_some, hpacket]
  rfl

end Sole

end Server

namespace TemplateThread

variable {x x' : TemplateThread} {worker : WorkerRef} {uid : String}
  {templateStruct : List UserDataTemplateStruct}

/-! ### The invariant -/

/-- What holds at each place. -/
def PhaseHolds (x : TemplateThread) (uid : String) : Prop :=
  match x.phase with
  | .idle => x.server.templateRegistry.dataUpdated = false → x.AllQueued
  | .entered => True
  | .copied workerList instanceJson => uid ∈ workerList ∧
      ∀ i ∈ x.server.templateRegistry.uDataTemplateList, ∃ j ∈ instanceJson, Renders i j
  | .queued workerList => workerList = [] ∧ x.AllQueued

structure Inv (x : TemplateThread) (worker : WorkerRef) (uid : String) : Prop where
  sole : x.server.Sole worker uid
  newWorkers : ∀ u ∈ x.server.senderCoreData.newWorkerList, u = uid
  rendered : List.Forall₂ Renders x.server.templateRegistry.uDataTemplateList
    x.server.templateRegistry.uDataTemplateJsonList
  phase : x.PhaseHolds uid

namespace Inv

lemma noneForgotten (h : x.Inv worker uid) : x.NoneForgotten := by
  intro hidle
  have hphase := h.phase
  unfold PhaseHolds at hphase
  rwa [hidle] at hphase

lemma update (h : x.Inv worker uid) (hC : UpdatesOutside x (.update templateStruct))
    (hs : x.step (.update templateStruct) = .ok x') : x'.Inv worker uid := by
  simp only [step, Outcome.bind_eq_ok, Outcome.pure_eq_ok] at hs
  obtain ⟨server, hcall, rfl⟩ := hs
  obtain ⟨registry, tracker, rc, hupdate, rfl⟩ := Server.updateTemplates_eq_ok.mp hcall
  rcases UserDataTemplate.update_cases hupdate with ⟨-, rfl, rfl⟩ | ⟨json, hjson, rfl, rfl⟩
  · exact ⟨⟨h.sole.list, h.sole.identity⟩, h.newWorkers, h.rendered, h.phase⟩
  · refine ⟨⟨h.sole.list, h.sole.identity⟩, h.newWorkers,
      UserDataTemplate.forall₂_of_mapM_render hjson, ?_⟩
    have hphase := h.phase
    unfold PhaseHolds at hphase ⊢
    cases hx : x.phase with
    | idle => exact fun hflag => absurd hflag (by simp)
    | entered => trivial
    | copied workerList instanceJson =>
      have hold : ∀ i ∈ templateStruct,
          i.templateName ∈ templateNames x.server.templateRegistry.uDataTemplateList := by
        simpa [UpdatesOutside, hx] using hC
      simp only [hx] at hphase
      simpa only [UserDataTemplate.addNew_eq_self hold] using hphase
    | queued workerList =>
      have hold : ∀ i ∈ templateStruct,
          i.templateName ∈ templateNames x.server.templateRegistry.uDataTemplateList := by
        simpa [UpdatesOutside, hx] using hC
      simp only [hx] at hphase
      simpa only [AllQueued, UserDataTemplate.addNew_eq_self hold] using hphase

lemma toJson (h : x.Inv worker uid) (hs : x.step .toJson = .ok x') : x'.Inv worker uid := by
  simp only [step] at hs
  split at hs
  · simp only [Outcome.bind_eq_ok, Outcome.pure_eq_ok] at hs
    obtain ⟨workerList, hlist, rfl⟩ := hs
    refine ⟨h.sole, h.newWorkers, h.rendered, (h.sole.addWorkers h.newWorkers hlist).1, ?_⟩
    exact fun i hi => exists_of_forall₂_left h.rendered hi
  · cases hs

lemma queuePackets (h : x.Inv worker uid) (hs : x.step .queuePackets = .ok x') :
    x'.Inv worker uid := by
  simp only [step] at hs
  split at hs
  next workerList instanceJson hx =>
    simp only [Outcome.guard_eq_ok, Outcome.bind_eq_ok, Outcome.pure_eq_ok] at hs
    obtain ⟨hroom, ⟨server, rest⟩, hloop, rfl⟩ := hs
    have hphase := h.phase
    simp only [PhaseHolds, hx] at hphase
    obtain ⟨hsole, hrest, hbodies⟩ := h.sole.queued hphase.1 hroom hloop
    obtain ⟨htemplates, hcore⟩ := Prod.mk.inj (Server.handout_templates.pushInstanceLoop hloop)
    refine ⟨hsole, ?_, ?_, hrest, ?_⟩
    · rw [hcore]
      exact h.newWorkers
    · rw [htemplates]
      exact h.rendered
    · intro i hi
      rw [htemplates] at hi
      obtain ⟨j, hj, hrenders⟩ := hphase.2 i hi
      refine ⟨j, hrenders, List.mem_append_right _ ?_⟩
      rw [h.sole.list, List.flatMap_singleton]
      exact hbodies j hj
  next => cases hs

lemma resetFlag (h : x.Inv worker uid) (hs : x.step .resetFlag = .ok x') : x'.Inv worker uid := by
  simp only [step] at hs
  split at hs
  next workerList hx =>
    cases hs
    have hphase := h.phase
    simp only [PhaseHolds, hx] at hphase
    obtain ⟨rfl, hall⟩ := hphase
    exact ⟨⟨h.sole.list, h.sole.identity⟩, by simp, h.rendered, fun _ => hall⟩
  next => cases hs

lemma getQueuedPacket {workerUid : String} (h : x.Inv worker uid)
    (hs : x.step (.getQueuedPacket workerUid) = .ok x') : x'.Inv worker uid := by
  simp only [step, Outcome.bind_eq_ok, Outcome.pure_eq_ok] at hs
  obtain ⟨⟨server, packet⟩, hget, rfl⟩ := hs
  have hid : (server.getWorker worker).map Worker.identity =
      (x.server.getWorker worker).map Worker.identity :=
    (Server.SameRoster.getQueuedPacket hget).identity worker
  obtain ⟨b, w, w', timer, -, -, -, rfl⟩ := Server.getQueuedPacket_eq_ok.mp hget
  exact ⟨h.sole.of_identity rfl hid, h.newWorkers, h.rendered, h.phase⟩

lemma step {e : TemplateEvent} (h : x.Inv worker uid) (hC : UpdatesOutside x e)
    (hs : x.step e = .ok x') : x'.Inv worker uid := by
  cases e with
  | update templateStruct => exact h.update hC hs
  | getUpdateStatus =>
    simp only [TemplateThread.step] at hs
    split at hs
    next hx =>
      cases hs
      have hphase := h.phase
      simp only [PhaseHolds, hx] at hphase
      refine ⟨h.sole, h.newWorkers, h.rendered, ?_⟩
      unfold PhaseHolds
      split_ifs with hflag
      · trivial
      · exact hphase
    next => cases hs
  | toJson => exact h.toJson hs
  | queuePackets => exact h.queuePackets hs
  | resetFlag => exact h.resetFlag hs
  | getQueuedPacket workerUid => exact h.getQueuedPacket hs

end Inv

/-- One worker is registered, and in a run of the two threads no update adds a template between
`toJson` and `resetFlag`: then no template is forgotten. -/
theorem run_noneForgotten {es : List TemplateEvent} (hsole : x.server.Sole worker uid)
    (hnew : ∀ u ∈ x.server.senderCoreData.newWorkerList, u = uid)
    (hrendered : List.Forall₂ Renders x.server.templateRegistry.uDataTemplateList
      x.server.templateRegistry.uDataTemplateJsonList)
    (hidle : x.phase = .idle) (hstart : x.NoneForgotten)
    (hC : Meets step UpdatesOutside x es) (h : run step x es = .ok x') : x'.NoneForgotten := by
  have hx : x.Inv worker uid := by
    refine ⟨hsole, hnew, hrendered, ?_⟩
    unfold PhaseHolds
    rw [hidle]
    exact hstart hidle
  have hinv : x'.Inv worker uid := run_induct (I := fun y : TemplateThread => y.Inv worker uid)
    (fun _ _ _ hI hC hs => hI.step hC hs) hx hC h
  exact hinv.noneForgotten

/-- The server after a worker has registered. -/
def registered : TemplateThread :=
  { server := { Server.init (fun _ => false) (fun _ => 0) with
      workerRegistry := ⟨⟨[some (.new "1")]⟩, [0], [], true⟩
      senderCoreData := ⟨["1"], []⟩ }
    phase := .idle
    bodies := [] }

instance (e : TemplateEvent) (x : TemplateThread) : Decidable (x.UpdatesOutside e) := by
  cases e <;> unfold UpdatesOutside <;> infer_instance

/-- A second template comes before `toJson`, and the first one again before `resetFlag`. -/
theorem run_noneForgotten_repeated : ∃ x', run step registered
    [.update [⟨"a", 0, some "x"⟩], .getUpdateStatus, .update [⟨"b", 0, some "y"⟩], .toJson,
      .queuePackets, .update [⟨"a", 0, some "z"⟩], .resetFlag, .getQueuedPacket "1"] = .ok x' ∧
    x'.NoneForgotten := by
  have hsole : registered.server.Sole 0 "1" := ⟨rfl, rfl⟩
  have hstart : registered.NoneForgotten := fun _ hflag => by cases hflag
  exact Outcome.exists_ok_and (by decide) fun _ h =>
    run_noneForgotten hsole (by decide) .nil rfl hstart (by decide) h

/-- The second template comes after `toJson`: it is not queued, and the flag is clear. -/
theorem run_not_noneForgotten : ∃ x', run step registered
    [.update [⟨"a", 0, some "x"⟩], .getUpdateStatus, .toJson, .queuePackets,
      .update [⟨"b", 0, some "y"⟩], .resetFlag] = .ok x' ∧ ¬ x'.NoneForgotten := by
  obtain ⟨x', hrun, hidle, hflag, i, hi, hnot⟩ : ∃ x', run step registered
      [.update [⟨"a", 0, some "x"⟩], .getUpdateStatus, .toJson, .queuePackets,
        .update [⟨"b", 0, some "y"⟩], .resetFlag] = .ok x' ∧
      x'.phase = .idle ∧ x'.server.templateRegistry.dataUpdated = false ∧
        ∃ i ∈ x'.server.templateRegistry.uDataTemplateList,
          ∀ body ∈ x'.bodies, body ≠ .template i.templateName i.algoType (i.data.getD "") :=
    Outcome.exists_ok_of_eval (by decide)
  refine ⟨x', hrun, fun hnone => ?_⟩
  obtain ⟨j, hj, hmem⟩ := hnone hidle hflag i hi
  apply hnot _ hmem
  rw [TemplateJson.body, hj.instanceid, hj.algotype, hj.data]
  rfl

end TemplateThread

end ServerUnit
