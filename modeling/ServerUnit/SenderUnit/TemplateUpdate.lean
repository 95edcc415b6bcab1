import ServerUnit.SenderUnit.Offers
import Mathlib.Data.List.Nodup

/-!
# The update of all workers

After a change of the templates `updateAllWorkerInstances` is to send all of them to every
worker, once. It first adds the registered workers to the list of new ones; its test for those
that are in the list already is the wrong way round, and the list of two or more UIDs is
never added to, nor is the empty list after its first UID.
-/

namespace ServerUnit

open Lib

/-! ### The UIDs that are instructed -/

/-- The loops at the head of `updateAllWorkerInstances`, on UIDs. -/
def addUids (workerList uids : List String) : List String :=
  uids.foldl (fun l uid => if l.any (fun j => j != uid) then l else l ++ [uid]) workerList

section AddUids

variable {workerList uids : List String} {uid : String}

lemma addUids_cons : addUids workerList (uid :: uids) =
    addUids (if workerList.any (fun j => j != uid) then workerList else workerList ++ [uid])
      uids := rfl

/-- A list with two different UIDs stays. -/
lemma addUids_of_ne {u v : String} (hu : u ∈ workerList) (hv : v ∈ workerList) (hne : u ≠ v) :
    addUids workerList uids = workerList := by
  induction uids with
  | nil => rfl
  | cons uid uids ih =>
    rw [addUids_cons, if_pos, ih]
    rw [List.any_eq_true]
    by_cases heq : u = uid
    · exact ⟨v, hv, by simpa [← heq] using hne.symm⟩
    · exact ⟨u, hu, by simpa using heq⟩

/-- One UID, or twice the same, stays when the worker is not registered. -/
lemma addUids_of_notMem {n : ℕ} (h : uid ∉ uids) (hn : n ≠ 0) :
    addUids (List.replicate n uid) uids = List.replicate n uid := by
  induction uids with
  | nil => rfl
  | cons u uids ih =>
    have hne : uid ≠ u := fun he => h (he ▸ List.mem_cons_self)
    rw [addUids_cons, if_pos, ih fun hmem => h (List.mem_cons_of_mem _ hmem)]
    rw [List.any_eq_true]
    exact ⟨uid, List.mem_replicate.mpr ⟨hn, rfl⟩, by simpa using hne⟩

/-- The one UID of the list is added again when its worker is registered. -/
lemma addUids_singleton (hnodup : uids.Nodup) :
    addUids [uid] uids = if uid ∈ uids then [uid, uid] else [uid] := by
  induction uids with
  | nil => rfl
  | cons u uids ih =>
    obtain ⟨hu, hnodup⟩ := List.nodup_cons.mp hnodup
    rw [addUids_cons]
    by_cases heq : uid = u
    · subst heq
      rw [if_neg (by simp), if_pos List.mem_cons_self]
      exact addUids_of_notMem (n := 2) hu (by decide)
    · rw [if_pos (by simpa using heq), ih hnodup]
      simp [heq]

/-- Into the empty list goes the first UID only. -/
lemma addUids_nil (hnodup : (uid :: uids).Nodup) : addUids [] (uid :: uids) = [uid] :=
  addUids_of_notMem (n := 1) (List.nodup_cons.mp hnodup).1 (by decide)

/-- When every UID of `uids` is named once, or more often under a condition of its own, in what
is made of the empty list. -/
lemma addUids_counts_nil (huids : uids.Nodup) (P : String → Prop) :
    (∀ u ∈ uids, (addUids [] uids).count u = 1 ∨
        (2 ≤ (addUids [] uids).count u ∧ P u)) ↔ uids = [] ∨ uids.length = 1 := by
  cases uids with
  | nil => simp
  | cons u us =>
    rw [addUids_nil huids]
    have hu := (List.nodup_cons.mp huids).1
    constructor
    · intro h
      right
      cases us with
      | nil => rfl
      | cons v us =>
        have hne : v ≠ u := fun he => hu (he ▸ List.mem_cons_self)
        have hv := h v (by simp)
        rw [List.count_singleton, if_neg (by simpa using hne.symm)] at hv
        omega
    · rintro (h | h)
      · cases h
      · obtain rfl : us = [] := List.length_eq_zero_iff.mp (Nat.succ.inj h)
        simp

/-- What is made of one UID names nobody else, and names this one twice if it is registered. -/
lemma addUids_counts_singleton {x : String} (huids : uids.Nodup) (P : String → Prop) :
    (∀ u ∈ uids, (addUids [x] uids).count u = 1 ∨
        (2 ≤ (addUids [x] uids).count u ∧ P u)) ↔ uids = [] ∨ uids = [x] ∧ P x := by
  rw [addUids_singleton huids]
  constructor
  · intro h
    cases uids with
    | nil => exact .inl rfl
    | cons u us =>
      -- whoever is named is the one UID of the list
      have hx : ∀ v ∈ u :: us, v = x := by
        intro v hv
        have hcount := h v hv
        by_contra hne
        have hzero : (if x ∈ u :: us then [x, x] else [x]).count v = 0 := by
          apply List.count_eq_zero_of_not_mem
          split_ifs <;> simp [hne]
        omega
      obtain rfl := hx u List.mem_cons_self
      obtain rfl : us = [] := by
        apply List.eq_nil_iff_forall_not_mem.mpr
        intro v hv
        have hv' := hx v (List.mem_cons_of_mem _ hv)
        exact (List.nodup_cons.mp huids).1 (hv' ▸ hv)
      have hcount := h u List.mem_cons_self
      rw [if_pos List.mem_cons_self, List.count_cons_self, List.count_cons_self,
        List.count_nil] at hcount
      exact .inr ⟨rfl, by tauto⟩
  · rintro (rfl | ⟨rfl, hP⟩)
    · simp
    · simp [hP]

/-- A list with two different UIDs names whom it names, once. -/
lemma addUids_counts_pair {x y : String} (hlist : (x :: y :: workerList).Nodup)
    (P : String → Prop) :
    (∀ u ∈ uids, (addUids (x :: y :: workerList) uids).count u = 1 ∨
        (2 ≤ (addUids (x :: y :: workerList) uids).count u ∧ P u)) ↔
      ∀ u ∈ uids, u ∈ x :: y :: workerList := by
  have hne : x ≠ y := fun he => (List.nodup_cons.mp hlist).1 (he ▸ List.mem_cons_self)
  rw [addUids_of_ne List.mem_cons_self (List.mem_cons_of_mem x List.mem_cons_self) hne]
  constructor
  · intro h u hu
    by_contra hnot
    have hcount := h u hu
    rw [List.count_eq_zero_of_not_mem hnot] at hcount
    omega
  · intro h u hu
    exact .inl (List.count_eq_one_of_mem hlist (h u hu))

/-- When every UID of `uids` is named once, or more often under a condition of its own. -/
theorem addUids_counts (huids : uids.Nodup) (hlist : workerList.Nodup) (P : String → Prop) :
    (∀ u ∈ uids, (addUids workerList uids).count u = 1 ∨
        (2 ≤ (addUids workerList uids).count u ∧ P u)) ↔
      uids = [] ∨ (workerList = [] ∧ uids.length = 1) ∨
      (2 ≤ workerList.length ∧ ∀ u ∈ uids, u ∈ workerList) ∨
      ∃ u, uids = [u] ∧ workerList = [u] ∧ P u := by
  match workerList, hlist with
  | [], _ =>
    rw [addUids_counts_nil huids]
    simp
  | [x], _ =>
    rw [addUids_counts_singleton huids]
    simp
  | x :: y :: l, hlist =>
    rw [addUids_counts_pair hlist]
    constructor
    · intro h
      exact .inr (.inr (.inl ⟨by simp, h⟩))
    · rintro (rfl | ⟨h, -⟩ | ⟨-, h⟩ | ⟨u, -, h, -⟩)
      · intro u hu
        cases hu
      · cases h
      · exact h
      · cases h

end AddUids

namespace Server

/-- The UID of a worker; the empty text where there is none. -/
def uidOf (s : Server) (b : WorkerRef) : String := ((s.getWorker b).map (·.workerUID)).getD ""

variable {s s' : Server} {b : WorkerRef} {w : Worker} {workerList rest : List String}

lemma uidOf_eq (hw : s.getWorker b = some w) : s.uidOf b = w.workerUID := by simp [uidOf, hw]

lemma addWorkers_eq {workers : List WorkerRef} {l : List String}
    (h : s.addWorkers workerList workers = .ok l) :
    l = addUids workerList (workers.map s.uidOf) := by
  induction workers generalizing workerList with
  | nil =>
    cases h
    rfl
  | cons b workers ih =>
    simp only [addWorkers, Outcome.bind_eq_ok, Heap.deref_eq_ok] at h
    obtain ⟨w, hw, h⟩ := h
    rw [List.map_cons, addUids_cons, uidOf_eq hw]
    split_ifs at h ⊢
    · exact ih h
    · exact ih h

lemma distinctUids_of_nodup
    (hnodup : (s.workerRegistry.currentWorkerList.map s.uidOf).Nodup) : s.DistinctUids := by
  intro a ha b hb wa wb hwa hwb heq
  apply List.inj_on_of_nodup_map hnodup ha hb
  rw [uidOf_eq hwa, uidOf_eq hwb, heq]

/-! ### What one worker receives -/

/-- The worker's sender queue is extended by one new packet for each template, in their order. -/
def ExtendedBy (s s' : Server) (b : WorkerRef) (json : List TemplateJson) : Prop :=
  ∃ w w' ps, s.getWorker b = some w ∧ s'.getWorker b = some w' ∧
    w'.senderQueue = w.senderQueue ++ ps ∧
    ps.map (fun p => (s'.outPackets.get p).map (·.packet)) =
      json.map (fun j => some (templatePacket w.workerUID j)) ∧
    (∀ p ∈ ps, s.outPackets.next ≤ p) ∧ ps.Nodup

/-- The first copy of a list repeated, cut off where it ends. -/
lemma take_flatten_replicate {α : Type} {l : List α} {c n : ℕ}
    (h : min n (c * l.length) = l.length) : (List.replicate c l).flatten.take n = l := by
  have hlen : ((List.replicate c l).flatten.take n).length = l.length := by
    rw [List.length_take, List.length_flatten, List.map_replicate, List.sum_replicate_nat, h]
  cases c with
  | zero =>
    rw [List.replicate_zero, List.flatten_nil, List.take_nil] at hlen ⊢
    exact (List.length_eq_zero_iff.mp hlen.symm).symm
  | succ c =>
    have hpre : l <+: (List.replicate (c + 1) l).flatten := by
      rw [List.replicate_succ, List.flatten_cons]
      exact List.prefix_append l _
    exact (List.prefix_of_prefix_length_le (List.take_prefix _ _) hpre hlen.le).eq_of_length hlen

/-- A worker with room for all templates receives each once exactly when the number of times it
is instructed and its room make it so. -/
lemma extendedBy_iff {offers : List (WorkerRef × OutPacket)} {json : List TemplateJson} {c : ℕ}
    (hoffers : Offers s offers s') (hw : s.getWorker b = some w)
    (hcount : (offersTo b offers).map (·.packet) =
      (List.replicate c json).flatten.map (templatePacket w.workerUID)) :
    ExtendedBy s s' b json ↔ min w.room (c * json.length) = json.length := by
  obtain ⟨w', ps, hw', -, hq, hps, hnew, hsorted⟩ := hoffers.took hw
  have hcontents : ps.map (fun p => (s'.outPackets.get p).map (·.packet)) =
      ((List.replicate c json).flatten.take w.room).map
        (fun j => some (templatePacket w.workerUID j)) := by
    have hmap := congrArg (List.map (Option.map OutPacket.packet)) hps
    rw [List.map_map, List.map_map] at hmap
    have htake := congrArg (List.take w.room) hcount
    rw [← List.map_take, ← List.map_take] at htake
    apply hmap.trans
    have hsome := congrArg (List.map some) htake
    rw [List.map_map, List.map_map] at hsome
    exact hsome
  have hlen : ps.length = min w.room (c * json.length) := by
    have hl := congrArg List.length hcontents
    rw [List.length_map, List.length_map, List.length_take, List.length_flatten,
      List.map_replicate, List.sum_replicate_nat] at hl
    exact hl
  constructor
  · rintro ⟨v, v', qs, hv, hv', hqs, hjson, -, -⟩
    rw [hw] at hv
    cases hv
    rw [hw'] at hv'
    cases hv'
    rw [hq] at hqs
    rw [← hlen, List.append_cancel_left hqs]
    simpa using congrArg List.length hjson
  · intro h
    refine ⟨w, w', ps, hw, hw', hq, ?_, hnew, hsorted.imp fun hlt => hlt.ne⟩
    rw [hcontents, take_flatten_replicate h]

/-! ### What all workers receive -/

/-- The workers are offered the templates as often as the list with the added UIDs names them. -/
lemma updateAllWorkerInstances_offers (hdistinct : s.DistinctUids)
    (h : s.updateAllWorkerInstances workerList = .ok (s', rest)) :
    rest = [] ∧ ∃ offers, Offers s offers s' ∧
      (∀ x ∈ offers, x.1 ∈ s.workerRegistry.currentWorkerList) ∧
      ∀ b ∈ s.workerRegistry.currentWorkerList, ∀ w, s.getWorker b = some w →
        (offersTo b offers).map (·.packet) =
          (List.replicate ((addUids workerList (s.workerRegistry.currentWorkerList.map
            s.uidOf)).count w.workerUID) s.templateRegistry.toJson).flatten.map
              (templatePacket w.workerUID) := by
  simp only [updateAllWorkerInstances, pushInstanceToWorkerQueue, Outcome.bind_eq_ok,
    Outcome.pure_eq_ok, Prod.mk.injEq] at h
  obtain ⟨l, hl, ⟨t, rest'⟩, hpush, rfl, rfl⟩ := h
  obtain ⟨hrest, offers, hoffers, hlisted, hcount⟩ := Offers.pushInstanceLoop hdistinct hpush
  have hreset : SameQueues t { t with templateRegistry := t.templateRegistry.resetFlag } :=
    ⟨rfl, rfl, fun _ => rfl⟩
  have hall := hoffers.append_same hreset
  rw [← addWorkers_eq hl]
  exact ⟨hrest, offers, hall, hlisted, hcount⟩

/-- All templates fill the queue of the worker with the UID. -/
def FilledByTemplates (s : Server) (workerUid : String) : Prop :=
  ∃ b ∈ s.workerRegistry.currentWorkerList, ∃ w, s.getWorker b = some w ∧
    w.workerUID = workerUid ∧
    w.senderQueue.length + s.templateRegistry.toJson.length = WORKER_QUEUE_SIZE + 1

lemma filledByTemplates_iff (huids : (s.workerRegistry.currentWorkerList.map s.uidOf).Nodup)
    (hb : b ∈ s.workerRegistry.currentWorkerList) (hw : s.getWorker b = some w) :
    s.FilledByTemplates (s.uidOf b) ↔
      w.senderQueue.length + s.templateRegistry.toJson.length = WORKER_QUEUE_SIZE + 1 := by
  constructor
  · rintro ⟨a, ha, wa, hwa, huid, hfull⟩
    rw [uidOf_eq hw] at huid
    have hab := distinctUids_of_nodup huids a ha b hb wa w hwa hw huid
    subst hab
    rw [hw] at hwa
    cases hwa
    exact hfull
  · exact fun hfull => ⟨b, hb, w, hw, (uidOf_eq hw).symm, hfull⟩

/-- When every registered worker receives every template once: there is nothing to send or nobody
to send it to; or the list is empty and there is one worker; or the list has two UIDs or more and
names all workers; or it names the only worker, whose queue the templates fill, so that the
second copies are refused. -/
def TemplatesReachOnce (s : Server) (workerList : List String) : Prop :=
  s.templateRegistry.toJson = [] ∨ s.workerRegistry.currentWorkerList = [] ∨
  (workerList = [] ∧ s.workerRegistry.currentWorkerList.length = 1) ∨
  (2 ≤ workerList.length ∧
    ∀ b ∈ s.workerRegistry.currentWorkerList, s.uidOf b ∈ workerList) ∨
  ∃ uid, s.workerRegistry.currentWorkerList.map s.uidOf = [uid] ∧ workerList = [uid] ∧
    s.FilledByTemplates uid

lemma min_mul_eq_iff {room c k : ℕ} (hroom : k ≤ room) (hk : 0 < k) :
    min room (c * k) = k ↔ c = 1 ∨ (2 ≤ c ∧ room = k) := by
  rcases Nat.lt_or_ge c 2 with hc | hc
  · obtain rfl | rfl : c = 0 ∨ c = 1 := by omega
    · simp only [Nat.zero_mul, Nat.min_zero]
      omega
    · simp [Nat.min_eq_right hroom]
  · have hle : 2 * k ≤ c * k := Nat.mul_le_mul_right k hc
    omega

/-- After `updateAllWorkerInstances` the list is empty and every registered worker's queue has been
extended by one packet for each template, exactly under `TemplatesReachOnce`. -/
theorem updateAllWorkerInstances_iff
    (halive : ∀ b ∈ s.workerRegistry.currentWorkerList, ∃ w, s.getWorker b = some w)
    (huids : (s.workerRegistry.currentWorkerList.map s.uidOf).Nodup) (hlist : workerList.Nodup)
    (hroom : ∀ b ∈ s.workerRegistry.currentWorkerList, ∀ w, s.getWorker b = some w →
      w.senderQueue.length + s.templateRegistry.toJson.length ≤ WORKER_QUEUE_SIZE + 1)
    (h : s.updateAllWorkerInstances workerList = .ok (s', rest)) :
    (rest = [] ∧ ∀ b ∈ s.workerRegistry.currentWorkerList,
      ExtendedBy s s' b s.templateRegistry.toJson) ↔ TemplatesReachOnce s workerList := by
  obtain ⟨hrest, offers, hoffers, -, hcount⟩ :=
    updateAllWorkerInstances_offers (distinctUids_of_nodup huids) h
  rcases Nat.eq_zero_or_pos s.templateRegistry.toJson.length with hzero | hpos
  · -- no templates
    refine iff_of_true ⟨hrest, fun b hb => ?_⟩ (.inl (List.length_eq_zero_iff.mp hzero))
    obtain ⟨w, hw⟩ := halive b hb
    rw [extendedBy_iff hoffers hw (hcount b hb w hw), hzero, Nat.mul_zero, Nat.min_zero]
  · -- a worker receives each once when it is named once, or named again with its queue full
    have hworker : ∀ b ∈ s.workerRegistry.currentWorkerList,
        (ExtendedBy s s' b s.templateRegistry.toJson ↔
          (addUids workerList (s.workerRegistry.currentWorkerList.map s.uidOf)).count
              (s.uidOf b) = 1 ∨
            (2 ≤ (addUids workerList (s.workerRegistry.currentWorkerList.map s.uidOf)).count
              (s.uidOf b) ∧ s.FilledByTemplates (s.uidOf b))) := by
      intro b hb
      obtain ⟨w, hw⟩ := halive b hb
      have hle := hroom b hb w hw
      have hfull : w.room = s.templateRegistry.toJson.length ↔
          s.FilledByTemplates (s.uidOf b) := by
        rw [filledByTemplates_iff huids hb hw, Worker.room]
        omega
      rw [extendedBy_iff hoffers hw (hcount b hb w hw), min_mul_eq_iff ?_ hpos, uidOf_eq hw, hfull,
        uidOf_eq hw]
      rw [Worker.room]
      omega
    have hall : (∀ b ∈ s.workerRegistry.currentWorkerList,
        ExtendedBy s s' b s.templateRegistry.toJson) ↔
        ∀ uid ∈ s.workerRegistry.currentWorkerList.map s.uidOf,
          (addUids workerList (s.workerRegistry.currentWorkerList.map s.uidOf)).count uid = 1 ∨
            (2 ≤ (addUids workerList (s.workerRegistry.currentWorkerList.map s.uidOf)).count uid ∧
              s.FilledByTemplates uid) := by
      rw [List.forall_mem_map]
      exact forall₂_congr hworker
    rw [and_iff_right hrest, hall, addUids_counts huids hlist, TemplatesReachOnce,
      or_iff_right (List.ne_nil_of_length_pos hpos), List.map_eq_nil_iff, List.length_map,
      List.forall_mem_map]

/-! ### Two workers -/

/-- A server with new workers of these UIDs and one template, sent to nobody yet. -/
def withTemplate (uids : List String) : Server :=
  { init (fun _ => false) (fun _ => 0) with
    workerRegistry := ⟨⟨uids.map fun uid => some (.new uid)⟩, List.range uids.length, [], true⟩
    templateRegistry := ⟨[⟨"T", 0, some "rule"⟩], [⟨"T", 0, "rule"⟩], 1, true⟩
    workerInstanceList := ⟨[], ["T"]⟩ }

/-- Both workers are in the list of new ones, and receive the template. -/
theorem updateAllWorkerInstances_listed : ∃ r,
    (withTemplate ["1", "2"]).updateAllWorkerInstances ["1", "2"] = .ok r ∧
    ((r.2 = [] ∧ ∀ b ∈ (withTemplate ["1", "2"]).workerRegistry.currentWorkerList,
        ExtendedBy (withTemplate ["1", "2"]) r.1 b
          (withTemplate ["1", "2"]).templateRegistry.toJson) ↔
      TemplatesReachOnce (withTemplate ["1", "2"]) ["1", "2"]) := by
  have halive : ∀ b ∈ (withTemplate ["1", "2"]).workerRegistry.currentWorkerList,
      ((withTemplate ["1", "2"]).getWorker b).isSome = true := by decide
  have hroom : ∀ b ∈ (withTemplate ["1", "2"]).workerRegistry.currentWorkerList,
      ∀ w ∈ (withTemplate ["1", "2"]).getWorker b, w.senderQueue.length +
        (withTemplate ["1", "2"]).templateRegistry.toJson.length ≤ WORKER_QUEUE_SIZE + 1 := by decide
  exact Outcome.exists_ok_and (by decide) fun r hr => updateAllWorkerInstances_iff
    (fun b hb => Option.isSome_iff_exists.mp (halive b hb)) (by decide) (by decide) hroom hr

/-- Of two workers, neither in the list of new ones, the second receives nothing. -/
theorem updateAllWorkerInstances_skips : ∃ r,
    (withTemplate ["1", "2"]).updateAllWorkerInstances [] = .ok r ∧
    ¬ (r.2 = [] ∧ ∀ b ∈ (withTemplate ["1", "2"]).workerRegistry.currentWorkerList,
        ExtendedBy (withTemplate ["1", "2"]) r.1 b
          (withTemplate ["1", "2"]).templateRegistry.toJson) := by
  have hrun : ∃ r, (withTemplate ["1", "2"]).updateAllWorkerInstances [] = .ok r ∧
      (r.1.getWorker 1).any (fun w => w.senderQueue = []) = true :=
    Outcome.exists_ok_of_eval (by decide)
  obtain ⟨r, hr, hempty⟩ := hrun
  refine ⟨r, hr, ?_⟩
  rintro ⟨-, hall⟩
  obtain ⟨w, w', ps, -, hw', hq, hjson, -⟩ := hall 1 (by decide)
  rw [hw', Option.any_some, decide_eq_true_eq, hq, List.append_eq_nil_iff] at hempty
  rw [hempty.2] at hjson
  cases hjson

end Server

end ServerUnit
