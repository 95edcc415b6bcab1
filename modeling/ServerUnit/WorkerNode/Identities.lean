import ServerUnit.Lib.Machine
import ServerUnit.WorkerNode.Registry
import Mathlib.Data.List.Nodup

/-!
# Worker identities

The registry with the history of its calls: which UID was issued to which worker, and which
workers were removed. A UID that was issued names its worker until that is removed, and nobody
from then on.
-/

namespace ServerUnit

open Lib

namespace WorkerRegistry

/-- The UID of a worker that is there. -/
def uidOf (r : WorkerRegistry) (worker : WorkerRef) : Option String :=
  (r.workers.get worker).map Worker.workerUID

/-- The UIDs of the registered workers. -/
def currentUids (r : WorkerRegistry) : List String := r.currentWorkerList.filterMap r.uidOf

variable {r : WorkerRegistry} {worker : WorkerRef} {uid : String}

lemma uidOf_eq_some : r.uidOf worker = some uid ↔
    ∃ w, r.workers.get worker = some w ∧ w.workerUID = uid := Option.map_eq_some_iff

end WorkerRegistry

inductive RollEvent where
  /-- The numbers are those drawn until the call completes. -/
  | generateWorkerUid (draws : List ℕ)
  | deleteWorker (worker : WorkerRef)

/-- The histories are not in the source: the UIDs issued with their workers, oldest first, and
the workers removed. -/
structure Roll where
  registry : WorkerRegistry
  issued : List (String × WorkerRef)
  deleted : List WorkerRef

namespace Roll

def init : Roll := ⟨.new, [], []⟩

/-- Only registered workers are removed. -/
def step (r : Roll) : RollEvent → Outcome Roll
  | .generateWorkerUid draws => do
    let (registry, workerUid) ← r.registry.generateWorkerUid draws
    return { r with registry, issued := r.issued ++ [(workerUid, r.registry.workers.next)] }
  | .deleteWorker worker =>
    Outcome.guard (worker ∈ r.registry.currentWorkerList) do
      let (registry, _) ← r.registry.deleteWorker worker
      return { r with registry, deleted := worker :: r.deleted }

/-- Identities are not confused. -/
structure Identified (r : Roll) : Prop where
  alive : ∀ worker ∈ r.registry.currentWorkerList, ∃ uid, r.registry.uidOf worker = some uid
  distinct : r.registry.currentUids.Nodup
  dead : ∀ uid ∈ r.registry.currentUids, uid ∉ r.registry.deadWorkerList
  /-- The worker is found under its UID, and no other registered worker has it. -/
  current : ∀ uid worker, (uid, worker) ∈ r.issued → worker ∉ r.deleted →
    r.registry.getWorkerFromUid uid = .ok (some worker) ∧
      worker ∈ r.registry.currentWorkerList ∧ r.registry.uidOf worker = some uid ∧
      ∀ b ∈ r.registry.currentWorkerList, r.registry.uidOf b = some uid → b = worker
  deleted : ∀ uid worker, (uid, worker) ∈ r.issued → worker ∈ r.deleted →
    r.registry.getWorkerFromUid uid = .ok none
  once : (r.issued.map Prod.fst).Nodup

/-! ### The invariant -/

/-- The registered workers and those removed are those that UIDs were issued to. -/
structure Kept (r : Roll) : Prop where
  registered : Registered r.registry.workers r.registry.currentWorkerList
  nodup : r.registry.currentWorkerList.Nodup
  dead : ∀ b w, r.registry.workers.get b = some w → w.workerUID ∉ r.registry.deadWorkerList
  issued : ∀ uid b, (uid, b) ∈ r.issued →
    (b ∈ r.deleted ∧ uid ∈ r.registry.deadWorkerList) ∨
      (b ∉ r.deleted ∧ ∃ w, r.registry.workers.get b = some w ∧ w.workerUID = uid)
  once : (r.issued.map Prod.fst).Nodup
  used : ∀ b ∈ r.deleted, b < r.registry.workers.next

namespace Kept

variable {r r' : Roll} {uid : String} {worker : WorkerRef}

lemma init : Roll.init.Kept := by
  refine ⟨⟨?_, ?_, ?_, ?_⟩, ?_, ?_, ?_, ?_, ?_⟩ <;> simp [Roll.init, WorkerRegistry.new]

/-- A UID that no registered worker has and no removed one had was not issued. -/
lemma notMem_issued (h : r.Kept)
    (hfree : ∀ b ∈ r.registry.currentWorkerList,
      ∃ w, r.registry.workers.get b = some w ∧ w.workerUID ≠ uid)
    (hdead : uid ∉ r.registry.deadWorkerList) : uid ∉ r.issued.map Prod.fst := by
  intro hmem
  obtain ⟨⟨uid, b⟩, hissued, rfl⟩ := List.mem_map.mp hmem
  rcases h.issued uid b hissued with ⟨-, hgone⟩ | ⟨-, w, hw, huid⟩
  · exact hdead hgone
  · obtain ⟨w', hw', hne⟩ := hfree b (h.registered.listed b w hw)
    rw [hw] at hw'
    cases hw'
    exact hne huid

lemma generateWorkerUid (h : r.Kept) {draws : List ℕ}
    (hstep : r.step (.generateWorkerUid draws) = .ok r') : r'.Kept := by
  simp only [step, Outcome.bind_eq_ok, Outcome.pure_eq_ok] at hstep
  obtain ⟨⟨registry, uid⟩, hgenerate, rfl⟩ := hstep
  have hdead := WorkerRegistry.notMem_deadWorkerList_of_generateWorkerUid hgenerate
  obtain ⟨rfl, hfree⟩ := WorkerRegistry.generateWorkerUid_cases hgenerate
  refine ⟨h.registered.register hfree, ?_, ?_, ?_, ?_, ?_⟩
  · refine List.nodup_cons.mpr ⟨?_, h.nodup⟩
    intro hmem
    obtain ⟨w, hw⟩ := h.registered.alive _ hmem
    exact absurd (Heap.lt_next_of_get hw) (lt_irrefl _)
  · intro b w hw
    by_cases hb : b = r.registry.workers.next
    · rw [hb, Heap.get_alloc_self, Option.some.injEq] at hw
      rw [← hw]
      exact hdead
    · rw [Heap.get_alloc_of_ne hb] at hw
      exact h.dead b w hw
  · intro uid' b hissued
    rcases List.mem_append.mp hissued with hissued | hnew
    · rcases h.issued uid' b hissued with hgone | ⟨hkept, w, hw, huid⟩
      · exact .inl hgone
      · exact .inr ⟨hkept, w, Heap.get_alloc_of_get hw, huid⟩
    · rw [List.mem_singleton, Prod.mk.injEq] at hnew
      obtain ⟨rfl, rfl⟩ := hnew
      refine .inr ⟨?_, _, Heap.get_alloc_self _ _, rfl⟩
      intro hgone
      exact absurd (h.used _ hgone) (lt_irrefl _)
  · rw [List.map_append, List.nodup_append]
    refine ⟨h.once, List.nodup_singleton _, ?_⟩
    rintro a ha _ hself rfl
    rw [List.map_singleton, List.mem_singleton] at hself
    rw [hself] at ha
    exact h.notMem_issued hfree hdead ha
  · intro b hb
    rw [Heap.next_alloc]
    exact Nat.lt_succ_of_lt (h.used b hb)

lemma deleteWorker (h : r.Kept) (hstep : r.step (.deleteWorker worker) = .ok r') : r'.Kept := by
  simp only [step, Outcome.guard_eq_ok, Outcome.bind_eq_ok, Outcome.pure_eq_ok] at hstep
  obtain ⟨-, ⟨registry, ps⟩, hdelete, rfl⟩ := hstep
  obtain ⟨w, hw, -, -, rfl⟩ := WorkerRegistry.deleteWorker_eq_ok.mp hdelete
  -- whoever is there now was there before, and is not the worker removed
  have hget : ∀ b v, (r.registry.workers.free worker).get b = some v →
      b ≠ worker ∧ r.registry.workers.get b = some v := by
    intro b v hv
    have hne : b ≠ worker := by
      rintro rfl
      rw [Heap.get_free_self] at hv
      cases hv
    exact ⟨hne, (Heap.get_free_of_ne hne).symm.trans hv⟩
  refine ⟨h.registered.remove worker, h.nodup.filter _, ?_, ?_, h.once, ?_⟩
  · intro b v hv
    obtain ⟨hne, hv⟩ := hget b v hv
    rw [List.mem_cons, not_or]
    refine ⟨?_, h.dead b v hv⟩
    intro heq
    exact hne (h.registered.distinct b worker v w hv hw heq)
  · intro uid b hissued
    by_cases hb : b = worker
    · subst hb
      refine .inl ⟨List.mem_cons_self, ?_⟩
      rcases h.issued uid b hissued with ⟨-, hgone⟩ | ⟨-, v, hv, rfl⟩
      · exact List.mem_cons_of_mem _ hgone
      · rw [hw] at hv
        cases hv
        exact List.mem_cons_self
    · rcases h.issued uid b hissued with ⟨hgone, hdead⟩ | ⟨hkept, v, hv, huid⟩
      · exact .inl ⟨List.mem_cons_of_mem _ hgone, List.mem_cons_of_mem _ hdead⟩
      · refine .inr ⟨?_, v, (Heap.get_free_of_ne hb).trans hv, huid⟩
        rw [List.mem_cons, not_or]
        exact ⟨hb, hkept⟩
  · intro b hb
    rw [Heap.next_free]
    rcases List.mem_cons.mp hb with rfl | hb
    · exact Heap.lt_next_of_get hw
    · exact h.used b hb

lemma step (h : r.Kept) {e : RollEvent} (hstep : r.step e = .ok r') : r'.Kept := by
  cases e with
  | generateWorkerUid draws => exact h.generateWorkerUid hstep
  | deleteWorker worker => exact h.deleteWorker hstep

/-- The search for a UID that no worker has ends with none. -/
lemma getWorkerFromUid_none (h : r.Kept) (hdead : uid ∈ r.registry.deadWorkerList) :
    r.registry.getWorkerFromUid uid = .ok none := by
  have htest : ∀ b ∈ r.registry.currentWorkerList, ∃ t, r.registry.hasUid uid b = .ok t := by
    intro b hb
    obtain ⟨w, hw⟩ := h.registered.alive b hb
    exact ⟨w.workerUID == uid, WorkerRegistry.hasUid_eq_ok.mpr ⟨w, hw, rfl⟩⟩
  obtain ⟨found, hfound⟩ := splitFirst_isOk htest
  have hget : r.registry.getWorkerFromUid uid = .ok (found.map fun found => found.2.1) := by
    rw [WorkerRegistry.getWorkerFromUid, hfound]
    rfl
  cases found with
  | none => exact hget
  | some found =>
    obtain ⟨-, w, hw, rfl⟩ := WorkerRegistry.of_getWorkerFromUid hget
    exact absurd hdead (h.dead _ w hw)

lemma identified (h : r.Kept) : r.Identified where
  alive := by
    intro worker hworker
    obtain ⟨w, hw⟩ := h.registered.alive worker hworker
    exact ⟨w.workerUID, WorkerRegistry.uidOf_eq_some.mpr ⟨w, hw, rfl⟩⟩
  distinct := by
    refine h.nodup.filterMap ?_
    intro a b uid ha hb
    obtain ⟨wa, hwa, heqa⟩ := WorkerRegistry.uidOf_eq_some.mp ha
    obtain ⟨wb, hwb, heqb⟩ := WorkerRegistry.uidOf_eq_some.mp hb
    exact h.registered.distinct a b wa wb hwa hwb (heqa.trans heqb.symm)
  dead := by
    intro uid huid
    obtain ⟨b, -, hb⟩ := List.mem_filterMap.mp huid
    obtain ⟨w, hw, rfl⟩ := WorkerRegistry.uidOf_eq_some.mp hb
    exact h.dead b w hw
  current := by
    intro uid worker hissued hkept
    rcases h.issued uid worker hissued with ⟨hgone, -⟩ | ⟨-, w, hw, rfl⟩
    · exact absurd hgone hkept
    · have hmem := h.registered.listed worker w hw
      refine ⟨h.registered.getWorkerFromUid (fun _ hb => hb) hmem hw, hmem,
        WorkerRegistry.uidOf_eq_some.mpr ⟨w, hw, rfl⟩, ?_⟩
      intro b _ hb
      obtain ⟨v, hv, huid⟩ := WorkerRegistry.uidOf_eq_some.mp hb
      exact h.registered.distinct b worker v w hv hw huid
  deleted := by
    intro uid worker hissued hgone
    rcases h.issued uid worker hissued with ⟨-, hdead⟩ | ⟨hkept, -⟩
    · exact h.getWorkerFromUid_none hdead
    · exact absurd hgone hkept
  once := h.once

end Kept

/-- After every sequence of registrations and removals, whatever was drawn. -/
theorem run_identified {r : Roll} {es : List RollEvent} (h : run step init es = .ok r) :
    r.Identified :=
  (run_invariant (fun _ _ _ hI hstep => Kept.step hI hstep) Kept.init h).identified

/-- The first of two workers is removed. -/
theorem run_identified_removal :
    ∃ r, run step init [.generateWorkerUid [1000], .generateWorkerUid [1001], .deleteWorker 0]
      = .ok r ∧ r.Identified := by
  apply Outcome.exists_ok_and (by decide)
  intro r h
  exact run_identified h

end Roll

end ServerUnit
