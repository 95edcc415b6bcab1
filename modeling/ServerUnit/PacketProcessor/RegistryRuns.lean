import ServerUnit.PacketProcessor.OutgoingDataRegistry
import ServerUnit.Lib.FirstByKey
import ServerUnit.Lib.Machine
import Mathlib.Data.List.Induction

/-!
# Runs of calls on the registry of outgoing data

What the registry lists is told by the objects its references lead to. `add` and `delete` are
followed over runs of calls from the empty registry, with any ids and any workers, and any value of
the flag that `add` does not initialise.
-/

namespace ServerUnit

open Lib

namespace OutgoingDataRegistry

variable {r r' : OutgoingDataRegistry} {entries : List OutgoingDataState} {id : String}

/-! ### What is listed -/

/-- Every reference leads to an object, and these are the objects, in order. -/
def Lists (r : OutgoingDataRegistry) (entries : List OutgoingDataState) : Prop :=
  r.outDataRegistryList.map r.states.get = entries.map some

lemma Lists.new : new.Lists [] := rfl

lemma Lists.exists_get (h : r.Lists entries) {i : OutDataRef} (hi : i ∈ r.outDataRegistryList) :
    ∃ st ∈ entries, r.states.get i = some st := by
  have hmem : r.states.get i ∈ entries.map some := h ▸ List.mem_map_of_mem hi
  obtain ⟨st, hst, heq⟩ := List.mem_map.mp hmem
  exact ⟨st, hst, heq.symm⟩

lemma Lists.exists_ref (h : r.Lists entries) {st : OutgoingDataState} (hst : st ∈ entries) :
    ∃ i ∈ r.outDataRegistryList, r.states.get i = some st := by
  have hmem : some st ∈ r.outDataRegistryList.map r.states.get := h ▸ List.mem_map_of_mem hst
  exact List.mem_map.mp hmem

/-- The search returns, and finds the ids that are listed. -/
lemma Lists.find (h : r.Lists entries) (id : String) :
    ∃ found, r.find id = .ok found ∧ found.isSome = decide (id ∈ entries.map (·.id)) := by
  have hlive : ∀ i ∈ r.outDataRegistryList, ∃ t, r.hasName id i = .ok t := by
    intro i hi
    obtain ⟨st, -, hst⟩ := h.exists_get hi
    exact ⟨_, hasName_eq_ok.mpr ⟨st, hst, rfl⟩⟩
  obtain ⟨found, hfound⟩ := splitFirst_isOk hlive
  refine ⟨found, hfound, ?_⟩
  cases found with
  | none =>
    rw [Option.isSome_none, eq_comm, decide_eq_false_iff_not]
    intro hmem
    obtain ⟨st, hst, hid⟩ := List.mem_map.mp hmem
    obtain ⟨i, hi, hget⟩ := h.exists_ref hst
    obtain ⟨st', hst', hne⟩ := find_eq_none hfound i hi
    cases hget.symm.trans hst'
    exact hne hid
  | some found =>
    obtain ⟨before, i, after⟩ := found
    rw [Option.isSome_some, eq_comm, decide_eq_true_eq]
    obtain ⟨hlist, st, hst, hid⟩ := find_eq_some hfound
    have hi : i ∈ r.outDataRegistryList := by simp [hlist]
    obtain ⟨st', hst', hget⟩ := h.exists_get hi
    cases hst.symm.trans hget
    exact List.mem_map.mpr ⟨st, hst', hid⟩

lemma Lists.findMatchInList (h : r.Lists entries) (id : String) :
    r.findMatchInList id = .ok (decide (id ∈ entries.map (·.id))) := by
  obtain ⟨found, hfound, hsome⟩ := h.find id
  rw [OutgoingDataRegistry.findMatchInList, hfound, ← hsome]
  rfl

/-- The object found has the id. -/
lemma Lists.getRegistryFromId (h : r.Lists entries) (id : String) :
    ∃ o, r.getRegistryFromId id = .ok o ∧ o.isSome = decide (id ∈ entries.map (·.id)) ∧
      ∀ i ∈ o, ∃ st ∈ entries, r.states.get i = some st ∧ st.id = id := by
  obtain ⟨found, hfound, hsome⟩ := h.find id
  refine ⟨_, getRegistryFromId_eq_ok.mpr ⟨found, hfound, rfl⟩, ?_, ?_⟩
  · rw [Option.isSome_map, hsome]
  · intro i hi
    obtain ⟨⟨before, j, after⟩, rfl, rfl⟩ := Option.map_eq_some_iff.mp hi
    obtain ⟨hlist, st, hst, hid⟩ := find_eq_some hfound
    obtain ⟨st', hst', hget⟩ := h.exists_get (i := j) (by simp [hlist])
    cases hst.symm.trans hget
    exact ⟨st, hst', hst, hid⟩

/-- A new object is listed last. -/
lemma Lists.alloc (h : r.Lists entries) (st : OutgoingDataState) :
    Lists ⟨r.outDataRegistryList ++ [r.states.next], r.states.alloc st⟩ (entries ++ [st]) := by
  have hold : r.outDataRegistryList.map (r.states.alloc st).get = entries.map some := by
    rw [← h]
    apply List.map_congr_left
    intro i hi
    obtain ⟨st', -, hst'⟩ := h.exists_get hi
    rw [hst', Heap.get_alloc_of_get hst']
  simp [Lists, hold]

/-- `add` returns, and lists an id that was not there when the flag was clear. -/
lemma Lists.add (h : r.Lists entries) (resultStatus : Bool) (id : String)
    (worker : Option WorkerRef) :
    ∃ r', r.add resultStatus id worker = .ok r' ∧
      r'.Lists (if id ∈ entries.map (·.id) ∨ resultStatus = true then entries
        else entries ++ [⟨id, .dataQueued, worker⟩]) := by
  obtain ⟨found, hfound, hsome⟩ := h.find id
  cases found with
  | some found =>
    have hlisted : id ∈ entries.map (·.id) := of_decide_eq_true hsome.symm
    refine ⟨r, by simp [OutgoingDataRegistry.add, hfound, pure, Except.pure], ?_⟩
    rwa [if_pos (.inl hlisted)]
  | none =>
    have hnot : id ∉ entries.map (·.id) := of_decide_eq_false hsome.symm
    cases resultStatus with
    | true =>
      refine ⟨r, by simp [OutgoingDataRegistry.add, hfound, pure, Except.pure], ?_⟩
      rwa [if_pos (.inr rfl)]
    | false =>
      refine ⟨_, by simp [OutgoingDataRegistry.add, hfound, pure, Except.pure]; rfl, ?_⟩
      rw [if_neg (by simpa using hnot)]
      exact h.alloc _

/-! ### Runs of `add` -/

/-- A call of `add`, with the value its flag has before it is first set. -/
structure AddCall where
  resultStatus : Bool
  id : String
  worker : Option WorkerRef

def AddCall.step (r : OutgoingDataRegistry) (c : AddCall) : Outcome OutgoingDataRegistry :=
  r.add c.resultStatus c.id c.worker

/-- The state a table has when it was just added. -/
def AddCall.entry (c : AddCall) : OutgoingDataState := ⟨c.id, .dataQueued, c.worker⟩

/-- The registry has one entry for each id added, from its first addition, and it finds these ids
only. -/
structure Tracks (calls : List AddCall) (r : OutgoingDataRegistry) : Prop where
  entries : r.outDataRegistryList.map r.states.get =
    (firstByKey AddCall.id calls).map fun c => some c.entry
  findMatchInList : ∀ id, r.findMatchInList id = .ok (decide (id ∈ calls.map AddCall.id))
  getRegistryFromId : ∀ id, ∃ o, r.getRegistryFromId id = .ok o ∧
    o.isSome = decide (id ∈ calls.map AddCall.id) ∧
    ∀ i ∈ o, ∃ st, r.states.get i = some st ∧ st.id = id

variable {calls : List AddCall} {c : AddCall}

lemma map_id_entry (calls : List AddCall) :
    (calls.map AddCall.entry).map (·.id) = calls.map AddCall.id := by
  rw [List.map_map]
  rfl

lemma map_some_entry (calls : List AddCall) :
    (calls.map AddCall.entry).map some = calls.map fun c => some c.entry := by
  rw [List.map_map]
  rfl

lemma mem_map_id_entry :
    id ∈ ((firstByKey AddCall.id calls).map AddCall.entry).map (·.id) ↔
      id ∈ calls.map AddCall.id := by
  rw [map_id_entry, mem_map_firstByKey]

lemma Tracks.of_lists (h : r.Lists ((firstByKey AddCall.id calls).map AddCall.entry)) :
    Tracks calls r := by
  refine ⟨?_, fun id => ?_, fun id => ?_⟩
  · rw [← map_some_entry]
    exact h
  · rw [h.findMatchInList, decide_eq_decide.mpr mem_map_id_entry]
  · obtain ⟨o, ho, hsome, hfound⟩ := h.getRegistryFromId id
    refine ⟨o, ho, hsome.trans (decide_eq_decide.mpr mem_map_id_entry), fun i hi => ?_⟩
    obtain ⟨st, -, hst⟩ := hfound i hi
    exact ⟨st, hst⟩

lemma Tracks.lists (h : Tracks calls r) :
    r.Lists ((firstByKey AddCall.id calls).map AddCall.entry) := by
  rw [Lists, map_some_entry]
  exact h.entries

/-- The next call of `add` tracks its id too, unless it is a new one and the flag was set. -/
lemma Tracks.step (h : Tracks calls r) (c : AddCall) :
    ∃ r', c.step r = .ok r' ∧
      (Tracks (calls ++ [c]) r' ↔ (c.id ∉ calls.map AddCall.id → c.resultStatus = false)) := by
  obtain ⟨r', hr', hlists⟩ := h.lists.add c.resultStatus c.id c.worker
  refine ⟨r', hr', ?_⟩
  have hconcat : (firstByKey AddCall.id (calls ++ [c])).map AddCall.entry =
      if c.id ∈ calls.map AddCall.id then (firstByKey AddCall.id calls).map AddCall.entry
      else (firstByKey AddCall.id calls).map AddCall.entry ++ [c.entry] := by
    rw [firstByKey_concat]
    split_ifs <;> simp
  simp only [mem_map_id_entry] at hlists
  constructor
  · intro htracks hnew
    by_contra hflag
    -- nothing was added, but one more entry is tracked
    rw [if_pos (.inr (eq_true_of_ne_false hflag))] at hlists
    have heq := htracks.lists.symm.trans hlists
    rw [hconcat, if_neg hnew] at heq
    simpa using congrArg List.length heq
  · intro hclear
    apply Tracks.of_lists
    rw [hconcat]
    by_cases hold : c.id ∈ calls.map AddCall.id
    · rw [if_pos (.inl hold)] at hlists
      rwa [if_pos hold]
    · rw [if_neg (not_or.mpr ⟨hold, by simp [hclear hold]⟩)] at hlists
      rwa [if_neg hold]

/-- The first call for each id finds its flag clear. -/
def FlagsClear (calls : List AddCall) : Prop :=
  ∀ before c after, calls = before ++ c :: after → c.id ∉ before.map AddCall.id →
    c.resultStatus = false

lemma FlagsClear.of_prefix {called : List AddCall} (h : FlagsClear calls)
    (hpre : called <+: calls) : FlagsClear called := by
  obtain ⟨rest, rfl⟩ := hpre
  rintro before c after rfl
  apply h before c (after ++ rest)
  simp

/-- A run of calls that find their flags clear tracks every table. -/
lemma exists_run_tracks (h : FlagsClear calls) :
    ∃ r, run AddCall.step .new calls = .ok r ∧ Tracks calls r := by
  induction calls using List.reverseRecOn with
  | nil => exact ⟨.new, rfl, .of_lists .new⟩
  | append_singleton calls c ih =>
    obtain ⟨r, hr, htracks⟩ := ih (h.of_prefix (List.prefix_append calls [c]))
    obtain ⟨r', hr', hiff⟩ := htracks.step c
    refine ⟨r', run_append_eq_ok.mpr ⟨r, hr, run_cons_eq_ok.mpr ⟨r', hr', rfl⟩⟩, ?_⟩
    exact hiff.mpr (h calls c [] rfl)

/-- All along a run of `add`s the registry tracks every table exactly when the first call for each
id finds its flag clear. -/
theorem add_tracks_iff (calls : List AddCall) :
    (∀ called, called <+: calls → ∃ r, run AddCall.step .new called = .ok r ∧ Tracks called r) ↔
      FlagsClear calls := by
  constructor
  · rintro h before c after rfl
    obtain ⟨r, hr, htracks⟩ := h before (List.prefix_append before (c :: after))
    obtain ⟨r', hr', hiff⟩ := htracks.step c
    obtain ⟨r'', hr'', htracks'⟩ := h (before ++ [c]) ⟨after, by simp⟩
    have hrun : run AddCall.step .new (before ++ [c]) = .ok r' :=
      run_append_eq_ok.mpr ⟨r, hr, run_cons_eq_ok.mpr ⟨r', hr', rfl⟩⟩
    cases hrun.symm.trans hr''
    exact hiff.mp htracks'
  · intro h called hpre
    exact exists_run_tracks (h.of_prefix hpre)

/-- A flag that happens to be set keeps a new table out. -/
theorem add_misses_table :
    run AddCall.step .new [⟨true, "T1", none⟩] = .ok .new ∧
      ¬ Tracks [⟨true, "T1", none⟩] .new := by
  refine ⟨rfl, fun h => ?_⟩
  have hfound := h.findMatchInList "T1"
  cases hfound

/-! ### Runs of `add` and `delete` -/

inductive RegistryCall where
  | add (c : AddCall)
  | delete (id : String)

def RegistryCall.step (r : OutgoingDataRegistry) : RegistryCall → Outcome OutgoingDataRegistry
  | .add c => c.step r
  | .delete id => do
    let (r, _) ← r.delete id
    return r

/-- No reference is left to an object that is gone. -/
def AllLive (r : OutgoingDataRegistry) : Prop :=
  ∀ i ∈ r.outDataRegistryList, (r.states.get i).isSome = true

/-- The entry with the id is removed and its object destroyed; without one nothing changes. -/
def DeletesOwn (r : OutgoingDataRegistry) (id : String) : Prop :=
  (∃ before i after, r.find id = .ok (some (before, i, after)) ∧
    r.delete id = .ok (⟨before ++ after, r.states.free i⟩, 0)) ∨
  (r.find id = .ok none ∧ r.delete id = .ok (r, -1))

/-- The call returns, it leaves no dangling reference, and a deletion destroys its own entry. -/
def CallOk (r : OutgoingDataRegistry) (call : RegistryCall) : Prop :=
  (∃ r', call.step r = .ok r' ∧ r'.AllLive) ∧
    match call with
    | .add _     => True
    | .delete id => r.DeletesOwn id

/-- A deletion finds nothing to delete. -/
def FindsNone (r : OutgoingDataRegistry) : RegistryCall → Prop
  | .add _     => True
  | .delete id => r.findMatchInList id = .ok false

/-- The registry lists objects of different ids. -/
def Distinct (r : OutgoingDataRegistry) : Prop :=
  ∃ entries, r.Lists entries ∧ (entries.map (·.id)).Nodup

lemma Lists.allLive (h : r.Lists entries) : r.AllLive := by
  intro i hi
  obtain ⟨st, -, hst⟩ := h.exists_get hi
  rw [hst, Option.isSome_some]

lemma Distinct.new : new.Distinct := ⟨[], .new, List.nodup_nil⟩

lemma Distinct.add (h : r.Distinct) (c : AddCall) : ∃ r', c.step r = .ok r' ∧ r'.Distinct := by
  obtain ⟨entries, hlists, hnodup⟩ := h
  obtain ⟨r', hr', hlists'⟩ := hlists.add c.resultStatus c.id c.worker
  refine ⟨r', hr', _, hlists', ?_⟩
  split_ifs with hold
  · exact hnodup
  · rw [not_or] at hold
    rw [List.map_append, List.map_singleton]
    exact List.nodup_append.mpr ⟨hnodup, List.nodup_singleton _, by
      intro a ha b hb
      rw [List.mem_singleton.mp hb]
      rintro rfl
      exact hold.1 ha⟩

/-- Deleting an id that is there destroys the object of the entry before it, which stays in the
list, or else there is no such entry. -/
lemma delete_of_find {before after : List OutDataRef} {i : OutDataRef} {rc : ℤ}
    (hfind : r.find id = .ok (some (before, i, after))) (h : r.delete id = .ok (r', rc)) :
    ∃ previous ∈ before, r' = ⟨before ++ after, r.states.free previous⟩ := by
  simp only [delete, hfind, Outcome.ok_bind, Outcome.bind_eq_ok, Outcome.ofOption_eq_ok,
    Outcome.pure_eq_ok, Prod.mk.injEq] at h
  obtain ⟨previous, hlast, -, -, rfl, -⟩ := h
  exact ⟨previous, List.mem_of_getLast? hlast, rfl⟩

lemma delete_of_find_none (hfind : r.find id = .ok none) : r.delete id = .ok (r, -1) := by
  rw [delete, hfind]
  rfl

lemma findMatchInList_eq_false : r.findMatchInList id = .ok false ↔ r.find id = .ok none := by
  cases hfind : r.find id with
  | error e => simp [findMatchInList, hfind]
  | ok found => cases found <;> simp [findMatchInList, hfind, pure, Except.pure]

/-- A call is as it should be exactly when it has nothing to delete. -/
lemma callOk_iff (h : r.Distinct) (call : RegistryCall) : r.CallOk call ↔ r.FindsNone call := by
  cases call with
  | add c =>
    obtain ⟨r', hr', entries, hlists, -⟩ := h.add c
    exact iff_of_true ⟨⟨r', hr', hlists.allLive⟩, trivial⟩ trivial
  | delete id =>
    obtain ⟨entries, hlists, -⟩ := h
    constructor
    · rintro ⟨⟨r', hr', hlive⟩, -⟩
      apply findMatchInList_eq_false.mpr
      obtain ⟨found, hfind, -⟩ := hlists.find id
      cases found with
      | none => exact hfind
      | some found =>
        obtain ⟨before, i, after⟩ := found
        simp only [RegistryCall.step, Outcome.bind_eq_ok, Outcome.pure_eq_ok] at hr'
        obtain ⟨⟨_, rc⟩, hdelete, rfl⟩ := hr'
        obtain ⟨previous, hmem, rfl⟩ := delete_of_find hfind hdelete
        -- the entry before the deleted one has lost its object
        have hgone := hlive previous (List.mem_append_left after hmem)
        rw [Heap.get_free_self] at hgone
        cases hgone
    · intro hnone
      have hfind := findMatchInList_eq_false.mp hnone
      have hdelete := delete_of_find_none hfind
      refine ⟨⟨r, ?_, hlists.allLive⟩, .inr ⟨hfind, hdelete⟩⟩
      simp [RegistryCall.step, hdelete, pure, Except.pure]

/-- A call with nothing to delete keeps the ids distinct. -/
lemma Distinct.step (h : r.Distinct) {call : RegistryCall} (hnone : r.FindsNone call)
    (hr' : call.step r = .ok r') : r'.Distinct := by
  cases call with
  | add c =>
    obtain ⟨r'', hr'', hdistinct⟩ := h.add c
    cases hr''.symm.trans hr'
    exact hdistinct
  | delete id =>
    have hdelete := delete_of_find_none (findMatchInList_eq_false.mp hnone)
    simp only [RegistryCall.step, hdelete, Outcome.ok_bind, Outcome.pure_eq_ok] at hr'
    rwa [← hr']

/-- All calls of a run are as they should be exactly when every deletion finds nothing to delete. -/
theorem delete_own_iff (calls : List RegistryCall) :
    Meets RegistryCall.step CallOk .new calls ↔ Meets RegistryCall.step FindsNone .new calls := by
  apply Meets.congr (I := Distinct) (R := fun _ _ => True)
  · intro r call h _
    exact callOk_iff h call
  · intro r call r' h hok hr'
    exact h.step ((callOk_iff h call).mp hok) hr'
  · exact .new
  · exact .of_forall fun _ _ => trivial

/-- The second of two tables is deleted: the first one's object is gone, and its own is left. A
single table cannot be deleted at all. -/
theorem delete_destroys_other :
    run RegistryCall.step .new
        [.add ⟨false, "T1", none⟩, .add ⟨false, "T2", none⟩, .delete "T2"] =
      .ok ⟨[0], ⟨[none, some ⟨"T2", .dataQueued, none⟩]⟩⟩ ∧
    run RegistryCall.step .new [.add ⟨false, "T1", none⟩, .delete "T1"] = .error .undefined ∧
    ¬ Meets RegistryCall.step CallOk .new
        [.add ⟨false, "T1", none⟩, .add ⟨false, "T2", none⟩, .delete "T2"] := by
  refine ⟨by decide, by decide, ?_⟩
  rintro ⟨-, h⟩
  obtain ⟨-, h⟩ := h _ rfl
  obtain ⟨⟨⟨r', hr', hlive⟩, -⟩, -⟩ := h _ rfl
  cases hr'
  have hgone := hlive 0 (by decide)
  cases hgone

end OutgoingDataRegistry

end ServerUnit
