import ServerUnit.PacketProcessor.OutgoingDataRegistry
import Mathlib.Order.Lattice

/-!
# Sequences of status updates

An update either raises the status of its entry, and shows the new text, or is ignored. So a
sequence of updates leaves every entry with the highest status given for it, whatever the order.
-/

namespace ServerUnit

open Lib

namespace OutgoingDataRegistry

/-- Calls of `updateTaskStatus`, one after the other. -/
def updateAll (r : OutgoingDataRegistry) (db : Database) :
    List (String × UserTaskStatus) → Outcome (OutgoingDataRegistry × Database)
  | [] => return (r, db)
  | (dataTableName, status) :: calls => do
    let (r, db, _) ← r.updateTaskStatus db dataTableName status
    r.updateAll db calls

/-- The entries are there, under different ids. -/
structure WellNamed (r : OutgoingDataRegistry) : Prop where
  alive : ∀ i ∈ r.outDataRegistryList, ∃ st, r.states.get i = some st
  distinct : ∀ i ∈ r.outDataRegistryList, ∀ j ∈ r.outDataRegistryList, ∀ st st',
    r.states.get i = some st → r.states.get j = some st' → st.id = st'.id → i = j

/-- No entry has the id. -/
def Unregistered (r : OutgoingDataRegistry) (id : String) : Prop :=
  ∀ i ∈ r.outDataRegistryList, ∀ st, r.states.get i = some st → st.id ≠ id

/-- An update that is not ignored: it is not below the status recorded. -/
def Accepts (r : OutgoingDataRegistry) (id : String) (status : UserTaskStatus) : Prop :=
  ∃ i ∈ r.outDataRegistryList, ∃ st, r.states.get i = some st ∧ st.id = id ∧
    st.taskStatus ≤ status

end OutgoingDataRegistry

/-- The statuses that a sequence of calls gives for an id. -/
def statusesOf (calls : List (String × UserTaskStatus)) (id : String) : List UserTaskStatus :=
  (calls.filter fun call => call.1 = id).map Prod.snd

/-- An entry after a sequence of calls: the highest of its status and those given for it. -/
def OutgoingDataState.raise (calls : List (String × UserTaskStatus)) (st : OutgoingDataState) :
    OutgoingDataState :=
  { st with taskStatus := (statusesOf calls st.id).foldl max st.taskStatus }

section Statuses

variable {calls calls' : List (String × UserTaskStatus)} {id : String} {status : UserTaskStatus}
  {statuses : List UserTaskStatus} {st : OutgoingDataState}

@[simp] lemma statusesOf_nil : statusesOf [] id = [] := rfl

lemma statusesOf_cons_self :
    statusesOf ((id, status) :: calls) id = status :: statusesOf calls id := by
  simp [statusesOf]

lemma statusesOf_cons_of_ne {id' : String} (h : id' ≠ id) :
    statusesOf ((id', status) :: calls) id = statusesOf calls id := by
  simp [statusesOf, h]

lemma mem_statusesOf : status ∈ statusesOf calls id ↔ (id, status) ∈ calls := by
  simp [statusesOf]

lemma statusesOf_perm (h : calls.Perm calls') (id : String) :
    (statusesOf calls id).Perm (statusesOf calls' id) :=
  (h.filter _).map _

/-- Statuses that are not above the first do not raise it. -/
lemma foldl_max_eq (h : ∀ s ∈ statuses, s ≤ status) : statuses.foldl max status = status := by
  induction statuses with
  | nil => rfl
  | cons s statuses ih =>
    rw [List.foldl_cons, max_eq_left (h s List.mem_cons_self)]
    exact ih fun s' hs' => h s' (List.mem_cons_of_mem _ hs')

lemma le_foldl_max : status ≤ statuses.foldl max status := by
  induction statuses generalizing status with
  | nil => exact le_refl status
  | cons s statuses ih => exact (le_max_left status s).trans ih

@[simp] lemma raise_nil : st.raise [] = st := rfl

lemma raise_cons_self :
    st.raise ((st.id, status) :: calls) =
      { st with taskStatus := max st.taskStatus status }.raise calls := by
  unfold OutgoingDataState.raise
  rw [statusesOf_cons_self, List.foldl_cons]

lemma raise_cons_of_ne (h : id ≠ st.id) : st.raise ((id, status) :: calls) = st.raise calls := by
  unfold OutgoingDataState.raise
  rw [statusesOf_cons_of_ne h]

lemma raise_perm (h : calls.Perm calls') : st.raise calls' = st.raise calls := by
  unfold OutgoingDataState.raise
  rw [(statusesOf_perm h st.id).foldl_eq]

end Statuses

namespace OutgoingDataRegistry

variable {r r' : OutgoingDataRegistry} {db db' : Database} {id : String} {status : UserTaskStatus}
  {calls calls' : List (String × UserTaskStatus)} {i : OutDataRef} {st : OutgoingDataState}

/-! ### The registry after the calls -/

/-- The registry and the database after a sequence of calls, as functions of what they were. -/
structure Raised (r : OutgoingDataRegistry) (db : Database)
    (calls : List (String × UserTaskStatus)) (r' : OutgoingDataRegistry) (db' : Database) :
    Prop where
  list : r'.outDataRegistryList = r.outDataRegistryList
  next : r'.states.next = r.states.next
  status : ∀ i ∈ r.outDataRegistryList, ∀ st, r.states.get i = some st →
    r'.states.get i = some (st.raise calls)
  others : ∀ i, i ∉ r.outDataRegistryList → r'.states.get i = r.states.get i
  shown : ∀ i ∈ r.outDataRegistryList, ∀ st, r.states.get i = some st →
    db'.column USERDAT_STATUS_COL_ID st.id =
      if ∃ s ∈ statusesOf calls st.id, st.taskStatus ≤ s then
        some (userStatusEnumToString (st.raise calls).taskStatus)
      else db.column USERDAT_STATUS_COL_ID st.id
  silent : ∀ id, r.Unregistered id →
    db'.column USERDAT_STATUS_COL_ID id = db.column USERDAT_STATUS_COL_ID id

namespace WellNamed

/-- The search for an id ends at the entry that has it, or there is none. -/
lemma find (h : r.WellNamed) (id : String) :
    (r.find id = .ok none ∧ r.Unregistered id) ∨
    ∃ before i after st, r.find id = .ok (some (before, i, after)) ∧
      i ∈ r.outDataRegistryList ∧ r.states.get i = some st ∧ st.id = id := by
  have htest : ∀ i ∈ r.outDataRegistryList, ∃ t, r.hasName id i = .ok t := by
    intro i hi
    obtain ⟨st, hst⟩ := h.alive i hi
    exact ⟨st.id == id, hasName_eq_ok.mpr ⟨st, hst, rfl⟩⟩
  obtain ⟨found, hfound⟩ := splitFirst_isOk htest
  match found with
  | none =>
    refine .inl ⟨hfound, ?_⟩
    intro i hi st hst
    obtain ⟨st', hst', hne⟩ := find_eq_none hfound i hi
    rw [hst] at hst'
    cases hst'
    exact hne
  | some (before, i, after) =>
    obtain ⟨hlist, st, hst, hid⟩ := find_eq_some hfound
    exact .inr ⟨before, i, after, st, hfound, by simp [hlist], hst, hid⟩

/-- A call for an id that is not registered changes nothing. -/
lemma updateTaskStatus_unregistered (h : r.WellNamed) (hid : r.Unregistered id) :
    r.updateTaskStatus db id status = .ok (r, db, false) := by
  rcases h.find id with ⟨hfind, -⟩ | ⟨_, i, _, st, -, hi, hst, heq⟩
  · simp only [OutgoingDataRegistry.updateTaskStatus, hfind, Outcome.ok_bind]
    rfl
  · exact absurd heq (hid i hi st hst)

/-- The other entries have other ids. -/
lemma ne_id (h : r.WellNamed) (hi : i ∈ r.outDataRegistryList) (hst : r.states.get i = some st)
    {j : OutDataRef} {st' : OutgoingDataState} (hj : j ∈ r.outDataRegistryList)
    (hst' : r.states.get j = some st') (hne : j ≠ i) : st.id ≠ st'.id :=
  fun heq => hne (h.distinct j hj i hi st' st hst' hst heq.symm)

/-- A call that finds no entry, or is below the status of the one it finds, raises nothing. -/
lemma raised_ignored
    (hlow : ∀ j ∈ r.outDataRegistryList, ∀ st, r.states.get j = some st → id = st.id →
      status < st.taskStatus) : Raised r db [(id, status)] r db := by
  refine ⟨rfl, rfl, ?_, fun _ _ => rfl, ?_, fun _ _ => rfl⟩
  · intro j hj st hst
    by_cases hid : id = st.id
    · have hlt := hlow j hj st hst hid
      subst hid
      rw [raise_cons_self, raise_nil, max_eq_left hlt.le, hst]
    · rw [raise_cons_of_ne hid, raise_nil, hst]
  · intro j hj st hst
    by_cases hid : id = st.id
    · have hlt := hlow j hj st hst hid
      subst hid
      rw [statusesOf_cons_self, if_neg (by simp [hlt])]
    · rw [statusesOf_cons_of_ne hid, if_neg (by simp)]

/-- A call that is not below the status of its entry replaces it, and shows its text. -/
lemma raised_accepted (h : r.WellNamed) (hi : i ∈ r.outDataRegistryList)
    (hst : r.states.get i = some st) (hle : st.taskStatus ≤ status) :
    Raised r db [(st.id, status)]
      { r with states := r.states.put i { st with taskStatus := status } }
      (updateStatusInDb (userStatusEnumToString status) st.id db) := by
  refine ⟨rfl, Heap.next_put _ _ _, ?_, ?_, ?_, ?_⟩
  · intro j hj st' hst'
    rw [Heap.get_put hst]
    split_ifs with hji
    · rw [hji, hst] at hst'
      cases hst'
      rw [raise_cons_self, raise_nil, max_eq_right hle]
    · rw [raise_cons_of_ne (h.ne_id hi hst hj hst' hji), raise_nil, hst']
  · intro j hj
    apply Heap.get_put_of_ne
    rintro rfl
    exact hj hi
  · intro j hj st' hst'
    rw [updateStatusInDb, Database.column_sqlWriteString]
    by_cases hji : j = i
    · rw [hji, hst] at hst'
      cases hst'
      rw [if_pos ⟨rfl, rfl⟩, statusesOf_cons_self, if_pos ⟨status, by simp, hle⟩, raise_cons_self,
        raise_nil, max_eq_right hle]
    · have hne := h.ne_id hi hst hj hst' hji
      rw [if_neg (by simp [hne]), statusesOf_cons_of_ne hne, if_neg (by simp)]
  · intro id hnone
    rw [updateStatusInDb, Database.column_sqlWriteString, if_neg]
    rintro ⟨-, rfl⟩
    exact hnone i hi st hst rfl

/-- One call raises the status of its entry and shows the text, or changes nothing. -/
lemma updateTaskStatus (h : r.WellNamed) (db : Database) (id : String) (status : UserTaskStatus) :
    ∃ r' db' b, r.updateTaskStatus db id status = .ok (r', db', b) ∧
      Raised r db [(id, status)] r' db' := by
  rcases h.find id with ⟨-, hnone⟩ | ⟨before, i, after, st, hfind, hi, hst, rfl⟩
  · refine ⟨r, db, false, h.updateTaskStatus_unregistered hnone, raised_ignored ?_⟩
    intro j hj st hst hid
    exact absurd hid.symm (hnone j hj st hst)
  · have hempty : (userStatusEnumToString status).isEmpty = false :=
      isEmpty_userStatusEnumToString status
    by_cases hlt : status < st.taskStatus
    · refine ⟨r, db, true, ?_, raised_ignored ?_⟩
      · simp only [OutgoingDataRegistry.updateTaskStatus, hfind, Heap.deref, hst, Outcome.ofOption,
          Outcome.ok_bind, hlt, if_true]
        rfl
      · intro j hj st' hst' hid
        by_cases hji : j = i
        · rw [hji, hst] at hst'
          cases hst'
          exact hlt
        · exact absurd hid (h.ne_id hi hst hj hst' hji)
    · refine ⟨_, _, true, ?_, h.raised_accepted hi hst (not_lt.mp hlt)⟩
      simp only [OutgoingDataRegistry.updateTaskStatus, hfind, Heap.deref, hst, Outcome.ofOption,
        Outcome.ok_bind, hlt, if_false, hempty, Bool.not_false, if_true]
      rfl

end WellNamed

namespace Raised

lemma wellNamed (h : Raised r db calls r' db') (hr : r.WellNamed) : r'.WellNamed := by
  have hback : ∀ i ∈ r'.outDataRegistryList, ∀ st', r'.states.get i = some st' →
      i ∈ r.outDataRegistryList ∧ ∃ st, r.states.get i = some st ∧ st.id = st'.id := by
    intro i hi st' hst'
    rw [h.list] at hi
    obtain ⟨st, hst⟩ := hr.alive i hi
    rw [h.status i hi st hst, Option.some.injEq] at hst'
    exact ⟨hi, st, hst, by rw [← hst']; rfl⟩
  constructor
  · intro i hi
    rw [h.list] at hi
    obtain ⟨st, hst⟩ := hr.alive i hi
    exact ⟨_, h.status i hi st hst⟩
  · intro i hi j hj st st' hst hst' heq
    obtain ⟨hi, sti, hsti, hidi⟩ := hback i hi st hst
    obtain ⟨hj, stj, hstj, hidj⟩ := hback j hj st' hst'
    exact hr.distinct i hi j hj sti stj hsti hstj (by rw [hidi, hidj, heq])

lemma unregistered (h : Raised r db calls r' db') (hr : r.WellNamed) (hid : r.Unregistered id) :
    r'.Unregistered id := by
  intro i hi st' hst'
  rw [h.list] at hi
  obtain ⟨st, hst⟩ := hr.alive i hi
  rw [h.status i hi st hst, Option.some.injEq] at hst'
  rw [← hst']
  exact hid i hi st hst

/-- The first call, then the others. -/
lemma cons {r₁ : OutgoingDataRegistry} {db₁ : Database} (hr : r.WellNamed)
    (h : Raised r db [(id, status)] r₁ db₁) (h' : Raised r₁ db₁ calls r' db') :
    Raised r db ((id, status) :: calls) r' db' := by
  refine ⟨h'.list.trans h.list, h'.next.trans h.next, ?_, ?_, ?_, ?_⟩
  · intro i hi st hst
    rw [h'.status i (h.list ▸ hi) _ (h.status i hi st hst)]
    by_cases hid : id = st.id
    · subst hid
      rw [raise_cons_self, raise_cons_self, raise_nil]
    · rw [raise_cons_of_ne hid, raise_cons_of_ne hid, raise_nil]
  · intro i hi
    rw [h'.others i (h.list ▸ hi), h.others i hi]
  · intro i hi st hst
    have hfirst := h.shown i hi st hst
    have hrest := h'.shown i (h.list ▸ hi) _ (h.status i hi st hst)
    by_cases hid : id = st.id
    · subst hid
      rw [raise_cons_self, raise_nil] at hrest
      rw [statusesOf_cons_self, raise_cons_self, raise_nil] at hfirst
      simp only [statusesOf_nil, List.mem_singleton, exists_eq_left] at hfirst
      rw [statusesOf_cons_self, raise_cons_self, hrest, hfirst]
      simp only [List.mem_cons, exists_eq_or_imp]
      by_cases hle : st.taskStatus ≤ status
      · -- accepted: what follows raises it further, or not
        rw [max_eq_right hle, if_pos hle, if_pos (Or.inl hle)]
        split_ifs with hmore
        · rfl
        · congr 2
          symm
          apply foldl_max_eq
          intro s hs
          by_contra hlt
          exact hmore ⟨s, hs, (not_le.mp hlt).le⟩
      · rw [max_eq_left (not_le.mp hle).le, if_neg hle]
        simp only [hle, false_or]
    · rw [raise_cons_of_ne hid, raise_nil] at hrest
      rw [statusesOf_cons_of_ne hid, if_neg (by simp)] at hfirst
      rw [hrest, hfirst, statusesOf_cons_of_ne hid, raise_cons_of_ne hid]
  · intro id' hnone
    rw [h'.silent id' (h.unregistered hr hnone), h.silent id' hnone]

/-- The result is determined by the calls, whatever their order. -/
lemma unique (hr : r.WellNamed) (hperm : calls.Perm calls') {r'' : OutgoingDataRegistry}
    {db'' : Database} (h : Raised r db calls r' db') (h' : Raised r db calls' r'' db'') :
    r'' = r' ∧ ∀ id, db''.column USERDAT_STATUS_COL_ID id = db'.column USERDAT_STATUS_COL_ID id := by
  constructor
  · have hstates : r''.states = r'.states := by
      apply Heap.ext_get (h'.next.trans h.next.symm)
      intro i
      by_cases hi : i ∈ r.outDataRegistryList
      · obtain ⟨st, hst⟩ := hr.alive i hi
        rw [h.status i hi st hst, h'.status i hi st hst, raise_perm hperm]
      · rw [h.others i hi, h'.others i hi]
    have hlist := h'.list.trans h.list.symm
    cases r'
    cases r''
    simp_all
  · intro id
    rcases hr.find id with ⟨-, hnone⟩ | ⟨-, i, -, st, -, hi, hst, rfl⟩
    · rw [h.silent id hnone, h'.silent id hnone]
    · rw [h.shown i hi st hst, h'.shown i hi st hst, raise_perm hperm]
      simp only [(statusesOf_perm hperm st.id).mem_iff]

end Raised

/-- What a sequence of calls leads to. -/
lemma updateAll_raised (h : r.WellNamed) (db : Database) (calls : List (String × UserTaskStatus)) :
    ∃ r' db', r.updateAll db calls = .ok (r', db') ∧ Raised r db calls r' db' := by
  induction calls generalizing r db with
  | nil =>
    exact ⟨r, db, rfl, rfl, rfl, fun _ _ _ hst => hst, fun _ _ => rfl, by simp, fun _ _ => rfl⟩
  | cons call calls ih =>
    obtain ⟨id, status⟩ := call
    obtain ⟨r₁, db₁, b, hfirst, hone⟩ := h.updateTaskStatus db id status
    obtain ⟨r', db', hrest, hall⟩ := ih (hone.wellNamed h) db₁
    refine ⟨r', db', ?_, hone.cons h hall⟩
    simp only [updateAll, hfirst, hrest, Outcome.ok_bind]

/-! ### The order of the calls -/

/-- The registry and the status column after a sequence of calls. -/
structure Settled (r : OutgoingDataRegistry) (db : Database)
    (calls : List (String × UserTaskStatus)) (r' : OutgoingDataRegistry) (db' : Database) :
    Prop where
  list : r'.outDataRegistryList = r.outDataRegistryList
  /-- Each entry has the maximum of its status and those given for it. -/
  status : ∀ i ∈ r.outDataRegistryList, ∀ st, r.states.get i = some st →
    r'.states.get i = some { st with
      taskStatus := (statusesOf calls st.id).foldl max st.taskStatus }
  /-- After an update that was not ignored, the status is the one shown. -/
  shown : ∀ before id status after r₁ db₁, calls = before ++ (id, status) :: after →
    r.updateAll db before = .ok (r₁, db₁) → r₁.Accepts id status →
    ∀ i ∈ r'.outDataRegistryList, ∀ st', r'.states.get i = some st' → st'.id = id →
      db'.column USERDAT_STATUS_COL_ID id = some (userStatusEnumToString st'.taskStatus)
  /-- A call for an id that is not registered changes nothing. -/
  unregistered : ∀ before id status after r₁ db₁, calls = before ++ (id, status) :: after →
    r.updateAll db before = .ok (r₁, db₁) → r.Unregistered id →
    r₁.updateTaskStatus db₁ id status = .ok (r₁, db₁, false)
  /-- Other orders of the calls end in the same registry and the same column. -/
  reordered : ∀ calls', calls.Perm calls' → ∃ db'', r.updateAll db calls' = .ok (r', db'') ∧
    ∀ id, db''.column USERDAT_STATUS_COL_ID id = db'.column USERDAT_STATUS_COL_ID id

theorem updateAll_settled (h : r.WellNamed) (db : Database)
    (calls : List (String × UserTaskStatus)) :
    ∃ r' db', r.updateAll db calls = .ok (r', db') ∧ Settled r db calls r' db' := by
  obtain ⟨r', db', hrun, hall⟩ := updateAll_raised h db calls
  -- the state before a call of the sequence
  have hbefore : ∀ before r₁ db₁, r.updateAll db before = .ok (r₁, db₁) →
      Raised r db before r₁ db₁ := by
    intro before r₁ db₁ hrun₁
    obtain ⟨r₂, db₂, hrun₂, hraised⟩ := updateAll_raised h db before
    rw [hrun₁] at hrun₂
    cases hrun₂
    exact hraised
  refine ⟨r', db', hrun, hall.list, hall.status, ?_, ?_, ?_⟩
  · intro before id status after r₁ db₁ hcalls hrun₁ haccepts j hj st' hst' hid
    have hraised := hbefore before r₁ db₁ hrun₁
    obtain ⟨i, hi, st₁, hst₁, rfl, hle⟩ := haccepts
    rw [hraised.list] at hi
    rw [hall.list] at hj
    obtain ⟨st, hst⟩ := h.alive i hi
    obtain ⟨stj, hstj⟩ := h.alive j hj
    rw [hraised.status i hi st hst, Option.some.injEq] at hst₁
    subst hst₁
    rw [hall.status j hj stj hstj, Option.some.injEq] at hst'
    subst hst'
    obtain rfl := h.distinct j hj i hi stj st hstj hst hid
    rw [hst] at hstj
    cases hstj
    have hmem : status ∈ statusesOf calls st.id := by
      rw [mem_statusesOf, hcalls]
      exact List.mem_append_right _ List.mem_cons_self
    have hshown := hall.shown j hj st hst
    rw [if_pos ⟨status, hmem, le_foldl_max.trans hle⟩] at hshown
    exact hshown
  · intro before id status after r₁ db₁ _ hrun₁ hnone
    have hraised := hbefore before r₁ db₁ hrun₁
    exact (hraised.wellNamed h).updateTaskStatus_unregistered (hraised.unregistered h hnone)
  · intro calls' hperm
    obtain ⟨r'', db'', hrun', hall'⟩ := updateAll_raised h db calls'
    obtain ⟨rfl, hcolumn⟩ := hall.unique h hperm hall'
    exact ⟨db'', hrun', hcolumn⟩

/-- A result overtakes an intermediate one; a table that is not registered is passed over. -/
theorem updateAll_settled_overtaken :
    ∃ r' db', OutgoingDataRegistry.updateAll ⟨[0], ⟨[some ⟨"T", .dataReady, none⟩]⟩⟩ []
        [("T", .dataFinal), ("U", .dataError), ("T", .dataInter)] = .ok (r', db') ∧
      Settled ⟨[0], ⟨[some ⟨"T", .dataReady, none⟩]⟩⟩ []
        [("T", .dataFinal), ("U", .dataError), ("T", .dataInter)] r' db' := by
  refine updateAll_settled ⟨?_, ?_⟩ _ _
  · intro i hi
    rw [List.mem_singleton] at hi
    exact ⟨_, by rw [hi]; rfl⟩
  · intro i hi j hj _ _ _ _ _
    rw [List.mem_singleton] at hi hj
    rw [hi, hj]

end OutgoingDataRegistry

end ServerUnit
