import ServerUnit.SenderUnit.TemplateCopies

/-!
# What an update does to the templates that are there

A list of templates is meant to take the place of the one before: `update` first discards the
templates it does not name, then adds those of new names. What becomes of a template that it does
not name, and of one that it names with other content, is decided here for every registry that
calls of `update` lead to.
-/

namespace ServerUnit

open Lib

namespace UserDataTemplate

variable {uDataTemplateList templateStruct : List UserDataTemplateStruct}

/-- The loop that adds templates leaves the others in place. -/
lemma subset_addNew : uDataTemplateList ⊆ addNew uDataTemplateList templateStruct := by
  induction templateStruct generalizing uDataTemplateList with
  | nil => exact List.Subset.refl _
  | cons i templateStruct ih =>
    unfold addNew
    split_ifs
    · exact ih
    · exact fun k hk => ih (List.mem_append_left [i] hk)

/-- Each name is there then. -/
lemma templateNames_subset_addNew :
    templateNames templateStruct ⊆ templateNames (addNew uDataTemplateList templateStruct) := by
  induction templateStruct generalizing uDataTemplateList with
  | nil => exact List.nil_subset _
  | cons i templateStruct ih =>
    rw [templateNames, List.map_cons, List.cons_subset, addNew]
    split_ifs with hpresent
    · obtain ⟨j, hj, hname⟩ := List.any_eq_true.mp hpresent
      rw [beq_iff_eq.mp hname]
      exact ⟨List.mem_map_of_mem (subset_addNew hj), ih⟩
    · have hself : i ∈ uDataTemplateList ++ [i] := List.mem_append_right _ (List.mem_singleton_self i)
      exact ⟨List.mem_map_of_mem (subset_addNew hself), ih⟩

/-- The names are the old ones and the new ones. -/
lemma mem_templateNames_addNew {name : String} :
    name ∈ templateNames (addNew uDataTemplateList templateStruct) ↔
      name ∈ templateNames uDataTemplateList ∨ name ∈ templateNames templateStruct := by
  constructor
  · intro hname
    obtain ⟨i, hi, rfl⟩ := List.mem_map.mp hname
    exact (mem_addNew hi).imp List.mem_map_of_mem List.mem_map_of_mem
  · rintro (hold | hnew)
    · exact List.map_subset _ subset_addNew hold
    · exact templateNames_subset_addNew hnew

end UserDataTemplate

namespace Templates

open UserDataTemplate

variable {t t' : Templates} {templateStruct : List UserDataTemplateStruct}
  {calls : List (List UserDataTemplateStruct)} {i : UserDataTemplateStruct}

/-- The templates after an update that returns. -/
lemma update_eq_ok (h : t.update templateStruct = .ok t') (hne : templateStruct ≠ []) :
    t'.registry.uDataTemplateList = addNew t.registry.uDataTemplateList templateStruct ∧
      List.Forall₂ Renders t'.registry.uDataTemplateList t'.registry.uDataTemplateJsonList ∧
      t'.registry.uDataTemplateListLock = t.registry.uDataTemplateListLock ∧
      t'.tracker.templateIdList = t'.names := by
  simp only [update, Outcome.bind_eq_ok, Outcome.pure_eq_ok] at h
  obtain ⟨⟨registry, tracker, rc⟩, hup, rfl⟩ := h
  rcases update_cases hup with ⟨hempty, -, -⟩ | ⟨json, hjson, rfl, rfl⟩
  · exact absurd hempty hne
  · exact ⟨rfl, forall₂_of_mapM_render hjson, rfl, rfl⟩

lemma Kept.of_update (h : t.Kept) (hup : t.update templateStruct = .ok t') : t'.Kept := by
  by_cases hne : templateStruct = []
  · subst hne
    rw [Templates.update, h.agree.empty, Outcome.ok_bind, Outcome.pure_eq_ok] at hup
    rwa [← hup]
  · obtain ⟨hlist, hrendered, hlock, htracked⟩ := update_eq_ok hup hne
    refine ⟨?_, hrendered, htracked, hlock.trans h.unlocked⟩
    rw [names, hlist]
    exact nodup_addNew h.distinct

lemma kept_of_run (h : run update init calls = .ok t) : t.Kept :=
  run_invariant (I := Kept) (fun _ _ _ hkept hup => hkept.of_update hup) Kept.init h

/-! ### Templates that are not named any more -/

/-- The templates are those that the list names, and no other is found. -/
structure Discards (t : Templates) (templateStruct : List UserDataTemplateStruct) : Prop where
  names : ∀ name, name ∈ t.names ↔ name ∈ templateNames templateStruct
  unmatched : ∀ name, name ∉ templateNames templateStruct →
    t.registry.isMatchingFound name = .ok false

/-- What an update names is all that there is afterwards exactly when it names all that there was
before. It returns when each of its templates has data. -/
theorem run_discards_iff (h : run update init calls = .ok t) (hne : templateStruct ≠ []) :
    ((∀ i ∈ templateStruct, i.data.isSome) → ∃ t', t.update templateStruct = .ok t') ∧
    ∀ t', t.update templateStruct = .ok t' →
      (t'.Discards templateStruct ↔ t.names ⊆ templateNames templateStruct) := by
  have hkept := kept_of_run h
  refine ⟨fun hdata => ?_, fun t' hup => ?_⟩
  · obtain ⟨t', hup, -⟩ := hkept.update hdata
    exact ⟨t', hup⟩
  · obtain ⟨hlist, -⟩ := update_eq_ok hup hne
    have hnames : ∀ name, name ∈ t'.names ↔
        name ∈ t.names ∨ name ∈ templateNames templateStruct := by
      intro name
      rw [Templates.names, hlist]
      exact mem_templateNames_addNew
    constructor
    · intro hdiscards name hname
      exact (hdiscards.names name).mp ((hnames name).mpr (.inl hname))
    · intro hsubset
      have hsame : ∀ name, name ∈ t'.names ↔ name ∈ templateNames templateStruct := by
        intro name
        rw [hnames name]
        exact or_iff_right_of_imp fun hname => hsubset hname
      refine ⟨hsame, fun name hname => ?_⟩
      rw [(hkept.of_update hup).agree.matching name, decide_eq_false (mt (hsame name).mp hname)]

/-- Two templates. -/
def templateA : UserDataTemplateStruct := ⟨"a", 1, some "x"⟩

def templateB : UserDataTemplateStruct := ⟨"b", 1, some "y"⟩

/-- The same two templates again, in the other order. -/
theorem run_discards_iff_two : ∃ t, run update init [[templateA, templateB]] = .ok t ∧
    ((∀ i ∈ [templateB, templateA], i.data.isSome) →
      ∃ t', t.update [templateB, templateA] = .ok t') ∧
    ∀ t', t.update [templateB, templateA] = .ok t' →
      (t'.Discards [templateB, templateA] ↔ t.names ⊆ templateNames [templateB, templateA]) := by
  obtain ⟨t, ht, -⟩ : ∃ t, run update init [[templateA, templateB]] = .ok t ∧ t.Kept :=
    exists_kept_run (by decide)
  exact ⟨t, ht, run_discards_iff ht (List.cons_ne_nil _ _)⟩

/-- A template that is not named any more stays, and is found. -/
theorem run_not_discards : ∃ t, run update init [[templateA], [templateB]] = .ok t ∧
    t.names = ["a", "b"] ∧ t.registry.isMatchingFound "a" = .ok true ∧
    ¬ t.Discards [templateB] := by
  obtain ⟨t, ht, hnames⟩ : ∃ t, run update init [[templateA], [templateB]] = .ok t ∧
      t.names = ["a", "b"] := Outcome.exists_ok_of_eval (by decide)
  have hmatching := (kept_of_run ht).agree.matching "a"
  rw [hnames, decide_eq_true List.mem_cons_self] at hmatching
  refine ⟨t, ht, hnames, hmatching, fun hdiscards => ?_⟩
  have hunmatched := hdiscards.unmatched "a" (by decide)
  rw [hmatching] at hunmatched
  cases hunmatched

/-! ### Templates that are named with other content -/

/-- The entries of the template's name have its content, in both lists. -/
structure Replaces (t : Templates) (i : UserDataTemplateStruct) : Prop where
  present : i.templateName ∈ t.names
  listed : ∀ k ∈ t.registry.uDataTemplateList, k.templateName = i.templateName →
    k.algoType = i.algoType ∧ k.data = i.data
  exported : i.templateName ∈ t.registry.toJson.map (·.instanceid)
  rendered : ∀ j ∈ t.registry.toJson, j.instanceid = i.templateName →
    j.algotype = i.algoType ∧ some j.data = i.data

/-- The entries of the template's name already have its content. -/
def Unchanged (t : Templates) (i : UserDataTemplateStruct) : Prop :=
  ∀ k ∈ t.registry.uDataTemplateList, k.templateName = i.templateName →
    k.algoType = i.algoType ∧ k.data = i.data

/-- What both lists say of a name follows from the first. -/
lemma replaces_iff (hkept : t.Kept) (hname : i.templateName ∈ t.names) :
    t.Replaces i ↔ t.Unchanged i := by
  refine ⟨Replaces.listed, fun hlisted => ⟨hname, hlisted, ?_, fun j hj hid => ?_⟩⟩
  · obtain ⟨k, hk, hkname⟩ := List.mem_map.mp hname
    obtain ⟨j, hj, hrenders⟩ := exists_of_forall₂_left hkept.rendered hk
    exact List.mem_map.mpr ⟨j, hj, hrenders.instanceid.trans hkname⟩
  · obtain ⟨k, hk, hrenders⟩ := exists_of_forall₂_right hkept.rendered hj
    obtain ⟨halgo, hdata⟩ := hlisted k hk (hrenders.instanceid.symm.trans hid)
    exact ⟨hrenders.algotype.trans halgo, hrenders.data.symm.trans hdata⟩

/-- The content of a template that is named is that of the update afterwards exactly when it was
before. The update returns when each of its templates has data. -/
theorem run_replaces_iff (h : run update init calls = .ok t) (hne : templateStruct ≠ [])
    (hdistinct : (templateNames templateStruct).Nodup) :
    ((∀ i ∈ templateStruct, i.data.isSome) → ∃ t', t.update templateStruct = .ok t') ∧
    ∀ t', t.update templateStruct = .ok t' →
      ((∀ i ∈ templateStruct, t'.Replaces i) ↔ ∀ i ∈ templateStruct, t.Unchanged i) := by
  have hkept := kept_of_run h
  refine ⟨fun hdata => ?_, fun t' hup => ?_⟩
  · obtain ⟨t', hup, -⟩ := hkept.update hdata
    exact ⟨t', hup⟩
  · obtain ⟨hlist, -⟩ := update_eq_ok hup hne
    refine forall_congr' fun i => forall_congr' fun hi => ?_
    have hname : i.templateName ∈ t'.names := by
      rw [Templates.names, hlist]
      exact templateNames_subset_addNew (List.mem_map_of_mem hi)
    rw [replaces_iff (hkept.of_update hup) hname, Unchanged, Unchanged, hlist]
    constructor
    · exact fun hnew k hk => hnew k (subset_addNew hk)
    · intro hold k hk hkname
      rcases mem_addNew hk with hk | hk
      · exact hold k hk hkname
      · -- the update has one template of each name
        rw [List.inj_on_of_nodup_map hdistinct hk hi hkname]
        exact ⟨rfl, rfl⟩

/-- One template again, and a new one. -/
theorem run_replaces_iff_two : ∃ t, run update init [[templateA]] = .ok t ∧
    ((∀ i ∈ [templateA, templateB], i.data.isSome) →
      ∃ t', t.update [templateA, templateB] = .ok t') ∧
    ∀ t', t.update [templateA, templateB] = .ok t' →
      ((∀ i ∈ [templateA, templateB], t'.Replaces i) ↔
        ∀ i ∈ [templateA, templateB], t.Unchanged i) := by
  obtain ⟨t, ht, -⟩ : ∃ t, run update init [[templateA]] = .ok t ∧ t.Kept :=
    exists_kept_run (by decide)
  exact ⟨t, ht, run_replaces_iff ht (List.cons_ne_nil _ _) (by decide)⟩

/-- A template that comes again with other data keeps its old data. -/
theorem run_not_replaces :
    ∃ t, run update init [[templateA], [{ templateA with data := some "z" }]] = .ok t ∧
      t.registry.uDataTemplateList = [templateA] ∧ t.registry.toJson = [⟨"a", 1, "x"⟩] ∧
      ¬ t.Replaces { templateA with data := some "z" } := by
  obtain ⟨t, ht, hlist, hjson⟩ : ∃ t,
      run update init [[templateA], [{ templateA with data := some "z" }]] = .ok t ∧
        t.registry.uDataTemplateList = [templateA] ∧ t.registry.toJson = [⟨"a", 1, "x"⟩] :=
    Outcome.exists_ok_of_eval (by decide)
  refine ⟨t, ht, hlist, hjson, fun hreplaces => ?_⟩
  have hlisted := hreplaces.listed templateA (by rw [hlist]; exact List.mem_cons_self) rfl
  exact absurd hlisted.2 (by decide)

end Templates

end ServerUnit
