import ServerUnit.Lib.Machine
import ServerUnit.SenderUnit.Templates
import Mathlib.Data.List.Forall2
import Mathlib.Data.List.Nodup

/-!
# The copies of the template list

The templates are kept as a list, as the list of its JSON renderings, and by name in the tracker
of the workers. Every call of `update` leaves the three in agreement.
-/

namespace ServerUnit

open Lib

/-- The JSON object is the rendering of the template. -/
structure Renders (i : UserDataTemplateStruct) (j : TemplateJson) : Prop where
  instanceid : j.instanceid = i.templateName
  algotype : j.algotype = i.algoType
  data : i.data = some j.data

/-- The names in a list of templates. -/
abbrev templateNames (list : List UserDataTemplateStruct) : List String :=
  list.map (·.templateName)

namespace UserDataTemplate

variable {uDataTemplateList templateStruct : List UserDataTemplateStruct}
  {i : UserDataTemplateStruct}

/-- A template whose data pointer is not null is rendered. -/
lemma exists_render (hdata : i.data.isSome) : ∃ j, render i = .ok j ∧ Renders i j := by
  obtain ⟨data, hdata⟩ := Option.isSome_iff_exists.mp hdata
  refine ⟨⟨i.templateName, i.algoType, data⟩, ?_, rfl, rfl, hdata⟩
  simp [render, hdata]

/-- So is a list of them, one by one. -/
lemma exists_mapM_render (hdata : ∀ i ∈ uDataTemplateList, i.data.isSome) :
    ∃ json, uDataTemplateList.mapM render = .ok json ∧
      List.Forall₂ Renders uDataTemplateList json := by
  induction uDataTemplateList with
  | nil => exact ⟨[], rfl, .nil⟩
  | cons i list ih =>
    obtain ⟨j, hj, hrenders⟩ := exists_render (hdata i List.mem_cons_self)
    obtain ⟨json, hjson, hall⟩ := ih fun i hi => hdata i (List.mem_cons_of_mem _ hi)
    refine ⟨j :: json, ?_, .cons hrenders hall⟩
    simp only [List.mapM_cons, hj, hjson, Outcome.ok_bind]
    rfl

lemma forall₂_of_mapM_render {json : List TemplateJson}
    (h : uDataTemplateList.mapM render = .ok json) :
    List.Forall₂ Renders uDataTemplateList json := by
  refine (Outcome.mapM_eq_ok.mp h).imp fun i j hj => ?_
  simp only [render, Outcome.bind_eq_ok, Outcome.ofOption_eq_ok, Outcome.pure_eq_ok] at hj
  obtain ⟨data, hdata, rfl⟩ := hj
  exact ⟨rfl, rfl, hdata⟩

/-- Templates of known names add nothing. -/
lemma addNew_eq_self
    (h : ∀ i ∈ templateStruct, i.templateName ∈ templateNames uDataTemplateList) :
    addNew uDataTemplateList templateStruct = uDataTemplateList := by
  induction templateStruct with
  | nil => rfl
  | cons i templateStruct ih =>
    obtain ⟨j, hj, hname⟩ := List.mem_map.mp (h i List.mem_cons_self)
    rw [addNew, if_pos (List.any_eq_true.mpr ⟨j, hj, by simp [hname]⟩)]
    exact ih fun k hk => h k (List.mem_cons_of_mem _ hk)

/-- Whatever is in the list then was there, or is new. -/
lemma mem_addNew (h : i ∈ addNew uDataTemplateList templateStruct) :
    i ∈ uDataTemplateList ∨ i ∈ templateStruct := by
  induction templateStruct generalizing uDataTemplateList with
  | nil => exact .inl h
  | cons k templateStruct ih =>
    unfold addNew at h
    split_ifs at h with hpresent
    · exact (ih h).imp_right (List.mem_cons_of_mem _)
    · rcases ih h with hold | hnew
      · rcases List.mem_append.mp hold with hold | hself
        · exact .inl hold
        · rw [List.mem_singleton.mp hself]
          exact .inr List.mem_cons_self
      · exact .inr (List.mem_cons_of_mem _ hnew)

/-- A name enters the list once only. -/
lemma nodup_addNew (h : (templateNames uDataTemplateList).Nodup) :
    (templateNames (addNew uDataTemplateList templateStruct)).Nodup := by
  induction templateStruct generalizing uDataTemplateList with
  | nil => exact h
  | cons k templateStruct ih =>
    unfold addNew
    split_ifs with hpresent
    · exact ih h
    · apply ih
      rw [templateNames, List.map_append, List.map_singleton, List.nodup_append]
      refine ⟨h, List.nodup_singleton _, ?_⟩
      rintro name hname _ hself rfl
      obtain ⟨j, hj, rfl⟩ := List.mem_map.mp hname
      rw [List.mem_singleton] at hself
      exact hpresent (List.any_eq_true.mpr ⟨j, hj, by simp [hself]⟩)

end UserDataTemplate

/-- The templates, with the tracker that has a copy of their names. -/
structure Templates where
  registry : UserDataTemplate
  tracker : WorkerInstanceList

namespace Templates

def init : Templates := ⟨.new, .new⟩

/-- A call of `UserDataTemplate::update`. -/
def update (t : Templates) (templateStruct : List UserDataTemplateStruct) : Outcome Templates := do
  let (registry, tracker, _) ← t.registry.update t.tracker templateStruct
  return ⟨registry, tracker⟩

/-- The names of the templates. -/
abbrev names (t : Templates) : List String := templateNames t.registry.uDataTemplateList

/-- All copies say the same, and `EXIT_FAILURE`, which is `1`, is all that an empty list leads
to. -/
structure Agree (t : Templates) : Prop where
  distinct : t.names.Nodup
  rendered : List.Forall₂ Renders t.registry.uDataTemplateList t.registry.uDataTemplateJsonList
  tracked : t.tracker.templateIdList = t.names
  matching : ∀ templateId, t.registry.isMatchingFound templateId = .ok (templateId ∈ t.names)
  empty : t.registry.update t.tracker [] = .ok (t.registry, t.tracker, 1)

/-- The invariant: the copies agree and the lock of the list is free. -/
structure Kept (t : Templates) : Prop where
  distinct : t.names.Nodup
  rendered : List.Forall₂ Renders t.registry.uDataTemplateList t.registry.uDataTemplateJsonList
  tracked : t.tracker.templateIdList = t.names
  unlocked : t.registry.uDataTemplateListLock = 1

namespace Kept

variable {t : Templates} {templateStruct : List UserDataTemplateStruct}

lemma init : Templates.init.Kept := ⟨List.nodup_nil, .nil, rfl, rfl⟩

/-- A rendered template has data. -/
lemma data (h : t.Kept) : ∀ i ∈ t.registry.uDataTemplateList, i.data.isSome := by
  have hall := h.rendered
  generalize t.registry.uDataTemplateList = list at hall
  generalize t.registry.uDataTemplateJsonList = json at hall
  induction hall with
  | nil => simp
  | cons hrenders _ ih =>
    intro i hi
    rcases List.mem_cons.mp hi with rfl | hi
    · simp [hrenders.data]
    · exact ih i hi

lemma update (h : t.Kept) (hdata : ∀ i ∈ templateStruct, i.data.isSome) :
    ∃ t', t.update templateStruct = .ok t' ∧ t'.Kept := by
  by_cases hempty : templateStruct.length = 0
  · refine ⟨t, ?_, h⟩
    simp [Templates.update, UserDataTemplate.update, hempty]
  · have hall : ∀ i ∈ UserDataTemplate.addNew t.registry.uDataTemplateList templateStruct,
        i.data.isSome := by
      intro i hi
      exact (UserDataTemplate.mem_addNew hi).elim (h.data i) (hdata i)
    obtain ⟨json, hjson, hrendered⟩ := UserDataTemplate.exists_mapM_render hall
    refine ⟨⟨⟨UserDataTemplate.addNew t.registry.uDataTemplateList templateStruct, json, 1, true⟩,
      t.tracker.updateInstanceList _⟩, ?_,
      ⟨UserDataTemplate.nodup_addNew h.distinct, hrendered, rfl, rfl⟩⟩
    simp only [Templates.update, UserDataTemplate.update, hempty, if_false, h.unlocked, semWait,
      UserDataTemplate.discard_eq, hjson, Outcome.ok_bind]
    rfl

lemma agree (h : t.Kept) : t.Agree where
  distinct := h.distinct
  rendered := h.rendered
  tracked := h.tracked
  matching := by
    intro templateId
    have hany : (t.registry.uDataTemplateList.any fun i => templateId == i.templateName) =
        decide (templateId ∈ t.names) := by
      rw [Bool.eq_iff_iff, List.any_eq_true, decide_eq_true_iff, List.mem_map]
      exact exists_congr fun i => and_congr_right fun _ => beq_iff_eq.trans eq_comm
    simp only [UserDataTemplate.isMatchingFound, h.unlocked, semWait, Outcome.ok_bind, hany]
    rfl
  empty := rfl

end Kept

lemma exists_kept_run {calls : List (List UserDataTemplateStruct)}
    (hdata : ∀ templateStruct ∈ calls, ∀ i ∈ templateStruct, i.data.isSome) :
    ∃ t, run update init calls = .ok t ∧ t.Kept :=
  exists_run (fun _ _ hkept hsome => hkept.update hsome) .init hdata

/-- After every sequence of calls, made with data for each template, the copies agree. -/
theorem run_agree {calls : List (List UserDataTemplateStruct)}
    (hdata : ∀ templateStruct ∈ calls, ∀ i ∈ templateStruct, i.data.isSome) :
    ∃ t, run update init calls = .ok t ∧ t.Agree := by
  obtain ⟨t, ht, hkept⟩ := exists_kept_run hdata
  exact ⟨t, ht, hkept.agree⟩

/-- Names that come twice, an empty call, and a name that comes again with other data. -/
theorem run_agree_repeated :
    ∃ t, run update init [[⟨"a", 1, some "x"⟩, ⟨"a", 2, some "y"⟩, ⟨"b", 1, some "z"⟩], [],
      [⟨"b", 3, some "w"⟩]] = .ok t ∧ t.Agree :=
  run_agree (by simp)

end Templates

end ServerUnit
