import ServerUnit.Services.MonitorInstanceTable

/-!
# Which templates are registered

The monitor of the template table reads all names at each poll that finds another time stamp. A row
that comes later in the second that was saved, after its names were read, is left out, and is found
when the table is written again.
-/

namespace ServerUnit

open Lib

namespace InstanceMonitor

variable {sql : SqlAnswers InstanceTable.sqlTable} {s s' : InstanceMonitor}
  {name data csvFileName : String} {i : UserDataTemplateStruct}

namespace Consistent

lemma init (clock : ℕ) (files : Files) : (init clock files).Consistent where
  stored := List.nil_subset _
  files := List.Subset.refl _
  sourced := by
    intro i hi
    cases hi
  extracted := by
    intro i hi
    cases hi
  opened := by
    intro _ _ _ _ hpc
    cases hpc
  read := by
    intro _ _ _ _ hpc
    cases hpc
  kept := .init
  plain := by
    intro r hr
    cases hr
  plainNames := by
    intro name hname
    cases hname
  past := by
    intro r hr
    cases hr
  saved := bot_le
  older := by
    intro r hr
    cases hr
  newest := by
    intro hfalse
    cases hfalse

/-! ### The steps of the others -/

/-- The table is written: a row that is new or changed has the time of the clock. -/
lemma written (h : s.Consistent) (table : InstanceTable) (rows : List InstanceRow)
    (hrows : ∀ r ∈ table.rows, r ∈ s.table.rows ∨ r ∈ rows ∧ r.timestamp = s.clock)
    (hplain : ∀ r ∈ rows, InstanceTable.Plain r.instanceName) :
    Consistent { s with table, written := s.written ++ rows, undisturbed := false } where
  toExtracts := by
    refine h.toExtracts.written rfl rfl (List.subset_append_left _ _) (List.Subset.refl _) ?_ h.files
      fun r hr => (List.mem_append.mp hr).elim (h.plain r) (hplain r)
    intro r hr
    rcases hrows r hr with hold | ⟨hnew, -⟩
    · exact List.mem_append_left _ (h.stored hold)
    · exact List.mem_append_right _ hnew
  past := by
    intro r hr
    rcases hrows r hr with hold | ⟨-, htime⟩
    · exact h.past r hold
    · exact htime.le
  saved := h.saved
  older := by
    intro r hr hlt
    rcases hrows r hr with hold | ⟨-, htime⟩
    · exact h.older r hold hlt
    · rw [htime] at hlt
      exact absurd h.saved (not_le_of_gt hlt)
  newest := by
    intro hfalse
    cases hfalse

/-- Files are written. -/
lemma filesWritten (h : s.Consistent) (files : Files) (texts : List (String × String))
    (hfiles : files.rows ⊆ s.texts ++ texts) :
    Consistent { s with files, texts := s.texts ++ texts } where
  toExtracts := h.toExtracts.written rfl rfl (List.Subset.refl _) (List.subset_append_left _ _)
    h.stored hfiles h.plain
  past := h.past
  saved := h.saved
  older := h.older
  newest := h.newest

lemma tick (h : s.Consistent) : Consistent { s with clock := s.clock + 1 } where
  toExtracts := h.toExtracts.written rfl rfl (List.Subset.refl _) (List.Subset.refl _) h.stored
    h.files h.plain
  past r hr := (h.past r hr).trans (Nat.le_succ _)
  saved := h.saved.trans (WithBot.coe_le_coe.mpr (Nat.le_succ _))
  older := h.older
  newest := h.newest

/-! ### The steps of the thread -/

/-- With another time stamp, everything is still to come. -/
lemma queryTimeStamp (h : s.Consistent) (fails : Bool) :
    (s.queryTimeStamp fails).Consistent := by
  have hmax : InstanceTable.maxTimeStamp s.table fails ≤ s.clock :=
    InstanceTable.maxTimeStamp_le (fun r hr => WithBot.coe_le_coe.mpr (h.past r hr)) fails
  have hread : (!fails) = true → InstanceTable.maxTimeStamp s.table fails =
      InstanceTable.maxTimeStamp s.table false := by
    cases fails <;> simp
  rw [InstanceMonitor.queryTimeStamp]
  split_ifs with hne
  · refine ⟨h.moved ?_ ?_ ?_ ?_, h.past, hmax, fun _ _ _ => .inr (.inl rfl), hread⟩
    · intro i hi
      cases hi
    · intro _ _ _ _ heq
      cases heq
    · intro _ _ _ _ heq
      cases heq
    · intro name hname
      cases hname
  · have hsame := not_not.mp hne
    exact ⟨h.moved h.extracted h.opened h.read h.plainNames, h.past, h.saved, h.older,
      fun hanswered => hsame.symm.trans (hread hanswered)⟩

/-- All names of the table are read: none is left out. -/
lemma readList (h : s.Consistent) :
    Consistent { s with pc := .extracting (InstanceTable.sqlReadList s.table false) [] } where
  toExtracts := by
    apply h.toLoop
    · intro i hi
      cases hi
    · intro name hname
      obtain ⟨r, hr, rfl⟩ := List.mem_map.mp hname
      exact h.plain r (h.stored hr)
  past := h.past
  saved := h.saved
  older r hr _ := .inr (.inr (.inl (List.mem_map_of_mem hr)))
  newest := h.newest

/-- The extraction goes on with a name: what was to come still is, but for this name if it is
covered now. -/
lemma extract (h : s.Consistent) {pc : InstancePc} {skipped : List String}
    (hextracts : Extracts { s with pc, skipped })
    (hskipped : s.skipped ⊆ skipped) (hlisting : s.pc ≠ .listing)
    (hnames : ∀ name ∈ s.pc.names, name = "" ∨ name ∈ skipped ∨ name ∈ pc.names ∨
      name ∈ templateNames pc.instanceList)
    (hlist : templateNames s.pc.instanceList ⊆ templateNames pc.instanceList) :
    Consistent { s with pc, skipped } where
  toExtracts := hextracts
  past := h.past
  saved := h.saved
  older := by
    intro r hr hlt
    rcases h.older r hr hlt with (hempty | hregistered | hskip) | (hpc | hname | htaken)
    · exact .inl (.inl hempty)
    · exact .inl (.inr (.inl hregistered))
    · exact .inl (.inr (.inr (hskipped hskip)))
    · exact absurd hpc hlisting
    · rcases hnames _ hname with hempty | hskip | hcome | htaken
      · exact .inl (.inl hempty)
      · exact .inl (.inr (.inr hskip))
      · exact .inr (.inr (.inl hcome))
      · exact .inr (.inr (.inr htaken))
    · exact .inr (.inr (.inr (hlist htaken)))
  newest := h.newest

/-- The next name is empty, or its row is asked for the name of the file. -/
lemma queryFile (h : s.Consistent) (hsql : sql.Exact)
    (hstep : s.step sql (.queryFile false) = .ok s') : s'.Consistent := by
  cases hpc : s.pc with
  | extracting idList instanceList =>
    cases idList with
    | nil =>
      simp only [InstanceMonitor.step, hpc] at hstep
      cases hstep
    | cons name idList =>
      have hextracted : ∀ i ∈ instanceList, s.Sourced i := h.extracted_of_pc hpc
      have hplain : ∀ name' ∈ name :: idList, InstanceTable.Plain name' := h.plainNames_of_pc hpc
      simp only [InstanceMonitor.step, hpc] at hstep
      split_ifs at hstep with hempty
      · cases hstep
        refine h.extract (h.toLoop hextracted fun name' hname =>
          hplain name' (List.mem_cons_of_mem _ hname)) (List.Subset.refl _)
          (by rw [hpc]; simp) ?_ ?_
        · intro name' hname
          rw [hpc] at hname
          rcases List.mem_cons.mp hname with rfl | hname
          · exact .inl (String.isEmpty_iff.mp hempty)
          · exact .inr (.inr (.inl hname))
        · rw [hpc]
          exact List.Subset.refl _
      · cases hstep
        refine h.extract (h.moved hextracted ?_ ?_ hplain) (List.Subset.refl _)
          (by rw [hpc]; simp) ?_ ?_
        · intro _ _ _ _ heq
          cases heq
          have hname := hplain name List.mem_cons_self
          by_cases hrow : name ∈ s.table.rows.map (·.instanceName)
          · obtain ⟨r, hr, rfl⟩ := List.mem_map.mp hrow
            rw [InstanceTable.queryFile_of_mem hr hname]
            exact .inr ⟨r, h.stored hr, rfl, rfl⟩
          · exact .inl (InstanceTable.queryFile_of_notMem hsql hrow hname)
        · intro _ _ _ _ heq
          cases heq
        · intro name' hname
          rw [hpc] at hname
          exact .inr (.inr (.inl hname))
        · rw [hpc]
          exact List.Subset.refl _
  | polling | listing | opening | grading =>
    simp only [InstanceMonitor.step, hpc] at hstep
    cases hstep

/-- The file is read, or the name is skipped. -/
lemma openFile (h : s.Consistent) (hstep : s.step sql .openFile = .ok s') : s'.Consistent := by
  cases hpc : s.pc with
  | opening name csvFileName idList instanceList =>
    have hextracted : ∀ i ∈ instanceList, s.Sourced i := h.extracted_of_pc hpc
    have hplain : ∀ name' ∈ name :: idList, InstanceTable.Plain name' := h.plainNames_of_pc hpc
    simp only [InstanceMonitor.step, hpc] at hstep
    cases hread : getInstanceFileData s.files csvFileName with
    | none =>
      rw [hread] at hstep
      cases hstep
      refine h.extract (h.toLoop hextracted fun name' hname =>
        hplain name' (List.mem_cons_of_mem _ hname)) (List.subset_append_left _ _)
        (by rw [hpc]; simp) ?_ ?_
      · intro name' hname
        rw [hpc] at hname
        rcases List.mem_cons.mp hname with rfl | hname
        · exact .inr (.inl (List.mem_append_right _ (List.mem_singleton_self _)))
        · exact .inr (.inr (.inl hname))
      · rw [hpc]
        exact List.Subset.refl _
    | some resultData =>
      rw [hread] at hstep
      cases hstep
      refine h.extract (h.moved hextracted ?_ ?_ hplain) (List.Subset.refl _)
        (by rw [hpc]; simp) ?_ ?_
      · intro _ _ _ _ heq
        cases heq
      · intro _ _ _ _ heq
        cases heq
        obtain ⟨text, htext, hdata⟩ := getInstanceFileData_eq_some hread
        exact ⟨csvFileName, text, h.opened _ _ _ _ hpc, h.files htext, hdata⟩
      · intro name' hname
        rw [hpc] at hname
        exact .inr (.inr (.inl hname))
      · rw [hpc]
        exact List.Subset.refl _
  | polling | listing | extracting | grading =>
    simp only [InstanceMonitor.step, hpc] at hstep
    cases hstep

/-- The row is asked for the algorithm, and the template is complete. -/
lemma queryAlgorithm (h : s.Consistent) (hsql : sql.Exact)
    (hstep : s.step sql (.queryAlgorithm false) = .ok s') : s'.Consistent := by
  cases hpc : s.pc with
  | grading name data idList instanceList =>
    have hextracted : ∀ i ∈ instanceList, s.Sourced i := h.extracted_of_pc hpc
    have hplain : ∀ name' ∈ name :: idList, InstanceTable.Plain name' := h.plainNames_of_pc hpc
    simp only [InstanceMonitor.step, hpc, Outcome.bind_eq_ok, Outcome.pure_eq_ok] at hstep
    obtain ⟨algoType, halgo, rfl⟩ := hstep
    have hsourced : s.Sourced ⟨name, UInt8.ofInt algoType, some data⟩ := by
      refine ⟨?_, data, rfl, h.read _ _ _ _ hpc⟩
      by_cases hrow : name ∈ s.table.rows.map (·.instanceName)
      · obtain ⟨r, hr, rfl⟩ := List.mem_map.mp hrow
        rw [InstanceTable.queryAlgorithm_of_mem hr (hplain _ List.mem_cons_self)] at halgo
        cases halgo
        exact ⟨r, h.stored hr, rfl, rfl⟩
      · rw [InstanceTable.queryAlgorithm_of_notMem hsql hrow (hplain _ List.mem_cons_self)] at halgo
        cases halgo
    refine h.extract (h.toLoop ?_ fun name' hname => hplain name' (List.mem_cons_of_mem _ hname))
      (List.Subset.refl _) (by rw [hpc]; simp) ?_ ?_
    · intro i hi
      rcases List.mem_append.mp hi with hi | hi
      · exact hextracted i hi
      · rw [List.mem_singleton.mp hi]
        exact hsourced
    · intro name' hname
      rw [hpc] at hname
      rcases List.mem_cons.mp hname with rfl | hname
      · refine .inr (.inr (.inr ?_))
        exact List.mem_map_of_mem (List.mem_append_right _ (List.mem_singleton_self _))
      · exact .inr (.inr (.inl hname))
    · rw [hpc]
      exact List.map_subset _ (List.subset_append_left _ _)
  | polling | listing | extracting | opening =>
    simp only [InstanceMonitor.step, hpc] at hstep
    cases hstep

/-- What was extracted is registered, unless a template of its name is there. -/
lemma update (h : s.Consistent) (hstep : s.step sql .update = .ok s') : s'.Consistent := by
  cases hpc : s.pc with
  | extracting idList instanceList =>
    cases idList with
    | cons name idList =>
      simp only [InstanceMonitor.step, hpc] at hstep
      cases hstep
    | nil =>
      simp only [InstanceMonitor.step, hpc, Outcome.bind_eq_ok, Outcome.pure_eq_ok] at hstep
      obtain ⟨templates, hup, rfl⟩ := hstep
      have hextracted : ∀ i ∈ instanceList, s.Sourced i := h.extracted_of_pc hpc
      have hkept := h.kept.of_update hup
      have hlist := Templates.uDataTemplateList_of_update h.kept hup
      refine ⟨⟨h.stored, h.files, ?_, ?_, ?_, ?_, hkept, h.plain, ?_⟩, h.past, h.saved, ?_,
        h.newest⟩
      · intro i hi
        rw [hlist] at hi
        exact (UserDataTemplate.mem_addNew hi).elim (h.sourced i) (hextracted i)
      · intro i hi
        cases hi
      · intro _ _ _ _ heq
        cases heq
      · intro _ _ _ _ heq
        cases heq
      · intro name hname
        cases hname
      · intro r hr hlt
        have hold : r.instanceName ∈ s.templates.names → r.instanceName ∈ templates.names := by
          intro hname
          rw [Templates.names, hlist, UserDataTemplate.mem_templateNames_addNew]
          exact .inl hname
        left
        rcases h.older r hr hlt with (hempty | hregistered | hskip) | (hlisting | hname | htaken)
        · exact .inl hempty
        · exact .inr (.inl (hold hregistered))
        · exact .inr (.inr hskip)
        · rw [hpc] at hlisting
          cases hlisting
        · rw [hpc] at hname
          cases hname
        · rw [hpc] at htaken
          refine .inr (.inl ?_)
          rw [Templates.names, hlist, UserDataTemplate.mem_templateNames_addNew]
          exact .inr htaken
  | polling | listing | opening | grading =>
    simp only [InstanceMonitor.step, hpc] at hstep
    cases hstep

/-! ### All steps -/

lemma step {e : InstanceEvent} (h : s.Consistent) (hsql : sql.Exact) (he : Answered e)
    (hstep : s.step sql e = .ok s') :
    s'.Consistent := by
  cases e with
  | tick =>
    cases hstep
    exact h.tick
  | write instanceName algorithm csvfile =>
    cases hstep
    apply h.written
    · intro r hr
      rcases KeyedTable.mem_write.mp hr with rfl | ⟨hold, -⟩
      · exact .inr ⟨List.mem_singleton_self _, rfl⟩
      · exact .inl hold
    · intro r hr
      rw [List.mem_singleton.mp hr]
      exact he
  | delete instanceName =>
    cases hstep
    have hrows := h.written (s.table.delete instanceName) []
      (fun r hr => .inl (KeyedTable.mem_delete.mp hr).1) (by simp)
    rwa [List.append_nil] at hrows
  | writeFile path text =>
    cases hstep
    apply h.filesWritten
    intro f hf
    rcases KeyedTable.mem_write.mp hf with rfl | ⟨hold, -⟩
    · exact List.mem_append_right _ (List.mem_singleton_self _)
    · exact List.mem_append_left _ (h.files hold)
  | deleteFile path =>
    cases hstep
    have hfiles := h.filesWritten (s.files.delete path) [] fun f hf =>
      List.mem_append_left _ (h.files (KeyedTable.mem_delete.mp hf).1)
    rwa [List.append_nil] at hfiles
  | queryTimeStamp fails =>
    simp only [InstanceMonitor.step, Outcome.guard_eq_ok, Outcome.pure_eq_ok] at hstep
    obtain ⟨-, rfl⟩ := hstep
    exact h.queryTimeStamp fails
  | readList fails =>
    simp only [InstanceMonitor.step, Outcome.guard_eq_ok, Outcome.pure_eq_ok] at hstep
    obtain ⟨-, rfl⟩ := hstep
    obtain rfl : fails = false := he
    exact h.readList
  | queryFile fails =>
    obtain rfl : fails = false := he
    exact h.queryFile hsql hstep
  | openFile => exact h.openFile hstep
  | queryAlgorithm fails =>
    obtain rfl : fails = false := he
    exact h.queryAlgorithm hsql hstep
  | update => exact h.update hstep

end Consistent

/-- The thread looks at the time stamp only, which is the one saved. -/
structure Rests (s : InstanceMonitor) (table : InstanceTable) (templates : Templates)
    (skipped : List String) : Prop where
  pc : s.pc = .polling
  latest : s.latestTimeStamp = InstanceTable.maxTimeStamp s.table false
  table : s.table = table
  templates : s.templates = templates
  skipped : s.skipped = skipped

lemma Rests.step {table : InstanceTable} {templates : Templates} {skipped : List String}
    {e : InstanceEvent} (h : s.Rests table templates skipped) (he : Quiet e)
    (hstep : s.step sql e = .ok s') : s'.Rests table templates skipped := by
  cases e with
  | tick | writeFile | deleteFile =>
    cases hstep
    exact ⟨h.pc, h.latest, h.table, h.templates, h.skipped⟩
  | write | delete => cases he
  | queryTimeStamp fails =>
    obtain rfl : fails = false := he
    simp only [InstanceMonitor.step, Outcome.guard_eq_ok, Outcome.pure_eq_ok] at hstep
    obtain ⟨-, rfl⟩ := hstep
    rw [InstanceMonitor.queryTimeStamp, if_neg (not_not_intro h.latest.symm)]
    exact ⟨h.pc, h.latest, h.table, h.templates, h.skipped⟩
  | readList | queryFile | openFile | queryAlgorithm | update =>
    simp only [InstanceMonitor.step, h.pc] at hstep
    cases hstep

end InstanceMonitor

end ServerUnit
