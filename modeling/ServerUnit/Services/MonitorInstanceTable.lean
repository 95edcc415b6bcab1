import ServerUnit.SenderUnit.TemplateMerge
import ServerUnit.Services.InstanceTable

/-!
# The monitor of the template table

`services/monitor_instance_table.cpp`, with `executeInstanceExtractor` of
`data_extractor/data_extractor.cpp`. A poll that finds another time stamp than the one saved reads
all names, and then the file and the algorithm of each one by one. The table and the files may be
written between any two of these queries.
-/

namespace ServerUnit

open Lib

/-- Where the thread of `monitorInstanceTable` stands. -/
inductive InstancePc where
  /-- About to query the largest time stamp, or sleeping. -/
  | polling
  /-- About to read the names. -/
  | listing
  /-- At the head of the loop of the extractor, or behind it when no name is left. -/
  | extracting (idList : List String) (instanceList : List UserDataTemplateStruct)
  /-- About to open a file. -/
  | opening (curInstanceName csvFileName : String) (idList : List String)
    (instanceList : List UserDataTemplateStruct)
  /-- About to query the algorithm. -/
  | grading (curInstanceName resultData : String) (idList : List String)
    (instanceList : List UserDataTemplateStruct)
  deriving DecidableEq

namespace InstancePc

/-- The names that are still to be extracted. -/
def names : InstancePc → List String
  | polling | listing => []
  | extracting idList _ => idList
  | opening curInstanceName _ idList _ | grading curInstanceName _ idList _ =>
    curInstanceName :: idList

/-- The local variable of the extractor. -/
def instanceList : InstancePc → List UserDataTemplateStruct
  | polling | listing => []
  | extracting _ instanceList | opening _ _ _ instanceList | grading _ _ _ instanceList =>
    instanceList

end InstancePc

/-- The monitor with the database, the files and the templates. The histories are not in the
source: the rows and the texts ever written, and the names skipped because no file was found.
`undisturbed` says that the largest time stamp was read, and that the table was not written since. -/
structure InstanceMonitor where
  table : InstanceTable
  files : Files
  clock : ℕ
  latestTimeStamp : WithBot ℕ
  pc : InstancePc
  templates : Templates
  written : List InstanceRow
  texts : List (String × String)
  skipped : List String
  undisturbed : Bool

inductive InstanceEvent where
  | tick
  /-- A row is inserted, or replaces the one of its name. -/
  | write (instanceName : String) (algorithm : ℤ) (csvfile : String)
  | delete (instanceName : String)
  | writeFile (path text : String)
  | deleteFile (path : String)
  | queryTimeStamp (fails : Bool)
  | readList (fails : Bool)
  /-- The extractor takes the next name, and queries the name of its file. -/
  | queryFile (fails : Bool)
  | openFile
  | queryAlgorithm (fails : Bool)
  /-- The extractor calls `update`, and the thread goes to sleep. -/
  | update
  deriving DecidableEq

/-- After an update the list is the old one with the new templates, if any. -/
lemma Templates.uDataTemplateList_of_update {t t' : Templates}
    {templateStruct : List UserDataTemplateStruct} (h : t.Kept)
    (hup : t.update templateStruct = .ok t') :
    t'.registry.uDataTemplateList =
      UserDataTemplate.addNew t.registry.uDataTemplateList templateStruct := by
  by_cases hne : templateStruct = []
  · subst hne
    rw [Templates.update, h.agree.empty, Outcome.ok_bind, Outcome.pure_eq_ok] at hup
    rw [← hup]
    rfl
  · exact (Templates.update_eq_ok hup hne).1

namespace InstanceMonitor

def init (clock : ℕ) (files : Files) : InstanceMonitor :=
  { table := .empty _
    files
    clock
    latestTimeStamp := ⊥
    pc := .polling
    templates := .init
    written := []
    texts := files.rows
    skipped := []
    undisturbed := false }

/-- The test of the time stamp. -/
def queryTimeStamp (s : InstanceMonitor) (fails : Bool) : InstanceMonitor :=
  let currentTimeStamp := InstanceTable.maxTimeStamp s.table fails
  if currentTimeStamp ≠ s.latestTimeStamp then
    { s with latestTimeStamp := currentTimeStamp, pc := .listing, undisturbed := !fails }
  else
    { s with undisturbed := !fails }

def step (sql : SqlAnswers InstanceTable.sqlTable) (s : InstanceMonitor) :
    InstanceEvent → Outcome InstanceMonitor
  | .tick => return { s with clock := s.clock + 1 }
  | .write instanceName algorithm csvfile =>
    let r : InstanceRow := ⟨instanceName, algorithm, csvfile, s.clock⟩
    return { s with table := s.table.write r, written := s.written ++ [r], undisturbed := false }
  | .delete instanceName =>
    return { s with table := s.table.delete instanceName, undisturbed := false }
  | .writeFile path text =>
    return { s with files := s.files.write (path, text), texts := s.texts ++ [(path, text)] }
  | .deleteFile path => return { s with files := s.files.delete path }
  | .queryTimeStamp fails => Outcome.guard (s.pc = .polling) (return s.queryTimeStamp fails)
  | .readList fails =>
    Outcome.guard (s.pc = .listing) <|
      return { s with pc := .extracting (InstanceTable.sqlReadList s.table fails) [] }
  | .queryFile fails =>
    match s.pc with
    | .extracting (curInstanceName :: idList) instanceList =>
      if curInstanceName.isEmpty then
        return { s with pc := .extracting idList instanceList }
      else
        let csvFileName := InstanceTable.queryFile sql s.table curInstanceName fails
        return { s with pc := .opening curInstanceName csvFileName idList instanceList }
    | _ => .error .disabled
  | .openFile =>
    match s.pc with
    | .opening curInstanceName csvFileName idList instanceList =>
      match getInstanceFileData s.files csvFileName with
      | none => return { s with
          pc := .extracting idList instanceList, skipped := s.skipped ++ [curInstanceName] }
      | some resultData => return { s with
          pc := .grading curInstanceName resultData idList instanceList }
    | _ => .error .disabled
  | .queryAlgorithm fails =>
    match s.pc with
    | .grading curInstanceName resultData idList instanceList => do
      let algoType ← InstanceTable.queryAlgorithm sql s.table curInstanceName fails
      let instanceStruct := ⟨curInstanceName, UInt8.ofInt algoType, some resultData⟩
      return { s with pc := .extracting idList (instanceList ++ [instanceStruct]) }
    | _ => .error .disabled
  | .update =>
    match s.pc with
    | .extracting [] instanceList => do
      let templates ← s.templates.update instanceList
      return { s with templates, pc := .polling }
    | _ => .error .disabled

/-! ### What the monitor promises -/

/-- The template is registered, or there was a reason not to. -/
def Covered (s : InstanceMonitor) (name : String) : Prop :=
  name = "" ∨ name ∈ s.templates.names ∨ name ∈ s.skipped

/-- The extraction that is under way will come to the name, or has read it. -/
def Pending (s : InstanceMonitor) (name : String) : Prop :=
  s.pc = .listing ∨ name ∈ s.pc.names ∨ name ∈ templateNames s.pc.instanceList

/-- The file of a name: that of a row that was written for it, or what the directory itself gives
when there was no row. -/
def FileOf (s : InstanceMonitor) (name csvFileName : String) : Prop :=
  csvFileName = "" ∨ ∃ v ∈ s.written, v.instanceName = name ∧ v.csvfile = csvFileName

/-- The text was in the file of a name. -/
def DataOf (s : InstanceMonitor) (name data : String) : Prop :=
  ∃ csvFileName text, s.FileOf name csvFileName ∧
    (TEMPLATE_FILE_DATA_DIR ++ csvFileName, text) ∈ s.texts ∧ data = fileData text

/-- The algorithm is that of a row that was written for the template, and the data were in the file
of one, maybe another. -/
def Sourced (s : InstanceMonitor) (i : UserDataTemplateStruct) : Prop :=
  (∃ v ∈ s.written, v.instanceName = i.templateName ∧ i.algoType = UInt8.ofInt v.algorithm) ∧
    ∃ data, i.data = some data ∧ s.DataOf i.templateName data

/-- All queries but those of the time stamp are answered, and the names written are plain. -/
def Answered : InstanceEvent → Prop
  | .write instanceName _ _ => InstanceTable.Plain instanceName
  | .readList fails | .queryFile fails | .queryAlgorithm fails => fails = false
  | _ => True

instance : DecidablePred Answered
  | .write _ _ _ | .readList _ | .queryFile _ | .queryAlgorithm _ =>
    inferInstanceAs (Decidable (_ = _))
  | .tick | .delete _ | .writeFile _ _ | .deleteFile _ | .queryTimeStamp _ | .openFile
  | .update => isTrue trivial

/-- Nobody writes the table, and the time stamp is read. -/
def Quiet : InstanceEvent → Prop
  | .write _ _ _ | .delete _ => False
  | .queryTimeStamp fails => fails = false
  | _ => True

instance : DecidablePred Quiet
  | .write _ _ _ | .delete _ => isFalse id
  | .queryTimeStamp _ => inferInstanceAs (Decidable (_ = _))
  | .tick | .writeFile _ _ | .deleteFile _ | .readList _ | .queryFile _ | .openFile
  | .queryAlgorithm _ | .update => isTrue trivial

instance (s : InstanceMonitor) (name : String) : Decidable (s.Covered name) :=
  inferInstanceAs (Decidable (_ ∨ _))

/-! ### What was written stays on record -/

variable {s s' : InstanceMonitor} {name data csvFileName : String} {i : UserDataTemplateStruct}

lemma FileOf.mono (h : s.FileOf name csvFileName) (hwritten : s.written ⊆ s'.written) :
    s'.FileOf name csvFileName := by
  rcases h with hempty | ⟨v, hv, hname, hfile⟩
  · exact .inl hempty
  · exact .inr ⟨v, hwritten hv, hname, hfile⟩

lemma DataOf.mono (h : s.DataOf name data) (hwritten : s.written ⊆ s'.written)
    (htexts : s.texts ⊆ s'.texts) : s'.DataOf name data := by
  obtain ⟨csvFileName, text, hfile, htext, hdata⟩ := h
  exact ⟨csvFileName, text, hfile.mono hwritten, htexts htext, hdata⟩

lemma Sourced.mono (h : s.Sourced i) (hwritten : s.written ⊆ s'.written)
    (htexts : s.texts ⊆ s'.texts) : s'.Sourced i := by
  obtain ⟨⟨v, hv, hname, halgo⟩, data, hdata, hof⟩ := h
  exact ⟨⟨v, hwritten hv, hname, halgo⟩, data, hdata, hof.mono hwritten htexts⟩

/-- The parts of the invariant that the extraction rests on. -/
structure Extracts (s : InstanceMonitor) : Prop where
  stored : s.table.rows ⊆ s.written
  files : s.files.rows ⊆ s.texts
  sourced : ∀ i ∈ s.templates.registry.uDataTemplateList, s.Sourced i
  extracted : ∀ i ∈ s.pc.instanceList, s.Sourced i
  opened : ∀ name csvFileName idList instanceList,
    s.pc = .opening name csvFileName idList instanceList → s.FileOf name csvFileName
  read : ∀ name data idList instanceList,
    s.pc = .grading name data idList instanceList → s.DataOf name data
  kept : s.templates.Kept
  plain : ∀ r ∈ s.written, InstanceTable.Plain r.instanceName
  plainNames : ∀ name ∈ s.pc.names, InstanceTable.Plain name

/-- The invariant: time stamps go with the clock, and what is older than the one saved has been
extracted or will be. -/
structure Consistent (s : InstanceMonitor) : Prop extends Extracts s where
  past : ∀ r ∈ s.table.rows, r.timestamp ≤ s.clock
  saved : s.latestTimeStamp ≤ s.clock
  older : ∀ r ∈ s.table.rows, (r.timestamp : WithBot ℕ) < s.latestTimeStamp →
    s.Covered r.instanceName ∨ s.Pending r.instanceName
  newest : s.undisturbed = true → s.latestTimeStamp = InstanceTable.maxTimeStamp s.table false

namespace Extracts

/-- The table and the files are written: the thread stays where it is. -/
lemma written (h : s.Extracts) (hpc : s'.pc = s.pc) (htemplates : s'.templates = s.templates)
    (hwritten : s.written ⊆ s'.written) (htexts : s.texts ⊆ s'.texts)
    (hstored : s'.table.rows ⊆ s'.written) (hfiles : s'.files.rows ⊆ s'.texts)
    (hplain : ∀ r ∈ s'.written, InstanceTable.Plain r.instanceName) : s'.Extracts where
  stored := hstored
  files := hfiles
  sourced := by
    rw [htemplates]
    exact fun i hi => (h.sourced i hi).mono hwritten htexts
  extracted := by
    rw [hpc]
    exact fun i hi => (h.extracted i hi).mono hwritten htexts
  opened := by
    intro name csvFileName idList instanceList hopening
    exact (h.opened _ _ _ _ (hpc.symm.trans hopening)).mono hwritten
  read := by
    intro name data idList instanceList hgrading
    exact (h.read _ _ _ _ (hpc.symm.trans hgrading)).mono hwritten htexts
  kept := by
    rw [htemplates]
    exact h.kept
  plain := hplain
  plainNames := by
    rw [hpc]
    exact h.plainNames

/-- The thread goes on. -/
lemma moved (h : s.Extracts) {pc : InstancePc} {latestTimeStamp : WithBot ℕ}
    {skipped : List String} {undisturbed : Bool}
    (hextracted : ∀ i ∈ pc.instanceList, s.Sourced i)
    (hopened : ∀ name csvFileName idList instanceList,
      pc = .opening name csvFileName idList instanceList → s.FileOf name csvFileName)
    (hread : ∀ name data idList instanceList,
      pc = .grading name data idList instanceList → s.DataOf name data)
    (hnames : ∀ name ∈ pc.names, InstanceTable.Plain name) :
    Extracts { s with pc, latestTimeStamp, skipped, undisturbed } where
  stored := h.stored
  files := h.files
  sourced := h.sourced
  extracted := hextracted
  opened := hopened
  read := hread
  kept := h.kept
  plain := h.plain
  plainNames := hnames

/-- The thread comes to the head of the loop. -/
lemma toLoop (h : s.Extracts) {idList : List String} {instanceList : List UserDataTemplateStruct}
    {skipped : List String} (hextracted : ∀ i ∈ instanceList, s.Sourced i)
    (hnames : ∀ name ∈ idList, InstanceTable.Plain name) :
    Extracts { s with pc := .extracting idList instanceList, skipped } := by
  refine h.moved hextracted ?_ ?_ hnames
  · intro _ _ _ _ heq
    cases heq
  · intro _ _ _ _ heq
    cases heq

lemma extracted_of_pc (h : s.Extracts) {pc : InstancePc} (hpc : s.pc = pc) :
    ∀ i ∈ pc.instanceList, s.Sourced i := by
  rw [← hpc]
  exact h.extracted

lemma plainNames_of_pc (h : s.Extracts) {pc : InstancePc} (hpc : s.pc = pc) :
    ∀ name ∈ pc.names, InstanceTable.Plain name := by
  rw [← hpc]
  exact h.plainNames

end Extracts

end InstanceMonitor

end ServerUnit
