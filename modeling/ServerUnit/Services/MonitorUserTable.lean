import ServerUnit.Lib.Machine
import ServerUnit.Services.FileLog

/-!
# The monitor of the user table (`services/monitor_user_table.cpp`)

A poll is two queries: the largest time stamp, and, when that is not the one saved, the rows
after the saved one. Rows may be inserted and the clock may go on between any two queries. The
sinks are taken not to be full, so that every round of the loop polls.
-/

namespace ServerUnit

open Lib

/-- Where the loop of `monitorUserTable` stands. -/
inductive MonitorPc where
  /-- About to query the largest time stamp, or sleeping. -/
  | polling
  /-- About to query the rows after the time stamp. -/
  | querying (savedTimeStamp : WithBot ℕ)
  deriving DecidableEq

/-- The monitor with its table. `passed` has the names passed to the extractor, oldest first;
`undisturbed` says that there was a poll and that no row was inserted since its first query. -/
structure Monitor where
  table : FileLog
  clock : ℕ
  latestTimeStamp : WithBot ℕ
  pc : MonitorPc
  passed : List String
  undisturbed : Bool

inductive MonitorEvent where
  | tick
  | insert (fileName aliasName instanceName : String) (priority : ℤ)
  | queryTimeStamp
  | queryTableName
  deriving DecidableEq

namespace Monitor

/-- An empty table, and `latestTimeStamp` as the source sets it first. -/
def init (clock latestTimeStamp : ℕ) : Monitor :=
  { table := .empty, clock, latestTimeStamp, pc := .polling, passed := [], undisturbed := false }

def step (s : Monitor) : MonitorEvent → Outcome Monitor
  | .tick => return { s with clock := s.clock + 1 }
  | .insert fileName aliasName instanceName priority => do
    let table ← s.table.insert ⟨fileName, aliasName, instanceName, priority, s.clock⟩
    return { s with table, undisturbed := false }
  | .queryTimeStamp =>
    Outcome.guard (s.pc = .polling) <|
      let currentTimeStamp := s.table.maxTimeStamp
      if currentTimeStamp ≠ s.latestTimeStamp then
        return { s with
          pc := .querying s.latestTimeStamp
          latestTimeStamp := currentTimeStamp
          undisturbed := true }
      else
        return { s with undisturbed := true }
  | .queryTableName =>
    match s.pc with
    | .polling => .error .disabled
    | .querying savedTimeStamp =>
      return { s with
        pc := .polling
        passed := s.passed ++ s.table.newFileNames savedTimeStamp s.clock }

/-- No name is passed twice, and after a poll that was not disturbed all have been passed. -/
def ExtractedOnce (s : Monitor) : Prop :=
  s.passed.Nodup ∧ (s.pc = .polling → s.undisturbed = true →
    ∀ r ∈ s.table.rows, r.fileName ∈ s.passed)

/-- Between two polls a row is inserted later than the time stamp that was read last; between
the queries of one, not later. -/
def InTime (s : Monitor) : MonitorEvent → Prop
  | .insert _ _ _ _ => (s.pc = .polling → s.latestTimeStamp < s.clock) ∧
      (s.pc ≠ .polling → (s.clock : WithBot ℕ) ≤ s.latestTimeStamp)
  | _ => True

/-! ### The invariant -/

/-- The time stamp up to which all rows have been passed. -/
def savedTimeStamp (s : Monitor) : WithBot ℕ :=
  match s.pc with
  | .polling => s.latestTimeStamp
  | .querying saved => saved

/-- The names of the rows up to a time stamp. -/
def namesUpTo (t : FileLog) (timeStamp : WithBot ℕ) : List String :=
  (t.rows.filter fun r => r.timestamp ≤ timeStamp).map (·.fileName)

/-- Exactly the rows up to the saved time stamp have been passed. -/
structure Consistent (s : Monitor) : Prop where
  past : ∀ r ∈ s.table.rows, r.timestamp ≤ s.clock
  passed : s.passed.Perm (namesUpTo s.table s.savedTimeStamp)
  /-- The saved time stamp is the initial one, or it was read from the table. -/
  saved : (∀ r ∈ s.table.rows, s.savedTimeStamp < r.timestamp) ∨
    s.savedTimeStamp ≤ s.table.maxTimeStamp
  latest : ∀ saved, s.pc = .querying saved → s.latestTimeStamp = s.table.maxTimeStamp ∧
    (saved < s.latestTimeStamp ∨ s.table.rows = [])
  undisturbed : s.undisturbed = true → s.table.maxTimeStamp ≤ s.latestTimeStamp

variable {s s' : Monitor} {t t' : FileLog} {r : FileLogRow} {timeStamp : WithBot ℕ}

lemma namesUpTo_insert (h : t'.rows = t.rows ++ [r]) (hr : timeStamp < r.timestamp) :
    namesUpTo t' timeStamp = namesUpTo t timeStamp := by
  rw [namesUpTo, h, List.filter_append, List.filter_cons_of_neg (by simpa using hr),
    List.filter_nil, List.append_nil, namesUpTo]

lemma namesUpTo_of_le (h : ∀ r ∈ t.rows, (r.timestamp : WithBot ℕ) ≤ timeStamp) :
    namesUpTo t timeStamp = t.rows.map (·.fileName) := by
  rw [namesUpTo, List.filter_eq_self.mpr]
  exact fun r hr => decide_eq_true (h r hr)

/-- The rows up to a time stamp and the rows after it are all rows. -/
lemma namesUpTo_append_newFileNames {now : ℕ} (hpast : ∀ r ∈ t.rows, r.timestamp ≤ now) :
    (namesUpTo t timeStamp ++ t.newFileNames timeStamp now).Perm (t.rows.map (·.fileName)) := by
  have hnew : t.newRows timeStamp now =
      t.rows.filter fun r => !decide ((r.timestamp : WithBot ℕ) ≤ timeStamp) := by
    apply List.filter_congr
    intro r hr
    simp [hpast r hr, ← not_le]
  rw [namesUpTo, FileLog.newFileNames, hnew, ← List.map_append]
  exact (List.filter_append_perm _ t.rows).map _

namespace Consistent

lemma init (clock latestTimeStamp : ℕ) : (init clock latestTimeStamp).Consistent := by
  refine ⟨?_, ?_, .inl ?_, ?_, ?_⟩ <;> simp [Monitor.init, FileLog.empty, namesUpTo]

/-- A row is inserted in time. -/
lemma insert (h : s.Consistent) {table : FileLog} (hr : r.timestamp = s.clock)
    (hsaved : s.savedTimeStamp < s.clock)
    (hlatest : ∀ saved, s.pc = .querying saved → (s.clock : WithBot ℕ) ≤ s.latestTimeStamp)
    (htable : table.rows = s.table.rows ++ [r]) :
    Consistent { s with table, undisturbed := false } := by
  have hmax := FileLog.maxTimeStamp_insert htable
  refine ⟨?_, ?_, ?_, ?_, fun hfalse => by cases hfalse⟩
  · intro a ha
    rw [htable, List.mem_append, List.mem_singleton] at ha
    rcases ha with ha | rfl
    · exact h.past a ha
    · exact hr.le
  · have hsame : namesUpTo table s.savedTimeStamp = namesUpTo s.table s.savedTimeStamp :=
      namesUpTo_insert htable (by rwa [hr])
    exact h.passed.trans (List.Perm.of_eq hsame.symm)
  · rcases h.saved with hall | hle
    · left
      intro a ha
      rw [htable, List.mem_append, List.mem_singleton] at ha
      rcases ha with ha | rfl
      · exact hall a ha
      · rw [hr]
        exact hsaved
    · right
      rw [hmax]
      exact hle.trans (le_max_left _ _)
  · intro saved hquerying
    have hpc : s.pc = .querying saved := hquerying
    obtain ⟨heq, hlt⟩ := h.latest saved hpc
    have hclock := hlatest saved hpc
    refine ⟨?_, .inl ?_⟩
    · rw [hmax, ← heq, hr]
      exact (max_eq_left hclock).symm
    · have hsame : s.savedTimeStamp = saved := by simp [savedTimeStamp, hpc]
      rw [← hsame]
      exact hsaved.trans_le hclock

/-- The time stamp that is saved when it differs from the largest one is an earlier one. -/
lemma savedTimeStamp_lt (h : s.Consistent) (hne : s.table.maxTimeStamp ≠ s.savedTimeStamp) :
    s.savedTimeStamp < s.table.maxTimeStamp ∨ s.table.rows = [] := by
  rcases h.saved with hall | hle
  · cases hrows : s.table.rows with
    | nil => exact .inr rfl
    | cons r rows =>
      have hr : r ∈ s.table.rows := by simp [hrows]
      exact .inl ((hall r hr).trans_le (FileLog.le_maxTimeStamp hr))
  · exact .inl (lt_of_le_of_ne hle hne.symm)

lemma maxTimeStamp_le_clock (h : s.Consistent) : s.table.maxTimeStamp ≤ s.clock :=
  FileLog.maxTimeStamp_le fun r hr => WithBot.coe_le_coe.mpr (h.past r hr)

/-- A row that is inserted in time is later than the saved time stamp. -/
lemma savedTimeStamp_lt_clock (h : s.Consistent) {fileName aliasName instanceName : String}
    {priority : ℤ} (he : s.InTime (.insert fileName aliasName instanceName priority)) :
    s.savedTimeStamp < s.clock := by
  cases hpc : s.pc with
  | polling =>
    have hlt := he.1 hpc
    simpa [savedTimeStamp, hpc] using hlt
  | querying saved =>
    have hle := he.2 (by rw [hpc]; simp)
    obtain ⟨heq, hlt⟩ := h.latest saved hpc
    simp only [savedTimeStamp, hpc]
    rcases hlt with hlt | hnil
    · exact hlt.trans_le (heq.le.trans h.maxTimeStamp_le_clock)
    · -- an empty table has no time stamp that an insertion could share
      have hbot : s.latestTimeStamp = ⊥ := by
        rw [heq, FileLog.maxTimeStamp, hnil]
        rfl
      rw [hbot, le_bot_iff] at hle
      exact absurd hle WithBot.coe_ne_bot

/-- A poll reads the largest time stamp, and saves the one before. -/
lemma queryTimeStamp (h : s.Consistent) (hs : s.step .queryTimeStamp = .ok s') :
    s'.Consistent := by
  simp only [Monitor.step, Outcome.guard_eq_ok] at hs
  obtain ⟨hpc, hs⟩ := hs
  have hsaved : s.savedTimeStamp = s.latestTimeStamp := by simp [savedTimeStamp, hpc]
  split_ifs at hs with hne
  · cases hs
    refine ⟨h.past, ?_, ?_, ?_, fun _ => le_rfl⟩
    · have hpassed := h.passed
      rwa [hsaved] at hpassed
    · have hprev := h.saved
      rwa [hsaved] at hprev
    · intro saved hq
      cases hq
      have hlt := h.savedTimeStamp_lt (by rwa [hsaved])
      rw [hsaved] at hlt
      exact ⟨rfl, hlt⟩
  · cases hs
    exact ⟨h.past, h.passed, h.saved, h.latest, fun _ => (not_not.mp hne).le⟩

/-- The names up to the saved time stamp and those after it are all names. -/
lemma queryTableName (h : s.Consistent) (hs : s.step .queryTableName = .ok s') :
    s'.Consistent := by
  simp only [Monitor.step] at hs
  split at hs
  · cases hs
  next saved hpc =>
    cases hs
    obtain ⟨heq, -⟩ := h.latest saved hpc
    have hsaved : s.savedTimeStamp = saved := by simp [savedTimeStamp, hpc]
    have hpassed := h.passed
    rw [hsaved] at hpassed
    refine ⟨h.past, ?_, .inr heq.le, fun _ hq => (by cases hq), h.undisturbed⟩
    have hall : namesUpTo s.table s.latestTimeStamp = s.table.rows.map (·.fileName) := by
      rw [heq]
      exact namesUpTo_of_le fun r hr => FileLog.le_maxTimeStamp hr
    have hnames := (hpassed.append_right _).trans (namesUpTo_append_newFileNames h.past)
    exact hnames.trans (List.Perm.of_eq hall.symm)

lemma step (h : s.Consistent) {e : MonitorEvent} (he : s.InTime e) (hs : s.step e = .ok s') :
    s'.Consistent := by
  cases e with
  | tick =>
    cases hs
    exact ⟨fun r hr => (h.past r hr).trans (Nat.le_succ _), h.passed, h.saved, h.latest,
      h.undisturbed⟩
  | insert fileName aliasName instanceName priority =>
    simp only [Monitor.step, Outcome.bind_eq_ok, FileLog.insert_eq_ok] at hs
    obtain ⟨table, ⟨-, htable⟩, hs⟩ := hs
    cases hs
    have hsaved := h.savedTimeStamp_lt_clock he
    apply h.insert rfl hsaved ?_ htable
    intro saved hq
    exact he.2 (by rw [hq]; simp)
  | queryTimeStamp => exact h.queryTimeStamp hs
  | queryTableName => exact h.queryTableName hs

lemma extractedOnce (h : s.Consistent) : s.ExtractedOnce := by
  constructor
  · rw [h.passed.nodup_iff]
    exact s.table.primaryKey.sublist (List.filter_sublist.map _)
  · intro hpc hundisturbed r hr
    have hle := (FileLog.le_maxTimeStamp hr).trans (h.undisturbed hundisturbed)
    have hsaved : s.savedTimeStamp = s.latestTimeStamp := by simp [savedTimeStamp, hpc]
    rw [h.passed.mem_iff, hsaved]
    exact List.mem_map_of_mem (List.mem_filter.mpr ⟨hr, decide_eq_true hle⟩)

end Consistent

/-- As long as rows are inserted in time, each is extracted once. -/
theorem run_extractedOnce {clock latestTimeStamp : ℕ} {es : List MonitorEvent}
    (hintime : Meets Monitor.step InTime (Monitor.init clock latestTimeStamp) es)
    (h : run Monitor.step (Monitor.init clock latestTimeStamp) es = .ok s) : s.ExtractedOnce := by
  have hconsistent : s.Consistent :=
    run_induct (fun _ _ _ hI hC hs => Consistent.step hI hC hs) (Consistent.init _ _) hintime h
  exact hconsistent.extractedOnce

instance (s : Monitor) : ∀ e, Decidable (s.InTime e)
  | .insert _ _ _ _ => inferInstanceAs (Decidable (_ ∧ _))
  | .tick | .queryTimeStamp | .queryTableName => isTrue trivial

/-- A row is inserted before the first poll, one between two polls and one in the second in
which a poll read the time stamp. -/
theorem run_extractedOnce_inTime : ∃ s, run Monitor.step (Monitor.init 1 0)
      [.insert "a" "A" "T" 0, .queryTimeStamp, .insert "b" "B" "T" 0, .queryTableName, .tick,
       .insert "c" "C" "T" 0, .queryTimeStamp, .tick, .queryTableName] = .ok s ∧
    s.ExtractedOnce :=
  Outcome.exists_ok_and (by decide) fun _ hs => run_extractedOnce (by decide) hs

instance (s : Monitor) : Decidable s.ExtractedOnce := inferInstanceAs (Decidable (_ ∧ _))

/-- A row that is inserted between the two queries of a poll, in a later second than the time
stamp that was read, is extracted by this poll and by the next. One that is inserted after a
poll, in the second of the last row, is never extracted. -/
theorem run_not_extractedOnce :
    (∃ s, run Monitor.step (Monitor.init 1 0)
      [.insert "a" "A" "T" 0, .queryTimeStamp, .tick, .insert "b" "B" "T" 0, .queryTableName,
       .queryTimeStamp, .queryTableName] = .ok s ∧ s.passed = ["a", "b", "b"] ∧
      ¬ s.ExtractedOnce) ∧
    ∃ s, run Monitor.step (Monitor.init 1 0)
      [.insert "a" "A" "T" 0, .queryTimeStamp, .queryTableName, .insert "b" "B" "T" 0,
       .queryTimeStamp] = .ok s ∧ s.passed = ["a"] ∧ ¬ s.ExtractedOnce :=
  ⟨Outcome.exists_ok_of_eval (by decide), Outcome.exists_ok_of_eval (by decide)⟩

/-! ### The condition is exact -/

variable {fileName aliasName instanceName : String} {priority : ℤ} {table : FileLog}

/-- A row that is not later than the time stamp read last is not looked for: the next poll reads
the same time stamp. -/
lemma Consistent.poll_misses (h : s.Consistent)
    (hlater : s.table.rows = [] → s.savedTimeStamp < s.clock) (hpc : s.pc = .polling)
    (hle : (s.clock : WithBot ℕ) ≤ s.latestTimeStamp) (hmax : table.maxTimeStamp = s.clock) :
    Monitor.step { s with table, undisturbed := false } .queryTimeStamp =
      .ok { s with table, undisturbed := true } := by
  have hsaved : s.savedTimeStamp = s.latestTimeStamp := by simp [savedTimeStamp, hpc]
  have heq : table.maxTimeStamp = s.latestTimeStamp := by
    rw [hmax]
    apply le_antisymm hle
    rw [← hsaved]
    rcases h.saved with hall | hread
    · cases hrows : s.table.rows with
      | nil => exact (hlater hrows).le
      | cons r rows =>
        have hr : r ∈ s.table.rows := by simp [hrows]
        exact ((hall r hr).trans_le (WithBot.coe_le_coe.mpr (h.past r hr))).le
    · exact hread.trans h.maxTimeStamp_le_clock
  simp only [Monitor.step, Outcome.guard, hpc, if_true, heq, ne_eq, not_true_eq_false, if_false]
  rfl

/-- A row that is later than the time stamp just read is passed by this poll, and the next one
reads its time stamp. -/
lemma polls_repeat {saved : WithBot ℕ} (hpc : s.pc = .querying saved)
    (hlt : s.latestTimeStamp < s.clock) (hmax : table.maxTimeStamp = s.clock) :
    run Monitor.step { s with table, undisturbed := false }
      [.queryTableName, .queryTimeStamp, .queryTableName] = .ok { s with
        table
        pc := .polling
        latestTimeStamp := s.clock
        passed := (s.passed ++ table.newFileNames saved s.clock) ++
          table.newFileNames s.latestTimeStamp s.clock
        undisturbed := true } := by
  have hfirst : Monitor.step { s with table, undisturbed := false } .queryTableName =
      .ok { s with
        table
        pc := .polling
        passed := s.passed ++ table.newFileNames saved s.clock
        undisturbed := false } := by
    simp only [Monitor.step, hpc]
    rfl
  have hne : (s.clock : WithBot ℕ) ≠ s.latestTimeStamp := hlt.ne'
  have hsecond : Monitor.step { s with
      table
      pc := .polling
      passed := s.passed ++ table.newFileNames saved s.clock
      undisturbed := false } .queryTimeStamp = .ok { s with
        table
        pc := .querying s.latestTimeStamp
        latestTimeStamp := s.clock
        passed := s.passed ++ table.newFileNames saved s.clock
        undisturbed := true } := by
    simp only [Monitor.step, Outcome.guard, if_true, hmax, if_pos hne]
    rfl
  rw [run_cons_eq_ok]
  exact ⟨_, hfirst, run_cons_eq_ok.mpr ⟨_, hsecond, run_cons_eq_ok.mpr ⟨_, rfl, rfl⟩⟩⟩

/-- When a row is not inserted in time, the polls that follow pass it twice or never. -/
theorem polls_not_extractedOnce (h : s.Consistent)
    (hlater : s.table.rows = [] → s.savedTimeStamp < s.clock)
    (hnot : ¬ s.InTime (.insert fileName aliasName instanceName priority))
    (hs : s.step (.insert fileName aliasName instanceName priority) = .ok s') :
    ∃ es t, (∀ e ∈ es, e = .queryTimeStamp ∨ e = .queryTableName) ∧
      run Monitor.step s' es = .ok t ∧ ¬ t.ExtractedOnce := by
  simp only [Monitor.step, Outcome.bind_eq_ok, FileLog.insert_eq_ok] at hs
  obtain ⟨table, ⟨hfresh, htable⟩, hs⟩ := hs
  cases hs
  have hmax : table.maxTimeStamp = s.clock := by
    rw [FileLog.maxTimeStamp_insert htable]
    exact max_eq_right h.maxTimeStamp_le_clock
  have hmem : ⟨fileName, aliasName, instanceName, priority, s.clock⟩ ∈ table.rows := by
    simp [htable]
  cases hpc : s.pc with
  | polling =>
    have hle : (s.clock : WithBot ℕ) ≤ s.latestTimeStamp := by
      by_contra hlt
      exact hnot ⟨fun _ => not_le.mp hlt, fun hne => absurd hpc hne⟩
    have hpassed : fileName ∉ s.passed := by
      rw [h.passed.mem_iff]
      intro hname
      obtain ⟨r, hr, hname⟩ := List.mem_map.mp hname
      exact hfresh (List.mem_map.mpr ⟨r, List.mem_of_mem_filter hr, hname⟩)
    have hpoll := h.poll_misses hlater hpc hle hmax
    rw [hpc] at hpoll
    refine ⟨[.queryTimeStamp], _, by simp, run_cons_eq_ok.mpr ⟨_, hpoll, rfl⟩, ?_⟩
    rintro ⟨-, hall⟩
    exact hpassed (hall rfl rfl _ hmem)
  | querying saved =>
    have hlt : s.latestTimeStamp < s.clock := by
      by_contra hle
      refine hnot ⟨fun hpolling => ?_, fun _ => not_lt.mp hle⟩
      rw [hpc] at hpolling
      cases hpolling
    have hsaved : saved < s.clock := by
      obtain ⟨-, hbefore | hnil⟩ := h.latest saved hpc
      · exact hbefore.trans hlt
      · simpa [savedTimeStamp, hpc] using hlater hnil
    have hnew : ∀ timeStamp : WithBot ℕ, timeStamp < s.clock →
        fileName ∈ table.newFileNames timeStamp s.clock := by
      intro timeStamp hts
      exact List.mem_map.mpr ⟨_, List.mem_filter.mpr ⟨hmem, decide_eq_true ⟨hts, le_rfl⟩⟩, rfl⟩
    have hpolls := polls_repeat hpc hlt hmax
    rw [hpc] at hpolls
    refine ⟨_, _, ?_, hpolls, ?_⟩
    · simp
    · rintro ⟨hnodup, -⟩
      exact List.disjoint_of_nodup_append hnodup
        (List.mem_append_right _ (hnew saved hsaved)) (hnew _ hlt)

end Monitor

end ServerUnit
