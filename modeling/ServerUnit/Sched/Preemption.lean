import ServerUnit.Sched.Handover

/-!
# The slice of a job (`sched/task_scheduler.cpp`)

`init_timer` starts a thread that sleeps for the slice of a job and then writes `jobShouldPause`,
which `thread_task` reads at each round of its loop over the job. But `start_job_timer` writes the
value that is there already: it is the results of `start_proc` alone that end a visit.
-/

namespace ServerUnit

open Lib

/-- What a job's procedures return in one visit: `start_proc` call by call, and `end_proc`. -/
structure JobResults where
  startProc : ℕ → JobStatus
  endProc : JobStatus

/-- A visit of the thread to the job of a slot. A call of `start_proc` begins and returns in two
steps, as the timer may finish in between. The last three fields are histories: how many calls
have begun, and whether `end_proc` and `pause_proc` were called. -/
structure Visit (τ : Type) where
  core : Handover τ
  underWay : Bool
  begun : ℕ
  ended : Bool
  paused : Bool

namespace Visit

variable {τ : Type}

def start (x : Handover τ) : Visit τ := ⟨x, false, 0, false, false⟩

/-- The thread's next statement, as long as it has not come to the next slot. -/
def thread (ρ : JobResults) (v : Visit τ) : Outcome (Visit τ) :=
  match v.core.thread.pc with
  | .testSlot => .error .disabled
  | .startProc =>
    if v.underWay then do
      let core ← v.core.threadStep (ρ.startProc (v.begun - 1))
      return { v with core, underWay := false }
    else do
      let _ ← v.core.readJob
      return { v with underWay := true, begun := v.begun + 1 }
  | .endProc => do
    let core ← v.core.threadStep ρ.endProc
    return { v with core, ended := true }
  | .pauseProc => do
    let core ← v.core.threadStep ρ.endProc
    return { v with core, paused := true }
  | _ => do
    let core ← v.core.threadStep ρ.endProc
    return { v with core }

/-- The timer thread finishes `start_job_timer`. -/
def fire (v : Visit τ) : Visit τ :=
  { v with core := { v.core with thread :=
    { v.core.thread with timer := startJobTimer v.core.thread.timer } } }

/-- Nothing but the thread takes steps. -/
def step (ρ : JobResults) (v : Visit τ) (_ : Unit) : Outcome (Visit τ) := v.thread ρ

/-- `n` statements of the thread. -/
def steps (ρ : JobResults) (n : ℕ) (v : Visit τ) : Outcome (Visit τ) :=
  run (step ρ) v (List.replicate n ())

/-- The job is not over, and `end_proc` was not called for it. -/
def Pending (v : Visit τ) : Prop :=
  v.ended = false ∧ ∃ r job, v.core.readJob = .ok (r, job) ∧ job.jobStatus.isOver = false

/-- The thread has gone on to the slot after that of `x`, and has paused a job still pending. -/
structure Left (x : Handover τ) (v : Visit τ) : Prop where
  pc : v.core.thread.pc = .testSlot
  head : v.core.thread.head = x.thread.head + 1
  paused : v.Pending → v.paused = true

/-- From here on, the thread calls `start_proc` at most once more before it leaves the job. -/
def LeavesSoon (ρ : JobResults) (x : Handover τ) (v : Visit τ) : Prop :=
  ∃ n u, v.steps ρ n = .ok u ∧ u.Left x ∧ u.begun ≤ v.begun + 1

variable {x : Handover τ} {v v' : Visit τ} {ρ : JobResults}

/-- A step is one of the thread, or begins a call. -/
lemma core_of_thread (h : v.thread ρ = .ok v') :
    v'.core = v.core ∨ ∃ status, v.core.step (.thread status) = .ok v'.core := by
  cases hpc : v.core.thread.pc with
  | testSlot =>
    simp only [Visit.thread, hpc] at h
    cases h
  | startProc =>
    simp only [Visit.thread, hpc] at h
    split_ifs at h with hway
    · simp only [Outcome.bind_eq_ok, Outcome.pure_eq_ok] at h
      obtain ⟨core, hcore, rfl⟩ := h
      exact .inr ⟨_, hcore⟩
    · simp only [Outcome.bind_eq_ok, Outcome.pure_eq_ok] at h
      obtain ⟨-, -, rfl⟩ := h
      exact .inl rfl
  | _ =>
    simp only [Visit.thread, hpc, Outcome.bind_eq_ok, Outcome.pure_eq_ok] at h
    obtain ⟨core, hcore, rfl⟩ := h
    exact .inr ⟨_, hcore⟩

/-- A visit is a run of the thread. -/
theorem exists_run_core {n : ℕ} (h : (start x).steps ρ n = .ok v) :
    ∃ es, run Handover.step x es = .ok v.core := by
  refine run_invariant (I := fun v => ∃ es, run Handover.step x es = .ok v.core) ?_ ⟨[], rfl⟩ h
  rintro v _ v' ⟨es, hrun⟩ hstep
  rcases core_of_thread hstep with heq | ⟨status, hcore⟩
  · exact ⟨es, heq ▸ hrun⟩
  · exact ⟨es ++ [.thread status],
      run_append_eq_ok.mpr ⟨v.core, hrun, run_cons_eq_ok.mpr ⟨v'.core, hcore, rfl⟩⟩⟩

end Visit

/-! ### A visit without the flag -/

/-- What a visit depends on as long as the flag is not set. -/
structure Turn where
  pc : IterationPc
  status : JobStatus
  underWay : Bool
  begun : ℕ
  ended : Bool

namespace Turn

def next (ρ : JobResults) (t : Turn) : Turn :=
  match t.pc with
  | .initTimer => { t with pc := .testTimer }
  | .testTimer => { t with pc := .testStatus }
  | .testStatus => { t with pc := if t.status.isOver then .endProc else .startProc }
  | .endProc => { t with pc := .setDone, status := ρ.endProc, ended := true }
  | .setDone => { t with pc := .decrement }
  | .decrement => { t with pc := .signal }
  | .signal | .setErrorHandle => { t with pc := .testPause }
  | .startProc =>
    if t.underWay then
      { t with pc := .testDone, status := ρ.startProc (t.begun - 1), underWay := false }
    else { t with underWay := true, begun := t.begun + 1 }
  | .testDone => { t with pc := if t.status = .jobDone then .testPause else .testFailed }
  | .testFailed => { t with pc := if t.status = .jobFailed then .setErrorHandle else .testTimer }
  | .testPause => { t with pc := .advance }
  | .advance => { t with pc := .testSlot }
  | .testSlot | .readHead | .pauseProc => t

/-- The last call of `start_proc` that began leaves the job over. -/
def LastOver (ρ : JobResults) (t : Turn) : Prop :=
  0 < t.begun ∧ (ρ.startProc (t.begun - 1)).isOver = true

/-- What holds at each statement of a visit; `wasOver` says that the job was over at its start. -/
def At (wasOver : Bool) (ρ : JobResults) (t : Turn) : IterationPc → Prop
  | .initTimer | .testTimer | .testStatus =>
    t.underWay = false ∧ t.status.isOver = wasOver ∧ ¬ t.LastOver ρ
  | .startProc => wasOver = false ∧ if t.underWay then 0 < t.begun else ¬ t.LastOver ρ
  | .endProc => wasOver = true
  | .setDone | .decrement | .signal => wasOver = true ∧ t.ended = true
  | .testDone =>
    wasOver = false ∧ t.underWay = false ∧ 0 < t.begun ∧ t.status = ρ.startProc (t.begun - 1)
  | .testFailed =>
    wasOver = false ∧ t.underWay = false ∧ 0 < t.begun ∧ t.status = ρ.startProc (t.begun - 1) ∧
      t.status ≠ .jobDone
  | .setErrorHandle => t.LastOver ρ ∧ t.status.isOver = true
  | .testPause | .advance | .testSlot =>
    (wasOver = true ∨ t.LastOver ρ) ∧ (t.ended = true ∨ t.status.isOver = true)
  | .readHead | .pauseProc => False

structure Inv (wasOver : Bool) (ρ : JobResults) (t : Turn) : Prop where
  /-- The loop goes on only after a call that leaves the job pending. -/
  earlier : ∀ k, k + 1 < t.begun → (ρ.startProc k).isOver = false
  /-- A job that is over is not started. -/
  unstarted : wasOver = true → t.begun = 0
  here : t.At wasOver ρ t.pc

variable {wasOver : Bool} {ρ : JobResults} {t : Turn} {k : ℕ}

lemma Inv.goto (h : t.Inv wasOver ρ) {pc : IterationPc} (hpc : t.At wasOver ρ pc) :
    Inv wasOver ρ { t with pc } where
  __ := h
  here := by cases pc <;> exact hpc

lemma not_isOver {status : JobStatus} (hdone : status ≠ .jobDone) (hfailed : status ≠ .jobFailed) :
    status.isOver = false := by
  cases status <;> first | rfl | contradiction

/-- A call begins: the one before it, if there is one, is now among the earlier ones. -/
lemma Inv.begin (h : t.Inv wasOver ρ) (hover : wasOver = false) (hcalls : ¬ t.LastOver ρ) :
    Inv wasOver ρ { t with pc := .startProc, underWay := true, begun := t.begun + 1 } := by
  refine ⟨fun k hk => ?_, fun htrue => ?_, hover, t.begun.succ_pos⟩
  · rcases Nat.lt_or_eq_of_le (Nat.le_of_lt_succ hk) with hlt | heq
    · exact h.earlier k hlt
    · rw [Bool.eq_false_iff]
      intro hk
      exact hcalls ⟨by omega, by rwa [← heq]⟩
  · cases hover.symm.trans htrue

/-- One statement. -/
lemma Inv.next (h : t.Inv wasOver ρ) : (t.next ρ).Inv wasOver ρ := by
  have here := h.here
  generalize hpc : t.pc = pc at here
  cases pc with
  | initTimer | testTimer =>
    rw [Turn.next, hpc]
    exact h.goto here
  | testStatus =>
    obtain ⟨hway, hover, hlast⟩ := here
    rw [Turn.next, hpc]
    apply h.goto
    split_ifs with hstatus
    · exact hover.symm.trans hstatus
    · refine ⟨?_, ?_⟩
      · rw [← hover, Bool.eq_false_iff]
        exact hstatus
      · rw [hway]
        exact hlast
  | endProc =>
    rw [Turn.next, hpc]
    exact ⟨h.earlier, h.unstarted, here, rfl⟩
  | setDone | decrement =>
    rw [Turn.next, hpc]
    exact h.goto here
  | signal =>
    rw [Turn.next, hpc]
    exact h.goto ⟨.inl here.1, .inl here.2⟩
  | setErrorHandle =>
    rw [Turn.next, hpc]
    exact h.goto ⟨.inr here.1, .inr here.2⟩
  | startProc =>
    obtain ⟨hover, hcalls⟩ := here
    simp only [Turn.next, hpc]
    split_ifs with hway
    · rw [if_pos hway] at hcalls
      exact ⟨h.earlier, h.unstarted, hover, rfl, hcalls, rfl⟩
    · rw [if_neg hway] at hcalls
      exact h.begin hover hcalls
  | testDone =>
    obtain ⟨hover, hway, hbegun, hstatus⟩ := here
    rw [Turn.next, hpc]
    apply h.goto
    split_ifs with hdone
    · have hover : t.status.isOver = true := by
        rw [hdone]
        rfl
      exact ⟨.inr ⟨hbegun, hstatus ▸ hover⟩, .inr hover⟩
    · exact ⟨hover, hway, hbegun, hstatus, hdone⟩
  | testFailed =>
    obtain ⟨hover, hway, hbegun, hstatus, hdone⟩ := here
    rw [Turn.next, hpc]
    apply h.goto
    split_ifs with hfailed
    · have hover : t.status.isOver = true := by
        rw [hfailed]
        rfl
      exact ⟨⟨hbegun, hstatus ▸ hover⟩, hover⟩
    · have hpending := not_isOver hdone hfailed
      refine ⟨hway, hpending.trans hover.symm, fun hlast => ?_⟩
      cases hpending.symm.trans (hstatus ▸ hlast.2)
  | testPause | advance =>
    rw [Turn.next, hpc]
    exact h.goto here
  | testSlot | readHead | pauseProc =>
    rw [Turn.next, hpc]
    exact h

/-- How far the statement is from the end of the loop's last round. -/
def distance (t : Turn) : ℕ :=
  match t.pc with
  | .startProc => if t.underWay then 12 else 7
  | .testDone => 11
  | .testFailed | .initTimer => 10
  | .testTimer => 9
  | .testStatus => 8
  | .endProc => 6
  | .setDone => 5
  | .decrement => 4
  | .signal | .setErrorHandle => 3
  | .testPause => 2
  | .advance => 1
  | .testSlot | .readHead | .pauseProc => 0

/-- What every statement lowers, where the call `k` leaves the job over. -/
def remaining (k : ℕ) (t : Turn) : ℕ := 6 * (k + 1 - t.begun) + t.distance

/-- A call that leaves the job over is not followed by another. -/
lemma Inv.begun_le (h : t.Inv wasOver ρ) (hk : (ρ.startProc k).isOver = true) :
    t.begun ≤ k + 1 := by
  by_contra hlt
  cases (h.earlier k (by omega)).symm.trans hk

lemma Inv.remaining_next (h : t.Inv wasOver ρ) (hend : t.pc ≠ .testSlot)
    (hk : wasOver = true ∨ (ρ.startProc k).isOver = true) :
    (t.next ρ).remaining k < t.remaining k := by
  have here := h.here
  generalize hpc : t.pc = pc at here
  cases pc with
  | testSlot => exact absurd hpc hend
  | readHead | pauseProc => cases here
  | startProc =>
    obtain ⟨hover, hcalls⟩ := here
    by_cases hway : t.underWay = true
    · simp [Turn.next, remaining, distance, hpc, hway]
    · rw [if_neg hway] at hcalls
      -- one more call is to begin: the call `k` has not
      have hk : (ρ.startProc k).isOver = true := by
        rcases hk with htrue | hk
        · cases hover.symm.trans htrue
        · exact hk
      have hle := h.begun_le hk
      have hne : t.begun ≠ k + 1 := by
        intro heq
        refine hcalls ⟨by omega, ?_⟩
        rwa [heq, Nat.add_sub_cancel]
      simp only [Turn.next, remaining, distance, hpc, if_neg hway, if_true]
      omega
  | testStatus =>
    simp only [Turn.next, remaining, distance, hpc, here.1]
    split_ifs <;> first | contradiction | simp
  | testDone | testFailed =>
    simp only [Turn.next, remaining, distance, hpc]
    split_ifs <;> simp
  | _ => simp [Turn.next, remaining, distance, hpc]

end Turn

/-! ### The thread takes the turn -/

namespace Handover

variable {τ : Type} {x : Handover τ} {r : JobRef} {job : QueueJob τ}

lemma branch_of_readJob (h : x.readJob = .ok (r, job)) (pc : QueueJob τ → IterationPc) :
    x.branch pc = .ok (x.goto (pc job)) := by
  rw [branch, h]
  rfl

lemma callProc_of_readJob (h : x.readJob = .ok (r, job)) (status : JobStatus) (pc : IterationPc) :
    ∃ x', x.callProc status pc = .ok x' ∧ x'.thread = { x.thread with pc } ∧
      x'.readJob = .ok (r, { job with jobStatus := status }) := by
  obtain ⟨hr, hjob⟩ : x.thread.job = some r ∧ x.jobs.get r = some job := by
    simp only [readJob, Outcome.bind_eq_ok, Outcome.pure_eq_ok, Prod.mk.injEq] at h
    obtain ⟨r', hr', job', hjob', rfl, rfl⟩ := h
    exact ⟨Outcome.ofOption_eq_ok.mp hr', Heap.deref_eq_ok.mp hjob'⟩
  rw [callProc, h]
  refine ⟨_, rfl, rfl, ?_⟩
  simp only [readJob, goto, hr, Outcome.ofOption, Heap.deref, Heap.get_put_self hjob,
    Outcome.ok_bind]
  rfl

end Handover

namespace Visit

variable {τ : Type} {x : Handover τ} {v : Visit τ} {t : Turn} {ρ : JobResults} {wasOver : Bool}

/-- The visit that began in `x` is in the state `t`, and its flag is not set. -/
structure Shows (x : Handover τ) (v : Visit τ) (t : Turn) : Prop where
  pc : v.core.thread.pc = t.pc
  head : v.core.thread.head = if t.pc = .testSlot then x.thread.head + 1 else x.thread.head
  job : ∃ r job, v.core.readJob = .ok (r, job) ∧ job.jobStatus = t.status ∧
    job.proc.pauseProc = true
  timer : t.pc ≠ .initTimer → v.core.thread.timer.jobShouldPause = false
  underWay : v.underWay = t.underWay
  begun : v.begun = t.begun
  ended : v.ended = t.ended

/-- A statement after which only the thread has gone on. -/
lemma Shows.goto (h : v.Shows x t) (hinit : t.pc ≠ .initTimer) (hend : t.pc ≠ .testSlot)
    {pc : IterationPc} (hpc : pc ≠ .testSlot) :
    Shows x { v with core := v.core.goto pc } { t with pc } where
  __ := h
  pc := rfl
  head := by
    rw [if_neg hpc]
    exact h.head.trans (if_neg hend)
  timer _ := h.timer hinit

/-- A call that stores the status it returns. -/
lemma Shows.callProc (h : v.Shows x t) (hinit : t.pc ≠ .initTimer) (hend : t.pc ≠ .testSlot)
    (status : JobStatus) (pc : IterationPc) (hpc : pc ≠ .testSlot) :
    ∃ core, v.core.callProc status pc = .ok core ∧
      Shows x { v with core } { t with pc, status } := by
  obtain ⟨r, job, hjob, -, hproc⟩ := h.job
  obtain ⟨core, hcall, hthread, hread⟩ := Handover.callProc_of_readJob hjob status pc
  refine ⟨core, hcall, ?_, ?_, ⟨r, _, hread, rfl, hproc⟩, fun _ => ?_, h.underWay, h.begun,
    h.ended⟩
  · exact congrArg ThreadLocals.pc hthread
  · rw [if_neg hpc]
    exact (congrArg ThreadLocals.head hthread).trans (h.head.trans (if_neg hend))
  · exact (congrArg (fun l => l.timer.jobShouldPause) hthread).trans (h.timer hinit)

/-- The thread does what the turn does. -/
lemma Shows.thread (h : v.Shows x t) (hend : t.pc ≠ .testSlot) (hread : t.pc ≠ .readHead)
    (hpause : t.pc ≠ .pauseProc) : ∃ v', v.thread ρ = .ok v' ∧ v'.Shows x (t.next ρ) := by
  obtain ⟨r, job, hjob, hstatus, hproc⟩ := h.job
  have hpc := h.pc
  generalize ht : t.pc = pc at hpc
  cases pc with
  | testSlot => exact absurd ht hend
  | readHead => exact absurd ht hread
  | pauseProc => exact absurd ht hpause
  | initTimer =>
    simp only [Visit.thread, Handover.threadStep, hpc, hjob, Outcome.ok_bind, Turn.next, ht]
    refine ⟨_, rfl, rfl, ?_, ⟨r, job, hjob, hstatus, hproc⟩, fun _ => ?_, h.underWay, h.begun,
      h.ended⟩
    · exact h.head.trans (if_neg hend)
    · show (initTimer job).jobShouldPause = false
      rw [initTimer, if_pos hproc]
  | testTimer =>
    have hflag := h.timer (by simp [ht])
    simp only [Visit.thread, Handover.threadStep, hpc, hflag, Turn.next, ht]
    exact ⟨_, rfl, h.goto (by simp [ht]) hend (by simp)⟩
  | testStatus =>
    simp only [Visit.thread, Handover.threadStep, hpc, Handover.branch_of_readJob hjob, hstatus,
      Turn.next, ht]
    exact ⟨_, rfl, h.goto (by simp [ht]) hend (by split_ifs <;> simp)⟩
  | endProc =>
    obtain ⟨core, hcall, hshows⟩ :=
      h.callProc (by simp [ht]) hend ρ.endProc .setDone (by simp)
    simp only [Visit.thread, Handover.threadStep, hpc, hcall, Turn.next, ht]
    exact ⟨_, rfl, { hshows with ended := rfl }⟩
  | setDone | decrement =>
    simp only [Visit.thread, Handover.threadStep, hpc, Turn.next, ht]
    exact ⟨_, rfl, { h.goto (by simp [ht]) hend (by simp) with }⟩
  | signal =>
    simp only [Visit.thread, Handover.threadStep, hpc, Turn.next, ht]
    exact ⟨_, rfl, h.goto (by simp [ht]) hend (by simp)⟩
  | startProc =>
    have hway := h.underWay
    by_cases htrue : t.underWay = true
    · obtain ⟨core, hcall, hshows⟩ :=
        h.callProc (by simp [ht]) hend (ρ.startProc (v.begun - 1)) .testDone (by simp)
      simp only [Visit.thread, Handover.threadStep, hpc, if_pos (hway.trans htrue), hcall,
        Turn.next, ht, if_pos htrue, ← h.begun]
      exact ⟨_, rfl, { hshows with underWay := rfl, begun := rfl }⟩
    · simp only [Visit.thread, hpc, hway, if_neg htrue, hjob, Outcome.ok_bind, Turn.next, ht]
      refine ⟨_, rfl, hpc, ?_, ⟨r, job, hjob, hstatus, hproc⟩, fun _ => h.timer (by simp [ht]), rfl,
        congrArg (· + 1) h.begun, h.ended⟩
      rw [if_neg (by simp)]
      exact h.head.trans (if_neg hend)
  | testDone | testFailed =>
    simp only [Visit.thread, Handover.threadStep, hpc, Handover.branch_of_readJob hjob, hstatus,
      Turn.next, ht]
    exact ⟨_, rfl, h.goto (by simp [ht]) hend (by split_ifs <;> simp)⟩
  | setErrorHandle =>
    simp only [Visit.thread, Handover.threadStep, hpc, Handover.branch_of_readJob hjob, Turn.next,
      ht]
    exact ⟨_, rfl, h.goto (by simp [ht]) hend (by simp)⟩
  | testPause =>
    have hflag := h.timer (by simp [ht])
    simp only [Visit.thread, Handover.threadStep, hpc, Handover.branch_of_readJob hjob, hflag,
      Bool.and_false, Bool.false_eq_true, if_false, Turn.next, ht]
    exact ⟨_, rfl, h.goto (by simp [ht]) hend (by simp)⟩
  | advance =>
    simp only [Visit.thread, Handover.threadStep, hpc, Turn.next, ht]
    refine ⟨_, rfl, { h with pc := rfl, head := ?_, timer := fun _ => h.timer (by simp [ht]) }⟩
    rw [if_pos rfl]
    exact congrArg (· + 1) (h.head.trans (if_neg hend))

/-! ### All visits -/

/-- What holds all along a visit of the job that is at hand in `x`. -/
def Inv (x : Handover τ) (wasOver : Bool) (ρ : JobResults) (v : Visit τ) : Prop :=
  ∃ t : Turn, v.Shows x t ∧ t.Inv wasOver ρ

lemma Inv.exists_thread (hs : v.Shows x t) (ht : t.Inv wasOver ρ) (hend : t.pc ≠ .testSlot) :
    ∃ v', v.thread ρ = .ok v' ∧ v'.Shows x (t.next ρ) := by
  have here := ht.here
  apply hs.thread hend
  · intro hpc
    rwa [hpc] at here
  · intro hpc
    rwa [hpc] at here

lemma Inv.thread {v' : Visit τ} (h : v.Inv x wasOver ρ) (hstep : v.thread ρ = .ok v') :
    v'.Inv x wasOver ρ := by
  obtain ⟨t, hs, ht⟩ := h
  have hend : t.pc ≠ .testSlot := by
    intro hend
    simp only [Visit.thread, hs.pc.trans hend] at hstep
    cases hstep
  obtain ⟨v'', hstep', hs'⟩ := exists_thread hs ht hend
  cases hstep'.symm.trans hstep
  exact ⟨t.next ρ, hs', ht.next⟩

lemma Inv.steps {n : ℕ} {v' : Visit τ} (h : v.Inv x wasOver ρ) (hrun : v.steps ρ n = .ok v') :
    v'.Inv x wasOver ρ :=
  run_invariant (I := fun v => v.Inv x wasOver ρ) (fun _ _ _ hI hstep => hI.thread hstep) h hrun

/-- The timer writes the value that the flag has. -/
lemma Inv.fire (h : v.Inv x wasOver ρ) : v.fire.Inv x wasOver ρ := by
  obtain ⟨t, hs, ht⟩ := h
  exact ⟨t, { hs with timer := fun _ => rfl }, ht⟩

lemma inv_start {r : JobRef} {job : QueueJob τ} (hpc : x.thread.pc = .initTimer)
    (hjob : x.readJob = .ok (r, job)) (hpause : job.proc.pauseProc = true) (ρ : JobResults) :
    (start x).Inv x job.jobStatus.isOver ρ := by
  refine ⟨⟨.initTimer, job.jobStatus, false, 0, false⟩, ?_, ?_⟩
  · refine ⟨hpc, ?_, ⟨r, job, hjob, rfl, hpause⟩, fun hne => absurd rfl hne, rfl, rfl, rfl⟩
    rw [if_neg (by simp)]
    rfl
  · refine ⟨fun k hk => absurd hk (by simp), fun _ => rfl, rfl, rfl, ?_⟩
    rintro ⟨hbegun, -⟩
    exact lt_irrefl 0 hbegun

/-- A visit that has come to the next slot has found the job over, or its last call has left it
over. -/
lemma Inv.over_of_end (h : v.Inv x wasOver ρ) (hend : v.core.thread.pc = .testSlot) :
    wasOver = true ∨ 0 < v.begun ∧ (ρ.startProc (v.begun - 1)).isOver = true := by
  obtain ⟨t, hs, ht⟩ := h
  have here := ht.here
  rw [← hs.pc, hend] at here
  rw [hs.begun]
  exact here.1

/-- Such a visit has left the job. -/
lemma Inv.left (h : v.Inv x wasOver ρ) (hend : v.core.thread.pc = .testSlot) : v.Left x := by
  obtain ⟨t, hs, ht⟩ := h
  have hpc := hs.pc.symm.trans hend
  have here := ht.here
  rw [hpc] at here
  refine ⟨hend, hs.head.trans (if_pos hpc), ?_⟩
  rintro ⟨hended, r, job, hjob, hpending⟩
  obtain ⟨r', job', hjob', hstatus, -⟩ := hs.job
  cases hjob'.symm.trans hjob
  rcases here.2 with htrue | hover
  · cases hended.symm.trans (hs.ended.trans htrue)
  · rw [← hstatus, hpending] at hover
    cases hover

/-- The calls begun are no more than up to the first that leaves the job over. -/
lemma Inv.begun_le {k : ℕ} (h : v.Inv x wasOver ρ)
    (hk : wasOver = true ∨ (ρ.startProc k).isOver = true) : v.begun ≤ k + 1 := by
  obtain ⟨t, hs, ht⟩ := h
  rw [hs.begun]
  rcases hk with hover | hk
  · rw [ht.unstarted hover]
    exact Nat.zero_le _
  · exact ht.begun_le hk

/-- The visit of a job that is over, or that some call leaves over, comes to its end. -/
lemma Inv.exists_end {k : ℕ} (h : v.Inv x wasOver ρ)
    (hk : wasOver = true ∨ (ρ.startProc k).isOver = true) :
    ∃ n u, v.steps ρ n = .ok u ∧ u.Inv x wasOver ρ ∧ u.core.thread.pc = .testSlot := by
  have hstep : ∀ m (v : Visit τ), (∃ t : Turn, v.Shows x t ∧ t.Inv wasOver ρ ∧ t.remaining k = m) →
      ¬ v.core.thread.pc = .testSlot → ∃ e v' m', step ρ v e = .ok v' ∧ m' < m ∧
        ∃ t : Turn, v'.Shows x t ∧ t.Inv wasOver ρ ∧ t.remaining k = m' := by
    rintro m v ⟨t, hs, ht, rfl⟩ hgo
    have hend : t.pc ≠ .testSlot := fun hpc => hgo (hs.pc.trans hpc)
    obtain ⟨v', hv', hs'⟩ := exists_thread hs ht hend
    exact ⟨(), v', _, hv', ht.remaining_next hend hk, t.next ρ, hs', ht.next, rfl⟩
  obtain ⟨t, hs, ht⟩ := h
  obtain ⟨es, u, _, hrun, ⟨t', hs', ht', -⟩, hend⟩ :=
    exists_run_stop hstep ⟨t, hs, ht, rfl⟩
  refine ⟨es.length, u, ?_, ⟨t', hs', ht'⟩, hend⟩
  rw [Visit.steps, ← List.eq_replicate_length.mpr fun _ _ => rfl]
  exact hrun

/-- The thread never leaves a job that every call leaves pending. -/
lemma Inv.stays {n : ℕ} {u : Visit τ} (h : v.Inv x false ρ)
    (hρ : ∀ k, (ρ.startProc k).isOver = false) (hrun : v.steps ρ n = .ok u) :
    u.core.thread.pc ≠ .testSlot := by
  intro hend
  rcases (h.steps hrun).over_of_end hend with hover | ⟨-, hlast⟩
  · cases hover
  · cases (hρ _).symm.trans hlast

/-- The thread leaves the job soon where the job was over at the start of the visit, or a call that
has begun, or the next one, leaves it over. -/
lemma Inv.leavesSoon_iff (h : v.Inv x wasOver ρ) :
    v.LeavesSoon ρ x ↔ wasOver = true ∨ ∃ k ≤ v.begun, (ρ.startProc k).isOver = true := by
  constructor
  · rintro ⟨n, u, hrun, hleft, hle⟩
    rcases (h.steps hrun).over_of_end hleft.pc with hover | ⟨hbegun, hlast⟩
    · exact .inl hover
    · exact .inr ⟨u.begun - 1, by omega, hlast⟩
  · intro hk
    obtain ⟨k, hle, hk⟩ : ∃ k ≤ v.begun, wasOver = true ∨ (ρ.startProc k).isOver = true := by
      rcases hk with hover | ⟨k, hle, hk⟩
      · exact ⟨0, Nat.zero_le _, .inl hover⟩
      · exact ⟨k, hle, .inr hk⟩
    obtain ⟨n, u, hrun, hI, hend⟩ := h.exists_end hk
    exact ⟨n, u, hrun, hI.left hend, (hI.begun_le hk).trans (by omega)⟩

/-- The thread leaves a job with a `pause_proc`, after at most one more call of `start_proc` since
the timer has finished, exactly when the job was over at the start of the visit or one of the calls
up to that one leaves it over. -/
theorem leavesSoon_fire_iff {r : JobRef} {job : QueueJob τ} {n : ℕ} (hpc : x.thread.pc = .initTimer)
    (hjob : x.readJob = .ok (r, job)) (hpause : job.proc.pauseProc = true)
    (hrun : (start x).steps ρ (n + 1) = .ok v) :
    v.fire.LeavesSoon ρ x ↔
      job.jobStatus.isOver = true ∨ ∃ k ≤ v.begun, (ρ.startProc k).isOver = true :=
  ((inv_start hpc hjob hpause ρ).steps hrun).fire.leavesSoon_iff

/-- A thread that has taken up the job of its first slot, which can be paused. -/
def slotTaken : Handover ℕ :=
  { jobs := Heap.empty.alloc ⟨⟨true⟩, 1, 2000000, .jobPending⟩
    queue :=
      { queueHead := Function.update (fun _ => none) 0 (some 0)
        qSlotDone := Function.update (fun _ => true) 0 false
        totalJobsInQueue := 1 }
    sched := .elsewhere
    thread := ⟨0, some 0, ⟨none, false⟩, .initTimer⟩ }

example : run Handover.step (.init ℕ) (List.replicate 7 (.sched (⟨⟨true⟩, 1⟩, .lowPriority)) ++
    List.replicate 2 (.thread .jobPending)) = .ok slotTaken := rfl

/-- The job is done at its second call. -/
def secondDone : JobResults := ⟨fun k => if k = 1 then .jobDone else .jobPending, .jobFinished⟩

/-- The timer finishes while the first call is under way. -/
theorem leavesSoon_fire_second : ∃ v, (start slotTaken).steps secondDone 4 = .ok v ∧
    v.fire.LeavesSoon secondDone slotTaken := by
  obtain ⟨v, hrun, hbegun⟩ : ∃ v, (start slotTaken).steps secondDone 4 = .ok v ∧ v.begun = 1 :=
    Outcome.exists_ok_of_eval (by decide)
  refine ⟨v, hrun, (leavesSoon_fire_iff rfl rfl rfl hrun).mpr (.inr ⟨1, ?_, rfl⟩)⟩
  rw [hbegun]

/-- The job that `startSenderCore` is: it is pending for ever. -/
def alwaysPending : JobResults := ⟨fun _ => .jobPending, .jobFinished⟩

/-- The timer finishes at once, and the thread stays. -/
theorem fire_not_leavesSoon : ∃ v, (start slotTaken).steps alwaysPending 1 = .ok v ∧
    ¬ v.fire.LeavesSoon alwaysPending slotTaken := by
  refine Outcome.exists_ok_and (by decide) fun v hrun => ?_
  have hI := (inv_start rfl rfl rfl alwaysPending).steps hrun
  rintro ⟨n, u, hrun', hleft, -⟩
  exact hI.fire.stays (fun _ => rfl) hrun' hleft.pc

end Visit

end ServerUnit
