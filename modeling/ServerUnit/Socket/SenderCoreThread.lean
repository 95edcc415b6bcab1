import ServerUnit.Sched.EndlessJob
import ServerUnit.Socket.Receipts

/-!
# The thread of the sender core

`startSenderCore` reports `JOB_PENDING` whatever happens, so that the thread that calls it first
calls it for ever. The validators in the other slots of its queue are never called again, and if
there is no other thread then no packet is processed any more.
-/

namespace ServerUnit

open Lib

lemma Server.startSenderCore_pending {s s' : Server} {status : JobStatus}
    (h : s.startSenderCore = .ok (s', status)) : status = .jobPending := by
  have hdispatch : ∀ {t : Server}, t.senderCoreDispatch = .ok (s', status) →
      status = .jobPending := by
    intro t ht
    simp only [senderCoreDispatch, Outcome.bind_eq_ok, Outcome.pure_eq_ok, Prod.mk.injEq] at ht
    obtain ⟨-, -, -, -, -, hstatus⟩ := ht
    exact hstatus.symm
  unfold startSenderCore at h
  split_ifs at h
  · simp only [Outcome.bind_eq_ok, Prod.exists] at h
    obtain ⟨t, pendingPacketsList, rc, -, h⟩ := h
    split_ifs at h
    · cases h
      rfl
    · exact hdispatch h
  · exact hdispatch h

namespace Reception

variable {n : ℕ} [NeZero n] {x x' : Reception n}

/-- What a step does to the scheduler: `start_proc` of a job reports what its process does. -/
lemma sched_of_step {e : ReceptionEvent n} (h : x.step e = .ok x') :
    x'.sched = x.sched ∨ ∃ e', x.sched.step e' = .ok x'.sched ∧
      ∀ i status, e' = .startProc i status → ∃ r timer job,
        x.sched.currentJob i = .ok (r, timer) ∧ x.sched.jobs.get r = some job ∧
        x.server.startProcess job.args = .ok (x'.server, status) := by
  have hquiet : ∀ e' y, x.schedule e' = .ok y → (∀ i status, e' ≠ .startProc i status) →
      x'.sched = y.sched → ∃ e', x.sched.step e' = .ok x'.sched ∧
        ∀ i status, e' = .startProc i status → ∃ r timer job,
          x.sched.currentJob i = .ok (r, timer) ∧ x.sched.jobs.get r = some job ∧
          x.server.startProcess job.args = .ok (x'.server, status) := by
    intro e' y hy hne heq
    obtain ⟨sched, hsched, rfl⟩ := schedule_cases hy
    exact ⟨e', heq ▸ hsched, fun i status hstart => absurd hstart (hne i status)⟩
  cases e with
  | start =>
    simp only [step, Outcome.guard_eq_ok, Outcome.bind_eq_ok, Outcome.pure_eq_ok] at h
    obtain ⟨-, y, hy, rfl⟩ := h
    exact .inr (hquiet _ y hy (by rintro _ _ ⟨⟩) rfl)
  | receivePacket packet =>
    simp only [step, Outcome.bind_eq_ok, Outcome.pure_eq_ok] at h
    obtain ⟨server, -, rfl⟩ := h
    exact .inl rfl
  | initValidator =>
    simp only [step, Outcome.guard_eq_ok, Outcome.bind_eq_ok, Outcome.pure_eq_ok] at h
    obtain ⟨-, y, hy, rfl⟩ := h
    exact .inr (hquiet _ y hy (by rintro _ _ ⟨⟩) rfl)
  | startProc i =>
    simp only [step, Reception.startProc, Outcome.bind_eq_ok, Heap.deref_eq_ok, Outcome.pure_eq_ok,
      Prod.exists] at h
    obtain ⟨r, timer, hcur, job, hjob, server, status, hstart, y, hy, rfl⟩ := h
    obtain ⟨sched, hsched, rfl⟩ := schedule_cases hy
    refine .inr ⟨_, hsched, ?_⟩
    rintro _ _ ⟨⟩
    exact ⟨r, timer, job, hcur, hjob, hstart⟩
  | countSlots | place | pauseProc | endProc | advance | timer =>
    exact .inr (hquiet _ x' h (by rintro _ _ ⟨⟩) rfl)

end Reception

namespace Program

variable {n : ℕ} {x x₁ x' y y' : Program n} {i : Fin n} {r : JobRef}

open Scheduler (StaysIn)

/-- The thread is still in the sender core's job, with what that means for the jobs in its queue and
for the packets if there is no other thread. -/
structure Detained (i : Fin n) (r : JobRef) (x y : Program n) : Prop where
  stays : StaysIn i r .senderCore x.sched y.sched
  processed : n = 1 → y.processed = x.processed

namespace Detained

/-- A call that the thread makes is one of `startSenderCore`. -/
lemma args_eq (h : Detained i r x y) {r' : JobRef} {timer : JobTimer}
    {job : QueueJob ServerProcess} (hcur : y.sched.currentJob i = .ok (r', timer))
    (hjob : y.sched.jobs.get r' = some job) : job.args = .senderCore := by
  obtain ⟨job', hin, hargs⟩ := h.stays.inJob
  obtain ⟨rfl, -⟩ := h.stays.currentJob hcur
  cases hin.stored.symm.trans hjob
  exact hargs

variable [NeZero n]

/-- The only thread takes no packet. -/
lemma taken_eq_nil (h : Detained i r x y) (hn : n = 1) (e : ReceptionEvent n) :
    y.taken e = [] := by
  cases e with
  | startProc a =>
    have hsub : Subsingleton (Fin n) := by
      subst hn
      infer_instance
    obtain rfl : a = i := Subsingleton.elim a i
    obtain ⟨job, hin, hargs⟩ := h.stays.inJob
    obtain ⟨timer, hpc⟩ := hin.pc
    have hcur : y.sched.currentJob a = .ok (r, timer) := by
      rw [Scheduler.currentJob, hpc]
      rfl
    rw [taken_startProc hcur hin.stored, hargs]
    rfl
  | start | receivePacket | initValidator | countSlots | place | pauseProc | endProc | advance
  | timer => rfl

lemma of_reception {e : ReceptionEvent n} {reception : Reception n} (h : Detained i r x y)
    (hx : x.toReception.Inv) (hy : y.toReception.Inv)
    (hstep : y.toReception.step e = .ok reception) :
    StaysIn i r .senderCore x.sched reception.sched := by
  obtain ⟨_, hs⟩ := hx.consistent
  obtain ⟨_, ht⟩ := hy.consistent
  rcases Reception.sched_of_step hstep with heq | ⟨e', he', hcalls⟩
  · rw [heq]
    exact h.stays
  · refine h.stays.step hs.toRecorded ht ?_ he'
    intro status heq
    obtain ⟨r', timer, job, hcur, hjob, hstart⟩ := hcalls i status heq
    rw [h.args_eq hcur hjob] at hstart
    have hpending := Server.startSenderCore_pending hstart
    rw [hpending]
    rfl

lemma step (h : Detained i r x y) (hx : x.toReception.Inv) (hy : y.toReception.Inv)
    (hstep : Stepped y y') : Detained i r x y' := by
  cases hstep with
  | connected => exact ⟨h.stays, h.processed⟩
  | called => exact ⟨h.stays, h.processed⟩
  | processed e reception _ hstep =>
    refine ⟨h.of_reception hx hy hstep, fun hn => ?_⟩
    show y.processed ++ y.taken e = _
    rw [h.taken_eq_nil hn, List.append_nil]
    exact h.processed hn
  | handled c s _ _ hhandled =>
    rcases hhandled.receipt with ⟨_, reception, -, hstep, rfl⟩ | ⟨_, reception, -, hstep, rfl⟩ |
      ⟨server, s', hreception, -, -, hprocessed, -⟩
    · exact ⟨h.of_reception hx hy hstep, h.processed⟩
    · exact ⟨h.of_reception hx hy hstep, h.processed⟩
    · refine ⟨?_, fun hn => ?_⟩
      · rw [hreception]
        exact h.stays
      · rw [hprocessed]
        exact h.processed hn

end Detained

variable [NeZero n]

/-- The call has left the job pending, and the thread in it. -/
lemma detained_of_startProc {timer : JobTimer} {job : QueueJob ServerProcess}
    (hcur : x.sched.currentJob i = .ok (r, timer)) (hjob : x.sched.jobs.get r = some job)
    (hargs : job.args = .senderCore) (hstep : x.step (.process (.startProc i)) = .ok x₁) :
    Detained i r x₁ x₁ := by
  refine ⟨?_, fun _ => rfl⟩
  simp only [Program.step, Reception.step, Reception.startProc, Outcome.guard_eq_ok,
    Outcome.bind_eq_ok, Heap.deref_eq_ok, Outcome.pure_eq_ok, Prod.exists] at hstep
  obtain ⟨-, _, ⟨r', timer', hcur', job', hjob', server, status, hstart, y, hy, rfl⟩, rfl⟩ := hstep
  cases hcur.symm.trans hcur'
  cases hjob.symm.trans hjob'
  rw [hargs] at hstart
  have hpending : status.isOver = false := by
    rw [Server.startSenderCore_pending hstart]
    rfl
  obtain ⟨sched, hsched, rfl⟩ := Reception.schedule_cases hy
  simp only [Scheduler.step, Scheduler.startProc, Outcome.bind_eq_ok, Heap.deref_eq_ok,
    Outcome.guard_eq_ok, Outcome.pure_eq_ok, Prod.exists] at hsched
  obtain ⟨r', timer', hcur', job', hjob', -, rfl⟩ := hsched
  cases hcur.symm.trans hcur'
  cases hjob.symm.trans hjob'
  have hin : Scheduler.InJob ((x.sched.called r { job with jobStatus := status }
      (.startProc status)).setThread i ⟨(x.sched.threads i).head,
        if status.isOver then .leaving else .inJob r timer⟩) i r { job with jobStatus := status } := by
    refine ⟨⟨timer, ?_⟩, Heap.get_put_self hjob, hpending⟩
    simp [hpending]
  have hstays := StaysIn.refl hin
  rw [← hargs]
  exact hstays

/-- A thread that has called the sender core's `start_proc` stays in its job for ever: no job leaves
its queue, and none of the others is called. Without another thread, no packet is processed any
more. -/
theorem run_detained {addFlag : ℕ → Bool} {starveCounter : ℕ → UInt8} {totalThreads : ℤ}
    {es₁ es₂ : List (ProgramEvent n)} {timer : JobTimer} {job : QueueJob ServerProcess}
    (h₁ : run step (init (.init addFlag starveCounter) n totalThreads) es₁ = .ok x)
    (hcur : x.sched.currentJob i = .ok (r, timer)) (hjob : x.sched.jobs.get r = some job)
    (hargs : job.args = .senderCore) (hstep : x.step (.process (.startProc i)) = .ok x₁)
    (h₂ : run step x₁ es₂ = .ok x') :
    StaysIn i r .senderCore x₁.sched x'.sched ∧
      (n = 1 → x'.processed = x₁.processed) := by
  have hrun₁ := run_append_eq_ok.mpr ⟨x, h₁, run_cons_eq_ok.mpr ⟨x₁, hstep, run_nil x₁⟩⟩
  obtain ⟨hkept₁, hcounted₁, -⟩ := counted_of_run hrun₁
  have hall : (x'.Kept ∧ x'.Counted) ∧ Detained i r x₁ x' := by
    refine run_invariant
      (I := fun y : Program n => (y.Kept ∧ y.Counted) ∧ Detained i r x₁ y) ?_
      ⟨⟨hkept₁, hcounted₁⟩, detained_of_startProc hcur hjob hargs hstep⟩ h₂
    rintro y e y' ⟨⟨hkept, hy⟩, hdetained⟩ hstep
    have hstepped := Stepped.of_step hstep
    exact ⟨⟨hkept.step hstepped, hy.step hkept hstepped⟩,
      hdetained.step hcounted₁.reception hy.reception hstepped⟩
  obtain ⟨-, hdetained⟩ := hall
  exact ⟨hdetained.stays, hdetained.processed⟩

/-- A packet is pushed, and its validator has come to the slot after the sender core's. -/
def oneThread : List (ProgramEvent 1) :=
  [.process .place, .connect, .read 0 helloPacket, .register 0 [1234], .write 0 true,
    .rewrite 0 true, .read 0 quickPacket, .setMode 0, .push 0, .initValidator 0,
    .process .countSlots, .process .place, .process (.timer 0), .process (.startProc 0)]

theorem run_detained_oneThread : ∃ x₁ x' : Program 1,
    run step x₁ oneThread = .ok x' ∧ x'.accepted.length = 1 ∧
      StaysIn 0 0 .senderCore x₁.sched x'.sched ∧ x'.processed = x₁.processed := by
  obtain ⟨x, h₁, ⟨hcur, hjob⟩, hrun⟩ : ∃ x : Program 1,
      run step (init (.init (fun _ => false) fun _ => 0) 1 1)
        [.process .start, .process .countSlots, .process .place] = .ok x ∧
      (x.sched.currentJob 0 = .ok (0, ⟨some 2000000, false⟩) ∧
        x.sched.jobs.get 0 = some ⟨⟨true⟩, .senderCore, 2000000, .jobPending⟩) ∧
      (run step x (.process (.startProc 0) :: oneThread)).toOption.any
        (fun x' => decide (x'.accepted.length = 1)) = true :=
    Outcome.exists_ok_of_eval (by decide)
  obtain ⟨x', hx', haccepted⟩ := Outcome.exists_ok_of_eval hrun
  obtain ⟨x₁, hstep, h₂⟩ := run_cons_eq_ok.mp hx'
  obtain ⟨hstays, hprocessed⟩ := run_detained h₁ hcur hjob rfl hstep h₂
  exact ⟨x₁, x', h₂, haccepted, hstays, hprocessed rfl⟩

end Program

end ServerUnit
