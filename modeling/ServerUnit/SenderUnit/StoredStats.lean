import ServerUnit.SenderUnit.IdealWorker
import ServerUnit.Server.Reachable

/-!
# Stored statistics

`packetStatusParse` stores the statistics that a worker reports as they are: a count for each word
of a string, and any number of threads. `findIdealWorker` reads the counts at the indices up to
the priority, and divides by the number of threads.
-/

namespace ServerUnit

open Lib

/-- In its round of the loop, a worker's counts are read inside the vector, and its time is divided
by a number of threads that is not `0`. -/
def Worker.RoundDefined (w : Worker) (taskPriority : TaskPriority) : Prop :=
  w.workerReady = true → w.workerStats.taskQueue ≠ [] →
    ∃ avgTime, avgTimeLoop w.workerStats.avgQueueTime w.workerStats.taskQueue
        (taskPriority.toNat + 1) 0 = .ok avgTime ∧
      (avgTime ≠ 0 → w.workerStats.totalAvilableThreads ≠ 0)

/-- There is a count for each priority, and a thread unless the time is `0` for all of them. -/
def WorkerStats.Usable (stats : WorkerStats) : Prop :=
  4 ≤ stats.taskQueue.length ∧
    (stats.totalAvilableThreads ≠ 0 ∨ stats.avgQueueTime = 0 ∨
      ∀ count ∈ stats.taskQueue.take 4, count = 0)

/-- What the packet reports is usable. -/
def ProcessStatusPacket.Usable (p : ProcessStatusPacket) : Prop :=
  3 ≤ p.vectorString.toList.count ',' ∧
    (p.threadCount ≠ 0 ∨ p.queueTime = 0 ∨
      ∀ word ∈ (p.vectorString.toList.splitOn ',').take 4, stoi word = .ok 0)

instance (p : ProcessStatusPacket) : Decidable p.Usable := inferInstanceAs (Decidable (_ ∧ _))

variable {taskPriority : TaskPriority} {w : Worker} {p : ProcessStatusPacket}

/-! ### One round -/

lemma lt_length_of_avgTimeLoop {avgQueueTime avgTime avgTime' : ℚ} {taskMapVector : List ℤ} {n : ℕ}
    (h : avgTimeLoop avgQueueTime taskMapVector (n + 1) avgTime = .ok avgTime') :
    n < taskMapVector.length := by
  simp only [avgTimeLoop, Outcome.bind_eq_ok, Outcome.ofOption_eq_ok] at h
  obtain ⟨tasks, htasks, -⟩ := h
  exact (List.getElem?_eq_some_iff.mp htasks).1

/-- Usable statistics make the round defined for every priority. -/
lemma WorkerStats.Usable.roundDefined (h : w.workerStats.Usable) : w.RoundDefined taskPriority := by
  obtain ⟨hlength, hthreads⟩ := h
  intro _ _
  refine ⟨_, avgTimeLoop_eq (toNat_lt_four.trans hlength), fun htime hzero => htime ?_⟩
  rcases hthreads with hthreads | htime | hcounts
  · exact absurd hzero hthreads
  · rw [htime, zero_mul, add_zero]
  · have hsum : (w.workerStats.taskQueue.take (taskPriority.toNat + 1)).sum = 0 := by
      apply List.sum_eq_zero
      intro count hcount
      exact hcounts count (List.take_subset_take_left _ toNat_lt_four hcount)
    rw [hsum, Int.cast_zero, mul_zero, add_zero]

/-- Of a ready worker with counts, only usable statistics do. -/
lemma usable_of_roundDefined (hready : w.workerReady = true) (hne : w.workerStats.taskQueue ≠ [])
    (h : ∀ taskPriority, w.RoundDefined taskPriority) : w.workerStats.Usable := by
  have hlength : 4 ≤ w.workerStats.taskQueue.length := by
    obtain ⟨avgTime, htime, -⟩ := h .lowPriority hready hne
    exact lt_length_of_avgTimeLoop htime
  refine ⟨hlength, ?_⟩
  by_contra hnot
  simp only [not_or, not_not] at hnot
  obtain ⟨hthreads, htime, hcounts⟩ := hnot
  apply hcounts
  have hsum : ∀ taskPriority : TaskPriority,
      (w.workerStats.taskQueue.take (taskPriority.toNat + 1)).sum = 0 := by
    intro taskPriority
    obtain ⟨avgTime, hloop, hdivide⟩ := h taskPriority hready hne
    rw [avgTimeLoop_eq (toNat_lt_four.trans hlength), zero_add] at hloop
    cases hloop
    by_contra hsum
    exact hdivide (mul_ne_zero htime (Int.cast_ne_zero.mpr hsum)) hthreads
  obtain ⟨a, b, c, d, rest, heq⟩ : ∃ a b c d rest,
      w.workerStats.taskQueue = a :: b :: c :: d :: rest := by
    match w.workerStats.taskQueue, hlength with
    | a :: b :: c :: d :: rest, _ => exact ⟨a, b, c, d, rest, rfl⟩
  have h₀ := hsum .nonPreemtable
  have h₁ := hsum .highPriority
  have h₂ := hsum .mediumPriority
  have h₃ := hsum .lowPriority
  simp only [heq, TaskPriority.toNat, List.take_succ_cons, List.take_zero, List.sum_cons,
    List.sum_nil] at h₀ h₁ h₂ h₃
  rw [heq]
  simp only [List.take_succ_cons, List.take_zero, List.forall_mem_cons, List.not_mem_nil]
  refine ⟨?_, ?_, ?_, ?_, ?_⟩ <;> first | omega | simp

/-! ### What is stored -/

lemma forall_eq_zero_iff {words : List (List Char)} {counts : List ℤ}
    (h : List.Forall₂ (fun word count => stoi word = .ok count) words counts) :
    (∀ count ∈ counts, count = 0) ↔ ∀ word ∈ words, stoi word = .ok 0 := by
  induction h with
  | nil => simp
  | cons hword _ ih => simp [hword, ih]

/-- The statistics that a packet leaves behind are usable exactly when its report is. -/
lemma usable_iff {counts : List ℤ} (h : adv_tokenizer p.vectorString ',' = .ok counts) :
    WorkerStats.Usable ⟨p.threadCount.toInt, counts, p.queueTime⟩ ↔ p.Usable := by
  have hlength := length_of_adv_tokenizer h
  have hthreads : p.threadCount.toInt = 0 ↔ p.threadCount = 0 := by
    rw [← BitVec.toInt_inj]
    rfl
  have hcounts := forall_eq_zero_iff (List.forall₂_take 4 (adv_tokenizer_eq_ok.mp h))
  simp only [WorkerStats.Usable, ProcessStatusPacket.Usable, ne_eq, hthreads, hcounts]
  apply and_congr_left'
  omega

namespace Server

variable {s s' : Server} {worker : WorkerRef}

lemma stats_of_packetStatusParse (hstats : p.statsPresent = true)
    (hfound : s.workerRegistry.getWorkerFromUid p.workerUid = .ok (some worker))
    (h : s.packetStatusParse p = .ok s') :
    ∃ counts w, adv_tokenizer p.vectorString ',' = .ok counts ∧ s'.getWorker worker = some w ∧
      w.workerStats = ⟨p.threadCount.toInt, counts, p.queueTime⟩ := by
  rcases packetStatusParse_cases h with ⟨hnone, -⟩ | ⟨b, t, hb, -, hstore⟩
  · cases hnone.symm.trans hfound
  · cases hb.symm.trans hfound
    obtain ⟨counts, w, hcounts, hw, rfl⟩ := (storeStats_eq_ok hstats).mp hstore
    exact ⟨counts, _, hcounts, getWorker_putWorker hw, rfl⟩

/-- A server with one worker, which is ready. -/
def readyServer (workerUid : String) : Server :=
  { init (fun _ => false) (fun _ => 0) with
    workerRegistry := ⟨⟨[some { Worker.new workerUid with workerReady := true }]⟩, [0], [], false⟩ }

lemma switchStatus_readyServer (workerUid : String) (statusCode : BitVec 32) :
    (readyServer workerUid).switchStatus 0 statusCode p = .ok (readyServer workerUid) := by
  have hw : (readyServer workerUid).workerRegistry.workers.deref 0 =
      .ok { Worker.new workerUid with workerReady := true } := rfl
  rw [switchStatus, hw, Outcome.ok_bind]
  split_ifs <;> rfl

lemma getWorkerFromUid_readyServer (workerUid : String) :
    (readyServer workerUid).workerRegistry.getWorkerFromUid workerUid = .ok (some 0) := by
  simp [readyServer, WorkerRegistry.getWorkerFromUid, splitFirst, WorkerRegistry.hasUid,
    Heap.deref, Heap.get, Worker.new, pure, Except.pure, Outcome.ofOption]

/-- There the statistics of every packet are stored. -/
lemma packetStatusParse_readyServer {counts : List ℤ} (hstats : p.statsPresent = true)
    (hcounts : adv_tokenizer p.vectorString ',' = .ok counts) :
    (readyServer p.workerUid).packetStatusParse p = .ok ((readyServer p.workerUid).putWorker 0
      { Worker.new p.workerUid with
        workerReady := true, workerStats := ⟨p.threadCount.toInt, counts, p.queueTime⟩ }) := by
  rw [packetStatusParse, getWorkerFromUid_readyServer, Outcome.ok_bind]
  simp only [switchStatus_readyServer, Outcome.ok_bind]
  exact (storeStats_eq_ok hstats).mpr ⟨counts, _, hcounts, rfl, rfl⟩

/-! ### What comes later -/

/-- Wherever the packet's statistics are stored, the rounds of that worker are defined in every
later state in which it still has them. -/
def StaysDefined (p : ProcessStatusPacket) : Prop :=
  ∀ (s s' t : Server) worker js, s.workerRegistry.getWorkerFromUid p.workerUid = .ok (some worker) →
    s.packetStatusParse p = .ok s' → run work s' js = .ok t →
    ∀ w w', s'.getWorker worker = some w → t.getWorker worker = some w' →
      w'.workerStats = w.workerStats → ∀ taskPriority, w'.RoundDefined taskPriority

lemma staysDefined_iff (hstats : p.statsPresent = true) {counts : List ℤ}
    (hcounts : adv_tokenizer p.vectorString ',' = .ok counts) : StaysDefined p ↔ p.Usable := by
  constructor
  · intro hstays
    have hparse := packetStatusParse_readyServer hstats hcounts
    have hdefined := hstays _ _ _ 0 [] (getWorkerFromUid_readyServer _) hparse (run_nil _)
      _ _ rfl rfl rfl
    have hne : counts ≠ [] := by
      apply List.ne_nil_of_length_pos
      rw [length_of_adv_tokenizer hcounts]
      exact Nat.succ_pos _
    exact (usable_iff hcounts).mp (usable_of_roundDefined rfl hne hdefined)
  · intro husable s s' t worker js hfound hparse _ w w' hw hw' heq taskPriority
    obtain ⟨counts', v, hcounts', hv, hvstats⟩ := stats_of_packetStatusParse hstats hfound hparse
    cases hcounts'.symm.trans hcounts
    cases hv.symm.trans hw
    apply WorkerStats.Usable.roundDefined
    rw [heq, hvstats]
    exact (usable_iff hcounts).mpr husable

/-! ### Whole runs -/

/-- The status packet that a job parses. -/
def statusPacketOf (s : Server) : ServerJob → Option ProcessStatusPacket
  | .call (.acknowledge p) => some p
  | .startValidator =>
    match s.receiverSink.popObject with
    | .ok (_, some packet) => (ProcessStatusPacket.ofJson packet).toOption
    | _ => none
  | _ => none

/-- The statistics that a job stores are usable. -/
def StoresUsable (s : Server) (j : ServerJob) : Prop :=
  ∀ p ∈ s.statusPacketOf j, p.statsPresent = true → p.Usable

instance (s : Server) (j : ServerJob) : Decidable (s.StoresUsable j) :=
  inferInstanceAs (Decidable (∀ p ∈ s.statusPacketOf j, _))

/-- A call of `findIdealWorker` is defined in the round of every worker. -/
def RoundsDefined (s : Server) : Prop :=
  ∀ b w, s.getWorker b = some w → ∀ taskPriority, w.RoundDefined taskPriority

/-- A worker without statistics is passed over, and those of the others are usable. -/
def UsableStats (s : Server) : Prop :=
  ∀ b w, s.getWorker b = some w → w.workerStats.taskQueue = [] ∨ w.workerStats.Usable

lemma stays_workerStats : Stays Worker.workerStats := fun _ _ _ _ _ _ => rfl

namespace UsableStats

lemma roundsDefined (h : s.UsableStats) : s.RoundsDefined := by
  intro b w hw taskPriority
  rcases h b w hw with hempty | husable
  · exact fun _ hne => absurd hempty hne
  · exact husable.roundDefined

lemma keeps (h : s.UsableStats) (hkeeps : KeepsWorkers Worker.workerStats s s') :
    s'.UsableStats := by
  intro b w' hw'
  obtain ⟨w, hw, heq⟩ := exists_of_map_eq (hkeeps b).symm hw'
  rw [← heq]
  exact h b w hw

lemma storeStats (h : s.UsableStats) (husable : p.statsPresent = true → p.Usable)
    (hs : s.storeStats worker p = .ok s') : s'.UsableStats := by
  by_cases hstats : p.statsPresent = true
  · obtain ⟨counts, w, hcounts, hw, rfl⟩ := (storeStats_eq_ok hstats).mp hs
    intro b v hv
    rw [getWorker, putWorker_workers, Heap.get_put hw] at hv
    split_ifs at hv with heq
    · cases hv
      exact .inr ((usable_iff hcounts).mpr (husable hstats))
    · exact h b v hv
  · rw [Server.storeStats, if_neg hstats] at hs
    cases hs
    exact h

lemma packetStatusParse (h : s.UsableStats) (husable : p.statsPresent = true → p.Usable)
    (hs : s.packetStatusParse p = .ok s') : s'.UsableStats := by
  rcases packetStatusParse_cases hs with ⟨-, rfl⟩ | ⟨worker, t, -, ht, hstore⟩
  · exact h
  · exact (h.keeps ((KeepsWorkers.switchRule stays_workerStats).switchStatus ht)).storeStats
      husable hstore

lemma startValidator (h : s.UsableStats) (husable : s.StoresUsable .startValidator)
    {status : JobStatus} (hs : s.startValidator = .ok (s', status)) : s'.UsableStats := by
  simp only [Server.startValidator, Outcome.bind_eq_ok] at hs
  obtain ⟨⟨sink, object⟩, hpop, hs⟩ := hs
  cases object with
  | none =>
    cases hs
    exact h
  | some packet =>
    simp only [Outcome.bind_eq_ok, Outcome.pure_eq_ok, Prod.mk.injEq] at hs
    obtain ⟨t, ht, rfl, -⟩ := hs
    obtain ⟨csvFiles, database, p, hp, hparse⟩ := processPacket_parse ht
    have hpacket : p ∈ s.statusPacketOf .startValidator := by
      simp only [statusPacketOf, hpop, hp]
      rfl
    exact packetStatusParse (by exact h) (husable p hpacket) hparse

lemma step (h : s.UsableStats) (hsound : s.Sound) {e : ServerEvent}
    (husable : s.StoresUsable (.call e)) (hs : s.step e = .ok s') : s'.UsableStats := by
  have hkeeps := KeepsWorkers.dispatch stays_workerStats
  cases e with
  | registerWorker draws =>
    obtain ⟨registry, uid, hgen, rfl⟩ := registerWorker_eq_ok.mp hs
    obtain ⟨rfl, -⟩ := WorkerRegistry.generateWorkerUid_cases hgen
    intro b w hw
    by_cases heq : b = s.workerRegistry.workers.next
    · rw [heq, getWorker, Heap.get_alloc_self, Option.some.injEq] at hw
      rw [← hw]
      exact .inl rfl
    · rw [getWorker, Heap.get_alloc_of_ne heq] at hw
      exact h b w hw
  | updateTemplates templateStruct =>
    obtain ⟨_, _, _, -, rfl⟩ := updateTemplates_eq_ok.mp hs
    exact h
  | pushUserTable userDataTable =>
    obtain ⟨_, _, _, _, rfl⟩ := pushUserTable_frame hs
    exact h
  | pushInstanceToWorkerQueue workerList =>
    simp only [Server.step, pushInstanceToWorkerQueue, Outcome.bind_eq_ok,
      Outcome.pure_eq_ok] at hs
    obtain ⟨⟨t, rest⟩, hpush, rfl⟩ := hs
    exact h.keeps (hkeeps.pushInstanceLoop hpush)
  | pushUserDataToWorkerQueue => exact h.keeps (hkeeps.pushUserDataToWorkerQueue hs)
  | getQueuedPacket workerUid =>
    simp only [Server.step, Outcome.bind_eq_ok, Outcome.pure_eq_ok] at hs
    obtain ⟨⟨t, out⟩, hget, rfl⟩ := hs
    exact h.keeps (KeepsWorkers.getQueuedPacket stays_workerStats hget)
  | acknowledge p =>
    simp only [Server.step, Outcome.guard_eq_ok] at hs
    exact h.packetStatusParse (husable p rfl) hs.2
  | execute =>
    exact h.keeps (KeepsWorkers.execute stays_workerStats hsound.registered.attends hs)

/-- What one job preserves. -/
lemma work (h : s.UsableStats) (hsound : s.Sound) {j : ServerJob} (husable : s.StoresUsable j)
    (hs : s.work j = .ok s') : s'.UsableStats := by
  cases j with
  | call e => exact h.step hsound husable hs
  | startSenderCore =>
    simp only [Server.work, senderCoreDispatch_of_idle hsound.idle, Outcome.bind_eq_ok,
      Outcome.pure_eq_ok] at hs
    obtain ⟨⟨t, status⟩, ht, rfl⟩ := hs
    exact h.keeps ((KeepsWorkers.dispatch stays_workerStats).senderCoreDispatch ht)
  | receivePacket packet =>
    simp only [Server.work, receivePacket, Outcome.bind_eq_ok, Outcome.pure_eq_ok] at hs
    obtain ⟨⟨sink, rc⟩, -, rfl⟩ := hs
    exact h
  | startValidator =>
    simp only [Server.work, Outcome.bind_eq_ok, Outcome.pure_eq_ok] at hs
    obtain ⟨⟨t, status⟩, ht, rfl⟩ := hs
    exact h.startValidator husable ht

/-- What every run preserves whose packets report usable statistics. -/
lemma of_run {addFlag : ℕ → Bool} {starveCounter : ℕ → UInt8} {js : List ServerJob}
    (h : run Server.work (init addFlag starveCounter) js = .ok s)
    (husable : Meets Server.work StoresUsable (init addFlag starveCounter) js) :
    s.UsableStats := by
  have hstep : ∀ (s : Server) (j : ServerJob) (s' : Server), s.Sound ∧ s.UsableStats →
      s.StoresUsable j → s.work j = .ok s' → s'.Sound ∧ s'.UsableStats :=
    fun _ _ _ hI hC hs => ⟨hI.1.work hs, hI.2.work hI.1 hC hs⟩
  refine (run_induct hstep ⟨sound_init addFlag starveCounter, ?_⟩ husable h).2
  intro b w hw
  simp [init, WorkerRegistry.new, getWorker] at hw

end UsableStats

/-- The statistics of a packet that is parsed to its end stay defined exactly when its report is
usable. In a run in which all packets report usable statistics, a call of `findIdealWorker` is
defined in every state that is reached. -/
theorem storedStats_defined (addFlag : ℕ → Bool) (starveCounter : ℕ → UInt8) :
    (∀ (p : ProcessStatusPacket) (counts : List ℤ), p.statsPresent = true →
      adv_tokenizer p.vectorString ',' = .ok counts → (StaysDefined p ↔ p.Usable)) ∧
    ∀ (js : List ServerJob) (s : Server), run work (init addFlag starveCounter) js = .ok s →
      Meets work StoresUsable (init addFlag starveCounter) js → s.RoundsDefined :=
  ⟨fun _ _ hstats hcounts => staysDefined_iff hstats hcounts,
    fun _ _ h husable => (UsableStats.of_run h husable).roundsDefined⟩

/-- A worker gets a template, and acknowledges it with its statistics. -/
def reportJobs (vectorString : String) (threadCount : BitVec 32) : List ServerJob :=
  [.call (.registerWorker [1]), .call (.updateTemplates [⟨"T1", 0, some "rule"⟩]),
    .call (.pushInstanceToWorkerQueue ["1"]), .call (.getQueuedPacket "1"),
    .call (.acknowledge ⟨P_DATA_ACK, "T1", "", "1", true, 1, vectorString, threadCount⟩)]

/-- Four counts and a thread. -/
theorem storedStats_defined_four : ∃ s,
    run work (init (fun _ => false) (fun _ => 0)) (reportJobs "1,0,0,0" 1) = .ok s ∧
      s.RoundsDefined :=
  Outcome.exists_ok_and (by decide) fun s h =>
    (storedStats_defined (fun _ => false) (fun _ => 0)).2 _ s h (by decide)

/-- A ready worker with counts, and statistics that are not usable. -/
lemma not_roundsDefined {stats : WorkerStats}
    (hworker : (s.getWorker worker).map (fun w => (w.workerReady, w.workerStats))
      = some (true, stats))
    (hne : stats.taskQueue ≠ []) (hnot : ¬ stats.Usable) : ¬ s.RoundsDefined := by
  intro hdefined
  obtain ⟨w, hw, heq⟩ := Option.map_eq_some_iff.mp hworker
  obtain ⟨hready, rfl⟩ := Prod.mk.inj heq
  apply hnot
  exact usable_of_roundDefined hready hne (hdefined worker w hw)

/-- With one count the choice of a worker reads outside the vector; with no thread it divides by
`0`. -/
theorem not_storedStats_defined :
    (∃ s, run work (init (fun _ => false) (fun _ => 0)) (reportJobs "1" 1) = .ok s ∧
      findIdealWorker s.workerRegistry .lowPriority = .error .undefined ∧ ¬ s.RoundsDefined) ∧
    ∃ s, run work (init (fun _ => false) (fun _ => 0)) (reportJobs "1,0,0,0" 0) = .ok s ∧
      ¬ s.RoundsDefined := by
  constructor
  · obtain ⟨s, h, hfind, hworker⟩ : ∃ s,
        run work (init (fun _ => false) (fun _ => 0)) (reportJobs "1" 1) = .ok s ∧
          findIdealWorker s.workerRegistry .lowPriority = .error .undefined ∧
          (s.getWorker 0).map (fun w => (w.workerReady, w.workerStats))
            = some (true, ⟨1, [1], 1⟩) :=
      Outcome.exists_ok_of_eval (by decide)
    refine ⟨s, h, hfind, not_roundsDefined hworker (by simp) ?_⟩
    simp [WorkerStats.Usable]
  · obtain ⟨s, h, hworker⟩ : ∃ s,
        run work (init (fun _ => false) (fun _ => 0)) (reportJobs "1,0,0,0" 0) = .ok s ∧
          (s.getWorker 0).map (fun w => (w.workerReady, w.workerStats))
            = some (true, ⟨0, [1, 0, 0, 0], 1⟩) :=
      Outcome.exists_ok_of_eval (by decide)
    refine ⟨s, h, not_roundsDefined hworker (by simp) ?_⟩
    simp [WorkerStats.Usable]

end Server

end ServerUnit
