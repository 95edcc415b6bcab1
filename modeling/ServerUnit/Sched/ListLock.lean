import ServerUnit.Sched.Removal

/-!
# The lock of the timer list

`execute` takes the lock of the timer list, goes over the timed packets, and posts the lock. Two
things go wrong in the loop. A packet that is checked in while its table is final is taken off the
list by `popPacket`, which waits on the lock that the call holds. And the second strike of a worker
returns from inside the loop, without a post.

Whether the loop gets so far is said on the state before the call: each packet before is one that
the loop goes past.
-/

namespace ServerUnit

open Lib

namespace Server

/-- The packet is still checked in, of the table `st`, when the loop has gone over `before`. -/
def CheckedIn (s : Server) (before : List OutPacketRef) (p : OutPacketRef)
    (st : OutgoingDataState) : Prop :=
  p ∉ before ∧ ∃ o, s.Carries p o st ∧ o.status = true

/-- The packet is not checked in then, and its worker can be locked. -/
def Late (s : Server) (before : List OutPacketRef) (p : OutPacketRef) (worker : WorkerRef) : Prop :=
  s.Names p worker ∧ (p ∈ before ∨ ∃ o, s.outPackets.get p = some o ∧ o.status = false) ∧
    ∃ w, s.getWorker worker = some w ∧ 0 < w.workerLock

/-- The loop goes past the packet: it checks it out, or pushes it to the front. -/
def Passes (s : Server) (before : List OutPacketRef) (p : OutPacketRef) : Prop :=
  (∃ st, s.CheckedIn before p st ∧ st.taskStatus ≠ .dataFinal) ∨
    ∃ worker, s.Late before p worker ∧ ¬ s.StruckTwice before p worker

/-- The loop goes past each of the packets. -/
def Reaches (s : Server) (timedPackets : List OutPacketRef) : Prop :=
  ¬ ∃ before p after, timedPackets = before ++ p :: after ∧ ¬ s.Passes before p

/-- The loop gets to a packet that is checked in, of a final table. -/
def ReachesFinal (s : Server) (timedPackets : List OutPacketRef) : Prop :=
  ∃ before p after, timedPackets = before ++ p :: after ∧
    s.Reaches before ∧ ∃ st, s.CheckedIn before p st ∧ st.taskStatus = .dataFinal

/-- The loop gets to the second strike of a worker. -/
def ReachesRemoval (s : Server) (timedPackets : List OutPacketRef) : Prop :=
  ∃ before p after, timedPackets = before ++ p :: after ∧
    s.Reaches before ∧ ∃ worker, s.Late before p worker ∧ s.StruckTwice before p worker

/-- The loop of the call, having gone over the packets `before`, waits in `popPacket` on the lock
that the call holds. -/
def WaitsForItself (s : Server) : Prop :=
  ∃ lock before p after t st, semWait s.packetTimeout.timeoutListLock = .ok lock ∧
    s.packetTimeout.timedPackets = before ++ p :: after ∧
    (s.withListLock lock).executeLoop before = .ok (t, false) ∧
    t.CheckedIn [] p st ∧ st.taskStatus = .dataFinal ∧
    t.packetTimeout.popPacket p = .error .blocked

variable {s s' t : Server} {worker b : WorkerRef} {w : Worker} {p q : OutPacketRef}
  {o : OutPacket} {st : OutgoingDataState} {before timedPackets : List OutPacketRef}
  {returned : Bool}

/-! ### What a round does -/

lemma executeLoop_checkOut (ho : s.Carries p o st) (hstatus : o.status = true)
    (hfinal : st.taskStatus ≠ .dataFinal) :
    s.executeLoop (p :: timedPackets) =
      executeLoop { s with outPackets := s.outPackets.put p o.checkOut } timedPackets := by
  obtain ⟨hp, i, hdata, hst⟩ := ho
  simp [executeLoop, Heap.deref, hp, hdata, hst, Outcome.ofOption, hstatus, hfinal]

lemma executeLoop_resend (h : s.Overdue p worker w) (hatt : w.attendance = true)
    (hpush : s.pushToFront worker p = .ok t) :
    s.executeLoop (p :: timedPackets) = t.executeLoop timedPackets := by
  obtain ⟨⟨o, st, ⟨hp, i, hdata, hst⟩, hstatus, hworker⟩, hw⟩ := h
  simp [executeLoop, Heap.deref, hp, hdata, hst, Outcome.ofOption, hstatus, hworker, hatt, hpush,
    show s.workerRegistry.workers.get worker = some w from hw]

lemma executeLoop_strike (h : s.Overdue p worker w) (habsent : w.attendance = false)
    (hfirst : worker ∉ s.packetTimeout.timedoutWorkerRegistry)
    (hpush : (s.strike worker).pushToFront worker p = .ok t) :
    s.executeLoop (p :: timedPackets) = t.executeLoop timedPackets := by
  obtain ⟨⟨o, st, ⟨hp, i, hdata, hst⟩, hstatus, hworker⟩, hw⟩ := h
  rw [strike] at hpush
  simp [executeLoop, Heap.deref, hp, hdata, hst, Outcome.ofOption, hstatus, hworker, habsent, hpush,
    isWorkerRegistered_of_notMem hfirst, show s.workerRegistry.workers.get worker = some w from hw]

lemma executeLoop_remove (h : s.Overdue p worker w) (habsent : w.attendance = false)
    (hsecond : worker ∈ s.packetTimeout.timedoutWorkerRegistry)
    (hremove : (s.unstrike worker).removeWorker worker = .ok t) :
    s.executeLoop (p :: timedPackets) = .ok (t, true) := by
  obtain ⟨⟨o, st, ⟨hp, i, hdata, hst⟩, hstatus, hworker⟩, hw⟩ := h
  rw [unstrike] at hremove
  simp [executeLoop, Heap.deref, hp, hdata, hst, Outcome.ofOption, hstatus, hworker, habsent,
    hremove, isWorkerRegistered_of_mem hsecond, pure, Except.pure,
    show s.workerRegistry.workers.get worker = some w from hw]

lemma late_nil : s.Late [] p worker ↔ ∃ w, s.Overdue p worker w ∧ 0 < w.workerLock := by
  constructor
  · rintro ⟨⟨o, i, st, hp, hdata, hst, hworker⟩, hunchecked, w, hw, hlock⟩
    rcases hunchecked with hmem | ⟨o', ho', hstatus⟩
    · cases hmem
    · cases hp.symm.trans ho'
      exact ⟨w, ⟨⟨o, st, ⟨hp, i, hdata, hst⟩, hstatus, hworker⟩, hw⟩, hlock⟩
  · rintro ⟨w, hw, hlock⟩
    exact ⟨hw.names, .inr hw.unchecked_packet, w, hw.worker, hlock⟩

/-- A packet that the loop goes past, at the start. -/
lemma exists_round_of_passes (h : s.Passes [] p) :
    ∃ t, s.Round p t ∧ ∀ timedPackets, s.executeLoop (p :: timedPackets) = t.executeLoop timedPackets := by
  rcases h with ⟨st, ⟨-, o, ho, hstatus⟩, hfinal⟩ | ⟨worker, hlate, honce⟩
  · exact ⟨_, .checkOut ho.packet hstatus, fun _ => executeLoop_checkOut ho hstatus hfinal⟩
  · obtain ⟨w, hover, hlock⟩ := late_nil.mp hlate
    rw [struckTwice_nil, hover.struck_iff] at honce
    cases hatt : w.attendance with
    | true =>
      have hpush := pushToFront_eq_ok (p := p).mpr ⟨w, hover.worker, hlock, rfl⟩
      refine ⟨_, .pushToFront s.packetTimeout hover rfl rfl ?_ ?_ hpush,
        fun _ => executeLoop_resend hover hatt hpush⟩
      · simp [hover.struck_iff, hatt]
      · simp [hover.struck_iff, hatt]
    | false =>
      have hfirst : worker ∉ s.packetTimeout.timedoutWorkerRegistry := fun hmem =>
        honce ⟨⟨rfl, hatt⟩, hmem⟩
      have hpush := pushToFront_eq_ok (s := s.strike worker) (p := p).mpr
        ⟨w, hover.worker, hlock, rfl⟩
      refine ⟨_, .pushToFront (s.strike worker).packetTimeout hover rfl rfl ?_ ?_ hpush,
        fun _ => executeLoop_strike hover hatt hfirst hpush⟩
      · simp [strike, hover.struck_iff, hatt]
      · simpa [hover.struck_iff, hatt] using hfirst

/-- A loop that returns goes past its first packet, or removes a worker there. -/
lemma passes_or_removes (h : s.executeLoop (p :: timedPackets) = .ok (s', returned)) :
    s.Passes [] p ∨ ∃ worker, s.Late [] p worker ∧ s.StruckTwice [] p worker := by
  cases RoundRule.of_executeLoop h with
  | checkOut o st ho hstatus hfinal =>
    exact .inl (.inl ⟨st, ⟨List.not_mem_nil, o, ho, hstatus⟩, hfinal⟩)
  | resend worker w t hw hatt hpush =>
    obtain ⟨v, hv, hlock, -⟩ := pushToFront_eq_ok.mp hpush
    cases hw.worker.symm.trans hv
    refine .inl (.inr ⟨worker, late_nil.mpr ⟨w, hw, hlock⟩, ?_⟩)
    simp [struckTwice_nil, hw.struck_iff, hatt]
  | strike worker w t hw habsent hfirst hpush =>
    obtain ⟨v, hv, hlock, -⟩ := pushToFront_eq_ok.mp hpush
    cases hw.worker.symm.trans hv
    refine .inl (.inr ⟨worker, late_nil.mpr ⟨w, hw, hlock⟩, ?_⟩)
    simp [struckTwice_nil, hfirst]
  | remove worker w hw habsent hsecond hremove =>
    obtain ⟨v, hv, hlock, -⟩ := removeWorker_eq_ok.mp hremove
    cases hw.worker.symm.trans hv
    refine .inr ⟨worker, late_nil.mpr ⟨w, hw, hlock⟩, ?_⟩
    simp [struckTwice_nil, hw.struck_iff, habsent, hsecond]

namespace Round

lemma checkedIn_iff (h : Round s p t) :
    t.CheckedIn before q st ↔ s.CheckedIn (p :: before) q st := by
  simp only [CheckedIn, List.mem_cons, not_or, and_assoc]
  by_cases hq : q = p
  · subst hq
    refine iff_of_false ?_ fun hne => hne.1 rfl
    rintro ⟨-, o, ho, hstatus⟩
    have hout := ho.packet
    rw [h.packets, if_pos rfl] at hout
    obtain ⟨o', -, rfl⟩ := Option.map_eq_some_iff.mp hout
    cases hstatus
  · have hcarries : ∀ o, t.Carries q o st ↔ s.Carries q o st := fun o => by
      have hpacket : t.outPackets.get q = s.outPackets.get q := by rw [h.packets, if_neg hq]
      exact ⟨fun ⟨ho, htable⟩ => ⟨hpacket ▸ ho, h.tables.registry ▸ htable⟩,
        fun ⟨ho, htable⟩ => ⟨hpacket ▸ ho, h.tables.registry ▸ htable⟩⟩
    simp [hq, hcarries]

lemma late_iff (h : Round s p t) : t.Late before q worker ↔ s.Late (p :: before) q worker := by
  have hlock : (t.getWorker worker).map Worker.workerLock =
      (s.getWorker worker).map Worker.workerLock := by
    simpa [Function.comp_def] using congrArg (Option.map Prod.snd) (h.workers worker)
  have hfree : ∀ s : Server, (∃ w, s.getWorker worker = some w ∧ 0 < w.workerLock) ↔
      ∃ lock, (s.getWorker worker).map Worker.workerLock = some lock ∧ 0 < lock := by simp
  rw [Late, Late, h.tables.names, hfree, hfree, hlock]
  exact and_congr_right fun hq => and_congr_left' (h.unchecked_iff hq)

lemma passes_iff (h : Round s p t) : t.Passes before q ↔ s.Passes (p :: before) q := by
  simp only [Passes, h.checkedIn_iff, h.late_iff, h.struckTwice_iff]

lemma reaches_iff (h : Round s p t) (hp : s.Passes [] p) :
    t.Reaches before ↔ s.Reaches (p :: before) := by
  simp only [Reaches, exists_place_cons, h.passes_iff, hp, not_true_eq_false, false_or]

end Round

/-! ### Where the loop gets to -/

lemma reaches_nil : s.Reaches [] := not_exists_place_nil

/-- The loop returns from its end exactly when it goes past all packets. What it finds then is
what the state before says. -/
lemma executeLoop_reaches (h : s.executeLoop before = .ok (t, false)) :
    s.Reaches before ∧ t.packetTimeout.timeoutListLock = s.packetTimeout.timeoutListLock ∧
      ∀ q st, t.CheckedIn [] q st ↔ s.CheckedIn before q st := by
  induction before generalizing s with
  | nil =>
    cases h
    exact ⟨reaches_nil, rfl, fun _ _ => .rfl⟩
  | cons p before ih =>
    rcases exists_round h with ⟨u, hround, hloop⟩ | ⟨_, _, _, _, _, _, hreturned⟩
    · obtain ⟨hreaches, hlock, hchecked⟩ := ih hloop
      have hp : s.Passes [] p := (passes_or_removes h).resolve_right
        fun ⟨_, _, htwice⟩ => hround.not_struckTwice htwice
      exact ⟨(hround.reaches_iff hp).mp hreaches, hlock.trans hround.lock,
        fun q st => (hchecked q st).trans hround.checkedIn_iff⟩
    · cases hreturned

lemma Reaches.exists_executeLoop (h : s.Reaches before) : ∃ t, s.executeLoop before = .ok (t, false) := by
  induction before generalizing s with
  | nil => exact ⟨s, rfl⟩
  | cons p before ih =>
    have hp : s.Passes [] p := by
      by_contra hnot
      exact h ⟨[], p, before, rfl, hnot⟩
    obtain ⟨u, hround, hstep⟩ := exists_round_of_passes hp
    obtain ⟨t, ht⟩ := ih ((hround.reaches_iff hp).mpr h)
    exact ⟨t, (hstep before).trans ht⟩

lemma Round.reachesRemoval_iff (h : Round s p t) (hp : s.Passes [] p) :
    t.ReachesRemoval timedPackets ↔ s.ReachesRemoval (p :: timedPackets) := by
  simp only [ReachesRemoval, exists_place_cons, h.reaches_iff hp, h.late_iff, h.struckTwice_iff,
    h.not_struckTwice, and_false, exists_false, false_or]

/-- The loop returns early exactly when it gets to a second strike. -/
lemma exists_returned_iff :
    (∃ t, s.executeLoop timedPackets = .ok (t, true)) ↔ s.ReachesRemoval timedPackets := by
  induction timedPackets generalizing s with
  | nil =>
    refine iff_of_false ?_ not_exists_place_nil
    rintro ⟨t, h⟩
    cases h
  | cons p timedPackets ih =>
    by_cases hp : s.Passes [] p
    · obtain ⟨u, hround, hstep⟩ := exists_round_of_passes hp
      rw [hstep, ih, hround.reachesRemoval_iff hp]
    · constructor
      · rintro ⟨t, h⟩
        exact exists_place_cons.mpr (.inl ⟨reaches_nil, (passes_or_removes h).resolve_left hp⟩)
      · intro h
        rcases exists_place_cons.mp h with ⟨-, worker, hlate, htwice⟩ | ⟨before, _, _, _, hreaches, _⟩
        · obtain ⟨w, hw, hlock⟩ := late_nil.mp hlate
          obtain ⟨hstruck, hsecond⟩ := struckTwice_nil.mp htwice
          obtain ⟨t, hremove⟩ : ∃ t, (s.unstrike worker).removeWorker worker = .ok t :=
            ⟨_, removeWorker_eq_ok.mpr ⟨w, hw.worker, hlock, rfl⟩⟩
          exact ⟨t, executeLoop_remove hw (hw.struck_iff.mp hstruck).2 hsecond hremove⟩
        · exact absurd ⟨[], p, before, rfl, hp⟩ hreaches

/-- The loop leaves the lock as it is, however it returns. -/
lemma executeLoop_listLock (h : s.executeLoop timedPackets = .ok (s', returned)) :
    s'.packetTimeout.timeoutListLock = s.packetTimeout.timeoutListLock := by
  induction timedPackets generalizing s with
  | nil =>
    cases h
    rfl
  | cons p timedPackets ih =>
    rcases exists_round h with ⟨t, hround, hloop⟩ | ⟨worker, w, -, -, -, hremove, -⟩
    · exact (ih hloop).trans hround.lock
    · obtain ⟨_, -, -, rfl⟩ := removeWorker_eq_ok.mp hremove
      rfl

/-! ### The balance -/

lemma carries_withListLock {lock : ℕ} : (s.withListLock lock).Carries p o st ↔ s.Carries p o st :=
  ⟨fun ⟨ho, htable⟩ => ⟨ho, htable⟩, fun ⟨ho, htable⟩ => ⟨ho, htable⟩⟩

lemma checkedIn_withListLock {lock : ℕ} :
    (s.withListLock lock).CheckedIn before p st ↔ s.CheckedIn before p st := by
  simp only [CheckedIn, carries_withListLock]

lemma reaches_withListLock {lock : ℕ} :
    (s.withListLock lock).Reaches timedPackets ↔ s.Reaches timedPackets := by
  simp only [Reaches, Passes, checkedIn_withListLock, struckTwice_withListLock]
  rfl

lemma reachesRemoval_withListLock {lock : ℕ} :
    (s.withListLock lock).ReachesRemoval timedPackets ↔ s.ReachesRemoval timedPackets := by
  simp only [ReachesRemoval, reaches_withListLock, struckTwice_withListLock]
  rfl

lemma waitsForItself_iff (hlock : s.packetTimeout.timeoutListLock = 1) :
    s.WaitsForItself ↔ s.ReachesFinal s.packetTimeout.timedPackets := by
  constructor
  · rintro ⟨lock, before, p, after, t, st, -, heq, hloop, hp, hfinal, -⟩
    obtain ⟨hreaches, -, hchecked⟩ := executeLoop_reaches hloop
    exact ⟨before, p, after, heq, reaches_withListLock.mp hreaches, st,
      checkedIn_withListLock.mp ((hchecked p st).mp hp), hfinal⟩
  · rintro ⟨before, p, after, heq, hreaches, st, hp, hfinal⟩
    have hreaches : (s.withListLock 0).Reaches before := reaches_withListLock.mpr hreaches
    obtain ⟨t, hloop⟩ := hreaches.exists_executeLoop
    obtain ⟨-, hzero, hchecked⟩ := executeLoop_reaches hloop
    refine ⟨0, before, p, after, t, st, by simp [hlock], heq, hloop,
      (hchecked p st).mpr (checkedIn_withListLock.mpr hp), hfinal, ?_⟩
    simp [Timeout.popPacket, hzero, withListLock, semWait]

lemma execute_listLock_iff (hlock : s.packetTimeout.timeoutListLock = 1) :
    (∀ s', s.execute = .ok s' → s'.packetTimeout.timeoutListLock = 1) ↔
      ¬ s.ReachesRemoval s.packetTimeout.timedPackets := by
  constructor
  · intro hall hremoval
    have hremoval : (s.withListLock 0).ReachesRemoval s.packetTimeout.timedPackets :=
      reachesRemoval_withListLock.mpr hremoval
    obtain ⟨t, hloop⟩ := exists_returned_iff.mpr hremoval
    have hexecute : s.execute = .ok t := by
      rw [execute, hlock, semWait, Outcome.ok_bind]
      rw [withListLock] at hloop
      rw [hloop]
      rfl
    have hzero := executeLoop_listLock hloop
    rw [hall t hexecute] at hzero
    cases hzero
  · intro hnot s' h
    simp only [execute, Outcome.bind_eq_ok, semWait_eq_ok] at h
    obtain ⟨lock, htaken, ⟨t, returned⟩, hloop, h⟩ := h
    have hlist := executeLoop_listLock hloop
    cases returned with
    | true =>
      have hremoval : (s.withListLock lock).ReachesRemoval s.packetTimeout.timedPackets :=
        exists_returned_iff.mp ⟨t, hloop⟩
      exact absurd (reachesRemoval_withListLock.mp hremoval) hnot
    | false =>
      cases h
      show semPost t.packetTimeout.timeoutListLock = 1
      rw [hlist, semPost, ← htaken, hlock]

/-- From a state with the lock free: `execute` never waits for itself and always leaves the lock
free exactly when its loop gets to no packet that is checked in, of a final table, and to no second
strike. -/
theorem listLock_balanced_iff (hlock : s.packetTimeout.timeoutListLock = 1) :
    (¬ s.WaitsForItself ∧ ∀ s', s.execute = .ok s' → s'.packetTimeout.timeoutListLock = 1) ↔
      ¬ s.ReachesFinal s.packetTimeout.timedPackets ∧
        ¬ s.ReachesRemoval s.packetTimeout.timedPackets :=
  and_congr (not_congr (waitsForItself_iff hlock)) (execute_listLock_iff hlock)

theorem listLock_balanced_iff_struck :
    (¬ struckServer.WaitsForItself ∧
      ∀ s', struckServer.execute = .ok s' → s'.packetTimeout.timeoutListLock = 1) ↔
      ¬ struckServer.ReachesFinal struckServer.packetTimeout.timedPackets ∧
        ¬ struckServer.ReachesRemoval struckServer.packetTimeout.timedPackets :=
  listLock_balanced_iff rfl

/-- The result of the table `A` has come in before its packet was acknowledged. -/
def finalTimed : Server :=
  { init (fun _ => false) (fun _ => 0) with
    outPackets := ⟨[some (.new ⟨.spDataSent, "1", .userData "A" .lowPriority "T" "1,2"⟩ (some 0) true)]⟩
    outgoingDataRegistry := ⟨[0], ⟨[some ⟨"A", .dataFinal, some 0⟩]⟩⟩
    workerRegistry := ⟨⟨[some { Worker.new "1" with ackPendingQueue := [0] }]⟩, [0], [], false⟩
    packetTimeout := ⟨[], [0], 1⟩ }

/-- One pass never returns: it waits for itself. Another one returns with the lock taken. -/
theorem listLock_not_balanced :
    (finalTimed.WaitsForItself ∧ finalTimed.execute = .error .blocked) ∧
      ∃ s', struckServer.execute = .ok s' ∧ s'.packetTimeout.timeoutListLock = 0 := by
  refine ⟨⟨?_, rfl⟩, Outcome.exists_ok_of_eval (by decide)⟩
  have hcarries : finalTimed.Carries 0 _ _ := ⟨rfl, 0, rfl, rfl⟩
  exact (waitsForItself_iff rfl).mpr ⟨[], 0, [], rfl, reaches_nil, _,
    ⟨List.not_mem_nil, _, hcarries, rfl⟩, rfl⟩

end Server

end ServerUnit
