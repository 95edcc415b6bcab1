import ServerUnit.Socket.Protocol

/-!
# The threads of the sessions

A handler keeps its thread until its worker has a packet, unless the worker is in quick send mode.
When there are as many sessions that wait so as there are threads, no connection is accepted and no
message is read until one of their workers gets a packet. The mode of a worker cannot change in
the meantime, since only its next message changes it.
-/

namespace ServerUnit

open Lib

/-! ### What the jobs leave of a worker -/

namespace Server

variable {s s' : Server}

/-- No job changes a worker's mode. -/
lemma validator_mode : ValidatorRule (KeepsWorkers Worker.quickSendMode) where
  __ := KeepsWorkers.switchRule fun _ _ _ _ _ _ => rfl
  storeData h := by
    obtain ⟨_, _, rfl, -⟩ := ProcessDataPacket.execute_cases h
    exact .of_frame rfl
  storeStats h := by
    rcases storeStats_cases h with rfl | ⟨_, _, hw, rfl⟩
    · exact .of_frame rfl
    · exact .put hw rfl rfl

lemma startProcess_mode {process : ServerProcess} {status : JobStatus} (hs : s.Sound)
    (h : s.startProcess process = .ok (s', status)) :
    KeepsWorkers Worker.quickSendMode s s' := by
  cases process with
  | senderCore =>
    have hdispatch : s.senderCoreDispatch = .ok (s', status) := by
      rw [← senderCoreDispatch_of_idle hs.idle]
      exact h
    exact (KeepsWorkers.dispatch fun _ _ _ _ _ _ => rfl).senderCoreDispatch hdispatch
  | validator =>
    have hstart : s.startValidator = .ok (s', status) := h
    simp only [startValidator, Outcome.bind_eq_ok, Prod.exists] at hstart
    obtain ⟨sink, object, -, hprocess⟩ := hstart
    cases object with
    | none =>
      cases hprocess
      exact .of_frame rfl
    | some packet =>
      simp only [Outcome.bind_eq_ok, Outcome.pure_eq_ok, Prod.mk.injEq] at hprocess
      obtain ⟨t, ht, rfl, -⟩ := hprocess
      have hmode := validator_mode.processPacket ht
      exact hmode

lemma step_mode {e : ServerEvent} (he : e.isBackground = true) (hs : s.Sound)
    (h : s.step e = .ok s') : KeepsWorkers Worker.quickSendMode s s' := by
  cases e with
  | updateTemplates templateStruct =>
    obtain ⟨_, _, _, -, rfl⟩ := updateTemplates_eq_ok.mp h
    exact .of_frame rfl
  | pushUserTable userDataTable =>
    obtain ⟨_, _, _, _, rfl⟩ := pushUserTable_frame h
    exact .of_frame rfl
  | execute => exact .execute (fun _ _ _ _ _ _ => rfl) hs.registered.attends h
  | registerWorker | pushInstanceToWorkerQueue | pushUserDataToWorkerQueue | getQueuedPacket
  | acknowledge => cases he

/-- A worker without a packet has none to return. -/
lemma getQueuedPacketOf_eq_none {worker : WorkerRef} {w : Worker} {packet : Option ServerPacket}
    (hw : s.getWorker worker = some w) (hqueue : w.senderQueue = []) (hpop : w.ackPacketPop = false)
    (h : s.getQueuedPacketOf worker = .ok (s', packet)) :
    packet = none := by
  simp only [getQueuedPacketOf, Outcome.bind_eq_ok, Heap.deref_eq_ok, Outcome.pure_eq_ok,
    Prod.mk.injEq] at h
  obtain ⟨v, hv, ⟨w', timer, out⟩, hget, rfl, rfl⟩ := h
  cases hw.symm.trans hv
  cases Worker.GetRule.of_getQueuedPacket hget with
  | resend _ _ _ _ hflag => rw [hpop] at hflag; cases hflag
  | unlocked _ _ _ _ hflag => rw [hpop] at hflag; cases hflag
  | locked _ _ _ _ _ _ hrule =>
    cases hrule with
    | idle | limited => rfl
    | skipped _ _ _ _ _ _ _ hq => simp [hqueue] at hq
    | acked _ _ _ _ hq => rw [hqueue] at hq; cases hq
    | plain _ _ _ hq => rw [hqueue] at hq; cases hq

end Server

namespace Reception

variable {n : ℕ} [NeZero n] {r r' : Reception n}

lemma step_mode {e : ReceptionEvent n} (he : e.isScheduled = true) (hs : r.server.Sound)
    (h : r.step e = .ok r') : r.server.KeepsWorkers Worker.quickSendMode r'.server := by
  have hquiet : ∀ {e : SchedEvent ServerProcess n} {y}, r.schedule e = .ok y →
      y.server = r.server := by
    intro e y hy
    obtain ⟨sched, -, rfl⟩ := schedule_cases hy
    rfl
  cases e with
  | start =>
    simp only [step, Outcome.guard_eq_ok, Outcome.bind_eq_ok, Outcome.pure_eq_ok] at h
    obtain ⟨-, y, hy, rfl⟩ := h
    exact .of_frame (by rw [hquiet hy])
  | startProc i =>
    simp only [step, startProc, Outcome.bind_eq_ok, Outcome.pure_eq_ok, Prod.exists] at h
    obtain ⟨_, _, -, job, -, server, status, hstart, y, hy, rfl⟩ := h
    exact Server.startProcess_mode hs hstart
  | receivePacket | initValidator => cases he
  | countSlots | place | pauseProc | endProc | advance | timer =>
    exact .of_frame (by rw [hquiet h])

end Reception

/-! ### The threads -/

namespace Program

variable {n : ℕ} {x x' : Program n} {c d : SessionRef} {s s' : Session} {l : List SessionRef}

/-- The session asks its worker for a packet. -/
def Asks (x : Program n) (c : SessionRef) (worker : WorkerRef) : Prop :=
  ∃ s, x.connections.get c = some s ∧ (s.pc = .polling worker ∨ s.pc = .polled worker)

/-- The worker waits for more than an empty answer. -/
def Patient (x : Program n) (worker : WorkerRef) : Prop :=
  ∃ w, x.server.getWorker worker = some w ∧ w.quickSendMode = false

/-- The worker has a packet to be sent, for the first time or again. -/
def HasPacket (x : Program n) (worker : WorkerRef) : Prop :=
  ∃ w, x.server.getWorker worker = some w ∧ (w.senderQueue ≠ [] ∨ w.ackPacketPop = true)

/-- The sessions of the list take all threads, to ask workers that wait for packets. -/
structure Occupied (x : Program n) (l : List SessionRef) : Prop where
  nodup : l.Nodup
  threads : x.threads ≤ l.length
  asking : ∀ c ∈ l, ∃ worker, x.Asks c worker ∧ x.Patient worker

/-- The same connections are there, and nothing was read from them. -/
def SilentSince (x x' : Program n) : Prop :=
  x'.connections.next = x.connections.next ∧
    ∀ c s, x.connections.get c = some s →
      ∃ s', x'.connections.get c = some s' ∧ s'.messages = s.messages

lemma SilentSince.refl (x : Program n) : SilentSince x x := ⟨rfl, fun _ s hs => ⟨s, hs, rfl⟩⟩

lemma SilentSince.trans {y : Program n} (h : SilentSince x y) (h' : SilentSince y x') :
    SilentSince x x' := by
  refine ⟨h'.1.trans h.1, fun c s hs => ?_⟩
  obtain ⟨t, ht, heq⟩ := h.2 c s hs
  obtain ⟨s', hs', heq'⟩ := h'.2 c t ht
  exact ⟨s', hs', heq'.trans heq⟩

namespace Occupied

/-- All of its sessions are busy. -/
lemma busy (h : x.Occupied l) :
    ∀ c ∈ l, ∃ s, x.connections.get c = some s ∧ s.pc.isBusy = true := by
  intro c hc
  obtain ⟨worker, ⟨s, hs, hpc⟩, -⟩ := h.asking c hc
  refine ⟨s, hs, ?_⟩
  rcases hpc with hpc | hpc <;> rw [hpc] <;> rfl

/-- No handler starts. -/
lemma not_free (h : x.Occupied l) : ¬ x.busyThreads < x.threads := by
  have hbusy : l.length ≤ x.busyThreads := Heap.length_le_countP h.nodup h.busy
  exact Nat.not_lt.mpr (h.threads.trans hbusy)

/-- No other session is busy. -/
lemma mem_of_busy (h : x.Occupied l) (hle : x.busyThreads ≤ x.threads)
    (hs : x.connections.get c = some s) (hbusy : s.pc.isBusy = true) : c ∈ l :=
  Heap.mem_of_countP_le h.nodup h.busy (hle.trans h.threads) hs hbusy

/-- The server does what leaves the modes alone. -/
lemma server (h : x.Occupied l) (hthreads : x'.threads = x.threads)
    (hconnections : x'.connections = x.connections)
    (hmode : x.server.KeepsWorkers Worker.quickSendMode x'.server) : x'.Occupied l := by
  refine ⟨h.nodup, hthreads ▸ h.threads, fun c hc => ?_⟩
  obtain ⟨worker, ⟨s, hs, hpc⟩, w, hw, hquick⟩ := h.asking c hc
  obtain ⟨w', hw', heq⟩ := exists_of_map_eq (hmode worker) hw
  exact ⟨worker, ⟨s, hconnections ▸ hs, hpc⟩, w', hw', heq.trans hquick⟩

/-- One of the sessions goes on asking. -/
lemma ask (h : x.Occupied l) (hs : x.connections.get d = some s) {worker : WorkerRef}
    (hpc : s.pc.worker? = some worker)
    (hpc' : s'.pc = .polling worker ∨ s'.pc = .polled worker)
    (hthreads : x'.threads = x.threads) (hconnections : x'.connections = x.connections.put d s')
    (hmode : x.server.KeepsWorkers Worker.quickSendMode x'.server) : x'.Occupied l := by
  refine ⟨h.nodup, hthreads ▸ h.threads, fun c hc => ?_⟩
  obtain ⟨b, ⟨t, ht, htpc⟩, w, hw, hquick⟩ := h.asking c hc
  obtain ⟨w', hw', heq⟩ := exists_of_map_eq (hmode b) hw
  refine ⟨b, ?_, w', hw', heq.trans hquick⟩
  by_cases heq : c = d
  · subst heq
    cases hs.symm.trans ht
    have hb : worker = b := by
      rcases htpc with htpc | htpc <;> rw [htpc] at hpc <;> cases hpc <;> rfl
    subst hb
    exact ⟨s', hconnections ▸ Heap.get_put_self hs, hpc'⟩
  · exact ⟨t, by rw [hconnections, Heap.get_put_of_ne heq, ht], htpc⟩

end Occupied

variable [NeZero n]

/-- Only a session that reads a message becomes busy. -/
lemma Handled.busy (h : Handled x c s x') :
    ∃ s', x'.connections = x.connections.put c s' ∧ x'.threads = x.threads ∧
      (s'.pc.isBusy = true → s.pc.isBusy = true ∨ x.busyThreads < x.threads) := by
  cases h with
  | refused _ hfree | stranger _ _ hfree | known _ _ _ hfree =>
    exact ⟨_, rfl, rfl, fun _ => .inr hfree⟩
  | disconnected | written | rewritten | broken => exact ⟨_, rfl, rfl, fun h => by cases h⟩
  | registered _ _ _ hpc | modeSet _ _ hpc | pushed _ _ hpc | scheduled _ _ hpc | idle _ _ hpc
  | served _ _ _ hpc | quick _ _ hpc | again _ _ hpc =>
    exact ⟨_, rfl, rfl, fun _ => .inl (by rw [hpc]; rfl)⟩

/-- There are never more handlers than threads. -/
lemma Stepped.busyThreads_le (h : Stepped x x') (hle : x.busyThreads ≤ x.threads) :
    x'.busyThreads ≤ x'.threads := by
  cases h with
  | connected =>
    have hcount : (x.connections.alloc .new).countP (fun s => s.pc.isBusy) = x.busyThreads :=
      Heap.countP_alloc
    exact hcount.trans_le hle
  | processed | called => exact hle
  | handled c s _ hs h =>
    obtain ⟨s', hput, hthreads, hbusy⟩ := h.busy
    have hcount : x'.busyThreads + (if s.pc.isBusy then 1 else 0) =
        x.busyThreads + if s'.pc.isBusy then 1 else 0 := by
      rw [busyThreads, hput]
      exact Heap.countP_put hs
    rw [hthreads]
    by_cases hbusy' : s'.pc.isBusy = true
    · rw [if_pos hbusy'] at hcount
      rcases hbusy hbusy' with hold | hfree
      · rw [if_pos hold] at hcount
        omega
      · omega
    · rw [if_neg hbusy'] at hcount
      omega

/-- As long as the workers that are asked have no packet, the sessions keep all threads. -/
lemma Occupied.step (h : x.Occupied l) (hkept : x.Kept) (hle : x.busyThreads ≤ x.threads)
    (hnone : ∀ c ∈ l, ∀ worker, x.Asks c worker → ¬ x.HasPacket worker) (hstep : Stepped x x') :
    x'.Occupied l ∧ SilentSince x x' := by
  cases hstep with
  | connected hfree => exact absurd hfree h.not_free
  | processed e reception he hstep =>
    exact ⟨h.server rfl rfl (Reception.step_mode he hkept.sound hstep), .refl x⟩
  | called e server he hstep =>
    exact ⟨h.server rfl rfl (Server.step_mode he hkept.sound hstep), .refl x⟩
  | handled d s _ hs hhandled =>
    have hsilent : ∀ s' : Session, x'.connections = x.connections.put d s' →
        s'.messages = s.messages → SilentSince x x' := by
      intro s' hput hmessages
      refine ⟨by rw [hput, Heap.next_put], fun c t ht => ?_⟩
      rw [hput, Heap.get_put hs]
      split_ifs with heq
      · subst heq
        cases hs.symm.trans ht
        exact ⟨s', rfl, hmessages⟩
      · exact ⟨t, ht, rfl⟩
    -- a session that is busy is one of those that ask
    have hasking : s.pc.isBusy = true → d ∈ l ∧
        ∃ worker, (s.pc = .polling worker ∨ s.pc = .polled worker) ∧ x.Patient worker := by
      intro hbusy
      have hd := h.mem_of_busy hle hs hbusy
      obtain ⟨worker, ⟨t, ht, hpc⟩, hpatient⟩ := h.asking d hd
      cases hs.symm.trans ht
      exact ⟨hd, worker, hpc, hpatient⟩
    have hnot : ∀ pc, s.pc = pc → pc.isBusy = true → (∀ worker, pc ≠ .polling worker) →
        (∀ worker, pc ≠ .polled worker) → False := by
      rintro _ rfl hbusy hpolling hpolled
      obtain ⟨-, worker, hpc | hpc, -⟩ := hasking hbusy
      · exact hpolling worker hpc
      · exact hpolled worker hpc
    cases hhandled with
    | refused _ hfree | stranger _ _ hfree | known _ _ _ hfree | disconnected hfree
    | rewritten _ hfree | broken _ hfree => exact absurd hfree h.not_free
    | registered _ _ _ hpc | modeSet _ _ hpc | pushed _ _ hpc | scheduled _ _ hpc
    | written _ hpc =>
      exact (hnot _ hpc rfl (by rintro _ ⟨⟩) (by rintro _ ⟨⟩)).elim
    | idle worker server hpc hget =>
      obtain ⟨w, -, hget'⟩ := Server.getQueuedPacket_of_pointer hkept.sound hget
      have hmode := Server.KeepsWorkers.getQueuedPacket (f := Worker.quickSendMode)
        (fun _ _ _ _ _ _ => rfl) hget'
      exact ⟨h.ask hs (by rw [hpc]; rfl) (.inr rfl) rfl rfl hmode, hsilent _ rfl rfl⟩
    | served worker server outPacket hpc hget =>
      obtain ⟨w, hw, -⟩ := Server.getQueuedPacket_of_pointer hkept.sound hget
      have hd := (hasking (by rw [hpc]; rfl)).1
      have hempty : w.senderQueue = [] ∧ w.ackPacketPop = false := by
        by_contra hpacket
        refine hnone d hd worker ⟨s, hs, .inl hpc⟩ ⟨w, hw, ?_⟩
        rw [← Bool.not_eq_false]
        tauto
      cases Server.getQueuedPacketOf_eq_none hw hempty.1 hempty.2 hget
    | quick worker w hpc hw hquick =>
      obtain ⟨-, b, hb, v, hv, hmode⟩ := hasking (by rw [hpc]; rfl)
      rw [hpc] at hb
      rcases hb with hb | hb
      · cases hb
      · cases hb
        cases hw.symm.trans hv
        rw [hquick] at hmode
        cases hmode
    | again worker w hpc hw hquick =>
      exact ⟨h.ask hs (by rw [hpc]; rfl) (.inl rfl) rfl rfl fun _ => rfl, hsilent _ rfl rfl⟩

/-- Once the sessions that wait for packets take all threads, no connection is accepted and no message
is read for as long as none of their workers has a packet. -/
theorem run_silent {addFlag : ℕ → Bool} {starveCounter : ℕ → UInt8} {totalThreads : ℤ}
    {es₁ es₂ : List (ProgramEvent n)}
    (h₁ : run step (init (.init addFlag starveCounter) n totalThreads) es₁ = .ok x)
    (hoccupied : x.Occupied l)
    (hnone : Meets step
      (fun y _ => ∀ c ∈ l, ∀ worker, y.Asks c worker → ¬ y.HasPacket worker) x es₂)
    (h₂ : run step x es₂ = .ok x') : x'.Occupied l ∧ SilentSince x x' := by
  have hle : x.busyThreads ≤ x.threads := by
    refine run_invariant (I := fun y : Program n => y.busyThreads ≤ y.threads) ?_
      (Nat.zero_le _) h₁
    exact fun y e y' hI hstep => (Stepped.of_step hstep).busyThreads_le hI
  have hall : x'.Kept ∧ x'.busyThreads ≤ x'.threads ∧ x'.Occupied l ∧ SilentSince x x' := by
    refine run_induct (I := fun y : Program n =>
      y.Kept ∧ y.busyThreads ≤ y.threads ∧ y.Occupied l ∧ SilentSince x y) ?_
      ⟨kept_of_run h₁, hle, hoccupied, .refl x⟩ hnone h₂
    rintro y e y' ⟨hkept, hy, hyo, hsilent⟩ hC hstep
    have hstepped := Stepped.of_step hstep
    obtain ⟨hyo', hsilent'⟩ := hyo.step hkept hy hC hstepped
    exact ⟨hkept.step hstepped, hstepped.busyThreads_le hy, hyo', hsilent.trans hsilent'⟩
  exact hall.2.2

/-- A packet of the worker `1234`, which waits for the next one. -/
def idlePacket : Json := .obj [("head", .int 2), ("id", .str "1234")]

/-- The only thread is taken by a session whose worker waits. -/
def occupyingRun : List (ProgramEvent 1) :=
  [.connect, .connect, .read 0 helloPacket, .register 0 [1234], .write 0 true, .rewrite 0 true,
    .read 0 idlePacket, .setMode 0, .push 0, .initValidator 0, .poll 0, .checkMode 0]

/-- The scheduler takes a step, and nothing is read. -/
theorem run_silent_oneThread : ∃ x x' : Program 1,
    run step (init (.init (fun _ => false) fun _ => 0) 1 0) occupyingRun = .ok x ∧
      run step x [.process .countSlots] = .ok x' ∧ x'.Occupied [0] ∧ SilentSince x x' := by
  obtain ⟨x, hx, ⟨hthreads, hpc, hworker⟩, hrun⟩ : ∃ x : Program 1,
      run step (init (.init (fun _ => false) fun _ => 0) 1 0) occupyingRun = .ok x ∧
      (x.threads = 1 ∧ (x.connections.get 0).map Session.pc = some (.polling 0) ∧
        (x.server.getWorker 0).map (fun w => (w.quickSendMode, w.senderQueue, w.ackPacketPop)) =
          some (false, [], false)) ∧ (run step x [.process .countSlots]).toBool = true :=
    Outcome.exists_ok_of_eval (by decide)
  obtain ⟨s, hs, hpolling⟩ := Option.map_eq_some_iff.mp hpc
  obtain ⟨w, hw, hidle⟩ := Option.map_eq_some_iff.mp hworker
  simp only [Prod.mk.injEq] at hidle
  have hoccupied : x.Occupied [0] := by
    refine ⟨List.nodup_singleton 0, hthreads.le, fun c hc => ?_⟩
    rw [List.mem_singleton.mp hc]
    exact ⟨0, ⟨s, hs, .inl hpolling⟩, w, hw, hidle.1⟩
  have hnone : ∀ c ∈ [0], ∀ worker, x.Asks c worker → ¬ x.HasPacket worker := by
    rintro c hc worker ⟨t, ht, htpc⟩ ⟨v, hv, hpacket⟩
    rw [List.mem_singleton.mp hc, hs, Option.some.injEq] at ht
    rw [← ht, hpolling] at htpc
    rcases htpc with htpc | htpc
    · cases htpc
      rw [hw, Option.some.injEq] at hv
      rw [← hv, hidle.2.1, hidle.2.2] at hpacket
      simp at hpacket
    · cases htpc
  obtain ⟨x', hx', -⟩ := Outcome.exists_ok_and hrun (P := fun _ => True) fun _ _ => trivial
  refine ⟨x, x', hx, hx', run_silent hx hoccupied ?_ hx'⟩
  exact ⟨hnone, fun _ _ => trivial⟩

end Program

end ServerUnit
