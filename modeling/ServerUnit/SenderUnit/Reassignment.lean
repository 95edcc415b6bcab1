import ServerUnit.SenderUnit.IdealWorker
import ServerUnit.Sched.Removal

/-!
# Pending packets handed out again

The packets of a removed worker wait on a list of the sender core. `pushPendingPackets` hands each
of them to the worker that `findIdealWorker` finds. It does not look whether one was found for the
first packet, nor whether the worker took the packet; and it leaves the packet addressed, and its
table assigned, as they were. As more packets make a worker the better choice, all packets go to
the worker that is found for the first.
-/

namespace ServerUnit

open Lib

/-! ### The worker found is found again -/

/-- What the candidates are compared by. -/
def Candidate.key (c : Candidate) : Points ×ₗ ℤ :=
  toLex (c.finalWorkerPoints, c.finalworkerQueueSize)

/-- The worker is as it was, or the one with the UID has got a smaller size. -/
def Shrinks (workerUid : String) (w w' : Worker) : Prop :=
  w' = w ∨ w'.workerUID = workerUid ∧ w.workerUID = workerUid ∧ w'.workerReady = w.workerReady ∧
    w'.workerStats = w.workerStats ∧ w'.getQueueSize ≤ w.getQueueSize

section Choice

variable {taskPriority : TaskPriority} {workerUid : String} {w w' : Worker}
  {final final' r : Option Candidate} {workers workers' : Heap Worker} {list : List WorkerRef}

/-- One round keeps the better candidate, if the worker is one. -/
lemma considerWorker_takeMin {points : Points} (hready : w.workerReady = true)
    (hstats : w.workerStats.taskQueue.length ≠ 0)
    (hpoints : workerPoints w.workerStats taskPriority = .ok points) :
    considerWorker taskPriority final w =
      .ok (takeMin Candidate.key final ⟨w.workerUID, w.getQueueSize, points⟩) := by
  simp only [considerWorker, hready, Bool.not_true, Bool.false_eq_true, if_false, hstats, hpoints,
    Outcome.ok_bind]
  cases final with
  | none => rfl
  | some c =>
    simp only [takeMin, Candidate.key, Prod.Lex.toLex_le_toLex', gt_iff_lt]
    by_cases hle : points ≤ c.finalWorkerPoints
    · by_cases hsize : points = c.finalWorkerPoints ∧ c.finalworkerQueueSize < w.getQueueSize
      · rw [if_pos hle, if_pos hsize, if_neg fun h => absurd (h.2 hsize.1) (not_le.mpr hsize.2)]
        rfl
      · rw [if_pos hle, if_neg hsize, if_pos ⟨hle, fun h => not_lt.mp fun hlt => hsize ⟨h, hlt⟩⟩]
        rfl
    · rw [if_neg hle, if_neg fun h => hle h.1]
      rfl

/-- One round, with a worker that may have a smaller size. -/
lemma considerWorker_overtakes (hw : Shrinks workerUid w w')
    (hfinal : Overtakes Candidate.key (·.finalWorkerUid = workerUid) final final')
    (h : considerWorker taskPriority final w = .ok r) :
    ∃ r', considerWorker taskPriority final' w' = .ok r' ∧
      Overtakes Candidate.key (·.finalWorkerUid = workerUid) r r' := by
  have hready : w'.workerReady = w.workerReady := by
    rcases hw with rfl | ⟨-, -, hready, -⟩
    · rfl
    · exact hready
  have hstats : w'.workerStats = w.workerStats := by
    rcases hw with rfl | ⟨-, -, -, hstats, -⟩
    · rfl
    · exact hstats
  by_cases hpass : w.workerReady = true ∧ w.workerStats.taskQueue.length ≠ 0
  · obtain ⟨points, hpoints⟩ : ∃ points, workerPoints w.workerStats taskPriority = .ok points := by
      simp only [considerWorker, hpass.1, hpass.2, Bool.not_true, Bool.false_eq_true, if_false,
        Outcome.bind_eq_ok] at h
      obtain ⟨points, hpoints, -⟩ := h
      exact ⟨points, hpoints⟩
    rw [considerWorker_takeMin hpass.1 hpass.2 hpoints] at h
    cases h
    refine ⟨_, considerWorker_takeMin (hready.trans hpass.1) (hstats ▸ hpass.2)
      (hstats ▸ hpoints), hfinal.takeMin ?_⟩
    rcases hw with rfl | ⟨huid, -, -, -, hsize⟩
    · exact .inl rfl
    · exact .inr ⟨huid, Prod.Lex.toLex_le_toLex'.mpr ⟨le_rfl, fun _ => hsize⟩⟩
  · have hkept : ∀ (final : Option Candidate) (w : Worker), ¬ (w.workerReady = true ∧
        w.workerStats.taskQueue.length ≠ 0) → considerWorker taskPriority final w = .ok final := by
      intro final w hnot
      rw [considerWorker]
      split_ifs with hready hempty
      · rfl
      · rfl
      · exact absurd ⟨by simpa using hready, hempty⟩ hnot
    rw [hkept final w hpass] at h
    cases h
    exact ⟨final', hkept final' w' (by rwa [hready, hstats]), hfinal⟩

/-- The whole loop. -/
lemma chooseWorker_overtakes
    (hworkers : ∀ b w, workers.get b = some w → ∃ w', workers'.get b = some w' ∧
      Shrinks workerUid w w')
    (hfinal : Overtakes Candidate.key (·.finalWorkerUid = workerUid) final final')
    (h : chooseWorker workers taskPriority final list = .ok r) :
    ∃ r', chooseWorker workers' taskPriority final' list = .ok r' ∧
      Overtakes Candidate.key (·.finalWorkerUid = workerUid) r r' := by
  induction list generalizing final final' with
  | nil =>
    cases h
    exact ⟨final', rfl, hfinal⟩
  | cons b list ih =>
    simp only [chooseWorker, Outcome.bind_eq_ok, Heap.deref_eq_ok] at h
    obtain ⟨w, hw, next, hnext, h⟩ := h
    obtain ⟨w', hw', hshrinks⟩ := hworkers b w hw
    obtain ⟨next', hnext', hovertakes⟩ := considerWorker_overtakes hshrinks hfinal hnext
    obtain ⟨r', hr', hresult⟩ := ih hovertakes h
    refine ⟨r', ?_, hresult⟩
    simp only [chooseWorker, Heap.deref, hw', Outcome.ofOption, Outcome.ok_bind, hnext']
    exact hr'

end Choice

namespace Server

/-- The worker took the packet. -/
def requeue (s : Server) (worker : WorkerRef) (w : Worker) (p : OutPacketRef) : Server :=
  s.putWorker worker { w with senderQueue := w.senderQueue ++ [p] }

/-- Each packet went to the back of the queue of its new worker, which is registered, which its
table names, and to which it is addressed. -/
structure Reassigned (s s' : Server) (moves : List (OutPacketRef × WorkerRef)) : Prop where
  queued : ∀ b w, s.getWorker b = some w → ∃ w', s'.getWorker b = some w' ∧
    w'.senderQueue = w.senderQueue ++ (moves.filter (·.2 = b)).map Prod.fst
  readdressed : ∀ m ∈ moves, m.2 ∈ s'.workerRegistry.currentWorkerList ∧ s'.Names m.1 m.2 ∧
    ∃ w' o, s'.getWorker m.2 = some w' ∧ s'.outPackets.get m.1 = some o ∧
      o.packet.id = w'.workerUID

/-- The call returns, and so has used no null worker; the packets it took off the list are with
their new workers, the others stay on the list; and it says whether the list is empty. -/
def ReassignsAll (s : Server) (outPacketList : List OutPacketRef) : Prop :=
  ∃ s' rest rc moves, s.pushPendingPackets outPacketList = .ok (s', rest, rc) ∧
    outPacketList = moves.map Prod.fst ++ rest ∧ Reassigned s s' moves ∧ (rc = 0 ↔ rest = [])

/-- The packet is one of the worker: its table names it, and it is addressed to it. -/
structure Belongs (s : Server) (p : OutPacketRef) (worker : WorkerRef) (w : Worker) : Prop where
  names : s.Names p worker
  addressed : ∃ o, s.outPackets.get p = some o ∧ o.packet.id = w.workerUID

/-- There is no packet and the choice of a worker returns, or the worker found has room for all
packets, can be locked, and is the one they belong to. -/
def SentHome (s : Server) (outPacketList : List OutPacketRef) : Prop :=
  (outPacketList = [] ∧
    ∃ found, findIdealWorker s.workerRegistry .defaultPriority = .ok found) ∨
  ∃ worker w, findIdealWorker s.workerRegistry .defaultPriority = .ok (some worker) ∧
    s.getWorker worker = some w ∧ 0 < w.workerLock ∧
    w.senderQueue.length + outPacketList.length ≤ WORKER_QUEUE_SIZE + 1 ∧
    ∀ p ∈ outPacketList, s.Belongs p worker w

/-- With a full `senderQueue` the number of packets of each worker is in the range of an `int`:
`getQueuedPacket` adds to no `ackPendingQueue` that has more than half as many. -/
def SmallQueues (s : Server) : Prop :=
  ∀ b w, s.getWorker b = some w → w.ackPendingQueue.length + (WORKER_QUEUE_SIZE + 1) < 2 ^ 31

variable {s s' : Server} {worker b : WorkerRef} {w : Worker} {p : OutPacketRef}
  {outPacketList rest : List OutPacketRef} {rc : ℤ} {moves : List (OutPacketRef × WorkerRef)}

/-- The worker found takes a packet, and is found again. -/
lemma findIdealWorker_requeue {taskPriority : TaskPriority}
    (hfound : findIdealWorker s.workerRegistry taskPriority = .ok (some worker))
    (hw : s.getWorker worker = some w) (hsmall : w.packetCount + 1 < 2 ^ 31) :
    findIdealWorker (s.requeue worker w p).workerRegistry taskPriority = .ok (some worker) := by
  simp only [findIdealWorker, Outcome.bind_eq_ok] at hfound
  obtain ⟨_ | final, hchoose, hfound⟩ := hfound
  · cases hfound
  simp only at hfound
  split_ifs at hfound with hempty
  · cases hfound
  obtain ⟨-, w₀, hw₀, huid⟩ := WorkerRegistry.of_getWorkerFromUid hfound
  cases hw.symm.trans hw₀
  have hsize : Worker.getQueueSize { w with senderQueue := w.senderQueue ++ [p] } ≤
      w.getQueueSize := by
    have hmore : Worker.packetCount { w with senderQueue := w.senderQueue ++ [p] } =
        w.packetCount + 1 := by
      simp only [Worker.packetCount, List.length_append, List.length_singleton]
      omega
    rw [WorkerRegistry.getQueueSize_eq (hmore ▸ hsmall), hmore,
      WorkerRegistry.getQueueSize_eq (by omega)]
    omega
  have hworkers : ∀ b v, s.workerRegistry.workers.get b = some v →
      ∃ v', (s.requeue worker w p).workerRegistry.workers.get b = some v' ∧
        Shrinks final.finalWorkerUid v v' := by
    intro b v hv
    by_cases hb : b = worker
    · subst hb
      cases hw.symm.trans hv
      exact ⟨_, Heap.get_put_self hw, .inr ⟨huid, huid, rfl, rfl, hsize⟩⟩
    · exact ⟨v, (Heap.get_put_of_ne hb).trans hv, .inl rfl⟩
  obtain ⟨final', hchoose', hovertakes⟩ := chooseWorker_overtakes hworkers (.inl rfl) hchoose
  obtain ⟨c, rfl, hc⟩ : ∃ c, final' = some c ∧ c.finalWorkerUid = final.finalWorkerUid := by
    rcases hovertakes with rfl | ⟨_, c, -, rfl, hc, -⟩
    · exact ⟨final, rfl, rfl⟩
    · exact ⟨c, rfl, hc⟩
  have hget : (s.requeue worker w p).workerRegistry.getWorkerFromUid final.finalWorkerUid =
      .ok (some worker) := by
    have huids : ∀ b, ((s.requeue worker w p).workerRegistry.workers.get b).map Worker.workerUID =
        (s.workerRegistry.workers.get b).map Worker.workerUID := by
      intro b
      by_cases hb : b = worker
      · subst hb
        have hget : s.workerRegistry.workers.get b = some w := hw
        rw [requeue, putWorker, Heap.get_put_self hw, hget]
        rfl
      · rw [requeue, putWorker, Heap.get_put_of_ne hb]
    have hlist : (s.requeue worker w p).workerRegistry.currentWorkerList =
        s.workerRegistry.currentWorkerList := rfl
    rw [← hfound]
    exact WorkerRegistry.getWorkerFromUid_congr hlist huids
  simp only [findIdealWorker, Outcome.bind_eq_ok]
  refine ⟨some c, hchoose', ?_⟩
  simp only [hc, hempty, Bool.false_eq_true, if_false]
  exact hget

/-! ### What the call does with one packet -/

lemma pushPendingPackets_nil : s.pushPendingPackets [] = .ok (s', rest, rc) ↔
    (∃ found, findIdealWorker s.workerRegistry .defaultPriority = .ok found) ∧
      s' = s ∧ rest = [] ∧ rc = 0 := by
  simp only [pushPendingPackets, pushPendingLoop, Outcome.bind_eq_ok, Except.ok.injEq,
    Prod.mk.injEq, exists_and_right, eq_comm (a := s), eq_comm (a := ([] : List OutPacketRef)),
    eq_comm (a := (0 : ℤ))]

/-- The worker takes the packet, and the call goes on if it finds a worker for the next one. -/
lemma pushPendingPackets_accepted
    (hfound : findIdealWorker s.workerRegistry .defaultPriority = .ok (some worker))
    (hw : s.getWorker worker = some w) (hroom : w.senderQueue.length ≤ WORKER_QUEUE_SIZE)
    (hfree : 0 < w.workerLock) :
    s.pushPendingPackets (p :: outPacketList) = (do
      let next ← findIdealWorker (s.requeue worker w p).workerRegistry .defaultPriority
      if next.isNone then
        return (s.requeue worker w p, outPacketList, -1)
      else
        (s.requeue worker w p).pushPendingLoop next outPacketList) := by
  obtain ⟨lock, hlock⟩ := Nat.exists_eq_succ_of_ne_zero hfree.ne'
  have hqueue : w.queuePacket p =
      .ok ({ w with senderQueue := w.senderQueue ++ [p] }, 0) := by
    rw [Worker.queuePacket, if_neg (Nat.not_lt.mpr hroom), semWait_eq_ok.mpr hlock]
    simp [semPost, hlock, pure, Except.pure]
  simp only [pushPendingPackets, hfound, Outcome.ok_bind, pushPendingLoop, Outcome.ofOption,
    Heap.deref, show s.workerRegistry.workers.get worker = some w from hw, hqueue, requeue]

/-- A full queue refuses this packet and, as nothing changes, all others. -/
lemma pushPendingLoop_refused
    (hfound : findIdealWorker s.workerRegistry .defaultPriority = .ok (some worker))
    (hw : s.getWorker worker = some w) (hfull : WORKER_QUEUE_SIZE < w.senderQueue.length) :
    s.pushPendingLoop (some worker) outPacketList = .ok (s, [], 0) := by
  have hqueue : ∀ p, w.queuePacket p = .ok (w, 1) := fun p => if_pos hfull
  induction outPacketList with
  | nil => rfl
  | cons p outPacketList ih =>
    simp only [pushPendingLoop, Outcome.ofOption, Outcome.ok_bind, Heap.deref,
      show s.workerRegistry.workers.get worker = some w from hw, hqueue, putWorker_self hw, hfound,
      Option.isNone_some, Bool.false_eq_true, if_false, ih]

/-- What a call does with the first packet, and with the others. -/
lemma pushPendingPackets_cons
    (h : s.pushPendingPackets (p :: outPacketList) = .ok (s', rest, rc)) :
    ∃ worker w, findIdealWorker s.workerRegistry .defaultPriority = .ok (some worker) ∧
      s.getWorker worker = some w ∧
      (WORKER_QUEUE_SIZE < w.senderQueue.length ∧ s' = s ∧ rest = [] ∧ rc = 0 ∨
        w.senderQueue.length ≤ WORKER_QUEUE_SIZE ∧ 0 < w.workerLock ∧
          (findIdealWorker (s.requeue worker w p).workerRegistry .defaultPriority = .ok none ∧
              s' = s.requeue worker w p ∧ rest = outPacketList ∧ rc = -1 ∨
            (∃ next, findIdealWorker (s.requeue worker w p).workerRegistry .defaultPriority
                = .ok (some next)) ∧
              (s.requeue worker w p).pushPendingPackets outPacketList = .ok (s', rest, rc))) := by
  have hcall := h
  simp only [pushPendingPackets, pushPendingLoop, Outcome.bind_eq_ok, Outcome.ofOption_eq_ok,
    Heap.deref_eq_ok] at h
  obtain ⟨_, hfound, worker, rfl, w, hw, ⟨w', rc'⟩, hqueue, -⟩ := h
  refine ⟨worker, w, hfound, hw, ?_⟩
  rcases Nat.lt_or_ge WORKER_QUEUE_SIZE w.senderQueue.length with hfull | hroom
  · left
    rw [pushPendingPackets, hfound, Outcome.ok_bind,
      pushPendingLoop_refused hfound hw hfull] at hcall
    cases hcall
    exact ⟨hfull, rfl, rfl, rfl⟩
  · right
    have hfree : 0 < w.workerLock := by
      rcases Worker.queuePacket_cases hqueue with ⟨hfull, -⟩ | ⟨-, hfree, -⟩
      · exact absurd hroom (Nat.not_le.mpr hfull)
      · exact hfree
    rw [pushPendingPackets_accepted hfound hw hroom hfree] at hcall
    simp only [Outcome.bind_eq_ok] at hcall
    obtain ⟨next, hnext, hcall⟩ := hcall
    refine ⟨hroom, hfree, ?_⟩
    cases next with
    | none =>
      cases hcall
      exact .inl ⟨hnext, rfl, rfl, rfl⟩
    | some next =>
      refine .inr ⟨⟨next, hnext⟩, ?_⟩
      rw [pushPendingPackets, hnext, Outcome.ok_bind]
      simpa using hcall

/-! ### What the call leaves as it is -/

/-- Packets may have come to the queues; nothing else has changed that tells where they belong. -/
structure Requeues (s s' : Server) : Prop where
  packets : s'.outPackets = s.outPackets
  registry : s'.outgoingDataRegistry = s.outgoingDataRegistry
  list : s'.workerRegistry.currentWorkerList = s.workerRegistry.currentWorkerList
  workers : ∀ b w, s.getWorker b = some w → ∃ w' queue, s'.getWorker b = some w' ∧
    w'.workerUID = w.workerUID ∧ w'.senderQueue = w.senderQueue ++ queue

namespace Requeues

lemma refl (s : Server) : Requeues s s :=
  ⟨rfl, rfl, rfl, fun _ w hw => ⟨w, [], hw, rfl, (List.append_nil _).symm⟩⟩

lemma trans {t : Server} (h : Requeues s t) (h' : Requeues t s') : Requeues s s' := by
  refine ⟨h'.packets.trans h.packets, h'.registry.trans h.registry, h'.list.trans h.list,
    fun b w hw => ?_⟩
  obtain ⟨v, queue, hv, huid, hqueue⟩ := h.workers b w hw
  obtain ⟨w', queue', hw', huid', hqueue'⟩ := h'.workers b v hv
  exact ⟨w', queue ++ queue', hw', huid'.trans huid, by rw [hqueue', hqueue, List.append_assoc]⟩

lemma requeue (hw : s.getWorker worker = some w) : Requeues s (s.requeue worker w p) := by
  refine ⟨rfl, rfl, rfl, fun b v hv => ?_⟩
  by_cases hb : b = worker
  · subst hb
    cases hw.symm.trans hv
    exact ⟨_, [p], Heap.get_put_self hw, rfl, rfl⟩
  · exact ⟨v, [], (Heap.get_put_of_ne hb).trans hv, rfl, (List.append_nil _).symm⟩

/-- The packets left on the list are its last ones. -/
lemma pushPendingPackets (h : s.pushPendingPackets outPacketList = .ok (s', rest, rc)) :
    Requeues s s' ∧ rest <:+ outPacketList := by
  induction outPacketList generalizing s with
  | nil =>
    obtain ⟨-, rfl, rfl, -⟩ := pushPendingPackets_nil.mp h
    exact ⟨refl _, List.suffix_refl _⟩
  | cons p outPacketList ih =>
    obtain ⟨worker, w, -, hw, ⟨-, rfl, rfl, -⟩ | ⟨-, -, ⟨-, rfl, rfl, -⟩ | ⟨-, hrest⟩⟩⟩ :=
      pushPendingPackets_cons h
    · exact ⟨refl _, List.nil_suffix⟩
    · exact ⟨requeue hw, List.suffix_cons _ _⟩
    · obtain ⟨hframe, hsuffix⟩ := ih hrest
      exact ⟨(requeue hw).trans hframe, hsuffix.trans (List.suffix_cons _ _)⟩

lemma names (h : Requeues s s') : s'.Names p worker ↔ s.Names p worker := by
  rw [Names, Names, h.packets, h.registry]

end Requeues

/-! ### When all goes well -/

/-- The packet went to the worker, and the others to theirs. -/
lemma Reassigned.cons (hw : s.getWorker worker = some w)
    (h : Reassigned (s.requeue worker w p) s' moves)
    (hlist : worker ∈ s'.workerRegistry.currentWorkerList) (hnames : s'.Names p worker)
    (haddressed : ∃ w' o, s'.getWorker worker = some w' ∧ s'.outPackets.get p = some o ∧
      o.packet.id = w'.workerUID) :
    Reassigned s s' ((p, worker) :: moves) := by
  constructor
  · intro b v hv
    by_cases hb : b = worker
    · subst hb
      cases hw.symm.trans hv
      obtain ⟨w', hw', hqueue⟩ := h.queued b _ (Heap.get_put_self hw)
      exact ⟨w', hw', by simp [hqueue]⟩
    · obtain ⟨w', hw', hqueue⟩ := h.queued b v ((Heap.get_put_of_ne hb).trans hv)
      exact ⟨w', hw', by simp [hqueue, Ne.symm hb]⟩
  · intro m hm
    rcases List.mem_cons.mp hm with rfl | hm
    · exact ⟨hlist, hnames, haddressed⟩
    · exact h.readdressed m hm

lemma Reassigned.nil (s : Server) : Reassigned s s [] :=
  ⟨fun _ w hw => ⟨w, hw, by simp⟩, by simp⟩

lemma SmallQueues.requeue (h : s.SmallQueues) (hw : s.getWorker worker = some w) :
    (s.requeue worker w p).SmallQueues := by
  intro b v hv
  by_cases hb : b = worker
  · subst hb
    cases (Heap.get_put_self hw).symm.trans hv
    exact h b w hw
  · exact h b v ((Heap.get_put_of_ne hb).symm.trans hv)

/-- A worker with room can take one more packet without leaving that range. -/
lemma SmallQueues.packetCount_lt (h : s.SmallQueues) (hw : s.getWorker worker = some w)
    (hroom : w.senderQueue.length ≤ WORKER_QUEUE_SIZE) : w.packetCount + 1 < 2 ^ 31 := by
  have hpending := h worker w hw
  rw [Worker.packetCount]
  omega

lemma SentHome.reassignsAll (h : s.SentHome outPacketList) (hsmall : s.SmallQueues) :
    s.ReassignsAll outPacketList := by
  induction outPacketList generalizing s with
  | nil =>
    have hfound : ∃ found, findIdealWorker s.workerRegistry .defaultPriority = .ok found := by
      rcases h with ⟨-, hfound⟩ | ⟨worker, -, hfound, -⟩
      · exact hfound
      · exact ⟨_, hfound⟩
    refine ⟨s, [], 0, [], ?_, rfl, .nil s, by simp⟩
    exact pushPendingPackets_nil.mpr ⟨hfound, rfl, rfl, rfl⟩
  | cons p outPacketList ih =>
    obtain ⟨⟨⟩, -⟩ | ⟨worker, w, hfound, hw, hfree, hroom, hbelong⟩ := h
    rw [List.length_cons] at hroom
    have hnext : findIdealWorker (s.requeue worker w p).workerRegistry .defaultPriority =
        .ok (some worker) :=
      findIdealWorker_requeue hfound hw (hsmall.packetCount_lt hw (by omega))
    have hothers : (s.requeue worker w p).SentHome outPacketList := by
      refine .inr ⟨worker, _, hnext, Heap.get_put_self hw, hfree, ?_, fun q hq => ?_⟩
      · rw [List.length_append, List.length_singleton]
        omega
      · obtain ⟨hnames, haddressed⟩ := hbelong q (List.mem_cons_of_mem _ hq)
        exact ⟨hnames, haddressed⟩
    obtain ⟨s', rest, rc, moves, hresult, htaken, hmoves, hcode⟩ := ih hothers (hsmall.requeue hw)
    obtain ⟨hframe, -⟩ := Requeues.pushPendingPackets hresult
    have hall := (Requeues.requeue hw).trans hframe
    refine ⟨s', rest, rc, (p, worker) :: moves, ?_, by simp [htaken], ?_, hcode⟩
    · rw [pushPendingPackets, hnext, Outcome.ok_bind] at hresult
      rw [pushPendingPackets_accepted hfound hw (by omega) hfree, hnext, ← hresult]
      rfl
    · obtain ⟨hnames, o, ho, haddressed⟩ := hbelong p List.mem_cons_self
      obtain ⟨w', -, hw', huid, -⟩ := hall.workers worker w hw
      exact hmoves.cons hw (hall.list ▸ mem_of_findIdealWorker hfound) (hall.names.mpr hnames)
        ⟨w', o, hw', hall.packets ▸ ho, haddressed.trans huid.symm⟩

/-! ### When it does not -/

/-- A call that takes packets off the list without storing one of them has lost them. -/
lemma Reassigned.eq_nil_of_self (h : Reassigned s s moves) : moves = [] := by
  rw [List.eq_nil_iff_forall_not_mem]
  intro m hm
  obtain ⟨-, -, w, -, hw, -⟩ := h.readdressed m hm
  obtain ⟨w', hw', hqueue⟩ := h.queued m.2 w hw
  cases hw.symm.trans hw'
  have hnil : (moves.filter (·.2 = m.2)).map Prod.fst = [] := by simpa using hqueue
  have hmem : m ∈ moves.filter (·.2 = m.2) := List.mem_filter.mpr ⟨hm, by simp⟩
  rw [List.map_eq_nil_iff.mp hnil] at hmem
  cases hmem

/-- The first packet went to the worker that took it, and the others from there. -/
lemma Reassigned.uncons {m : OutPacketRef × WorkerRef} (hw : s.getWorker worker = some w)
    (hframe : Requeues (s.requeue worker w m.1) s') (h : Reassigned s s' (m :: moves)) :
    m.2 = worker ∧ Reassigned (s.requeue worker w m.1) s' moves := by
  -- the first packet that came to the worker's queue is this one
  obtain ⟨w', queue, hw', -, hback⟩ := hframe.workers worker _ (Heap.get_put_self hw)
  obtain ⟨v, hv, hqueue⟩ := h.queued worker w hw
  cases hw'.symm.trans hv
  have hnews : ((m :: moves).filter (·.2 = worker)).map Prod.fst = m.1 :: queue := by
    rw [hqueue, List.append_assoc] at hback
    exact List.append_cancel_left hback
  have hhome : m.2 = worker := by
    have hmem : m.1 ∈ ((m :: moves).filter (·.2 = worker)).map Prod.fst := by simp [hnews]
    obtain ⟨m', hm', heq⟩ := List.mem_map.mp hmem
    obtain ⟨hm', hworker⟩ := List.mem_filter.mp hm'
    obtain ⟨-, hnames, -⟩ := h.readdressed m List.mem_cons_self
    obtain ⟨-, hnames', -⟩ := h.readdressed m' hm'
    rw [heq] at hnames'
    exact (hnames.unique hnames').trans (by simpa using hworker)
  refine ⟨hhome, fun b u hu => ?_, fun m' hm' => h.readdressed m' (List.mem_cons_of_mem _ hm')⟩
  by_cases hb : b = worker
  · subst hb
    have hsame : s.getWorker b = some w ∧ u = { w with senderQueue := w.senderQueue ++ [m.1] } :=
      ⟨hw, Option.some.inj (hu.symm.trans (Heap.get_put_self hw))⟩
    refine ⟨w', hw', ?_⟩
    rw [hqueue, hsame.2]
    simp [hhome]
  · obtain ⟨u', hu', hqueue'⟩ := h.queued b u ((Heap.get_put_of_ne hb).symm.trans hu)
    refine ⟨u', hu', ?_⟩
    rw [hqueue', List.filter_cons_of_neg (by simp [hhome, Ne.symm hb])]

/-- A packet that was sent home, and the others that will be. -/
lemma SentHome.cons (hfound : findIdealWorker s.workerRegistry .defaultPriority = .ok (some worker))
    (hw : s.getWorker worker = some w) (hfree : 0 < w.workerLock)
    (hroom : w.senderQueue.length ≤ WORKER_QUEUE_SIZE) (hbelongs : s.Belongs p worker w)
    (hnext : findIdealWorker (s.requeue worker w p).workerRegistry .defaultPriority =
      .ok (some worker))
    (h : (s.requeue worker w p).SentHome outPacketList) : s.SentHome (p :: outPacketList) := by
  refine .inr ⟨worker, w, hfound, hw, hfree, ?_⟩
  rcases h with ⟨rfl, -⟩ | ⟨worker', w', hfound', hw', -, hroom', hbelong⟩
  · refine ⟨?_, fun q hq => ?_⟩
    · rw [List.length_singleton]
      omega
    · rw [List.mem_singleton.mp hq]
      exact hbelongs
  · cases hnext.symm.trans hfound'
    cases (Heap.get_put_self hw).symm.trans hw'
    rw [List.length_append, List.length_singleton] at hroom'
    refine ⟨?_, fun q hq => ?_⟩
    · rw [List.length_cons]
      omega
    · rcases List.mem_cons.mp hq with rfl | hq
      · exact hbelongs
      · obtain ⟨hnames, haddressed⟩ := hbelong q hq
        exact ⟨hnames, haddressed⟩

lemma ReassignsAll.sentHome (h : s.ReassignsAll outPacketList) (hsmall : s.SmallQueues) :
    s.SentHome outPacketList := by
  induction outPacketList generalizing s with
  | nil =>
    obtain ⟨s', rest, rc, moves, hcall, -⟩ := h
    exact .inl ⟨rfl, (pushPendingPackets_nil.mp hcall).1⟩
  | cons p outPacketList ih =>
    obtain ⟨s', rest, rc, moves, hcall, htaken, hmoves, hcode⟩ := h
    obtain ⟨worker, w, hfound, hw, ⟨-, rfl, rfl, -⟩ | ⟨hroom, hfree, hnext⟩⟩ :=
      pushPendingPackets_cons hcall
    · -- the queue was full, and all packets are gone
      rw [hmoves.eq_nil_of_self] at htaken
      cases htaken
    · have hsame : findIdealWorker (s.requeue worker w p).workerRegistry .defaultPriority =
          .ok (some worker) := findIdealWorker_requeue hfound hw (hsmall.packetCount_lt hw hroom)
      obtain ⟨hnone, -⟩ | ⟨-, hrest⟩ := hnext
      · cases hsame.symm.trans hnone
      obtain ⟨hframe, hsuffix⟩ := Requeues.pushPendingPackets hrest
      obtain ⟨m, moves, rfl⟩ : ∃ m moves', moves = m :: moves' := by
        rw [← List.ne_nil_iff_exists_cons]
        rintro rfl
        have hlength := hsuffix.length_le
        rw [← htaken.trans (List.nil_append rest)] at hlength
        simp at hlength
      obtain ⟨rfl, htail⟩ := List.cons.inj htaken
      obtain ⟨hhome, hmoves'⟩ := hmoves.uncons hw hframe
      have hall := (Requeues.requeue hw).trans hframe
      obtain ⟨-, hnames, w', o, hw', ho, haddressed⟩ := hmoves.readdressed m List.mem_cons_self
      obtain ⟨v, -, hv, huid, -⟩ := hall.workers worker w hw
      rw [hhome] at hnames hw'
      cases hw'.symm.trans hv
      have hbelongs : s.Belongs m.1 worker w :=
        ⟨hall.names.mp hnames, o, hall.packets ▸ ho, haddressed.trans huid⟩
      exact .cons hfound hw hfree hroom hbelongs hsame
        (ih ⟨s', rest, rc, moves, hrest, htail, hmoves', hcode⟩ (hsmall.requeue hw))

/-- For any list of packets and any workers: the call reassigns the packets without loss, and says
truly whether any is left, exactly when there is none or all of them belong to the worker that is
found, which has room for them. -/
theorem reassignsAll_iff (hsmall : s.SmallQueues) :
    s.ReassignsAll outPacketList ↔ s.SentHome outPacketList :=
  ⟨fun h => h.sentHome hsmall, fun h => h.reassignsAll hsmall⟩

/-- The worker `2`, ready for user data, with two packets of its own pending. -/
def homeServer : Server :=
  { init (fun _ => false) (fun _ => 0) with
    outPackets :=
      ⟨[some (.new ⟨.spDataSent, "2", .userData "A" .lowPriority "T" "1,2"⟩ (some 0) true),
        some (.new ⟨.spDataSent, "2", .userData "B" .lowPriority "T" "3"⟩ (some 1) true)]⟩
    outgoingDataRegistry :=
      ⟨[0, 1], ⟨[some ⟨"A", .dataReady, some 1⟩, some ⟨"B", .dataReady, some 1⟩]⟩⟩
    workerRegistry := ⟨⟨[none, some { Worker.new "2" with
      workerReady := true, workerStats := ⟨1, [0, 0, 0, 0], 1⟩ }]⟩, [1], ["1"], false⟩ }

/-- Both packets go to the worker. -/
theorem reassignsAll_homeServer : homeServer.ReassignsAll [0, 1] := by
  have hsmall : homeServer.SmallQueues := by
    intro b w hw
    match b, hw with
    | 1, hw =>
      cases hw
      decide
  have hfound : findIdealWorker homeServer.workerRegistry .defaultPriority = .ok (some 1) := by
    obtain ⟨found, hfound, rfl⟩ : ∃ found,
        findIdealWorker homeServer.workerRegistry .defaultPriority = .ok found ∧ found = some 1 :=
      Outcome.exists_ok_of_eval (by decide)
    exact hfound
  refine (reassignsAll_iff hsmall).mpr (.inr ⟨1, _, hfound, rfl, by decide, by decide, ?_⟩)
  intro p hp
  rcases List.mem_pair.mp hp with rfl | rfl
  · exact ⟨⟨_, 0, _, rfl, rfl, rfl, rfl⟩, _, rfl, rfl⟩
  · exact ⟨⟨_, 1, _, rfl, rfl, rfl, rfl⟩, _, rfl, rfl⟩

/-- The worker `2`, ready for user data, with the packet of the removed worker `1` pending. -/
def orphanServer (senderQueue : List OutPacketRef) : Server :=
  { init (fun _ => false) (fun _ => 0) with
    outPackets :=
      ⟨[some (.new ⟨.spDataSent, "1", .userData "A" .lowPriority "T" "1,2"⟩ (some 0) true)]⟩
    outgoingDataRegistry := ⟨[0], ⟨[some ⟨"A", .dataReady, some 0⟩]⟩⟩
    workerRegistry := ⟨⟨[none, some { Worker.new "2" with
      senderQueue
      workerReady := true
      workerStats := ⟨1, [0, 0, 0, 0], 1⟩ }]⟩, [1], ["1"], false⟩ }

/-- With no worker, a null pointer is used. A worker that is found gets the packet, which still
carries the UID of the removed one; and when its queue is full the packet is gone. -/
theorem not_reassignsAll :
    ((init (fun _ => false) (fun _ => 0)).pushPendingPackets [0] = .error .undefined ∧
      ¬ (init (fun _ => false) (fun _ => 0)).ReassignsAll [0]) ∧
    (∃ s' rest rc, (orphanServer []).pushPendingPackets [0] = .ok (s', rest, rc) ∧
      (s'.getWorker 1).map Worker.senderQueue = some [0] ∧
      (s'.outPackets.get 0).map (·.packet.id) = some "1") ∧
    ∃ s' rest rc,
      (orphanServer (List.range' 1 21)).pushPendingPackets [0] = .ok (s', rest, rc) ∧
      (s'.getWorker 1).map Worker.senderQueue = some (List.range' 1 21) ∧ rest = [] ∧ rc = 0 := by
  refine ⟨⟨rfl, ?_⟩, ?_, ?_⟩
  · rintro ⟨s', rest, rc, moves, hcall, -⟩
    cases hcall
  · obtain ⟨⟨s', rest, rc⟩, h, hqueue, hid⟩ :
        ∃ r, (orphanServer []).pushPendingPackets [0] = .ok r ∧
          (r.1.getWorker 1).map Worker.senderQueue = some [0] ∧
          (r.1.outPackets.get 0).map (·.packet.id) = some "1" :=
      Outcome.exists_ok_of_eval (by decide)
    exact ⟨s', rest, rc, h, hqueue, hid⟩
  · obtain ⟨⟨s', rest, rc⟩, h, hqueue, hrest, hrc⟩ :
        ∃ r, (orphanServer (List.range' 1 21)).pushPendingPackets [0] = .ok r ∧
          (r.1.getWorker 1).map Worker.senderQueue = some (List.range' 1 21) ∧ r.2.1 = [] ∧
            r.2.2 = 0 :=
      Outcome.exists_ok_of_eval (by decide)
    exact ⟨s', rest, rc, h, hqueue, hrest, hrc⟩

end Server

end ServerUnit
