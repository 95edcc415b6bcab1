import ServerUnit.Server.Steps
import ServerUnit.Server.Roster

/-!
# Packets offered to the workers

The sender core makes packets and offers each to the queue of a worker, and never looks at
whether the queue took it. Its calls are seen here as the list of their offers: which
packets a worker's queue then has, and when a packet that was made is in no queue.
-/

namespace ServerUnit

open Lib

namespace Worker

/-- The identity of a worker and its sender queue. -/
def mailbox (w : Worker) : (String × Bool) × List OutPacketRef := (w.identity, w.senderQueue)

/-- How many packets the sender queue still takes. -/
def room (w : Worker) : ℕ := WORKER_QUEUE_SIZE + 1 - w.senderQueue.length

lemma room_congr {w w' : Worker} (h : w'.mailbox = w.mailbox) : w'.room = w.room := by
  have hq : w'.senderQueue = w.senderQueue := congrArg Prod.snd h
  rw [room, room, hq]

end Worker

/-- The packets offered to one worker. -/
def offersTo (b : WorkerRef) (offers : List (WorkerRef × OutPacket)) : List OutPacket :=
  (offers.filter (fun x => x.1 = b)).map Prod.snd

section OffersTo

variable {b b' : WorkerRef} {o : OutPacket} {offers offers' : List (WorkerRef × OutPacket)}

@[simp] lemma offersTo_nil : offersTo b [] = [] := rfl

lemma offersTo_cons_self : offersTo b ((b, o) :: offers) = o :: offersTo b offers := by
  simp [offersTo]

lemma offersTo_cons_of_ne (h : b' ≠ b) : offersTo b ((b', o) :: offers) = offersTo b offers := by
  simp [offersTo, h]

@[simp] lemma offersTo_append :
    offersTo b (offers ++ offers') = offersTo b offers ++ offersTo b offers' := by
  simp [offersTo]

end OffersTo

namespace Server

/-- The same packets and the same mailboxes. -/
structure SameQueues (s s' : Server) : Prop where
  mem : s'.outPackets = s.outPackets
  list : s'.workerRegistry.currentWorkerList = s.workerRegistry.currentWorkerList
  mailbox : ∀ b, (s'.getWorker b).map Worker.mailbox = (s.getWorker b).map Worker.mailbox

/-- From the first state to the second, exactly these packets were made, in this order, and
each was offered to its worker. -/
inductive Offers : Server → List (WorkerRef × OutPacket) → Server → Prop where
  | done {s s' : Server} (hsame : SameQueues s s') : Offers s [] s'
  | offer {s s₁ s₂ s' : Server} {b : WorkerRef} {o : OutPacket} {rc : ℕ}
      {rest : List (WorkerRef × OutPacket)} (hsame : SameQueues s s₁)
      (hoffer : s₁.queuePacket b o = .ok (s₂, rc)) (hrest : Offers s₂ rest s') :
      Offers s ((b, o) :: rest) s'

variable {s s' t : Server} {b worker : WorkerRef} {w w' : Worker} {o : OutPacket}
  {offers offers' : List (WorkerRef × OutPacket)}

namespace SameQueues

lemma refl (s : Server) : SameQueues s s := ⟨rfl, rfl, fun _ => rfl⟩

lemma trans (h : SameQueues s t) (h' : SameQueues t s') : SameQueues s s' :=
  ⟨h'.mem.trans h.mem, h'.list.trans h.list, fun b => (h'.mailbox b).trans (h.mailbox b)⟩

lemma get (h : SameQueues s s') (hw : s.getWorker b = some w) :
    ∃ w', s'.getWorker b = some w' ∧ w'.mailbox = w.mailbox :=
  exists_of_map_eq (h.mailbox b) hw

lemma get_back (h : SameQueues s s') (hw' : s'.getWorker b = some w') :
    ∃ w, s.getWorker b = some w ∧ w.mailbox = w'.mailbox :=
  exists_of_map_eq (h.mailbox b).symm hw'

/-- One worker is stored with the mailbox it had. -/
lemma of_put (hw : s.getWorker worker = some w)
    (hworkers : s'.workerRegistry.workers = s.workerRegistry.workers.put worker w')
    (hmailbox : w'.mailbox = w.mailbox) (hmem : s'.outPackets = s.outPackets)
    (hlist : s'.workerRegistry.currentWorkerList = s.workerRegistry.currentWorkerList) :
    SameQueues s s' :=
  ⟨hmem, hlist, KeepsWorkers.put hw hworkers hmailbox⟩

lemma trackWorker {workerUid : String} (h : s.trackWorker workerUid = .ok s') :
    SameQueues s s' := by
  obtain ⟨l, registry, hadd, rfl⟩ := trackWorker_eq_ok.mp h
  rcases WorkerInstanceList.addWorker_cases hadd with ⟨-, rfl, rfl⟩ | ⟨worker, w, -, hw, rfl, rfl⟩
  · exact .refl s
  · exact of_put hw rfl rfl rfl rfl

end SameQueues

namespace Offers

lemma frame (hsame : SameQueues s t) (h : Offers t offers s') : Offers s offers s' := by
  cases h with
  | done hsame' => exact .done (hsame.trans hsame')
  | offer hsame' hoffer hrest => exact .offer (hsame.trans hsame') hoffer hrest

lemma append (h : Offers s offers t) (h' : Offers t offers' s') :
    Offers s (offers ++ offers') s' := by
  induction h with
  | done hsame => exact frame hsame h'
  | offer hsame hoffer _ ih => exact .offer hsame hoffer (ih h')

lemma append_same (h : Offers s offers t) (hsame : SameQueues t s') : Offers s offers s' := by
  have hall := h.append (.done hsame)
  rwa [List.append_nil] at hall

/-! ### What was there -/

lemma queuePacket_list {rc : ℕ} (h : s.queuePacket worker o = .ok (s', rc)) :
    s'.workerRegistry.currentWorkerList = s.workerRegistry.currentWorkerList := by
  obtain ⟨w, -, ⟨-, -, rfl⟩ | ⟨-, -, -, rfl⟩⟩ := queuePacket_cases h <;> rfl

lemma queuePacket_mem {rc : ℕ} (h : s.queuePacket worker o = .ok (s', rc)) :
    s'.outPackets = s.outPackets.alloc o := by
  obtain ⟨w, -, ⟨-, -, rfl⟩ | ⟨-, -, -, rfl⟩⟩ := queuePacket_cases h <;> rfl

lemma list (h : Offers s offers s') :
    s'.workerRegistry.currentWorkerList = s.workerRegistry.currentWorkerList := by
  induction h with
  | done hsame => exact hsame.list
  | offer hsame hoffer _ ih => exact (ih.trans (queuePacket_list hoffer)).trans hsame.list

/-- As many packets are made as are offered. -/
lemma next (h : Offers s offers s') :
    s'.outPackets.next = s.outPackets.next + offers.length := by
  induction h with
  | done hsame => rw [hsame.mem, List.length_nil, Nat.add_zero]
  | offer hsame hoffer _ ih =>
    rw [ih, queuePacket_mem hoffer, hsame.mem, Heap.next_alloc, List.length_cons,
      Nat.add_assoc, Nat.add_comm 1]

/-- The packets that were there stay. -/
lemma mem (h : Offers s offers s') {p : OutPacketRef} (hp : p < s.outPackets.next) :
    s'.outPackets.get p = s.outPackets.get p := by
  induction h with
  | done hsame => rw [hsame.mem]
  | @offer s s₁ s₂ s' b o rc rest hsame hoffer _ ih =>
    have hmem : s₂.outPackets = s.outPackets.alloc o := by rw [queuePacket_mem hoffer, hsame.mem]
    rw [hmem, Heap.next_alloc] at ih
    rw [ih (Nat.lt_succ_of_lt hp), Heap.get_alloc_of_ne hp.ne]

/-! ### What the queues take -/

/-- The queue of a worker grows by the packets offered to it, as far as it has room. -/
theorem took (h : Offers s offers s') (hw : s.getWorker b = some w) :
    ∃ w' ps, s'.getWorker b = some w' ∧ w'.identity = w.identity ∧
      w'.senderQueue = w.senderQueue ++ ps ∧
      ps.map s'.outPackets.get = ((offersTo b offers).take w.room).map some ∧
      (∀ p ∈ ps, s.outPackets.next ≤ p) ∧ ps.Pairwise (· < ·) := by
  induction h generalizing w with
  | @done s s' hsame =>
    obtain ⟨w', hw', hmailbox⟩ := hsame.get hw
    have hid : w'.identity = w.identity := congrArg Prod.fst hmailbox
    have hq : w'.senderQueue = w.senderQueue := congrArg Prod.snd hmailbox
    exact ⟨w', [], hw', hid, by rw [hq, List.append_nil], by simp, by simp, List.Pairwise.nil⟩
  | @offer s s₁ s₂ s' b₀ o rc rest hsame hoffer hrest ih =>
    obtain ⟨w₁, hw₁, hmailbox⟩ := hsame.get hw
    have hid : w₁.identity = w.identity := congrArg Prod.fst hmailbox
    have hq : w₁.senderQueue = w.senderQueue := congrArg Prod.snd hmailbox
    have hroom : w₁.room = w.room := Worker.room_congr hmailbox
    obtain ⟨w₀, hw₀, hcases⟩ := queuePacket_cases hoffer
    by_cases heq : b₀ = b
    · subst heq
      rw [hw₁] at hw₀
      cases hw₀
      rw [offersTo_cons_self]
      rcases hcases with ⟨hfull, -, rfl⟩ | ⟨hfits, -, -, rfl⟩
      · -- refused: there is no room for what follows either
        obtain ⟨w', ps, hw', hid', hq', hps, hnew, hsorted⟩ := ih hw₁
        have hzero : w.room = 0 := by
          rw [← hroom, Worker.room]
          exact Nat.sub_eq_zero_of_le hfull
        rw [hroom, hzero, List.take_zero] at hps
        rw [hzero, List.take_zero]
        have hnil : ps = [] := List.map_eq_nil_iff.mp hps
        subst hnil
        exact ⟨w', [], hw', hid'.trans hid, by rw [hq', hq], rfl, by simp, List.Pairwise.nil⟩
      · -- taken: the packet is the next of the queue
        obtain ⟨w', ps, hw', hid', hq', hps, hnew, hsorted⟩ :=
          ih (Heap.get_put_self (h := s₁.workerRegistry.workers) hw₁)
        have hnext : s₁.outPackets.next = s.outPackets.next := by rw [hsame.mem]
        have hlater : ∀ p ∈ ps, s₁.outPackets.next < p := by
          intro p hp
          have hle := hnew p hp
          rw [putWorker_outPackets, Heap.next_alloc] at hle
          exact hle
        have hroom' : w.room = Worker.room { w₁ with
            senderQueue := w₁.senderQueue ++ [s₁.outPackets.next] } + 1 := by
          rw [← hroom, Worker.room, Worker.room, List.length_append, List.length_singleton]
          omega
        have hget : s'.outPackets.get s₁.outPackets.next = some o := by
          rw [hrest.mem (by simp), putWorker_outPackets, Heap.get_alloc_self]
        refine ⟨w', s₁.outPackets.next :: ps, hw', hid'.trans hid, ?_, ?_, ?_, ?_⟩
        · rw [hq', hq, List.append_assoc, List.singleton_append]
        · rw [hroom', List.take_succ_cons, List.map_cons, List.map_cons, hps, hget]
        · intro p hp
          rcases List.mem_cons.mp hp with rfl | hp
          · exact hnext.ge
          · exact hnext ▸ (hlater p hp).le
        · exact List.pairwise_cons.mpr ⟨hlater, hsorted⟩
    · rw [offersTo_cons_of_ne heq]
      have hw₂ : s₂.getWorker b = some w₁ := by
        rcases hcases with ⟨-, -, rfl⟩ | ⟨-, -, -, rfl⟩
        · exact hw₁
        · exact (Heap.get_put_of_ne (Ne.symm heq)).trans hw₁
      obtain ⟨w', ps, hw', hid', hq', hps, hnew, hsorted⟩ := ih hw₂
      refine ⟨w', ps, hw', hid'.trans hid, by rw [hq', hq], by rw [hps, hroom], ?_, hsorted⟩
      intro p hp
      have hle := hnew p hp
      rw [queuePacket_mem hoffer, Heap.next_alloc, hsame.mem] at hle
      exact (Nat.le_succ _).trans hle

lemma identity (h : Offers s offers s') (b : WorkerRef) :
    (s'.getWorker b).map Worker.identity = (s.getWorker b).map Worker.identity := by
  have hsame : ∀ {s t : Server}, SameQueues s t →
      (t.getWorker b).map Worker.identity = (s.getWorker b).map Worker.identity := by
    intro s t h
    have hb := congrArg (Option.map Prod.fst) (h.mailbox b)
    rw [Option.map_map, Option.map_map] at hb
    exact hb
  induction h with
  | done h => exact hsame h
  | offer h hoffer _ ih =>
    exact (ih.trans (KeepsWorkers.queuePacket stays_identity hoffer b)).trans (hsame h)

lemma registered (h : Offers s offers s')
    (hreg : Registered s.workerRegistry.workers s.workerRegistry.currentWorkerList) :
    Registered s'.workerRegistry.workers s'.workerRegistry.currentWorkerList := by
  rw [h.list]
  exact hreg.congr h.identity

/-- A queue read backwards: what was there, and packets that were made since. -/
lemma queue_back (h : Offers s offers s') (hw' : s'.getWorker b = some w') :
    ∃ w ps, s.getWorker b = some w ∧ w'.senderQueue = w.senderQueue ++ ps ∧
      ∀ p ∈ ps, s.outPackets.next ≤ p := by
  obtain ⟨w, hw, -⟩ := exists_of_map_eq (h.identity b).symm hw'
  obtain ⟨w'', ps, hw'', -, hq, -, hnew, -⟩ := h.took hw
  rw [hw'] at hw''
  cases hw''
  exact ⟨w, ps, hw, hq, hnew⟩

end Offers

/-! ### Refusals -/

/-- The queues only have packets that were made. -/
def QueuesAllocated (s : Server) : Prop :=
  ∀ b w, s.getWorker b = some w → ∀ p ∈ w.senderQueue, p < s.outPackets.next

/-- A packet was made between the two states and is in no queue: it was refused. -/
def Refused (s s' : Server) : Prop :=
  ∃ p, s.outPackets.next ≤ p ∧ p < s'.outPackets.next ∧
    ∀ b w, s'.getWorker b = some w → p ∉ w.senderQueue

lemma QueuesAllocated.same (h : s.QueuesAllocated) (hsame : SameQueues s s') :
    s'.QueuesAllocated := by
  intro b w' hw' p hp
  obtain ⟨w, hw, heq⟩ := hsame.get_back hw'
  rw [hsame.mem]
  exact h b w hw p (by rwa [show w.senderQueue = w'.senderQueue from congrArg Prod.snd heq])

lemma QueuesAllocated.queuePacket (h : s.QueuesAllocated) {rc : ℕ}
    (hs : s.queuePacket worker o = .ok (s', rc)) : s'.QueuesAllocated := by
  obtain ⟨w, hw, ⟨-, -, rfl⟩ | ⟨-, -, -, rfl⟩⟩ := queuePacket_cases hs
  · intro b w' hw' p hp
    rw [Heap.next_alloc]
    exact Nat.lt_succ_of_lt (h b w' hw' p hp)
  · intro b w' hw' p hp
    rw [putWorker_outPackets, Heap.next_alloc]
    dsimp only [getWorker, putWorker_workers] at hw'
    rw [Heap.get_put hw] at hw'
    split_ifs at hw' with heq
    · cases hw'
      rcases List.mem_append.mp hp with hp | hp
      · exact Nat.lt_succ_of_lt (h worker w hw p hp)
      · rw [List.mem_singleton.mp hp]
        exact Nat.lt_succ_self _
    · exact Nat.lt_succ_of_lt (h b w' hw' p hp)

lemma QueuesAllocated.of_offers (h : s.QueuesAllocated) (hoffers : Offers s offers s') :
    s'.QueuesAllocated := by
  induction hoffers with
  | done hsame => exact h.same hsame
  | offer hsame hoffer _ ih => exact ih ((h.same hsame).queuePacket hoffer)

/-- What an offer does to the worker it is made to. -/
lemma offer_cases {rc : ℕ} (hoffer : s.queuePacket worker o = .ok (s', rc)) :
    ∃ w, s.getWorker worker = some w ∧
      ((w.room = 0 ∧ ∀ b, s'.getWorker b = s.getWorker b) ∨
        ∃ w', w.room = w'.room + 1 ∧ s'.getWorker worker = some w' ∧
          w'.senderQueue = w.senderQueue ++ [s.outPackets.next] ∧
          ∀ b, b ≠ worker → s'.getWorker b = s.getWorker b) := by
  obtain ⟨w, hw, ⟨hfull, -, rfl⟩ | ⟨hfits, -, -, rfl⟩⟩ := queuePacket_cases hoffer
  · exact ⟨w, hw, .inl ⟨Nat.sub_eq_zero_of_le hfull, fun _ => rfl⟩⟩
  · refine ⟨w, hw, .inr ⟨_, ?_, Heap.get_put_self hw, rfl, fun b hb => Heap.get_put_of_ne hb⟩⟩
    rw [Worker.room, Worker.room, List.length_append, List.length_singleton]
    omega

/-- Some worker is offered more than it has room for. -/
def Overfull (s : Server) (offers : List (WorkerRef × OutPacket)) : Prop :=
  ∃ b w, s.getWorker b = some w ∧ w.room < (offersTo b offers).length

lemma SameQueues.overfull_iff (h : SameQueues s t) : s.Overfull offers ↔ t.Overfull offers := by
  constructor
  · rintro ⟨b, w, hw, hlt⟩
    obtain ⟨w', hw', hmailbox⟩ := h.get hw
    exact ⟨b, w', hw', by rwa [Worker.room_congr hmailbox]⟩
  · rintro ⟨b, w', hw', hlt⟩
    obtain ⟨w, hw, hmailbox⟩ := h.get_back hw'
    exact ⟨b, w, hw, by rwa [Worker.room_congr hmailbox]⟩

lemma SameQueues.refused_iff (h : SameQueues s t) : Refused s s' ↔ Refused t s' := by
  rw [Refused, Refused, h.mem]

/-- An offer that is refused: the packet is in no queue, now or later. -/
lemma Offers.refused_of_full {rc : ℕ} (hoffer : s.queuePacket worker o = .ok (t, rc))
    (hsame : ∀ b, t.getWorker b = s.getWorker b) (hrest : Offers t offers s')
    (halloc : s.QueuesAllocated) : Refused s s' := by
  have hnext : t.outPackets.next = s.outPackets.next + 1 := by
    rw [queuePacket_mem hoffer, Heap.next_alloc]
  refine ⟨s.outPackets.next, le_refl _, ?_, ?_⟩
  · rw [hrest.next, hnext]
    omega
  · intro b w hw hp
    obtain ⟨w₂, ps, hw₂, hq, hnew⟩ := hrest.queue_back hw
    rw [hq] at hp
    rcases List.mem_append.mp hp with hp | hp
    · exact absurd (halloc b w₂ ((hsame b).symm.trans hw₂) _ hp) (lt_irrefl _)
    · have hle := hnew _ hp
      omega

/-- An offer that is taken: the packet is in the queue of its worker, and stays there. -/
lemma Offers.refused_iff_of_taken {rc : ℕ} (hoffer : s.queuePacket worker o = .ok (t, rc))
    (hw : t.getWorker worker = some w) (hqueue : s.outPackets.next ∈ w.senderQueue)
    (hrest : Offers t offers s') : Refused s s' ↔ Refused t s' := by
  have hnext : t.outPackets.next = s.outPackets.next + 1 := by
    rw [queuePacket_mem hoffer, Heap.next_alloc]
  constructor
  · rintro ⟨p, hle, hlt, hnot⟩
    refine ⟨p, ?_, hlt, hnot⟩
    by_contra hsmall
    have hp : p = s.outPackets.next := by omega
    obtain ⟨w', ps, hw', -, hq, -⟩ := hrest.took hw
    apply hnot worker w' hw'
    rw [hq, hp]
    exact List.mem_append_left _ hqueue
  · rintro ⟨p, hle, hlt, hnot⟩
    exact ⟨p, by omega, hlt, hnot⟩

/-- With one packet taken there is less room, for one packet less. -/
lemma Offers.overfull_iff_of_taken (hw : s.getWorker worker = some w)
    (hw' : t.getWorker worker = some w') (hroom : w.room = w'.room + 1)
    (hother : ∀ b, b ≠ worker → t.getWorker b = s.getWorker b) :
    s.Overfull ((worker, o) :: offers) ↔ t.Overfull offers := by
  constructor
  · rintro ⟨b, v, hv, hlt⟩
    by_cases heq : b = worker
    · subst heq
      rw [hw] at hv
      cases hv
      rw [hroom, offersTo_cons_self, List.length_cons] at hlt
      exact ⟨b, w', hw', Nat.lt_of_succ_lt_succ hlt⟩
    · rw [offersTo_cons_of_ne (Ne.symm heq)] at hlt
      exact ⟨b, v, (hother b heq).trans hv, hlt⟩
  · rintro ⟨b, v, hv, hlt⟩
    by_cases heq : b = worker
    · subst heq
      rw [hw'] at hv
      cases hv
      refine ⟨b, w, hw, ?_⟩
      rw [hroom, offersTo_cons_self, List.length_cons]
      exact Nat.succ_lt_succ hlt
    · refine ⟨b, v, (hother b heq).symm.trans hv, ?_⟩
      rwa [offersTo_cons_of_ne (Ne.symm heq)]

/-- A packet is refused exactly when a worker is offered more than it has room for. -/
theorem Offers.refused_iff (h : Offers s offers s') (halloc : s.QueuesAllocated) :
    Refused s s' ↔ s.Overfull offers := by
  induction h with
  | done hsame =>
    refine iff_of_false ?_ ?_
    · rintro ⟨p, hle, hlt, -⟩
      rw [hsame.mem] at hlt
      exact absurd hle hlt.not_ge
    · rintro ⟨b, w, -, hlt⟩
      exact absurd hlt (Nat.not_lt_zero _)
  | offer hsame hoffer hrest ih =>
    have halloc := halloc.same hsame
    rw [hsame.refused_iff, hsame.overfull_iff]
    obtain ⟨w, hw, ⟨hzero, hsame'⟩ | ⟨w', hone, hw', hqueue, hother⟩⟩ := offer_cases hoffer
    · refine iff_of_true (refused_of_full hoffer hsame' hrest halloc) ⟨_, w, hw, ?_⟩
      rw [hzero, offersTo_cons_self]
      exact Nat.succ_pos _
    · rw [refused_iff_of_taken hoffer hw' (by simp [hqueue]) hrest,
        overfull_iff_of_taken hw hw' hone hother]
      exact ih (halloc.queuePacket hoffer)

/-! ### The offers of the sender core -/

/-- The registered workers have different UIDs. -/
def DistinctUids (s : Server) : Prop :=
  ∀ a ∈ s.workerRegistry.currentWorkerList, ∀ b ∈ s.workerRegistry.currentWorkerList,
    ∀ wa wb, s.getWorker a = some wa → s.getWorker b = some wb → wa.workerUID = wb.workerUID →
      a = b

lemma DistinctUids.of_offers (h : s.DistinctUids) (hoffers : Offers s offers s') :
    s'.DistinctUids := by
  intro a ha b hb wa wb hwa hwb heq
  rw [hoffers.list] at ha hb
  obtain ⟨va, hva, hua⟩ := exists_of_map_eq (hoffers.identity a).symm hwa
  obtain ⟨vb, hvb, hub⟩ := exists_of_map_eq (hoffers.identity b).symm hwb
  exact h a ha b hb va vb hva hvb
    ((congrArg Prod.fst hua).trans (heq.trans (congrArg Prod.fst hub).symm))

lemma Registered.distinctUids
    (h : Registered s.workerRegistry.workers s.workerRegistry.currentWorkerList) :
    s.DistinctUids := fun a _ b _ wa wb ha hb => h.distinct a b wa wb ha hb

/-- The packet that brings a template to a worker. -/
def templatePacket (workerUid : String) (j : TemplateJson) : ServerPacket :=
  PacketConstructor.create .spDataSent workerUid (.template j.instanceid j.algotype j.data)

lemma offersTo_map_self (b : WorkerRef) (os : List OutPacket) :
    offersTo b (os.map fun o => (b, o)) = os := by
  induction os with
  | nil => rfl
  | cons o os ih => rw [List.map_cons, offersTo_cons_self, ih]

lemma offersTo_map_of_ne (hne : worker ≠ b) (os : List OutPacket) :
    offersTo b (os.map fun o => (worker, o)) = [] := by
  induction os with
  | nil => rfl
  | cons o os ih => rw [List.map_cons, offersTo_cons_of_ne hne, ih]

namespace Offers

lemma pushInstance {j : TemplateJson} (hw : s.getWorker worker = some w)
    (h : s.pushInstance worker j = .ok s') :
    ∃ o, o.packet = templatePacket w.workerUID j ∧ Offers s [(worker, o)] s' := by
  obtain ⟨s₁, w₁, outData, s₂, rc, s₃, s₄, h₁, hw₁, -, h₂, h₃, h₄, h₅⟩ := pushInstance_eq_ok.mp h
  obtain ⟨r, -, rfl⟩ := registryAdd_eq_ok.mp h₁
  have heq : w = w₁ := Option.some.inj (hw.symm.trans hw₁)
  subst heq
  obtain ⟨r₃, b, -, rfl⟩ := assignWorker_eq_ok.mp h₃
  obtain ⟨r₄, db, b₄, -, rfl⟩ := updateTaskStatus_eq_ok.mp h₄
  have htrack := SameQueues.trackWorker h₅
  have hsame : SameQueues s
      { s with outgoingDataRegistry := r, addFlag := fun n => s.addFlag (n + 1) } :=
    ⟨rfl, rfl, fun _ => rfl⟩
  exact ⟨_, rfl, .offer hsame h₂ (.done ⟨htrack.mem, htrack.list, htrack.mailbox⟩)⟩

lemma pushInstances {json : List TemplateJson} (hw : s.getWorker worker = some w)
    (h : s.pushInstances worker json = .ok s') :
    ∃ os : List OutPacket, os.map (·.packet) = json.map (templatePacket w.workerUID) ∧
      Offers s (os.map fun o => (worker, o)) s' := by
  induction json generalizing s w with
  | nil =>
    cases h
    exact ⟨[], rfl, .done (.refl _)⟩
  | cons j json ih =>
    simp only [Server.pushInstances, Outcome.bind_eq_ok] at h
    obtain ⟨t, ht, h⟩ := h
    obtain ⟨o, ho, hone⟩ := pushInstance hw ht
    obtain ⟨w', hw', hid⟩ := exists_of_map_eq (hone.identity worker) hw
    obtain ⟨os, hos, hrest⟩ := ih hw' h
    have huid : w'.workerUID = w.workerUID := congrArg Prod.fst hid
    refine ⟨o :: os, ?_, hone.append hrest⟩
    rw [List.map_cons, List.map_cons, ho, hos, huid]

/-- Every worker is offered all templates as often as the list names it. -/
theorem pushInstanceLoop {json : List TemplateJson} {workerList rest : List String}
    (hdistinct : s.DistinctUids)
    (h : pushInstanceLoop json s workerList = .ok (s', rest)) :
    rest = [] ∧ ∃ offers, Offers s offers s' ∧
      (∀ x ∈ offers, x.1 ∈ s.workerRegistry.currentWorkerList) ∧
      ∀ b ∈ s.workerRegistry.currentWorkerList, ∀ w, s.getWorker b = some w →
        (offersTo b offers).map (·.packet) =
          (List.replicate (workerList.count w.workerUID) json).flatten.map
            (templatePacket w.workerUID) := by
  induction workerList generalizing s with
  | nil =>
    cases h
    exact ⟨rfl, [], .done (.refl _), by simp, by simp⟩
  | cons uid workerList ih =>
    simp only [Server.pushInstanceLoop, Outcome.bind_eq_ok] at h
    obtain ⟨found, hfound, h⟩ := h
    cases found with
    | none =>
      obtain ⟨hrest, offers, hoffers, hlisted, hcount⟩ := ih hdistinct h
      refine ⟨hrest, offers, hoffers, hlisted, ?_⟩
      intro b hb w hw
      obtain ⟨w', hw', hne⟩ := WorkerRegistry.of_getWorkerFromUid_none hfound b hb
      have heq : w = w' := Option.some.inj (hw.symm.trans hw')
      rw [List.count_cons_of_ne (by rw [heq]; exact hne.symm)]
      exact hcount b hb w hw
    | some worker =>
      simp only [Outcome.bind_eq_ok] at h
      obtain ⟨t, ht, h⟩ := h
      obtain ⟨hworker, w₀, hw₀, huid⟩ := WorkerRegistry.of_getWorkerFromUid hfound
      obtain ⟨os, hos, hround⟩ := pushInstances hw₀ ht
      obtain ⟨hrest, offers, hoffers, hlisted, hcount⟩ := ih (hdistinct.of_offers hround) h
      refine ⟨hrest, _, hround.append hoffers, ?_, ?_⟩
      · intro x hx
        rcases List.mem_append.mp hx with hx | hx
        · obtain ⟨o, -, rfl⟩ := List.mem_map.mp hx
          exact hworker
        · rw [← hround.list]
          exact hlisted x hx
      · intro b hb w hw
        obtain ⟨w', hw', hid⟩ := exists_of_map_eq (hround.identity b) hw
        have huid' : w'.workerUID = w.workerUID := congrArg Prod.fst hid
        have hrest := hcount b (by rwa [hround.list]) w' hw'
        rw [huid'] at hrest
        rw [offersTo_append, List.map_append, hrest]
        by_cases heq : worker = b
        · subst heq
          have heqw : w = w₀ := Option.some.inj (hw.symm.trans hw₀)
          subst heqw
          rw [offersTo_map_self, hos, huid, List.count_cons_self, List.replicate_succ,
            List.flatten_cons, List.map_append]
        · have hne : uid ≠ w.workerUID := fun he =>
            heq (hdistinct worker hworker b hb w₀ w hw₀ hw (huid.trans he))
          rw [offersTo_map_of_ne heq, List.count_cons_of_ne hne]
          rfl

end Offers

end Server

end ServerUnit
