import ServerUnit.Lib.Machine
import ServerUnit.WorkerNode.Rules
import Mathlib.Data.List.Perm.Basic
import Mathlib.Data.List.Nodup

/-!
# Acknowledgements of one worker

A single worker with the timer, where the worker's packets are the only timed ones. The
machine below makes any sequence of `queuePacket`, `getQueuedPacket`, `matchAckablePacket` and
`pushToFront` calls on it. Next to the state it records which ackable packets `queuePacket`
accepted and which packets left the pending queue in a `matchAckablePacket` call that
returned true.

The invariant is one permutation: the accepted packets are those queued, those pending and
those acknowledged.
-/

namespace ServerUnit

open Lib

/-- A worker alone with the timer. -/
structure Solo where
  mem : Heap OutPacket
  worker : Worker
  timer : Timeout
  /-- The ackable packets that `queuePacket` accepted, with their objects. -/
  accepted : List (OutPacketRef × OutPacket)
  /-- The packets removed by a `matchAckablePacket` call that returned true, with its id. -/
  acknowledged : List (OutPacketRef × String)

inductive SoloEvent where
  | queuePacket (o : OutPacket)
  | getQueuedPacket
  | matchAckablePacket (id : String)
  | pushToFront (p : OutPacketRef)

namespace Solo

def new (workerUID : String) : Solo :=
  { mem := .empty, worker := .new workerUID, timer := .new, accepted := [], acknowledged := [] }

/-- One call. Packets are queued as they are made, so none is queued twice; the timer pushes
only packets that it times. -/
def step (states : Heap OutgoingDataState) (s : Solo) : SoloEvent → Outcome Solo
  | .queuePacket o => do
    let p := s.mem.next
    let (worker, rc) ← s.worker.queuePacket p
    return { s with
      mem := s.mem.alloc o
      worker
      accepted := if rc = 0 ∧ o.ackable then s.accepted ++ [(p, o)] else s.accepted }
  | .getQueuedPacket => do
    let (worker, timer, _) ← s.worker.getQueuedPacket s.mem s.timer
    return { s with worker, timer }
  | .matchAckablePacket id => do
    let (worker, timer, mem, found) ← s.worker.matchAckablePacket s.mem states s.timer id
    let removed := s.worker.ackPendingQueue.filter (· ∉ worker.ackPendingQueue)
    return { s with
      mem, worker, timer
      acknowledged :=
        if found then s.acknowledged ++ removed.map (·, id) else s.acknowledged }
  | .pushToFront p => Outcome.guard (p ∈ s.timer.timedPackets) do
    let worker ← s.worker.pushToFront p
    return { s with worker }

/-- The packet is allocated and needs an acknowledgement. -/
def isAckable (mem : Heap OutPacket) (p : OutPacketRef) : Bool := (mem.get p).any (·.ackable)

lemma isAckable_iff {mem : Heap OutPacket} {p : OutPacketRef} :
    isAckable mem p = true ↔ ∃ o, mem.get p = some o ∧ o.ackable = true := by
  simp [isAckable, Option.any_eq_true]

lemma isAckable_free_of_ne {mem : Heap OutPacket} {p q : OutPacketRef} (hne : q ≠ p) :
    isAckable (mem.free p) q = isAckable mem q := by
  rw [isAckable, isAckable, Heap.get_free_of_ne hne]

/-- The id an `OutPacket` is acknowledged under. -/
def HasId (states : Heap OutgoingDataState) (o : OutPacket) (id : String) : Prop :=
  ∃ r st, o.outData = some r ∧ states.get r = some st ∧ st.id = id

/-! ### The invariant -/

structure Inv (states : Heap OutgoingDataState) (s : Solo) : Prop where
  queued : ∀ p ∈ s.worker.senderQueue, ∃ o, s.mem.get p = some o
  pending : ∀ p ∈ s.worker.ackPendingQueue, isAckable s.mem p = true
  timed : s.timer.timedPackets.Perm s.worker.ackPendingQueue
  accounted : (s.accepted.map Prod.fst).Perm
    (s.worker.senderQueue.filter (isAckable s.mem) ++ s.worker.ackPendingQueue
      ++ s.acknowledged.map Prod.fst)
  distinct : (s.accepted.map Prod.fst).Nodup
  made : ∀ a ∈ s.accepted, a.1 < s.mem.next
  needed : ∀ a ∈ s.accepted, a.2.ackable = true
  object : ∀ a ∈ s.accepted, ∀ o, s.mem.get a.1 = some o → o = a.2
  freed : ∀ b ∈ s.acknowledged, s.mem.get b.1 = none
  named : ∀ b ∈ s.acknowledged, ∃ o, (b.1, o) ∈ s.accepted ∧ HasId states o b.2

/-- One element of a list without duplicates is taken out by its value. -/
lemma filter_ne_middle {p : OutPacketRef} {before after : List OutPacketRef}
    (hnd : (before ++ p :: after).Nodup) :
    (before ++ p :: after).filter (· ≠ p) = before ++ after := by
  have hnot : p ∉ before ++ after := (List.nodup_middle.mp hnd).notMem
  have hall : ∀ q ∈ before ++ after, decide (q ≠ p) = true := fun q hq =>
    decide_eq_true (ne_of_mem_of_not_mem hq hnot)
  rw [List.filter_append, List.filter_cons_of_neg (by simp), ← List.filter_append,
    List.filter_eq_self.mpr hall]

/-- The others leave only this element. -/
lemma filter_notMem_middle {p : OutPacketRef} {before after : List OutPacketRef}
    (hnd : (before ++ p :: after).Nodup) :
    (before ++ p :: after).filter (· ∉ before ++ after) = [p] := by
  have hnot : p ∉ before ++ after := (List.nodup_middle.mp hnd).notMem
  have hnil : (before ++ after).filter (· ∉ before ++ after) = [] := by
    rw [List.filter_eq_nil_iff]
    intro q hq
    rw [decide_eq_true_eq, not_not]
    exact hq
  rw [List.filter_append, List.append_eq_nil_iff] at hnil
  rw [List.filter_append, List.filter_cons_of_pos (by simpa using hnot), hnil.1, hnil.2,
    List.nil_append]

variable {states : Heap OutgoingDataState} {s s' : Solo}

lemma inv_new (workerUID : String) : Inv states (new workerUID) := by
  constructor <;> simp [new, Worker.new, Timeout.new]

namespace Inv

/-- No packet stands in two of the three places. -/
lemma nodup (h : Inv states s) :
    (s.worker.senderQueue.filter (isAckable s.mem) ++ s.worker.ackPendingQueue
      ++ s.acknowledged.map Prod.fst).Nodup :=
  h.accounted.nodup_iff.mp h.distinct

lemma pending_nodup (h : Inv states s) : s.worker.ackPendingQueue.Nodup :=
  (List.nodup_append.mp (List.nodup_append.mp h.nodup).1).2.1

/-- A pending packet is not queued: it would be an ackable packet in two places. -/
lemma not_queued (h : Inv states s) {p : OutPacketRef} (hp : p ∈ s.worker.ackPendingQueue) :
    p ∉ s.worker.senderQueue := by
  intro hq
  have hmem : p ∈ s.worker.senderQueue.filter (isAckable s.mem) :=
    List.mem_filter.mpr ⟨hq, h.pending p hp⟩
  exact (List.nodup_append.mp (List.nodup_append.mp h.nodup).1).2.2 p hmem p hp rfl

/-- A pending packet was accepted with the object that it has now. -/
lemma mem_accepted (h : Inv states s) {p : OutPacketRef} {o : OutPacket}
    (hp : p ∈ s.worker.ackPendingQueue) (ho : s.mem.get p = some o) : (p, o) ∈ s.accepted := by
  have hacc : p ∈ s.accepted.map Prod.fst := by
    rw [h.accounted.mem_iff, List.mem_append, List.mem_append]
    exact .inl (.inr hp)
  obtain ⟨a, ha, rfl⟩ := List.mem_map.mp hacc
  rw [h.object a ha o ho]
  exact ha

lemma mem_alloc (h : Inv states s) (o : OutPacket) {p : OutPacketRef}
    (hp : p ∈ s.worker.senderQueue ∨ p ∈ s.worker.ackPendingQueue) :
    (s.mem.alloc o).get p = s.mem.get p := by
  rcases hp with hp | hp
  · obtain ⟨o', ho'⟩ := h.queued p hp
    rw [Heap.get_alloc_of_get ho', ho']
  · obtain ⟨o', ho', -⟩ := isAckable_iff.mp (h.pending p hp)
    rw [Heap.get_alloc_of_get ho', ho']

/-- A new packet that is in no queue. -/
lemma alloc (h : Inv states s) (o : OutPacket) : Inv states { s with mem := s.mem.alloc o } := by
  have hsame : ∀ p, p ∈ s.worker.senderQueue ∨ p ∈ s.worker.ackPendingQueue →
      isAckable (s.mem.alloc o) p = isAckable s.mem p := by
    intro p hp
    rw [isAckable, isAckable, h.mem_alloc o hp]
  have hfilter : s.worker.senderQueue.filter (isAckable (s.mem.alloc o)) =
      s.worker.senderQueue.filter (isAckable s.mem) :=
    List.filter_congr fun p hp => hsame p (.inl hp)
  have hmade : ∀ a ∈ s.accepted, (s.mem.alloc o).get a.1 = s.mem.get a.1 := fun a ha =>
    Heap.get_alloc_of_ne (h.made a ha).ne
  constructor
  case queued =>
    intro p hp
    rw [h.mem_alloc o (.inl hp)]
    exact h.queued p hp
  case pending =>
    intro p hp
    rw [hsame p (.inr hp)]
    exact h.pending p hp
  case timed => exact h.timed
  case accounted =>
    rw [hfilter]
    exact h.accounted
  case distinct => exact h.distinct
  case made =>
    intro a ha
    rw [Heap.next_alloc]
    exact Nat.lt_succ_of_lt (h.made a ha)
  case needed => exact h.needed
  case object =>
    intro a ha o' ho'
    rw [hmade a ha] at ho'
    exact h.object a ha o' ho'
  case freed =>
    intro b hb
    obtain ⟨o', ho', -⟩ := h.named b hb
    exact (hmade _ ho').trans (h.freed b hb)
  case named => exact h.named

/-- A packet that needs no acknowledgement joins the back of the queue. -/
lemma queue_plain (h : Inv states s) {p : OutPacketRef} {o : OutPacket}
    (hp : s.mem.get p = some o) (hack : o.ackable = false) :
    Inv states { s with
      worker := { s.worker with senderQueue := s.worker.senderQueue ++ [p] } } where
  __ := h
  queued := by
    intro q hq
    rcases List.mem_append.mp hq with hq | hq
    · exact h.queued q hq
    · rw [List.mem_singleton.mp hq]
      exact ⟨o, hp⟩
  accounted := by
    have hpa : isAckable s.mem p = false := by simp [isAckable, hp, hack]
    rw [List.filter_append, List.filter_singleton, hpa, cond_false, List.append_nil]
    exact h.accounted

/-- A packet that needs one joins the accepted ones as well. -/
lemma queue_ackable (h : Inv states s) {p : OutPacketRef} {o : OutPacket}
    (hp : s.mem.get p = some o) (hack : o.ackable = true) (hnew : p ∉ s.accepted.map Prod.fst) :
    Inv states { s with
      worker := { s.worker with senderQueue := s.worker.senderQueue ++ [p] }
      accepted := s.accepted ++ [(p, o)] } := by
  have hmem : ∀ a, a ∈ s.accepted ++ [(p, o)] ↔ a ∈ s.accepted ∨ a = (p, o) := fun a => by
    rw [List.mem_append, List.mem_singleton]
  constructor
  case queued =>
    intro q hq
    rcases List.mem_append.mp hq with hq | hq
    · exact h.queued q hq
    · rw [List.mem_singleton.mp hq]
      exact ⟨o, hp⟩
  case pending => exact h.pending
  case timed => exact h.timed
  case accounted =>
    have hpa : isAckable s.mem p = true := isAckable_iff.mpr ⟨o, hp, hack⟩
    rw [List.map_append, List.filter_append, List.filter_singleton, hpa, cond_true]
    apply (h.accounted.append_right _).trans
    simp only [List.append_assoc]
    apply List.Perm.append_left _
    rw [← List.append_assoc]
    exact List.perm_append_comm
  case distinct =>
    rw [List.map_append]
    apply List.Nodup.append h.distinct (List.nodup_singleton p)
    rwa [List.disjoint_singleton]
  case made =>
    intro a ha
    rcases (hmem a).mp ha with ha | rfl
    · exact h.made a ha
    · exact Heap.lt_next_of_get hp
  case needed =>
    intro a ha
    rcases (hmem a).mp ha with ha | rfl
    · exact h.needed a ha
    · exact hack
  case object =>
    intro a ha o' ho'
    rcases (hmem a).mp ha with ha | rfl
    · exact h.object a ha o' ho'
    · exact Option.some.inj (ho'.symm.trans hp)
  case freed => exact h.freed
  case named =>
    intro b hb
    obtain ⟨o', ho', hid⟩ := h.named b hb
    exact ⟨o', List.mem_append_left _ ho', hid⟩

lemma queuePacket (h : Inv states s) {o : OutPacket}
    (hs : step states s (.queuePacket o) = .ok s') : Inv states s' := by
  simp only [step, Outcome.bind_eq_ok, Outcome.pure_eq_ok] at hs
  obtain ⟨⟨worker, rc⟩, hq, rfl⟩ := hs
  have halloc := h.alloc o
  have hget : (s.mem.alloc o).get s.mem.next = some o := Heap.get_alloc_self _ _
  rcases Worker.queuePacket_cases hq with ⟨-, rfl, rfl⟩ | ⟨-, -, rfl, rfl⟩
  · -- refused: the queues stay, and the new packet is nowhere
    simpa using halloc
  · cases hack : o.ackable with
    | false => simpa using halloc.queue_plain hget hack
    | true =>
      have hnew : s.mem.next ∉ s.accepted.map Prod.fst := by
        intro hmem
        obtain ⟨a, ha, heq⟩ := List.mem_map.mp hmem
        exact (h.made a ha).ne heq
      simpa using halloc.queue_ackable hget hack hnew

lemma getQueuedPacket (h : Inv states s) (hs : step states s .getQueuedPacket = .ok s') :
    Inv states s' := by
  simp only [step, Outcome.bind_eq_ok, Outcome.pure_eq_ok] at hs
  obtain ⟨⟨worker, timer, out⟩, hg, rfl⟩ := hs
  obtain ⟨hmove, -⟩ := Worker.getQueuedPacket_move hg
  obtain ⟨hq, hp, ht, ha, hd, hm, hk, ho, hf, hn⟩ := h
  generalize hsq : s.worker.senderQueue = sq at hmove hq ha
  generalize hpq : s.worker.ackPendingQueue = pq at hmove hp ht ha
  generalize hsq' : worker.senderQueue = sq' at hmove
  generalize hpq' : worker.ackPendingQueue = pq' at hmove
  cases hmove with
  | stay =>
    refine ⟨hsq' ▸ hq, hpq' ▸ hp, hpq' ▸ ht, ?_, hd, hm, hk, ho, hf, hn⟩
    rw [hsq', hpq']
    exact ha
  | toPending p queue o _ hqueue hget hack =>
    subst hqueue
    have hpa : isAckable s.mem p = true := isAckable_iff.mpr ⟨o, hget, hack⟩
    refine ⟨?_, ?_, ?_, ?_, hd, hm, hk, ho, hf, hn⟩
    · rw [hsq']
      exact fun q hmem => hq q (List.mem_cons_of_mem _ hmem)
    · rw [hpq']
      intro q hmem
      rcases List.mem_append.mp hmem with hmem | hmem
      · exact hp q hmem
      · rw [List.mem_singleton.mp hmem]
        exact hpa
    · rw [hpq']
      exact ht.append_right _
    · -- the front of the queue becomes the back of the pending queue
      rw [hsq', hpq']
      apply ha.trans
      rw [List.filter_cons, if_pos hpa]
      apply List.Perm.append_right _
      rw [List.cons_append, ← List.append_assoc]
      exact (List.perm_append_singleton _ _).symm
  | leave before after p o hqueue hget hack =>
    have hpa : isAckable s.mem p = false := by simp [isAckable, hget, hack]
    refine ⟨?_, hpq' ▸ hp, hpq' ▸ ht, ?_, hd, hm, hk, ho, hf, hn⟩
    · rw [hsq']
      intro q hmem
      apply hq
      rw [hqueue]
      simp only [List.mem_append, List.mem_cons] at hmem ⊢
      exact hmem.imp_right .inr
    · rw [hsq', hpq']
      apply ha.trans
      rw [hqueue, List.filter_append, List.filter_cons, if_neg (by simp [hpa]),
        List.filter_append]

/-- A pending packet leaves the pending queue, the timer and the heap. -/
lemma acknowledge (h : Inv states s) {p : OutPacketRef} {before after : List OutPacketRef}
    {o : OutPacket} {id : String} (hq : s.worker.ackPendingQueue = before ++ p :: after)
    (ho : s.mem.get p = some o) (hid : HasId states o id) :
    Inv states { s with
      mem := s.mem.free p
      worker := { s.worker with ackPendingQueue := before ++ after }
      timer := { s.timer with timedPackets := s.timer.timedPackets.filter (· ≠ p) }
      acknowledged := s.acknowledged ++ [(p, id)] } := by
  have hpend : p ∈ s.worker.ackPendingQueue := by simp [hq]
  have hnd := h.pending_nodup
  rw [hq] at hnd
  have hnot : p ∉ before ++ after := (List.nodup_middle.mp hnd).notMem
  have hsender : ∀ q ∈ s.worker.senderQueue, q ≠ p := by
    rintro q hmem rfl
    exact h.not_queued hpend hmem
  have hmem : ∀ b, b ∈ s.acknowledged ++ [(p, id)] ↔ b ∈ s.acknowledged ∨ b = (p, id) :=
    fun b => by rw [List.mem_append, List.mem_singleton]
  constructor
  case queued =>
    intro q hq'
    rw [Heap.get_free_of_ne (hsender q hq')]
    exact h.queued q hq'
  case pending =>
    intro q hq'
    have hne : q ≠ p := ne_of_mem_of_not_mem hq' hnot
    rw [isAckable_free_of_ne hne]
    apply h.pending q
    rw [hq, List.mem_append, List.mem_cons]
    rcases List.mem_append.mp hq' with hq' | hq'
    · exact .inl hq'
    · exact .inr (.inr hq')
  case timed =>
    apply (h.timed.filter _).trans
    rw [hq, filter_ne_middle hnd]
  case accounted =>
    rw [List.filter_congr fun q hq' => isAckable_free_of_ne (hsender q hq'), List.map_append]
    apply h.accounted.trans
    rw [hq]
    simp only [List.append_assoc]
    refine List.Perm.append_left _ (List.Perm.append_left _ ?_)
    rw [← List.append_assoc]
    exact (List.perm_append_singleton _ _).symm
  case distinct => exact h.distinct
  case made =>
    intro a ha
    rw [Heap.next_free]
    exact h.made a ha
  case needed => exact h.needed
  case object =>
    intro a ha o' ho'
    by_cases hne : a.1 = p
    · rw [hne, Heap.get_free_self] at ho'
      cases ho'
    · rw [Heap.get_free_of_ne hne] at ho'
      exact h.object a ha o' ho'
  case freed =>
    intro b hb
    by_cases hne : b.1 = p
    · rw [hne, Heap.get_free_self]
    · rw [Heap.get_free_of_ne hne]
      rcases (hmem b).mp hb with hb | rfl
      · exact h.freed b hb
      · exact absurd rfl hne
  case named =>
    intro b hb
    rcases (hmem b).mp hb with hb | rfl
    · exact h.named b hb
    · exact ⟨o, h.mem_accepted hpend ho, hid⟩

lemma matchAckablePacket (h : Inv states s) {id : String}
    (hs : step states s (.matchAckablePacket id) = .ok s') : Inv states s' := by
  simp only [step, Outcome.bind_eq_ok, Outcome.pure_eq_ok] at hs
  obtain ⟨⟨worker, timer, mem, found⟩, hm, rfl⟩ := hs
  rcases Worker.matchAckablePacket_cases hm with
    ⟨rfl, before, after, p, hq, hid, rfl, rfl, rfl⟩ | ⟨rfl, -, rfl, rfl, rfl⟩
  · obtain ⟨o, r, st, ho, hr, hst, heq⟩ := Worker.hasId_eq_ok.mp hid
    have hid' : HasId states o id := ⟨r, st, hr, hst, by simpa using heq⟩
    have hnd := h.pending_nodup
    rw [hq] at hnd
    have hremoved : s.worker.ackPendingQueue.filter (· ∉ before ++ after) = [p] := by
      rw [hq, filter_notMem_middle hnd]
    simp only [if_true, hremoved, List.map_cons, List.map_nil]
    exact h.acknowledge hq ho hid'
  · simpa using h

lemma pushToFront (h : Inv states s) {p : OutPacketRef}
    (hs : step states s (.pushToFront p) = .ok s') : Inv states s' := by
  simp only [step, Outcome.guard_eq_ok, Outcome.bind_eq_ok, Worker.pushToFront_eq_ok,
    Outcome.pure_eq_ok] at hs
  obtain ⟨htimed, _, ⟨-, rfl⟩, rfl⟩ := hs
  have hpend : p ∈ s.worker.ackPendingQueue := h.timed.mem_iff.mp htimed
  have hperm : s.worker.ackPendingQueue.Perm (p :: s.worker.ackPendingQueue.filter (· ≠ p)) := by
    have herase := List.perm_cons_erase hpend
    rw [h.pending_nodup.erase_eq_filter] at herase
    simpa [bne, Bool.beq_eq_decide_eq] using herase
  refine ⟨h.queued, fun q hmem => h.pending q (hperm.mem_iff.mpr hmem), h.timed.trans hperm, ?_,
    h.distinct, h.made, h.needed, h.object, h.freed, h.named⟩
  exact h.accounted.trans ((hperm.append_left _).append_right _)

lemma step (h : Inv states s) {e : SoloEvent} (hs : step states s e = .ok s') :
    Inv states s' := by
  cases e with
  | queuePacket o => exact h.queuePacket hs
  | getQueuedPacket => exact h.getQueuedPacket hs
  | matchAckablePacket id => exact h.matchAckablePacket hs
  | pushToFront p => exact h.pushToFront hs

/-- An accepted packet stands in exactly one of the three places. -/
lemma count_eq_one (h : Inv states s) {a : OutPacketRef × OutPacket} (ha : a ∈ s.accepted) :
    s.worker.senderQueue.count a.1 + s.worker.ackPendingQueue.count a.1
      + (s.acknowledged.map Prod.fst).count a.1 = 1 := by
  have hone : (s.accepted.map Prod.fst).count a.1 = 1 :=
    List.count_eq_one_of_mem h.distinct (List.mem_map_of_mem ha)
  rw [h.accounted.count_eq, List.count_append, List.count_append] at hone
  suffices (s.worker.senderQueue.filter (isAckable s.mem)).count a.1
      = s.worker.senderQueue.count a.1 by omega
  cases hack : isAckable s.mem a.1 with
  | true => exact List.count_filter hack
  | false =>
    -- an accepted packet that is not ackable any more was freed, and is not queued
    have hfreed : s.mem.get a.1 = none := by
      by_contra hne
      obtain ⟨o, ho⟩ := Option.ne_none_iff_exists'.mp hne
      have := h.object a ha o ho ▸ h.needed a ha
      simp [isAckable, ho, this] at hack
    have hqueued : a.1 ∉ s.worker.senderQueue := fun hmem => by
      obtain ⟨o, ho⟩ := h.queued a.1 hmem
      simp [ho] at hfreed
    rw [List.count_eq_zero_of_not_mem hqueued,
      List.count_eq_zero_of_not_mem fun hmem => hqueued (List.mem_filter.mp hmem).1]

end Inv

/-! ### The bookkeeping -/

/-- What holds of the worker's queues, the timer list and the record of a run. -/
structure Bookkeeping (states : Heap OutgoingDataState) (s : Solo) : Prop where
  nodup : s.worker.ackPendingQueue.Nodup
  ackable : ∀ p ∈ s.worker.ackPendingQueue, isAckable s.mem p = true
  disjoint : s.worker.ackPendingQueue.Disjoint s.worker.senderQueue
  timed : s.timer.timedPackets.Perm s.worker.ackPendingQueue
  once : ∀ a ∈ s.accepted, s.worker.senderQueue.count a.1 + s.worker.ackPendingQueue.count a.1
    + (s.acknowledged.map Prod.fst).count a.1 = 1
  named : ∀ b ∈ s.acknowledged, ∃ o, (b.1, o) ∈ s.accepted ∧ HasId states o b.2

/-- After any calls on one worker: its pending queue has no duplicates and only ackable packets,
none of them queued; the timer holds exactly these; and an accepted ackable packet is queued,
or pending, or was acknowledged once under its id. -/
theorem run_bookkeeping (workerUID : String) (es : List SoloEvent)
    (h : run (step states) (new workerUID) es = .ok s) : Bookkeeping states s := by
  have hinv : Inv states s :=
    run_invariant (fun _ _ _ hI hs => hI.step hs) (inv_new workerUID) h
  exact {
    nodup := hinv.pending_nodup
    ackable := hinv.pending
    disjoint := fun _ hp hq => hinv.not_queued hp hq
    timed := hinv.timed
    once := fun _ ha => hinv.count_eq_one ha
    named := hinv.named }

/-- A packet is sent, timed out, re-sent and acknowledged while another one waits. -/
theorem run_bookkeeping_resend : ∃ s,
    run (step ⟨[some ⟨"T", .dataReady, none⟩]⟩) (new "1000")
      [.queuePacket (.new ⟨.spDataSent, "1000", .empty⟩ (some 0) true),
       .queuePacket (.new ⟨.spDataSent, "1000", .empty⟩ (some 0) true),
       .getQueuedPacket, .pushToFront 0, .getQueuedPacket, .matchAckablePacket "T"] = .ok s ∧
    Bookkeeping ⟨[some ⟨"T", .dataReady, none⟩]⟩ s :=
  Outcome.exists_ok_and (by decide) fun _ hs => run_bookkeeping "1000" _ hs

end Solo

end ServerUnit
