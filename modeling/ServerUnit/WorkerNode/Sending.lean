import ServerUnit.WorkerNode.Acknowledgement
import Mathlib.Data.Multiset.ZeroCons

/-!
# What `getQueuedPacket` takes and what it returns

`getQueuedPacket` takes a packet off the queue and returns its JSON. Over its limit of pending
packets it looks for the first packet that needs no acknowledgement; that one it erases through
the iterator, which it moves back by one, and returns what the iterator is at then.
-/

namespace ServerUnit

open Lib

namespace Worker

open Solo (isAckable isAckable_iff)

/-- The call took the packet off the queue; the others keep their order. -/
def Takes (w w' : Worker) (p : OutPacketRef) : Prop :=
  ∃ before after, w.senderQueue = before ++ p :: after ∧ w'.senderQueue = before ++ after

/-- The call returns what it takes. -/
structure ReturnsTaken (mem : Heap OutPacket) (timer : Timeout) (w w' : Worker) (timer' : Timeout)
    (out : Option ServerPacket) : Prop where
  order : w'.senderQueue = w.senderQueue ∨ ∃ p, w.Takes w' p
  json : ∀ p, w.Takes w' p → out = (mem.get p).map OutPacket.packet
  pending : ∀ p, w.Takes w' p →
    w'.ackPendingQueue = w.ackPendingQueue ++ [p].filter (isAckable mem)
  timed : ∀ p, w.Takes w' p →
    timer'.timedPackets = timer.timedPackets ++ [p].filter (isAckable mem)
  nothing : w'.senderQueue = w.senderQueue → out = none ∨ ∃ p rest o,
    w.ackPendingQueue = p :: rest ∧ mem.get p = some o ∧ out = some o.packet

/-- The front of the queue is ackable, the pending queue is over its limit, and `p` is the first
packet that needs no acknowledgement. -/
structure Skips (mem : Heap OutPacket) (w : Worker) (before : List OutPacketRef)
    (p : OutPacketRef) (after : List OutPacketRef) : Prop where
  limit : WORKER_QUEUE_SIZE / 2 < w.ackPendingQueue.length
  queue : w.senderQueue = before ++ p :: after
  front : before ≠ []
  ackable : ∀ q ∈ before, isAckable mem q = true
  plain : isAckable mem p = false

/-- The packet taken there is the first one that needs no acknowledgement. -/
def TakesFirst (mem : Heap OutPacket) (w w' : Worker) : Prop :=
  ∀ before p after, w.Skips mem before p after → w'.senderQueue = before ++ after

/-- The packet before the first one that needs no acknowledgement has the same JSON. -/
def SkipsAlike (mem : Heap OutPacket) (w : Worker) : Prop :=
  ∀ before p after, w.Skips mem before p after → w.ackPacketPop = false →
    (before.getLast?.bind mem.get).map OutPacket.packet = (mem.get p).map OutPacket.packet

variable {mem : Heap OutPacket} {timer timer' : Timeout} {w w' : Worker} {p q : OutPacketRef}
  {before after : List OutPacketRef} {out : Option ServerPacket}

/-! ### Which packet is taken -/

lemma Takes.ne (h : w.Takes w' p) : w'.senderQueue ≠ w.senderQueue := by
  obtain ⟨before, after, hq, hq'⟩ := h
  intro heq
  have hlength := congrArg List.length heq
  rw [hq, hq', List.length_append, List.length_append, List.length_cons] at hlength
  omega

/-- One packet is taken at most. -/
lemma Takes.unique (h : w.Takes w' p) (h' : w.Takes w' q) : p = q := by
  obtain ⟨before, after, hq, hrest⟩ := h
  obtain ⟨before', after', hq', hrest'⟩ := h'
  have hperm : (p :: (before ++ after)).Perm (q :: (before' ++ after')) := by
    refine List.perm_middle.symm.trans (.trans ?_ List.perm_middle)
    rw [← hq, hq']
  rw [← hrest, ← hrest'] at hperm
  have hcons : p ::ₘ (w'.senderQueue : Multiset OutPacketRef) = q ::ₘ w'.senderQueue :=
    Multiset.coe_eq_coe.mpr hperm
  exact (Multiset.cons_inj_left _).mp hcons

/-- The search finds one packet at most. -/
lemma Skips.unique {before' after' : List OutPacketRef} (h : w.Skips mem before p after)
    (h' : w.Skips mem before' q after') : before = before' ∧ p = q ∧ after = after' := by
  have hsplit : ∀ {before p after}, w.Skips mem before p after →
      w.senderQueue.takeWhile (isAckable mem) = before ∧
        w.senderQueue.dropWhile (isAckable mem) = p :: after := by
    intro before p after h
    rw [h.queue, List.takeWhile_append_of_pos h.ackable, List.dropWhile_append_of_pos h.ackable]
    simp [h.plain]
  obtain ⟨htake, hdrop⟩ := hsplit h
  obtain ⟨htake', hdrop'⟩ := hsplit h'
  refine ⟨htake.symm.trans htake', ?_⟩
  simpa using hdrop.symm.trans hdrop'

/-! ### What a call takes -/

/-- The outcomes of a call, by what it takes. -/
inductive TakeRule (mem : Heap OutPacket) (timer : Timeout) (w w' : Worker) (timer' : Timeout)
    (out : Option ServerPacket) : Prop where
  /-- Nothing: the packets are limited, or the front of the pending queue is sent again. -/
  | nothing (hq : w'.senderQueue = w.senderQueue)
      (hout : out = none ∨ ∃ p rest o,
        w.ackPendingQueue = p :: rest ∧ mem.get p = some o ∧ out = some o.packet)
      (hskips : ∀ before p after, w.Skips mem before p after → w.ackPacketPop = true)
  /-- The front of the queue. -/
  | front (p : OutPacketRef) (queue : List OutPacketRef) (o : OutPacket)
      (hq : w.senderQueue = p :: queue) (hq' : w'.senderQueue = queue)
      (ho : mem.get p = some o) (hout : out = some o.packet)
      (hpending : w'.ackPendingQueue = w.ackPendingQueue ++ [p].filter (isAckable mem))
      (htimed : timer'.timedPackets = timer.timedPackets ++ [p].filter (isAckable mem))
      (hskips : ∀ before q after, ¬ w.Skips mem before q after)
  /-- The first packet that needs no acknowledgement: the JSON is that of the packet before it. -/
  | skipped (before after : List OutPacketRef) (p : OutPacketRef)
      (hskips : w.Skips mem before p after) (hflag : w.ackPacketPop = false)
      (hq' : w'.senderQueue = before ++ after)
      (hpending : w'.ackPendingQueue = w.ackPendingQueue)
      (htimed : timer'.timedPackets = timer.timedPackets)
      (hout : out = (before.getLast?.bind mem.get).map OutPacket.packet)

/-- The second half of a call, on a worker that differs from `w` in the flag and the lock. -/
lemma SendRule.takes {v : Worker} (h : SendRule mem timer v w' timer' out)
    (hsender : v.senderQueue = w.senderQueue) (hpending : v.ackPendingQueue = w.ackPendingQueue)
    (hflag : w.ackPacketPop = true → w.ackPendingQueue = []) :
    TakeRule mem timer w w' timer' out := by
  cases h with
  | idle hq =>
    refine .nothing hsender (.inl rfl) fun before p after hskips => ?_
    have hnil : [] = before ++ p :: after := by rw [← hq, hsender, hskips.queue]
    simp at hnil
  | limited hlimit hall =>
    refine .nothing hsender (.inl rfl) fun before p after hskips => ?_
    have hmem : p ∈ v.senderQueue := by simp [hsender, hskips.queue]
    have hplain := hskips.plain
    rw [isAckable_iff.mpr (hall p hmem)] at hplain
    cases hplain
  | skipped before after p previous o o' hlimit hq hbefore ho hack hlast ho' =>
    have hskips : w.Skips mem before p after := {
      limit := hpending ▸ hlimit
      queue := hsender ▸ hq
      front := by
        rintro rfl
        cases hlast
      ackable := fun q hmem => isAckable_iff.mpr (hbefore q hmem)
      plain := by simp [isAckable, ho, hack] }
    have hclear : w.ackPacketPop = false := by
      by_contra hset
      have hlong := hskips.limit
      rw [hflag (by simpa using hset), List.length_nil] at hlong
      omega
    refine .skipped before after p hskips hclear rfl hpending rfl ?_
    rw [hlast, Option.bind_some, ho', Option.map_some]
  | acked p queue o hlimit hq ho hack hlock =>
    have hacked : isAckable mem p = true := isAckable_iff.mpr ⟨o, ho, hack⟩
    refine .front p queue o (hsender ▸ hq) rfl ho rfl ?_ ?_ fun before q after hskips => ?_
    · rw [List.filter_singleton, hacked, cond_true, ← hpending]
    · rw [List.filter_singleton, hacked, cond_true]
    · have hlong := hskips.limit
      rw [← hpending] at hlong
      omega
  | plain p queue o hq ho hack =>
    have hplain : isAckable mem p = false := by simp [isAckable, ho, hack]
    refine .front p queue o (hsender ▸ hq) rfl ho rfl ?_ ?_ fun before q after hskips => ?_
    · rw [List.filter_singleton, hplain, cond_false, List.append_nil, ← hpending]
    · rw [List.filter_singleton, hplain, cond_false, List.append_nil]
    · -- the front of the queue would be ackable
      have hfront := hskips.ackable
      have hqueue := hskips.queue
      cases before with
      | nil => exact hskips.front rfl
      | cons r before =>
        rw [← hsender, hq, List.cons_append] at hqueue
        cases hqueue
        rw [hfront p List.mem_cons_self] at hplain
        cases hplain

lemma TakeRule.of_getQueuedPacket (h : w.getQueuedPacket mem timer = .ok (w', timer', out)) :
    TakeRule mem timer w w' timer' out := by
  cases GetRule.of_getQueuedPacket h with
  | resend p rest o hlock hflag hq ho =>
    exact .nothing rfl (.inr ⟨p, rest, o, hq, ho, rfl⟩) fun _ _ _ _ => hflag
  | unlocked _ _ _ hlock hflag hq hrule => exact hrule.takes rfl rfl fun _ => hq
  | locked _ _ _ lock hlock hflag hrule =>
    refine hrule.takes rfl rfl fun hset => ?_
    rw [hflag] at hset
    cases hset

lemma TakeRule.takes_iff (hq : w.senderQueue = before ++ p :: after)
    (hq' : w'.senderQueue = before ++ after) : w.Takes w' q ↔ q = p := by
  have hp : w.Takes w' p := ⟨before, after, hq, hq'⟩
  constructor
  · exact fun hq => hq.unique hp
  · rintro rfl
    exact hp

/-- A call returns what it takes exactly when a skipped packet, if it takes one, has the JSON of
the packet before it. -/
lemma TakeRule.returnsTaken_iff (h : TakeRule mem timer w w' timer' out) :
    ReturnsTaken mem timer w w' timer' out ↔ w.SkipsAlike mem := by
  cases h with
  | nothing hq hout hskips =>
    refine iff_of_true ?_ fun before p after hskip hclear => ?_
    · have hnone : ∀ p, ¬ w.Takes w' p := fun p hp => hp.ne hq
      exact ⟨.inl hq, fun p hp => absurd hp (hnone p), fun p hp => absurd hp (hnone p),
        fun p hp => absurd hp (hnone p), fun _ => hout⟩
    · rw [hskips before p after hskip] at hclear
      cases hclear
  | front p queue o hq hq' ho hout hpending htimed hskips =>
    refine iff_of_true ?_ fun before q after hskip => absurd hskip (hskips before q after)
    have htakes : ∀ q, w.Takes w' q ↔ q = p := by
      intro q
      have hfront : w.senderQueue = [] ++ p :: queue := hq
      exact takes_iff hfront hq'
    refine ⟨.inr ⟨p, (htakes p).mpr rfl⟩, ?_, ?_, ?_, ?_⟩
    · intro q hq
      rw [(htakes q).mp hq, ho, hout, Option.map_some]
    · intro q hq
      rw [(htakes q).mp hq, hpending]
    · intro q hq
      rw [(htakes q).mp hq, htimed]
    · exact fun hsame => absurd hsame ((htakes p).mpr rfl).ne
  | skipped before after p hskips hflag hq' hpending htimed hout =>
    have htakes : ∀ q, w.Takes w' q ↔ q = p := fun q => takes_iff hskips.queue hq'
    have hplain : [p].filter (isAckable mem) = [] := by
      rw [List.filter_singleton, hskips.plain, cond_false]
    constructor
    · intro hreturns before' q after' hskips' _
      obtain ⟨rfl, rfl, rfl⟩ := hskips.unique hskips'
      exact hout.symm.trans (hreturns.json p ((htakes p).mpr rfl))
    · intro halike
      refine ⟨.inr ⟨p, (htakes p).mpr rfl⟩, ?_, ?_, ?_, ?_⟩
      · intro q hq
        rw [(htakes q).mp hq, hout]
        exact halike before p after hskips hflag
      · intro q hq
        rw [(htakes q).mp hq, hplain, List.append_nil, hpending]
      · intro q hq
        rw [(htakes q).mp hq, hplain, List.append_nil, htimed]
      · exact fun hsame => absurd hsame ((htakes p).mpr rfl).ne

/-- Over the limit, the first packet that needs no acknowledgement is taken unless the call sends a
packet again. -/
lemma TakeRule.takesFirst_iff (h : TakeRule mem timer w w' timer' out) :
    TakesFirst mem w w' ↔ ∀ before p after, w.Skips mem before p after → w.ackPacketPop = false := by
  cases h with
  | nothing hq hout hskips =>
    have hset : ∀ before p after, w.Skips mem before p after →
        w'.senderQueue ≠ before ++ after ∧ w.ackPacketPop ≠ false := by
      intro before p after hskip
      refine ⟨fun heq => ?_, by simp [hskips before p after hskip]⟩
      exact Takes.ne ⟨before, after, hskip.queue, heq⟩ hq
    constructor
    · exact fun hfirst before p after hskip =>
        absurd (hfirst before p after hskip) (hset before p after hskip).1
    · exact fun hclear before p after hskip =>
        absurd (hclear before p after hskip) (hset before p after hskip).2
  | front p queue o hq hq' ho hout hpending htimed hskips =>
    exact iff_of_true (fun _ _ _ hskip => absurd hskip (hskips _ _ _))
      fun _ _ _ hskip => absurd hskip (hskips _ _ _)
  | skipped before after p hskips hflag hq' hpending htimed hout =>
    refine iff_of_true (fun before' q after' hskips' => ?_) fun _ _ _ _ => hflag
    obtain ⟨rfl, rfl, rfl⟩ := hskips.unique hskips'
    exact hq'

/-! ### The call returns -/

/-- The locks are free and the packets of both queues are there. -/
structure Usable (mem : Heap OutPacket) (timer : Timeout) (w : Worker) : Prop where
  workerLock : 0 < w.workerLock
  listLock : 0 < timer.timeoutListLock
  queued : ∀ p ∈ w.senderQueue, ∃ o, mem.get p = some o
  pending : ∀ p ∈ w.ackPendingQueue, ∃ o, mem.get p = some o

lemma exists_sendQueued (hlist : 0 < timer.timeoutListLock)
    (hqueued : ∀ p ∈ w.senderQueue, ∃ o, mem.get p = some o) :
    ∃ r, w.sendQueued mem timer = .ok r := by
  unfold sendQueued
  split
  next => exact ⟨_, rfl⟩
  next p queue hq =>
    obtain ⟨o, ho⟩ := hqueued p (hq ▸ List.mem_cons_self)
    rw [Heap.deref_eq_ok.mpr ho, Outcome.ok_bind]
    split_ifs with hack hlimit
    · have htest : ∀ q ∈ w.senderQueue,
          ∃ t, (do return !(← mem.deref q).ackable : Outcome Bool) = .ok t := by
        intro q hmem
        obtain ⟨o, ho⟩ := hqueued q hmem
        exact ⟨_, notAckable_eq_ok.mpr ⟨o, ho, rfl⟩⟩
      obtain ⟨split, hsplit⟩ := splitFirst_isOk htest
      rw [hsplit, Outcome.ok_bind]
      cases split with
      | none => exact ⟨_, rfl⟩
      | some found =>
        obtain ⟨before, q, after⟩ := found
        obtain ⟨hqueue, -, hplain⟩ := splitFirst_eq_some hsplit
        -- the front is ackable, so that the packet found has one before it
        cases hbefore : before.getLast? with
        | none =>
          rw [List.getLast?_eq_none_iff] at hbefore
          subst hbefore
          rw [hq, List.nil_append] at hqueue
          cases hqueue
          obtain ⟨o', ho', hplain⟩ := notAckable_eq_ok.mp hplain
          cases ho.symm.trans ho'
          rw [hack] at hplain
          cases hplain
        | some previous =>
          have hmem : previous ∈ w.senderQueue :=
            hqueue ▸ List.mem_append_left _ (List.mem_of_getLast? hbefore)
          obtain ⟨o', ho'⟩ := hqueued previous hmem
          simp only [hbefore, Outcome.ofOption, Outcome.ok_bind, Heap.deref_eq_ok.mpr ho']
          exact ⟨_, rfl⟩
    · rw [Timeout.addPacket_eq_ok.mpr ⟨hlist, rfl⟩, Outcome.ok_bind]
      exact ⟨_, rfl⟩
    · exact ⟨_, rfl⟩

/-- With the re-send flag set, the front of the pending queue is returned and stays there. -/
lemma getQueuedPacket_resend {rest : List OutPacketRef} {o : OutPacket} (hlock : 0 < w.workerLock)
    (hflag : w.ackPacketPop = true) (hq : w.ackPendingQueue = p :: rest)
    (ho : mem.get p = some o) :
    w.getQueuedPacket mem timer = .ok ({ w with ackPacketPop := false }, timer, some o.packet) := by
  obtain ⟨lock, hlock⟩ := Nat.exists_eq_succ_of_ne_zero hlock.ne'
  rw [getQueuedPacket, semWait_eq_ok.mpr hlock, Outcome.ok_bind, if_pos hflag]
  simp only [hq, Heap.deref_eq_ok.mpr ho, Outcome.ok_bind, semPost]
  rw [← Nat.succ_eq_add_one, ← hlock]
  rfl

lemma Usable.exists_getQueuedPacket (h : w.Usable mem timer) :
    ∃ r, w.getQueuedPacket mem timer = .ok r := by
  obtain ⟨lock, hlock⟩ := Nat.exists_eq_succ_of_ne_zero h.workerLock.ne'
  by_cases hflag : w.ackPacketPop = true
  · cases hq : w.ackPendingQueue with
    | nil =>
      rw [getQueuedPacket, semWait_eq_ok.mpr hlock, Outcome.ok_bind, if_pos hflag]
      simp only [hq]
      exact exists_sendQueued h.listLock h.queued
    | cons p rest =>
      obtain ⟨o, ho⟩ := h.pending p (hq ▸ List.mem_cons_self)
      exact ⟨_, getQueuedPacket_resend h.workerLock hflag hq ho⟩
  · rw [getQueuedPacket, semWait_eq_ok.mpr hlock, Outcome.ok_bind, if_neg hflag]
    exact exists_sendQueued h.listLock h.queued

/-- A call on a worker that is fit for use returns; and a call that returns gives back the packet
that it takes exactly when the packet it skips to, if it does, has the JSON of the one before it.
The packet taken over the limit is the first one that needs no acknowledgement, unless the call
sends a packet again. -/
theorem getQueuedPacket_returns_taken :
    (w.Usable mem timer → ∃ r, w.getQueuedPacket mem timer = .ok r) ∧
    ∀ w' timer' out, w.getQueuedPacket mem timer = .ok (w', timer', out) →
      (ReturnsTaken mem timer w w' timer' out ↔ w.SkipsAlike mem) ∧
      (TakesFirst mem w w' ↔
        ∀ before p after, w.Skips mem before p after → w.ackPacketPop = false) :=
  ⟨Usable.exists_getQueuedPacket, fun _ _ _ h =>
    have hrule := TakeRule.of_getQueuedPacket h
    ⟨hrule.returnsTaken_iff, hrule.takesFirst_iff⟩⟩

/-- The packets `0` to `11` need an acknowledgement, the packet `12` needs none. -/
def queueHeap : Heap OutPacket :=
  ⟨List.replicate 12 (some (.new ⟨.spDataSent, "1000", .empty⟩ (some 0) true)) ++
    [some (.new ⟨.spFresAck, "1000", .empty⟩ none false)]⟩

/-- As many packets are pending as may be, and the packet `12` waits behind an ackable one. -/
def saturated : Worker :=
  { Worker.new "1000" with senderQueue := [11, 12], ackPendingQueue := List.range 11 }

/-- The packet `12` leaves the queue, and the JSON returned is that of the packet `11`. -/
theorem getQueuedPacket_not_returnsTaken : ∃ w' timer' out,
    saturated.getQueuedPacket queueHeap .new = .ok (w', timer', out) ∧
    ¬ ReturnsTaken queueHeap .new saturated w' timer' out := by
  obtain ⟨⟨w', timer', out⟩, h, hq, hout⟩ : ∃ r, saturated.getQueuedPacket queueHeap .new = .ok r ∧
      r.1.senderQueue = [11] ∧ r.2.2 ≠ (queueHeap.get 12).map OutPacket.packet :=
    Outcome.exists_ok_of_eval (by decide)
  refine ⟨w', timer', out, h, fun hreturns => hout ?_⟩
  exact hreturns.json 12 ⟨[11], [], rfl, hq⟩

end Worker

end ServerUnit
