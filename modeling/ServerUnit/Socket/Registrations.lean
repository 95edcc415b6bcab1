import ServerUnit.Socket.Protocol

/-!
# The UIDs given out

A session whose packet names no worker registers one and answers with its UID. When that is one step,
no UID is given out twice over all sessions, the workers are those that were registered so, and each
UID was told to the session that asked.
-/

namespace ServerUnit

open Lib

namespace WorkerRegistry

variable {r r' : WorkerRegistry} {workerUid : String}

/-- A UID is a number. -/
lemma exists_toString_of_drawUid {failed : Bool} {draws : List ℕ}
    (h : r.drawUid failed draws = .ok workerUid) : ∃ n : ℕ, workerUid = toString n := by
  induction draws generalizing failed with
  | nil => cases h
  | cons n draws ih =>
    simp only [drawUid, Outcome.bind_eq_ok] at h
    obtain ⟨current, -, h⟩ := h
    split_ifs at h
    all_goals first
      | exact ih h
      | exact ⟨n, (Outcome.pure_eq_ok.mp h).symm⟩

lemma ne_empty_of_generateWorkerUid {draws : List ℕ}
    (h : r.generateWorkerUid draws = .ok (r', workerUid)) : workerUid ≠ "" := by
  simp only [generateWorkerUid, Outcome.bind_eq_ok, Outcome.pure_eq_ok, Prod.mk.injEq] at h
  obtain ⟨uid, huid, -, rfl⟩ := h
  obtain ⟨n, rfl⟩ := exists_toString_of_drawUid huid
  exact Nat.repr_ne_empty

end WorkerRegistry

/-- No worker had the new UID. -/
lemma Server.Sound.not_isUid {s : Server} (hs : s.Sound) {workerRegistry : WorkerRegistry}
    {workerUid : String} {draws : List ℕ}
    (hgenerate : s.workerRegistry.generateWorkerUid draws = .ok (workerRegistry, workerUid)) :
    ¬ s.IsUid workerUid := by
  obtain ⟨-, hfree⟩ := WorkerRegistry.generateWorkerUid_cases hgenerate
  rintro ⟨worker, w, hw, huid⟩
  obtain ⟨w', hw', hne⟩ := hfree worker (hs.registered.listed worker w hw)
  cases hw.symm.trans hw'
  exact hne huid

namespace Program

variable {n : ℕ} {x x' : Program n} {c : SessionRef} {s : Session}

/-- The UIDs given out are those of the workers, and whoever asked was told. -/
structure Issued (x : Program n) : Prop where
  once : (x.issued.map Prod.fst).Nodup
  isUid_iff : ∀ uid, x.server.IsUid uid ↔ uid ∈ x.issued.map Prod.fst
  ne_empty : ∀ uid ∈ x.issued.map Prod.fst, uid ≠ ""
  told : ∀ uid c, (uid, c) ∈ x.issued → ∃ s packet, x.connections.get c = some s ∧
    validateJson packet = true ∧
    (packet, PacketConstructor.create .spHandshake uid) ∈ s.exchanges

lemma Issued.register (h : x.Issued) (hkept : x.Kept) (hc : x.connections.get c = some s)
    (hregisters : Registers x c s x') : x'.Issued := by
  obtain ⟨draws, workerRegistry, workerUid, hpc, hgenerate, rfl⟩ := hregisters
  have hnew := hkept.sound.not_isUid hgenerate
  have hne := WorkerRegistry.ne_empty_of_generateWorkerUid hgenerate
  have hvalid : validateJson s.packet = true := (hkept.follows c s hc).valid (by rw [hpc]; rfl)
  obtain ⟨rfl, -⟩ := WorkerRegistry.generateWorkerUid_cases hgenerate
  refine ⟨?_, fun uid => ?_, fun uid hmem => ?_, fun uid d hmem => ?_⟩
  · simp only [List.map_append, List.map_cons, List.map_nil]
    refine List.nodup_append.mpr ⟨h.once, List.nodup_singleton _, fun uid hmem uid' hmem' heq => ?_⟩
    rw [List.mem_singleton.mp hmem'] at heq
    rw [heq, ← h.isUid_iff] at hmem
    exact hnew hmem
  · rw [List.map_append, List.mem_append, ← h.isUid_iff]
    constructor
    · rintro ⟨worker, w, hw, rfl⟩
      by_cases hworker : worker = x.server.workerRegistry.workers.next
      · rw [hworker] at hw
        cases (Heap.get_alloc_self _ _).symm.trans hw
        exact .inr (List.mem_singleton_self _)
      · exact .inl ⟨worker, w, (Heap.get_alloc_of_ne hworker).symm.trans hw, rfl⟩
    · rintro (⟨worker, w, hw, rfl⟩ | huid)
      · exact ⟨worker, w, Heap.get_alloc_of_get hw, rfl⟩
      · rw [List.mem_singleton.mp huid]
        exact ⟨_, _, Heap.get_alloc_self _ _, rfl⟩
  · rw [List.map_append, List.mem_append] at hmem
    rcases hmem with hmem | hmem
    · exact h.ne_empty uid hmem
    · rw [List.mem_singleton.mp hmem]
      exact hne
  · rcases List.mem_append.mp hmem with hmem | hmem
    · obtain ⟨t, packet, ht, hpacket, hexchange⟩ := h.told uid d hmem
      by_cases hd : d = c
      · subst hd
        cases hc.symm.trans ht
        exact ⟨_, packet, Heap.get_put_self hc, hpacket, List.mem_append_left _ hexchange⟩
      · exact ⟨t, packet, (Heap.get_put_of_ne hd).trans ht, hpacket, hexchange⟩
    · cases List.mem_singleton.mp hmem
      exact ⟨_, s.packet, Heap.get_put_self hc, hvalid,
        List.mem_append_right _ (List.mem_singleton_self _)⟩

/-- Nobody is registered, and the sessions keep their answers. -/
lemma Issued.continues (h : x.Issued) (hcontinues : x.server.Continues x'.server)
    (hissued : x'.issued = x.issued)
    (hexchanges : ∀ c s, x.connections.get c = some s →
      ∃ s', x'.connections.get c = some s' ∧ s.exchanges <+: s'.exchanges) : x'.Issued := by
  refine ⟨?_, fun uid => ?_, ?_, fun uid c hmem => ?_⟩
  · rw [hissued]
    exact h.once
  · rw [hissued, hcontinues.isUid_iff, h.isUid_iff]
  · rw [hissued]
    exact h.ne_empty
  · rw [hissued] at hmem
    obtain ⟨s, packet, hs, hpacket, hexchange⟩ := h.told uid c hmem
    obtain ⟨s', hs', hpre⟩ := hexchanges c s hs
    exact ⟨s', packet, hs', hpacket, hpre.mem hexchange⟩

lemma issued_init (addFlag : ℕ → Bool) (starveCounter : ℕ → UInt8) (totalThreads : ℤ) :
    (init (.init addFlag starveCounter) n totalThreads).Issued := by
  refine ⟨List.nodup_nil, fun uid => ?_, ?_, ?_⟩
  · constructor
    · rintro ⟨_, _, hw, -⟩
      cases hw
    · intro hmem
      cases hmem
  · simp [init]
  · simp [init]

/-- Every answer to a packet has one of the UIDs for its id, and only what is no packet is answered
with an empty one. -/
lemma Issued.answered (h : x.Issued) (hkept : x.Kept) (hs : x.connections.get c = some s)
    {exchange : Json × ServerPacket} (hmem : exchange ∈ s.exchanges) :
    if validateJson exchange.1 then exchange.2.id ∈ x.issued.map Prod.fst
    else exchange.2.id = "" := by
  have hanswered := (hkept.follows c s hs).answered exchange hmem
  unfold Answered at hanswered
  split_ifs at hanswered ⊢
  · exact (h.isUid_iff _).mp hanswered
  · rw [hanswered]
    rfl

variable [NeZero n]

/-- A session answers or it does not; what it answered it answered. -/
lemma Handled.exchanges (h : Handled x c s x') :
    ∃ s', x'.connections = x.connections.put c s' ∧ s.exchanges <+: s'.exchanges := by
  cases h with
  | refused | registered | served | quick => exact ⟨_, rfl, List.prefix_append _ _⟩
  | stranger | known | disconnected | modeSet | pushed | scheduled | idle | again | written
  | rewritten | broken => exact ⟨_, rfl, List.prefix_refl _⟩

lemma Stepped.exchanges (h : Stepped x x') {d : SessionRef} {s : Session}
    (hs : x.connections.get d = some s) :
    ∃ s', x'.connections.get d = some s' ∧ s.exchanges <+: s'.exchanges := by
  cases h with
  | connected => exact ⟨s, Heap.get_alloc_of_get hs, List.prefix_refl _⟩
  | processed | called => exact ⟨s, hs, List.prefix_refl _⟩
  | handled c s₀ _ hc h =>
    obtain ⟨s', hput, hpre⟩ := h.exchanges
    rw [hput, Heap.get_put hc]
    split_ifs with heq
    · cases heq
      cases hs.symm.trans hc
      exact ⟨s', rfl, hpre⟩
    · exact ⟨s, hs, List.prefix_refl _⟩

lemma Issued.step (h : x.Issued) (hkept : x.Kept) (hstep : Stepped x x') : x'.Issued := by
  rcases hstep.continues hkept.sound with ⟨hcontinues, hissued⟩ | ⟨c, s, hc, hregisters⟩
  · exact h.continues hcontinues hissued fun _ _ => hstep.exchanges
  · exact h.register hkept hc hregisters

end Program

end ServerUnit
