import ServerUnit.Lib.Outcome

/-!
# Machines and their runs

A machine takes a step for each event, deterministically: every choice of the environment
is part of the event. A run is the list of its events. Invariants of all runs, and of the
runs whose steps all meet a condition, follow from one step lemma.
-/

namespace Lib

variable {σ ε φ : Type*}

/-- Run a machine through a list of events. -/
def run (step : σ → ε → Except φ σ) (s : σ) (es : List ε) : Except φ σ :=
  match es with
  | []      => .ok s
  | e :: es => (step s e).bind fun s' => run step s' es

variable {step : σ → ε → Except φ σ}

@[simp] lemma run_nil (s : σ) : run step s [] = .ok s := rfl

lemma run_cons_eq_ok {s s' : σ} {e : ε} {es : List ε} :
    run step s (e :: es) = .ok s' ↔ ∃ t, step s e = .ok t ∧ run step t es = .ok s' := by
  simp only [run]
  cases step s e <;> simp [Except.bind]

/-- Every step of the run meets `C`, a condition on the state before the step and the event. -/
def Meets (step : σ → ε → Except φ σ) (C : σ → ε → Prop) : σ → List ε → Prop
  | _, []      => True
  | s, e :: es => C s e ∧ ∀ t, step s e = .ok t → Meets step C t es

instance Meets.decidable {C : σ → ε → Prop} [∀ s e, Decidable (C s e)] :
    ∀ (s : σ) (es : List ε), Decidable (Meets step C s es)
  | _, [] => isTrue trivial
  | s, e :: es =>
    match h : step s e with
    | .error _ => decidable_of_iff (C s e) (by simp [Meets, h])
    | .ok t =>
      have := Meets.decidable (C := C) t es
      decidable_of_iff (C s e ∧ Meets step C t es) (by simp [Meets, h])

/-- A condition on events alone is met as soon as all events satisfy it. -/
lemma Meets.of_forall {C : ε → Prop} {s : σ} {es : List ε} (h : ∀ e ∈ es, C e) :
    Meets step (fun _ e => C e) s es := by
  induction es generalizing s with
  | nil => trivial
  | cons e es ih =>
    exact ⟨h e List.mem_cons_self, fun _ _ => ih fun e' he' => h e' (List.mem_cons_of_mem _ he')⟩

/-- In a run that returns every step does. -/
lemma Meets.of_run {s s' : σ} {es : List ε} (h : run step s es = .ok s') :
    Meets step (fun s e => ∃ t, step s e = .ok t) s es := by
  induction es generalizing s with
  | nil => trivial
  | cons e es ih =>
    obtain ⟨t, ht, h⟩ := run_cons_eq_ok.mp h
    refine ⟨⟨t, ht⟩, fun t' ht' => ?_⟩
    cases ht.symm.trans ht'
    exact ih h

/-- Conditions that agree in the states of an invariant, on the steps of the run, are met together,
where a step that meets the first keeps the invariant. -/
lemma Meets.congr {I : σ → Prop} {R C D : σ → ε → Prop}
    (hiff : ∀ s e, I s → R s e → (C s e ↔ D s e))
    (hstep : ∀ s e s', I s → C s e → step s e = .ok s' → I s') {s : σ} {es : List ε} (hs : I s)
    (hR : Meets step R s es) : Meets step C s es ↔ Meets step D s es := by
  induction es generalizing s with
  | nil => exact Iff.rfl
  | cons e es ih =>
    obtain ⟨hR, hRrest⟩ := hR
    constructor
    · rintro ⟨hC, hrest⟩
      refine ⟨(hiff s e hs hR).mp hC, fun t ht => ?_⟩
      exact (ih (hstep s e t hs hC ht) (hRrest t ht)).mp (hrest t ht)
    · rintro ⟨hD, hrest⟩
      have hC := (hiff s e hs hR).mpr hD
      refine ⟨hC, fun t ht => ?_⟩
      exact (ih (hstep s e t hs hC ht) (hRrest t ht)).mpr (hrest t ht)

/-- The invariant rule for runs whose steps meet a condition. -/
theorem run_induct {I : σ → Prop} {C : σ → ε → Prop}
    (hstep : ∀ s e s', I s → C s e → step s e = .ok s' → I s')
    {s s' : σ} {es : List ε} (hs : I s) (hC : Meets step C s es) (h : run step s es = .ok s') :
    I s' := by
  induction es generalizing s with
  | nil =>
    cases h
    exact hs
  | cons e es ih =>
    obtain ⟨t, ht, h⟩ := run_cons_eq_ok.mp h
    exact ih (hstep s e t hs hC.1 ht) (hC.2 t ht) h

/-- The invariant rule for all runs. -/
theorem run_invariant {I : σ → Prop} (hstep : ∀ s e s', I s → step s e = .ok s' → I s')
    {s s' : σ} {es : List ε} (hs : I s) (h : run step s es = .ok s') : I s' := by
  refine run_induct (C := fun _ _ => True) (fun s e s' hI _ => hstep s e s' hI) hs ?_ h
  exact Meets.of_forall (C := fun _ => True) fun _ _ => trivial

/-- The rule for runs all of whose steps return. -/
theorem exists_run {I : σ → Prop} {C : ε → Prop}
    (hstep : ∀ s e, I s → C e → ∃ s', step s e = .ok s' ∧ I s') {s : σ} {es : List ε} (hs : I s)
    (hC : ∀ e ∈ es, C e) : ∃ s', run step s es = .ok s' ∧ I s' := by
  induction es generalizing s with
  | nil => exact ⟨s, rfl, hs⟩
  | cons e es ih =>
    obtain ⟨t, ht, hI⟩ := hstep s e hs (hC e List.mem_cons_self)
    obtain ⟨s', hrun, hI⟩ := ih hI fun e' he' => hC e' (List.mem_cons_of_mem _ he')
    exact ⟨s', run_cons_eq_ok.mpr ⟨t, ht, hrun⟩, hI⟩

/-- The rule for runs that come to a stop: as long as they have not, some step lowers what remains. -/
theorem exists_run_stop {I : ℕ → σ → Prop} {stop : σ → Prop}
    (hstep : ∀ n s, I n s → ¬ stop s → ∃ e s' m, step s e = .ok s' ∧ m < n ∧ I m s')
    {n : ℕ} {s : σ} (hs : I n s) : ∃ es s' m, run step s es = .ok s' ∧ I m s' ∧ stop s' := by
  induction n using Nat.strongRecOn generalizing s with
  | ind n ih =>
    by_cases hstop : stop s
    · exact ⟨[], s, n, rfl, hs, hstop⟩
    · obtain ⟨e, t, m, ht, hlt, hI⟩ := hstep n s hs hstop
      obtain ⟨es, s', m', hrun, hI', hstop'⟩ := ih m hlt hI
      exact ⟨e :: es, s', m', run_cons_eq_ok.mpr ⟨t, ht, hrun⟩, hI', hstop'⟩

/-- The rule for two machines of which the second does what the first does. -/
theorem exists_run_of_simulates {σ' : Type*} {step' : σ' → ε → Except φ σ'} {R : σ → σ' → Prop}
    (hstep : ∀ s t e s', R s t → step s e = .ok s' → ∃ t', step' t e = .ok t' ∧ R s' t')
    {s s' : σ} {t : σ'} {es : List ε} (hR : R s t) (h : run step s es = .ok s') :
    ∃ t', run step' t es = .ok t' ∧ R s' t' := by
  induction es generalizing s t with
  | nil =>
    cases h
    exact ⟨t, rfl, hR⟩
  | cons e es ih =>
    obtain ⟨u, hu, h⟩ := run_cons_eq_ok.mp h
    obtain ⟨v, hv, hR⟩ := hstep s t e u hR hu
    obtain ⟨t', hrun, hR⟩ := ih hR h
    exact ⟨t', run_cons_eq_ok.mpr ⟨v, hv, hrun⟩, hR⟩

/-- A machine whose steps are seen as those of another is seen as the other in its runs. -/
theorem map_run {σ' ε' : Type*} {step' : σ' → ε' → Except φ σ'} {view : σ → σ'} {event : ε → ε'}
    (hstep : ∀ s e, (step s e).map view = step' (view s) (event e)) (s : σ) (es : List ε) :
    (run step s es).map view = run step' (view s) (es.map event) := by
  induction es generalizing s with
  | nil => rfl
  | cons e es ih =>
    rw [List.map_cons, run, run, ← hstep]
    cases step s e with
    | ok t => exact ih t
    | error fault => rfl

/-- A condition decides at every step whether a property goes on to hold: a run meets it exactly
when the property holds all along. -/
theorem meets_iff_forall_prefix {I : σ → Prop} {C : σ → ε → Prop}
    (hstep : ∀ s e s', I s → step s e = .ok s' → (I s' ↔ C s e))
    {s s' : σ} {es : List ε} (hs : I s) (h : run step s es = .ok s') :
    Meets step C s es ↔ ∀ es₁ t, es₁ <+: es → run step s es₁ = .ok t → I t := by
  induction es generalizing s with
  | nil =>
    apply iff_of_true trivial
    intro es₁ t hpre ht
    rw [List.prefix_nil.mp hpre, run_nil, Except.ok.injEq] at ht
    rwa [← ht]
  | cons e es ih =>
    obtain ⟨u, hu, hrun⟩ := run_cons_eq_ok.mp h
    have hiff := hstep s e u hs hu
    constructor
    · rintro ⟨hC, hrest⟩ es₁ t hpre ht
      cases es₁ with
      | nil =>
        rw [run_nil, Except.ok.injEq] at ht
        rwa [← ht]
      | cons e₁ es₁ =>
        obtain ⟨rfl, htail⟩ := List.cons_prefix_cons.mp hpre
        obtain ⟨u', hu', ht⟩ := run_cons_eq_ok.mp ht
        rw [hu] at hu'
        cases hu'
        have hI := hiff.mpr hC
        exact (ih hI hrun).mp (hrest u hu) es₁ t htail ht
    · intro hall
      have hI : I u := by
        refine hall [e] u (List.cons_prefix_cons.mpr ⟨rfl, List.nil_prefix⟩) ?_
        exact run_cons_eq_ok.mpr ⟨u, hu, rfl⟩
      refine ⟨hiff.mp hI, fun u' hu' => ?_⟩
      rw [hu] at hu'
      cases hu'
      exact (ih hI hrun).mpr fun es₁ t hpre ht => hall (e :: es₁) t
        (List.cons_prefix_cons.mpr ⟨rfl, hpre⟩) (run_cons_eq_ok.mpr ⟨u, hu, ht⟩)

/-- The same for a condition that decides only in the states of an invariant. -/
theorem meets_iff_of_invariant {J I : σ → Prop} {C : σ → ε → Prop}
    (hinv : ∀ s e s', J s → step s e = .ok s' → J s')
    (hstep : ∀ s e s', J s → I s → step s e = .ok s' → (I s' ↔ C s e))
    {s s' : σ} {es : List ε} (hJ : J s) (hI : I s) (h : run step s es = .ok s') :
    Meets step C s es ↔ ∀ es₁ t, es₁ <+: es → run step s es₁ = .ok t → I t := by
  have hboth : ∀ s e s', J s ∧ I s → step s e = .ok s' → (J s' ∧ I s' ↔ C s e) := by
    intro s e s' hs hs'
    rw [← hstep s e s' hs.1 hs.2 hs']
    exact and_iff_right (hinv s e s' hs.1 hs')
  have hmeets := meets_iff_forall_prefix hboth ⟨hJ, hI⟩ h
  refine hmeets.trans <| forall_congr' fun es₁ => forall_congr' fun t => forall_congr' fun _ =>
    forall_congr' fun ht => and_iff_right (run_invariant hinv hJ ht)

/-- A run of two parts. -/
lemma run_append_eq_ok {s s' : σ} {es₁ es₂ : List ε} :
    run step s (es₁ ++ es₂) = .ok s' ↔
      ∃ t, run step s es₁ = .ok t ∧ run step t es₂ = .ok s' := by
  induction es₁ generalizing s with
  | nil => simp
  | cons e es₁ ih =>
    simp only [List.cons_append, run_cons_eq_ok, ih]
    constructor
    · rintro ⟨t, ht, u, hu, h⟩
      exact ⟨u, ⟨t, ht, hu⟩, h⟩
    · rintro ⟨u, ⟨t, ht, hu⟩, h⟩
      exact ⟨t, ht, u, hu, h⟩

end Lib
