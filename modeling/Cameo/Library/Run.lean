import Mathlib.Data.List.Infix

/-!
# Runs of a labelled system

A deterministic step function over arbitrary states and labels, its runs over label lists, and the
invariant rules: an invariant kept by every step that meets a condition holds in every state of
every run whose steps all meet it.
-/

namespace Cameo.Library.Run

variable {σ ℓ : Type} (step : σ → ℓ → σ)

/-- The state after a list of labels. -/
def run (start : σ) (labels : List ℓ) : σ := labels.foldl step start

@[simp]
theorem run_nil (start : σ) : run step start [] = start := rfl

@[simp]
theorem run_cons (start : σ) (label : ℓ) (labels : List ℓ) :
    run step start (label :: labels) = run step (step start label) labels := rfl

theorem run_append (start : σ) (early late : List ℓ) :
    run step start (early ++ late) = run step (run step start early) late :=
  List.foldl_append

/-- Every step of the run meets a condition on the state before it and its label. -/
def Meets (cond : σ → ℓ → Prop) : σ → List ℓ → Prop
  | _, [] => True
  | start, label :: labels => cond start label ∧ Meets cond (step start label) labels

instance decidableMeets (cond : σ → ℓ → Prop) [∀ state label, Decidable (cond state label)] :
    ∀ start labels, Decidable (Meets step cond start labels)
  | _, [] => .isTrue trivial
  | start, label :: labels =>
    have := decidableMeets cond (step start label) labels
    inferInstanceAs (Decidable (cond start label ∧ Meets step cond (step start label) labels))

variable {step}

theorem Meets.of_forall {cond : σ → ℓ → Prop} (h : ∀ state label, cond state label) (start : σ)
    (labels : List ℓ) : Meets step cond start labels := by
  induction labels generalizing start with
  | nil => trivial
  | cons label labels ih => exact ⟨h start label, ih _⟩

/-- A condition on single steps may be replaced by an equivalent one. -/
theorem meets_congr {cond cond' : σ → ℓ → Prop}
    (h : ∀ state label, cond state label ↔ cond' state label) (start : σ) (labels : List ℓ) :
    Meets step cond start labels ↔ Meets step cond' start labels := by
  induction labels generalizing start with
  | nil => exact Iff.rfl
  | cons label labels ih => exact and_congr (h start label) (ih _)

theorem meets_append {cond : σ → ℓ → Prop} {start : σ} {early late : List ℓ} :
    Meets step cond start (early ++ late) ↔
      Meets step cond start early ∧ Meets step cond (run step start early) late := by
  induction early generalizing start with
  | nil => simp [Meets]
  | cons label early ih => exact (and_congr_right fun _ ↦ ih).trans and_assoc.symm

/-- A run that meets a condition meets it up to every earlier point. -/
theorem Meets.of_append {cond : σ → ℓ → Prop} {start : σ} {early late : List ℓ}
    (h : Meets step cond start (early ++ late)) : Meets step cond start early :=
  (meets_append.mp h).1

/-- The invariant rule for conditioned runs. -/
theorem invariant_run {cond : σ → ℓ → Prop} (inv : σ → Prop)
    (hstep : ∀ state label, inv state → cond state label → inv (step state label))
    {start : σ} {labels : List ℓ} (hstart : inv start) (hmeets : Meets step cond start labels) :
    inv (run step start labels) := by
  induction labels generalizing start with
  | nil => exact hstart
  | cons label labels ih => exact ih (hstep start label hstart hmeets.1) hmeets.2

/-- What an invariant says of single steps holds of every step of a conditioned run. -/
theorem Meets.of_invariant {cond goal : σ → ℓ → Prop} (inv : σ → Prop)
    (hstep : ∀ state label, inv state → cond state label → inv (step state label))
    (hgoal : ∀ state label, inv state → cond state label → goal state label)
    {start : σ} {labels : List ℓ} (hstart : inv start) (hmeets : Meets step cond start labels) :
    Meets step goal start labels := by
  induction labels generalizing start with
  | nil => trivial
  | cons label labels ih =>
    exact ⟨hgoal start label hstart hmeets.1, ih (hstep start label hstart hmeets.1) hmeets.2⟩

/-- The invariant rule for arbitrary runs. -/
theorem invariant_run_of_step (inv : σ → Prop)
    (hstep : ∀ state label, inv state → inv (step state label))
    {start : σ} (labels : List ℓ) (hstart : inv start) : inv (run step start labels) := by
  induction labels generalizing start with
  | nil => exact hstart
  | cons label labels ih => exact ih (hstep start label hstart)

/-- The invariant rule for runs whose labels all meet a condition. -/
theorem invariant_run_of_forall {cond : ℓ → Prop} (inv : σ → Prop)
    (hstep : ∀ state label, inv state → cond label → inv (step state label))
    {start : σ} {labels : List ℓ} (hstart : inv start) (hlabels : ∀ label ∈ labels, cond label) :
    inv (run step start labels) := by
  induction labels generalizing start with
  | nil => exact hstart
  | cons label labels ih =>
    obtain ⟨hlabel, hlabels⟩ := List.forall_mem_cons.mp hlabels
    exact ih (hstep start label hstart hlabel) hlabels

/-- What holds after a run and did not hold before it has a first cause in the run. -/
theorem exists_origin {goal : σ → Prop} {cause : σ → ℓ → Prop} (inv : σ → Prop)
    (hinv : ∀ state label, inv state → inv (step state label))
    (hstep : ∀ state label, inv state → goal (step state label) →
      goal state ∨ cause state label)
    {start : σ} {labels : List ℓ} (hstart : inv start) (hnot : ¬ goal start)
    (h : goal (run step start labels)) :
    ∃ early label late, labels = early ++ label :: late ∧
      cause (run step start early) label := by
  induction labels generalizing start with
  | nil => exact absurd h hnot
  | cons label labels ih =>
    by_cases hgoal : goal (step start label)
    · have hcause := (hstep start label hstart hgoal).resolve_left hnot
      exact ⟨[], label, labels, rfl, hcause⟩
    · obtain ⟨early, cause, late, rfl, hcause⟩ := ih (hinv start label hstart) hgoal h
      exact ⟨label :: early, cause, late, rfl, hcause⟩

/-- An invariant of conditioned runs holds in every state they reach. -/
theorem invariant_reached {cond : σ → ℓ → Prop} (inv : σ → Prop)
    (hstep : ∀ state label, inv state → cond state label → inv (step state label))
    {start : σ} {labels : List ℓ} (hstart : inv start) (hmeets : Meets step cond start labels)
    {early : List ℓ} (hearly : early <+: labels) : inv (run step start early) := by
  obtain ⟨late, rfl⟩ := hearly
  exact invariant_run inv hstep hstart hmeets.of_append

end Cameo.Library.Run
