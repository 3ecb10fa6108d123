import Mathlib.Data.List.Chain

/-!
# Fallible programs over a durable state

A program works on a state that survives it.  Each of its steps may fail, and between two steps it
may be cut off for good, so its course is recorded: what it returned, and the states after each of
its steps.  Two kinds of facts are stated about programs.  `Runs` says that a program comes to its
end with a result in a state.  A `Triple` says of every course from a precondition, complete or not,
which steps it takes, and of the complete ones what they end with.
-/

namespace Cameo.Library.Durable

variable {σ α β : Type}

/-- How a program went: its result, and the states after its steps, in order. -/
structure Course (σ α : Type) where
  result : Except String α
  passed : List σ

def Program (σ α : Type) := σ → Course σ α

namespace Program

def final (program : Program σ α) (state : σ) : σ := (program state).passed.getLastD state

/-- Every state at which a program can be cut off. -/
def stops (program : Program σ α) (state : σ) : List σ := state :: (program state).passed

instance : Monad (Program σ) where
  pure a := fun _ ↦ ⟨.ok a, []⟩
  bind program next := fun state ↦
    match (program state).result with
    | .error e => ⟨.error e, (program state).passed⟩
    | .ok a =>
      let rest := next a (program.final state)
      ⟨rest.result, (program state).passed ++ rest.passed⟩

def fail (error : String) : Program σ α := fun _ ↦ ⟨.error error, []⟩

def ofExcept : Except String α → Program σ α
  | .ok a => pure a
  | .error e => fail e

/-- Give up unless a condition holds. -/
def require (cond : Prop) [Decidable cond] (error : String) : Program σ Unit :=
  if cond then pure () else fail error

def look (read : σ → α) : Program σ α := fun state ↦ ⟨.ok (read state), []⟩

/-- One step, which may fail before or after it has changed something. -/
def perform (step : σ → Except String α × σ) : Program σ α := fun state ↦
  ⟨(step state).1, [(step state).2]⟩

/-- One step that replaces something and does not fail. -/
def write (change : σ → σ) : Program σ Unit := perform fun state ↦ (.ok (), change state)

/-! ## Complete courses -/

/-- The program comes to its end with a result in a state. -/
def Runs (program : Program σ α) (state : σ) (result : α) (after : σ) : Prop :=
  (program state).result = .ok result ∧ program.final state = after

theorem getLastD_append (early late : List σ) (state : σ) :
    (early ++ late).getLastD state = late.getLastD (early.getLastD state) := by
  induction early generalizing state with
  | nil => rfl
  | cons head tail ih =>
    rw [List.cons_append, List.getLastD_cons, List.getLastD_cons, ih]

variable {program : Program σ α} {next : α → Program σ β} {state after : σ}

theorem bind_of_ok {a : α} (h : program.Runs state a after) :
    (program >>= next) state =
      ⟨(next a after).result, (program state).passed ++ (next a after).passed⟩ := by
  change (match (program state).result with
    | .error e => (⟨.error e, (program state).passed⟩ : Course σ β)
    | .ok a => ⟨(next a (program.final state)).result,
        (program state).passed ++ (next a (program.final state)).passed⟩) = _
  rw [h.1, h.2]

theorem bind_of_error {e : String} (h : (program state).result = .error e) :
    (program >>= next) state = ⟨.error e, (program state).passed⟩ := by
  change (match (program state).result with
    | .error e => (⟨.error e, (program state).passed⟩ : Course σ β)
    | .ok a => ⟨(next a (program.final state)).result,
        (program state).passed ++ (next a (program.final state)).passed⟩) = _
  rw [h]

/-- A program goes on where its first step has led. -/
theorem bind_of_step {a : α} (h : program state = ⟨.ok a, [after]⟩) :
    (program >>= next) state = ⟨(next a after).result, after :: (next a after).passed⟩ := by
  have hruns : program.Runs state a after := by
    rw [Runs, final, h]
    exact ⟨rfl, rfl⟩
  rw [bind_of_ok hruns, h]
  rfl

theorem bind_of_failed {e : String} {passed : List σ} (h : program state = ⟨.error e, passed⟩) :
    (program >>= next) state = ⟨.error e, passed⟩ := by
  have hresult : (program state).result = .error e := by rw [h]
  rw [bind_of_error hresult, h]

/-- A program that has a result comes to its end with it. -/
theorem runs_of_ok {a : α} (h : (program state).result = .ok a) :
    program.Runs state a (program.final state) := ⟨h, rfl⟩

theorem final_bind {a : α} (h : program.Runs state a after) :
    (program >>= next).final state = (next a).final after := by
  rw [final, bind_of_ok h, getLastD_append]
  exact congrArg _ h.2

theorem runs_bind {b : β} {last : σ} :
    (program >>= next).Runs state b last ↔
      ∃ a middle, program.Runs state a middle ∧ (next a).Runs middle b last := by
  constructor
  · intro h
    cases hresult : (program state).result with
    | error e =>
      have herror := h.1
      rw [bind_of_error hresult] at herror
      cases herror
    | ok a =>
      have hruns := runs_of_ok hresult
      have hresult := h.1
      rw [bind_of_ok hruns] at hresult
      exact ⟨a, _, hruns, hresult, (final_bind hruns).symm.trans h.2⟩
  · rintro ⟨a, middle, hfirst, hrest⟩
    refine ⟨?_, (final_bind hfirst).trans hrest.2⟩
    rw [bind_of_ok hfirst]
    exact hrest.1

@[simp]
theorem runs_pure {a b : α} :
    (pure a : Program σ α).Runs state b after ↔ a = b ∧ state = after := by
  simp [Runs, pure, final]

@[simp]
theorem not_runs_fail {e : String} {a : α} : ¬ (fail e : Program σ α).Runs state a after := by
  simp [Runs, fail]

@[simp]
theorem runs_ofExcept {value : Except String α} {a : α} :
    (ofExcept value : Program σ α).Runs state a after ↔ value = .ok a ∧ state = after := by
  cases value with
  | ok b => simp [ofExcept]
  | error e => simp [ofExcept]

@[simp]
theorem runs_require {cond : Prop} [Decidable cond] {e : String} {u : Unit} :
    (require cond e : Program σ Unit).Runs state u after ↔ cond ∧ state = after := by
  by_cases h : cond
  · simp [require, h]
  · simp [require, h]

@[simp]
theorem runs_look {read : σ → α} {a : α} :
    (look read).Runs state a after ↔ read state = a ∧ state = after := by
  simp [Runs, look, final]

@[simp]
theorem runs_perform {step : σ → Except String α × σ} {a : α} :
    (perform step).Runs state a after ↔ step state = (.ok a, after) := by
  simp [Runs, perform, final, Prod.ext_iff]

/-- What follows a program that leaves a state as it is starts in that state. -/
theorem runs_bind_of_iff {returns : α → Prop} {b : β} {last : σ}
    (h : ∀ a after, program.Runs state a after ↔ returns a ∧ state = after) :
    (program >>= next).Runs state b last ↔ ∃ a, returns a ∧ (next a).Runs state b last := by
  rw [runs_bind]
  constructor
  · rintro ⟨a, middle, hfirst, hrest⟩
    obtain ⟨hreturns, rfl⟩ := (h a middle).mp hfirst
    exact ⟨a, hreturns, hrest⟩
  · rintro ⟨a, hreturns, hrest⟩
    exact ⟨a, state, (h a state).mpr ⟨hreturns, rfl⟩, hrest⟩

theorem runs_look_bind {read : σ → α} {b : β} {last : σ} :
    (look read >>= next).Runs state b last ↔ (next (read state)).Runs state b last := by
  rw [runs_bind_of_iff fun _ _ ↦ runs_look]
  exact exists_eq_left'

theorem runs_ofExcept_bind {value : Except String α} {b : β} {last : σ} :
    ((ofExcept value : Program σ α) >>= next).Runs state b last ↔
      ∃ a, value = .ok a ∧ (next a).Runs state b last :=
  runs_bind_of_iff fun _ _ ↦ runs_ofExcept

theorem runs_require_bind {cond : Prop} [Decidable cond] {e : String} {next : Unit → Program σ β}
    {b : β} {last : σ} :
    ((require cond e : Program σ Unit) >>= next).Runs state b last ↔
      cond ∧ (next ()).Runs state b last := by
  rw [runs_bind_of_iff fun _ _ ↦ runs_require]
  exact ⟨fun h ↦ h.elim fun _ h ↦ h, fun h ↦ ⟨(), h⟩⟩

/-! ## Programs without steps -/

/-- The program takes no step, whatever it returns. -/
def Still (program : Program σ α) : Prop := ∀ state, (program state).passed = []

theorem still_pure {a : α} : (pure a : Program σ α).Still := fun _ ↦ rfl

theorem still_fail {e : String} : (fail e : Program σ α).Still := fun _ ↦ rfl

theorem still_look {read : σ → α} : (look read).Still := fun _ ↦ rfl

theorem still_ofExcept {value : Except String α} : (ofExcept value : Program σ α).Still := by
  cases value with
  | ok a => exact still_pure
  | error e => exact still_fail

theorem still_require {cond : Prop} [Decidable cond] {e : String} :
    (require cond e : Program σ Unit).Still := by
  unfold require
  split
  · exact still_pure
  · exact still_fail

theorem still_bind (hfirst : program.Still) (hrest : ∀ a, (next a).Still) :
    (program >>= next).Still := by
  intro state
  cases hresult : (program state).result with
  | error e =>
    rw [bind_of_error hresult]
    exact hfirst state
  | ok a =>
    rw [bind_of_ok (runs_of_ok hresult), hrest, List.append_nil]
    exact hfirst state

/-! ## All courses -/

/-- From every state of a precondition, the program takes steps of a kind only, and what it returns
meets a postcondition. -/
def Triple (pre : σ → Prop) (program : Program σ α) (step : σ → σ → Prop) (post : α → σ → Prop) :
    Prop :=
  ∀ state, pre state → List.IsChain step (program.stops state) ∧
    ∀ a after, program.Runs state a after → post a after

variable {pre : σ → Prop} {step : σ → σ → Prop} {post : α → σ → Prop}

/-- A program that takes no step has nothing but its result. -/
theorem Still.triple (hstill : program.Still)
    (hpost : ∀ state a after, pre state → program.Runs state a after → post a after) :
    Triple pre program step post := by
  intro state hpre
  refine ⟨?_, fun a after hruns ↦ hpost state a after hpre hruns⟩
  rw [stops, hstill]
  exact .singleton state

theorem triple_pure {a : α} (h : ∀ state, pre state → post a state) :
    Triple pre (pure a) step post :=
  still_pure.triple fun state b after hpre hruns ↦ by
    obtain ⟨rfl, rfl⟩ := runs_pure.mp hruns
    exact h state hpre

theorem triple_fail {e : String} : Triple pre (fail e : Program σ α) step post :=
  still_fail.triple fun _ _ _ _ hruns ↦ (not_runs_fail hruns).elim

theorem triple_require {cond : Prop} [Decidable cond] {e : String} {post : Unit → σ → Prop}
    (h : cond → ∀ state, pre state → post () state) : Triple pre (require cond e) step post := by
  unfold require
  split
  · rename_i hcond
    exact triple_pure (h hcond)
  · exact triple_fail

theorem triple_perform {change : σ → Except String α × σ}
    (hstep : ∀ state, pre state → step state (change state).2)
    (hpost : ∀ state a after, pre state → change state = (.ok a, after) → post a after) :
    Triple pre (perform change) step post := by
  intro state hpre
  refine ⟨?_, fun a after hruns ↦ hpost state a after hpre (runs_perform.mp hruns)⟩
  exact List.isChain_cons_cons.mpr ⟨hstep state hpre, .singleton _⟩

theorem isChain_append {early late : List σ} (hearly : List.IsChain step (state :: early))
    (hlate : List.IsChain step (early.getLastD state :: late)) :
    List.IsChain step (state :: (early ++ late)) := by
  induction early generalizing state with
  | nil => exact hlate
  | cons head tail ih =>
    rw [List.getLastD_cons] at hlate
    obtain ⟨hstep, htail⟩ := List.isChain_cons_cons.mp hearly
    exact List.isChain_cons_cons.mpr ⟨hstep, ih htail hlate⟩

/-- The rule of composition. -/
theorem triple_bind (middle : α → σ → Prop) {post : β → σ → Prop}
    (hfirst : Triple pre program step middle) (hrest : ∀ a, Triple (middle a) (next a) step post) :
    Triple pre (program >>= next) step post := by
  intro state hpre
  obtain ⟨hchain, hmiddle⟩ := hfirst state hpre
  cases hresult : (program state).result with
  | error e =>
    refine ⟨?_, fun b after hruns ↦ ?_⟩
    · rw [stops, bind_of_error hresult]
      exact hchain
    · have herror := hruns.1
      rw [bind_of_error hresult] at herror
      cases herror
  | ok a =>
    have hruns := runs_of_ok hresult
    obtain ⟨hlate, hpost⟩ := hrest a _ (hmiddle a _ hruns)
    refine ⟨?_, fun b after hboth ↦ ?_⟩
    · rw [stops, bind_of_ok hruns]
      exact isChain_append hchain hlate
    · obtain ⟨a', middle', hfirst', hrest'⟩ := runs_bind.mp hboth
      obtain rfl : a = a' := Except.ok.inj (hresult.symm.trans hfirst'.1)
      obtain rfl := hfirst'.2
      exact hpost b after hrest'

theorem triple_look_bind {read : σ → α} {post : β → σ → Prop}
    (h : ∀ a, Triple (fun state ↦ pre state ∧ read state = a) (next a) step post) :
    Triple pre (look read >>= next) step post :=
  triple_bind (fun a state ↦ pre state ∧ read state = a)
    (still_look.triple fun state a after hpre hruns ↦ by
      obtain ⟨rfl, rfl⟩ := runs_look.mp hruns
      exact ⟨hpre, rfl⟩) h

theorem triple_require_bind {cond : Prop} [Decidable cond] {e : String} {next : Unit → Program σ β}
    {post : β → σ → Prop} (h : cond → Triple pre (next ()) step post) :
    Triple pre (require cond e >>= next) step post :=
  triple_bind (fun _ state ↦ cond ∧ pre state) (triple_require fun hcond _ hpre ↦ ⟨hcond, hpre⟩)
    fun _ state ⟨hcond, hpre⟩ ↦ h hcond state hpre

theorem triple_ofExcept_bind {value : Except String α} {post : β → σ → Prop}
    (h : ∀ a, value = .ok a → Triple pre (next a) step post) :
    Triple pre (ofExcept value >>= next) step post :=
  triple_bind (fun a state ↦ value = .ok a ∧ pre state)
    (still_ofExcept.triple fun state a after hpre hruns ↦ by
      obtain ⟨hvalue, rfl⟩ := runs_ofExcept.mp hruns
      exact ⟨hvalue, hpre⟩) fun a state ⟨hvalue, hpre⟩ ↦ h a hvalue state hpre

/-- A fact in a precondition can be used for the whole program. -/
theorem triple_of_fact {fact : Prop} (h : fact → Triple pre program step post) :
    Triple (fun state ↦ fact ∧ pre state) program step post :=
  fun state ⟨hfact, hpre⟩ ↦ h hfact state hpre

/-- The postcondition of a complete course. -/
theorem Triple.of_runs (h : Triple pre program step post) :
    ∀ state, pre state → ∀ a after, program.Runs state a after → post a after :=
  fun state hpre ↦ (h state hpre).2

/-- The rule of consequence. -/
theorem Triple.weaken {pre' : σ → Prop} {step' : σ → σ → Prop} {post' : α → σ → Prop}
    (h : Triple pre program step post) (hpre : ∀ state, pre' state → pre state)
    (hstep : ∀ before after, step before after → step' before after)
    (hpost : ∀ a state, post a state → post' a state) : Triple pre' program step' post' := by
  intro state hstate
  obtain ⟨hchain, hresult⟩ := h state (hpre state hstate)
  exact ⟨hchain.imp fun before after ↦ hstep before after,
    fun a after hruns ↦ hpost a after (hresult a after hruns)⟩

theorem Triple.strengthen {pre' : σ → Prop} (h : Triple pre program step post)
    (hpre : ∀ state, pre' state → pre state) : Triple pre' program step post :=
  fun state hstate ↦ h state (hpre state hstate)

/-- What holds at the start and is kept by every step holds wherever the program is cut off. -/
theorem Triple.stops_invariant (h : Triple pre program step post) (inv : σ → Prop)
    (hpre : pre state) (hstart : inv state)
    (hkeeps : ∀ before after, inv before → step before after → inv after) :
    ∀ stop ∈ program.stops state, inv stop := by
  have hchain := (h state hpre).1
  unfold stops at hchain ⊢
  generalize (program state).passed = passed at hchain
  clear h hpre
  induction passed generalizing state with
  | nil =>
    intro stop hstop
    rw [List.mem_singleton.mp hstop]
    exact hstart
  | cons head tail ih =>
    obtain ⟨hstep, htail⟩ := List.isChain_cons_cons.mp hchain
    intro stop hstop
    rcases List.mem_cons.mp hstop with rfl | hstop
    · exact hstart
    · exact ih (hkeeps _ _ hstart hstep) htail stop hstop

/-- An invariant of the steps is carried along. -/
theorem Triple.and_invariant (h : Triple pre program step post) (inv : σ → Prop)
    (hkeeps : ∀ before after, inv before → step before after → inv after) :
    Triple (fun state ↦ pre state ∧ inv state) program step
      fun a state ↦ post a state ∧ inv state := by
  rintro state ⟨hpre, hinv⟩
  refine ⟨(h state hpre).1, fun a after hruns ↦ ⟨(h state hpre).2 a after hruns, ?_⟩⟩
  have hmem : program.final state ∈ program.stops state := List.getLastD_mem_cons
  exact h.stops_invariant inv hpre hinv hkeeps after (hruns.2 ▸ hmem)

/-! ## Programs that succeed -/

/-- From every state of a precondition the program has a result. -/
def Succeeds (pre : σ → Prop) (program : Program σ α) : Prop :=
  ∀ state, pre state → ∃ a, (program state).result = .ok a

theorem Succeeds.strengthen {pre' : σ → Prop} (h : Succeeds pre program)
    (hpre : ∀ state, pre' state → pre state) : Succeeds pre' program :=
  fun state hstate ↦ h state (hpre state hstate)

theorem exists_result_bind {a : α} (hruns : program.Runs state a after)
    (h : ∃ b, (next a after).result = .ok b) : ∃ b, ((program >>= next) state).result = .ok b := by
  obtain ⟨b, hb⟩ := h
  exact ⟨b, by rw [bind_of_ok hruns, hb]⟩

theorem succeeds_bind (middle : α → σ → Prop) (hfirst : Succeeds pre program)
    (hmiddle : ∀ state, pre state → ∀ a after, program.Runs state a after → middle a after)
    (hrest : ∀ a, Succeeds (middle a) (next a)) : Succeeds pre (program >>= next) := by
  intro state hpre
  obtain ⟨a, hresult⟩ := hfirst state hpre
  have hruns := runs_of_ok hresult
  exact exists_result_bind hruns (hrest a _ (hmiddle state hpre a _ hruns))

theorem succeeds_pure (a : α) : Succeeds pre (pure a) := fun _ _ ↦ ⟨a, rfl⟩

theorem succeeds_look_bind {read : σ → α}
    (h : ∀ a, Succeeds (fun state ↦ pre state ∧ read state = a) (next a)) :
    Succeeds pre (look read >>= next) := by
  intro state hpre
  exact exists_result_bind (runs_look.mpr ⟨rfl, rfl⟩) (h (read state) state ⟨hpre, rfl⟩)

theorem succeeds_require_bind {cond : Prop} [Decidable cond] {e : String}
    {next : Unit → Program σ β} (hcond : ∀ state, pre state → cond)
    (h : Succeeds pre (next ())) : Succeeds pre (require cond e >>= next) := by
  intro state hpre
  exact exists_result_bind (runs_require.mpr ⟨hcond state hpre, rfl⟩) (h state hpre)

theorem succeeds_ofExcept_bind {value : Except String α} {a : α} (hvalue : value = .ok a)
    (h : Succeeds pre (next a)) : Succeeds pre (ofExcept value >>= next) := by
  intro state hpre
  exact exists_result_bind (runs_ofExcept.mpr ⟨hvalue, rfl⟩) (h state hpre)

theorem succeeds_write_bind {change : σ → σ} {next : Unit → Program σ β} {middle : σ → Prop}
    (hchange : ∀ state, pre state → middle (change state)) (h : Succeeds middle (next ())) :
    Succeeds pre (write change >>= next) := by
  intro state hpre
  have hruns : (write change).Runs state () (change state) := runs_perform.mpr rfl
  exact exists_result_bind hruns (h (change state) (hchange state hpre))

/-! ## Courses from one state -/

/-- From a state, the program passes through states of a kind only, and what it returns meets a
postcondition. -/
def Passes (state : σ) (program : Program σ α) (kept : σ → Prop) (post : α → σ → Prop) : Prop :=
  Triple (· = state) program (fun _ after ↦ kept after) post

variable {kept : σ → Prop}

theorem passes_bind (middle : α → σ → Prop) {post : β → σ → Prop}
    (hfirst : Passes state program kept middle)
    (hrest : ∀ a after, middle a after → Passes after (next a) kept post) :
    Passes state (program >>= next) kept post :=
  triple_bind middle hfirst fun a after hmiddle ↦ hrest a after hmiddle after rfl

theorem passes_pure {a : α} (h : post a state) : Passes state (pure a) kept post :=
  triple_pure fun _ hstate ↦ hstate ▸ h

theorem passes_fail {e : String} : Passes state (fail e : Program σ α) kept post := triple_fail

theorem passes_require {cond : Prop} [Decidable cond] {e : String} :
    Passes state (require cond e : Program σ Unit) kept fun _ after ↦ cond ∧ state = after :=
  triple_require fun hcond _ hstate ↦ ⟨hcond, hstate.symm⟩

theorem passes_still (hstill : program.Still)
    (h : ∀ a after, program.Runs state a after → post a after) : Passes state program kept post :=
  hstill.triple fun _ a after hstate hruns ↦ h a after (hstate ▸ hruns)

theorem passes_perform {change : σ → Except String α × σ} (hkept : kept (change state).2)
    (hpost : ∀ a after, change state = (.ok a, after) → post a after) :
    Passes state (perform change) kept post :=
  triple_perform (fun _ hstate ↦ hstate ▸ hkept) fun _ a after hstate hstep ↦
    hpost a after (hstate ▸ hstep)

theorem Passes.weaken {post' : α → σ → Prop} (h : Passes state program kept post)
    (hpost : ∀ a after, post a after → post' a after) : Passes state program kept post' :=
  Triple.weaken h (fun _ hstate ↦ hstate) (fun _ _ hkept ↦ hkept) hpost

theorem Passes.stops (h : Passes state program kept post) (hstart : kept state) :
    ∀ stop ∈ program.stops state, kept stop :=
  h.stops_invariant kept rfl hstart fun _ _ _ hkept ↦ hkept

theorem Passes.of_runs {a : α} (h : Passes state program kept post)
    (hruns : program.Runs state a after) : post a after :=
  (h state rfl).2 a after hruns

/-! ## Courses that come to their end -/

/-- From every state of a precondition the program comes to its end as a postcondition says. -/
def Ends (pre : σ → Prop) (program : Program σ α) (post : α → σ → Prop) : Prop :=
  ∀ state, pre state → ∃ a after, program.Runs state a after ∧ post a after

theorem ends_bind (middle : α → σ → Prop) {post : β → σ → Prop} (hfirst : Ends pre program middle)
    (hrest : ∀ a, Ends (middle a) (next a) post) : Ends pre (program >>= next) post := by
  intro state hpre
  obtain ⟨a, between, hruns, hmiddle⟩ := hfirst state hpre
  obtain ⟨b, after, hrest, hpost⟩ := hrest a between hmiddle
  exact ⟨b, after, runs_bind.mpr ⟨a, between, hruns, hrest⟩, hpost⟩

theorem Ends.weaken {pre' : σ → Prop} {post' : α → σ → Prop} (h : Ends pre program post)
    (hpre : ∀ state, pre' state → pre state) (hpost : ∀ a state, post a state → post' a state) :
    Ends pre' program post' := by
  intro state hstate
  obtain ⟨a, after, hruns, hafter⟩ := h state (hpre state hstate)
  exact ⟨a, after, hruns, hpost a after hafter⟩

theorem ends_pure {a : α} (h : ∀ state, pre state → post a state) : Ends pre (pure a) post :=
  fun state hpre ↦ ⟨a, state, runs_pure.mpr ⟨rfl, rfl⟩, h state hpre⟩

theorem ends_require {cond : Prop} [Decidable cond] {e : String} (hcond : cond) :
    Ends pre (require cond e : Program σ Unit) fun _ ↦ pre :=
  fun state hpre ↦ ⟨(), state, runs_require.mpr ⟨hcond, rfl⟩, hpre⟩

theorem ends_of_fact {fact : Prop} (h : fact → Ends pre program post) :
    Ends (fun state ↦ fact ∧ pre state) program post :=
  fun state ⟨hfact, hpre⟩ ↦ h hfact state hpre

theorem ends_perform {change : σ → Except String α × σ}
    (h : ∀ state, pre state → ∃ a, (change state).1 = .ok a ∧ post a (change state).2) :
    Ends pre (perform change) post := by
  intro state hpre
  obtain ⟨a, hresult, hpost⟩ := h state hpre
  exact ⟨a, _, runs_perform.mpr (Prod.ext hresult rfl), hpost⟩

/-- Where a program that ends is cut off, it is one of the states it passes. -/
theorem Runs.mem_stops {a : α} (h : program.Runs state a after) : after ∈ program.stops state := by
  rw [← h.2]
  exact List.getLastD_mem_cons

theorem stops_subset_bind : program.stops state ⊆ (program >>= next).stops state := by
  intro stop hstop
  rcases List.mem_cons.mp hstop with rfl | hstop
  · exact List.mem_cons_self
  · refine List.mem_cons_of_mem state ?_
    cases hresult : (program state).result with
    | error e =>
      rw [bind_of_error hresult]
      exact hstop
    | ok a =>
      rw [bind_of_ok (runs_of_ok hresult)]
      exact List.mem_append_left _ hstop

theorem Runs.stops_subset_bind {a : α} (h : program.Runs state a after) :
    (next a).stops after ⊆ (program >>= next).stops state := by
  intro stop hstop
  rcases List.mem_cons.mp hstop with rfl | hstop
  · exact Program.stops_subset_bind h.mem_stops
  · refine List.mem_cons_of_mem state ?_
    rw [bind_of_ok h]
    exact List.mem_append_right _ hstop

end Program

end Cameo.Library.Durable
