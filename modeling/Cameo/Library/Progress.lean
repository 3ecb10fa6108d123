import Mathlib.Data.List.Chain
import Mathlib.Control.Monad.Basic

/-!
# Readers that go forward

Readers that stand at a place of a text, and fail or go on from there.  What is shown of the parts
of a reader holds of the whole: none goes back, and one that first consumes a number of symbols
within the text has consumed them at the end.  A run that consumes as much in every round has as
many rounds as the text has room for, whatever number of rounds it was to make.
-/

namespace Cameo.Library

variable {ε α β : Type}

/-! ## Steps -/

/-- A reader never goes back. -/
def Forward (reader : StateT ℕ (Except ε) α) : Prop :=
  ∀ pos a pos', reader pos = .ok (a, pos') → pos ≤ pos'

/-- A reader consumes so many symbols before the limit, or fails. -/
def Consumes (width limit : ℕ) (reader : StateT ℕ (Except ε) α) : Prop :=
  ∀ pos a pos', reader pos = .ok (a, pos') → pos + width ≤ limit ∧ pos + width ≤ pos'

variable {reader : StateT ℕ (Except ε) α} {next : α → StateT ℕ (Except ε) β} {width limit pos : ℕ}

/-- What follows a step that succeeds, and a step that fails. -/
theorem bind_apply (reader : StateT ℕ (Except ε) α) (next : α → StateT ℕ (Except ε) β) (pos : ℕ) :
    (reader >>= next) pos =
      match reader pos with
      | .ok (a, pos') => next a pos'
      | .error e => .error e := by
  change (reader pos >>= fun result ↦ next result.1 result.2) = _
  cases reader pos <;> rfl

theorem bind_eq_ok_iff {b : β} {pos'' : ℕ} : (reader >>= next) pos = .ok (b, pos'') ↔
    ∃ a pos', reader pos = .ok (a, pos') ∧ next a pos' = .ok (b, pos'') := by
  rw [bind_apply]
  cases reader pos with
  | error e => exact iff_of_false nofun fun ⟨_, _, hread, _⟩ ↦ nomatch hread
  | ok result =>
    obtain ⟨a, pos'⟩ := result
    constructor
    · exact fun h ↦ ⟨a, pos', rfl, h⟩
    · rintro ⟨_, _, ⟨⟩, h⟩
      exact h

theorem Consumes.forward (h : Consumes width limit reader) : Forward reader :=
  fun pos a pos' hread ↦ (Nat.le_add_right pos width).trans (h pos a pos' hread).2

theorem Forward.pure (a : α) : Forward (Pure.pure a : StateT ℕ (Except ε) α) := by
  rintro pos _ pos' ⟨⟩
  exact le_rfl

theorem Forward.throw (e : ε) : Forward (MonadExcept.throw e : StateT ℕ (Except ε) α) :=
  fun _ _ _ hread ↦ nomatch hread

theorem Consumes.throw (e : ε) :
    Consumes width limit (MonadExcept.throw e : StateT ℕ (Except ε) α) :=
  fun _ _ _ hread ↦ nomatch hread

theorem Forward.bind (h : Forward reader) (hnext : ∀ a, Forward (next a)) :
    Forward (reader >>= next) := by
  intro pos b pos'' hread
  obtain ⟨a, pos', hfirst, hsecond⟩ := bind_eq_ok_iff.mp hread
  exact (h pos a pos' hfirst).trans (hnext a pos' b pos'' hsecond)

/-- What is consumed first is consumed by the whole. -/
theorem Consumes.bind (h : Consumes width limit reader) (hnext : ∀ a, Forward (next a)) :
    Consumes width limit (reader >>= next) := by
  intro pos b pos'' hread
  obtain ⟨a, pos', hfirst, hsecond⟩ := bind_eq_ok_iff.mp hread
  obtain ⟨hlimit, hpos⟩ := h pos a pos' hfirst
  exact ⟨hlimit, hpos.trans (hnext a pos' b pos'' hsecond)⟩

theorem Forward.bind_consumes (h : Forward reader) (hnext : ∀ a, Consumes width limit (next a)) :
    Consumes width limit (reader >>= next) := by
  intro pos b pos'' hread
  obtain ⟨a, pos', hfirst, hsecond⟩ := bind_eq_ok_iff.mp hread
  obtain ⟨hlimit, hpos⟩ := hnext a pos' b pos'' hsecond
  have hle := h pos a pos' hfirst
  omega

/-! ## Failures -/

/-- A reader does not fail in a certain way. -/
def Avoids (e : ε) (reader : StateT ℕ (Except ε) α) : Prop := ∀ pos, reader pos ≠ .error e

theorem Avoids.pure {e : ε} (a : α) : Avoids e (Pure.pure a : StateT ℕ (Except ε) α) :=
  fun _ ↦ nofun

theorem Avoids.throw {e e' : ε} (h : e' ≠ e) :
    Avoids e (MonadExcept.throw e' : StateT ℕ (Except ε) α) := by
  rintro pos ⟨⟩
  exact h rfl

theorem Avoids.bind {e : ε} (h : Avoids e reader) (hnext : ∀ a, Avoids e (next a)) :
    Avoids e (reader >>= next) := by
  intro pos hfail
  rw [bind_apply] at hfail
  cases hread : reader pos with
  | error e' =>
    rw [hread] at hfail
    cases hfail
    exact h pos hread
  | ok result =>
    rw [hread] at hfail
    exact hnext result.1 result.2 hfail

/-! ## Rounds -/

/-- The places at which the rounds of a run begin: each round but the last consumes so many symbols
before the limit. -/
def Strided (width limit : ℕ) : List ℕ → Prop :=
  List.IsChain fun pos pos' ↦ pos + width ≤ limit ∧ pos + width ≤ pos'

/-- A run has as many rounds as there is room for. -/
theorem Strided.length_le {rounds : List ℕ} (h : Strided width limit rounds)
    (hwidth : 0 < width) : rounds.length ≤ limit / width + 1 := by
  have hroom : ∀ {later : List ℕ} {first : ℕ}, Strided width limit (first :: later) →
      (first :: later).length ≤ (limit - first) / width + 1 := by
    intro later
    induction later with
    | nil => exact fun _ ↦ Nat.le_add_left 1 _
    | cons second later ih =>
      intro first h
      obtain ⟨⟨hlimit, hpos⟩, htail⟩ := List.isChain_cons_cons.mp h
      have hless : (limit - second) / width + 1 ≤ (limit - first) / width := by
        rw [← Nat.add_div_right _ hwidth]
        exact Nat.div_le_div_right (by omega)
      rw [List.length_cons]
      exact Nat.succ_le_succ ((ih htail).trans hless)
  cases rounds with
  | nil => exact Nat.zero_le _
  | cons first later =>
    refine (hroom h).trans (Nat.succ_le_succ (Nat.div_le_div_right ?_))
    exact Nat.sub_le limit first

/-- A reader and the places at which its rounds begin, from any place. -/
structure Paced (width limit : ℕ) (reader : StateT ℕ (Except ε) α) (rounds : ℕ → List ℕ) :
    Prop where
  forward : Forward reader
  strided : ∀ pos, Strided width limit (rounds pos)
  begins : ∀ pos, ∀ first ∈ (rounds pos).head?, pos ≤ first
  /-- A run that succeeds ends behind what its last round consumes. -/
  ends : ∀ pos a pos', reader pos = .ok (a, pos') →
    ∀ last ∈ (rounds pos).getLast?, last + width ≤ limit ∧ last + width ≤ pos'

def noRounds (_ : ℕ) : List ℕ := []

def oneRound (pos : ℕ) : List ℕ := [pos]

def roundsThen (reader : StateT ℕ (Except ε) α) (rounds : ℕ → List ℕ) (later : α → ℕ → List ℕ)
    (pos : ℕ) : List ℕ :=
  rounds pos ++
    match reader pos with
    | .ok (a, pos') => later a pos'
    | .error _ => []

theorem Forward.paced (h : Forward reader) : Paced width limit reader noRounds where
  forward := h
  strided _ := .nil
  begins _ := nofun
  ends _ _ _ _ := nofun

theorem Consumes.paced (h : Consumes width limit reader) :
    Paced width limit reader oneRound where
  forward := h.forward
  strided := .singleton
  begins := by
    rintro pos _ ⟨⟩
    exact le_rfl
  ends := by
    rintro pos a pos' hread _ ⟨⟩
    exact h pos a pos' hread

/-- What follows a reader goes on with the rounds from where the reader ends. -/
theorem Paced.bind {rounds : ℕ → List ℕ} {later : α → ℕ → List ℕ}
    (h : Paced width limit reader rounds) (hnext : ∀ a, Paced width limit (next a) (later a)) :
    Paced width limit (reader >>= next) (roundsThen reader rounds later) where
  forward := h.forward.bind fun a ↦ (hnext a).forward
  strided pos := by
    unfold roundsThen
    cases hread : reader pos with
    | error e =>
      rw [List.append_nil]
      exact h.strided pos
    | ok result =>
      obtain ⟨a, pos'⟩ := result
      refine List.isChain_append.mpr ⟨h.strided pos, (hnext a).strided pos', ?_⟩
      intro last hlast first hfirst
      obtain ⟨hlimit, hpos⟩ := h.ends pos a pos' hread last hlast
      exact ⟨hlimit, hpos.trans ((hnext a).begins pos' first hfirst)⟩
  begins pos first hfirst := by
    unfold roundsThen at hfirst
    rw [List.head?_append, Option.mem_def, Option.or_eq_some_iff] at hfirst
    obtain hown | ⟨-, hlater⟩ := hfirst
    · exact h.begins pos first hown
    · cases hread : reader pos with
      | error e =>
        rw [hread] at hlater
        cases hlater
      | ok result =>
        obtain ⟨a, pos'⟩ := result
        rw [hread] at hlater
        exact (h.forward pos a pos' hread).trans ((hnext a).begins pos' first hlater)
  ends pos b pos'' hread last hlast := by
    obtain ⟨a, pos', hfirst, hsecond⟩ := bind_eq_ok_iff.mp hread
    unfold roundsThen at hlast
    rw [hfirst, List.getLast?_append, Option.mem_def, Option.or_eq_some_iff] at hlast
    obtain hlater | ⟨-, hown⟩ := hlast
    · exact (hnext a).ends pos' b pos'' hsecond last hlater
    · obtain ⟨hlimit, hpos⟩ := h.ends pos a pos' hfirst last hown
      exact ⟨hlimit, hpos.trans ((hnext a).forward pos' b pos'' hsecond)⟩

/-- An answer made of what a reader has read takes no further rounds. -/
theorem Paced.bind_pure {rounds : ℕ → List ℕ} (h : Paced width limit reader rounds)
    (answer : α → β) :
    Paced width limit (reader >>= fun a ↦ Pure.pure (answer a)) rounds := by
  have hsame : roundsThen reader rounds (fun _ ↦ noRounds) = rounds := by
    funext pos
    unfold roundsThen
    cases reader pos with
    | error e => exact List.append_nil _
    | ok result => exact List.append_nil _
  rw [← hsame]
  exact h.bind fun a ↦ (Forward.pure (answer a)).paced

end Cameo.Library
