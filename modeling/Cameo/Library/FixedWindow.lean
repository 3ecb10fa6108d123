import Mathlib.Data.Nat.Notation
import Mathlib.Data.List.Basic
import Mathlib.Order.Basic

/-!
# Counting in fixed windows

A counter that admits a number of requests in each window: a window begins with the first request
that comes after the one before it has ended, and it lasts a fixed time.  What the counter does
depends only on the part of its state that has not run out, so a state that has may be dropped at
any time.
-/

namespace Cameo.Library.FixedWindow

/-- A window that has been opened: when it ends, and how many requests it has admitted. -/
structure Counter where
  resetAt : ℕ
  count : ℕ

/-- The window, unless it has ended. -/
def live (now : ℕ) (counter : Option Counter) : Option Counter :=
  counter.filter fun counter ↦ now < counter.resetAt

/-- One request: whether it is admitted, and the window afterwards. -/
def request (limit duration : ℕ) (counter : Option Counter) (now : ℕ) : Bool × Option Counter :=
  let current := (live now counter).getD ⟨now + duration, 0⟩
  if limit ≤ current.count then (false, some current)
  else (true, some { current with count := current.count + 1 })

def decisions (limit duration : ℕ) : Option Counter → List ℕ → List Bool
  | _, [] => []
  | counter, now :: later =>
    let answer := request limit duration counter now
    answer.1 :: decisions limit duration answer.2 later

def admitted (limit duration : ℕ) : Option Counter → List ℕ → List ℕ
  | _, [] => []
  | counter, now :: later =>
    let answer := request limit duration counter now
    if answer.1 then now :: admitted limit duration answer.2 later
    else admitted limit duration answer.2 later

/-- Times in increasing order, divided into windows: each begins with the first time that is not in
the one before it. -/
def windows (duration : ℕ) : List ℕ → List (List ℕ)
  | [] => []
  | start :: later =>
    (start :: later.takeWhile fun time ↦ time < start + duration) ::
      windows duration (later.dropWhile fun time ↦ time < start + duration)
termination_by times => times.length
decreasing_by exact Nat.lt_succ_of_le (List.dropWhile_sublist _).length_le

/-! ## The part of the state that counts -/

section

variable {limit now : ℕ}

theorem live_some_of_lt {current : Counter} (h : now < current.resetAt) :
    live now (some current) = some current := by
  simp [live, Option.filter, h]

theorem live_some_of_not_lt {current : Counter} (h : ¬ now < current.resetAt) :
    live now (some current) = none := by
  simp [live, Option.filter, h]

theorem live_live {early late : ℕ} (h : early ≤ late) (counter : Option Counter) :
    live late (live early counter) = live late counter := by
  cases counter with
  | none => rfl
  | some current =>
    by_cases hlive : early < current.resetAt
    · rw [live_some_of_lt hlive]
    · have hover : ¬ late < current.resetAt := fun hlt ↦ hlive (Nat.lt_of_le_of_lt h hlt)
      rw [live_some_of_not_lt hlive, live_some_of_not_lt hover]
      rfl

/-- States that agree now agree later. -/
theorem live_congr {early late : ℕ} (h : early ≤ late) {left right : Option Counter}
    (hlive : live early left = live early right) : live late left = live late right := by
  rw [← live_live h left, hlive, live_live h]

theorem request_congr {duration : ℕ} {left right : Option Counter}
    (h : live now left = live now right) :
    request limit duration left now = request limit duration right now := by
  unfold request
  rw [h]

/-! ## The answer to a request -/

/-- A request that finds no window opens one. -/
theorem request_of_ended (duration : ℕ) (hlimit : 0 < limit) {counter : Option Counter}
    (h : live now counter = none) :
    request limit duration counter now = (true, some ⟨now + duration, 1⟩) := by
  unfold request
  rw [h]
  exact if_neg (Nat.not_le.mpr hlimit)

theorem request_of_full (duration : ℕ) {current : Counter} (h : now < current.resetAt)
    (hfull : limit ≤ current.count) :
    request limit duration (some current) now = (false, some current) := by
  unfold request
  rw [live_some_of_lt h]
  exact if_pos hfull

theorem request_of_room (duration : ℕ) {current : Counter} (h : now < current.resetAt)
    (hroom : ¬ limit ≤ current.count) :
    request limit duration (some current) now =
      (true, some ⟨current.resetAt, current.count + 1⟩) := by
  unfold request
  rw [live_some_of_lt h]
  exact if_neg hroom

end

/-! ## What a window admits -/

theorem admitted_cons (limit duration now : ℕ) (counter : Option Counter) (later : List ℕ) :
    admitted limit duration counter (now :: later) =
      if (request limit duration counter now).1 then
        now :: admitted limit duration (request limit duration counter now).2 later
      else admitted limit duration (request limit duration counter now).2 later := rfl

theorem windows_cons (duration start : ℕ) (later : List ℕ) :
    windows duration (start :: later) =
      (start :: later.takeWhile fun time ↦ time < start + duration) ::
        windows duration (later.dropWhile fun time ↦ time < start + duration) := by
  rw [windows]

/-- What is left of an open window has no more times than it has left to admit, and no later window
more than the limit. -/
def Bounded (limit duration : ℕ) (counter : Option Counter) (times : List ℕ) : Prop :=
  match counter with
  | none => ∀ window ∈ windows duration times, window.length ≤ limit
  | some current =>
    (times.takeWhile fun time ↦ time < current.resetAt).length + current.count ≤ limit ∧
      ∀ window ∈ windows duration (times.dropWhile fun time ↦ time < current.resetAt),
        window.length ≤ limit

/-- A request that opens a window begins the next group of times. -/
theorem windows_of_bounded {limit duration now : ℕ} {later : List ℕ}
    (h : Bounded limit duration (some ⟨now + duration, 1⟩) later) :
    ∀ window ∈ windows duration (now :: later), window.length ≤ limit := by
  intro window hwindow
  rw [windows_cons] at hwindow
  rcases List.mem_cons.mp hwindow with rfl | hrest
  · exact h.1
  · exact h.2 window hrest

theorem bounded_nil {limit duration : ℕ} {counter : Option Counter}
    (hcount : ∀ current ∈ counter, current.count ≤ limit) : Bounded limit duration counter [] := by
  have hwindows : ∀ window ∈ windows duration [], window.length ≤ limit := by
    intro window hwindow
    rw [windows] at hwindow
    cases hwindow
  cases counter with
  | none => exact hwindows
  | some current => exact ⟨by simpa using hcount current rfl, hwindows⟩

/-- A request that opens a window leaves nothing of one that has ended. -/
theorem Bounded.opens {limit duration now : ℕ} {later : List ℕ} {counter : Option Counter}
    (hcount : ∀ current ∈ counter, current.count ≤ limit) (hended : live now counter = none)
    (h : Bounded limit duration (some ⟨now + duration, 1⟩) later) :
    Bounded limit duration counter (now :: later) := by
  cases counter with
  | none => exact windows_of_bounded h
  | some current =>
    have hover : ¬ now < current.resetAt := by
      intro hlt
      rw [live_some_of_lt hlt] at hended
      cases hended
    constructor
    · rw [List.takeWhile_cons_of_neg (by simpa using hover)]
      simpa using hcount current rfl
    · rw [List.dropWhile_cons_of_neg (by simpa using hover)]
      exact windows_of_bounded h

/-- A request in an open window takes one of what it has left to admit. -/
theorem Bounded.counts {limit duration now : ℕ} {later : List ℕ} {current : Counter}
    (hlive : now < current.resetAt)
    (h : Bounded limit duration (some ⟨current.resetAt, current.count + 1⟩) later) :
    Bounded limit duration (some current) (now :: later) := by
  constructor
  · rw [List.takeWhile_cons_of_pos (by simpa using hlive), List.length_cons]
    have hsum := h.1
    dsimp only at hsum ⊢
    omega
  · rw [List.dropWhile_cons_of_pos (by simpa using hlive)]
    exact h.2

theorem bounded_admitted {limit duration : ℕ} (hlimit : 0 < limit) (times : List ℕ)
    {counter : Option Counter} (hcount : ∀ current ∈ counter, current.count ≤ limit) :
    Bounded limit duration counter (admitted limit duration counter times) := by
  induction times generalizing counter with
  | nil => exact bounded_nil hcount
  | cons now later ih =>
    rw [admitted_cons]
    cases hcounter : live now counter with
    | none =>
      rw [request_of_ended duration hlimit hcounter, if_pos rfl]
      apply Bounded.opens hcount hcounter
      apply ih
      rintro current ⟨⟩
      exact hlimit
    | some opened =>
      obtain ⟨rfl, hlive⟩ := Option.filter_eq_some_iff.mp hcounter
      have hlt := of_decide_eq_true hlive
      by_cases hfull : limit ≤ opened.count
      · rw [request_of_full duration hlt hfull, if_neg Bool.false_ne_true]
        exact ih hcount
      · rw [request_of_room duration hlt hfull, if_pos rfl]
        apply Bounded.counts hlt
        apply ih
        rintro next ⟨⟩
        exact Nat.lt_of_not_le hfull

theorem admitted_zero (duration : ℕ) (counter : Option Counter) (times : List ℕ) :
    admitted 0 duration counter times = [] := by
  induction times generalizing counter with
  | nil => rfl
  | cons now later ih =>
    rw [admitted_cons]
    exact ih _

/-- No window has more admitted requests than the limit. -/
theorem length_le_of_mem_windows (limit duration : ℕ) (times : List ℕ) :
    ∀ window ∈ windows duration (admitted limit duration none times), window.length ≤ limit := by
  rcases Nat.eq_zero_or_pos limit with rfl | hlimit
  · intro window hwindow
    rw [admitted_zero, windows] at hwindow
    cases hwindow
  · have hbounded : Bounded limit duration none (admitted limit duration none times) := by
      apply bounded_admitted hlimit
      rintro current ⟨⟩
    exact hbounded

end Cameo.Library.FixedWindow
