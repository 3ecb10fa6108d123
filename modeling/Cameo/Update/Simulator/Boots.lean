import Cameo.Update.Simulator.Runs

/-!
# What a run of recoveries settles on

The stages of a trial come one after another and none of them returns: before the trial, during it,
after its last try, and after its release was found healthy.  Every answer of `recover` belongs to
the stage that it leaves.
-/

namespace Cameo.Update.Simulator

open Json Library Library.Durable Library.Durable.Program

variable {digest : List UInt8 → HexDigest} {tx : Transaction}

/-! ## Stages of a trial -/

/-- The stage of a trial, by the phase and the tries that are left. -/
def Phase.era : Phase → ℕ → ℕ
  | bootTrial, left => if left = 0 then 2 else 1
  | healthCommitted, _ => 3
  | _, _ => 0

def Journal.era (journal : Journal) : ℕ := journal.phase.era journal.trialTriesLeft

def Disk.era (disk : Disk) : ℕ := disk.journal.elim 0 Journal.era

/-- The stage of a trial in which it is answered so. -/
def Action.era : Action → ℕ
  | .discardInactive => 0
  | .retryTrial => 1
  | .automaticFallback => 2
  | .blessTrial | .committed => 3

def Action.slot (inactive : Slot) : Action → Slot
  | .discardInactive | .automaticFallback => inactive.other
  | .retryTrial | .blessTrial | .committed => inactive

/-- The tries of the inactive slot that may still be answered. -/
def Disk.triesLeft (disk : Disk) : ℕ :=
  disk.journal.elim (trialAttempts - 1) fun journal ↦ journal.trialTriesLeft - 1

theorem era_of_index_lt {phase : Phase} (h : phase.index < Phase.bootTrial.index) (left : ℕ) :
    phase.era left = 0 := by
  cases phase with
  | bootTrial | healthCommitted => exact absurd h (by decide)
  | verified | preflighted | drained | stateSaved | inactiveWritten => rfl

theorem era_le_three (phase : Phase) (left : ℕ) : phase.era left ≤ 3 := by
  cases phase with
  | bootTrial =>
    change (if left = 0 then 2 else 1) ≤ 3
    split
    · decide
    · decide
  | healthCommitted => exact le_rfl
  | verified | preflighted | drained | stateSaved | inactiveWritten => exact Nat.zero_le _

/-- Later phases belong to later stages. -/
theorem era_mono {phase later : Phase} (h : phase.index ≤ later.index) (left : ℕ) :
    phase.era left ≤ later.era left := by
  by_cases hbefore : phase.index < Phase.bootTrial.index
  · rw [era_of_index_lt hbefore]
    exact Nat.zero_le _
  · cases later with
    | healthCommitted => exact era_le_three phase left
    | bootTrial =>
      rw [phase_eq_bootTrial hbefore]
      rintro rfl
      exact absurd h (by decide)
    | verified | preflighted | drained | stateSaved | inactiveWritten =>
      exact absurd (h.trans_lt (by decide)) hbefore

/-- Fewer tries belong to a later stage. -/
theorem era_anti (phase : Phase) {left fewer : ℕ} (h : fewer ≤ left) :
    phase.era left ≤ phase.era fewer := by
  cases phase with
  | bootTrial =>
    change (if left = 0 then 2 else 1) ≤ if fewer = 0 then 2 else 1
    split
    · rename_i hnone
      rw [if_pos (by omega)]
    · split
      · decide
      · decide
  | verified | preflighted | drained | stateSaved | inactiveWritten | healthCommitted =>
    exact le_rfl

theorem era_change {op : Operation} {before after : Disk}
    (hchange : Change digest tx op before after) : before.era ≤ after.era := by
  cases hchange with
  | opened | shaped => exact le_rfl
  | begun _ active inactive hnone =>
    rw [Disk.era, hnone]
    exact Nat.zero_le _
  | advanced _ journal phase hjournal hphase =>
    have hle : journal.phase.index ≤ phase.index := by omega
    rw [Disk.era, hjournal]
    exact era_mono hle _
  | staged _ journal files path hjournal hphase hcomplete =>
    have hle : journal.phase.index ≤ Phase.inactiveWritten.index := by
      rw [hphase]
      decide
    rw [Disk.era, hjournal]
    exact era_mono hle _
  | tried _ journal persistent hash booted listing hjournal hphase hleft =>
    rw [Disk.era, hjournal]
    exact era_anti _ (Nat.sub_le _ _)
  | blessed _ journal persistent hash listing hjournal hphase hleft =>
    rw [Disk.era, hjournal]
    exact era_le_three _ _

theorem triesLeft_change {op : Operation} {before after : Disk}
    (hchange : Change digest tx op before after) : after.triesLeft ≤ before.triesLeft := by
  cases hchange with
  | opened | shaped => exact le_rfl
  | begun _ active inactive hnone =>
    rw [Disk.triesLeft, Disk.triesLeft, hnone]
    exact le_rfl
  | advanced _ journal phase hjournal hphase =>
    rw [Disk.triesLeft, Disk.triesLeft, hjournal]
    exact le_rfl
  | staged _ journal files path hjournal hphase hcomplete =>
    rw [Disk.triesLeft, Disk.triesLeft, hjournal]
    exact le_rfl
  | tried _ journal persistent hash booted listing hjournal hphase hleft =>
    rw [Disk.triesLeft, Disk.triesLeft, hjournal]
    exact Nat.sub_le_sub_right (Nat.sub_le _ _) _
  | blessed _ journal persistent hash listing hjournal hphase hleft =>
    rw [Disk.triesLeft, Disk.triesLeft, hjournal]
    exact Nat.sub_le_sub_right (Nat.sub_le _ _) _

theorem era_step (disk : Disk) (event : Event) : disk.era ≤ (step digest tx disk event).era :=
  keeps_step (fun after ↦ disk.era ≤ after.era)
    (fun _ _ hchange hbefore ↦ hbefore.trans (era_change hchange)) le_rfl

theorem triesLeft_step (disk : Disk) (event : Event) :
    (step digest tx disk event).triesLeft ≤ disk.triesLeft :=
  keeps_step (fun after ↦ after.triesLeft ≤ disk.triesLeft)
    (fun _ _ hchange hbefore ↦ (triesLeft_change hchange).trans hbefore) le_rfl

/-! ## Answers -/

/-- An answer belongs to the stage that it leaves. -/
theorem Decides.era_eq {before after : Disk} {recovery : Recovery}
    (h : Decides digest tx before recovery after) : recovery.action.era = after.era := by
  cases h with
  | discarded journal _ hjournal hkept hphase hcleared =>
    rw [Disk.era, hkept]
    exact (era_of_index_lt hphase _).symm
  | committed journal hjournal hphase =>
    rw [Disk.era, hjournal, Option.elim_some, Journal.era, hphase]
    rfl
  | exhausted journal hjournal hphase hleft =>
    rw [Disk.era, hjournal, Option.elim_some, Journal.era, hphase, hleft]
    rfl
  | blessed journal hjournal hphase hleft => rfl
  | last journal hjournal hphase hleft =>
    change 2 = journal.phase.era (journal.trialTriesLeft - 1)
    rw [hphase, hleft]
    rfl
  | retried journal hjournal hphase hleft =>
    change 1 = journal.phase.era (journal.trialTriesLeft - 1)
    rw [hphase]
    exact (if_neg (by omega)).symm

/-- Which slot is offered depends on the answer only. -/
theorem Decides.bootSlot_eq {before after : Disk} {recovery : Recovery}
    (h : Decides digest tx before recovery after) (hproper : Proper digest tx before) :
    ∃ inactive, inactiveSlot tx.layout = .ok inactive ∧
      recovery.bootSlot = recovery.action.slot inactive := by
  cases h with
  | discarded journal _ hjournal | exhausted journal hjournal | last journal hjournal =>
    exact ⟨_, (hproper journal hjournal).inactive, (hproper journal hjournal).prior⟩
  | committed journal hjournal | blessed journal hjournal | retried journal hjournal =>
    exact ⟨_, (hproper journal hjournal).inactive, rfl⟩

theorem era_of_answer? {disk : Disk} {event : Event} {recovery : Recovery}
    (h : answer? digest tx disk event = some recovery) :
    recovery.action.era = (step digest tx disk event).era := (decides_of_answer? h).era_eq

theorem era_le_of_mem_answers {disk : Disk} {events : List Event} {recovery : Recovery}
    (h : recovery ∈ answers digest tx disk events) : disk.era ≤ recovery.action.era := by
  induction events generalizing disk with
  | nil => cases h
  | cons event events ih =>
    have hstep := @era_step digest tx disk event
    rcases List.mem_append.mp h with hfirst | hrest
    · rw [era_of_answer? (Option.mem_toList.mp hfirst)]
      exact hstep
    · exact hstep.trans (ih hrest)

/-! ## After the last try -/

theorem eq_bootTrial_of_era {phase : Phase} {left : ℕ} (h : phase.era left = 2) :
    phase = .bootTrial ∧ left = 0 := by
  cases phase with
  | bootTrial =>
    change (if left = 0 then 2 else 1) = 2 at h
    refine ⟨rfl, ?_⟩
    by_contra hleft
    rw [if_neg hleft] at h
    cases h
  | verified | preflighted | drained | stateSaved | inactiveWritten | healthCommitted => cases h

theorem eq_automaticFallback_of_era {action : Action} (h : action.era = 2) :
    action = .automaticFallback := by
  cases action with
  | automaticFallback => rfl
  | discardInactive | retryTrial | blessTrial | committed => cases h

/-- A trial whose tries are used up can only be committed by hand. -/
theorem fallback_change {op : Operation} (hop : op ≠ .advance "health_committed")
    {before after : Disk} (hchange : Change digest tx op before after) (h : before.era = 2) :
    after.era = 2 := by
  cases hchange with
  | opened | shaped => exact h
  | begun _ active inactive hnone =>
    rw [Disk.era, hnone] at h
    cases h
  | advanced _ journal phase hjournal hphase =>
    rw [Disk.era, hjournal] at h
    rw [(eq_bootTrial_of_era h).1] at hphase
    cases phase with
    | healthCommitted => exact absurd rfl hop
    | verified | preflighted | drained | stateSaved | inactiveWritten | bootTrial => cases hphase
  | staged _ journal files path hjournal hphase hcomplete =>
    rw [Disk.era, hjournal] at h
    cases hphase.symm.trans (eq_bootTrial_of_era h).1
  | tried _ journal persistent hash booted listing hjournal hphase hleft =>
    rw [Disk.era, hjournal] at h
    exact absurd (eq_bootTrial_of_era h).2 hleft.ne'
  | blessed _ journal persistent hash listing hjournal hphase hleft =>
    rw [Disk.era, hjournal] at h
    exact absurd (eq_bootTrial_of_era h).2 hleft.ne'

theorem fallback_of_mem_answers {disk : Disk} {events : List Event} {recovery : Recovery}
    (hops : ∀ event ∈ events, event.op ≠ .advance "health_committed") (hera : disk.era = 2)
    (h : recovery ∈ answers digest tx disk events) : recovery.action = .automaticFallback := by
  induction events generalizing disk with
  | nil => cases h
  | cons event events ih =>
    obtain ⟨hop, hops⟩ := List.forall_mem_cons.mp hops
    have hstep : (step digest tx disk event).era = 2 :=
      keeps_step (fun after ↦ after.era = 2) (fun _ _ ↦ fallback_change hop) hera
    rcases List.mem_append.mp h with hfirst | hrest
    · have hanswer := era_of_answer? (Option.mem_toList.mp hfirst)
      exact eq_automaticFallback_of_era (hanswer.trans hstep)
    · exact ih hops hstep hrest

/-! ## The answers of a run -/

/-- How a later answer follows an earlier one, by the events between them: the stages go on, and the
prior slot is given up after the last try only if the release is committed by hand. -/
def Follows (between : List Event) (earlier later : Recovery) : Prop :=
  earlier.action.era ≤ later.action.era ∧
    (earlier.action = .automaticFallback → later.action ≠ .automaticFallback →
      ∃ event ∈ between, event.op = .advance "health_committed")

theorem mem_answers {disk : Disk} {events : List Event} {event : Event} {recovery : Recovery}
    (h : answer? digest tx (Run.run (step digest tx) disk events) event = some recovery) :
    recovery ∈ answers digest tx disk (events ++ [event]) := by
  induction events generalizing disk with
  | nil => simpa [answers] using h
  | cons first events ih => exact List.mem_append_right _ (ih h)

/-- Only `recover` answers. -/
theorem answer?_advance {disk : Disk} {event : Event} {phase : String}
    (h : event.op = .advance phase) : answer? digest tx disk event = none := by
  unfold answer?
  rw [h]
  split
  · rename_i answer hcut hresult
    obtain ⟨_, _, -, hpure⟩ := runs_bind.mp (runs_of_ok hresult)
    exact (runs_pure.mp hpure).1.symm
  · rfl

theorem follows_of_answers {disk : Disk} {first second : Event} {between : List Event}
    {earlier later : Recovery} (hearlier : answer? digest tx disk first = some earlier)
    (hlater : answer? digest tx (Run.run (step digest tx) disk (first :: between)) second =
      some later) : Follows between earlier later := by
  have hmem : later ∈ answers digest tx (step digest tx disk first) (between ++ [second]) :=
    mem_answers hlater
  have hera := era_of_answer? hearlier
  refine ⟨hera ▸ era_le_of_mem_answers hmem, fun hfallback hnot ↦ ?_⟩
  by_contra hnone
  rw [hfallback] at hera
  have hops : ∀ cause ∈ between ++ [second], cause.op ≠ .advance "health_committed" := by
    intro cause hcause hop
    rcases List.mem_append.mp hcause with hbetween | hlast
    · exact hnone ⟨cause, hbetween, hop⟩
    · obtain rfl := List.mem_singleton.mp hlast
      cases (answer?_advance hop).symm.trans hlater
  exact hnot (fallback_of_mem_answers hops hera.symm hmem)

theorem Decides.triesLeft_lt {before after : Disk} {recovery : Recovery}
    (h : Decides digest tx before recovery after) (haction : recovery.action = .retryTrial) :
    after.triesLeft < before.triesLeft := by
  cases h with
  | discarded | committed | exhausted | blessed | last => cases haction
  | retried journal hjournal hphase hleft =>
    rw [Disk.triesLeft, Disk.triesLeft, hjournal]
    change journal.trialTriesLeft - 1 - 1 < journal.trialTriesLeft - 1
    omega

theorem countP_answers (disk : Disk) (events : List Event) :
    (answers digest tx disk events).countP (·.action = .retryTrial) ≤ disk.triesLeft := by
  induction events generalizing disk with
  | nil => exact Nat.zero_le _
  | cons event events ih =>
    have hrest := ih (step digest tx disk event)
    have hstep := @triesLeft_step digest tx disk event
    rw [answers, List.countP_append]
    cases hanswer : answer? digest tx disk event with
    | none =>
      rw [Option.toList_none, List.countP_nil]
      omega
    | some recovery =>
      rw [Option.toList_some, List.countP_singleton]
      split
      · rename_i hretry
        have hlt := (decides_of_answer? hanswer).triesLeft_lt (of_decide_eq_true hretry)
        omega
      · omega

theorem slot_of_mem_answers {disk : Disk} (hproper : Proper digest tx disk) {events : List Event}
    {recovery : Recovery} (h : recovery ∈ answers digest tx disk events) :
    ∃ inactive, inactiveSlot tx.layout = .ok inactive ∧
      recovery.bootSlot = recovery.action.slot inactive := by
  induction events generalizing disk with
  | nil => cases h
  | cons event events ih =>
    rcases List.mem_append.mp h with hfirst | hrest
    · exact (decides_of_answer? (Option.mem_toList.mp hfirst)).bootSlot_eq hproper
    · exact ih (proper_step hproper event) hrest

/-- Whatever is called in whatever order, and wherever the power is lost, the recoveries of a
transaction settle.  They offer the prior slot before the trial, then the inactive slot for fewer
tries than there are attempts, and then the one or the other for good. -/
theorem recoveries_settle {disk : Disk} (hnone : disk.journal = none) (events : List Event) :
    (∀ early first between second late, events = early ++ first :: (between ++ second :: late) →
      ∀ earlier later, answer? digest tx (Run.run (step digest tx) disk early) first =
          some earlier →
        answer? digest tx (Run.run (step digest tx) disk (early ++ first :: between)) second =
          some later → Follows between earlier later) ∧
      (answers digest tx disk events).countP (·.action = .retryTrial) < trialAttempts ∧
      ∀ recovery ∈ answers digest tx disk events, ∃ inactive,
        inactiveSlot tx.layout = .ok inactive ∧
          recovery.bootSlot = recovery.action.slot inactive := by
  have hproper : Proper digest tx disk := fun journal hjournal ↦ by
    cases hnone.symm.trans hjournal
  have hcount := @countP_answers digest tx disk events
  rw [Disk.triesLeft, hnone] at hcount
  refine ⟨?_, hcount.trans_lt (by decide), fun recovery hmem ↦ slot_of_mem_answers hproper hmem⟩
  intro early first between second late _ earlier later hearlier hlater
  rw [Run.run_append] at hlater
  exact follows_of_answers hearlier hlater

theorem recoveries_settle_fixture :
    (answers fixtureDigest fixtureTransaction fixtureDisk
      (fixtureEvents ++ [fixtureRetry])).countP (·.action = .retryTrial) < trialAttempts :=
  (@recoveries_settle fixtureDigest fixtureTransaction fixtureDisk journal_fixtureDisk
    (fixtureEvents ++ [fixtureRetry])).2.1

example : (answers fixtureDigest fixtureTransaction fixtureDisk
    (fixtureEvents ++ [fixtureRetry, fixtureRetry, fixtureRetry])).map
      (fun recovery ↦ (recovery.bootSlot, recovery.action)) =
    [(.A, .discardInactive), (.B, .retryTrial), (.B, .retryTrial), (.A, .automaticFallback)] := by
  decide +kernel

end Cameo.Update.Simulator
