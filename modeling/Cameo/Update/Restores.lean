import Cameo.Update.PriorSlot

/-!
# Restoring more than once

When the boot loader has returned to the prior slot, `recover` restores the snapshot there and
leaves the journal as it is.  It runs on every boot, so the next one restores the snapshot again,
and so does a rollback.  What the prior slot has written in between is lost, unless the adapter
refuses.  Nothing else that happens to a transaction touches what the prior slot has written.
-/

namespace Cameo.Update

open Json Library Library.Durable Library.Durable.Program

/-! ## Runs with what was restored and written -/

/-- A machine, and what has happened to its state in the transaction on record. -/
structure Watched where
  world : World Machine State
  /-- A recovery in the prior slot has restored the snapshot. -/
  rescued : Bool
  /-- The prior slot has written the state since. -/
  written : Bool
  /-- A recovery or a rollback has then replaced the state. -/
  lost : Bool

namespace Watched

variable (sha : Sha256 State) (watched : Watched)

def inPrior : Prop := watched.world.journal.map Journal.priorHealthySlot = some watched.world.booted

instance : Decidable watched.inPrior := inferInstanceAs (Decidable (_ = _))

/-- The state was replaced after the prior slot has written it. -/
def loses (after : World Machine State) : Bool :=
  watched.lost || watched.written && decide (after.host.state ≠ watched.world.host.state)

/-- What is known after an event. -/
def step (event : Event Machine State) : Watched :=
  let after := event.after sha watched.world
  match event with
  | .issue (.apply _ _ _ _) _ =>
    -- the journal is replaced when a new transaction begins
    if after.journal = watched.world.journal then { watched with world := after }
    else { watched with world := after, rescued := false, written := false }
  | .issue (.commit _) _ => { watched with world := after }
  | .issue (.rollback _) _ => { watched with world := after, lost := watched.loses after }
  | .issue (.recover _) _ =>
    { watched with
      world := after
      rescued := watched.rescued ||
        decide (watched.inPrior ∧ watched.world.host.restores < after.host.restores)
      lost := watched.loses after }
  | .outside _ host =>
    { watched with
      world := after
      written := watched.written ||
        watched.rescued && decide (watched.inPrior ∧ host.state ≠ watched.world.host.state) }

/-- A restore at this point leaves the state as it is, if there is one to make. -/
def Refused (ops : HostOperations Machine State) (world : World Machine State) : Prop :=
  ∀ journal ∈ world.journal, journal.phase.trying = true →
    journal.rollbackRequiresStateRestore = true → ∀ name ∈ journal.stateBackup,
      (ops.restoreState name world.backups world.host).2.state = world.host.state

/-- Once the prior slot has written the state after a recovery there, a rollback, and a recovery in
the prior slot, come to a restore only if it is refused. -/
def Spared : Event Machine State → Prop
  | .issue (.rollback ops) _ => watched.written = true → Refused ops watched.world
  | .issue (.recover ops) _ => watched.written = true → watched.inPrior → Refused ops watched.world
  | _ => True

end Watched

/-! ## Commands that leave the state alone -/

section Same

variable {sha : Sha256 State} {ops : HostOperations Machine State} {world : World Machine State}
  {journal : Journal} {state : State}

def Holds (state : State) (world : World Machine State) : Prop := world.host.state = state

variable (hops : ops.Faithful sha) (hholds : Holds state world)

include hops hholds

/-- A refused restore, or none. -/
theorem holds_restorePriorState
    (hrefused : Phase.bootTrial.index ≤ journal.phase.index →
      journal.rollbackRequiresStateRestore = true → ∀ name ∈ journal.stateBackup,
        (ops.restoreState name world.backups world.host).2.state = world.host.state) :
    Passes world (restorePriorState ops journal) (Holds state) fun _ after ↦ Holds state after := by
  unfold restorePriorState
  split
  · exact passes_pure hholds
  · rename_i hrequires
    split
    · exact passes_pure hholds
    · rename_i hlate
      split
      · exact passes_fail
      · rename_i name hname
        have hsame :=
          (hrefused (not_lt.mp hlate) (by simpa using hrequires) name hname).trans hholds
        refine passes_bind (fun _ after ↦ Holds state after) (passes_perform hsame ?_)
          fun _ after hafter ↦ ?_
        · intro u after hstep
          obtain ⟨-, rfl⟩ := Prod.mk.inj hstep
          exact hsame
        · obtain ⟨value, heffect⟩ := hops.recordPersistentSchema journal.priorStateWrites after.host
          have hrecord : Holds state { after with host :=
              (ops.recordPersistentSchema journal.priorStateWrites after.host).2 } := by
            rw [heffect]
            exact hafter
          refine (passes_call hrecord).weaken ?_
          rintro u found ⟨host, hcall, rfl⟩
          rw [hcall] at hrecord
          exact hrecord

theorem holds_returnToPrior
    (hrefused : Phase.bootTrial.index ≤ journal.phase.index →
      journal.rollbackRequiresStateRestore = true → ∀ name ∈ journal.stateBackup,
        (ops.restoreState name world.backups world.host).2.state = world.host.state) :
    Passes world (returnToPrior ops journal) (Holds state) fun _ _ ↦ True := by
  refine passes_bind _ (holds_restorePriorState hops hholds hrefused) fun _ after hafter ↦ ?_
  have hselect : Holds state { after with host := (ops.selectPrior journal after.host).2 } := by
    rcases hops.selectPrior journal after.host with heffect | ⟨heffect, -⟩
    · rw [heffect]
      exact hafter
    · rw [heffect]
      exact hafter
  refine passes_bind (fun _ found ↦ Holds state found) ((passes_call hselect).weaken ?_)
    fun _ found hfound ↦ ?_
  · rintro u found ⟨host, hcall, rfl⟩
    rw [hcall] at hselect
    exact hselect
  refine passes_bind _ (passes_call_same (hops.discardInactive journal) hfound)
    fun _ last hlast ↦ ?_
  subst hlast
  exact (passes_advance hfound).weaken fun _ _ _ ↦ trivial

theorem holds_rollback (hrefused : Watched.Refused ops world) :
    Passes world (rollback sha ops) (Holds state) fun _ _ ↦ True := by
  refine passes_bind _ passes_loadJournal fun journal after hafter ↦ ?_
  obtain ⟨hadmitted, rfl⟩ := hafter
  refine passes_bind _ passes_require fun _ after hafter ↦ ?_
  obtain ⟨hterminal, rfl⟩ := hafter
  refine passes_bind _ passes_loadLayout fun found after hafter ↦ ?_
  obtain ⟨-, rfl, rfl⟩ := hafter
  refine passes_bind _ (passes_resetLayout fun _ ↦ hholds) fun updated after hafter ↦ ?_
  obtain ⟨⟨hash, next, next', rfl⟩, layout, rfl⟩ := hafter
  exact holds_returnToPrior hops hholds fun hlate ↦ hrefused journal hadmitted.recorded
    (Phase.trying_of_bootTrial_le hterminal hlate)

/-- A recovery restores the snapshot only in the prior slot. -/
theorem holds_recover
    (hrefused : world.journal.map Journal.priorHealthySlot = some world.booted →
      Watched.Refused ops world) :
    Passes world (recover sha ops) (Holds state) fun _ _ ↦ True := by
  refine passes_bind _ passes_loadJournal fun journal after hafter ↦ ?_
  obtain ⟨hadmitted, rfl⟩ := hafter
  split
  · exact passes_pure trivial
  · rename_i hover
    have hterminal : journal.phase.isTerminal = false := by simpa using hover
    split
    · rename_i hearly
      exact holds_returnToPrior hops hholds fun hlate ↦ absurd hearly hlate.not_gt
    · refine passes_bind _ passes_loadLayout fun found after hafter ↦ ?_
      obtain ⟨-, rfl, rfl⟩ := hafter
      refine passes_bind _ passes_observedActiveSlot fun slot after hafter ↦ ?_
      obtain ⟨rfl, rfl⟩ := hafter
      split
      · rename_i hbooted
        have hprior : world.journal.map Journal.priorHealthySlot = some world.booted := by
          rw [hadmitted.recorded, Option.map_some, hbooted]
        refine passes_bind _ (holds_restorePriorState hops hholds fun hlate ↦
          hrefused hprior journal hadmitted.recorded
            (Phase.trying_of_bootTrial_le hterminal hlate)) fun _ _ _ ↦ ?_
        exact passes_pure trivial
      · exact passes_pure trivial

end Same

/-! ## Runs -/

namespace Watched

variable {sha : Sha256 State} {watched : Watched} {event : Event Machine State}

/-- Nothing is lost when the state is the same. -/
theorem loses_of_holds {after : World Machine State} (hlost : watched.lost = false)
    (hholds : watched.written = true → Holds watched.world.host.state after) :
    watched.loses after = false := by
  unfold loses
  rw [hlost, Bool.false_or]
  cases hwritten : watched.written with
  | false => rfl
  | true =>
    have hstate : after.host.state = watched.world.host.state := hholds hwritten
    simp [hstate]

/-- An event that spares what the prior slot has written loses nothing. -/
theorem lost_step (hlost : watched.lost = false) (hpossible : Possible sha watched.world event)
    (hspared : watched.Spared event) : (watched.step sha event).lost = false := by
  cases event with
  | outside booted host => exact hlost
  | issue command steps =>
    have hmem := Event.after_mem_stops sha watched.world command steps
    cases command with
    | apply ops bundle manifestPath manifest =>
      dsimp only [step]
      split
      · exact hlost
      · exact hlost
    | commit ops => exact hlost
    | rollback ops =>
      exact loses_of_holds hlost fun hwritten ↦
        (holds_rollback hpossible rfl (hspared hwritten)).stops rfl _ hmem
    | recover ops =>
      exact loses_of_holds hlost fun hwritten ↦
        (holds_recover hpossible rfl (hspared hwritten)).stops rfl _ hmem

def start (world : World Machine State) : Watched := ⟨world, false, false, false⟩

end Watched

/-- In every run whose events spare what the prior slot has written after a recovery there, no later
recovery or rollback of the same transaction replaces it. -/
theorem prior_writes_survive {sha : Sha256 State} (world : World Machine State)
    (events : List (Event Machine State))
    (hmeets : Run.Meets (Watched.step sha)
      (fun watched event ↦ Possible sha watched.world event ∧ watched.Spared event)
      (Watched.start world) events) :
    (Run.run (Watched.step sha) (Watched.start world) events).lost = false :=
  Run.invariant_run (fun watched ↦ watched.lost = false)
    (fun _ _ hlost hevent ↦ Watched.lost_step hlost hevent.1 hevent.2) rfl hmeets

/-- An adapter that does not restore over a state that is there. -/
def refusing (sha : Sha256 State) : HostOperations Machine State :=
  { dutiful sha with
    restoreState := fun _ _ host ↦ (.error "restore requires a new destination directory", host) }

theorem refusing_faithful (sha : Sha256 State) : (refusing sha).Faithful sha :=
  { dutiful_faithful sha with
    restoreState := fun _ _ _ ↦ .inr ⟨rfl, fun _ hok ↦ nomatch hok⟩ }

def fixtureRestored : Machine :=
  ((fixtureMachine.tries .B).restored fixtureMachine.state).recording (schemaRecord 3)

/-- The fixture's machine when the prior slot has then written the state. -/
def fixtureReturned : Machine := { fixtureRestored with state := ⟨3, "written after the return"⟩ }

/-- The trial of the fixture's update writes the state and the boot loader returns to the prior
slot, where a recovery restores the snapshot.  The prior slot writes the state and is booted again,
and the next recovery runs. -/
def fixtureReturn (ops : HostOperations Machine State) : List (Event Machine State) :=
  [fixtureApply 11, .outside .B (fixtureMachine.tries .B), .outside .B fixtureMigrated,
    .outside .A fixtureMigrated, .issue (.recover (dutiful fixtureSha)) 100,
    .outside .A fixtureReturned, .outside .A fixtureReturned, .issue (.recover ops) 100]

theorem prior_writes_survive_fixture :
    (Run.run (Watched.step fixtureSha) (Watched.start fixture)
      (fixtureReturn (refusing fixtureSha))).lost = false := by
  have hops := dutiful_faithful fixtureSha
  have hrun : Run.Meets (Watched.step fixtureSha)
      (fun watched event ↦ Happens watched.world event) (Watched.start fixture)
      (fixtureReturn (refusing fixtureSha)) ∧
      (Run.run (Watched.step fixtureSha) (Watched.start fixture)
        ((fixtureReturn (refusing fixtureSha)).take 4)).written = false := by
    decide +kernel
  obtain ⟨⟨-, hboots, hwrites, hreturns, -, hwrites', hboots', -⟩, hunwritten⟩ := hrun
  exact prior_writes_survive fixture _ ⟨⟨hops, trivial⟩, ⟨hboots, trivial⟩, ⟨hwrites, trivial⟩,
    ⟨hreturns, trivial⟩, ⟨hops, fun hwritten ↦ absurd (hunwritten.symm.trans hwritten) nofun⟩,
    ⟨hwrites', trivial⟩, ⟨hboots', trivial⟩,
    ⟨refusing_faithful fixtureSha, fun _ _ _ _ _ _ _ _ ↦ rfl⟩, trivial⟩

/-- The journal still says that the trial runs, so the second recovery restores the snapshot over
what the prior slot has written. -/
theorem prior_writes_lost :
    Run.Meets (Watched.step fixtureSha)
        (fun watched event ↦ Possible fixtureSha watched.world event) (Watched.start fixture)
        (fixtureReturn (dutiful fixtureSha)) ∧
      (Run.run (Watched.step fixtureSha) (Watched.start fixture)
        (fixtureReturn (dutiful fixtureSha))).lost = true := by
  have hops := dutiful_faithful fixtureSha
  have hrun : Run.Meets (Watched.step fixtureSha)
      (fun watched event ↦ Happens watched.world event) (Watched.start fixture)
      (fixtureReturn (dutiful fixtureSha)) ∧
      (Run.run (Watched.step fixtureSha) (Watched.start fixture)
        (fixtureReturn (dutiful fixtureSha))).lost = true := by
    decide +kernel
  obtain ⟨⟨-, hboots, hwrites, hreturns, -, hwrites', hboots', -⟩, hlost⟩ := hrun
  exact ⟨⟨hops, hboots, hwrites, hreturns, hops, hwrites', hboots', hops, trivial⟩, hlost⟩

end Cameo.Update
