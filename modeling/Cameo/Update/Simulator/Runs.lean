import Cameo.Update.Simulator.Staging
import Mathlib.Logic.Relation

/-!
# Runs of the A/B transaction

The operations are called in any order, and each of them may be cut off by a power loss.  Over every
such run the recoveries settle: after some trials of the inactive slot they keep to one slot, and
the inactive slot is offered only with a complete generation in it.
-/

namespace Cameo.Update.Simulator

open Json Library Library.Durable Library.Durable.Program

variable {digest : List UInt8 → HexDigest} {tx : Transaction}

/-! ## Events -/

/-- A call of an operation.  It is cut off at one of its stops, or comes to its end. -/
structure Event where
  op : Operation
  cut : Option ℕ

variable (digest tx) in
/-- The disk after an event. -/
def step (disk : Disk) (event : Event) : Disk :=
  let program := event.op.program digest tx
  match event.cut with
  | none => program.final disk
  | some count => (program.stops disk)[count]?.getD (program.final disk)

variable (digest tx) in
def answer? (disk : Disk) (event : Event) : Option Recovery :=
  match event.cut, (event.op.program digest tx disk).result with
  | none, .ok answer => answer
  | _, _ => none

variable (digest tx) in
def answers : Disk → List Event → List Recovery
  | _, [] => []
  | disk, event :: events =>
    (answer? digest tx disk event).toList ++ answers (step digest tx disk event) events

/-! ## Courses of an event -/

theorem triple_program (disk : Disk) (op : Operation) :
    Triple (· = disk) (op.program digest tx) (Change digest tx op)
      fun answer after ↦
        ∀ recovery, answer = some recovery → Decides digest tx disk recovery after := by
  cases op with
  | begin =>
    exact triple_bind _ (triple_begin.strengthen fun _ _ ↦ trivial) fun _ ↦
      triple_pure fun _ _ _ h ↦ by cases h
  | advance phase =>
    exact triple_bind _ ((triple_advance phase).strengthen fun _ _ ↦ trivial) fun _ ↦
      triple_pure fun _ _ _ h ↦ by cases h
  | stage files =>
    exact triple_bind _ ((triple_stage files).strengthen fun _ _ ↦ trivial) fun _ ↦
      triple_pure fun _ _ _ h ↦ by cases h
  | recover persistent hash booted listing =>
    refine triple_bind _ (triple_recover disk persistent hash booted listing) fun recovery ↦
      triple_pure ?_
    rintro after hdecides _ ⟨⟩
    exact hdecides

theorem step_mem_stops (disk : Disk) (event : Event) :
    step digest tx disk event ∈ (event.op.program digest tx).stops disk := by
  have hfinal : (event.op.program digest tx).final disk ∈
      (event.op.program digest tx).stops disk := List.getLastD_mem_cons
  unfold step
  dsimp only
  split
  · exact hfinal
  · rename_i count _
    cases hfound : ((event.op.program digest tx).stops disk)[count]? with
    | none => exact hfinal
    | some stop => exact List.mem_of_getElem? hfound

/-- An event takes steps of its operation only. -/
theorem changes_step (disk : Disk) (event : Event) :
    Relation.ReflTransGen (Change digest tx event.op) disk (step digest tx disk event) :=
  (triple_program disk event.op).stops_invariant
    (Relation.ReflTransGen (Change digest tx event.op) disk) rfl .refl
    (fun _ _ hbefore hchange ↦ hbefore.tail hchange) _ (step_mem_stops disk event)

theorem decides_of_answer? {disk : Disk} {event : Event} {recovery : Recovery}
    (h : answer? digest tx disk event = some recovery) :
    Decides digest tx disk recovery (step digest tx disk event) := by
  obtain ⟨op, cut⟩ := event
  unfold answer? at h
  split at h
  · rename_i answer hcut hresult
    cases hcut
    exact (triple_program disk op disk rfl).2 _ _ (runs_of_ok hresult) recovery h
  · cases h

/-- What every change keeps, every event keeps. -/
theorem keeps_step (inv : Disk → Prop) {event : Event}
    (hkeeps : ∀ before after, Change digest tx event.op before after → inv before → inv after)
    {disk : Disk} (h : inv disk) : inv (step digest tx disk event) := by
  have hkept {after : Disk}
      (hsteps : Relation.ReflTransGen (Change digest tx event.op) disk after) : inv after := by
    induction hsteps with
    | refl => exact h
    | tail _ hchange ih => exact hkeeps _ _ hchange ih
  exact hkept (changes_step disk event)

/-! ## The journal of a run -/

/-- The journal is of this transaction, and its trials add up. -/
structure Journal.Proper (digest : List UInt8 → HexDigest) (tx : Transaction) (journal : Journal) :
    Prop where
  inactive : Simulator.inactiveSlot tx.layout = .ok journal.inactiveSlot
  prior : journal.priorHealthySlot = journal.inactiveSlot.other
  trials : journal.trialTriesLeft + journal.trialTriesDone = trialAttempts
  untried : journal.phase.index < Phase.bootTrial.index → journal.trialTriesDone = 0
  generation : journal.generationPath.isSome = true →
    Phase.inactiveWritten.index ≤ journal.phase.index

def Proper (digest : List UInt8 → HexDigest) (tx : Transaction) (disk : Disk) : Prop :=
  ∀ journal, disk.journal = some journal → journal.Proper digest tx

theorem Journal.Proper.advanced {journal : Journal} (h : journal.Proper digest tx) {phase : Phase}
    (hphase : phase.index = journal.phase.index + 1) :
    Journal.Proper digest tx { journal with phase := phase } where
  inactive := h.inactive
  prior := h.prior
  trials := h.trials
  untried := fun hlt ↦ h.untried (by
    change phase.index < _ at hlt
    omega)
  generation := fun hsome ↦ by
    have hreached := h.generation hsome
    change _ ≤ phase.index
    omega

theorem Journal.Proper.tried {journal : Journal} (h : journal.Proper digest tx)
    (hphase : journal.phase = .bootTrial) (hleft : 0 < journal.trialTriesLeft) :
    journal.tried.Proper digest tx where
  inactive := h.inactive
  prior := h.prior
  trials := by
    have htrials := h.trials
    change journal.trialTriesLeft - 1 + (journal.trialTriesDone + 1) = _
    omega
  untried := fun hlt ↦ by
    change journal.phase.index < _ at hlt
    rw [hphase] at hlt
    exact absurd hlt (Nat.lt_irrefl _)
  generation := h.generation

theorem Journal.Proper.blessed {journal : Journal} (h : journal.Proper digest tx) :
    Journal.Proper digest tx { journal with phase := .healthCommitted } where
  inactive := h.inactive
  prior := h.prior
  trials := h.trials
  untried := fun hlt ↦
    absurd hlt (by decide : ¬ Phase.healthCommitted.index < Phase.bootTrial.index)
  generation := fun _ ↦ (by decide : Phase.inactiveWritten.index ≤ Phase.healthCommitted.index)

theorem Journal.Proper.staged {journal : Journal} (h : journal.Proper digest tx)
    (hphase : journal.phase = .stateSaved) (path : Path) :
    Journal.Proper digest tx
      { journal with phase := .inactiveWritten, generationPath := some path } where
  inactive := h.inactive
  prior := h.prior
  trials := h.trials
  untried := fun _ ↦ h.untried (by
    rw [hphase]
    decide)
  generation := fun _ ↦ le_rfl

theorem proper_firstJournal {active inactive : Slot} (hactive : activeSlot tx.layout = some active)
    (hinactive : inactiveSlot tx.layout = .ok inactive) :
    (tx.firstJournal digest active inactive).Proper digest tx where
  inactive := hinactive
  prior := by
    have hother := activeSlot_of_inactiveSlot hinactive
    exact Option.some.inj (hactive.symm.trans hother)
  trials := rfl
  untried := fun _ ↦ rfl
  generation := fun hsome ↦ by cases hsome

theorem proper_change {op : Operation} {before after : Disk}
    (hchange : Change digest tx op before after) (h : Proper digest tx before) :
    Proper digest tx after := by
  cases hchange with
  | opened | shaped => exact h
  | begun _ active inactive hnone hactive hinactive =>
    rintro journal ⟨⟩
    exact proper_firstJournal hactive hinactive
  | advanced _ journal phase hjournal hphase =>
    rintro _ ⟨⟩
    exact (h journal hjournal).advanced hphase
  | staged _ journal files path hjournal hphase hcomplete =>
    rintro _ ⟨⟩
    exact (h journal hjournal).staged hphase path
  | tried _ journal persistent hash booted listing hjournal hphase hleft =>
    rintro _ ⟨⟩
    exact (h journal hjournal).tried hphase hleft
  | blessed _ journal persistent hash listing hjournal hphase hleft =>
    rintro _ ⟨⟩
    exact ((h journal hjournal).tried hphase hleft).blessed

theorem proper_step {disk : Disk} (h : Proper digest tx disk) (event : Event) :
    Proper digest tx (step digest tx disk event) :=
  keeps_step (Proper digest tx) (fun _ _ hchange hbefore ↦ proper_change hchange hbefore) h

theorem proper_run {disk : Disk} (hnone : disk.journal = none) (events : List Event) :
    Proper digest tx (Run.run (step digest tx) disk events) := by
  refine Run.invariant_run_of_step (Proper digest tx) (fun _ event h ↦ proper_step h event) events
    ?_
  intro journal hjournal
  cases hnone.symm.trans hjournal

/-! ## An update of two slots -/

theorem isLowerDigest_replicate : IsLowerDigest (String.ofList (.replicate 64 'a')) ∧
    IsLowerDigest (String.ofList (.replicate 64 'b')) := by decide +kernel

def fixtureDigest (data : List UInt8) : HexDigest :=
  if data.length < 2 then ⟨_, isLowerDigest_replicate.1⟩ else ⟨_, isLowerDigest_replicate.2⟩

/-- A site without links. -/
def fixtureSite : Site where
  root := ["srv"]
  linked := fun _ ↦ false
  leads := id
  leads_root := rfl
  leads_leads := fun _ ↦ rfl
  leads_unlinked := fun _ _ _ _ ↦ rfl

def fixtureSlot (partuuid root : String) : Value :=
  .object [("device_id", .string "disk"), ("mounted", .bool true), ("partuuid", .string partuuid),
    ("root", .string root)]

def fixtureLayout : Value :=
  .object [("active_slot", .string "A"), ("firmware", .string "uefi"),
    ("persistent", .object [("mounted", .bool true), ("partuuid", .string "state"),
      ("root", .string "/state"), ("state_sha256", .string (String.ofList (.replicate 64 'a')))]),
    ("schema", .string "cameo-update-layout/v1"),
    ("slots", .object [("A", fixtureSlot "a" "/a"), ("B", fixtureSlot "b" "/b")])]

def fixtureTransaction : Transaction where
  site := fixtureSite
  layoutBytes := [0]
  layout := fixtureLayout
  manifestBytes := [0, 1]
  isObject := rfl

/-- Two slots and a persistent partition with nothing in them. -/
def fixtureDisk : Disk :=
  final (do
    createEntry ["srv"] .directory
    createEntry ["srv", "a"] .directory
    createEntry ["srv", "b"] .directory
    createEntry ["srv", "state"] .directory) ⟨.bare, none, false⟩

def fixtureFiles : List StagedFile :=
  [⟨"usr/cameo", [7, 7], String.ofList (.replicate 64 'b')⟩]

/-- An update up to its trial, of which the first staging is cut off and recovered from. -/
def fixtureEvents : List Event :=
  [⟨.begin, none⟩, ⟨.advance "preflighted", none⟩, ⟨.advance "drained", none⟩,
    ⟨.advance "state_saved", none⟩, ⟨.stage fixtureFiles, some 4⟩,
    ⟨.recover "state" (String.ofList (.replicate 64 'a')) none [], none⟩,
    ⟨.stage fixtureFiles, none⟩, ⟨.advance "boot_trial", none⟩]

/-- The recovery after a boot that has failed. -/
def fixtureRetry : Event :=
  ⟨.recover "state" (String.ofList (.replicate 64 'a')) (some false) [], none⟩

theorem journal_fixtureDisk : fixtureDisk.journal = none := by decide +kernel

end Cameo.Update.Simulator
