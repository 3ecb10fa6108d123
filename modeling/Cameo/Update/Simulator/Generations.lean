import Cameo.Update.Simulator.Runs

/-!
# The generations of a run

Whatever is cut off, the inactive slot is never offered without the whole of what was staged, and
nothing changes outside the directory of the generations.
-/

namespace Cameo.Update.Simulator

open Json Library Library.Durable Library.Durable.Program

variable {digest : List UInt8 → HexDigest} {tx : Transaction}

/-! ## What is offered -/

/-- Once the inactive slot is written, it has a complete generation that one of the operations has
staged. -/
def Written (digest : List UInt8 → HexDigest) (tx : Transaction) (events : List Event)
    (disk : Disk) : Prop :=
  ∀ journal, disk.journal = some journal →
    Phase.inactiveWritten.index ≤ journal.phase.index →
      ∃ cause ∈ events, ∃ files path, cause.op = .stage files ∧
        journal.generationPath = some path ∧ tx.Complete digest files path disk.tree

theorem written_change {events : List Event} {cause : Event} (hmem : cause ∈ events)
    (hop : cause.op ≠ .advance "inactive_written") {before after : Disk}
    (hchange : Change digest tx cause.op before after) (h : Written digest tx events before) :
    Written digest tx events after := by
  obtain ⟨op, cut⟩ := cause
  dsimp only at hop hchange
  cases hchange with
  | opened => exact h
  | begun =>
    rintro _ ⟨⟩ hphase
    exact absurd hphase (by decide : ¬ Phase.inactiveWritten.index ≤ Phase.verified.index)
  | advanced _ journal phase hjournal hindex =>
    rintro _ ⟨⟩ hphase
    change _ ≤ phase.index at hphase
    by_cases hself : phase = .inactiveWritten
    · exact absurd (by rw [hself]; rfl) hop
    · have hne : Phase.inactiveWritten.index ≠ phase.index := by
        intro heq
        cases phase with
        | inactiveWritten => exact hself rfl
        | verified | preflighted | drained | stateSaved | bootTrial | healthCommitted => cases heq
      exact h journal hjournal (by omega)
  | shaped _ _ journal tree hjournal hphase htree =>
    rintro other hother hwritten
    cases hjournal.symm.trans hother
    exact absurd hwritten (not_le.mpr hphase)
  | staged _ journal files path hjournal hphase hcomplete =>
    rintro _ ⟨⟩ -
    exact ⟨_, hmem, files, path, rfl, rfl, hcomplete⟩
  | tried _ journal persistent hash booted listing hjournal hphase hleft =>
    rintro _ ⟨⟩ hwritten
    exact h journal hjournal hwritten
  | blessed _ journal persistent hash listing hjournal hphase hleft =>
    rintro _ ⟨⟩ -
    exact h journal hjournal (by rw [hphase]; decide)

theorem written_run {disk : Disk} (hnone : disk.journal = none) {events : List Event}
    (hops : ∀ event ∈ events, event.op ≠ .advance "inactive_written") :
    Written digest tx events (Run.run (step digest tx) disk events) := by
  have hlabels : ∀ event ∈ events, event ∈ events ∧ event.op ≠ .advance "inactive_written" :=
    fun event hmem ↦ ⟨hmem, hops event hmem⟩
  refine Run.invariant_run_of_forall (Written digest tx events) ?_ ?_ hlabels
  · rintro disk event h ⟨hmem, hop⟩
    exact keeps_step (Written digest tx events) (fun _ _ ↦ written_change hmem hop) h
  · intro journal hjournal
    cases hnone.symm.trans hjournal

/-- Whatever was called before and wherever it was cut off, a recovery offers the inactive slot only
with a complete generation in it, with every file that one call of `stage` was given, each with its
digest, and nothing else. -/
theorem offers_complete_generation {disk : Disk} (hnone : disk.journal = none)
    {events : List Event} (hops : ∀ event ∈ events, event.op ≠ .advance "inactive_written")
    {event : Event} {recovery : Recovery}
    (hanswer : answer? digest tx (Run.run (step digest tx) disk events) event = some recovery)
    (hoffered : inactiveSlot tx.layout = .ok recovery.bootSlot) :
    ∃ cause ∈ events, ∃ files path, cause.op = .stage files ∧
      recovery.journal.generationPath = some path ∧
      tx.Complete digest files path (Run.run (step digest tx) disk (events ++ [event])).tree := by
  have hwritten := @written_run digest tx disk hnone events hops
  have hproper := @proper_run digest tx disk hnone events
  rw [Run.run_append]
  generalize Run.run (step digest tx) disk events = reached at hanswer hwritten hproper ⊢
  have hdecides := decides_of_answer? hanswer
  change ∃ cause ∈ events, ∃ files path, cause.op = .stage files ∧
    recovery.journal.generationPath = some path ∧
    tx.Complete digest files path (step digest tx reached event).tree
  generalize step digest tx reached event = after at hdecides ⊢
  have hprior {journal : Journal} (hjournal : reached.journal = some journal) :
      inactiveSlot tx.layout ≠ .ok journal.priorHealthySlot := by
    intro hprior
    have hinactive := (hproper journal hjournal).inactive
    rw [(hproper journal hjournal).prior] at hprior
    exact Slot.other_ne _ (Except.ok.inj (hprior.symm.trans hinactive))
  cases hdecides with
  | discarded journal _ hjournal | exhausted journal hjournal | last journal hjournal =>
    exact absurd hoffered (hprior hjournal)
  | committed journal hjournal hphase | blessed journal hjournal hphase
  | retried journal hjournal hphase =>
    exact hwritten journal hjournal (by rw [hphase]; decide)

theorem offers_complete_generation_fixture :
    ∃ cause ∈ fixtureEvents, ∃ files path, cause.op = .stage files ∧
      fixtureTransaction.Complete fixtureDigest files path
        (Run.run (step fixtureDigest fixtureTransaction) fixtureDisk
          (fixtureEvents ++ [fixtureRetry])).tree := by
  have hoffers : (answer? fixtureDigest fixtureTransaction
      (Run.run (step fixtureDigest fixtureTransaction) fixtureDisk fixtureEvents) fixtureRetry).map
        Recovery.bootSlot = some .B := by decide +kernel
  obtain ⟨recovery, hanswer, hslot⟩ := Option.map_eq_some_iff.mp hoffers
  have hops : ∀ event ∈ fixtureEvents, event.op ≠ .advance "inactive_written" := by
    simp [fixtureEvents]
  have hinactive : inactiveSlot fixtureTransaction.layout = .ok recovery.bootSlot := by
    rw [hslot]
    decide +kernel
  obtain ⟨cause, hmem, files, path, hop, -, hcomplete⟩ :=
    offers_complete_generation journal_fixtureDisk hops hanswer hinactive
  exact ⟨cause, hmem, files, path, hop, hcomplete⟩

/-! ## What is left alone -/

theorem agreeOff_change {op : Operation} {before after : Disk}
    (hchange : Change digest tx op before after) :
    FileTree.AgreeOff (tx.Touches digest) before.tree after.tree := by
  cases hchange with
  | shaped _ _ journal tree hjournal hphase htree => exact htree
  | opened | begun | advanced | staged | tried | blessed => exact .refl _ _

theorem agreeOff_run (disk : Disk) (events : List Event) :
    FileTree.AgreeOff (tx.Touches digest) disk.tree
      (Run.run (step digest tx) disk events).tree := by
  refine Run.invariant_run_of_step
    (fun after : Disk ↦ FileTree.AgreeOff (tx.Touches digest) disk.tree after.tree) ?_ events
    (.refl _ _)
  intro before event h
  exact keeps_step (fun after ↦ FileTree.AgreeOff (tx.Touches digest) disk.tree after.tree)
    (fun _ _ hchange hbefore ↦ hbefore.trans (agreeOff_change hchange)) h

/-- The place of the active slot or of the persistent state. -/
def Transaction.Kept (tx : Transaction) (base : Path) : Prop :=
  (∃ slot, activeSlot tx.layout = some slot ∧ tx.slotPath slot = .ok base) ∨
    beneath tx.site ((text (tx.layout.index "persistent") "root").getD "") = .ok base

theorem beneath_of_checkPersistent {tree : FileTree String UInt8} {path : Path}
    (h : checkPersistent tx.site tree tx.layout = .ok path) :
    beneath tx.site ((text (tx.layout.index "persistent") "root").getD "") = .ok path ∧
      tree.IsDirectory path := by
  simp only [checkPersistent, mountedRoot, bind_eq_ok, ensure_eq_ok, Except.ok.injEq] at h
  obtain ⟨_, _, _, _, _, _, _, _, _, _, _, _, found, hfound, _, hdir, rfl⟩ := h
  exact ⟨hfound, hdir⟩

/-- The inactive slot is apart from what is kept. -/
theorem not_overlaps_of_kept {tree : FileTree String UInt8} {slot : Slot} {inactive base : Path}
    (hvalid : validateLayout tx.site tree tx.layout = .ok slot)
    (hinactive : tx.slotPath slot = .ok inactive) (hkept : tx.Kept base) :
    ¬ Overlaps inactive base := by
  obtain ⟨hslot, slots, state, hplaces⟩ := validateLayout_eq_ok.mp hvalid
  have hactive := activeSlot_of_inactiveSlot hslot
  have hpath (slot : Slot) : tx.slotPath slot = .ok (slots slot) :=
    (slotPath_of_checkSlot (hplaces.slot slot)).1
  obtain rfl := Except.ok.inj (hinactive.symm.trans (hpath slot))
  have hapart := hplaces.apart
  simp only [List.pairwise_cons, List.mem_cons, List.not_mem_nil, or_false, forall_eq_or_imp,
    forall_eq] at hapart
  have hsymm {a b : Path} (h : ¬ Overlaps a b) : ¬ Overlaps b a := by
    rintro (rfl | h' | h')
    · exact h (.inl rfl)
    · exact h (.inr (.inr h'))
    · exact h (.inr (.inl h'))
  rcases hkept with ⟨active, hactive', hbase⟩ | hbase
  · obtain rfl := Option.some.inj (hactive.symm.trans hactive')
    obtain rfl := Except.ok.inj (hbase.symm.trans (hpath _))
    cases slot with
    | A => exact hapart.1.1
    | B => exact hsymm hapart.1.1
  · obtain rfl := Except.ok.inj (hbase.symm.trans (beneath_of_checkPersistent hplaces.persistent).1)
    cases slot with
    | A => exact hapart.1.2
    | B => exact hapart.2.1

/-- The directory of the generations is where it is named. -/
theorem leads_generations {generations : Path} (hgenerations : tx.Generations generations)
    (hlinked : tx.site.linked generations = false) : tx.site.leads generations = generations := by
  obtain ⟨tree, slot, inactive, hvalid, hinactive, rfl⟩ := hgenerations
  rw [tx.site.leads_unlinked _ _ hlinked (by decide), (prefix_of_beneath hinactive).2]

theorem inactive_prefix_of_touches {path : Path}
    (hunlinked : ∀ generations, tx.Generations generations → tx.site.linked generations = false)
    (h : tx.Touches digest path) : ∃ tree slot inactive,
      validateLayout tx.site tree tx.layout = .ok slot ∧ tx.slotPath slot = .ok inactive ∧
        inactive ++ ["cameo-generations"] <+: path := by
  obtain ⟨generations, hgenerations, hpath⟩ := h
  rw [leads_generations hgenerations (hunlinked generations hgenerations)] at hpath
  obtain ⟨tree, slot, inactive, hvalid, hinactive, rfl⟩ := hgenerations
  refine ⟨tree, slot, inactive, hvalid, hinactive, ?_⟩
  rcases hpath with rfl | ⟨name, -, hext⟩
  · exact List.prefix_refl _
  · exact (List.prefix_append _ _).trans hext

theorem not_touches_of_kept
    (hunlinked : ∀ generations, tx.Generations generations → tx.site.linked generations = false)
    {base : Path} (hkept : tx.Kept base) (rest : Path) : ¬ tx.Touches digest (base ++ rest) := by
  intro htouches
  obtain ⟨tree, slot, inactive, hvalid, hinactive, hext⟩ :=
    inactive_prefix_of_touches hunlinked htouches
  refine not_overlaps_of_kept hvalid hinactive hkept (.inr ?_)
  exact List.prefix_or_prefix_of_prefix ((List.prefix_append _ _).trans hext)
    (List.prefix_append base rest)

/-- In every run, the trees of the active slot and of the persistent state stay as they are, if the
directory of the generations is no link. -/
theorem active_slot_untouched
    (hunlinked : ∀ generations, tx.Generations generations → tx.site.linked generations = false)
    {base : Path} (hkept : tx.Kept base) (disk : Disk) (events : List Event) (rest : Path) :
    (Run.run (step digest tx) disk events).tree.entry (base ++ rest) =
      disk.tree.entry (base ++ rest) :=
  agreeOff_run disk events _ (not_touches_of_kept hunlinked hkept rest)

theorem active_slot_untouched_fixture : fixtureTransaction.Kept ["srv", "a"] ∧
    ∀ rest : Path, (Run.run (step fixtureDigest fixtureTransaction) fixtureDisk
      fixtureEvents).tree.entry (["srv", "a"] ++ rest) =
        fixtureDisk.tree.entry (["srv", "a"] ++ rest) := by
  have hunlinked : ∀ generations, fixtureTransaction.Generations generations →
      fixtureTransaction.site.linked generations = false := fun _ _ ↦ rfl
  have hkept : fixtureTransaction.Kept ["srv", "a"] := .inl ⟨.A, by decide +kernel⟩
  refine ⟨hkept, fun rest ↦ ?_⟩
  apply active_slot_untouched hunlinked hkept

end Cameo.Update.Simulator
