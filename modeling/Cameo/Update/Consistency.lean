import Cameo.Library.Run
import Cameo.Update.Courses

/-!
# The journal, the layout and the backup

What the three files have to do with each other on every disk that a history of commands reaches,
cut off anywhere.  The journal is bound to the layout by one hash, or by two while a healthy trial
is being committed.  In that phase a rollback replaces the layout before it replaces the journal, so
a third layout can be found there, which the journal does not know of.
-/

namespace Cameo.Update

open Json Library Library.Durable Library.Durable.Program

variable {σ β : Type}

/-- What is expected of an adapter: its snapshot is the file whose hash it returns, and the boot
entries it makes have names. -/
structure HostOperations.Lawful (sha : Sha256 β) (ops : HostOperations σ β) : Prop where
  snapshot : ∀ name backups host hash saved after,
    ops.snapshotState name backups host = (.ok hash, saved, after) →
      (saved.get? name).map sha.file = some hash
  entry : ∀ layout manifest slot generation host entry after,
    ops.stageBootTrial layout manifest slot generation host = (.ok entry, after) →
      stripsEmpty entry = false

/-- The backup that the journal names is there, with the hash it names. -/
def Evidence (sha : Sha256 β) (backups : Ordered.Map String β) (journal : Journal) : Prop :=
  ∃ name hash, journal.stateBackup = some name ∧ journal.stateBackupSha256 = some hash ∧
    (backups.get? name).map sha.file = some hash

/-- A commit has prepared the promoted layout from one with the prior slot active.  The layout file
is one of these two, or what an unfinished rollback has made of the second. -/
def Prepared (sha : Sha256 β) (layout : Document) (journal : Journal) : Prop :=
  ∃ base name, LayoutOk base.value ∧ activeSlot base.value = some journal.priorHealthySlot ∧
    sha.document base = journal.layoutSha256 ∧ journal.bootEntry = some name ∧
    journal.nextLayout = some (promoted base.value journal.inactiveSlot (some name)) ∧
    journal.nextLayoutSha256 =
      some (sha.document (jsonBytes (promoted base.value journal.inactiveSlot (some name)))) ∧
    (layout = base ∨ layout = jsonBytes (promoted base.value journal.inactiveSlot (some name)) ∨
      layout = jsonBytes (withActive (promoted base.value journal.inactiveSlot (some name))
        journal.priorHealthySlot))

/-- A journal that goes with the files of a disk. -/
structure Consistent (sha : Sha256 β) (disk : Disk β) (journal : Journal) : Prop where
  inactive : journal.inactiveSlot = journal.priorHealthySlot.other
  valid : LayoutOk disk.layout.value
  size : journal.phase ≠ .healthChecked → disk.layout.size ≤ maxJsonBytes
  early : journal.phase.index < Phase.stateSaved.index → journal.stateBackup = none
  evidence : Phase.stateSaved.index ≤ journal.phase.index → journal.phase ≠ .rolledBack →
    Evidence sha disk.backups journal
  entry : Phase.bootTrial.index ≤ journal.phase.index → journal.phase ≠ .rolledBack →
    ∃ name, journal.bootEntry = some name ∧ stripsEmpty name = false
  bound : journal.phase ≠ .healthChecked → journal.phase ≠ .rolledBack →
    sha.document disk.layout = journal.layoutSha256
  active : journal.phase.index ≤ Phase.bootTrial.index →
    activeSlot disk.layout.value = some journal.priorHealthySlot
  unprepared : journal.phase.index ≤ Phase.bootTrial.index →
    journal.nextLayout = none ∧ journal.nextLayoutSha256 = none
  prepared : journal.phase = .healthChecked → Prepared sha disk.layout journal

/-- The journal, if there is one, goes with the files. -/
def Sound (sha : Sha256 β) (disk : Disk β) : Prop :=
  ∀ journal, disk.journal = some journal → Consistent sha disk journal

variable {sha : Sha256 β}

/-! ## What the journal accepts -/

section Accepting

variable {journal : Journal} {layout : Document}

theorem checkEvidence_eq_ok {backups : Ordered.Map String β} {u : Unit} :
    checkEvidence sha journal backups = .ok u ↔
      journal.phase.index < Phase.stateSaved.index ∨ Evidence sha backups journal := by
  unfold checkEvidence Evidence
  split
  · rename_i hearly
    exact ⟨fun _ ↦ .inl hearly, fun _ ↦ rfl⟩
  · rename_i hlate
    split
    · rename_i name hash hname hhash
      rw [ensure_eq_ok, hname, hhash]
      constructor
      · exact fun hfile ↦ .inr ⟨name, hash, rfl, rfl, hfile⟩
      · rintro (hearly | ⟨_, _, hname', hhash', hfile⟩)
        · exact absurd hearly hlate
        · cases hname'
          cases hhash'
          exact hfile
    · rename_i hmissing
      constructor
      · intro herror
        cases herror
      · rintro (hearly | ⟨name, hash, hname, hhash, -⟩)
        · exact absurd hearly hlate
        · exact absurd hhash (hmissing name hash hname)

/-- Outside a commit one layout is accepted. -/
theorem accepts_iff (hphase : journal.phase ≠ .healthChecked) :
    Accepts sha journal layout ↔ sha.document layout = journal.layoutSha256 := by
  unfold Accepts acceptedLayouts
  rw [if_neg hphase]
  constructor
  · rintro ⟨_, hhashes, hmem⟩
    cases hhashes
    exact List.mem_singleton.mp hmem
  · exact fun heq ↦ ⟨_, rfl, List.mem_singleton.mpr heq⟩

/-- In a commit two layouts are accepted. -/
theorem accepts_iff_of_prepared (hphase : journal.phase = .healthChecked) {next : Value}
    (hnext : journal.nextLayout = some next)
    (hhash : journal.nextLayoutSha256 = some (sha.document (jsonBytes next))) :
    Accepts sha journal layout ↔ sha.document layout = journal.layoutSha256 ∨
      sha.document layout = sha.document (jsonBytes next) := by
  unfold Accepts acceptedLayouts
  rw [if_pos hphase, hnext]
  dsimp only
  rw [hhash, if_pos rfl]
  constructor
  · rintro ⟨_, hhashes, hmem⟩
    cases hhashes
    simpa using hmem
  · exact fun heq ↦ ⟨_, rfl, by simpa using heq⟩

end Accepting

/-! ## Layouts of a commit -/

section Layouts

variable {layout : Value} {prior : Slot} {name : String}

/-- The prior slot keeps its boot entry in the promoted layout. -/
theorem bootEntry_promoted_prior (h : LayoutOk layout) (hactive : activeSlot layout = some prior) :
    (bootEntry (promoted layout prior.other (some name)) prior).isSome = true := by
  have hboot := h.bootable
  rw [hactive, Option.bind_some] at hboot
  rw [bootEntry, slotEntry_promoted_of_ne h.isObject prior.other_ne]
  exact hboot

theorem layoutOk_reset (h : LayoutOk layout) (hactive : activeSlot layout = some prior)
    (hname : stripsEmpty name = false) :
    LayoutOk (withActive (promoted layout prior.other (some name)) prior) :=
  (h.promoted hname).withActive (bootEntry_promoted_prior h hactive)

end Layouts

theorem Prepared.next_eq {document : Document} {journal : Journal}
    (h : Prepared sha document journal) :
    ∃ base name, LayoutOk base.value ∧ activeSlot base.value = some journal.priorHealthySlot ∧
      sha.document base = journal.layoutSha256 ∧ journal.bootEntry = some name ∧
      journal.nextLayout = some journal.next ∧
      journal.nextLayoutSha256 = some (sha.document (jsonBytes journal.next)) ∧
      journal.next = promoted base.value journal.inactiveSlot (some name) ∧
      (document = base ∨ document = jsonBytes journal.next ∨
        document = jsonBytes (withActive journal.next journal.priorHealthySlot)) := by
  obtain ⟨base, name, hbase, hactive, hsha, hname, hnext, hhash, hlayout⟩ := h
  have heq : journal.next = promoted base.value journal.inactiveSlot (some name) := by
    rw [Journal.next, hnext, Option.getD_some, if_pos (activeSlot_promoted hbase.isObject)]
  refine ⟨base, name, hbase, hactive, hsha, hname, ?_, ?_, heq, ?_⟩
  · rw [heq, hnext]
  · rw [heq, hhash]
  · rw [heq]
    exact hlayout

/-! ## The steps of the commands -/

namespace Consistent

variable {disk : Disk β} {journal : Journal}

/-- The journal goes with every disk that has the same layout and backups. -/
theorem congr (h : Consistent sha disk journal) {other : Disk β}
    (hlayout : other.layout = disk.layout) (hbackups : other.backups = disk.backups) :
    Consistent sha other journal := by
  refine ⟨h.inactive, ?_, ?_, h.early, ?_, h.entry, ?_, ?_, h.unprepared, ?_⟩
  · rw [hlayout]
    exact h.valid
  · rw [hlayout]
    exact h.size
  · rw [hbackups]
    exact h.evidence
  · rw [hlayout]
    exact h.bound
  · rw [hlayout]
    exact h.active
  · rw [hlayout]
    exact h.prepared

/-- Whichever slot is booted, it belongs to the transaction. -/
theorem slot (h : Consistent sha disk journal) (slot : Slot) :
    slot = journal.priorHealthySlot ∨ slot = journal.inactiveSlot := by
  by_cases hprior : slot = journal.priorHealthySlot
  · exact .inl hprior
  · rw [h.inactive]
    exact .inr (Slot.eq_other_of_ne hprior)

/-- A journal that was just begun. -/
theorem of_begins {manifest : Document} (h : Begins sha manifest disk journal) {phase : Phase}
    (hphase : phase.index < Phase.stateSaved.index) (backups : Ordered.Map String β)
    (found : Option Journal) :
    Consistent sha { disk with journal := found, backups := backups }
      { journal with phase := phase } := by
  obtain ⟨prior, target, rfl⟩ := h.first
  have hlate : ¬ Phase.stateSaved.index ≤ phase.index := hphase.not_ge
  refine ⟨rfl, h.layout.valid, fun _ ↦ h.layout.size, fun _ ↦ rfl,
    fun hindex ↦ absurd hindex hlate, fun hindex ↦ ?_, fun _ _ ↦ rfl, fun _ ↦ h.active,
    fun _ ↦ ⟨rfl, rfl⟩, fun hchecked ↦ ?_⟩
  · exact absurd (le_trans (by decide) hindex) hlate
  · rw [show phase = .healthChecked from hchecked] at hlate
    exact absurd (by decide) hlate

/-- A journal that has recorded its backup. -/
theorem of_saved {manifest : Document} (h : Begins sha manifest disk journal)
    {backups : Ordered.Map String β} {name hash : String}
    (hsaved : (backups.get? name).map sha.file = some hash) {phase : Phase}
    (hphase : phase = .stateSaved ∨ phase = .inactiveWritten ∨ phase = .bootTrial)
    (generation : Option String) {entry : Option String}
    (hentry : phase = .bootTrial → ∃ name, entry = some name ∧ stripsEmpty name = false)
    (found : Option Journal) :
    Consistent sha { disk with journal := found, backups := backups }
      { journal.saved name hash with
        phase := phase, generation := generation, bootEntry := entry } := by
  obtain ⟨prior, target, rfl⟩ := h.first
  have hlate : Phase.stateSaved.index ≤ phase.index := by
    rcases hphase with rfl | rfl | rfl <;> decide
  have htrial : Phase.bootTrial.index ≤ phase.index → phase = .bootTrial := by
    rcases hphase with rfl | rfl | rfl <;> decide
  have hne : phase ≠ .healthChecked := by
    rcases hphase with rfl | rfl | rfl <;> decide
  exact ⟨rfl, h.layout.valid, fun _ ↦ h.layout.size, fun hindex ↦ absurd hlate hindex.not_ge,
    fun _ _ ↦ ⟨name, hash, rfl, rfl, hsaved⟩, fun hindex _ ↦ hentry (htrial hindex),
    fun _ _ ↦ rfl, fun _ ↦ h.active, fun _ ↦ ⟨rfl, rfl⟩, fun hchecked ↦ absurd hchecked hne⟩

/-- A healthy trial whose promoted layout was prepared. -/
theorem checked (h : Consistent sha disk journal) (hcommit : Committable disk journal)
    (found : Option Journal) :
    Consistent sha { disk with journal := found } (journal.checked sha disk.layout) ∧
      (journal.checked sha disk.layout).phase = .healthChecked := by
  by_cases hphase : journal.phase = .bootTrial
  · have hevidence := h.evidence (by rw [hphase]; decide) (by rw [hphase]; decide)
    have hentry := h.entry (by rw [hphase]) (by rw [hphase]; decide)
    have hbound := h.bound (by rw [hphase]; decide) (by rw [hphase]; decide)
    have hactive := h.active (by rw [hphase])
    have hlate : ¬ Phase.healthChecked.index < Phase.stateSaved.index := by decide
    have hchecked : ¬ Phase.healthChecked.index ≤ Phase.bootTrial.index := by decide
    rw [Journal.checked, if_pos hphase]
    refine ⟨⟨h.inactive, h.valid, fun hne ↦ absurd rfl hne, fun hindex ↦ absurd hindex hlate,
      fun _ _ ↦ hevidence, fun _ _ ↦ hentry, fun hne ↦ absurd rfl hne,
      fun hindex ↦ absurd hindex hchecked, fun hindex ↦ absurd hindex hchecked, fun _ ↦ ?_⟩, rfl⟩
    obtain ⟨name, hname, -⟩ := hentry
    simp only [hname]
    exact ⟨disk.layout, name, h.valid, hactive, hbound, rfl, rfl, rfl, .inl rfl⟩
  · rw [Journal.checked, if_neg hphase]
    exact ⟨h.congr rfl rfl, hcommit.phase.resolve_left hphase⟩

/-- A prepared commit has a valid layout to write, with the trial slot active. -/
theorem next_ok (h : Consistent sha disk journal) (hphase : journal.phase = .healthChecked) :
    LayoutOk journal.next ∧ activeSlot journal.next = some journal.inactiveSlot := by
  obtain ⟨base, name, hbase, -, -, hname, -, -, hnext, -⟩ := (h.prepared hphase).next_eq
  obtain ⟨name', hname', hfilled⟩ := h.entry (by rw [hphase]; decide) (by rw [hphase]; decide)
  cases hname.symm.trans hname'
  rw [hnext]
  exact ⟨hbase.promoted hfilled, activeSlot_promoted hbase.isObject⟩

/-- The layout was replaced by one that is expected there. -/
theorem replaced (h : Consistent sha disk journal) (hphase : journal.phase = .healthChecked)
    {layout : Document} (hvalid : LayoutOk layout.value)
    (hlayout : layout = jsonBytes journal.next ∨
      layout = jsonBytes (withActive journal.next journal.priorHealthySlot))
    (found : Option Journal) :
    Consistent sha { disk with journal := found, layout := layout } journal := by
  refine ⟨h.inactive, hvalid, fun hne ↦ absurd hphase hne, h.early, h.evidence, h.entry,
    fun hne ↦ absurd hphase hne, fun hindex ↦ ?_, h.unprepared, fun _ ↦ ?_⟩
  · rw [hphase] at hindex
    exact absurd hindex (by decide)
  · obtain ⟨base, name, hbase, hactive, hsha, hname, hnextLayout, hhash, hnext, -⟩ :=
      (h.prepared hphase).next_eq
    rw [hnext] at hnextLayout hhash hlayout
    exact ⟨base, name, hbase, hactive, hsha, hname, hnextLayout, hhash, .inr hlayout⟩

theorem written (h : Consistent sha disk journal) (hphase : journal.phase = .healthChecked)
    (found : Option Journal) :
    Consistent sha { disk with journal := found, layout := jsonBytes journal.next } journal :=
  h.replaced hphase (h.next_ok hphase).1 (.inl rfl) found

theorem committed (h : Consistent sha disk journal) (hphase : journal.phase = .healthChecked)
    (hsize : (jsonBytes journal.next).size ≤ maxJsonBytes) (found : Option Journal) :
    Consistent sha { disk with journal := found, layout := jsonBytes journal.next }
      (journal.committed sha) := by
  have hlate : ¬ Phase.healthCommitted.index < Phase.stateSaved.index := by decide
  have hover : ¬ Phase.healthCommitted.index ≤ Phase.bootTrial.index := by decide
  refine ⟨h.inactive, (h.next_ok hphase).1, fun _ ↦ hsize, fun hindex ↦ absurd hindex hlate,
    fun _ _ ↦ ?_, fun _ _ ↦ ?_, fun _ _ ↦ rfl, fun hindex ↦ absurd hindex hover,
    fun hindex ↦ absurd hindex hover, fun hchecked ↦ nomatch hchecked⟩
  · exact h.evidence (by rw [hphase]; decide) (by rw [hphase]; decide)
  · exact h.entry (by rw [hphase]; decide) (by rw [hphase]; decide)

/-- Only a prepared commit can leave the trial slot active. -/
theorem phase_of_active_ne (h : Consistent sha disk journal)
    (hterminal : journal.phase.isTerminal = false)
    (hactive : activeSlot disk.layout.value ≠ some journal.priorHealthySlot) :
    journal.phase = .healthChecked := by
  by_contra hne
  refine hactive (h.active ?_)
  cases hphase : journal.phase with
  | healthChecked => exact absurd hphase hne
  | healthCommitted => rw [hphase] at hterminal; cases hterminal
  | rolledBack => rw [hphase] at hterminal; cases hterminal
  | _ => decide

/-- The layout in which the trial slot is active is the prepared one. -/
theorem layout_of_active_ne (h : Consistent sha disk journal)
    (hphase : journal.phase = .healthChecked)
    (hactive : activeSlot disk.layout.value ≠ some journal.priorHealthySlot) :
    disk.layout = jsonBytes journal.next := by
  obtain ⟨base, name, hbase, hbaseActive, -, -, -, -, hnext, hlayout⟩ :=
    (h.prepared hphase).next_eq
  rcases hlayout with hlayout | hlayout | hlayout
  · rw [hlayout] at hactive
    exact absurd hbaseActive hactive
  · exact hlayout
  · rw [hlayout] at hactive
    exact absurd (activeSlot_withActive (h.next_ok hphase).1.isObject _) hactive

/-- A rollback sets the layout back to one that is expected there. -/
theorem setBack (h : Consistent sha disk journal) (hterminal : journal.phase.isTerminal = false)
    (found : Option Journal) :
    Consistent sha { disk with journal := found, layout := setBack journal disk.layout }
      journal := by
  unfold Update.setBack
  split
  · exact h.congr rfl rfl
  · rename_i hactive
    have hphase := h.phase_of_active_ne hterminal hactive
    have hlayout := h.layout_of_active_ne hphase hactive
    obtain ⟨base, name, hbase, hbaseActive, -, hname, -, -, hnext, -⟩ :=
      (h.prepared hphase).next_eq
    obtain ⟨name', hname', hfilled⟩ := h.entry (by rw [hphase]; decide) (by rw [hphase]; decide)
    cases hname.symm.trans hname'
    rw [hlayout]
    refine h.replaced hphase ?_ (.inr rfl) found
    change LayoutOk (withActive journal.next journal.priorHealthySlot)
    rw [hnext, h.inactive]
    exact layoutOk_reset hbase hbaseActive hfilled

/-- A rollback leaves the size of the layout as it is. -/
theorem size_setBack (h : Consistent sha disk journal)
    (hterminal : journal.phase.isTerminal = false) :
    (Update.setBack journal disk.layout).size = disk.layout.size := by
  unfold Update.setBack
  split
  · rfl
  · rename_i hactive
    have hphase := h.phase_of_active_ne hterminal hactive
    have hlayout := h.layout_of_active_ne hphase hactive
    obtain ⟨base, name, -, -, -, -, -, -, hnext, -⟩ := (h.prepared hphase).next_eq
    have hlabel : dumpsSize (.string journal.priorHealthySlot.label) =
        dumpsSize (.string journal.inactiveSlot.label) := by
      cases journal.priorHealthySlot <;> cases journal.inactiveSlot <;> decide
    rw [hlayout, hnext]
    calc canonicalSize (withActive (promoted base.value journal.inactiveSlot (some name))
          journal.priorHealthySlot)
        = canonicalSize (withActive (withBootEntry base.value journal.inactiveSlot (some name))
            journal.priorHealthySlot) := by
            rw [promoted, withActive, withActive, Value.set_set]
            rfl
      _ = canonicalSize (promoted base.value journal.inactiveSlot (some name)) :=
          canonicalSize_set_congr "active_slot" hlabel

/-- The layout that a rollback sets back is read. -/
theorem reads_setBack (h : Consistent sha disk journal)
    (hterminal : journal.phase.isTerminal = false) (hsize : disk.layout.size ≤ maxJsonBytes) :
    LayoutReads (Update.setBack journal disk.layout) :=
  ⟨(h.size_setBack hterminal).trans_le hsize, (h.setBack hterminal none).valid⟩

/-- After a rollback only the slots and the layout are of interest. -/
theorem rolledBack {updated : Journal}
    (hinactive : updated.inactiveSlot = updated.priorHealthySlot.other)
    (hreads : LayoutReads disk.layout) : Consistent sha disk updated.rolledBack := by
  have hlate : ¬ Phase.rolledBack.index < Phase.stateSaved.index := by decide
  have hover : ¬ Phase.rolledBack.index ≤ Phase.bootTrial.index := by decide
  exact ⟨hinactive, hreads.valid, fun _ ↦ hreads.size, fun hindex ↦ absurd hindex hlate,
    fun _ hne ↦ absurd rfl hne, fun _ hne ↦ absurd rfl hne, fun _ hne ↦ absurd rfl hne,
    fun hindex ↦ absurd hindex hover, fun hindex ↦ absurd hindex hover,
    fun hchecked ↦ nomatch hchecked⟩

end Consistent

/-! ## Histories -/

section Histories

variable {ops : HostOperations σ β} {disk : Disk β}

/-- What is known of one journal is known of the journal on the disk. -/
theorem Sound.of_consistent {journal : Journal} (hrecorded : disk.journal = some journal)
    (h : Consistent sha disk journal) : Sound sha disk := by
  intro found hfound
  cases hrecorded.symm.trans hfound
  exact h

theorem sound_apply (h : ops.Lawful sha) {bundle manifestPath : String} {manifest : Document} :
    Courses disk (apply sha ops bundle manifestPath manifest) (Sound sha) fun _ _ ↦ True := by
  refine courses_apply fun first passed hbegins happlying ↦ ?_
  cases happlying with
  | early phase hphase =>
    exact .of_consistent rfl (.of_begins hbegins hphase disk.backups _)
  | snapshot host =>
    exact .of_consistent rfl (.of_begins hbegins (by decide) _ _)
  | saved hash backups journal hsaved hjournal =>
    obtain ⟨host, after, hsaved⟩ := hsaved
    have hbackup := h.snapshot _ _ _ _ _ _ hsaved
    have hfirst : first.bootEntry = none ∧ first.generation = none := by
      obtain ⟨prior, target, rfl⟩ := hbegins.first
      exact ⟨rfl, rfl⟩
    refine .of_consistent rfl ?_
    rcases hjournal with rfl | ⟨generation, rfl⟩ | ⟨generation, entry, layout, slot, host, after,
      hentry, rfl⟩
    · exact .of_saved hbegins hbackup (.inl rfl) first.generation (fun hne ↦ nomatch hne) _
    · exact .of_saved hbegins hbackup (.inr (.inl rfl)) generation (fun hne ↦ nomatch hne) _
    · exact .of_saved hbegins hbackup (.inr (.inr rfl)) (some generation)
        (fun _ ↦ ⟨entry, rfl, h.entry _ _ _ _ _ _ _ hentry⟩) _

theorem sound_commit (h : Sound sha disk) :
    Courses disk (commit sha ops) (Sound sha) fun _ _ ↦ True := by
  refine (courses_commit h ?_ ?_).weaken (fun _ h ↦ h) (fun _ _ h ↦ h) fun _ _ _ ↦ trivial
  · intro journal passed hloadable hcommit hpassed
    have hchecked := (h journal hloadable.recorded).checked hcommit
    cases hpassed with
    | checked => exact .of_consistent rfl (hchecked _).1
    | written => exact .of_consistent rfl ((hchecked disk.journal).1.written (hchecked none).2 _)
  · intro journal hloadable hcommit hreads
    obtain ⟨hchecked, hphase⟩ := (h journal hloadable.recorded).checked hcommit disk.journal
    exact .of_consistent rfl (hchecked.committed hphase hreads.size _)

theorem sound_rollback (h : Sound sha disk) :
    Courses disk (rollback sha ops) (Sound sha) fun _ _ ↦ True := by
  refine (courses_rollback h ?_ ?_).weaken (fun _ h ↦ h) (fun _ _ h ↦ h) fun _ _ _ ↦ trivial
  · intro journal hloadable hterminal
    exact .of_consistent hloadable.recorded
      ((h journal hloadable.recorded).setBack hterminal _)
  · intro journal hloadable hterminal hreads
    have hset := (h journal hloadable.recorded).setBack hterminal
      (some (journal.reset sha disk.layout).rolledBack)
    have hinactive : (journal.reset sha disk.layout).inactiveSlot =
        (journal.reset sha disk.layout).priorHealthySlot.other := by
      unfold Journal.reset
      split <;> exact hset.inactive
    exact .of_consistent rfl (.rolledBack hinactive hreads)

theorem sound_recover (h : Sound sha disk) :
    Courses disk (recover sha ops) (Sound sha) fun _ _ ↦ True := by
  refine (courses_recover h ?_).weaken (fun _ h ↦ h) (fun _ _ h ↦ h) fun _ _ _ ↦ trivial
  intro journal hloadable hphase
  have hconsistent := h journal hloadable.recorded
  exact .of_consistent rfl (.rolledBack hconsistent.inactive hloadable.layout)

def Command.operations : Command σ β → HostOperations σ β
  | .apply ops _ _ _ | .commit ops | .rollback ops | .recover ops => ops

/-- The adapter of an event does what is expected of it, if it has one. -/
def Event.Lawful (sha : Sha256 β) : Event σ β → Prop
  | .issue command _ => command.operations.Lawful sha
  | .outside _ _ => True

def reached (sha : Sha256 β) (world : World σ β) (events : List (Event σ β)) : World σ β :=
  Run.run (Event.after sha) world events

theorem sound_event {event : Event σ β} (hlawful : event.Lawful sha) {world : World σ β}
    (h : Sound sha world.disk) : Sound sha (event.after sha world).disk := by
  cases event with
  | issue command steps =>
    have hcourses : Courses world.disk (command.program sha) (Sound sha) fun _ _ ↦ True := by
      cases command with
      | apply ops bundle manifestPath manifest => exact sound_apply hlawful
      | commit ops => exact sound_commit h
      | rollback ops => exact sound_rollback h
      | recover ops => exact sound_recover h
    exact hcourses.stops h rfl _ (Event.after_mem_stops sha world command steps)
  | outside booted host => exact fun journal hrecorded ↦ (h journal hrecorded).congr rfl rfl

/-- On every disk that a history reaches the journal goes with the files. -/
theorem sound_reached {events : List (Event σ β)} (hlawful : ∀ event ∈ events, event.Lawful sha)
    {world : World σ β} (h : Sound sha world.disk) : Sound sha (reached sha world events).disk := by
  induction events generalizing world with
  | nil => exact h
  | cons event events ih =>
    exact ih (fun event hmem ↦ hlawful event (List.mem_cons_of_mem _ hmem))
      (sound_event (hlawful event List.mem_cons_self) h)

end Histories

end Cameo.Update
