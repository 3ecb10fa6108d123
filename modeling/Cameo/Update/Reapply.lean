import Cameo.Update.Snapshot

/-!
# Applying a manifest again

A snapshot needs a file that is not there, and the file is named by the hash of the manifest.  The
snapshot of an earlier transaction is never removed, so once a transaction of a manifest has taken
it, no later one can.  Otherwise a manifest can be applied again as long as the checks of `apply`
pass, one of which is that the journal on record is not larger than 1 MiB.
-/

namespace Cameo.Update

open Json Library Library.Durable Library.Durable.Program Store

variable {σ β : Type} {sha : Sha256 β} {ops : HostOperations σ β}

/-- The operations of an update succeed on hosts of a kind and leave such a host, where a snapshot
needs a file that is not there. -/
structure HostOperations.Able (ops : HostOperations σ β) (able : σ → Prop) : Prop where
  identify : ∀ layout host, able host → ops.identify layout host = .ok ()
  preflight : ∀ layout manifest slot host, able host → ∃ u,
    (ops.preflight layout manifest slot host).1 = .ok u ∧
      able (ops.preflight layout manifest slot host).2
  drain : ∀ host, able host → ∃ u, (ops.drain host).1 = .ok u ∧ able (ops.drain host).2
  snapshotState : ∀ name backups host, able host → backups.get? name = none → ∃ hash,
    (ops.snapshotState name backups host).1 = .ok hash ∧
      able (ops.snapshotState name backups host).2.2
  writeInactive : ∀ layout manifest bundle slot host, able host → ∃ generation,
    (ops.writeInactive layout manifest bundle slot host).1 = .ok generation ∧
      able (ops.writeInactive layout manifest bundle slot host).2
  stageBootTrial : ∀ layout manifest slot generation host, able host → ∃ entry,
    (ops.stageBootTrial layout manifest slot generation host).1 = .ok entry ∧
      able (ops.stageBootTrial layout manifest slot generation host).2
  installedStateSupport : ∀ host, able host → ∃ installed support,
    ops.installedStateSupport host = .ok installed ∧
      validateStateSupport installed true = .ok support
  persistentStateSchema : ∀ host, able host → ∃ recorded persistent,
    ops.persistentStateSchema host = .ok recorded ∧
      validateStateSupport recorded false = .ok persistent

/-- The manifest was accepted by an `apply` of a history, which has recorded its journal. -/
def Begun (sha : Sha256 β) (start : World σ β) (events : List (Event σ β)) (manifest : Document) :
    Prop :=
  ∃ early ops bundle manifestPath steps late prior target,
    events = early ++ .issue (.apply ops bundle manifestPath manifest) (steps + 1) :: late ∧
      Ready ops manifestPath manifest (reached sha start early) prior target

/-- The release of a manifest can read the state in the recorded schema. -/
def ReadsRecorded (ops : HostOperations σ β) (host : σ) (manifest : Document) : Prop :=
  ∀ recorded persistent target, ops.persistentStateSchema host = .ok recorded →
    validateStateSupport recorded false = .ok persistent →
    stateSupportFromManifest manifest.value = .ok target → persistent.writes ∈ target.reads

def ReachesTrial (sha : Sha256 β) (ops : HostOperations σ β) (bundle manifestPath : String)
    (manifest : Document) (world : World σ β) : Prop :=
  ∃ journal after, (apply sha ops bundle manifestPath manifest).Runs world journal after ∧
    after.journal = some journal ∧ journal.phase = .bootTrial

/-! ## Updates that come to their trial -/

section Trial

variable {disk : Disk β} {able : σ → Prop} {world : World σ β} {bundle manifestPath : String}
  {manifest : Document}

/-- The next phase is recorded. -/
theorem ends_advance_next {journal : Journal} {phase : Phase}
    (hnext : phase.index = journal.phase.index + 1) :
    Ends (At disk able) (advance journal phase true : Program (World σ β) Journal)
      fun updated world ↦ updated.phase = phase ∧
        At { disk with journal := some updated } able world :=
  (ends_advance fun _ ↦ hnext).weaken (fun _ hworld ↦ hworld) fun updated world hended ↦ by
    obtain ⟨rfl, hworld⟩ := hended
    exact ⟨rfl, hworld⟩

/-- The trial is staged when the inactive slot was written. -/
theorem ends_advance_trial {journal : Journal} (hphase : journal.phase = .inactiveWritten) :
    Ends (At disk able) (advance journal .bootTrial true : Program (World σ β) Journal)
      fun updated world ↦ world.journal = some updated ∧ updated.phase = .bootTrial :=
  (ends_advance_next (by rw [hphase]; rfl)).weaken (fun _ hworld ↦ hworld)
    fun updated world hended ↦ ⟨congrArg Disk.journal hended.2.1, hended.1⟩

/-- A snapshot is taken, and something is on the disk then. -/
theorem ends_snapshotState (hable : ops.Able able) {name : String}
    (habsent : disk.backups.get? name = none) :
    Ends (At disk able) (snapshotState ops name) fun _ world ↦ At world.disk able world := by
  refine ends_perform fun world hworld ↦ ?_
  obtain ⟨rfl, hhost⟩ := hworld
  obtain ⟨hash, hok, hafter⟩ := hable.snapshotState name world.backups world.host hhost habsent
  exact ⟨hash, hok, rfl, hafter⟩

/-- Once its checks have passed, an update comes to its trial if no snapshot has its name. -/
theorem reachesTrial_of_ready (hable : ops.Able able) {prior target : StateSupport}
    (hready : Ready ops manifestPath manifest world prior target) (hhost : able world.host)
    (habsent : world.backups.get? (backupName sha manifest) = none) :
    ReachesTrial sha ops bundle manifestPath manifest world := by
  have hends : Ends (· = world) (apply sha ops bundle manifestPath manifest)
      fun journal after ↦ after.journal = some journal ∧ journal.phase = .bootTrial := by
    refine ends_bind (fun found passed ↦
      found = (world.layout.value, firstJournal sha manifest world prior target) ∧
        At world.disk able passed) ?_ fun found ↦ ends_of_fact ?_
    · rintro passed rfl
      exact ⟨_, passed, runs_prepare.mpr ⟨prior, target, hready, rfl, rfl⟩, rfl, rfl, hhost⟩
    · rintro rfl
      have hverified : (firstJournal sha manifest world prior target).phase = .verified := rfl
      dsimp only
      generalize firstJournal sha manifest world prior target = first at hverified ⊢
      refine ends_bind _ ends_writeJournal fun _ ↦ ?_
      refine ends_bind _ (ends_call (hable.preflight _ _ _)) fun _ ↦ ?_
      refine ends_bind _ (ends_advance_next (by rw [hverified]; rfl)) fun journal ↦ ends_of_fact ?_
      intro hphase
      refine ends_bind _ (ends_call hable.drain) fun _ ↦ ?_
      refine ends_bind _ (ends_advance_next (by rw [hphase]; rfl)) fun journal ↦ ends_of_fact ?_
      intro hphase
      refine ends_bind _ (ends_snapshotState hable habsent) fun hash passed hpassed ↦ ?_
      -- nothing more is asked of the disk than that the phases are recorded on it
      generalize passed.disk = disk at hpassed
      refine (?_ : Ends (At disk able) _ _) passed hpassed
      refine ends_bind _ (ends_advance_next (by dsimp only; rw [hphase]; rfl)) fun journal ↦
        ends_of_fact ?_
      intro hphase
      refine ends_bind _ (ends_call (hable.writeInactive _ _ _ _)) fun generation ↦ ?_
      refine ends_bind _ (ends_advance_next (by dsimp only; rw [hphase]; rfl)) fun journal ↦
        ends_of_fact ?_
      intro hphase
      refine ends_bind _ (ends_call (hable.stageBootTrial _ _ _ _)) fun entry ↦ ?_
      exact ends_advance_trial hphase
  obtain ⟨journal, after, hruns, hafter⟩ := hends world rfl
  exact ⟨journal, after, hruns, hafter⟩

/-- An update that comes to its trial has passed its checks. -/
theorem ReachesTrial.ready (h : ReachesTrial sha ops bundle manifestPath manifest world) :
    ∃ prior target, Ready ops manifestPath manifest world prior target := by
  obtain ⟨journal, after, hruns, -⟩ := h
  obtain ⟨found, middle, hprepare, -⟩ := runs_bind.mp hruns
  obtain ⟨prior, target, hready, -⟩ := runs_prepare.mp hprepare
  exact ⟨prior, target, hready⟩

/-- An update that comes to its trial has taken a snapshot. -/
theorem ReachesTrial.snapshot (h : ReachesTrial sha ops bundle manifestPath manifest world) :
    ∃ host hash saved after, ops.snapshotState (backupName sha manifest) world.backups host =
      (.ok hash, saved, after) := by
  obtain ⟨prior, target, hready⟩ := h.ready
  obtain ⟨journal, after, hruns, hrecorded, hphase⟩ := h
  have hcourses : Courses world.disk (apply sha ops bundle manifestPath manifest)
      (fun passed ↦ passed = world.disk ∨
        ∃ first, Applying sha ops manifest world.disk first passed)
      fun _ _ ↦ True := courses_apply fun first passed _ happlying ↦ .inr ⟨first, happlying⟩
  rcases hcourses.stops (.inl rfl) rfl after hruns.mem_stops with hsame | ⟨first, happlying⟩
  · have hover := hready.ended journal ((congrArg Disk.journal hsame).symm.trans hrecorded)
    rw [hphase] at hover
    cases hover
  · generalize hdisk : after.disk = disk at happlying
    have hjournal : disk.journal = some journal := by
      rw [← hdisk]
      exact hrecorded
    cases happlying with
    | early phase hearly =>
      cases hjournal
      rw [show phase = .bootTrial from hphase] at hearly
      exact absurd hearly (by decide)
    | snapshot host =>
      cases hjournal
      cases hphase
    | saved hash backups found hsaved hfound =>
      obtain ⟨host, last, hsaved⟩ := hsaved
      exact ⟨host, hash, backups, last, hsaved⟩

end Trial

/-- In every world that a history of commands reaches when the transaction on record is over, a
manifest of an earlier transaction, applied with the Linux adapter, comes to its trial if and only
if no snapshot of its name is there, the layout's active slot is booted, its release can read the
recorded schema, and the journal on record is not too large. -/
theorem reapply_reaches_trial_iff {codec : Codec} {sha : Sha256 FileData} {saving : BackupIo}
    {restoring : RestoreIo} {base : HostOperations (LinuxHost σ) FileData}
    {able : LinuxHost σ → Prop}
    (hable : (linuxOperations codec sha saving restoring base).Able able)
    (start : World (LinuxHost σ) FileData) (hstart : start.journal = none)
    (events : List (Event (LinuxHost σ) FileData))
    (hlawful : ∀ event ∈ events, event.Lawful sha) (manifest : Document)
    (hbegun : Begun sha start events manifest) (journal : Journal)
    (hrecorded : (reached sha start events).journal = some journal)
    (hterminal : journal.phase.isTerminal = true) (hhost : able (reached sha start events).host)
    (bundle manifestPath : String) :
    ReachesTrial sha (linuxOperations codec sha saving restoring base) bundle manifestPath manifest
        (reached sha start events) ↔
      (reached sha start events).backups.get? (backupName sha manifest) = none ∧
      activeSlot (reached sha start events).layout.value = some (reached sha start events).booted ∧
      ReadsRecorded (linuxOperations codec sha saving restoring base)
        (reached sha start events).host manifest ∧ journal.size ≤ maxJsonBytes := by
  have hsound := sound_reached hlawful (fun found hfound ↦ by cases hstart.symm.trans hfound)
  have hconsistent := hsound journal hrecorded
  have hchecked : journal.phase ≠ .healthChecked := fun hphase ↦ by
    rw [hphase] at hterminal
    cases hterminal
  have hlayout : LayoutReads (reached sha start events).layout :=
    ⟨hconsistent.size hchecked, hconsistent.valid⟩
  clear hconsistent hsound
  generalize reached sha start events = world at hrecorded hhost hlayout ⊢
  constructor
  · intro htrial
    obtain ⟨prior, target, hready⟩ := htrial.ready
    obtain ⟨host, hash, saved, after, hsnapshot⟩ := htrial.snapshot
    obtain ⟨recorded, persistent, hasked, hpersistent, hreads⟩ := hready.persistent
    obtain ⟨hanswer, hsaved⟩ := Prod.mk.inj hsnapshot
    refine ⟨(LinuxOperations.snapshotState_eq_ok (Prod.ext hanswer rfl)).1, hready.active, ?_,
      hready.sizes journal hrecorded⟩
    intro recorded' persistent' target' hasked' hpersistent' htarget'
    cases hasked.symm.trans hasked'
    cases hpersistent.symm.trans hpersistent'
    cases hready.target.symm.trans htarget'
    exact hreads
  · rintro ⟨habsent, hactive, hreads, hsize⟩
    obtain ⟨_, _, _, _, _, _, _, target, -, hready⟩ := hbegun
    obtain ⟨installed, prior, hinstalled, hprior⟩ := hable.installedStateSupport _ hhost
    obtain ⟨recorded, persistent, hasked, hpersistent⟩ := hable.persistentStateSchema _ hhost
    have hschema : loadJson manifestPath "cameo-update/v1" manifest = .ok () :=
      loadJson_eq_ok.mpr (loadJson_eq_ok.mp hready.schema)
    have hsizes : ∀ found ∈ world.journal, found.size ≤ maxJsonBytes := by
      intro found hfound
      cases hrecorded.symm.trans hfound
      exact hsize
    have hover : ∀ found ∈ world.journal, found.phase.isTerminal = true := by
      intro found hfound
      cases hrecorded.symm.trans hfound
      exact hterminal
    have hreadable := hreads recorded persistent target hasked hpersistent hready.target
    have hagain : Ready (linuxOperations codec sha saving restoring base) manifestPath manifest
        world prior target :=
      ⟨hsizes, hover, hlayout, hschema, hready.valid, ⟨installed, hinstalled, hprior⟩,
        hready.target, ⟨recorded, persistent, hasked, hpersistent, hreadable⟩,
        hable.identify _ _ hhost, hactive⟩
    exact reachesTrial_of_ready hable hagain hhost habsent

/-- A snapshot of the Linux adapter is the file whose hash it returns. -/
theorem linuxOperations_lawful {codec : Codec} {sha : Sha256 FileData} {saving : BackupIo}
    {restoring : RestoreIo} {base : HostOperations (LinuxHost σ) FileData}
    (hentry : ∀ layout manifest slot generation host entry after,
      base.stageBootTrial layout manifest slot generation host = (.ok entry, after) →
        stripsEmpty entry = false) :
    (linuxOperations codec sha saving restoring base).Lawful sha where
  snapshot name backups host hash saved after h := by
    obtain ⟨hanswer, hrest⟩ := Prod.mk.inj h
    obtain ⟨hsaved, -⟩ := Prod.mk.inj hrest
    obtain ⟨-, file, -, rfl, rfl⟩ := LinuxOperations.snapshotState_eq_ok (Prod.ext hanswer hsaved)
    rw [Ordered.Map.get?_insert, if_pos rfl]
    rfl
  entry := hentry

/-- The Linux adapter on a host whose other operations succeed; the rest of the host is the recorded
schema. -/
def fixtureLinux : HostOperations (LinuxHost Value) FileData :=
  linuxOperations .constant fixtureFileSha .ok (.ok "01")
    { steady with
      stageBootTrial := fun _ _ slot _ host ↦ (.ok ("cameo-" ++ slot.label ++ "+3"), host)
      installedStateSupport := fun _ ↦ .ok fixtureMachine.installed
      persistentStateSchema := fun host ↦ .ok host.rest
      recordPersistentSchema := fun writes host ↦
        (.ok (), { host with rest := schemaRecord writes }) }

/-- A host with one endpoint, whose state is in the schema that the fixture's release writes. -/
def fixtureHost : LinuxHost Value := ⟨some fixtureEndpoints, schemaRecord 3⟩

def fixtureInstalled : World (LinuxHost Value) FileData where
  layout := fixtureLayout
  journal := none
  backups := .empty
  booted := .A
  host := fixtureHost

/-- The fixture's update was cut off after a number of steps and recovered from. -/
def fixtureAbandoned (steps : ℕ) : List (Event (LinuxHost Value) FileData) :=
  [.issue (.apply fixtureLinux "/bundle" "/bundle/manifest.json" fixtureManifest) steps,
    .issue (.recover fixtureLinux) 100]

theorem fixtureLinux_lawful : fixtureLinux.Lawful fixtureFileSha :=
  linuxOperations_lawful fun layout manifest slot generation host entry after h ↦ by
    cases h
    cases slot <;> decide

/-- The endpoints can be exported, and the recorded schema is the one that the release writes. -/
def LinuxHost.Ordinary (host : LinuxHost Value) : Prop :=
  (LinuxOperations.exportState .constant .ok host.endpoints).1 = .ok () ∧ host.rest = schemaRecord 3

instance (host : LinuxHost Value) : Decidable host.Ordinary := inferInstanceAs (Decidable (_ ∧ _))

theorem fixtureLinux_able : fixtureLinux.Able LinuxHost.Ordinary where
  identify _ _ _ := rfl
  preflight _ _ _ _ hhost := ⟨(), rfl, hhost⟩
  drain _ hhost := ⟨(), rfl, hhost⟩
  snapshotState name backups host hhost habsent := by
    obtain ⟨file, hexport⟩ := LinuxOperations.exportState_of_ok hhost.1
    exact ⟨fixtureFileSha.file file,
      congrArg Prod.fst (LinuxOperations.snapshotState_of_absent habsent hexport), hhost⟩
  writeInactive _ _ _ _ _ hhost := ⟨_, rfl, hhost⟩
  stageBootTrial _ _ _ _ _ hhost := ⟨_, rfl, hhost⟩
  installedStateSupport _ _ := ⟨_, _, rfl, rfl⟩
  persistentStateSchema host hhost := by
    obtain ⟨-, hrest⟩ := hhost
    exact ⟨schemaRecord 3, _, congrArg Except.ok hrest, rfl⟩

theorem fixtureManifest_begun (steps : ℕ) :
    Begun fixtureFileSha fixtureInstalled (fixtureAbandoned (steps + 1)) fixtureManifest := by
  have hprepare : (prepare fixtureFileSha fixtureLinux "/bundle/manifest.json" fixtureManifest
      fixtureInstalled).result.toOption.isSome = true := by decide
  cases hresult : (prepare fixtureFileSha fixtureLinux "/bundle/manifest.json" fixtureManifest
      fixtureInstalled).result with
  | error e => rw [hresult] at hprepare; cases hprepare
  | ok found =>
    obtain ⟨prior, target, hready, -⟩ := runs_prepare.mp (runs_of_ok hresult)
    exact ⟨[], fixtureLinux, "/bundle", "/bundle/manifest.json", steps,
      [.issue (.recover fixtureLinux) 100], prior, target, rfl, hready⟩

theorem fixtureLinux_readsRecorded {host : LinuxHost Value} (h : host.Ordinary) :
    ReadsRecorded fixtureLinux host fixtureManifest := by
  intro recorded persistent target hrecorded hpersistent htarget
  have hwrites : (validateStateSupport (schemaRecord 3) false).toOption.map StateSupport.writes =
      some 3 := by decide
  have hreads : (stateSupportFromManifest fixtureManifest.value).toOption.map StateSupport.reads =
      some [3, 4] := by decide
  obtain rfl : host.rest = recorded := Except.ok.inj hrecorded
  rw [h.2] at hpersistent
  rw [hpersistent] at hwrites
  rw [htarget] at hreads
  rw [show persistent.writes = 3 from Option.some.inj hwrites,
    show target.reads = [3, 4] from Option.some.inj hreads]
  decide

theorem fixtureAbandoned_lawful (steps : ℕ) :
    ∀ event ∈ fixtureAbandoned steps, event.Lawful fixtureFileSha := by
  intro event hmem
  rcases List.mem_pair.mp hmem with rfl | rfl
  · exact fixtureLinux_lawful
  · exact fixtureLinux_lawful

/-- An update that was given up before its snapshot can be applied again. -/
theorem reapply_reaches_trial_fixture :
    ReachesTrial fixtureFileSha fixtureLinux "/bundle" "/bundle/manifest.json" fixtureManifest
      (reached fixtureFileSha fixtureInstalled (fixtureAbandoned 2)) := by
  have hrun : (reached fixtureFileSha fixtureInstalled (fixtureAbandoned 2)).journal.map
        Journal.phase = some .rolledBack ∧
      (reached fixtureFileSha fixtureInstalled (fixtureAbandoned 2)).host.Ordinary ∧
      ((reached fixtureFileSha fixtureInstalled (fixtureAbandoned 2)).backups.get?
        (backupName fixtureFileSha fixtureManifest)).isNone = true ∧
      activeSlot (reached fixtureFileSha fixtureInstalled (fixtureAbandoned 2)).layout.value =
        some (reached fixtureFileSha fixtureInstalled (fixtureAbandoned 2)).booted := by
    decide +kernel
  have hsize : ∀ journal ∈ (reached fixtureFileSha fixtureInstalled (fixtureAbandoned 2)).journal,
      journal.size ≤ maxJsonBytes := by
    decide +kernel
  obtain ⟨hphase, hhost, habsent, hbooted⟩ := hrun
  cases hrecorded : (reached fixtureFileSha fixtureInstalled (fixtureAbandoned 2)).journal with
  | none => rw [hrecorded] at hphase; cases hphase
  | some journal =>
    rw [hrecorded] at hphase
    have hphase : journal.phase = .rolledBack := Option.some.inj hphase
    refine (reapply_reaches_trial_iff fixtureLinux_able fixtureInstalled rfl (fixtureAbandoned 2)
      (fixtureAbandoned_lawful 2) fixtureManifest (fixtureManifest_begun 1) journal hrecorded
      (by rw [hphase]; rfl) hhost "/bundle" "/bundle/manifest.json").mpr ?_
    exact ⟨Option.isNone_iff_eq_none.mp habsent, hbooted, fixtureLinux_readsRecorded hhost,
      hsize journal hrecorded⟩

/-- An update that was given up after its snapshot cannot be applied again, although it ended in
`rolled_back` and nothing but the old snapshot is in the way. -/
theorem reapply_refused :
    (reached fixtureFileSha fixtureInstalled (fixtureAbandoned 7)).journal.map Journal.phase =
      some .rolledBack ∧
    (reached fixtureFileSha fixtureInstalled (fixtureAbandoned 7)).host.Ordinary ∧
    fixtureLinux.Able LinuxHost.Ordinary ∧
    (apply fixtureFileSha fixtureLinux "/bundle" "/bundle/manifest.json" fixtureManifest
      (reached fixtureFileSha fixtureInstalled (fixtureAbandoned 7))).result =
        .error "command failed (1): cameod " := by
  refine ⟨?_, ?_, fixtureLinux_able, ?_⟩
  · decide +kernel
  · decide +kernel
  · decide +kernel

end Cameo.Update
