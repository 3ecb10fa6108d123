import Cameo.Library.Fallible
import Cameo.Update.Simulator

/-!
# What a step of the A/B transaction changes

Every step of every operation is one of a few changes, power losses included: the journal's next
file appears, the journal moves on, or the tree changes at the directory of the generations and at
the transaction's own entries there.  The last step of `stage` moves the journal on only over a
complete generation.
-/

namespace Cameo.Update.Simulator

open Json Library Library.Durable Library.Durable.Program

variable {digest : List UInt8 → HexDigest} {tx : Transaction}

/-! ## Names -/

theorem length_hex (hex : HexDigest) : hex.text.toList.length = 64 := by
  rw [String.length_toList]
  exact hex.lower.1

theorem generation_ne_dots (hex : HexDigest) : hex.text ≠ ".." := by
  intro heq
  have hlength := length_hex hex
  rw [heq] at hlength
  cases hlength

theorem staging_ne_dots (hex : HexDigest) : hex.text ++ ".staging" ≠ ".." := by
  intro heq
  have hlength := congrArg (fun text : String ↦ text.toList.length) heq
  simp only [String.toList_append, List.length_append, length_hex] at hlength
  cases hlength

theorem staging_ne_generation (hex : HexDigest) : hex.text ++ ".staging" ≠ hex.text := by
  intro heq
  have hlength := congrArg (fun text : String ↦ text.toList.length) heq
  simp only [String.toList_append, List.length_append, length_hex] at hlength
  cases hlength

/-! ## Reading -/

/-- The transaction goes on from a journal only if it is its own. -/
structure Transaction.Bound (digest : List UInt8 → HexDigest) (tx : Transaction)
    (tree : FileTree String UInt8) (journal : Journal) : Prop where
  validated : validateLayout tx.site tree tx.layout = .ok journal.inactiveSlot
  layout : journal.layoutSha256 = (digest tx.layoutBytes).text
  manifest : journal.manifestSha256 = (digest tx.manifestBytes).text
  distinct : journal.priorHealthySlot ≠ journal.inactiveSlot

theorem still_load : (tx.load digest).Still :=
  still_bind still_look fun _ ↦ still_bind still_ofExcept fun _ ↦ still_bind still_look fun _ ↦
    still_bind still_ofExcept fun _ ↦ still_bind still_require fun _ ↦
      still_bind still_require fun _ ↦ still_pure

theorem runs_load {disk after : Disk} {journal : Journal}
    (h : (tx.load digest).Runs disk journal after) :
    disk.journal = some journal ∧ tx.Bound digest disk.tree journal ∧ disk = after := by
  simp only [Transaction.load, runs_bind, runs_look, runs_ofExcept, runs_require, runs_pure] at h
  obtain ⟨found, _, ⟨hfound, rfl⟩, opened, _, ⟨hopened, rfl⟩, tree, _, ⟨rfl, rfl⟩, inactive, _,
    ⟨hvalid, rfl⟩, _, _, ⟨hbytes, rfl⟩, _, _, ⟨hslots, rfl⟩, rfl, rfl⟩ := h
  exact ⟨hfound.trans (elim_eq_ok.mp hopened),
    ⟨hslots.2 ▸ hvalid, hbytes.1, hbytes.2, hslots.1⟩, rfl⟩

theorem triple_load_bind {α : Type} {pre : Disk → Prop} {step : Disk → Disk → Prop}
    {next : Journal → Program Disk α} {post : α → Disk → Prop}
    (h : ∀ journal, Triple (fun disk ↦ pre disk ∧ disk.journal = some journal ∧
      tx.Bound digest disk.tree journal) (next journal) step post) :
    Triple pre (tx.load digest >>= next) step post :=
  triple_bind (fun journal disk ↦ pre disk ∧ disk.journal = some journal ∧
      tx.Bound digest disk.tree journal)
    (still_load.triple fun disk journal after hpre hruns ↦ by
      obtain ⟨hjournal, hbound, rfl⟩ := runs_load hruns
      exact ⟨hpre, hjournal, hbound⟩) h

structure Places (site : Site) (tree : FileTree String UInt8) (layout : Value)
    (slots : Slot → Path) (state : Path) : Prop where
  slot : ∀ slot, checkSlot site tree layout slot = .ok (slots slot)
  persistent : checkPersistent site tree layout = .ok state
  aliases : [text (slotEntry layout .A) "partuuid", text (slotEntry layout .B) "partuuid",
      text (layout.index "persistent") "partuuid"].Nodup ∧
    text (slotEntry layout .A) "device_id" = text (slotEntry layout .B) "device_id"
  apart : [slots .A, slots .B, state].Pairwise fun a b ↦ ¬ Overlaps a b

theorem validateLayout_eq_ok {site : Site} {tree : FileTree String UInt8} {layout : Value}
    {inactive : Slot} : validateLayout site tree layout = .ok inactive ↔
      inactiveSlot layout = .ok inactive ∧
        ∃ slots state, Places site tree layout slots state := by
  simp only [validateLayout, bind_eq_ok, ensure_eq_ok, Except.ok.injEq]
  constructor
  · rintro ⟨slot, hslot, pathA, hA, pathB, hB, state, hstate, _, haliases, _, hapart, rfl⟩
    refine ⟨hslot, fun slot ↦ if slot = .A then pathA else pathB, state, ?_, hstate, haliases,
      hapart⟩
    intro slot
    cases slot with
    | A => exact hA
    | B => exact hB
  · rintro ⟨hslot, slots, state, h⟩
    exact ⟨inactive, hslot, _, h.slot .A, _, h.slot .B, state, h.persistent, (), h.aliases, (),
      h.apart, rfl⟩

theorem slotPath_of_checkSlot {tree : FileTree String UInt8} {slot : Slot} {path : Path}
    (h : checkSlot tx.site tree tx.layout slot = .ok path) :
    tx.slotPath slot = .ok path ∧ tree.IsDirectory path := by
  simp only [checkSlot, mountedRoot, bind_eq_ok, ensure_eq_ok, Except.ok.injEq] at h
  obtain ⟨_, _, _, _, _, _, _, _, _, _, found, hfound, _, hdir, rfl⟩ := h
  exact ⟨hfound, hdir⟩

theorem prefix_of_beneath {site : Site} {value : String} {path : Path}
    (h : beneath site value = .ok path) : site.root <+: path ∧ site.leads path = path := by
  simp only [beneath, bind_eq_ok, ensure_eq_ok, Except.ok.injEq] at h
  obtain ⟨_, _, _, _, _, hext, rfl⟩ := h
  exact ⟨hext, site.leads_leads _⟩

/-! ## Where the transaction works -/

/-- The directory of the generations in the inactive slot of a layout that was found valid, as it
is named. -/
def Transaction.Generations (tx : Transaction) (path : Path) : Prop :=
  ∃ tree slot inactive, validateLayout tx.site tree tx.layout = .ok slot ∧
    tx.slotPath slot = .ok inactive ∧ path = inactive ++ ["cameo-generations"]

theorem Transaction.Generations.unique {path other : Path} (h : tx.Generations path)
    (hother : tx.Generations other) : path = other := by
  obtain ⟨tree, slot, inactive, hvalid, hpath, rfl⟩ := h
  obtain ⟨tree', slot', inactive', hvalid', hpath', rfl⟩ := hother
  obtain ⟨hslot, -⟩ := validateLayout_eq_ok.mp hvalid
  obtain ⟨hslot', -⟩ := validateLayout_eq_ok.mp hvalid'
  obtain rfl := Except.ok.inj (hslot.symm.trans hslot')
  rw [Except.ok.inj (hpath.symm.trans hpath')]

/-- The names of the generation, while it is staged and once it is promoted. -/
def Transaction.names (digest : List UInt8 → HexDigest) (tx : Transaction) : List String :=
  [(digest tx.manifestBytes).text ++ ".staging", (digest tx.manifestBytes).text]

/-- What the transaction may change: the directory of the generations, which it may make, and its
own entries there. -/
def Transaction.Touches (digest : List UInt8 → HexDigest) (tx : Transaction) (path : Path) : Prop :=
  ∃ generations, tx.Generations generations ∧ (path = tx.site.leads generations ∨
    ∃ name ∈ tx.names digest, tx.site.leads generations ++ [name] <+: path)

/-- What the files that are staged make of a directory. -/
def image (files : List StagedFile) (path : Path) : Option (Entry UInt8) :=
  match files.find? (·.parts = path) with
  | some file => some (.file file.data)
  | none => if path = [] ∨ ∃ file ∈ files, path <+: file.parts then some .directory else none

/-- The generation at a path below the root consists of the files, all of which are what was
expected, and of nothing else. -/
structure Transaction.Complete (digest : List UInt8 → HexDigest) (tx : Transaction)
    (files : List StagedFile) (path : Path) (tree : FileTree String UInt8) : Prop where
  shows : tree.Shows (tx.site.leads (tx.site.root ++ path)) (image files)
  digests : ∀ file ∈ files, (digest file.data).text = file.expected
  bounded : (files.map fun file ↦ file.data.length).sum ≤ maxStageBytes

/-! ## Operations and their steps -/

/-- The operations of a transaction; a recovery meets directories in some order. -/
inductive Operation where
  | begin
  | advance (phase : String)
  | stage (files : List StagedFile)
  | recover (observedPersistentId observedStateSha256 : String) (bootSucceeded : Option Bool)
      (listing : List Path)

/-- The method that is called, and its answer if it is `recover`. -/
def Operation.program (digest : List UInt8 → HexDigest) (tx : Transaction) :
    Operation → Program Disk (Option Recovery)
  | begin => do
    let _ ← tx.begin digest
    return none
  | advance phase => do
    let _ ← tx.advance digest phase
    return none
  | stage files => do
    let _ ← tx.stage digest files
    return none
  | recover observedPersistentId observedStateSha256 bootSucceeded listing => do
    let recovery ← tx.recover digest observedPersistentId observedStateSha256 bootSucceeded listing
    return some recovery

inductive Change (digest : List UInt8 → HexDigest) (tx : Transaction) :
    Operation → Disk → Disk → Prop where
  | opened (op : Operation) (disk : Disk) : Change digest tx op disk { disk with next := true }
  | begun (disk : Disk) (active inactive : Slot) (hnone : disk.journal = none)
      (hactive : activeSlot tx.layout = some active)
      (hinactive : inactiveSlot tx.layout = .ok inactive) :
      Change digest tx .begin disk
        ⟨disk.tree, some (tx.firstJournal digest active inactive), false⟩
  | advanced (disk : Disk) (journal : Journal) (phase : Phase)
      (hjournal : disk.journal = some journal) (hphase : phase.index = journal.phase.index + 1) :
      Change digest tx (.advance phase.label) disk
        ⟨disk.tree, some { journal with phase := phase }, false⟩
  | shaped (op : Operation) (disk : Disk) (journal : Journal) (tree : FileTree String UInt8)
      (hjournal : disk.journal = some journal)
      (hphase : journal.phase.index < Phase.inactiveWritten.index)
      (htree : FileTree.AgreeOff (tx.Touches digest) disk.tree tree) :
      Change digest tx op disk { disk with tree := tree }
  | staged (disk : Disk) (journal : Journal) (files : List StagedFile) (path : Path)
      (hjournal : disk.journal = some journal) (hphase : journal.phase = .stateSaved)
      (hcomplete : tx.Complete digest files path disk.tree) :
      Change digest tx (.stage files) disk
        ⟨disk.tree, some { journal with phase := .inactiveWritten, generationPath := some path },
          false⟩
  | tried (disk : Disk) (journal : Journal) (id hash : String) (booted : Option Bool)
      (listing : List Path) (hjournal : disk.journal = some journal)
      (hphase : journal.phase = .bootTrial) (hleft : 0 < journal.trialTriesLeft) :
      Change digest tx (.recover id hash booted listing) disk
        ⟨disk.tree, some journal.tried, false⟩
  | blessed (disk : Disk) (journal : Journal) (id hash : String) (listing : List Path)
      (hjournal : disk.journal = some journal)
      (hphase : journal.phase = .bootTrial) (hleft : 0 < journal.trialTriesLeft) :
      Change digest tx (.recover id hash (some true) listing) disk
        ⟨disk.tree, some { journal.tried with phase := .healthCommitted }, false⟩

/-! ## The journal -/

theorem triple_writeJournal (held : Option Journal) (good : FileTree String UInt8 → Prop)
    {journal : Journal} {step : Disk → Disk → Prop}
    (hopen : ∀ disk, step disk { disk with next := true })
    (hcommit : ∀ tree, good tree → step ⟨tree, held, true⟩ ⟨tree, some journal, false⟩) :
    Triple (fun disk ↦ disk.journal = held ∧ good disk.tree) (writeJournal journal) step
      fun _ after ↦ after.journal = some journal ∧ after.next = false ∧ good after.tree := by
  refine triple_look_bind fun found ↦ triple_require_bind fun _ ↦ triple_bind
    (fun _ disk ↦ disk.journal = held ∧ good disk.tree ∧ disk.next = true)
    (triple_perform (fun disk _ ↦ hopen disk) ?_) fun _ ↦ triple_perform ?_ ?_
  · rintro disk _ after ⟨⟨hjournal, hgood⟩, -⟩ heq
    cases heq
    exact ⟨hjournal, hgood, rfl⟩
  · rintro ⟨tree, journal, next⟩ ⟨hjournal, hgood, hnext⟩
    cases hjournal
    cases hnext
    exact hcommit tree hgood
  · rintro disk _ after ⟨-, hgood, -⟩ heq
    cases heq
    exact ⟨rfl, rfl, hgood⟩

theorem activeSlot_of_inactiveSlot {layout : Value} {inactive : Slot}
    (h : inactiveSlot layout = .ok inactive) : activeSlot layout = some inactive.other := by
  simp only [inactiveSlot, bind_eq_ok, ensure_eq_ok] at h
  obtain ⟨_, _, _, _, h⟩ := h
  cases hactive : activeSlot layout with
  | none =>
    rw [hactive] at h
    cases h
  | some active =>
    rw [hactive] at h
    cases h
    cases active <;> rfl

theorem triple_begin : Triple (fun _ ↦ True) (tx.begin digest) (Change digest tx .begin)
    fun _ _ ↦ True := by
  refine triple_look_bind fun found ↦ triple_require_bind fun hnone ↦ triple_look_bind fun tree ↦
    triple_ofExcept_bind fun inactive hvalid ↦ triple_ofExcept_bind fun active hactive ↦
      triple_bind (fun _ _ ↦ True) ?_ fun _ ↦ triple_pure fun _ _ ↦ trivial
  obtain ⟨hinactive, -⟩ := validateLayout_eq_ok.mp hvalid
  refine (triple_writeJournal none (fun _ ↦ True) (.opened _) ?_).weaken ?_
    (fun _ _ ↦ id) fun _ _ _ ↦ trivial
  · exact fun tree _ ↦ .begun ⟨tree, none, true⟩ active inactive rfl (elim_eq_ok.mp hactive)
      hinactive
  · rintro disk ⟨⟨-, hjournal⟩, -⟩
    exact ⟨hjournal.trans hnone, trivial⟩

theorem label_of_ofLabel? {label : String} {phase : Phase} (h : Phase.ofLabel? label = some phase) :
    phase.label = label := by
  have hfound := List.find?_some h
  exact of_decide_eq_true hfound

theorem triple_advance (label : String) : Triple (fun _ ↦ True) (tx.advance digest label)
    (Change digest tx (.advance label)) fun _ _ ↦ True := by
  refine triple_load_bind fun journal ↦ triple_ofExcept_bind fun phase hphase ↦
    triple_require_bind fun hindex ↦ triple_bind (fun _ _ ↦ True) ?_ fun _ ↦
      triple_pure fun _ _ ↦ trivial
  obtain rfl := label_of_ofLabel? (elim_eq_ok.mp hphase)
  refine (triple_writeJournal (some journal) (fun _ ↦ True) (.opened _) ?_).weaken
    ?_ (fun _ _ ↦ id) fun _ _ _ ↦ trivial
  · exact fun tree _ ↦ .advanced ⟨tree, some journal, true⟩ journal phase rfl hindex
  · rintro disk ⟨-, hjournal, -⟩
    exact ⟨hjournal, trivial⟩

/-! ## The tree -/

/-- A step that changes the tree only, and only where it may. -/
def Reshapes (held : Option Journal) (changed : Path → Prop) (before after : Disk) : Prop :=
  ∃ tree, before.journal = held ∧ FileTree.AgreeOff changed before.tree tree ∧
    after = { before with tree := tree }

theorem Reshapes.mono {held : Option Journal} {changed changed' : Path → Prop}
    (hle : ∀ path, changed path → changed' path) {before after : Disk}
    (h : Reshapes held changed before after) : Reshapes held changed' before after := by
  obtain ⟨tree, hjournal, hagree, rfl⟩ := h
  exact ⟨tree, hjournal, hagree.mono hle, rfl⟩

theorem Reshapes.change {op : Operation} {journal : Journal}
    (hphase : journal.phase.index < Phase.inactiveWritten.index) {before after : Disk}
    (h : Reshapes (some journal) (tx.Touches digest) before after) :
    Change digest tx op before after := by
  obtain ⟨tree, hjournal, hagree, rfl⟩ := h
  exact .shaped op before journal tree hjournal hphase hagree

/-- Nothing stands at certain paths. -/
def Gone (gone : Path → Prop) (tree : FileTree String UInt8) : Prop :=
  ∀ path, gone path → ¬ tree.Occupied path

theorem Gone.remove {gone : Path → Prop} {tree : FileTree String UInt8} (h : Gone gone tree)
    (base : Path) : Gone gone (tree.remove base) := by
  intro path hpath hoccupied
  by_cases hbelow : base <+: path
  · rw [FileTree.Occupied, FileTree.entry_remove_of_prefix hbelow] at hoccupied
    cases hoccupied
  · rw [FileTree.Occupied, FileTree.entry_remove_of_not_prefix hbelow] at hoccupied
    exact h path hpath hoccupied

section Discarding

variable {held : Option Journal} {changed gone : Path → Prop}

theorem triple_remove {base : Path} (hbase : ∀ path, base <+: path → changed path) :
    Triple (fun disk ↦ disk.journal = held ∧ Gone gone disk.tree)
      (write fun disk ↦ { disk with tree := disk.tree.remove base }) (Reshapes held changed)
      fun _ disk ↦ disk.journal = held ∧ Gone (fun path ↦ path = base ∨ gone path) disk.tree := by
  refine triple_perform ?_ ?_
  · rintro disk ⟨hjournal, -⟩
    exact ⟨disk.tree.remove base, hjournal, FileTree.agreeOff_remove hbase, rfl⟩
  · rintro disk _ after ⟨hjournal, hgone⟩ heq
    cases heq
    refine ⟨hjournal, ?_⟩
    rintro path (rfl | hpath)
    · exact FileTree.entry_eq_none_iff.mp (FileTree.entry_remove_of_prefix (List.prefix_refl path))
    · exact hgone.remove base path hpath

theorem triple_rmtree {base : Path} (hbase : ∀ path, base <+: path → changed path)
    (listing : List Path) :
    Triple (fun disk ↦ disk.journal = held ∧ Gone gone disk.tree) (rmtree base listing)
      (Reshapes held changed)
      fun _ disk ↦ disk.journal = held ∧ Gone (fun path ↦ path = base ∨ gone path) disk.tree := by
  induction listing with
  | nil => exact triple_remove hbase
  | cons path rest ih =>
    refine triple_bind (fun _ disk ↦ disk.journal = held ∧ Gone gone disk.tree) ?_ fun _ ↦ ih
    refine (triple_remove fun below hbelow ↦
      hbase below ((List.prefix_append _ _).trans hbelow)).weaken (fun _ ↦ id) (fun _ _ ↦ id) ?_
    rintro _ disk ⟨hjournal, hgone⟩
    exact ⟨hjournal, fun path hpath ↦ hgone path (.inr hpath)⟩

theorem ne_dots_of_mem_names {name : String} (h : name ∈ tx.names digest) : name ≠ ".." := by
  rcases List.mem_cons.mp h with rfl | h
  · exact staging_ne_dots _
  · obtain rfl := List.mem_singleton.mp h
    exact generation_ne_dots _

/-- Where an entry of the transaction is, if it is no link. -/
theorem leads_name {generations : Path} {name : String} (hname : name ∈ tx.names digest)
    (hlinked : tx.site.linked (generations ++ [name]) = false) :
    tx.site.leads (generations ++ [name]) = tx.site.leads generations ++ [name] :=
  tx.site.leads_unlinked _ _ hlinked (ne_dots_of_mem_names hname)

theorem touches_name {generations : Path} {name : String}
    (hgenerations : tx.Generations generations) (hname : name ∈ tx.names digest)
    (hlinked : tx.site.linked (generations ++ [name]) = false)
    (path : Path) (hpath : tx.site.leads (generations ++ [name]) <+: path) :
    tx.Touches digest path := by
  rw [leads_name hname hlinked] at hpath
  exact ⟨generations, hgenerations, .inr ⟨name, hname, hpath⟩⟩

theorem triple_discard (gone : Path → Prop) {generations : Path}
    (hgenerations : tx.Generations generations) {name : String} (hname : name ∈ tx.names digest)
    (listing : List Path) :
    Triple (fun disk ↦ disk.journal = held ∧ Gone gone disk.tree)
      (tx.discard generations listing name) (Reshapes held (tx.Touches digest))
      fun _ disk ↦ disk.journal = held ∧
        Gone (fun path ↦ path = tx.site.leads (generations ++ [name]) ∨ gone path) disk.tree := by
  refine triple_look_bind fun tree ↦ ?_
  split
  · rename_i hfree
    refine triple_pure ?_
    rintro disk ⟨⟨hjournal, hgone⟩, rfl⟩
    refine ⟨hjournal, ?_⟩
    rintro path (rfl | hpath)
    · exact hfree
    · exact hgone path hpath
  · refine triple_require_bind fun hunlinked ↦ ?_
    have htouches := touches_name hgenerations hname hunlinked.1
    split
    · exact (triple_rmtree htouches listing).weaken (fun _ h ↦ h.1) (fun _ _ ↦ id) fun _ _ ↦ id
    · exact (triple_remove htouches).weaken (fun _ h ↦ h.1) (fun _ _ ↦ id) fun _ _ ↦ id

end Discarding

def Transaction.Cleared (digest : List UInt8 → HexDigest) (tx : Transaction)
    (tree : FileTree String UInt8) : Prop :=
  ∀ generations, tx.Generations generations → tree.IsDirectory (tx.site.leads generations) →
    ∀ name ∈ tx.names digest, ¬ tree.Occupied (tx.site.leads (generations ++ [name]))

theorem triple_discardIncomplete {journal : Journal} {checked : FileTree String UInt8}
    (hbound : tx.Bound digest checked journal) (listing : List Path) :
    Triple (fun disk ↦ disk.journal = some journal) (tx.discardIncomplete journal listing)
      (Reshapes (some journal) (tx.Touches digest))
      fun _ disk ↦ disk.journal = some journal ∧ tx.Cleared digest disk.tree := by
  refine triple_ofExcept_bind fun inactive hinactive ↦ triple_look_bind fun tree ↦ ?_
  have hgenerations : tx.Generations (inactive ++ ["cameo-generations"]) :=
    ⟨checked, _, inactive, hbound.validated, hinactive, rfl⟩
  split
  · rename_i hmissing
    refine triple_pure ?_
    rintro disk ⟨hjournal, rfl⟩
    refine ⟨hjournal, fun generations hother hdir ↦ ?_⟩
    rw [hother.unique hgenerations] at hdir
    exact absurd hdir hmissing
  · rw [hbound.manifest]
    refine triple_bind (fun _ disk ↦ _) (triple_discard (fun _ ↦ False) hgenerations
      List.mem_cons_self listing |>.weaken ?_ (fun _ _ ↦ id) fun _ _ ↦ id) fun _ ↦
      (triple_discard _ hgenerations (List.mem_cons_of_mem _ List.mem_cons_self) listing).weaken
        (fun _ ↦ id) (fun _ _ ↦ id) ?_
    · rintro disk ⟨hjournal, -⟩
      exact ⟨hjournal, fun _ ↦ False.elim⟩
    · rintro _ disk ⟨hjournal, hgone⟩
      refine ⟨hjournal, fun generations hother _ name hname ↦ ?_⟩
      rw [hother.unique hgenerations]
      rcases List.mem_cons.mp hname with rfl | hname
      · exact hgone _ (.inr (.inl rfl))
      · obtain rfl := List.mem_singleton.mp hname
        exact hgone _ (.inl rfl)

/-! ## Recoveries -/

/-- What `recover` answers, and the disk that it leaves. -/
inductive Decides (digest : List UInt8 → HexDigest) (tx : Transaction) (disk : Disk) :
    Recovery → Disk → Prop where
  | discarded (journal : Journal) (after : Disk) (hjournal : disk.journal = some journal)
      (hkept : after.journal = some journal)
      (hphase : journal.phase.index < Phase.bootTrial.index)
      (hcleared : journal.phase.index < Phase.inactiveWritten.index →
        tx.Cleared digest after.tree) :
      Decides digest tx disk ⟨journal.priorHealthySlot, .discardInactive, journal⟩ after
  | committed (journal : Journal) (hjournal : disk.journal = some journal)
      (hphase : journal.phase = .healthCommitted) :
      Decides digest tx disk ⟨journal.inactiveSlot, .committed, journal⟩ disk
  | exhausted (journal : Journal) (hjournal : disk.journal = some journal)
      (hphase : journal.phase = .bootTrial) (hleft : journal.trialTriesLeft = 0) :
      Decides digest tx disk ⟨journal.priorHealthySlot, .automaticFallback, journal⟩ disk
  | blessed (journal : Journal) (hjournal : disk.journal = some journal)
      (hphase : journal.phase = .bootTrial) (hleft : 0 < journal.trialTriesLeft) :
      Decides digest tx disk
        ⟨journal.inactiveSlot, .blessTrial, { journal.tried with phase := .healthCommitted }⟩
        ⟨disk.tree, some { journal.tried with phase := .healthCommitted }, false⟩
  | last (journal : Journal) (hjournal : disk.journal = some journal)
      (hphase : journal.phase = .bootTrial) (hleft : journal.trialTriesLeft = 1) :
      Decides digest tx disk ⟨journal.priorHealthySlot, .automaticFallback, journal.tried⟩
        ⟨disk.tree, some journal.tried, false⟩
  | retried (journal : Journal) (hjournal : disk.journal = some journal)
      (hphase : journal.phase = .bootTrial) (hleft : 1 < journal.trialTriesLeft) :
      Decides digest tx disk ⟨journal.inactiveSlot, .retryTrial, journal.tried⟩
        ⟨disk.tree, some journal.tried, false⟩

theorem phase_eq_bootTrial {phase : Phase} (h : ¬ phase.index < Phase.bootTrial.index)
    (hne : phase ≠ .healthCommitted) : phase = .bootTrial := by
  cases phase with
  | bootTrial => rfl
  | healthCommitted => exact absurd rfl hne
  | verified | preflighted | drained | stateSaved | inactiveWritten =>
    exact absurd (by decide) h

theorem triple_recover (disk : Disk) (persistent hash : String) (booted : Option Bool)
    (listing : List Path) :
    Triple (· = disk) (tx.recover digest persistent hash booted listing)
      (Change digest tx (.recover persistent hash booted listing)) (Decides digest tx disk) := by
  refine triple_load_bind fun journal ↦ triple_require_bind fun _ ↦ ?_
  -- every journal that is written here is one more trial of the one that was read
  have hwrite {updated : Journal} {answer : Program Disk Recovery}
      (hstep : disk.journal = some journal →
        Change digest tx (.recover persistent hash booted listing)
          ⟨disk.tree, some journal, true⟩ ⟨disk.tree, some updated, false⟩)
      (hanswer : disk.journal = some journal → Triple (· = ⟨disk.tree, some updated, false⟩) answer
        (Change digest tx (.recover persistent hash booted listing)) (Decides digest tx disk)) :
      Triple (fun found ↦ found = disk ∧ found.journal = some journal ∧
          tx.Bound digest found.tree journal)
        (writeJournal updated >>= fun _ ↦ answer)
        (Change digest tx (.recover persistent hash booted listing)) (Decides digest tx disk) := by
    rintro found ⟨rfl, hjournal, -⟩
    refine triple_bind _ (triple_writeJournal _ (· = found.tree) (.opened _) ?_)
      (fun _ ↦ (hanswer hjournal).strengthen ?_) found ⟨hjournal, rfl⟩
    · rintro _ rfl
      exact hstep hjournal
    · rintro ⟨tree, held, next⟩ ⟨hheld, hnext, htree⟩
      cases hheld
      cases hnext
      cases htree
      rfl
  split
  · rename_i hphase
    split
    · rename_i hincomplete
      rintro found ⟨rfl, hjournal, hbound⟩
      refine triple_bind _ ((triple_discardIncomplete hbound listing).weaken
        (fun _ ↦ id) (fun _ _ hstep ↦ hstep.change hincomplete) fun _ _ ↦ id)
        (fun _ ↦ triple_pure ?_) found hjournal
      rintro after ⟨hkept, hcleared⟩
      exact .discarded journal after hjournal hkept hphase fun _ ↦ hcleared
    · rename_i hcomplete
      refine triple_pure ?_
      rintro found ⟨rfl, hjournal, -⟩
      exact .discarded journal found hjournal hjournal hphase fun hincomplete ↦
        absurd hincomplete hcomplete
  · rename_i hphase
    split
    · rename_i hcommitted
      refine triple_pure ?_
      rintro found ⟨rfl, hjournal, -⟩
      exact .committed journal hjournal hcommitted
    · rename_i hopen
      have htrial := phase_eq_bootTrial hphase hopen
      split
      · rename_i hnone
        refine triple_pure ?_
        rintro found ⟨rfl, hjournal, -⟩
        exact .exhausted journal hjournal htrial hnone
      · rename_i hleft
        have hpos : 0 < journal.trialTriesLeft := Nat.pos_of_ne_zero hleft
        split
        · rename_i hbooted
          subst hbooted
          refine hwrite (fun _ ↦ .blessed _ journal _ _ _ rfl htrial hpos) fun hjournal ↦
            triple_pure ?_
          rintro _ rfl
          exact .blessed journal hjournal htrial hpos
        · refine hwrite (fun _ ↦ .tried _ journal _ _ _ _ rfl htrial hpos) fun hjournal ↦ ?_
          split
          · rename_i hlast
            refine triple_pure ?_
            rintro _ rfl
            have hone : journal.trialTriesLeft = 1 := by
              change journal.trialTriesLeft - 1 = 0 at hlast
              omega
            exact .last journal hjournal htrial hone
          · rename_i hmore
            refine triple_pure ?_
            rintro _ rfl
            have hmany : 1 < journal.trialTriesLeft := by
              change ¬ journal.trialTriesLeft - 1 = 0 at hmore
              omega
            exact .retried journal hjournal htrial hmany

end Cameo.Update.Simulator
