import Cameo.Library.Durable
import Cameo.Library.FileTree
import Cameo.Library.Run
import Cameo.Update.Builder

/-!
# The A/B transaction over a file tree

The transaction engine of `update_ab_simulator`: a release is staged in a directory of the inactive
slot, promoted there by one rename, and tried a bounded number of times.  A journal file, replaced
as a whole, says how far it has come.  The operations are programs over the tree and the journal,
with a step for everything that they make, write, remove or rename, so that a power loss between any
two steps is one of their courses.
-/

namespace Cameo.Update.Simulator

open Json Library Library.Durable Library.Durable.Program

/-! ## Paths -/

abbrev Path := List String

/-- What the operating system makes of paths: which are symbolic links, and where a path leads once
all links are followed (`Path.resolve`).  The root of the transaction is such a place. -/
structure Site where
  root : Path
  linked : Path → Bool
  leads : Path → Path
  leads_root : leads root = root
  leads_leads : ∀ path, leads (leads path) = leads path
  leads_unlinked : ∀ path name, linked (path ++ [name]) = false → name ≠ ".." →
    leads (path ++ [name]) = leads path ++ [name]

/-- `beneath`. -/
def beneath (site : Site) (value : String) : Except String Path := do
  let parts := (PosixPath.ofString (lstripSlash value)).parts
  ensure (∀ lead ∈ parts.inits, lead ≠ [] → site.linked (site.root ++ lead) = false)
    "linked layout path"
  ensure (¬ HasNul value) "embedded null byte"
  let resolved := site.leads (site.root ++ parts)
  ensure (site.root <+: resolved) "the path is not in the subpath of the root"
  .ok resolved

/-- `overlaps`. -/
def Overlaps (a b : Path) : Prop := a = b ∨ a <+: b ∨ b <+: a

instance (a b : Path) : Decidable (Overlaps a b) := inferInstanceAs (Decidable (_ ∨ _))

/-! ## The layout -/

/-- The place that a slot or the persistent partition names, which must be there and mounted. -/
def mountedRoot (site : Site) (tree : FileTree String UInt8) (entry : Value)
    (name unavailable : String) : Except String Path := do
  ensure (entry.get? "mounted" = some (.bool true)) unavailable
  ensure (Filled entry "root") ("missing " ++ name ++ " root")
  let path ← beneath site ((text entry "root").getD "")
  ensure (tree.IsDirectory path) unavailable
  .ok path

def checkSlot (site : Site) (tree : FileTree String UInt8) (layout : Value) (slot : Slot) :
    Except String Path := do
  let entry := slotEntry layout slot
  let name := "slot " ++ slot.label
  ensure (entry.isObject = true) "AttributeError"
  ensure (Filled entry "partuuid") ("missing " ++ name ++ " partuuid")
  ensure (Filled entry "device_id") ("missing " ++ name ++ " device")
  mountedRoot site tree entry name "slot unavailable"

def checkPersistent (site : Site) (tree : FileTree String UInt8) (layout : Value) :
    Except String Path := do
  let entry := layout.index "persistent"
  ensure (entry.isObject = true) "AttributeError"
  ensure (Filled entry "partuuid") "missing persistent partuuid"
  ensure (Filled entry "state_sha256") "missing persistent state hash"
  ensure (IsDigest ((text entry "state_sha256").getD "")) "invalid persistent state hash"
  mountedRoot site tree entry "persistent" "persistent state unavailable"

/-- The slot that is not active, of a layout with two slots. -/
def inactiveSlot (layout : Value) : Except String Slot := do
  ensure (text layout "schema" = some "cameo-update-layout/v1" ∧
    (text layout "firmware" = some "uefi" ∨ text layout "firmware" = some "bios"))
    "unsupported layout"
  ensure ((∀ key ∈ (layout.index "slots").keys, key = "A" ∨ key = "B") ∧
    (∀ key ∈ ["A", "B"], key ∈ (layout.index "slots").keys)) "invalid slots"
  match activeSlot layout with
  | none => .error "invalid slots"
  | some active => .ok active.other

/-- `validate_layout`. -/
def validateLayout (site : Site) (tree : FileTree String UInt8) (layout : Value) :
    Except String Slot := do
  let inactive ← inactiveSlot layout
  let pathA ← checkSlot site tree layout .A
  let pathB ← checkSlot site tree layout .B
  let persistent ← checkPersistent site tree layout
  ensure ([text (slotEntry layout .A) "partuuid", text (slotEntry layout .B) "partuuid",
      text (layout.index "persistent") "partuuid"].Nodup ∧
    text (slotEntry layout .A) "device_id" = text (slotEntry layout .B) "device_id")
    "partition identities alias or slots span devices"
  ensure ([pathA, pathB, persistent].Pairwise fun a b ↦ ¬ Overlaps a b) "layout paths overlap"
  .ok inactive

/-! ## The journal -/

/-- `PHASES`. -/
inductive Phase where
  | verified
  | preflighted
  | drained
  | stateSaved
  | inactiveWritten
  | bootTrial
  | healthCommitted
deriving DecidableEq

namespace Phase

def label : Phase → String
  | verified => "verified"
  | preflighted => "preflighted"
  | drained => "drained"
  | stateSaved => "state_saved"
  | inactiveWritten => "inactive_written"
  | bootTrial => "boot_trial"
  | healthCommitted => "health_committed"

/-- `PHASES.index`. -/
def index : Phase → ℕ
  | verified => 0
  | preflighted => 1
  | drained => 2
  | stateSaved => 3
  | inactiveWritten => 4
  | bootTrial => 5
  | healthCommitted => 6

def ofLabel? (label : String) : Option Phase :=
  [verified, preflighted, drained, stateSaved, inactiveWritten, bootTrial, healthCommitted].find?
    (·.label = label)

end Phase

/-- `TRIAL_ATTEMPTS`. -/
def trialAttempts : ℕ := 3

/-- `MAX_STAGE_BYTES`. -/
def maxStageBytes : ℕ := 64 * 1024 * 1024

/-- The journal, of schema `cameo-update-journal/v1`. -/
structure Journal where
  phase : Phase
  activeSlot : Slot
  inactiveSlot : Slot
  priorHealthySlot : Slot
  trialTriesLeft : ℕ
  trialTriesDone : ℕ
  persistentId : String
  persistentStateSha256 : String
  layoutSha256 : String
  manifestSha256 : String
  /-- Where the promoted generation is, below the root. -/
  generationPath : Option Path
deriving DecidableEq

/-- The journal after one more trial. -/
def Journal.tried (journal : Journal) : Journal :=
  { journal with
    trialTriesLeft := journal.trialTriesLeft - 1, trialTriesDone := journal.trialTriesDone + 1 }

/-- What survives a power loss.  A journal is written to a file of its own, which is never read and
then takes the place of the journal. -/
structure Disk where
  tree : FileTree String UInt8
  journal : Option Journal
  /-- The file that the next journal is written to is there. -/
  next : Bool

/-- `write_journal`. -/
def writeJournal (journal : Journal) : Program Disk Unit := do
  let found ← look Disk.next
  require (found = false) "FileExistsError"
  write fun disk ↦ { disk with next := true }
  write fun disk ↦ { disk with journal := some journal, next := false }

/-! ## Changes of the tree -/

/-- Something is created where nothing stands, as by `open` with `x`. -/
def createEntry (path : Path) (new : Entry UInt8) : Program Disk Unit :=
  perform fun disk ↦
    if h : path ≠ [] ∧ disk.tree.IsDirectory path.dropLast ∧ ¬ disk.tree.Occupied path then
      (.ok (), { disk with tree := disk.tree.create path new h })
    else (.error (if disk.tree.Occupied path then "FileExistsError" else "FileNotFoundError"), disk)

/-- `mkdir` of a path whose last component may be a link. -/
def mkdir (site : Site) (path : Path) : Program Disk Unit := do
  require (site.linked path = false) "FileExistsError"
  createEntry (site.leads path) .directory

/-- `mkdir` with `exist_ok`. -/
def mkdirExistOk (site : Site) (path : Path) : Program Disk Unit := do
  let tree ← look Disk.tree
  if tree.IsDirectory (site.leads path) then return ()
  else mkdir site path

/-- `mkdir` with `parents` and `exist_ok`, below a directory without links. -/
def mkdirParents (base : Path) : Path → Program Disk Unit
  | [] => return ()
  | name :: rest => do
    let tree ← look Disk.tree
    if tree.IsDirectory (base ++ [name]) then mkdirParents (base ++ [name]) rest
    else do
      createEntry (base ++ [name]) .directory
      mkdirParents (base ++ [name]) rest

/-- The bytes of a file are written; a power loss leaves any number of them. -/
def writeBytes (path : Path) : List UInt8 → Program Disk Unit
  | [] => return ()
  | byte :: rest => do
    write fun disk ↦ { disk with tree := disk.tree.grow path byte }
    writeBytes path rest

/-- `os.replace` of a directory where nothing stands. -/
def replaceDirectory (site : Site) (source target : Path) : Program Disk Unit := do
  require (site.linked target = false) "NotADirectoryError"
  perform fun disk ↦
    if h : disk.tree.IsDirectory (site.leads target).dropLast ∧
        ¬ site.leads source <+: (site.leads target).dropLast then
      (.ok (), { disk with tree := disk.tree.move (site.leads source) (site.leads target) h })
    else (.error "OSError", disk)

/-- `shutil.rmtree`.  What it has removed at each point depends on the order in which directories
are listed; all is gone at the end. -/
def rmtree (base : Path) : List Path → Program Disk Unit
  | [] => write fun disk ↦ { disk with tree := disk.tree.remove base }
  | path :: rest => do
    write fun disk ↦ { disk with tree := disk.tree.remove (base ++ path) }
    rmtree base rest

/-! ## The transaction -/

/-- The arguments of a `Transaction`, with what the bytes of the layout are read as. -/
structure Transaction where
  site : Site
  layoutBytes : List UInt8
  layout : Value
  manifestBytes : List UInt8
  isObject : layout.isObject = true

structure StagedFile where
  relative : String
  data : List UInt8
  expected : String
deriving DecidableEq

def StagedFile.parts (file : StagedFile) : Path := (PosixPath.ofString file.relative).parts

/-- What `recover` decides. -/
inductive Action where
  | discardInactive
  | committed
  | automaticFallback
  | blessTrial
  | retryTrial
deriving DecidableEq

/-- What `recover` answers. -/
structure Recovery where
  bootSlot : Slot
  action : Action
  journal : Journal
deriving DecidableEq

namespace Transaction

variable (digest : List UInt8 → HexDigest) (tx : Transaction)

def slotPath (slot : Slot) : Except String Path :=
  beneath tx.site ((text (slotEntry tx.layout slot) "root").getD "")

/-- `_load`. -/
def load : Program Disk Journal := do
  let found ← look Disk.journal
  let journal ← ofExcept (found.elim (.error "FileNotFoundError") .ok)
  let tree ← look Disk.tree
  let inactive ← ofExcept (validateLayout tx.site tree tx.layout)
  require (journal.layoutSha256 = (digest tx.layoutBytes).text ∧
    journal.manifestSha256 = (digest tx.manifestBytes).text) "journal input mismatch"
  require (journal.priorHealthySlot ≠ journal.inactiveSlot ∧ journal.inactiveSlot = inactive)
    "journal slot mismatch"
  return journal

/-- One round of the loop of `_discard_incomplete`. -/
def discard (generations : Path) (listing : List Path) (name : String) : Program Disk Unit := do
  let path := generations ++ [name]
  let tree ← look Disk.tree
  if ¬ tree.Occupied (tx.site.leads path) then return ()
  else do
    require (tx.site.linked path = false ∧
      tx.site.leads path.dropLast = tx.site.leads generations) "unsafe partial generation"
    if tree.IsDirectory (tx.site.leads path) then rmtree (tx.site.leads path) listing
    else write fun disk ↦ { disk with tree := disk.tree.remove (tx.site.leads path) }

/-- `_discard_incomplete`. -/
def discardIncomplete (journal : Journal) (listing : List Path) : Program Disk Unit := do
  let inactive ← ofExcept (tx.slotPath journal.inactiveSlot)
  let generations := inactive ++ ["cameo-generations"]
  let tree ← look Disk.tree
  if ¬ tree.IsDirectory (tx.site.leads generations) then return ()
  else do
    tx.discard generations listing (journal.manifestSha256 ++ ".staging")
    tx.discard generations listing journal.manifestSha256

def firstJournal (active inactive : Slot) : Journal where
  phase := .verified
  activeSlot := active
  inactiveSlot := inactive
  priorHealthySlot := active
  trialTriesLeft := trialAttempts
  trialTriesDone := 0
  persistentId := (text (tx.layout.index "persistent") "partuuid").getD ""
  persistentStateSha256 := (text (tx.layout.index "persistent") "state_sha256").getD ""
  layoutSha256 := (digest tx.layoutBytes).text
  manifestSha256 := (digest tx.manifestBytes).text
  generationPath := none

/-- `begin`. -/
def begin : Program Disk Journal := do
  let found ← look Disk.journal
  require (found = none) "transaction already begun"
  let tree ← look Disk.tree
  let inactive ← ofExcept (validateLayout tx.site tree tx.layout)
  let active ← ofExcept ((activeSlot tx.layout).elim (.error "KeyError") .ok)
  let record := tx.firstJournal digest active inactive
  writeJournal record
  return record

/-- `advance`. -/
def advance (phase : String) : Program Disk Journal := do
  let data ← tx.load digest
  let phase ← ofExcept ((Phase.ofLabel? phase).elim (.error "ValueError") .ok)
  require (phase.index = data.phase.index + 1) "non-sequential phase"
  let data := { data with phase := phase }
  writeJournal data
  return data

/-- One round of the loop of `stage`, with the size of what was staged before. -/
def stageFile (staging : Path) (total : ℕ) (file : StagedFile) : Program Disk ℕ := do
  require ((PosixPath.ofString file.relative).isAbsolute = false ∧ ".." ∉ file.parts)
    "unsafe staged path"
  let total := total + file.data.length
  require (total ≤ maxStageBytes ∧ (digest file.data).text = file.expected)
    "stage bound or digest failure"
  require (∀ part ∈ file.parts.dropLast, ¬ HasNul part) "mkdir: embedded null character in path"
  mkdirParents staging file.parts.dropLast
  require (∀ part ∈ file.parts, ¬ HasNul part) "embedded null byte"
  createEntry (staging ++ file.parts) (.file [])
  writeBytes (staging ++ file.parts) file.data
  return total

/-- The loop of `stage`. -/
def stageFiles (staging : Path) : ℕ → List StagedFile → Program Disk Unit
  | _, [] => return ()
  | total, file :: rest => do
    let total ← stageFile digest staging total file
    stageFiles staging total rest

/-- `stage`. -/
def stage (files : List StagedFile) : Program Disk Path := do
  let journal ← tx.load digest
  require (journal.phase = .stateSaved) "stage requires saved state"
  let inactive ← ofExcept (tx.slotPath journal.inactiveSlot)
  let generations := inactive ++ ["cameo-generations"]
  mkdirExistOk tx.site generations
  let staging := generations ++ [journal.manifestSha256 ++ ".staging"]
  let promoted := generations ++ [journal.manifestSha256]
  let tree ← look Disk.tree
  require (¬ tree.Occupied (tx.site.leads staging) ∧ ¬ tree.Occupied (tx.site.leads promoted))
    "generation already exists"
  mkdir tx.site staging
  stageFiles digest (tx.site.leads staging) 0 files
  replaceDirectory tx.site staging promoted
  writeJournal { journal with
    phase := .inactiveWritten, generationPath := some (promoted.drop tx.site.root.length) }
  return promoted

/-- `recover`. -/
def recover (observedPersistentId observedStateSha256 : String) (bootSucceeded : Option Bool)
    (listing : List Path) : Program Disk Recovery := do
  let journal ← tx.load digest
  require (observedPersistentId = journal.persistentId ∧
    observedStateSha256 = journal.persistentStateSha256) "persistent state changed"
  if journal.phase.index < Phase.bootTrial.index then
    if journal.phase.index < Phase.inactiveWritten.index then do
      tx.discardIncomplete journal listing
      return ⟨journal.priorHealthySlot, .discardInactive, journal⟩
    else return ⟨journal.priorHealthySlot, .discardInactive, journal⟩
  else if journal.phase = .healthCommitted then
    return ⟨journal.inactiveSlot, .committed, journal⟩
  else if journal.trialTriesLeft = 0 then
    return ⟨journal.priorHealthySlot, .automaticFallback, journal⟩
  else if bootSucceeded = some true then do
    let updated := { journal.tried with phase := .healthCommitted }
    writeJournal updated
    return ⟨updated.inactiveSlot, .blessTrial, updated⟩
  else do
    let updated := journal.tried
    writeJournal updated
    if updated.trialTriesLeft = 0 then
      return ⟨updated.priorHealthySlot, .automaticFallback, updated⟩
    else return ⟨updated.inactiveSlot, .retryTrial, updated⟩

end Transaction

end Cameo.Update.Simulator
