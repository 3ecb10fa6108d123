import Cameo.Update.Simulator.Generations

/-!
# Staging after a power loss

A recovery removes whatever a staging that was cut off has left.  After it a staging succeeds for
exactly the lists of files that fit into one directory, so that every staging that has been cut off
before it was recorded can be repeated.
-/

namespace Cameo.Update.Simulator

open Json Library Library.Durable Library.Durable.Program

variable {digest : List UInt8 → HexDigest} {tx : Transaction} {held : Option Journal}
  {staging : Path} {shown : Path → Option (Entry UInt8)}

/-! ## Single steps -/

theorem succeeds_createEntry {path : Path} {new : Entry UInt8} :
    Succeeds (fun disk ↦ path ≠ [] ∧ disk.tree.IsDirectory path.dropLast ∧
      ¬ disk.tree.Occupied path) (createEntry path new) := by
  intro disk h
  refine ⟨(), ?_⟩
  change (if h : path ≠ [] ∧ disk.tree.IsDirectory path.dropLast ∧ ¬ disk.tree.Occupied path then
    ((.ok () : Except String Unit), { disk with tree := disk.tree.create path new h })
    else (.error (if disk.tree.Occupied path then "FileExistsError" else "FileNotFoundError"),
      disk)).1 = .ok ()
  rw [dif_pos h]

theorem succeeds_writeBytes (path : Path) (data : List UInt8) :
    Succeeds (fun _ ↦ True) (writeBytes path data) := by
  induction data with
  | nil => exact succeeds_pure ()
  | cons byte data ih =>
    exact succeeds_write_bind (fun _ _ ↦ trivial) ih

theorem succeeds_writeJournal (journal : Journal) :
    Succeeds (fun disk ↦ disk.next = false) (writeJournal journal) := by
  refine succeeds_look_bind fun found ↦ succeeds_require_bind (fun disk h ↦ h.2 ▸ h.1) ?_
  exact succeeds_write_bind (fun _ _ ↦ trivial) fun _ (_ : True) ↦ ⟨(), rfl⟩

/-- Directories can be made down to a path if no file is on the way. -/
theorem succeeds_mkdirParents (lead rest : Path)
    (hway : ∀ path, path <+: lead ++ rest → shown path = none ∨ shown path = some .directory) :
    Succeeds (fun disk ↦ disk.journal = held ∧ disk.tree.Shows staging (withParents shown lead))
      (mkdirParents (staging ++ lead) rest) := by
  induction rest generalizing lead with
  | nil => exact succeeds_pure ()
  | cons name rest ih =>
    have ih := ih (lead ++ [name]) (by rwa [List.append_assoc, List.singleton_append])
    rw [← List.append_assoc] at ih
    have hname := hway (lead ++ [name])
      (List.prefix_append_right_inj lead |>.mpr (List.prefix_append [name] rest))
    refine succeeds_look_bind fun tree ↦ ?_
    split
    · rename_i hdir
      refine ih.strengthen ?_
      rintro disk ⟨⟨hjournal, hshows⟩, rfl⟩
      rw [List.append_assoc, FileTree.IsDirectory, hshows] at hdir
      rw [withParents_of_directory hdir]
      exact ⟨hjournal, hshows⟩
    · rename_i hmissing
      refine succeeds_bind _ (succeeds_createEntry.strengthen ?_) ((triple_makeParent lead
        name).strengthen fun _ hpre ↦ hpre.1).of_runs fun _ ↦ ih
      rintro disk ⟨⟨hjournal, hshows⟩, rfl⟩
      rw [List.append_assoc, FileTree.IsDirectory, hshows, withParents_self] at hmissing
      refine ⟨by simp, ?_, ?_⟩
      · rw [List.dropLast_concat, FileTree.IsDirectory, hshows, withParents]
        rcases hway lead (List.prefix_append _ _) with hnone | hdir
        · rw [if_pos ⟨List.prefix_refl _, hnone⟩]
        · rw [hdir, if_neg (by simp)]
      · rw [List.append_assoc, FileTree.Occupied, hshows, withParents_self,
          hname.resolve_right hmissing]
        simp

/-! ## The files -/

theorem image_of_not_file {files : List StagedFile} {path : Path}
    (h : ∀ file ∈ files, file.parts ≠ path) :
    image files path = none ∨ image files path = some .directory := by
  have hfind : files.find? (·.parts = path) = none :=
    List.find?_eq_none.mpr fun file hfile ↦ by simpa using h file hfile
  rw [image, hfind]
  dsimp only
  split
  · exact .inr rfl
  · exact .inl rfl

theorem image_eq_none {files : List StagedFile} {path : Path} (hne : path ≠ [])
    (h : ∀ file ∈ files, ¬ file.parts <+: path ∧ ¬ path <+: file.parts) :
    image files path = none := by
  have hfind : files.find? (·.parts = path) = none :=
    List.find?_eq_none.mpr fun file hfile ↦ by
      simpa using fun heq : file.parts = path ↦ (h file hfile).1 (heq ▸ List.prefix_refl _)
  rw [image, hfind]
  dsimp only
  refine if_neg ?_
  rintro (hnil | ⟨file, hfile, hext⟩)
  · exact hne hnil
  · exact (h file hfile).2 hext

theorem Accepted.of_append {done files : List StagedFile} (h : Accepted digest (done ++ files)) :
    Accepted digest done where
  relative := (List.forall_mem_append.mp h.relative).1
  parts := (List.forall_mem_append.mp h.parts).1
  noNul := (List.forall_mem_append.mp h.noNul).1
  apart := (List.pairwise_append.mp h.apart).1
  digests := (List.forall_mem_append.mp h.digests).1
  bounded := by
    have hbounded := h.bounded
    rw [List.map_append, List.sum_append] at hbounded
    omega

theorem succeeds_stageFile {done : List StagedFile} {file : StagedFile}
    (h : Accepted digest (done ++ [file])) :
    Succeeds (fun disk ↦ disk.journal = held ∧ disk.tree.Shows staging (image done))
      (Transaction.stageFile digest staging (done.map fun file ↦ file.data.length).sum file) := by
  obtain ⟨hparts, hparts'⟩ := List.forall_mem_append.mp h.parts
  have hroot := image_root hparts
  have hmem : file ∈ done ++ [file] := List.mem_append_right _ List.mem_cons_self
  have hne : file.parts ≠ [] := h.parts file hmem
  have hapart : ∀ other ∈ done, ¬ other.parts <+: file.parts ∧ ¬ file.parts <+: other.parts :=
    fun other hother ↦ (List.pairwise_append.mp h.apart).2.2 other hother file List.mem_cons_self
  have hnul := h.noNul file hmem
  have hbounded := h.bounded
  rw [List.map_append, List.sum_append, List.map_singleton, List.sum_singleton] at hbounded
  refine succeeds_require_bind (fun _ _ ↦ h.relative file hmem)
    (succeeds_require_bind (fun _ _ ↦ ⟨hbounded, h.digests file hmem⟩)
      (succeeds_require_bind (fun _ _ part hpart ↦ hnul part (List.mem_of_mem_dropLast hpart)) ?_))
  have hway : ∀ path, path <+: file.parts.dropLast →
      image done path = none ∨ image done path = some .directory := by
    refine fun path hpath ↦ image_of_not_file fun other hother heq ↦ (hapart other hother).1 ?_
    exact heq ▸ hpath.trans (List.dropLast_prefix _)
  have hmake := @succeeds_mkdirParents held staging (image done) [] file.parts.dropLast
    (by rwa [List.nil_append])
  have hparents := @triple_mkdirParents held staging (image done) [] file.parts.dropLast
  rw [withParents_nil hroot, List.append_nil] at hmake hparents
  rw [List.nil_append] at hparents
  refine succeeds_bind _ hmake hparents.of_runs fun _ ↦ succeeds_require_bind (fun _ _ ↦ hnul) ?_
  refine succeeds_bind (fun _ _ ↦ True) (succeeds_createEntry.strengthen ?_)
    (fun _ _ _ _ _ ↦ trivial) fun _ ↦ ?_
  · rintro disk ⟨-, hshows⟩
    refine ⟨by simp [hne], ?_, ?_⟩
    · rw [List.dropLast_append_of_ne_nil hne, FileTree.IsDirectory, hshows, withParents]
      rcases hway _ (List.prefix_refl _) with hnone | hdir
      · rw [if_pos ⟨List.prefix_refl _, hnone⟩]
      · rw [hdir, if_neg (by simp)]
    · have hnot : ¬ file.parts <+: file.parts.dropLast := by
        intro hext
        have hlength := hext.length_le
        have hpos := List.length_pos_iff.mpr hne
        rw [List.length_dropLast] at hlength
        omega
      rw [FileTree.Occupied, hshows, withParents, if_neg fun h ↦ hnot h.1,
        image_eq_none hne hapart]
      simp
  · exact succeeds_bind (fun _ _ ↦ True) (succeeds_writeBytes _ file.data)
      (fun _ _ _ _ _ ↦ trivial) fun _ ↦ succeeds_pure _

theorem succeeds_stageFiles (done files : List StagedFile) (h : Accepted digest (done ++ files)) :
    Succeeds (fun disk ↦ disk.journal = held ∧ disk.tree.Shows staging (image done))
      (Transaction.stageFiles digest staging (done.map fun file ↦ file.data.length).sum files) := by
  induction files generalizing done with
  | nil => exact succeeds_pure ()
  | cons file files ih =>
    rw [List.append_cons] at h
    have hfirst := h.of_append
    have hdone := hfirst.of_append
    refine succeeds_bind _ (succeeds_stageFile hfirst) (triple_stageFile done hdone file).of_runs
      fun total ↦ ?_
    rintro disk ⟨⟨-, rfl⟩, hpre⟩
    exact ih (done ++ [file]) h disk hpre

/-! ## The whole of `stage` -/

/-- None of the transaction's own entries is a link. -/
structure Transaction.Plain (digest : List UInt8 → HexDigest) (tx : Transaction) : Prop where
  generations : ∀ generations, tx.Generations generations →
    tx.site.linked generations = false
  names : ∀ generations, tx.Generations generations → ∀ name ∈ tx.names digest,
    tx.site.linked (generations ++ [name]) = false

/-- No file stands where the directory of the generations is made. -/
def Transaction.Makeable (tx : Transaction) (tree : FileTree String UInt8) : Prop :=
  ∀ generations, tx.Generations generations → tree.Occupied (tx.site.leads generations) →
    tree.IsDirectory (tx.site.leads generations)

theorem runs_load_of_bound {disk : Disk} {journal : Journal}
    (hjournal : disk.journal = some journal) (hbound : tx.Bound digest disk.tree journal) :
    (tx.load digest).Runs disk journal disk := by
  simp only [Transaction.load, runs_bind, runs_look, runs_ofExcept, runs_require, runs_pure]
  exact ⟨_, _, ⟨hjournal, rfl⟩, journal, _, ⟨rfl, rfl⟩, _, _, ⟨rfl, rfl⟩, _, _,
    ⟨hbound.validated, rfl⟩, (), _, ⟨⟨hbound.layout, hbound.manifest⟩, rfl⟩, (), _,
    ⟨⟨hbound.distinct, rfl⟩, rfl⟩, rfl, rfl⟩

theorem succeeds_load_bind {α : Type} {pre : Disk → Prop} {next : Journal → Program Disk α}
    {journal : Journal}
    (hpre : ∀ disk, pre disk → disk.journal = some journal ∧ tx.Bound digest disk.tree journal)
    (h : Succeeds pre (next journal)) : Succeeds pre (tx.load digest >>= next) := by
  intro disk hdisk
  obtain ⟨hjournal, hbound⟩ := hpre disk hdisk
  exact exists_result_bind (runs_load_of_bound hjournal hbound) (h disk hdisk)

theorem succeeds_mkdir {path : Path} (hlinked : tx.site.linked path = false) :
    Succeeds (fun disk ↦ tx.site.leads path ≠ [] ∧
      disk.tree.IsDirectory (tx.site.leads path).dropLast ∧
        ¬ disk.tree.Occupied (tx.site.leads path)) (mkdir tx.site path) :=
  succeeds_require_bind (fun _ _ ↦ hlinked) succeeds_createEntry

theorem succeeds_mkdirExistOk {path : Path} (hlinked : tx.site.linked path = false) :
    Succeeds (fun disk ↦ tx.site.leads path ≠ [] ∧
      disk.tree.IsDirectory (tx.site.leads path).dropLast ∧
        (disk.tree.Occupied (tx.site.leads path) → disk.tree.IsDirectory (tx.site.leads path)))
      (mkdirExistOk tx.site path) := by
  refine succeeds_look_bind fun tree ↦ ?_
  split
  · exact succeeds_pure ()
  · rename_i hmissing
    refine (succeeds_mkdir hlinked).strengthen ?_
    rintro disk ⟨⟨hne, hparent, hdir⟩, rfl⟩
    exact ⟨hne, hparent, fun hoccupied ↦ hmissing (hdir hoccupied)⟩

/-- A program whose steps change the tree only leaves the rest as it was. -/
theorem reshapes_of_runs {α : Type} {program : Program Disk α} {pre : Disk → Prop}
    {changed : Path → Prop} {post : α → Disk → Prop}
    (h : Triple pre program (Reshapes held changed) post) {disk after : Disk} {a : α}
    (hpre : pre disk) (hruns : program.Runs disk a after) :
    post a after ∧ after.next = disk.next ∧ FileTree.AgreeOff changed disk.tree after.tree := by
  refine (h.and_invariant (fun found ↦ found.next = disk.next ∧
    FileTree.AgreeOff changed disk.tree found.tree) ?_).of_runs disk ⟨hpre, rfl, .refl _ _⟩ a after
      hruns
  rintro before _ ⟨hnext, hagree⟩ ⟨tree, -, hstep, rfl⟩
  exact ⟨hnext, hagree.trans hstep⟩

/-- A place for a generation: its directory is there and its name is free. -/
def Free (place : Path) (name : String) (disk : Disk) : Prop :=
  disk.next = false ∧ disk.tree.IsDirectory place ∧ ¬ disk.tree.Occupied (place ++ [name])

theorem Free.of_agreeOff {place : Path} {name other : String} (hne : other ≠ name)
    {disk after : Disk} (hfree : Free place name disk) (hnext : after.next = disk.next)
    (hagree : FileTree.AgreeOff (place ++ [other] <+: ·) disk.tree after.tree) :
    Free place name after := by
  obtain ⟨hclosed, hdir, hvacant⟩ := hfree
  refine ⟨hnext.trans hclosed, (hagree place not_prefix_of_append).trans hdir, ?_⟩
  have hother : ¬ place ++ [other] <+: place ++ [name] := by
    intro hext
    rw [List.prefix_append_right_inj] at hext
    exact hne (List.cons_prefix_cons.mp hext).1
  rw [FileTree.Occupied, hagree _ hother]
  exact hvacant

theorem succeeds_replaceDirectory {source target place : Path} {part full : String}
    (hlinked : tx.site.linked target = false) (hsource : tx.site.leads source = place ++ [part])
    (htarget : tx.site.leads target = place ++ [full]) :
    Succeeds (fun disk ↦ disk.tree.IsDirectory place) (replaceDirectory tx.site source target) := by
  refine succeeds_require_bind (fun _ _ ↦ hlinked) fun disk hdir ↦ ⟨(), ?_⟩
  have h : disk.tree.IsDirectory (tx.site.leads target).dropLast ∧
      ¬ tx.site.leads source <+: (tx.site.leads target).dropLast := by
    rw [htarget, hsource, List.dropLast_concat]
    exact ⟨hdir, not_prefix_of_append⟩
  change (if h : disk.tree.IsDirectory (tx.site.leads target).dropLast ∧
      ¬ tx.site.leads source <+: (tx.site.leads target).dropLast then
    ((.ok () : Except String Unit), { disk with tree := disk.tree.move _ _ h })
    else (.error "OSError", disk)).1 = .ok ()
  rw [dif_pos h]

theorem succeeds_stage {disk : Disk} {journal : Journal} (hjournal : disk.journal = some journal)
    (hbound : tx.Bound digest disk.tree journal) (hnext : disk.next = false)
    (hcleared : tx.Cleared digest disk.tree) (hmakeable : tx.Makeable disk.tree)
    (hphase : journal.phase = .stateSaved) (hplain : tx.Plain digest) {files : List StagedFile}
    (hfiles : Accepted digest files) : Succeeds (· = disk) (tx.stage digest files) := by
  obtain ⟨-, slots, state, hplaces⟩ := validateLayout_eq_ok.mp hbound.validated
  obtain ⟨hinactive, hdir⟩ := slotPath_of_checkSlot (hplaces.slot journal.inactiveSlot)
  generalize slots journal.inactiveSlot = inactive at hinactive hdir
  have hgenerations : tx.Generations (inactive ++ ["cameo-generations"]) :=
    ⟨disk.tree, _, inactive, hbound.validated, hinactive, rfl⟩
  have hpart : journal.manifestSha256 ++ ".staging" ∈ tx.names digest := by
    rw [hbound.manifest]
    exact List.mem_cons_self
  have hfull : journal.manifestSha256 ∈ tx.names digest := by
    rw [hbound.manifest]
    exact List.mem_cons_of_mem _ List.mem_cons_self
  have hlinked := hplain.generations _ hgenerations
  have hnames := hplain.names _ hgenerations
  have hplace : tx.site.leads (inactive ++ ["cameo-generations"]) =
      inactive ++ ["cameo-generations"] := by
    rw [tx.site.leads_unlinked _ _ hlinked (by decide), (prefix_of_beneath hinactive).2]
  have hroom : tx.site.leads (inactive ++ ["cameo-generations"]) ≠ [] ∧
      disk.tree.IsDirectory (tx.site.leads (inactive ++ ["cameo-generations"])).dropLast := by
    rw [hplace, List.dropLast_concat]
    exact ⟨by simp, hdir⟩
  refine succeeds_load_bind (fun _ h ↦ h ▸ ⟨hjournal, hbound⟩) (succeeds_require_bind
    (fun _ _ ↦ hphase) (succeeds_ofExcept_bind hinactive ?_))
  generalize inactive ++ ["cameo-generations"] = generations at *
  have hvacant : ∀ name ∈ tx.names digest,
      ¬ disk.tree.Occupied (tx.site.leads generations ++ [name]) := by
    intro name hname hoccupied
    have hexists := FileTree.isDirectory_of_append hoccupied (List.cons_ne_nil _ _)
    have hfree := hcleared generations hgenerations hexists name hname
    rw [leads_name hname (hnames name hname)] at hfree
    exact hfree hoccupied
  have hpartPlace := leads_name hpart (hnames _ hpart)
  have hfullPlace := leads_name hfull (hnames _ hfull)
  refine succeeds_bind (fun _ found ↦ found.journal = some journal ∧ found.next = false ∧
      found.tree.IsDirectory (tx.site.leads generations) ∧ ∀ name ∈ tx.names digest,
        ¬ found.tree.Occupied (tx.site.leads generations ++ [name]))
    ((succeeds_mkdirExistOk hlinked).strengthen ?_) ?_ fun _ ↦ ?_
  · rintro _ rfl
    exact ⟨hroom.1, hroom.2, hmakeable generations hgenerations⟩
  · rintro _ rfl _ after hruns
    obtain ⟨⟨hafter, hdir⟩, hnext', hagree⟩ := reshapes_of_runs
      (@triple_mkdirExistOk tx (some journal) (· = tx.site.leads generations) _ rfl) hjournal hruns
    refine ⟨hafter, hnext'.trans hnext, hdir, fun name hname ↦ ?_⟩
    rw [FileTree.Occupied, hagree _ (by simp)]
    exact hvacant name hname
  refine succeeds_look_bind fun tree ↦ succeeds_require_bind ?_ ?_
  · rintro found ⟨⟨-, -, -, hfound⟩, rfl⟩
    rw [hpartPlace, hfullPlace]
    exact ⟨hfound _ hpart, hfound _ hfull⟩
  have hne : journal.manifestSha256 ++ ".staging" ≠ journal.manifestSha256 := by
    rw [hbound.manifest]
    exact staging_ne_generation _
  generalize journal.manifestSha256 ++ ".staging" = part at *
  generalize hfullName : journal.manifestSha256 = full at *
  refine succeeds_bind (fun _ found ↦ (found.journal = some journal ∧
      found.tree.Shows (tx.site.leads (generations ++ [part])) (image [])) ∧
        Free (tx.site.leads generations) full found)
    ((succeeds_mkdir (hnames _ hpart)).strengthen ?_) ?_ fun _ ↦ ?_
  · rintro found ⟨⟨-, -, hdir, hfound⟩, rfl⟩
    rw [hpartPlace, List.dropLast_concat]
    exact ⟨by simp, hdir, hfound _ hpart⟩
  · rintro found ⟨⟨hjournal, hclosed, hdir, hfound⟩, rfl⟩ _ after hruns
    have hmade := @triple_mkdir tx (some journal)
      (tx.site.leads generations ++ [part] <+: ·) (· = found.tree)
      (·.Shows (tx.site.leads (generations ++ [part])) (image [])) (generations ++ [part])
      (fun _ ↦ hpartPlace ▸ List.prefix_refl _) (fun _ h heq ↦ heq ▸ shows_fresh h)
    obtain ⟨⟨-, hafter⟩, hnext', hagree⟩ := reshapes_of_runs hmade ⟨hjournal, rfl⟩ hruns
    exact ⟨hafter, Free.of_agreeOff hne ⟨hclosed, hdir, hfound _ hfull⟩ hnext' hagree⟩
  refine succeeds_bind (fun _ found ↦ (found.journal = some journal ∧
      found.tree.Shows (tx.site.leads (generations ++ [part])) (image files)) ∧
        Free (tx.site.leads generations) full found)
    ((succeeds_stageFiles [] files hfiles).strengthen fun _ hfound ↦ hfound.1) ?_ fun _ ↦ ?_
  · rintro found ⟨hshows, hfree⟩ _ after hruns
    obtain ⟨⟨-, hafter⟩, hnext', hagree⟩ :=
      reshapes_of_runs (triple_stageFiles [] files accepted_nil) hshows hruns
    rw [hpartPlace] at hagree
    exact ⟨hafter, Free.of_agreeOff hne hfree hnext' hagree⟩
  refine succeeds_bind (fun _ found ↦ found.next = false)
    ((succeeds_replaceDirectory (hnames _ hfull) hpartPlace hfullPlace).strengthen
      fun _ hfound ↦ hfound.2.2.1) ?_ fun _ ↦ ?_
  · rintro found ⟨⟨hjournal, hshows⟩, hfree⟩ _ after hruns
    have hmoved := @triple_replaceDirectory tx (some journal) (fun _ ↦ True)
      (generations ++ [part]) (generations ++ [full]) (image files) (fun _ _ ↦ trivial)
      fun _ _ _ ↦ trivial
    obtain ⟨-, hnext', -⟩ := reshapes_of_runs hmoved ⟨hjournal, hshows⟩ hruns
    exact hnext'.trans hfree.1
  exact succeeds_bind (fun _ _ ↦ True) (succeeds_writeJournal _) (fun _ _ _ _ _ ↦ trivial)
    fun _ ↦ succeeds_pure _

/-! ## After a recovery -/

theorem checkSlot_of_isDirectory {site : Site} {tree after : FileTree String UInt8} {layout : Value}
    {slot : Slot} {path : Path} (h : checkSlot site tree layout slot = .ok path)
    (hdir : after.IsDirectory path) : checkSlot site after layout slot = .ok path := by
  simp only [checkSlot, mountedRoot, bind_eq_ok, ensure_eq_ok, Except.ok.injEq] at h ⊢
  obtain ⟨_, h1, _, h2, _, h3, _, h4, _, h5, found, h6, _, -, rfl⟩ := h
  exact ⟨(), h1, (), h2, (), h3, (), h4, (), h5, _, h6, (), hdir, rfl⟩

theorem checkPersistent_of_isDirectory {site : Site} {tree after : FileTree String UInt8}
    {layout : Value} {path : Path} (h : checkPersistent site tree layout = .ok path)
    (hdir : after.IsDirectory path) : checkPersistent site after layout = .ok path := by
  simp only [checkPersistent, mountedRoot, bind_eq_ok, ensure_eq_ok, Except.ok.injEq] at h ⊢
  obtain ⟨_, h1, _, h2, _, h3, _, h4, _, h5, _, h6, found, h7, _, -, rfl⟩ := h
  exact ⟨(), h1, (), h2, (), h3, (), h4, (), h5, (), h6, _, h7, (), hdir, rfl⟩

theorem Transaction.Bound.of_agreeOff {tree after : FileTree String UInt8} {journal : Journal}
    (hplain : tx.Plain digest) (h : tx.Bound digest tree journal)
    (hagree : FileTree.AgreeOff (tx.Touches digest) tree after) :
    tx.Bound digest after journal := by
  obtain ⟨hslot, slots, state, hplaces⟩ := validateLayout_eq_ok.mp h.validated
  have hactive := activeSlot_of_inactiveSlot hslot
  have hpath (slot : Slot) := slotPath_of_checkSlot (hplaces.slot slot)
  have hkept {base : Path} (hbase : tx.Kept base) (hdir : tree.IsDirectory base) :
      after.IsDirectory base := by
    have hnot := @not_touches_of_kept digest tx hplain.generations base hbase []
    rw [List.append_nil] at hnot
    exact (hagree base hnot).trans hdir
  have hslots (slot : Slot) : after.IsDirectory (slots slot) := by
    by_cases hself : slot = journal.inactiveSlot
    · refine (hagree _ fun htouches ↦ ?_).trans (hpath slot).2
      obtain ⟨other, found, inactive, hvalid, hinactive, hext⟩ :=
        inactive_prefix_of_touches hplain.generations htouches
      obtain rfl := Except.ok.inj ((validateLayout_eq_ok.mp hvalid).1.symm.trans hslot)
      subst hself
      rw [Except.ok.inj ((hpath _).1.symm.trans hinactive)] at hext
      exact not_prefix_of_append hext
    · refine hkept (.inl ⟨slot, ?_, (hpath slot).1⟩) (hpath slot).2
      rw [hactive, Slot.eq_other_of_ne hself]
  obtain ⟨hstate, hstateDir⟩ := beneath_of_checkPersistent hplaces.persistent
  refine ⟨validateLayout_eq_ok.mpr ⟨hslot, slots, state, ?_⟩, h.layout, h.manifest, h.distinct⟩
  exact ⟨fun slot ↦ checkSlot_of_isDirectory (hplaces.slot slot) (hslots slot),
    checkPersistent_of_isDirectory hplaces.persistent (hkept (.inr hstate) hstateDir),
    hplaces.aliases, hplaces.apart⟩

theorem bound_of_answer? {disk : Disk} {event : Event} {recovery : Recovery}
    (h : answer? digest tx disk event = some recovery) :
    ∃ journal, disk.journal = some journal ∧ tx.Bound digest disk.tree journal := by
  obtain ⟨op, cut⟩ := event
  unfold answer? at h
  split at h
  · rename_i answer hcut hresult
    subst h
    cases op with
    | begin | advance | stage =>
      obtain ⟨_, _, _, hanswer⟩ := runs_bind.mp (runs_of_ok hresult)
      cases (runs_pure.mp hanswer).1
    | recover persistent hash booted listing =>
      obtain ⟨_, _, hcall, -⟩ := runs_bind.mp (runs_of_ok hresult)
      obtain ⟨journal, _, hload, -⟩ := runs_bind.mp hcall
      obtain ⟨hjournal, hbound, -⟩ := runs_load hload
      exact ⟨journal, hjournal, hbound⟩
  · cases h

/-- After a recovery that has met no staged generation, whatever was called before and wherever it
was cut off, `stage` succeeds for exactly the lists of files that fit into one directory. -/
theorem stages_after_recovery {disk : Disk} (hplain : tx.Plain digest) {events : List Event}
    {event : Event} {recovery : Recovery}
    (hanswer : answer? digest tx (Run.run (step digest tx) disk events) event = some recovery)
    (hphase : recovery.journal.phase = .stateSaved)
    (hnext : (Run.run (step digest tx) disk (events ++ [event])).next = false)
    (hmakeable : tx.Makeable (Run.run (step digest tx) disk (events ++ [event])).tree)
    (files : List StagedFile) :
    (∃ path, (tx.stage digest files
      (Run.run (step digest tx) disk (events ++ [event]))).result = .ok path) ↔
        Accepted digest files := by
  rw [Run.run_append, Run.run_cons, Run.run_nil] at *
  generalize Run.run (step digest tx) disk events = before at *
  constructor
  · rintro ⟨path, hresult⟩
    exact ((triple_stage files _ trivial).2 path _ (runs_of_ok hresult)).1
  · intro hfiles
    obtain ⟨journal, hjournal, hbound⟩ := bound_of_answer? hanswer
    have hagree : FileTree.AgreeOff (tx.Touches digest) before.tree
        (step digest tx before event).tree :=
      keeps_step (fun after ↦ FileTree.AgreeOff (tx.Touches digest) before.tree after.tree)
        (fun _ _ hchange hbefore ↦ hbefore.trans (agreeOff_change hchange)) (.refl _ _)
    have hafter := hbound.of_agreeOff hplain hagree
    have hdecides := decides_of_answer? hanswer
    generalize step digest tx before event = after at *
    cases hdecides with
    | discarded found _ hfound hkept hbefore hcleared =>
      cases hjournal.symm.trans hfound
      have hcleared := hcleared (by rw [hphase]; decide)
      exact succeeds_stage hkept hafter hnext hcleared hmakeable hphase hplain hfiles _ rfl
    | committed found hfound hcommitted | exhausted found hfound hcommitted
    | last found hfound hcommitted | retried found hfound hcommitted =>
      cases hcommitted.symm.trans hphase
    | blessed found hfound => cases hphase

theorem stages_after_recovery_fixture : ∃ path,
    (fixtureTransaction.stage fixtureDigest fixtureFiles
      (Run.run (step fixtureDigest fixtureTransaction) fixtureDisk
        (fixtureEvents.take 5 ++ [fixtureRetry]))).result = .ok path := by
  have hrun : (answer? fixtureDigest fixtureTransaction
      (Run.run (step fixtureDigest fixtureTransaction) fixtureDisk (fixtureEvents.take 5))
        fixtureRetry).map (·.journal.phase) = some .stateSaved ∧
      (Run.run (step fixtureDigest fixtureTransaction) fixtureDisk
        (fixtureEvents.take 5 ++ [fixtureRetry])).next = false ∧
      (Run.run (step fixtureDigest fixtureTransaction) fixtureDisk
        (fixtureEvents.take 5 ++ [fixtureRetry])).tree.IsDirectory
          ["srv", "b", "cameo-generations"] := by decide +kernel
  obtain ⟨hphase, hnext, hdir⟩ := hrun
  obtain ⟨recovery, hanswer, hphase⟩ := Option.map_eq_some_iff.mp hphase
  have hgenerations : fixtureTransaction.Generations ["srv", "b", "cameo-generations"] :=
    ⟨fixtureDisk.tree, .B, ["srv", "b"], by decide +kernel⟩
  have hplain : fixtureTransaction.Plain fixtureDigest := ⟨fun _ _ ↦ rfl, fun _ _ _ _ ↦ rfl⟩
  have hfiles : Accepted fixtureDigest fixtureFiles :=
    ⟨by decide +kernel, by decide +kernel, by decide +kernel, List.pairwise_singleton _ _,
      by decide +kernel, by decide +kernel⟩
  refine (stages_after_recovery hplain hanswer hphase hnext ?_ fixtureFiles).mpr hfiles
  intro generations hother _
  rw [hother.unique hgenerations]
  exact hdir

end Cameo.Update.Simulator
