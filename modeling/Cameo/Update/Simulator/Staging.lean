import Cameo.Update.Simulator.Changes

/-!
# Staging

The files of a release are laid out one after another in a directory that is fresh.  After each of
them the directory shows exactly what has been staged, so that the rename promotes a complete
generation or nothing.
-/

namespace Cameo.Update.Simulator

open Json Library Library.Durable Library.Durable.Program

variable {digest : List UInt8 → HexDigest} {tx : Transaction} {held : Option Journal}
  {changed : Path → Prop}

/-! ## Single steps -/

theorem triple_createEntry (good good' : FileTree String UInt8 → Prop) {path : Path}
    {new : Entry UInt8} (hpath : changed path)
    (hgood : ∀ tree h, good tree → good' (tree.create path new h)) :
    Triple (fun disk ↦ disk.journal = held ∧ good disk.tree) (createEntry path new)
      (Reshapes held changed) fun _ disk ↦ disk.journal = held ∧ good' disk.tree := by
  refine triple_perform ?_ ?_
  · rintro disk ⟨hjournal, -⟩
    split
    · exact ⟨_, hjournal, FileTree.agreeOff_create hpath, rfl⟩
    · exact ⟨_, hjournal, FileTree.AgreeOff.refl _ _, rfl⟩
  · rintro disk _ after ⟨hjournal, hdisk⟩ heq
    split at heq
    · rename_i h
      cases heq
      exact ⟨hjournal, hgood disk.tree h hdisk⟩
    · cases heq

theorem triple_mkdir (good good' : FileTree String UInt8 → Prop) {path : Path}
    (hpath : tx.site.linked path = false → changed (tx.site.leads path))
    (hgood : ∀ tree h, good tree → good' (tree.create (tx.site.leads path) .directory h)) :
    Triple (fun disk ↦ disk.journal = held ∧ good disk.tree) (mkdir tx.site path)
      (Reshapes held changed)
      fun _ disk ↦ tx.site.linked path = false ∧ disk.journal = held ∧ good' disk.tree :=
  triple_require_bind fun hlinked ↦ (triple_createEntry good good' (hpath hlinked) hgood).weaken
    (fun _ ↦ id) (fun _ _ ↦ id) fun _ _ hpost ↦ ⟨hlinked, hpost⟩

theorem triple_mkdirExistOk {path : Path} (hpath : changed (tx.site.leads path)) :
    Triple (fun disk ↦ disk.journal = held) (mkdirExistOk tx.site path) (Reshapes held changed)
      fun _ disk ↦ disk.journal = held ∧ disk.tree.IsDirectory (tx.site.leads path) := by
  refine triple_look_bind fun tree ↦ ?_
  split
  · rename_i hdir
    refine triple_pure ?_
    rintro disk ⟨hjournal, rfl⟩
    exact ⟨hjournal, hdir⟩
  · refine (triple_mkdir (fun _ ↦ True) (fun tree ↦ tree.IsDirectory (tx.site.leads path))
      (fun _ ↦ hpath) ?_).weaken ?_ (fun _ _ ↦ id) fun _ _ hpost ↦ hpost.2
    · exact fun tree h _ ↦ FileTree.entry_create_self
    · exact fun disk hpre ↦ ⟨hpre.1, trivial⟩

/-! ## A directory under construction -/

/-- An image with directories down to a path. -/
def withParents (shown : Path → Option (Entry UInt8)) (lead path : Path) : Option (Entry UInt8) :=
  if path <+: lead ∧ shown path = none then some .directory else shown path

variable {staging : Path} {shown : Path → Option (Entry UInt8)}

theorem not_prefix_of_append {lead : Path} {name : String} : ¬ lead ++ [name] <+: lead := by
  intro hext
  have hlength := hext.length_le
  rw [List.length_append, List.length_singleton] at hlength
  omega

theorem withParents_nil (hroot : shown [] = some .directory) : withParents shown [] = shown := by
  funext path
  unfold withParents
  split
  · rename_i h
    rw [List.prefix_nil.mp h.1, hroot] at h
    cases h.2
  · rfl

theorem withParents_append {lead path : Path} {name : String} (hne : path ≠ lead ++ [name]) :
    withParents shown (lead ++ [name]) path = withParents shown lead path := by
  have hiff : path <+: lead ++ [name] ↔ path <+: lead :=
    List.prefix_concat_iff.trans (or_iff_right hne)
  simp only [withParents, hiff]

theorem withParents_self {lead : Path} {name : String} :
    withParents shown lead (lead ++ [name]) = shown (lead ++ [name]) :=
  if_neg fun h ↦ not_prefix_of_append h.1

/-- One more directory that is there already. -/
theorem withParents_of_directory {lead : Path} {name : String}
    (h : withParents shown lead (lead ++ [name]) = some .directory) :
    withParents shown (lead ++ [name]) = withParents shown lead := by
  funext path
  by_cases hself : path = lead ++ [name]
  · rw [hself, h]
    rw [withParents_self] at h
    rw [withParents, h, if_neg (by simp)]
  · exact withParents_append hself

/-- One more directory that is made. -/
theorem withParents_of_none {lead : Path} {name : String}
    (h : withParents shown lead (lead ++ [name]) = none) :
    withParents shown (lead ++ [name]) =
      Function.update (withParents shown lead) (lead ++ [name]) (some .directory) := by
  funext path
  by_cases hself : path = lead ++ [name]
  · rw [hself, Function.update_self]
    rw [withParents_self] at h
    exact if_pos ⟨List.prefix_refl _, h⟩
  · rw [Function.update_of_ne hself, withParents_append hself]

theorem triple_makeParent (lead : Path) (name : String) :
    Triple (fun disk ↦ disk.journal = held ∧ disk.tree.Shows staging (withParents shown lead))
      (createEntry (staging ++ lead ++ [name]) .directory) (Reshapes held (staging <+: ·))
      fun _ disk ↦ disk.journal = held ∧
        disk.tree.Shows staging (withParents shown (lead ++ [name])) := by
  rw [List.append_assoc]
  refine triple_createEntry (·.Shows staging (withParents shown lead))
    (·.Shows staging (withParents shown (lead ++ [name]))) (List.prefix_append _ _) ?_
  intro tree h hshows
  have hfree := FileTree.entry_eq_none_iff.mpr h.2.2
  rw [hshows] at hfree
  rw [withParents_of_none hfree]
  exact hshows.create

theorem triple_mkdirParents (lead rest : Path) :
    Triple (fun disk ↦ disk.journal = held ∧ disk.tree.Shows staging (withParents shown lead))
      (mkdirParents (staging ++ lead) rest) (Reshapes held (staging <+: ·))
      fun _ disk ↦ disk.journal = held ∧
        disk.tree.Shows staging (withParents shown (lead ++ rest)) := by
  induction rest generalizing lead with
  | nil =>
    rw [List.append_nil]
    exact triple_pure fun _ ↦ id
  | cons name rest ih =>
    have ih := ih (lead ++ [name])
    rw [← List.append_assoc, List.append_assoc lead, List.singleton_append] at ih
    refine triple_look_bind fun tree ↦ ?_
    split
    · rename_i hdir
      refine ih.strengthen ?_
      rintro disk ⟨⟨hjournal, hshows⟩, rfl⟩
      rw [List.append_assoc, FileTree.IsDirectory, hshows] at hdir
      rw [withParents_of_directory hdir]
      exact ⟨hjournal, hshows⟩
    · exact triple_bind _ ((triple_makeParent lead name).strengthen fun _ hpre ↦ hpre.1) fun _ ↦ ih

theorem triple_writeBytes {rest : Path} (content data : List UInt8) :
    Triple (fun disk ↦ disk.journal = held ∧
        disk.tree.Shows staging (Function.update shown rest (some (.file content))))
      (writeBytes (staging ++ rest) data) (Reshapes held (staging <+: ·))
      fun _ disk ↦ disk.journal = held ∧
        disk.tree.Shows staging (Function.update shown rest (some (.file (content ++ data)))) := by
  induction data generalizing content with
  | nil =>
    rw [List.append_nil]
    exact triple_pure fun _ ↦ id
  | cons byte data ih =>
    have ih := ih (content ++ [byte])
    rw [List.append_assoc, List.singleton_append] at ih
    refine triple_bind _ (triple_perform ?_ ?_) fun _ ↦ ih
    · rintro disk ⟨hjournal, -⟩
      exact ⟨_, hjournal, FileTree.agreeOff_grow (List.prefix_append _ _), rfl⟩
    · rintro disk _ after ⟨hjournal, hshows⟩ heq
      cases heq
      exact ⟨hjournal, hshows.grow⟩

/-! ## The files of a release -/

theorem image_root {files : List StagedFile} (hparts : ∀ file ∈ files, file.parts ≠ []) :
    image files [] = some .directory := by
  have hnone : files.find? (·.parts = []) = none :=
    List.find?_eq_none.mpr fun file hfile ↦ by simpa using hparts file hfile
  simp [image, hnone]

theorem find?_eq_none_of_image {files : List StagedFile} {path : Path}
    (h : image files path = none) : files.find? (·.parts = path) = none := by
  unfold image at h
  split at h
  · cases h
  · assumption

/-- One more file, with the directories that lead to it. -/
theorem image_append {files : List StagedFile} {file : StagedFile} (hparts : file.parts ≠ [])
    (hfree : image files file.parts = none) :
    image (files ++ [file]) = Function.update (withParents (image files) file.parts.dropLast)
      file.parts (some (.file file.data)) := by
  funext path
  by_cases hself : path = file.parts
  · rw [hself, Function.update_self]
    simp [image, find?_eq_none_of_image hfree]
  · have hfind : (files ++ [file]).find? (·.parts = path) = files.find? (·.parts = path) := by
      simp [List.find?_append, Ne.symm hself]
    have hlead : path <+: file.parts ↔ path <+: file.parts.dropLast := by
      conv_lhs => rw [← List.dropLast_append_getLast hparts, List.prefix_concat_iff,
        List.dropLast_append_getLast hparts]
      exact or_iff_right hself
    rw [Function.update_of_ne hself, withParents, image, image, hfind]
    cases files.find? (·.parts = path) with
    | some other => simp
    | none =>
      by_cases hprior : path = [] ∨ ∃ other ∈ files, path <+: other.parts
      · simp only [hprior, if_true, reduceCtorEq, and_false, if_false]
        refine if_pos (hprior.imp_right ?_)
        rintro ⟨other, hother, hext⟩
        exact ⟨other, List.mem_append_left _ hother, hext⟩
      · obtain ⟨hne, hnot⟩ := not_or.mp hprior
        simp only [if_neg hprior, and_true]
        refine if_congr ?_ rfl rfl
        rw [← hlead]
        constructor
        · rintro (hnil | ⟨other, hother, hext⟩)
          · exact absurd hnil hne
          · rcases List.mem_append.mp hother with hother | hother
            · exact absurd ⟨other, hother, hext⟩ hnot
            · obtain rfl := List.mem_singleton.mp hother
              exact hext
        · exact fun hext ↦ .inr ⟨file, List.mem_append_right _ List.mem_cons_self, hext⟩

/-- Files that can be staged into one directory: relative paths without NUL that do not leave it and
do not meet each other, the expected data, and not too much of it. -/
structure Accepted (digest : List UInt8 → HexDigest) (files : List StagedFile) : Prop where
  relative : ∀ file ∈ files, (PosixPath.ofString file.relative).isAbsolute = false ∧
    ".." ∉ file.parts
  parts : ∀ file ∈ files, file.parts ≠ []
  noNul : ∀ file ∈ files, ∀ part ∈ file.parts, ¬ HasNul part
  apart : files.Pairwise fun a b ↦ ¬ a.parts <+: b.parts ∧ ¬ b.parts <+: a.parts
  digests : ∀ file ∈ files, (digest file.data).text = file.expected
  bounded : (files.map fun file ↦ file.data.length).sum ≤ maxStageBytes

theorem accepted_nil : Accepted digest [] :=
  ⟨by simp, by simp, by simp, .nil, by simp, by simp⟩

theorem exists_image {files : List StagedFile} {file : StagedFile} (h : file ∈ files) :
    ∃ data, image files file.parts = some (.file data) := by
  cases hfind : files.find? (·.parts = file.parts) with
  | none => exact absurd (List.find?_eq_none.mp hfind file h) (by simp)
  | some other => exact ⟨other.data, by rw [image, hfind]⟩

theorem not_prefix_of_image {files : List StagedFile} {path : Path} (h : image files path = none) :
    ∀ other ∈ files, ¬ path <+: other.parts := by
  intro other hother hext
  have hfind := find?_eq_none_of_image h
  rw [image, hfind] at h
  dsimp only at h
  rw [if_pos (.inr ⟨other, hother, hext⟩)] at h
  cases h

/-- Where a file can be made, no other one is in its way. -/
theorem apart_of_room {tree : FileTree String UInt8} {done : List StagedFile} {file : StagedFile}
    (hroot : image done [] = some .directory)
    (hshows : tree.Shows staging (withParents (image done) file.parts.dropLast))
    (hdir : tree.IsDirectory (staging ++ file.parts).dropLast)
    (hfree : ¬ tree.Occupied (staging ++ file.parts)) :
    file.parts ≠ [] ∧ image done file.parts = none ∧
      ∀ other ∈ done, ¬ other.parts <+: file.parts ∧ ¬ file.parts <+: other.parts := by
  have hnone : image done file.parts = none := by
    have hentry := FileTree.entry_eq_none_iff.mpr hfree
    rw [hshows, withParents] at hentry
    split at hentry
    · cases hentry
    · exact hentry
  refine ⟨?_, hnone, fun other hother ↦ ⟨?_, not_prefix_of_image hnone other hother⟩⟩
  · intro hnil
    rw [hnil, hroot] at hnone
    cases hnone
  · rintro ⟨rest, hrest⟩
    obtain ⟨data, hdata⟩ := exists_image hother
    have hfile : ¬ tree.IsDirectory (staging ++ other.parts) := by
      rw [FileTree.IsDirectory, hshows, withParents, hdata, if_neg (by simp)]
      simp
    by_cases hnil : rest = []
    · rw [hnil, List.append_nil] at hrest
      rw [hrest, hnone] at hdata
      cases hdata
    · rw [← hrest, ← List.append_assoc, List.dropLast_append_of_ne_nil hnil] at hdir
      by_cases hlast : rest.dropLast = []
      · rw [hlast, List.append_nil] at hdir
        exact hfile hdir
      · exact hfile (FileTree.isDirectory_of_append hdir.occupied hlast)

theorem Accepted.append {done : List StagedFile} {file : StagedFile} (h : Accepted digest done)
    (hrelative : (PosixPath.ofString file.relative).isAbsolute = false ∧ ".." ∉ file.parts)
    (hparts : file.parts ≠ []) (hnul : ∀ part ∈ file.parts, ¬ HasNul part)
    (hapart : ∀ other ∈ done, ¬ other.parts <+: file.parts ∧ ¬ file.parts <+: other.parts)
    (hchecked : (done.map fun file ↦ file.data.length).sum + file.data.length ≤ maxStageBytes ∧
      (digest file.data).text = file.expected) : Accepted digest (done ++ [file]) where
  relative := List.forall_mem_append.mpr ⟨h.relative, List.forall_mem_singleton.mpr hrelative⟩
  parts := List.forall_mem_append.mpr ⟨h.parts, List.forall_mem_singleton.mpr hparts⟩
  noNul := List.forall_mem_append.mpr ⟨h.noNul, List.forall_mem_singleton.mpr hnul⟩
  apart := List.pairwise_append.mpr ⟨h.apart, List.pairwise_singleton _ _,
    fun other hother _ hfile ↦ List.mem_singleton.mp hfile ▸ hapart other hother⟩
  digests := List.forall_mem_append.mpr ⟨h.digests, List.forall_mem_singleton.mpr hchecked.2⟩
  bounded := by simpa using hchecked.1

theorem triple_stageFile (done : List StagedFile) (hdone : Accepted digest done)
    (file : StagedFile) :
    Triple (fun disk ↦ disk.journal = held ∧ disk.tree.Shows staging (image done))
      (Transaction.stageFile digest staging (done.map fun file ↦ file.data.length).sum file)
      (Reshapes held (staging <+: ·))
      fun total disk ↦ (Accepted digest (done ++ [file]) ∧
        total = ((done ++ [file]).map fun file ↦ file.data.length).sum) ∧
        disk.journal = held ∧ disk.tree.Shows staging (image (done ++ [file])) := by
  have hroot := image_root hdone.parts
  refine triple_require_bind fun hrelative ↦ triple_require_bind fun hchecked ↦
    triple_require_bind fun _ ↦ ?_
  have hparents := @triple_mkdirParents held staging (image done) [] file.parts.dropLast
  rw [withParents_nil hroot, List.append_nil, List.nil_append] at hparents
  refine triple_bind _ hparents fun _ ↦ triple_require_bind fun hnul ↦ ?_
  refine triple_bind _ (triple_createEntry
    (·.Shows staging (withParents (image done) file.parts.dropLast))
    (fun tree ↦ (file.parts ≠ [] ∧ image done file.parts = none ∧
        ∀ other ∈ done, ¬ other.parts <+: file.parts ∧ ¬ file.parts <+: other.parts) ∧
      tree.Shows staging (Function.update (withParents (image done) file.parts.dropLast)
        file.parts (some (.file [])))) (List.prefix_append _ _) ?_) fun _ ↦ ?_
  · exact fun tree h hshows ↦ ⟨apart_of_room hroot hshows h.2.1 h.2.2, hshows.create⟩
  · rintro disk ⟨hjournal, ⟨hparts, hfree, hapart⟩, hshows⟩
    refine triple_bind _ (triple_writeBytes [] file.data) (fun _ ↦ triple_pure ?_) disk
      ⟨hjournal, hshows⟩
    rintro after ⟨hjournal, hshows⟩
    rw [image_append hparts hfree]
    exact ⟨⟨hdone.append hrelative hparts hnul hapart hchecked, by simp⟩, hjournal, hshows⟩

theorem triple_stageFiles (done files : List StagedFile) (hdone : Accepted digest done) :
    Triple (fun disk ↦ disk.journal = held ∧ disk.tree.Shows staging (image done))
      (Transaction.stageFiles digest staging (done.map fun file ↦ file.data.length).sum files)
      (Reshapes held (staging <+: ·))
      fun _ disk ↦ Accepted digest (done ++ files) ∧ disk.journal = held ∧
        disk.tree.Shows staging (image (done ++ files)) := by
  induction files generalizing done with
  | nil =>
    rw [List.append_nil]
    exact triple_pure fun _ hpre ↦ ⟨hdone, hpre⟩
  | cons file files ih =>
    refine triple_bind _ (triple_stageFile done hdone file) fun total ↦ ?_
    rintro disk ⟨⟨haccepted, rfl⟩, hpre⟩
    have ih := ih (done ++ [file]) haccepted
    rw [List.append_assoc, List.singleton_append] at ih
    exact ih disk hpre

/-! ## The whole of `stage` -/

/-- A directory that has just been made is empty. -/
theorem shows_fresh {tree : FileTree String UInt8} {path : Path}
    (h : path ≠ [] ∧ tree.IsDirectory path.dropLast ∧ ¬ tree.Occupied path) :
    (tree.create path .directory h).Shows path (image []) := by
  intro rest
  by_cases hnil : rest = []
  · rw [hnil, List.append_nil]
    exact FileTree.entry_create_self
  · have hne : path ++ rest ≠ path := fun heq ↦ hnil (List.append_right_eq_self.mp heq)
    have hempty := FileTree.entry_append_of_none (FileTree.entry_eq_none_iff.mpr h.2.2) rest
    have hshown : image [] rest = none := by simp [image, hnil]
    rw [hshown]
    exact (Function.update_of_ne hne _ _).trans hempty

theorem triple_replaceDirectory {source target : Path} {shown : Path → Option (Entry UInt8)}
    (hsource : ∀ path, tx.site.leads source <+: path → changed path)
    (htarget : tx.site.linked target = false →
      ∀ path, tx.site.leads target <+: path → changed path) :
    Triple (fun disk ↦ disk.journal = held ∧ disk.tree.Shows (tx.site.leads source) shown)
      (replaceDirectory tx.site source target) (Reshapes held changed)
      fun _ disk ↦ disk.journal = held ∧ disk.tree.Shows (tx.site.leads target) shown := by
  refine triple_require_bind fun hlinked ↦ triple_perform ?_ ?_
  · rintro disk ⟨hjournal, -⟩
    split
    · exact ⟨_, hjournal, FileTree.agreeOff_move hsource (htarget hlinked), rfl⟩
    · exact ⟨_, hjournal, FileTree.AgreeOff.refl _ _, rfl⟩
  · rintro disk _ after ⟨hjournal, hshows⟩ heq
    split at heq
    · rename_i h
      cases heq
      exact ⟨hjournal, hshows.move (h := h)⟩
    · cases heq

theorem triple_stage (files : List StagedFile) : Triple (fun _ ↦ True) (tx.stage digest files)
    (Change digest tx (.stage files)) fun _ after ↦ Accepted digest files ∧
      ∃ path, after.journal.bind Journal.generationPath = some path ∧
        tx.Complete digest files path after.tree := by
  refine triple_load_bind fun journal ↦ triple_require_bind fun hphase ↦
    triple_ofExcept_bind fun inactive hinactive ↦ ?_
  rintro disk ⟨-, hjournal, hbound⟩
  have hgenerations : tx.Generations (inactive ++ ["cameo-generations"]) :=
    ⟨disk.tree, _, inactive, hbound.validated, hinactive, rfl⟩
  have hphase' : journal.phase.index < Phase.inactiveWritten.index := by
    rw [hphase]
    decide
  have hlift {α : Type} {pre : Disk → Prop} {program : Program Disk α} {post : α → Disk → Prop}
      (h : Triple pre program (Reshapes (some journal) (tx.Touches digest)) post) :
      Triple pre program (Change digest tx (.stage files)) post :=
    h.weaken (fun _ ↦ id) (fun _ _ hstep ↦ hstep.change hphase') fun _ _ ↦ id
  have hpart : journal.manifestSha256 ++ ".staging" ∈ tx.names digest := by
    rw [hbound.manifest]
    exact List.mem_cons_self
  have hfull : journal.manifestSha256 ∈ tx.names digest := by
    rw [hbound.manifest]
    exact List.mem_cons_of_mem _ List.mem_cons_self
  generalize hlexical : inactive ++ ["cameo-generations"] = generations at hgenerations ⊢
  refine triple_bind _ (hlift (triple_mkdirExistOk ⟨_, hgenerations, .inl rfl⟩)) (fun _ ↦ ?_) disk
    hjournal
  refine triple_look_bind fun tree ↦ triple_require_bind fun hfree ↦ ?_
  have hmake := @triple_mkdir tx (some journal) (tx.Touches digest) (· = tree)
    (·.Shows (tx.site.leads (generations ++ [journal.manifestSha256 ++ ".staging"])) (image []))
    (generations ++ [journal.manifestSha256 ++ ".staging"])
    (fun hlinked ↦ touches_name hgenerations hpart hlinked _ (List.prefix_refl _))
    (fun _ h heq ↦ heq ▸ shows_fresh h)
  refine triple_bind _ ((hlift hmake).strengthen ?_) fun _ ↦ triple_of_fact fun hlinked ↦ ?_
  · rintro disk ⟨⟨hjournal, -⟩, rfl⟩
    exact ⟨hjournal, rfl⟩
  have htouches := touches_name hgenerations hpart hlinked
  have hfiles := @triple_stageFiles digest (some journal)
    (tx.site.leads (generations ++ [journal.manifestSha256 ++ ".staging"])) [] files accepted_nil
  rw [List.nil_append] at hfiles
  refine triple_bind _ (hlift (hfiles.weaken (fun _ ↦ id)
    (fun _ _ hstep ↦ hstep.mono htouches) fun _ _ ↦ id)) fun _ ↦ triple_of_fact fun haccepted ↦ ?_
  refine triple_bind _ (hlift (triple_replaceDirectory htouches
    (touches_name hgenerations hfull))) fun _ ↦ ?_
  have hroot : tx.site.root <+: generations ++ [journal.manifestSha256] := by
    rw [← hlexical, List.append_assoc]
    exact (prefix_of_beneath hinactive).1.trans (List.prefix_append _ _)
  have hcomplete {tree : FileTree String UInt8}
      (hshows : tree.Shows (tx.site.leads (generations ++ [journal.manifestSha256]))
        (image files)) :
      tx.Complete digest files ((generations ++ [journal.manifestSha256]).drop
        tx.site.root.length) tree := by
    refine ⟨?_, haccepted.digests, haccepted.bounded⟩
    rw [List.prefix_iff_eq_append.mp hroot]
    exact hshows
  refine triple_bind _ (triple_writeJournal (some journal)
    (·.Shows (tx.site.leads (generations ++ [journal.manifestSha256])) (image files))
    (.opened _) ?_) fun _ ↦ triple_pure ?_
  · exact fun tree hshows ↦ .staged ⟨tree, some journal, true⟩ journal files _ rfl hphase
      (hcomplete hshows)
  · rintro after ⟨hjournal, -, hshows⟩
    rw [hjournal]
    exact ⟨haccepted, _, rfl, hcomplete hshows⟩

end Cameo.Update.Simulator
