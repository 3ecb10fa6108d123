import Cameo.Json
import Cameo.Library.Keyed

/-!
# The endpoint state directory

The durable endpoint state is a directory of immutable generation files
`state-<generation>.json` beside at most a few `.pending-<suffix>` files left by interrupted
writes.  A file is either a snapshot that serde parses, or bytes that it does not.  Opening reads
the generation with the largest number only, so everything a reopened daemon can see is a function
of `newest?`; the lemmas below say how each file operation changes it.
-/

namespace Cameo.Store

open Json Library

/-- `IntentState`: the three durable maps, each from an identifier to its JSON record. -/
structure IntentState where
  endpoints : Ordered.Map String Value
  leases : Ordered.Map String Value
  sessions : Ordered.Map String Value

/-- `IntentState::default()`. -/
def IntentState.default : IntentState := ⟨.empty, .empty, .empty⟩

/-- `Snapshot`: one generation as it is written. -/
structure Snapshot where
  version : ℕ
  generation : ℕ
  sha256 : String
  state : IntentState

/-- The names the store gives its files; other names in the directory are ignored by it. -/
inductive FileName where
  | pending (suffix : String)
  | generation (number : ℕ)
deriving DecidableEq

/-- What serde makes of a file's bytes. -/
inductive FileData where
  | snapshot (value : Snapshot)
  | corrupt

/-- Directory contents: at most one file of a name. -/
abbrev Directory := Keyed.Table (Prod.fst : FileName × FileData → FileName)

namespace Directory

/-- The numbered files, in directory order. -/
def numbered (directory : Directory) : List (ℕ × FileData) :=
  directory.entries.filterMap fun file ↦
    match file.1 with
    | .generation number => some (number, file.2)
    | .pending _ => none

/-- `EndpointStore::generations`: the numbered files by increasing number. -/
def generations (directory : Directory) : List (ℕ × FileData) :=
  directory.numbered.insertionSort fun a b ↦ a.1 ≤ b.1

/-- The file `open` reads. -/
def newest? (directory : Directory) : Option (ℕ × FileData) := directory.generations.getLast?

theorem mem_numbered (directory : Directory) (number : ℕ) (data : FileData) :
    (number, data) ∈ directory.numbered ↔
      (FileName.generation number, data) ∈ directory.entries := by
  simp only [numbered, List.mem_filterMap]
  constructor
  · rintro ⟨⟨name, contents⟩, hmem, hsome⟩
    cases name with
    | pending suffix => cases hsome
    | generation number' => cases hsome; exact hmem
  · intro hmem
    exact ⟨_, hmem, rfl⟩

theorem mem_generations (directory : Directory) (number : ℕ) (data : FileData) :
    (number, data) ∈ directory.generations ↔
      (FileName.generation number, data) ∈ directory.entries := by
  rw [generations, List.mem_insertionSort, mem_numbered]

theorem sorted_generations (directory : Directory) :
    directory.generations.Pairwise fun a b ↦ a.1 ≤ b.1 :=
  List.pairwise_insertionSort _ _

/-- The newest file is the numbered file that no other one exceeds. -/
theorem newest?_eq_some_iff (directory : Directory) (number : ℕ) (data : FileData) :
    directory.newest? = some (number, data) ↔
      (FileName.generation number, data) ∈ directory.entries ∧
        ∀ other contents, (FileName.generation other, contents) ∈ directory.entries →
          other ≤ number := by
  have hsorted := directory.sorted_generations
  constructor
  · intro h
    obtain ⟨rest, hrest⟩ := List.getLast?_eq_some_iff.mp h
    refine ⟨(directory.mem_generations _ _).mp (by rw [hrest]; simp), ?_⟩
    intro other contents hmem
    have hmem' := (directory.mem_generations _ _).mpr hmem
    rw [hrest, List.pairwise_append] at hsorted
    rw [hrest, List.mem_append, List.mem_singleton] at hmem'
    rcases hmem' with hmem' | hmem'
    · exact hsorted.2.2 _ hmem' _ (List.mem_singleton.mpr rfl)
    · cases hmem'
      exact le_rfl
  · rintro ⟨hmem, hmax⟩
    have hmem' := (directory.mem_generations _ _).mpr hmem
    cases hlast : directory.newest? with
    | none =>
      rw [newest?, List.getLast?_eq_none_iff] at hlast
      rw [hlast] at hmem'
      exact absurd hmem' List.not_mem_nil
    | some file =>
      obtain ⟨rest, hrest⟩ := List.getLast?_eq_some_iff.mp hlast
      have hfile := (directory.mem_generations file.1 file.2).mp (by rw [hrest]; simp)
      have hle := hmax _ _ hfile
      have hge : number ≤ file.1 := by
        rw [hrest, List.pairwise_append] at hsorted
        rw [hrest, List.mem_append, List.mem_singleton] at hmem'
        rcases hmem' with hmem' | hmem'
        · exact hsorted.2.2 _ hmem' _ (List.mem_singleton.mpr rfl)
        · rw [← hmem']
      have hname : file.1 = number := le_antisymm hle hge
      have heq := Keyed.Table.eq_of_key_eq hfile hmem (congrArg FileName.generation hname)
      exact congrArg some (Prod.ext hname (Prod.mk.inj heq).2)

theorem newest?_eq_none_iff (directory : Directory) :
    directory.newest? = none ↔
      ∀ number contents, (FileName.generation number, contents) ∉ directory.entries := by
  rw [newest?, List.getLast?_eq_none_iff]
  constructor
  · intro h number contents hmem
    have hmem' := (directory.mem_generations _ _).mpr hmem
    rw [h] at hmem'
    exact List.not_mem_nil hmem'
  · intro h
    cases hgen : directory.generations with
    | nil => rfl
    | cons file rest =>
      exact absurd ((directory.mem_generations file.1 file.2).mp (by rw [hgen]; simp)) (h _ _)

/-- What is read back depends on the numbered files only. -/
theorem newest?_congr {left right : Directory}
    (h : ∀ number data, (FileName.generation number, data) ∈ left.entries ↔
      (FileName.generation number, data) ∈ right.entries) : left.newest? = right.newest? := by
  apply Option.ext
  rintro ⟨number, data⟩
  rw [newest?_eq_some_iff, newest?_eq_some_iff, h]
  simp only [h]

/-- Creating or replacing a pending file is invisible to `open`. -/
theorem newest?_insert_pending (directory : Directory) (suffix : String) (data : FileData) :
    newest? (directory.insert (FileName.pending suffix, data)) = directory.newest? := by
  apply newest?_congr
  intro number contents
  rw [Keyed.Table.mem_insert]
  simp

/-- Removing a pending file is invisible to `open`. -/
theorem newest?_erase_pending (directory : Directory) (suffix : String) :
    newest? (directory.erase (FileName.pending suffix)) = directory.newest? := by
  apply newest?_congr
  intro number contents
  rw [Keyed.Table.mem_erase]
  simp

/-- A new number above all others is what `open` reads from then on. -/
theorem newest?_insert_generation (directory : Directory) (number : ℕ) (data : FileData)
    (h : ∀ other contents, (FileName.generation other, contents) ∈ directory.entries →
      other ≤ number) :
    newest? (directory.insert (FileName.generation number, data)) = some (number, data) := by
  rw [newest?_eq_some_iff]
  refine ⟨(directory.mem_insert _ _).mpr (.inl rfl), ?_⟩
  intro other contents hmem
  rcases (directory.mem_insert _ _).mp hmem with heq | ⟨hmem, -⟩
  · cases heq
    exact le_rfl
  · exact h other contents hmem

/-- Removing an older number leaves the newest file in place. -/
theorem newest?_erase_older {directory : Directory} {number : ℕ} {data : FileData}
    (h : directory.newest? = some (number, data)) {older : ℕ} (hlt : older < number) :
    newest? (directory.erase (FileName.generation older)) = some (number, data) := by
  rw [newest?_eq_some_iff] at h ⊢
  obtain ⟨hmem, hmax⟩ := h
  refine ⟨(directory.mem_erase _ _).mpr ⟨hmem, ?_⟩, ?_⟩
  · intro heq
    cases heq
    exact lt_irrefl _ hlt
  · intro other contents hother
    exact hmax other contents ((directory.mem_erase _ _).mp hother).1

end Directory

end Cameo.Store
