import Cameo.Bytes

/-!
# Paths

What `PurePosixPath` and `posixpath.normpath` make of a path.  A path that is printed is read as
itself, and on a path without dot-dot components the two agree.
-/

namespace Cameo

/-- One component of the path, in `posixpath.normpath`. -/
def normComponent (absolute : Bool) (comps : List (List Char)) (comp : List Char) :
    List (List Char) :=
  if comp = [] ∨ comp = ['.'] then comps
  else if comp ≠ ['.', '.'] ∨ (absolute = false ∧ comps = []) ∨
      comps.getLast? = some ['.', '.'] then comps ++ [comp]
  else comps.dropLast

/-- `posixpath.normpath`.  It keeps the slashes at the start that `PurePosixPath` keeps. -/
def normpath (path : String) : String :=
  let root := (PosixPath.ofString path).root
  let comps := (path.toList.splitOn '/').foldl (normComponent (root ≠ "")) []
  PosixPath.toString ⟨root, comps.map String.ofList⟩

/-- `path.lstrip("/")`. -/
def lstripSlash (path : String) : String := String.ofList (path.toList.dropWhile (· = '/'))

namespace PosixPath

/-! ## Reading a path back -/

/-- A path as it is read: a root of at most two slashes, and no component that would be dropped or
split. -/
structure WellFormed (path : PosixPath) : Prop where
  root : path.root = "" ∨ path.root = "/" ∨ path.root = "//"
  part : ∀ part ∈ path.parts, part ≠ "" ∧ part ≠ "." ∧ '/' ∉ part.toList

/-- No piece of a split has the separator in it. -/
theorem not_mem_splitOn {text piece : List Char} {separator : Char}
    (h : piece ∈ text.splitOn separator) : separator ∉ piece := by
  intro hmem
  have hfree := @not_of_mem_splitOnP _ _ (· == separator) h separator hmem
  rw [beq_self_eq_true] at hfree
  cases hfree

theorem mem_parts_ofString {text part : String} (h : part ∈ (ofString text).parts) :
    part ≠ "" ∧ part ≠ "." ∧ '/' ∉ part.toList := by
  obtain ⟨piece, hpiece, rfl⟩ := List.mem_map.mp h
  obtain ⟨hsplit, hkept⟩ := List.mem_filter.mp hpiece
  obtain ⟨hnil, hdot⟩ := of_decide_eq_true hkept
  refine ⟨?_, ?_, ?_⟩
  · exact fun heq ↦ hnil (by simpa using congrArg String.toList heq)
  · exact fun heq ↦ hdot (by simpa using congrArg String.toList heq)
  · rw [String.toList_ofList]
    exact not_mem_splitOn hsplit

theorem wellFormed_ofString (text : String) : (ofString text).WellFormed where
  root := by
    unfold ofString
    dsimp only
    split
    · exact .inr (.inl rfl)
    · exact .inr (.inr rfl)
    · exact .inr (.inl rfl)
    · exact .inl rfl
  part := fun _ h ↦ mem_parts_ofString h

/-- A character other than a slash is in a text if it is in one of the pieces. -/
theorem mem_splitOn_iff {text : List Char} {c : Char} (hc : c ≠ '/') :
    (∃ piece ∈ text.splitOn '/', c ∈ piece) ↔ c ∈ text := by
  induction text with
  | nil => simp
  | cons first rest ih =>
    rw [List.splitOn_cons_eq_if_modifyHead, List.mem_cons, ← ih]
    split
    · rename_i hslash
      rw [beq_iff_eq] at hslash
      simp [hslash, hc]
    · cases hsplit : rest.splitOn '/' with
      | nil => exact absurd hsplit (List.splitOn_ne_nil '/' rest)
      | cons piece pieces =>
        simp [or_assoc]

/-- The characters of a text are those of its components, slashes and dots apart. -/
theorem mem_parts_iff {text : String} {c : Char} (hslash : c ≠ '/') (hdot : c ≠ '.') :
    (∃ part ∈ (ofString text).parts, c ∈ part.toList) ↔ c ∈ text.toList := by
  rw [← mem_splitOn_iff hslash]
  constructor
  · rintro ⟨part, hpart, hc⟩
    obtain ⟨piece, hpiece, rfl⟩ := List.mem_map.mp hpart
    rw [String.toList_ofList] at hc
    exact ⟨piece, (List.mem_filter.mp hpiece).1, hc⟩
  · rintro ⟨piece, hpiece, hc⟩
    refine ⟨String.ofList piece,
      List.mem_map.mpr ⟨piece, List.mem_filter.mpr ⟨hpiece, ?_⟩, rfl⟩, ?_⟩
    · apply decide_eq_true
      constructor
      · rintro rfl
        cases hc
      · rintro rfl
        exact hdot (List.mem_singleton.mp hc)
    · rwa [String.toList_ofList]

/-- The components of a path, joined with slashes. -/
theorem toList_intercalate_parts {parts : List String} :
    ("/".intercalate parts).toList = ['/'].intercalate (parts.map String.toList) := by
  rw [String.toList_intercalate]
  rfl

/-- Components that are joined are split into themselves. -/
theorem parts_intercalate {parts : List String}
    (h : ∀ part ∈ parts, part ≠ "" ∧ part ≠ "." ∧ '/' ∉ part.toList) :
    (((['/'].intercalate (parts.map String.toList)).splitOn '/').filter
      fun part ↦ part ≠ [] ∧ part ≠ ['.']).map String.ofList = parts := by
  cases parts with
  | nil => rfl
  | cons first rest =>
    have hslash : ∀ piece ∈ (first :: rest).map String.toList, '/' ∉ piece := by
      intro piece hpiece
      obtain ⟨part, hpart, rfl⟩ := List.mem_map.mp hpiece
      exact (h part hpart).2.2
    have hkept : ((first :: rest).map String.toList).filter
        (fun part ↦ part ≠ [] ∧ part ≠ ['.']) = (first :: rest).map String.toList := by
      apply List.filter_eq_self.mpr
      intro piece hpiece
      obtain ⟨part, hpart, rfl⟩ := List.mem_map.mp hpiece
      obtain ⟨hempty, hdot, -⟩ := h part hpart
      refine decide_eq_true ⟨fun hnil ↦ hempty ?_, fun hsingle ↦ hdot ?_⟩
      · exact String.toList_inj.mp hnil
      · exact String.toList_inj.mp hsingle
    rw [List.splitOn_intercalate '/' hslash (by simp), hkept, List.map_map]
    simp

/-- What is joined does not start with a slash. -/
theorem head?_intercalate_ne {parts : List String}
    (h : ∀ part ∈ parts, part ≠ "" ∧ part ≠ "." ∧ '/' ∉ part.toList) :
    ∀ rest, ['/'].intercalate (parts.map String.toList) ≠ '/' :: rest := by
  intro rest heq
  cases parts with
  | nil => cases heq
  | cons first others =>
    obtain ⟨hempty, -, hslash⟩ := h first List.mem_cons_self
    cases hfirst : first.toList with
    | nil => exact hempty (String.toList_eq_nil_iff.mp hfirst)
    | cons c tail =>
      have hc : c ≠ '/' := by
        rintro rfl
        exact hslash (hfirst ▸ List.mem_cons_self)
      rw [List.map_cons, hfirst] at heq
      cases others with
      | nil =>
        rw [List.map_nil, List.intercalate_singleton] at heq
        exact hc (List.cons.inj heq).1
      | cons second more =>
        rw [List.map_cons, List.intercalate_cons_cons] at heq
        exact hc (List.cons.inj heq).1

/-- A root in front of a text that does not start with a slash is read as that root. -/
theorem ofString_root_append {root : String} (hroot : root = "" ∨ root = "/" ∨ root = "//")
    {text : String} (h : ∀ rest, text.toList ≠ '/' :: rest) :
    ofString (root ++ text) = ⟨root, (ofString text).parts⟩ := by
  have hdropped (rest : List Char) :
      ((('/' :: rest).splitOn '/').filter fun part ↦ part ≠ [] ∧ part ≠ ['.']) =
        (rest.splitOn '/').filter fun part ↦ part ≠ [] ∧ part ≠ ['.'] := by
    rw [List.splitOn_cons_eq_if_modifyHead, if_pos (beq_self_eq_true _)]
    exact List.filter_cons_of_neg (by simp)
  unfold ofString
  rw [String.toList_append]
  generalize text.toList = chars at h
  apply (PosixPath.mk.injEq ..).mpr
  rcases hroot with rfl | rfl | rfl
  · rw [show "".toList ++ chars = chars from rfl]
    refine ⟨?_, rfl⟩
    split
    · exact absurd rfl (h _)
    · exact absurd rfl (h _)
    · exact absurd rfl (h _)
    · rfl
  · rw [show "/".toList ++ chars = '/' :: chars from rfl]
    refine ⟨?_, congrArg _ (hdropped chars)⟩
    split
    · rename_i heq
      exact absurd (List.cons.inj heq).2 (h _)
    · rename_i heq
      exact absurd (List.cons.inj heq).2 (h _)
    · rfl
    · rename_i hno
      exact absurd rfl (hno chars)
  · rw [show "//".toList ++ chars = '/' :: '/' :: chars from rfl]
    refine ⟨?_, congrArg _ ((hdropped ('/' :: chars)).trans (hdropped chars))⟩
    split
    · rename_i heq
      exact absurd (List.cons.inj (List.cons.inj heq).2).2 (h _)
    · rfl
    · rename_i hno heq
      exact absurd (List.cons.inj heq).2.symm (hno chars)
    · rename_i hno
      exact absurd rfl (hno ('/' :: chars))

/-- A path that is printed is read as itself. -/
theorem ofString_toString {path : PosixPath} (h : path.WellFormed) :
    ofString path.toString = path := by
  obtain ⟨root, parts⟩ := path
  by_cases hdot : root = "" ∧ parts = []
  · obtain ⟨rfl, rfl⟩ := hdot
    rfl
  · have hhead : ∀ rest, ("/".intercalate parts).toList ≠ '/' :: rest := by
      rw [toList_intercalate_parts]
      exact head?_intercalate_ne h.part
    have hparts : (ofString ("/".intercalate parts)).parts = parts := by
      unfold ofString
      rw [toList_intercalate_parts]
      exact parts_intercalate h.part
    rw [toString, if_neg hdot, ofString_root_append h.root hhead, hparts]

/-! ## Normalized paths -/

/-- Without dot-dot components, `normpath` drops the empty ones and the dots. -/
theorem foldl_normComponent (absolute : Bool) {comps : List (List Char)}
    (h : ['.', '.'] ∉ comps) (acc : List (List Char)) :
    comps.foldl (normComponent absolute) acc =
      acc ++ comps.filter fun comp ↦ comp ≠ [] ∧ comp ≠ ['.'] := by
  induction comps generalizing acc with
  | nil => simp
  | cons comp rest ih =>
    have hcomp : comp ≠ ['.', '.'] := fun heq ↦ h (heq ▸ List.mem_cons_self)
    have hrest : ['.', '.'] ∉ rest := fun hmem ↦ h (List.mem_cons_of_mem _ hmem)
    rw [List.foldl_cons, ih hrest, List.filter_cons]
    unfold normComponent
    by_cases hdropped : comp = [] ∨ comp = ['.']
    · rw [if_pos hdropped, if_neg (by simp; tauto)]
    · rw [if_neg hdropped, if_pos (.inl hcomp), if_pos (by simp; tauto),
        List.append_assoc, List.singleton_append]

/-- On a path without dot-dot components the two agree. -/
theorem normpath_eq {path : String} (h : ".." ∉ (ofString path).parts) :
    normpath path = (ofString path).toString := by
  have hdots : ['.', '.'] ∉ path.toList.splitOn '/' := by
    intro hmem
    apply h
    exact List.mem_map.mpr ⟨['.', '.'], List.mem_filter.mpr ⟨hmem, by decide⟩, rfl⟩
  unfold normpath
  dsimp only
  rw [foldl_normComponent _ hdots, List.nil_append]
  rfl

/-- Slashes at the start are no part of the components. -/
theorem parts_lstripSlash (path : String) :
    (ofString (lstripSlash path)).parts = (ofString path).parts := by
  unfold ofString lstripSlash
  dsimp only
  rw [String.toList_ofList]
  congr 1
  induction path.toList with
  | nil => rfl
  | cons c rest ih =>
    by_cases hc : c = '/'
    · rw [List.dropWhile_cons_of_pos (by simp [hc]), ih, hc, List.splitOn_cons_eq_if_modifyHead,
        if_pos (beq_self_eq_true _)]
      exact (List.filter_cons_of_neg (by simp)).symm
    · rw [List.dropWhile_cons_of_neg (by simp [hc])]

end PosixPath

end Cameo
