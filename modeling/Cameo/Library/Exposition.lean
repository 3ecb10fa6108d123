import Cameo.Library.Trim
import Mathlib.Data.List.Chain
import Mathlib.Data.List.Perm.Basic

/-!
# The text exposition of metrics

A text of lines, as a scraper reads it: what a metric is for, of which type it is, and samples with
labels, whose values have three escapes.  All lines about a metric are to be in one group, help and
type first; then what comes before a sample is about the metric of the sample.
-/

namespace Cameo.Library.Exposition

/-! ## What is exposed -/

/-- A sample: its metric, its labels with their values, and its value. -/
structure Sample where
  metric : List Char
  labels : List (List Char × List Char)
  value : List Char
deriving DecidableEq

inductive Line where
  | help (metric docs : List Char)
  | type (metric kind : List Char)
  | sample (sample : Sample)
deriving DecidableEq

structure Family where
  metric : List Char
  docs : List Char
  kind : List Char
  readings : List (List (List Char × List Char) × List Char)

def Family.samples (family : Family) : List Sample :=
  family.readings.map fun (labels, value) ↦ ⟨family.metric, labels, value⟩

def Family.lines (family : Family) : List Line :=
  .help family.metric family.docs :: .type family.metric family.kind ::
    family.samples.map .sample

/-! ## Reading a line -/

def skipBlanks (text : List Char) : List Char := text.dropWhile isSpaceOrTab

def isLabelChar (c : Char) : Bool := c.isAlphanum || c = '_'

def isMetricChar (c : Char) : Bool := isLabelChar c || c = ':'

/-- A name at the start of a text, and the text behind it. -/
def readName (isNameChar : Char → Bool) (text : List Char) : Option (List Char × List Char) :=
  let name := text.takeWhile isNameChar
  if name = [] ∨ name.head?.any Char.isDigit then none
  else some (name, text.dropWhile isNameChar)

/-- What a letter stands for behind a backslash. -/
def unescape : Char → Option Char
  | '\\' => some '\\'
  | '"' => some '"'
  | 'n' => some '\n'
  | _ => none

/-- The value that a text between quotes stands for. -/
def decode : List Char → Option (List Char)
  | [] => some []
  | '\\' :: letter :: rest => do
    let c ← unescape letter
    let value ← decode rest
    return c :: value
  | ['\\'] => none
  | c :: rest => (decode rest).map (c :: ·)

/-- The text up to the quote that ends it, and the text behind the quote. -/
def takeQuoted : List Char → Option (List Char × List Char)
  | [] => none
  | '"' :: rest => some ([], rest)
  | '\\' :: letter :: rest =>
    (takeQuoted rest).map fun (text, rest) ↦ ('\\' :: letter :: text, rest)
  | c :: rest => (takeQuoted rest).map fun (text, rest) ↦ (c :: text, rest)

/-- The text behind a character, which blanks may come before. -/
def expect (c : Char) (text : List Char) : Option (List Char) :=
  match skipBlanks text with
  | [] => none
  | d :: rest => if d = c then some rest else none

def readLabel (text : List Char) : Option ((List Char × List Char) × List Char) := do
  let (name, rest) ← readName isLabelChar text
  let rest ← expect '=' rest
  let rest ← expect '"' rest
  let (quoted, rest) ← takeQuoted rest
  let value ← decode quoted
  return ((name, value), rest)

def readLabels : ℕ → List Char → Option (List (List Char × List Char) × List Char)
  | 0, _ => none
  | fuel + 1, text =>
    match expect '}' text with
    | some rest => some ([], rest)
    | none => (readLabel (skipBlanks text)).bind fun (label, rest) ↦
      match expect ',' rest with
      | some rest => (readLabels fuel rest).map fun (labels, rest) ↦ (label :: labels, rest)
      | none => (expect '}' rest).map fun rest ↦ ([label], rest)

def readBraces (text : List Char) : Option (List (List Char × List Char) × List Char) :=
  match expect '{' text with
  | some rest => readLabels rest.length rest
  | none => some ([], text)

/-- A value without a time stamp behind it. -/
def readValue (text : List Char) : Option (List Char) :=
  let value := skipBlanks text
  if value = [] ∨ value.any isSpaceOrTab then none else some value

/-- A sample without a time stamp. -/
def readSample (text : List Char) : Option Sample := do
  let (metric, rest) ← readName isMetricChar text
  let (labels, rest) ← readBraces rest
  let value ← readValue rest
  return ⟨metric, labels, value⟩

def kinds : List (List Char) :=
  ["counter", "gauge", "histogram", "summary", "untyped"].map String.toList

/-- What comes behind a hash: the help or the type of a metric, or a comment. -/
def readComment (text : List Char) : Option (List Line) :=
  let text := skipBlanks text
  let keyword := text.takeWhile fun c ↦ !isSpaceOrTab c
  let rest := skipBlanks (text.dropWhile fun c ↦ !isSpaceOrTab c)
  if keyword = "HELP".toList then
    (readName isMetricChar rest).map fun (metric, rest) ↦ [.help metric (skipBlanks rest)]
  else if keyword = "TYPE".toList then
    (readName isMetricChar rest).bind fun (metric, rest) ↦
      if kinds.contains (skipBlanks rest) then some [.type metric (skipBlanks rest)] else none
  else some []

def readLine (line : List Char) : Option (List Line) :=
  if skipBlanks line = [] then some []
  else
    match expect '#' line with
    | some rest => readComment rest
    | none => (readSample (skipBlanks line)).map fun sample ↦ [.sample sample]

/-- A text whose lines are ended by line feeds. -/
def Ended (text : List Char) : Prop := text = [] ∨ text.getLast? = some '\n'

instance (text : List Char) : Decidable (Ended text) := instDecidableOr

def readText (text : List Char) : Option (List Line) :=
  if Ended text then ((text.splitOn '\n').mapM readLine).map List.flatten else none

/-- A text exposes samples: it is read as the groups of different metrics, which have these
samples. -/
def Exposes (text : List Char) (samples : List Sample) : Prop :=
  ∃ families : List Family, (families.map Family.metric).Nodup ∧
    readText text = some (families.flatMap Family.lines) ∧
    (families.flatMap Family.samples).Perm samples

/-! ## Texts of lines -/

def terminate (line : List Char) : List Char := line ++ ['\n']

theorem ended_terminate (line : List Char) : Ended (terminate line) := by
  right
  rw [terminate, List.getLast?_append]
  rfl

theorem ended_append {front back : List Char} (hfront : Ended front) (hback : Ended back) :
    Ended (front ++ back) := by
  rcases hback with rfl | hback
  · rwa [List.append_nil]
  · right
    rw [List.getLast?_append, hback]
    rfl

theorem exists_terminate_of_ended {text : List Char} (h : Ended text) (hne : text ≠ []) :
    ∃ front, text = terminate front := by
  have hlast : text.getLast? = some '\n' := h.resolve_left hne
  exact ⟨text.dropLast, (List.dropLast_append_getLast? '\n' hlast).symm⟩

theorem ended_append_iff {front back : List Char} (hfront : Ended front) :
    Ended (front ++ back) ↔ Ended back := by
  refine ⟨fun h ↦ ?_, ended_append hfront⟩
  by_cases hback : back = []
  · exact .inl hback
  · right
    have hlast := h.resolve_left (List.append_ne_nil_of_right_ne_nil front hback)
    rwa [List.getLast?_append_of_ne_nil front hback] at hlast

theorem readLine_nil : readLine [] = some [] := rfl

/-- A text is read one part behind the other. -/
theorem readText_append {front : List Char} (h : Ended front) (back : List Char) :
    readText (front ++ back) =
      (readText front).bind fun lines ↦ (readText back).map (lines ++ ·) := by
  by_cases hnil : front = []
  · subst hnil
    have hempty : readText [] = some [] := rfl
    rw [hempty, Option.bind_some, List.nil_append]
    exact Option.map_id'.symm
  · obtain ⟨lines, rfl⟩ := exists_terminate_of_ended h hnil
    have hsplit : (terminate lines ++ back).splitOn '\n' =
        lines.splitOn '\n' ++ back.splitOn '\n' := by
      rw [terminate, List.append_assoc, List.singleton_append, List.splitOn_append_cons_self]
    have hfront : (terminate lines).splitOn '\n' = lines.splitOn '\n' ++ [[]] := by
      rw [terminate, List.splitOn_append_cons_self]
      rfl
    unfold readText
    rw [if_pos h, hsplit, hfront, List.mapM_append, List.mapM_append]
    by_cases hback : Ended back
    · rw [if_pos hback, if_pos ((ended_append_iff h).mpr hback)]
      cases (lines.splitOn '\n').mapM readLine with
      | none => rfl
      | some said => cases (back.splitOn '\n').mapM readLine <;> simp [readLine_nil]
    · rw [if_neg hback, if_neg (mt (ended_append_iff h).mp hback)]
      cases (lines.splitOn '\n').mapM readLine <;> rfl

theorem readText_terminate {line : List Char} (h : '\n' ∉ line) :
    readText (terminate line) = readLine line := by
  unfold readText
  rw [if_pos (ended_terminate line), terminate, List.splitOn_append_cons_self,
    List.splitOn_eq_singleton h]
  cases hline : readLine line <;> simp [hline, readLine_nil]

/-- What is read of a text in two parts is read of the parts. -/
theorem exists_of_readText_append {front back : List Char} (h : Ended front) {lines : List Line}
    (hread : readText (front ++ back) = some lines) :
    ∃ before after, readText front = some before ∧ readText back = some after ∧
      lines = before ++ after := by
  rw [readText_append h] at hread
  obtain ⟨before, hbefore, hrest⟩ := Option.bind_eq_some_iff.mp hread
  obtain ⟨after, hafter, rfl⟩ := Option.map_eq_some_iff.mp hrest
  exact ⟨before, after, hbefore, hafter, rfl⟩

theorem ended_flatMap {α : Type} {part : α → List Char} (h : ∀ a, Ended (part a))
    (parts : List α) : Ended (parts.flatMap part) := by
  induction parts with
  | nil => exact .inl rfl
  | cons a parts ih =>
    rw [List.flatMap_cons]
    exact ended_append (h a) ih

/-- What is read of a text of parts is read of every part. -/
theorem exists_of_readText_flatMap {α : Type} {part : α → List Char} (h : ∀ a, Ended (part a))
    {parts : List α} {lines : List Line} (hread : readText (parts.flatMap part) = some lines) :
    ∀ a ∈ parts, ∃ said, readText (part a) = some said := by
  induction parts generalizing lines with
  | nil => exact List.forall_mem_nil _
  | cons a parts ih =>
    rw [List.flatMap_cons] at hread
    obtain ⟨said, later, ha, hlater, -⟩ := exists_of_readText_append (h a) hread
    rw [List.forall_mem_cons]
    exact ⟨⟨said, ha⟩, ih hlater⟩

/-- A text of lines that says these lines. -/
structure Says (text : List Char) (lines : List Line) : Prop where
  ended : Ended text
  read : readText text = some lines

/-- Only a text of lines is read. -/
theorem Says.of_read {text : List Char} {lines : List Line} (h : readText text = some lines) :
    Says text lines := by
  refine ⟨?_, h⟩
  unfold readText at h
  split at h
  · assumption
  · cases h

theorem Says.nil : Says [] [] := ⟨.inl rfl, rfl⟩

theorem Says.append {front back : List Char} {before after : List Line} (h : Says front before)
    (h' : Says back after) : Says (front ++ back) (before ++ after) := by
  refine ⟨ended_append h.ended h'.ended, ?_⟩
  rw [readText_append h.ended, h.read, h'.read]
  rfl

theorem Says.flatMap {α : Type} {part : α → List Char} {said : α → List Line} {parts : List α}
    (h : ∀ a ∈ parts, Says (part a) (said a)) : Says (parts.flatMap part) (parts.flatMap said) := by
  induction parts with
  | nil => exact .nil
  | cons a parts ih =>
    rw [List.forall_mem_cons] at h
    exact h.1.append (ih h.2)

theorem lines_map {α : Type} (metric docs kind : List Char)
    (reading : α → List (List Char × List Char) × List Char) (parts : List α) :
    Family.lines ⟨metric, docs, kind, parts.map reading⟩ =
      Family.lines ⟨metric, docs, kind, []⟩ ++
        parts.flatMap fun a ↦ [.sample ⟨metric, (reading a).1, (reading a).2⟩] := by
  simp only [Family.lines, Family.samples, List.map_map, List.map_nil, List.cons_append,
    List.nil_append]
  rw [← List.map_eq_flatMap]
  rfl

/-- The text of a family: its header, then its samples. -/
theorem Says.family {α : Type} {metric docs kind head : List Char} {part : α → List Char}
    {reading : α → List (List Char × List Char) × List Char} {parts : List α}
    (hhead : Says head (Family.lines ⟨metric, docs, kind, []⟩))
    (hpart : ∀ a ∈ parts, Says (part a) [.sample ⟨metric, (reading a).1, (reading a).2⟩]) :
    Says (head ++ parts.flatMap part)
      (Family.lines ⟨metric, docs, kind, parts.map reading⟩) := by
  rw [lines_map]
  exact hhead.append (.flatMap hpart)

/-! ## Names -/

def isName (isNameChar : Char → Bool) (name : List Char) : Bool :=
  name ≠ [] && name.all isNameChar && !name.head?.any Char.isDigit

theorem skipBlanks_cons {c : Char} (h : isSpaceOrTab c = false) (rest : List Char) :
    skipBlanks (c :: rest) = c :: rest :=
  List.dropWhile_cons_of_neg (by rw [h]; exact Bool.false_ne_true)

theorem expect_self {c : Char} (h : isSpaceOrTab c = false) (rest : List Char) :
    expect c (c :: rest) = some rest := by
  rw [expect, skipBlanks_cons h]
  exact if_pos rfl

theorem expect_ne {c d : Char} (h : isSpaceOrTab d = false) (hne : d ≠ c) (rest : List Char) :
    expect c (d :: rest) = none := by
  rw [expect, skipBlanks_cons h]
  exact if_neg hne

/-- A name is read up to a character that is not part of it. -/
theorem readName_append {isNameChar : Char → Bool} {name : List Char}
    (hname : isName isNameChar name = true) {c : Char} (hc : isNameChar c = false)
    (rest : List Char) : readName isNameChar (name ++ c :: rest) = some (name, c :: rest) := by
  unfold isName at hname
  rw [Bool.and_eq_true, Bool.and_eq_true, decide_eq_true_eq, Bool.not_eq_true'] at hname
  obtain ⟨⟨hne, hall⟩, hdigit⟩ := hname
  have hstop : ¬ isNameChar c = true := by rw [hc]; exact Bool.false_ne_true
  have htake : (name ++ c :: rest).takeWhile isNameChar = name := by
    rw [List.takeWhile_append_of_pos (List.all_eq_true.mp hall), List.takeWhile_cons_of_neg hstop,
      List.append_nil]
  have hdrop : (name ++ c :: rest).dropWhile isNameChar = c :: rest := by
    rw [List.dropWhile_append_of_pos (List.all_eq_true.mp hall), List.dropWhile_cons_of_neg hstop]
  unfold readName
  rw [htake, hdrop, if_neg]
  rw [hdigit, not_or]
  exact ⟨hne, Bool.false_ne_true⟩

/-- What is part of a name is not blank. -/
theorem isSpaceOrTab_of_isNameChar {isNameChar : Char → Bool} (hspace : isNameChar ' ' = false)
    (htab : isNameChar '\t' = false) {c : Char} (h : isNameChar c = true) :
    isSpaceOrTab c = false := by
  unfold isSpaceOrTab
  rw [Bool.or_eq_false_iff, decide_eq_false_iff_not, decide_eq_false_iff_not]
  constructor
  · rintro rfl
    rw [h] at hspace
    cases hspace
  · rintro rfl
    rw [h] at htab
    cases htab

/-- A name begins with a character that is part of it. -/
theorem exists_cons_of_isName {isNameChar : Char → Bool} {name : List Char}
    (h : isName isNameChar name = true) :
    ∃ c rest, name = c :: rest ∧ isNameChar c = true := by
  unfold isName at h
  rw [Bool.and_eq_true, Bool.and_eq_true, decide_eq_true_eq] at h
  cases name with
  | nil => exact absurd rfl h.1.1
  | cons c rest => exact ⟨c, rest, rfl, List.all_eq_true.mp h.1.2 c List.mem_cons_self⟩

theorem newline_not_mem_of_isName {isNameChar : Char → Bool} (hnewline : isNameChar '\n' = false)
    {name : List Char} (h : isName isNameChar name = true) : '\n' ∉ name := by
  intro hmem
  unfold isName at h
  rw [Bool.and_eq_true, Bool.and_eq_true] at h
  exact absurd (List.all_eq_true.mp h.1.2 '\n' hmem) (by rw [hnewline]; exact Bool.false_ne_true)

/-! ## Labels -/

/-- A text that no quote within it ends. -/
def Closed (quoted : List Char) : Prop :=
  ∀ rest, takeQuoted (quoted ++ '"' :: rest) = some (quoted, rest)

/-- Neither a quote nor a backslash. -/
def isPlain (c : Char) : Bool := c ≠ '"' && c ≠ '\\'

theorem takeQuoted_of_isPlain {c : Char} (h : isPlain c = true) (rest : List Char) :
    takeQuoted (c :: rest) = (takeQuoted rest).map fun (text, rest) ↦ (c :: text, rest) := by
  unfold isPlain at h
  rw [Bool.and_eq_true, decide_eq_true_eq, decide_eq_true_eq] at h
  rw [takeQuoted]
  · exact h.1
  · rintro letter back rfl -
    exact h.2 rfl

theorem decode_of_isPlain {c : Char} (h : isPlain c = true) (rest : List Char) :
    decode (c :: rest) = (decode rest).map (c :: ·) := by
  unfold isPlain at h
  rw [Bool.and_eq_true, decide_eq_true_eq, decide_eq_true_eq] at h
  rw [decode]
  · rintro letter back rfl -
    exact h.2 rfl
  · rintro rfl -
    exact h.2 rfl

theorem closed_of_isPlain {text : List Char} (h : text.all isPlain = true) : Closed text := by
  intro rest
  induction text with
  | nil => rfl
  | cons c text ih =>
    rw [List.all_cons, Bool.and_eq_true] at h
    rw [List.cons_append, takeQuoted_of_isPlain h.1, ih h.2]
    rfl

theorem decode_of_all_isPlain {text : List Char} (h : text.all isPlain = true) :
    decode text = some text := by
  induction text with
  | nil => rfl
  | cons c text ih =>
    rw [List.all_cons, Bool.and_eq_true] at h
    rw [decode_of_isPlain h.1, ih h.2]
    rfl

def labelsText : List (List Char × List Char) → List Char
  | [] => []
  | [(name, quoted)] => name ++ '=' :: '"' :: (quoted ++ ['"'])
  | (name, quoted) :: labels =>
    name ++ '=' :: '"' :: (quoted ++ '"' :: ',' :: labelsText labels)

def decodeLabels : List (List Char × List Char) → Option (List (List Char × List Char))
  | [] => some []
  | (name, quoted) :: labels =>
    (decode quoted).bind fun value ↦ (decodeLabels labels).map ((name, value) :: ·)

theorem exists_of_decodeLabels {labels values : List (List Char × List Char)}
    (h : decodeLabels labels = some values) :
    ∀ label ∈ labels, ∃ value, decode label.2 = some value := by
  induction labels generalizing values with
  | nil => exact List.forall_mem_nil _
  | cons label labels ih =>
    rw [decodeLabels] at h
    obtain ⟨value, hvalue, hrest⟩ := Option.bind_eq_some_iff.mp h
    obtain ⟨later, hlater, -⟩ := Option.map_eq_some_iff.mp hrest
    rw [List.forall_mem_cons]
    exact ⟨⟨value, hvalue⟩, ih hlater⟩

/-- A label with a name, whose value ends at its quote in the same line. -/
structure Quoted (label : List Char × List Char) : Prop where
  name : isName isLabelChar label.1 = true
  closed : Closed label.2
  newline : '\n' ∉ label.2

theorem Quoted.of_closed {name quoted : List Char} (hname : isName isLabelChar name = true)
    (hclosed : Closed quoted) (hnewline : '\n' ∉ quoted) : Quoted (name, quoted) :=
  ⟨hname, hclosed, hnewline⟩

theorem readLabel_append {name quoted : List Char} (hname : isName isLabelChar name = true)
    (hquoted : Closed quoted) (rest : List Char) :
    readLabel (name ++ '=' :: '"' :: (quoted ++ '"' :: rest)) =
      (decode quoted).map fun value ↦ ((name, value), rest) := by
  have heq : expect '=' ('=' :: '"' :: (quoted ++ '"' :: rest)) =
      some ('"' :: (quoted ++ '"' :: rest)) := expect_self (by decide) _
  have hquote : expect '"' ('"' :: (quoted ++ '"' :: rest)) = some (quoted ++ '"' :: rest) :=
    expect_self (by decide) _
  have hread : readName isLabelChar (name ++ '=' :: '"' :: (quoted ++ '"' :: rest)) =
      some (name, '=' :: '"' :: (quoted ++ '"' :: rest)) := readName_append hname (by decide) _
  simp only [readLabel, hread, heq, hquote, hquoted rest, Option.bind_eq_bind, Option.bind_some]
  cases decode quoted <;> rfl

/-- A label is read where no brace closes the labels. -/
theorem readLabels_of_name {name : List Char} (hname : isName isLabelChar name = true) (fuel : ℕ)
    (rest : List Char) :
    readLabels (fuel + 1) (name ++ rest) =
      (readLabel (name ++ rest)).bind fun (label, rest) ↦
        match expect ',' rest with
        | some rest => (readLabels fuel rest).map fun (labels, rest) ↦ (label :: labels, rest)
        | none => (expect '}' rest).map fun rest ↦ ([label], rest) := by
  obtain ⟨c, name, rfl, hc⟩ := exists_cons_of_isName hname
  have hblank : isSpaceOrTab c = false := isSpaceOrTab_of_isNameChar (by decide) (by decide) hc
  have hbrace : c ≠ '}' := by
    rintro rfl
    exact absurd hc (by decide)
  rw [readLabels, List.cons_append, expect_ne hblank hbrace, skipBlanks_cons hblank]

/-- The last label is read up to the closing brace. -/
theorem readLabels_last {name quoted : List Char} (h : Quoted (name, quoted)) (fuel : ℕ)
    (rest : List Char) :
    readLabels (fuel + 1) (name ++ '=' :: '"' :: (quoted ++ '"' :: '}' :: rest)) =
      (decode quoted).map fun value ↦ ([(name, value)], rest) := by
  rw [readLabels_of_name h.name, readLabel_append h.name h.closed]
  cases decode quoted with
  | none => rfl
  | some value =>
    rw [Option.map_some, Option.bind_some]
    dsimp only
    rw [expect_ne (by decide) (by decide), expect_self (by decide)]
    rfl

/-- Behind a comma the labels go on. -/
theorem readLabels_comma {name quoted : List Char} (h : Quoted (name, quoted)) (fuel : ℕ)
    (rest : List Char) :
    readLabels (fuel + 1) (name ++ '=' :: '"' :: (quoted ++ '"' :: ',' :: rest)) =
      (decode quoted).bind fun value ↦
        (readLabels fuel rest).map fun (labels, rest) ↦ ((name, value) :: labels, rest) := by
  rw [readLabels_of_name h.name, readLabel_append h.name h.closed]
  cases decode quoted with
  | none => rfl
  | some value =>
    rw [Option.map_some, Option.bind_some, Option.bind_some]
    dsimp only
    rw [expect_self (by decide)]

theorem readLabels_append {labels : List (List Char × List Char)} (hne : labels ≠ [])
    (h : ∀ label ∈ labels, Quoted label) {fuel : ℕ} (hfuel : labels.length ≤ fuel)
    (rest : List Char) :
    readLabels fuel (labelsText labels ++ '}' :: rest) =
      (decodeLabels labels).map fun labels ↦ (labels, rest) := by
  induction labels generalizing fuel with
  | nil => exact absurd rfl hne
  | cons label labels ih =>
    obtain ⟨name, quoted⟩ := label
    have hlabel := h _ List.mem_cons_self
    obtain ⟨fuel, rfl⟩ := Nat.exists_eq_add_one_of_ne_zero (Nat.ne_zero_of_lt hfuel)
    cases labels with
    | nil =>
      have htext : labelsText [(name, quoted)] ++ '}' :: rest =
          name ++ '=' :: '"' :: (quoted ++ '"' :: '}' :: rest) := by
        simp [labelsText]
      rw [htext, readLabels_last hlabel, decodeLabels]
      cases decode quoted <;> rfl
    | cons second labels =>
      have htext : labelsText ((name, quoted) :: second :: labels) ++ '}' :: rest =
          name ++ '=' :: '"' ::
            (quoted ++ '"' :: ',' :: (labelsText (second :: labels) ++ '}' :: rest)) := by
        simp [labelsText]
      have hlater := ih (List.cons_ne_nil second labels)
        (fun other hother ↦ h other (List.mem_cons_of_mem _ hother))
        (Nat.le_of_succ_le_succ hfuel)
      rw [htext, readLabels_comma hlabel, decodeLabels, hlater]
      cases decode quoted with
      | none => rfl
      | some value => cases decodeLabels (second :: labels) <;> rfl

/-! ## Samples -/

def sampleText (metric : List Char) (labels : List (List Char × List Char)) (value : List Char) :
    List Char :=
  metric ++ '{' :: (labelsText labels ++ '}' :: ' ' :: value)

theorem length_le_labelsText (labels : List (List Char × List Char)) :
    labels.length ≤ (labelsText labels).length := by
  induction labels with
  | nil => exact le_rfl
  | cons label labels ih =>
    cases labels with
    | nil =>
      rw [labelsText, List.length_append]
      exact Nat.le_add_left_of_le (Nat.succ_le_succ (Nat.zero_le _))
    | cons second labels =>
      rw [List.length_cons] at ih
      simp only [labelsText, List.length_append, List.length_cons]
      omega

structure IsWord (value : List Char) : Prop where
  nonempty : value ≠ []
  plain : ∀ c ∈ value, isSpaceOrTab c = false ∧ c ≠ '\n' ∧ c ≠ '{'

theorem isWord_of_isDigit {value : List Char} (hne : value ≠ [])
    (h : ∀ c ∈ value, c.isDigit = true) : IsWord value := by
  refine ⟨hne, fun c hc ↦ ?_⟩
  have hdigit := h c hc
  refine ⟨isSpaceOrTab_of_isNameChar rfl rfl hdigit, ?_, ?_⟩
  · rintro rfl
    exact absurd hdigit (by decide)
  · rintro rfl
    exact absurd hdigit (by decide)

theorem IsWord.any_isSpaceOrTab {value : List Char} (h : IsWord value) :
    value.any isSpaceOrTab = false :=
  List.any_eq_false.mpr fun c hc ↦ by rw [(h.plain c hc).1]; exact Bool.false_ne_true

theorem IsWord.newline {value : List Char} (h : IsWord value) : '\n' ∉ value :=
  fun hmem ↦ (h.plain _ hmem).2.1 rfl

theorem IsWord.readValue {value : List Char} (h : IsWord value) :
    readValue (' ' :: value) = some value := by
  have hskip : skipBlanks (' ' :: value) = value := by
    obtain ⟨c, rest, rfl⟩ := List.exists_cons_of_ne_nil h.nonempty
    exact skipBlanks_cons (h.plain c List.mem_cons_self).1 rest
  unfold Exposition.readValue
  rw [hskip, if_neg]
  rw [h.any_isSpaceOrTab]
  exact not_or.mpr ⟨h.nonempty, Bool.false_ne_true⟩

/-- A line that begins with a name is read as a sample. -/
theorem readLine_of_name {metric : List Char} (h : isName isMetricChar metric = true)
    (rest : List Char) :
    readLine (metric ++ rest) =
      (readSample (metric ++ rest)).map fun sample ↦ [.sample sample] := by
  obtain ⟨c, metric, rfl, hc⟩ := exists_cons_of_isName h
  have hblank : isSpaceOrTab c = false := isSpaceOrTab_of_isNameChar (by decide) (by decide) hc
  have hhash : c ≠ '#' := by
    rintro rfl
    exact absurd hc (by decide)
  rw [readLine, List.cons_append, expect_ne hblank hhash, skipBlanks_cons hblank,
    if_neg (List.cons_ne_nil c _)]

theorem newline_not_mem_labelsText {labels : List (List Char × List Char)}
    (h : ∀ label ∈ labels, Quoted label) : '\n' ∉ labelsText labels := by
  induction labels with
  | nil => exact List.not_mem_nil
  | cons label labels ih =>
    obtain ⟨name, quoted⟩ := label
    obtain ⟨hname, -, hquoted⟩ := h _ List.mem_cons_self
    have hnewline := newline_not_mem_of_isName (by decide) hname
    have hlater := ih fun other hother ↦ h other (List.mem_cons_of_mem _ hother)
    cases labels with
    | nil => simp [labelsText, hnewline, hquoted]
    | cons second labels => simp [labelsText, hnewline, hquoted, hlater]

/-- The text of a sample is read as the sample, if the values of its labels stand for something. -/
theorem readText_sample {metric value : List Char} {labels : List (List Char × List Char)}
    (hmetric : isName isMetricChar metric = true) (hne : labels ≠ [])
    (h : ∀ label ∈ labels, Quoted label) (hvalue : IsWord value) :
    readText (terminate (sampleText metric labels value)) =
      (decodeLabels labels).map fun labels ↦ [.sample ⟨metric, labels, value⟩] := by
  have hnewline : '\n' ∉ sampleText metric labels value := by
    have hname := newline_not_mem_of_isName (by decide) hmetric
    simp [sampleText, hname, newline_not_mem_labelsText h, hvalue.newline]
  have hfuel : labels.length ≤ (labelsText labels ++ '}' :: ' ' :: value).length := by
    have hle := length_le_labelsText labels
    rw [List.length_append]
    omega
  have hbraces : readBraces ('{' :: (labelsText labels ++ '}' :: ' ' :: value)) =
      (decodeLabels labels).map fun labels ↦ (labels, ' ' :: value) := by
    rw [readBraces, expect_self (by decide)]
    exact readLabels_append hne h hfuel (' ' :: value)
  rw [readText_terminate hnewline, sampleText, readLine_of_name hmetric, readSample,
    readName_append hmetric (by decide)]
  simp only [Option.bind_eq_bind, Option.bind_some, hbraces]
  cases decodeLabels labels with
  | none => rfl
  | some labels =>
    simp only [Option.map_some, Option.bind_some, hvalue.readValue]
    rfl

/-- A sample without labels is read as it is written. -/
theorem readText_bare {metric value : List Char} (hmetric : isName isMetricChar metric = true)
    (hvalue : IsWord value) :
    readText (terminate (metric ++ ' ' :: value)) = some [.sample ⟨metric, [], value⟩] := by
  have hnewline : '\n' ∉ metric ++ ' ' :: value := by
    have hname := newline_not_mem_of_isName (by decide) hmetric
    simp [hname, hvalue.newline]
  have hexpect : expect '{' (' ' :: value) = none := by
    obtain ⟨c, rest, rfl⟩ := List.exists_cons_of_ne_nil hvalue.nonempty
    have hc := hvalue.plain c List.mem_cons_self
    exact expect_ne hc.1 hc.2.2 rest
  have hbraces : readBraces (' ' :: value) = some ([], ' ' :: value) := by
    rw [readBraces, hexpect]
  rw [readText_terminate hnewline, readLine_of_name hmetric, readSample,
    readName_append hmetric (by decide)]
  simp only [Option.bind_eq_bind, Option.bind_some, hbraces, hvalue.readValue]
  rfl

/-! ## Groups -/

def Line.metric : Line → List Char
  | .help metric _ => metric
  | .type metric _ => metric
  | .sample said => said.metric

/-- A sample comes behind a line about its metric. -/
def Follows (line : Line) : Line → Prop
  | .sample sample => line.metric = sample.metric
  | _ => True

theorem metric_of_mem_lines {family : Family} {line : Line} (h : line ∈ family.lines) :
    line.metric = family.metric := by
  unfold Family.lines at h
  rw [List.mem_cons, List.mem_cons, List.mem_map] at h
  rcases h with rfl | rfl | ⟨sample, hsample, rfl⟩
  · rfl
  · rfl
  · obtain ⟨reading, -, rfl⟩ := List.mem_map.mp hsample
    rfl

theorem follows_of_metric_eq {line next : Line} (h : line.metric = next.metric) :
    Follows line next := by
  cases next with
  | help => trivial
  | type => trivial
  | sample sample => exact h

theorem isChain_lines (families : List Family) :
    (families.flatMap Family.lines).IsChain Follows := by
  induction families with
  | nil => exact .nil
  | cons family families ih =>
    rw [List.flatMap_cons, List.isChain_append]
    refine ⟨?_, ih, ?_⟩
    · refine List.Pairwise.isChain (List.pairwise_of_forall_mem_list fun line hline next hnext ↦ ?_)
      exact follows_of_metric_eq
        ((metric_of_mem_lines hline).trans (metric_of_mem_lines hnext).symm)
    · -- the next group begins with the help of its metric
      intro line _ next hnext
      cases families with
      | nil => cases hnext
      | cons second families =>
        rw [List.flatMap_cons, Family.lines, List.cons_append, List.head?_cons] at hnext
        cases hnext
        trivial

def sampled (lines : List Line) : List Sample :=
  lines.filterMap fun
    | .sample said => some said
    | _ => none

/-- The samples of a text come metric by metric, wherever the helps and types stand. -/
def Gathers (text : List Char) (samples : List Sample) : Prop :=
  ∃ families : List Family, (families.map Family.metric).Nodup ∧
    (readText text).map sampled = some (families.flatMap Family.samples) ∧
    (families.flatMap Family.samples).Perm samples

theorem sampled_append (front back : List Line) :
    sampled (front ++ back) = sampled front ++ sampled back := List.filterMap_append

theorem metric_of_mem_samples {family : Family} {sample : Sample} (h : sample ∈ family.samples) :
    sample.metric = family.metric := by
  obtain ⟨reading, -, rfl⟩ := List.mem_map.mp h
  rfl

/-- The samples of different families come in the order of the families. -/
theorem pairwise_samples {families : List Family} (h : (families.map Family.metric).Nodup) :
    (families.flatMap Family.samples).Pairwise fun first second ↦
      (families.map Family.metric).idxOf first.metric ≤
        (families.map Family.metric).idxOf second.metric := by
  rw [List.pairwise_flatMap]
  constructor
  · intro family _
    refine List.pairwise_of_forall_mem_list fun first hfirst second hsecond ↦ ?_
    rw [metric_of_mem_samples hfirst, metric_of_mem_samples hsecond]
  · rw [List.pairwise_iff_getElem]
    intro i j hi hj hlt first hfirst second hsecond
    have hrank (k : ℕ) (hk : k < families.length) :
        (families.map Family.metric).idxOf families[k].metric = k := by
      have hlength : k < (families.map Family.metric).length := by rwa [List.length_map]
      have hindex := h.idxOf_getElem k hlength
      rwa [List.getElem_map] at hindex
    rw [metric_of_mem_samples hfirst, metric_of_mem_samples hsecond, hrank i hi, hrank j hj]
    exact hlt.le

/-- Samples that come metric by metric do not come back to a metric. -/
theorem metric_ne_of_samples {families : List Family} (h : (families.map Family.metric).Nodup)
    {front back : List Sample} {first second third : Sample}
    (hsamples : families.flatMap Family.samples = front ++ first :: second :: third :: back)
    (hne : first.metric ≠ second.metric) : first.metric ≠ third.metric := by
  intro hsame
  have hpairs := pairwise_samples h
  rw [hsamples] at hpairs
  have hlater := (List.pairwise_append.mp hpairs).2.1
  rw [List.pairwise_cons, List.pairwise_cons] at hlater
  have hup := hlater.1 second List.mem_cons_self
  have hdown := hlater.2.1 third List.mem_cons_self
  rw [← hsame] at hdown
  have hmem : first.metric ∈ families.map Family.metric := by
    have hfirst : first ∈ families.flatMap Family.samples := by
      rw [hsamples]
      exact List.mem_append_right front List.mem_cons_self
    obtain ⟨family, hfamily, hsample⟩ := List.mem_flatMap.mp hfirst
    rw [metric_of_mem_samples hsample]
    exact List.mem_map_of_mem hfamily
  exact hne ((List.idxOf_inj hmem).mp (le_antisymm hup hdown))

/-- In groups, what comes before a sample is about its metric. -/
theorem Exposes.metric_eq {front back : List Line} {line : Line} {sample : Sample}
    {families : List Family}
    (h : families.flatMap Family.lines = front ++ line :: .sample sample :: back) :
    line.metric = sample.metric := by
  have hchain := isChain_lines families
  rw [h] at hchain
  exact (List.isChain_cons_cons.mp (List.isChain_append.mp hchain).2.1).1

end Cameo.Library.Exposition
