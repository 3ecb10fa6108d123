import Cameo.Library.Trim
import Mathlib.Data.List.TakeWhile

/-!
# The POSIX shell, reading one simple command

A line without operators, expansions, patterns and comments: it is split at blanks into words, in
which single quotes and backslashes quote characters.  The words before the first that is not an
assignment are assignments, and the rest are the command word and its arguments.  A line that has
more than that in it is not read.

Two things POSIX leaves to the shell: what it reserves besides the reserved words, and whether a
word with an equals sign after something that is not a name is an assignment.  There are no aliases.
-/

namespace Cameo.Library.Shell

/-! ## Words -/

/-- A character of a word, as it stands on the line. -/
inductive Glyph where
  | plain (c : Char)
  | quoted (c : Char)
  /-- A quoting character, which is removed. -/
  | mark
deriving DecidableEq

def Glyph.text : Glyph → List Char
  | .plain c | .quoted c => [c]
  | .mark => []

abbrev Word := List Glyph

/-- A word after its quoting characters have been removed. -/
def Word.text (word : Word) : List Char := word.flatMap Glyph.text

def apostrophe : Char := Char.ofNat 39

/-- The characters that stand for themselves anywhere in a word. -/
def isOrdinary (c : Char) : Bool :=
  0x20 < c.toNat && c.toNat < 0x7f && !"|&;<>()$`\\\"*?[#~".toList.contains c && c ≠ apostrophe

/-- Where the reader is: between words, or in a word that has been read so far. -/
inductive Mode where
  | between
  | word (sofar : Word)
  | single (sofar : Word)
  | escaped (sofar : Word)

def enter (sofar : Word) (c : Char) : Option Mode :=
  if c = apostrophe then some (.single (sofar ++ [.mark]))
  else if c = '\\' then some (.escaped (sofar ++ [.mark]))
  else if isOrdinary c then some (.word (sofar ++ [.plain c]))
  else none

def words : Mode → List Char → Option (List Word)
  | .between, [] => some []
  | .word sofar, [] => some [sofar]
  | .single _, [] | .escaped _, [] => none
  | .between, c :: rest =>
    if isSpaceOrTab c then words .between rest
    else
      match enter [] c with
      | some mode => words mode rest
      | none => none
  | .word sofar, c :: rest =>
    if isSpaceOrTab c then (words .between rest).map (sofar :: ·)
    else
      match enter sofar c with
      | some mode => words mode rest
      | none => none
  | .single sofar, c :: rest =>
    if c = apostrophe then words (.word (sofar ++ [.mark])) rest
    else if c = Char.ofNat 0 then none
    else words (.single (sofar ++ [.quoted c])) rest
  | .escaped sofar, c :: rest =>
    if c = '\n' ∨ c = Char.ofNat 0 then none else words (.word (sofar ++ [.quoted c])) rest

/-! ## Commands -/

def isName (text : List Char) : Bool :=
  (text.head?.any fun c ↦ c.isAlpha || c = '_') && text.all fun c ↦ c.isAlphanum || c = '_'

def reservedWords : List String :=
  ["!", "\x7b", "\x7d", "case", "do", "done", "elif", "else", "esac", "fi", "for", "if", "in",
    "then", "until", "while"]

def optionalWords : List String := ["[[", "]]", "function", "namespace", "select", "time"]

structure Reader where
  /-- The words it reserves. -/
  reserves : List Char → Bool
  /-- Whether it takes a text that is not a name, before an equals sign, for one. -/
  takesPrefix : List Char → Bool
  reserves_reserved : ∀ word ∈ reservedWords, reserves word.toList = true
  reserves_only : ∀ text, reserves text = true → (∃ word ∈ reservedWords, text = word.toList) ∨
    (∃ word ∈ optionalWords, text = word.toList) ∨ ∃ name, isName name = true ∧ text = name ++ [':']

/-- The command that a line stands for: the assignments before it, then its words. -/
structure Command where
  assignments : List (List Char × List Char)
  words : List (List Char)
deriving DecidableEq

def Glyph.plain? : Glyph → Option Char
  | .plain c => some c
  | _ => none

variable (reader : Reader)

def Reader.assignment? (word : Word) : Option (List Char × List Char) :=
  let before := word.takeWhile (· ≠ .plain '=')
  let value := (word.drop (before.length + 1)).flatMap Glyph.text
  if before = word ∨ before = [] then none
  else
    let name := before.filterMap Glyph.plain?
    if name.length = before.length ∧ isName name then some (name, value)
    else if reader.takesPrefix (before.flatMap Glyph.text) then
      some (before.flatMap Glyph.text, value)
    else none

def Reader.isReserved (word : Word) : Bool :=
  (word.filterMap Glyph.plain?).length = word.length && reader.reserves word.text

/-- The command of some words; reserved words count only as the first of all. -/
def Reader.command (first : Bool) : List Word → Option Command
  | [] => if first then none else some ⟨[], []⟩
  | word :: rest =>
    match reader.assignment? word with
    | some assignment => (command false rest).map fun made ↦
        { made with assignments := assignment :: made.assignments }
    | none =>
      if first && reader.isReserved word then none
      else some ⟨[], (word :: rest).map Word.text⟩

def Reader.read (line : List Char) : Option Command :=
  (words .between line).bind (reader.command true)

/-! ## Reading what is written -/

/-- Wherever a word goes on, a text is read as some more glyphs of it. -/
def Reads (text : List Char) (glyphs : Word) : Prop :=
  ∀ sofar rest, words (.word sofar) (text ++ rest) = words (.word (sofar ++ glyphs)) rest

theorem Reads.append {text later : List Char} {glyphs more : Word} (h : Reads text glyphs)
    (hlater : Reads later more) : Reads (text ++ later) (glyphs ++ more) := by
  intro sofar rest
  rw [List.append_assoc, h, hlater, List.append_assoc]

theorem isSpaceOrTab_of_isOrdinary {c : Char} (h : isOrdinary c = true) :
    isSpaceOrTab c = false := by
  unfold isOrdinary at h
  simp only [Bool.and_eq_true, decide_eq_true_eq] at h
  unfold isSpaceOrTab
  simp only [Bool.or_eq_false_iff, decide_eq_false_iff_not]
  constructor
  · rintro rfl
    exact absurd h.1.1.1 (by decide)
  · rintro rfl
    exact absurd h.1.1.1 (by decide)

theorem enter_of_isOrdinary {c : Char} (h : isOrdinary c = true) (sofar : Word) :
    enter sofar c = some (.word (sofar ++ [.plain c])) := by
  have hne : c ≠ apostrophe ∧ c ≠ '\\' := by
    unfold isOrdinary at h
    simp only [Bool.and_eq_true, decide_eq_true_eq, Bool.not_eq_true'] at h
    refine ⟨h.2, ?_⟩
    rintro rfl
    exact absurd h.1.2 (by decide)
  unfold enter
  rw [if_neg hne.1, if_neg hne.2, if_pos h]

theorem reads_ordinary {text : List Char} (h : ∀ c ∈ text, isOrdinary c = true) :
    Reads text (text.map .plain) := by
  induction text with
  | nil =>
    intro sofar rest
    rw [List.nil_append, List.map_nil, List.append_nil]
  | cons c later ih =>
    intro sofar rest
    have hc := h c List.mem_cons_self
    rw [List.cons_append, words, if_neg (by simp [isSpaceOrTab_of_isOrdinary hc]),
      enter_of_isOrdinary hc, List.map_cons]
    dsimp only
    rw [ih (fun d hd ↦ h d (List.mem_cons_of_mem c hd)), List.append_assoc, List.singleton_append]

/-- A text in single quotes; a single quote in it closes them, is escaped and opens them again. -/
def singleQuoted (text : List Char) : List Char :=
  apostrophe :: text.flatMap (fun c ↦
    if c = apostrophe then [apostrophe, '\\', apostrophe, apostrophe] else [c]) ++ [apostrophe]

def singleGlyphs (text : List Char) : Word :=
  .mark :: text.flatMap (fun c ↦
    if c = apostrophe then [.mark, .mark, .quoted apostrophe, .mark] else [.quoted c]) ++ [.mark]

theorem words_single {text : List Char} (h : Char.ofNat 0 ∉ text) (sofar : Word)
    (rest : List Char) :
    words (.single sofar) (text.flatMap (fun c ↦
      if c = apostrophe then [apostrophe, '\\', apostrophe, apostrophe] else [c]) ++
        apostrophe :: rest) =
      words (.word (sofar ++ text.flatMap (fun c ↦
        if c = apostrophe then [Glyph.mark, .mark, .quoted apostrophe, .mark] else [.quoted c]) ++
          [.mark])) rest := by
  induction text generalizing sofar with
  | nil =>
    rw [List.flatMap_nil, List.nil_append, words, if_pos rfl, List.flatMap_nil, List.append_nil]
  | cons c later ih =>
    have hlater : Char.ofNat 0 ∉ later := fun hmem ↦ h (List.mem_cons_of_mem c hmem)
    rw [List.flatMap_cons, List.flatMap_cons]
    by_cases hquote : c = apostrophe
    · have hescape : '\\' ≠ apostrophe := by decide
      have hnewline : ¬ (apostrophe = '\n' ∨ apostrophe = Char.ofNat 0) := by decide
      rw [if_pos hquote, if_pos hquote]
      simp only [List.cons_append, List.nil_append]
      -- The quotes close, the backslash escapes the quote, and they open again.
      rw [words, if_pos rfl, words, if_neg (by decide), enter, if_neg hescape, if_pos rfl]
      dsimp only
      rw [words, if_neg hnewline, words, if_neg (by decide), enter, if_pos rfl]
      dsimp only
      rw [ih hlater]
      simp only [List.append_assoc, List.cons_append, List.nil_append]
    · have hnul : c ≠ Char.ofNat 0 := by
        rintro rfl
        exact h List.mem_cons_self
      rw [if_neg hquote, if_neg hquote]
      simp only [List.cons_append, List.nil_append]
      rw [words, if_neg hquote, if_neg hnul, ih hlater]
      simp only [List.append_assoc, List.cons_append, List.nil_append]

theorem reads_singleQuoted {text : List Char} (h : Char.ofNat 0 ∉ text) :
    Reads (singleQuoted text) (singleGlyphs text) := by
  intro sofar rest
  unfold singleQuoted singleGlyphs
  rw [List.cons_append, List.cons_append, words, if_neg (by decide), enter, if_pos rfl]
  dsimp only
  rw [List.append_assoc, List.singleton_append, words_single h]
  simp only [List.append_assoc, List.cons_append, List.nil_append]

theorem text_singleGlyphs (text : List Char) : (singleGlyphs text).text = text := by
  unfold singleGlyphs Word.text
  rw [List.cons_append, List.flatMap_cons, List.flatMap_append]
  simp only [Glyph.text, List.nil_append, List.flatMap_cons, List.flatMap_nil, List.append_nil]
  induction text with
  | nil => rfl
  | cons c later ih =>
    rw [List.flatMap_cons, List.flatMap_append, ih]
    by_cases hquote : c = apostrophe
    · rw [if_pos hquote, hquote]
      rfl
    · rw [if_neg hquote]
      rfl

theorem text_map_plain (text : List Char) : Word.text (text.map .plain) = text := by
  induction text with
  | nil => rfl
  | cons c later ih =>
    unfold Word.text at ih ⊢
    rw [List.map_cons, List.flatMap_cons, ih]
    rfl

structure IsToken (text : List Char) (glyphs : Word) : Prop where
  reads : Reads text glyphs
  starts : text.head?.any (!isSpaceOrTab ·) = true

theorem words_token {text : List Char} {glyphs : Word} (h : IsToken text glyphs)
    (rest : List Char) : words .between (text ++ rest) = words (.word glyphs) rest := by
  cases text with
  | nil => cases h.starts
  | cons c later =>
    have hblank : isSpaceOrTab c = false := by simpa using h.starts
    have hword := h.reads [] rest
    rw [List.nil_append] at hword
    rw [← hword, List.cons_append, words, words, hblank]
    rfl

theorem words_blank (sofar : Word) (rest : List Char) :
    words (.word sofar) (' ' :: rest) = (words .between rest).map (sofar :: ·) := by
  rw [words]
  exact if_pos rfl

section Lines

variable {α β : Type} {text : α → List Char} {glyphs : α → Word} {text' : β → List Char}
  {glyphs' : β → Word}

theorem words_after {items : List α} (h : ∀ x ∈ items, IsToken (text x) (glyphs x))
    (sofar : Word) :
    words (.word sofar) (items.flatMap fun x ↦ ' ' :: text x) =
      some (sofar :: items.map glyphs) := by
  induction items generalizing sofar with
  | nil => rfl
  | cons x later ih =>
    rw [List.flatMap_cons, List.cons_append, words_blank, words_token (h x List.mem_cons_self),
      ih fun y hy ↦ h y (List.mem_cons_of_mem x hy)]
    rfl

theorem words_before {items : List α} (h : ∀ x ∈ items, IsToken (text x) (glyphs x))
    (rest : List Char) :
    words .between (items.flatMap (fun x ↦ text x ++ [' ']) ++ rest) =
      (words .between rest).map (items.map glyphs ++ ·) := by
  induction items with
  | nil =>
    rw [List.flatMap_nil, List.nil_append, List.map_nil]
    exact Option.map_id'.symm
  | cons x later ih =>
    rw [List.flatMap_cons, List.append_assoc, List.append_assoc,
      words_token (h x List.mem_cons_self), List.singleton_append, words_blank,
      ih fun y hy ↦ h y (List.mem_cons_of_mem x hy), Option.map_map]
    rfl

/-- A line of tokens between single blanks. -/
theorem words_line {front : List α} {middle : List Char} {word : Word} {back : List β}
    (hfront : ∀ x ∈ front, IsToken (text x) (glyphs x)) (hmiddle : IsToken middle word)
    (hback : ∀ x ∈ back, IsToken (text' x) (glyphs' x)) :
    words .between (front.flatMap (fun x ↦ text x ++ [' ']) ++
      (middle ++ back.flatMap fun x ↦ ' ' :: text' x)) =
      some (front.map glyphs ++ word :: back.map glyphs') := by
  rw [words_before hfront, words_token hmiddle, words_after hback]
  rfl

end Lines

/-! ## Which words are assignments -/

/-- A text without quotes that the shell takes for an assignment. -/
def Reader.takesAssignment (text : List Char) : Bool :=
  let before := text.takeWhile (· ≠ '=')
  before ≠ text && before ≠ [] && (isName before || reader.takesPrefix before)

theorem takeWhile_map_plain (text : List Char) :
    (text.map Glyph.plain).takeWhile (· ≠ .plain '=') = (text.takeWhile (· ≠ '=')).map .plain := by
  rw [List.takeWhile_map]
  congr 2
  funext c
  simp

theorem filterMap_plain (text : List Char) :
    (text.map Glyph.plain).filterMap Glyph.plain? = text := by
  rw [List.filterMap_map]
  exact List.filterMap_some

theorem isSome_assignment?_plain (text : List Char) :
    (reader.assignment? (text.map .plain)).isSome = reader.takesAssignment text := by
  have hinj : Function.Injective Glyph.plain := fun _ _ ↦ Glyph.plain.inj
  have htext (text : List Char) : (text.map Glyph.plain).flatMap Glyph.text = text :=
    text_map_plain text
  unfold Reader.assignment? Reader.takesAssignment
  dsimp only
  rw [takeWhile_map_plain, filterMap_plain, htext, List.length_map]
  generalize text.takeWhile (· ≠ '=') = before
  simp only [List.map_inj_right hinj, List.map_eq_nil_iff, true_and]
  by_cases hnone : before = text ∨ before = []
  · rw [if_pos hnone]
    rcases hnone with hnone | hnone
    · simp [hnone]
    · simp [hnone]
  · rw [if_neg hnone]
    obtain ⟨hsign, hsome⟩ := not_or.mp hnone
    rw [decide_eq_true hsign, decide_eq_true hsome, Bool.true_and, Bool.true_and]
    cases hname : isName before with
    | true => simp
    | false => cases htakes : reader.takesPrefix before <;> simp

/-- A word without an equals sign of its own is not an assignment. -/
theorem assignment?_of_not_mem {word : Word} (h : Glyph.plain '=' ∉ word) :
    reader.assignment? word = none := by
  have hall : word.takeWhile (· ≠ .plain '=') = word := by
    rw [List.takeWhile_eq_self_iff]
    intro glyph hmem
    refine decide_eq_true ?_
    rintro rfl
    exact h hmem
  unfold Reader.assignment?
  dsimp only
  rw [if_pos (.inl hall)]

theorem plain_not_mem_singleGlyphs (c : Char) (text : List Char) :
    Glyph.plain c ∉ singleGlyphs text := by
  unfold singleGlyphs
  simp only [List.cons_append, List.mem_cons, reduceCtorEq, false_or, List.mem_append,
    List.mem_flatMap, List.not_mem_nil, or_false, not_exists, not_and]
  intro d _
  split <;> simp

theorem isReserved_map_plain (text : List Char) :
    reader.isReserved (text.map .plain) = reader.reserves text := by
  unfold Reader.isReserved
  rw [filterMap_plain, text_map_plain]
  simp

theorem isReserved_singleGlyphs (text : List Char) :
    reader.isReserved (singleGlyphs text) = false := by
  have hnone : (singleGlyphs text).filterMap Glyph.plain? = [] := by
    rw [List.filterMap_eq_nil_iff]
    intro glyph hmem
    cases glyph with
    | plain c => exact absurd hmem (plain_not_mem_singleGlyphs c text)
    | quoted c => rfl
    | mark => rfl
  unfold Reader.isReserved
  rw [hnone]
  rfl

theorem not_mem_of_isName {name : List Char} (h : isName name = true) : '=' ∉ name := by
  intro hmem
  unfold isName at h
  have hchar := List.all_eq_true.mp (Bool.and_eq_true_iff.mp h).2 '=' hmem
  revert hchar
  decide

/-- A name with a value is an assignment. -/
theorem assignment?_of_isName {name : List Char} (h : isName name = true) (glyphs : Word) :
    reader.assignment? (name.map .plain ++ .plain '=' :: glyphs) =
      some (name, Word.text glyphs) := by
  have hbefore : (name.map Glyph.plain ++ .plain '=' :: glyphs).takeWhile (· ≠ .plain '=') =
      name.map .plain := by
    rw [List.takeWhile_append_of_pos]
    · simp
    · intro glyph hmem
      obtain ⟨c, hc, rfl⟩ := List.mem_map.mp hmem
      refine decide_eq_true fun heq ↦ not_mem_of_isName h ?_
      rwa [Glyph.plain.inj heq] at hc
  have hne : name ≠ [] := by
    rintro rfl
    cases h
  unfold Reader.assignment?
  dsimp only
  rw [hbefore, if_neg (by simp [hne]), filterMap_plain, if_pos ⟨(List.length_map _).symm, h⟩]
  have hdrop : (name.map Glyph.plain ++ .plain '=' :: glyphs).drop
      ((name.map Glyph.plain).length + 1) = glyphs := by
    rw [List.drop_append, List.drop_of_length_le (Nat.le_succ _), Nat.add_sub_cancel_left]
    rfl
  rw [hdrop]
  rfl

/-! ## The command of a line -/

theorem command_assignments {pairs : List (List Char × List Char)} {front : List Word}
    (h : front.map reader.assignment? = pairs.map some) (first : Bool) (rest : List Word) :
    reader.command first (front ++ rest) =
      (reader.command (first && front.isEmpty) rest).map fun made ↦
        { made with assignments := pairs ++ made.assignments } := by
  induction front generalizing pairs first with
  | nil =>
    rw [List.map_nil, eq_comm, List.map_eq_nil_iff] at h
    subst h
    rw [List.nil_append, List.isEmpty_nil, Bool.and_true]
    exact Option.map_id'.symm
  | cons word later ih =>
    cases pairs with
    | nil => cases h
    | cons pair more =>
      rw [List.map_cons, List.map_cons, List.cons.injEq] at h
      rw [List.cons_append, Reader.command, h.1]
      dsimp only
      rw [ih h.2, Option.map_map, Bool.false_and, List.isEmpty_cons, Bool.and_false]
      rfl

/-- The first word that stands for itself is the command word. -/
theorem command_cons_iff (first : Bool) (word : Word) (rest : List Word) :
    reader.command first (word :: rest) = some ⟨[], (word :: rest).map Word.text⟩ ↔
      reader.assignment? word = none ∧ (first && reader.isReserved word) = false := by
  rw [Reader.command]
  cases hword : reader.assignment? word with
  | none =>
    dsimp only
    cases hreserved : first && reader.isReserved word with
    | true => simp
    | false => simp
  | some assignment =>
    dsimp only
    simp only [reduceCtorEq, false_and, iff_false]
    intro h
    obtain ⟨made, -, hmade⟩ := Option.map_eq_some_iff.mp h
    cases congrArg Command.assignments hmade

end Cameo.Library.Shell
