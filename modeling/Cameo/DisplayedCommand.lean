import Cameo.Command
import Cameo.Library.Shell

/-!
# Displayed commands

The text that is shown for a command is published as something to run.  A shell reads every value
and every argument of it as it is.  The program is the exception: what keeps its characters out of
quotes are the characters alone, so a program with an equals sign may stand for an assignment, and
one that is a reserved word for a part of a larger command.
-/

namespace Cameo

open Library.Shell

/-! ## The tokens of the text -/

theorem isOrdinary_of_isShellSafe {c : Char} (h : isShellSafe c = true) :
    isOrdinary c = true := by
  have hascii : c.toNat < 128 := by
    unfold isShellSafe at h
    simp only [Bool.or_eq_true, Bool.and_eq_true, decide_eq_true_eq, List.contains_iff_mem] at h
    rcases h with ((⟨-, hz⟩ | ⟨-, hz⟩) | ⟨-, hz⟩) | hmem
    · exact (UInt32.le_iff_toNat_le.mp hz).trans_lt (by decide)
    · exact (UInt32.le_iff_toNat_le.mp hz).trans_lt (by decide)
    · exact (UInt32.le_iff_toNat_le.mp hz).trans_lt (by decide)
    · have hall : "-_./:=@,+".toList.all (fun d ↦ decide (d.toNat < 128)) = true := by decide
      exact of_decide_eq_true (List.all_eq_true.mp hall c hmem)
  have htable : ∀ n < 128,
      isShellSafe (Char.ofNat n) = true → isOrdinary (Char.ofNat n) = true := by
    decide
  have hchar := htable c.toNat hascii
  rw [Char.ofNat_toNat] at hchar
  exact hchar h

/-- A text that `shell_quote` leaves as it is. -/
def StaysBare (s : String) : Prop := s ≠ "" ∧ s.toList.all isShellSafe = true

instance (s : String) : Decidable (StaysBare s) := inferInstanceAs (Decidable (_ ∧ _))

/-- The glyphs of a text that `shell_quote` has written. -/
def quoteGlyphs (s : String) : Word :=
  if StaysBare s then s.toList.map .plain else singleGlyphs s.toList

theorem shellQuote_of_bare {s : String} (h : StaysBare s) : shellQuote s = s := if_pos h

theorem toList_shellQuote {s : String} (h : ¬ StaysBare s) :
    (shellQuote s).toList = singleQuoted s.toList := by
  have hquoted : shellQuote s = "'" ++ String.ofList (s.toList.flatMap fun c ↦
      if c = apostrophe then [apostrophe, '\\', apostrophe, apostrophe] else [c]) ++ "'" :=
    if_neg h
  rw [hquoted]
  simp only [String.toList_append, String.toList_ofList]
  rfl

theorem isToken_shellQuote {s : String} (h : Char.ofNat 0 ∉ s.toList) :
    IsToken (shellQuote s).toList (quoteGlyphs s) := by
  unfold quoteGlyphs
  by_cases hbare : StaysBare s
  · rw [shellQuote_of_bare hbare, if_pos hbare]
    have hordinary (c : Char) (hc : c ∈ s.toList) : isOrdinary c = true :=
      isOrdinary_of_isShellSafe (List.all_eq_true.mp hbare.2 c hc)
    refine ⟨reads_ordinary hordinary, ?_⟩
    cases htext : s.toList with
    | nil => exact absurd (String.toList_eq_nil_iff.mp htext) hbare.1
    | cons c rest =>
      have hc := isSpaceOrTab_of_isOrdinary (hordinary c (htext ▸ List.mem_cons_self))
      simpa using hc
  · rw [toList_shellQuote hbare, if_neg hbare]
    exact ⟨reads_singleQuoted h, rfl⟩

theorem text_quoteGlyphs (s : String) : Word.text (quoteGlyphs s) = s.toList := by
  unfold quoteGlyphs
  split
  · exact text_map_plain s.toList
  · exact text_singleGlyphs s.toList

/-- The environment that is shown: the secret values are not. -/
def CommandSpec.shownEnv (spec : CommandSpec) : List (String × String) :=
  spec.env ++ spec.secretEnv.map fun pair ↦ (pair.1, "<redacted>")

def assignmentText (pair : String × String) : List Char :=
  pair.1.toList ++ '=' :: (shellQuote pair.2).toList

def assignmentGlyphs (pair : String × String) : Word :=
  pair.1.toList.map .plain ++ .plain '=' :: quoteGlyphs pair.2

theorem isShellSafe_of_isAlphanum {c : Char} (h : c.isAlphanum = true) :
    isShellSafe c = true := by
  have hrange {low high : UInt32}
      (hbounds : (decide (c.val ≥ low) && decide (c.val ≤ high)) = true) :
      low ≤ c.val ∧ c.val ≤ high := by
    rwa [Bool.and_eq_true, decide_eq_true_eq, decide_eq_true_eq] at hbounds
  unfold isShellSafe
  simp only [Bool.or_eq_true, Bool.and_eq_true, decide_eq_true_eq]
  rcases Bool.or_eq_true_iff.mp h with hletter | hdigit
  · rcases Bool.or_eq_true_iff.mp hletter with hupper | hlower
    · exact .inl (.inl (.inr (of_decide_eq_true hupper)))
    · exact .inl (.inl (.inl (hrange hlower)))
  · exact .inl (.inr (hrange hdigit))

theorem isToken_assignmentText {pair : String × String} (hname : isName pair.1.toList = true)
    (h : Char.ofNat 0 ∉ pair.2.toList) :
    IsToken (assignmentText pair) (assignmentGlyphs pair) := by
  have hordinary (c : Char) (hc : c ∈ pair.1.toList ++ ['=']) : isOrdinary c = true := by
    rcases List.mem_append.mp hc with hc | hc
    · have hsafe : isShellSafe c = true := by
        have hletter := List.all_eq_true.mp (Bool.and_eq_true_iff.mp hname).2 c hc
        rw [Bool.or_eq_true, decide_eq_true_eq] at hletter
        rcases hletter with hletter | rfl
        · exact isShellSafe_of_isAlphanum hletter
        · decide
      exact isOrdinary_of_isShellSafe hsafe
    · rw [List.mem_singleton.mp hc]
      decide
  have htext : assignmentText pair =
      (pair.1.toList ++ ['=']) ++ (shellQuote pair.2).toList := by
    rw [List.append_assoc]
    rfl
  have hglyphs : assignmentGlyphs pair =
      (pair.1.toList ++ ['=']).map Glyph.plain ++ quoteGlyphs pair.2 := by
    rw [List.map_append, List.append_assoc]
    rfl
  refine ⟨?_, ?_⟩
  · rw [htext, hglyphs]
    exact (reads_ordinary hordinary).append (isToken_shellQuote h).reads
  · cases hchars : pair.1.toList with
    | nil =>
      rw [hchars] at hname
      cases hname
    | cons c rest =>
      have hc : c ∈ pair.1.toList ++ ['='] := by
        rw [hchars]
        exact List.mem_cons_self
      unfold assignmentText
      rw [hchars]
      simpa using isSpaceOrTab_of_isOrdinary (hordinary c hc)

theorem toList_join (texts : List String) :
    (String.join texts).toList = texts.flatMap String.toList := by
  induction texts with
  | nil => rfl
  | cons text rest ih => rw [String.join_cons, String.toList_append, ih, List.flatMap_cons]

theorem toList_display (spec : CommandSpec) :
    spec.display.toList = spec.shownEnv.flatMap (fun pair ↦ assignmentText pair ++ [' ']) ++
      ((shellQuote spec.program).toList ++
        spec.args.flatMap fun arg ↦ ' ' :: (shellQuote arg).toList) := by
  have hredacted : shellQuote "<redacted>" = "'<redacted>'" := by decide
  unfold CommandSpec.display CommandSpec.shownEnv assignmentText
  simp only [String.toList_append, toList_join, List.flatMap_append, List.flatMap_map, hredacted,
    List.append_assoc, List.cons_append]
  rfl

/-! ## What a shell reads -/

/-- The names of the environment are names, and no text has a NUL in it. -/
structure CommandSpec.WellFormed (spec : CommandSpec) : Prop where
  names : ∀ pair ∈ spec.env ++ spec.secretEnv, isName pair.1.toList = true
  program : Char.ofNat 0 ∉ spec.program.toList
  args : ∀ arg ∈ spec.args, Char.ofNat 0 ∉ arg.toList
  values : ∀ pair ∈ spec.env, Char.ofNat 0 ∉ pair.2.toList

def CommandSpec.command (spec : CommandSpec) : Command where
  assignments := spec.shownEnv.map fun pair ↦ (pair.1.toList, pair.2.toList)
  words := (spec.program :: spec.args).map String.toList

/-- A shell reads the text as the command, and no secret value changes the text. -/
structure DisplaysItself (reader : Reader) (spec : CommandSpec) : Prop where
  reads : reader.read spec.display.toList = some spec.command
  secretFree : ∀ secretEnv, secretEnv.map Prod.fst = spec.secretEnv.map Prod.fst →
    CommandSpec.display { spec with secretEnv := secretEnv } = spec.display

/-- The shell takes the program, as it is displayed, for something else than the command word. -/
def Misreads (reader : Reader) (spec : CommandSpec) : Prop :=
  StaysBare spec.program ∧ (reader.takesAssignment spec.program.toList = true ∨
    spec.shownEnv = [] ∧ reader.reserves spec.program.toList = true)

theorem display_secretFree (spec : CommandSpec) {secretEnv : List (String × String)}
    (h : secretEnv.map Prod.fst = spec.secretEnv.map Prod.fst) :
    CommandSpec.display { spec with secretEnv := secretEnv } = spec.display := by
  have hnames (pairs : List (String × String)) :
      (pairs.map fun pair ↦ pair.1 ++ "='<redacted>' ") =
        (pairs.map Prod.fst).map fun name ↦ name ++ "='<redacted>' " := by
    rw [List.map_map]
    rfl
  unfold CommandSpec.display
  dsimp only
  rw [hnames, hnames, h]

/-- A command word is taken for something else exactly if no quotes protect it. -/
theorem isCommandWord_iff (reader : Reader) (first : Bool) (program : String) :
    (reader.assignment? (quoteGlyphs program) = none ∧
      (first && reader.isReserved (quoteGlyphs program)) = false) ↔
      ¬ (StaysBare program ∧ (reader.takesAssignment program.toList = true ∨
        first = true ∧ reader.reserves program.toList = true)) := by
  unfold quoteGlyphs
  by_cases hbare : StaysBare program
  · rw [if_pos hbare, isReserved_map_plain, ← Option.isNone_iff_eq_none, ← Option.not_isSome,
      isSome_assignment?_plain]
    simp [hbare]
  · rw [if_neg hbare, isReserved_singleGlyphs,
      assignment?_of_not_mem reader (plain_not_mem_singleGlyphs '=' program.toList)]
    simp [hbare]

theorem read_display (reader : Reader) {spec : CommandSpec} (h : spec.WellFormed) :
    reader.read spec.display.toList =
      (reader.command spec.shownEnv.isEmpty
        (quoteGlyphs spec.program :: spec.args.map quoteGlyphs)).map fun made ↦
          { made with assignments := spec.command.assignments ++ made.assignments } := by
  have hshown (pair : String × String) (hpair : pair ∈ spec.shownEnv) :
      isName pair.1.toList = true ∧ Char.ofNat 0 ∉ pair.2.toList := by
    rcases List.mem_append.mp hpair with hmem | hmem
    · exact ⟨h.names pair (List.mem_append_left _ hmem), h.values pair hmem⟩
    · obtain ⟨secret, hsecret, rfl⟩ := List.mem_map.mp hmem
      exact ⟨h.names secret (List.mem_append_right _ hsecret),
        (by decide : Char.ofNat 0 ∉ "<redacted>".toList)⟩
  have hassignments : (spec.shownEnv.map assignmentGlyphs).map reader.assignment? =
      spec.command.assignments.map some := by
    unfold CommandSpec.command
    rw [List.map_map, List.map_map]
    apply List.map_congr_left
    intro pair hpair
    have hassignment := assignment?_of_isName reader (hshown pair hpair).1 (quoteGlyphs pair.2)
    rw [text_quoteGlyphs] at hassignment
    exact hassignment
  have hwords := words_line
    (fun pair hpair ↦ isToken_assignmentText (hshown pair hpair).1 (hshown pair hpair).2)
    (isToken_shellQuote h.program) (fun arg harg ↦ isToken_shellQuote (h.args arg harg))
  have hempty : (true && (spec.shownEnv.map assignmentGlyphs).isEmpty) =
      spec.shownEnv.isEmpty := by
    rw [Bool.true_and, List.isEmpty_map]
  unfold Reader.read
  rw [toList_display, hwords, Option.bind_some, command_assignments reader hassignments, hempty]

/-- A shell reads the text of a command as that command, exactly unless it takes a program without
quotes for an assignment or, where no environment comes before it, for a reserved word. -/
theorem displaysItself_iff (reader : Reader) (spec : CommandSpec) (h : spec.WellFormed) :
    DisplaysItself reader spec ↔ ¬ Misreads reader spec := by
  have htexts : (quoteGlyphs spec.program :: spec.args.map quoteGlyphs).map Word.text =
      spec.command.words := by
    unfold CommandSpec.command
    rw [List.map_cons, List.map_cons, List.map_map, text_quoteGlyphs]
    congr 2
    funext arg
    exact text_quoteGlyphs arg
  have hempty : spec.shownEnv.isEmpty = true ↔ spec.shownEnv = [] := List.isEmpty_iff
  have hcommand : reader.read spec.display.toList = some spec.command ↔
      reader.command spec.shownEnv.isEmpty
        (quoteGlyphs spec.program :: spec.args.map quoteGlyphs) =
          some ⟨[], (quoteGlyphs spec.program :: spec.args.map quoteGlyphs).map Word.text⟩ := by
    rw [read_display reader h, htexts, Option.map_eq_some_iff]
    constructor
    · rintro ⟨made, hmade, heq⟩
      have hnone := congrArg Command.assignments heq
      have hsame := congrArg Command.words heq
      dsimp only at hnone hsame
      rw [List.append_right_eq_self] at hnone
      rw [hmade, ← hnone, ← hsame]
    · intro hmade
      refine ⟨_, hmade, ?_⟩
      rw [List.append_nil]
  unfold Misreads
  rw [← hempty, ← isCommandWord_iff, ← command_cons_iff, ← hcommand]
  exact ⟨fun hshown ↦ hshown.reads, fun hread ↦ ⟨hread, fun _ ↦ display_secretFree spec⟩⟩

/-- A shell that reserves only what it has to, and takes only names for names. -/
def plainShell : Reader where
  reserves text := reservedWords.any fun word ↦ word.toList = text
  takesPrefix _ := false
  reserves_reserved := by decide
  reserves_only text h := by
    obtain ⟨word, hmem, htext⟩ := List.any_eq_true.mp h
    exact .inl ⟨word, hmem, (of_decide_eq_true htext).symm⟩

def quotedCommand : CommandSpec :=
  ⟨"llama-server", ["-m", "it's here.gguf", ""], [("HSA_OVERRIDE_GFX_VERSION", "10.3.0")],
    [("LLAMA_API_KEY", "k")]⟩

theorem displaysItself_quoted :
    DisplaysItself plainShell quotedCommand ↔ ¬ Misreads plainShell quotedCommand :=
  displaysItself_iff plainShell quotedCommand ⟨by decide, by decide, by decide, by decide⟩

/-- A path with an equals sign after a name is read as an assignment, and the next argument as the
program. -/
theorem not_displaysItself_assignment :
    ¬ (∀ reader spec, CommandSpec.WellFormed spec → DisplaysItself reader spec) := by
  intro h
  have hreads := (h plainShell ⟨"build=rocm/llama-server", ["-m", "m.gguf"], [], []⟩
    ⟨by decide, by decide, by decide, by decide⟩).reads
  revert hreads
  decide +kernel

end Cameo
