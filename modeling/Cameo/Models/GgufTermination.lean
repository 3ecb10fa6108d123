import Cameo.Library.Progress
import Cameo.Models.GgufFormat

/-!
# Inspection ends on every file

The counts and lengths that a file declares bound neither the loops of `inspect_gguf` nor the depth
of `skip_value`; what is left of the file does.  Every round of a loop, in the entries as in arrays
at any depth, consumes eight bytes of the file or fails, so that all rounds together are at most one
more than a file has eights of bytes.
-/

namespace Cameo.Models

open Library

variable (file : GgufFile)

/-! ## Rounds -/

/-- The rounds of the loop over the elements of an array, and of the loops within them. -/
def elementRounds (step : Reader Unit) (rounds : ℕ → List ℕ) : ℕ → ℕ → List ℕ
  | 0 => noRounds
  | count + 1 =>
    roundsThen step (fun pos ↦ pos :: rounds pos) fun _ ↦ elementRounds step rounds count

/-- The type of an array's elements, and their number. -/
def readHeader : Reader (ℕ × ℕ) := do
  let element ← readU32 file
  let count ← readU64 file
  return (element, count)

/-- The rounds of `skip_value`. -/
def skipRounds : ℕ → ℕ → ℕ → List ℕ
  | 0, _ => noRounds
  | fuel + 1, ty =>
    if ty = 9 then
      roundsThen (readHeader file) noRounds fun (element, count) ↦
        match fixedWidth element with
        | some _ => noRounds
        | none => elementRounds (skipValue file fuel element) (skipRounds fuel element) count
    else noRounds

/-- One round of the loop over the entries, and the rounds within it. -/
def entryRounds (fuel : ℕ) : ℕ → List ℕ :=
  roundsThen (readString file) oneRound fun key ↦
    roundsThen (readU32 file) noRounds fun ty ↦
      if wanted key then noRounds else skipRounds file fuel ty

def entriesRounds (fuel : ℕ) : ℕ → Found → ℕ → List ℕ
  | 0, _ => noRounds
  | count + 1, found =>
    roundsThen (readEntry file fuel) (entryRounds file fuel) fun (key, value) ↦
      match (found.record key value).complete with
      | some _ => noRounds
      | none => entriesRounds fuel count (found.record key value)

/-- The rounds of `inspect_gguf`. -/
def inspectRounds : ℕ → List ℕ :=
  roundsThen (readExact file 4) noRounds fun magic ↦
    if magic ≠ bytes "GGUF" then noRounds
    else roundsThen (readU32 file) noRounds fun version ↦
      if ¬ (2 ≤ version ∧ version ≤ 3) then noRounds
      else roundsThen (readU64 file) noRounds fun _ ↦
        roundsThen (readU64 file) noRounds fun metadataCount ↦
          entriesRounds file (file.data.length + 1) metadataCount ⟨none, none, none, none, none⟩

variable {file}

/-! ## Going forward -/

theorem consumes_readExact {length : ℕ} (h : 0 < length) :
    Consumes length file.data.length (readExact file length) := by
  intro pos a pos' hread
  unfold readExact at hread
  split at hread
  · rename_i hfits
    cases hread
    exact ⟨hfits.resolve_left h.ne', le_rfl⟩
  · cases hread

theorem forward_readExact (length : ℕ) : Forward (readExact file length) := by
  intro pos a pos' hread
  unfold readExact at hread
  split at hread
  · cases hread
    exact Nat.le_add_right pos length
  · cases hread

theorem consumes_readFixed {width : ℕ} (h : 0 < width) :
    Consumes width file.data.length (readFixed file width) :=
  (consumes_readExact h).bind fun _ ↦ .pure _

theorem forward_readU32 : Forward (readU32 file) :=
  (consumes_readFixed (by decide)).forward

theorem consumes_readU64 : Consumes 8 file.data.length (readU64 file) :=
  consumes_readFixed (by decide)

theorem consumes_readString : Consumes 8 file.data.length (readString file) := by
  refine consumes_readU64.bind fun length ↦ ?_
  split
  · exact .throw _
  · refine (forward_readExact length).bind fun data ↦ ?_
    split
    · exact .pure _
    · exact .throw _

theorem forward_seekForward (length : ℕ) : Forward (seekForward file length) := by
  intro pos a pos' hread
  unfold seekForward at hread
  split at hread
  · cases hread
  · split at hread
    · cases hread
      exact Nat.le_add_right pos length
    · cases hread

theorem consumes_readHeader : Consumes 8 file.data.length (readHeader file) :=
  forward_readU32.bind_consumes fun _ ↦ consumes_readU64.bind fun _ ↦ .pure _

theorem forward_readIntegerValue (ty : ℕ) : Forward (readIntegerValue file ty) := by
  have hread (width : ℕ) : Forward (readFixed file width) :=
    (forward_readExact width).bind fun _ ↦ .pure _
  have hskip : Forward (skipValueRead file ty) := by
    unfold skipValueRead
    split
    · exact (forward_readExact _).bind fun _ ↦ .pure _
    · exact .throw _
  unfold readIntegerValue
  split_ifs
  · exact (hread 1).bind fun _ ↦ .pure _
  · exact (hread 2).bind fun _ ↦ .pure _
  · exact (hread 4).bind fun _ ↦ .pure _
  · exact (hread 8).bind fun _ ↦ .pure _
  · exact hskip.bind fun _ ↦ .pure _

/-! ## The rounds of `skip_value` -/

theorem skipValue_header (fuel : ℕ) : skipValue file (fuel + 1) 9 =
    readHeader file >>= fun header ↦ skipElements file fuel header.1 header.2 := by
  rw [readHeader]
  simp only [bind_assoc, pure_bind]
  rfl

/-- A loop over elements has its rounds and those of each element. -/
theorem paced_elements {step : Reader Unit} {rounds : ℕ → List ℕ}
    (h : Paced 8 file.data.length step fun pos ↦ pos :: rounds pos) (count : ℕ) :
    Paced 8 file.data.length (repeatTimes count step) (elementRounds step rounds count) := by
  induction count with
  | zero => exact (Forward.pure ()).paced
  | succ count ih => exact h.bind fun _ ↦ ih

theorem paced_skipElements {fuel element count : ℕ}
    (h : fixedWidth element = none → Paced 8 file.data.length (skipValue file fuel element)
      fun pos ↦ pos :: skipRounds file fuel element pos) :
    Paced 8 file.data.length (skipElements file fuel element count)
      (match fixedWidth element with
      | some _ => noRounds
      | none =>
        elementRounds (skipValue file fuel element) (skipRounds file fuel element) count) := by
  unfold skipElements
  cases hwidth : fixedWidth element with
  | some width => exact (forward_seekForward _).paced
  | none => exact paced_elements (h hwidth) count

/-- Of what is no array, only a string has no fixed width. -/
theorem consumes_skipString (fuel : ℕ) {ty : ℕ} (harray : ty ≠ 9) (hwidth : fixedWidth ty = none) :
    Consumes 8 file.data.length (skipValue file (fuel + 1) ty) := by
  unfold skipValue
  rw [if_neg harray, hwidth]
  split
  · exact consumes_readU64.bind forward_seekForward
  · exact .throw _

/-- Skipping an element that has no fixed width is a round of its own. -/
theorem paced_skipElement (fuel : ℕ) : ∀ ty, fixedWidth ty = none →
    Paced 8 file.data.length (skipValue file fuel ty) fun pos ↦
      pos :: skipRounds file fuel ty pos := by
  induction fuel with
  | zero => exact fun _ _ ↦ (Consumes.throw _).paced
  | succ fuel ih =>
    intro ty hwidth
    by_cases harray : ty = 9
    · subst harray
      rw [skipValue_header]
      exact consumes_readHeader.paced.bind fun header ↦ paced_skipElements (ih header.1)
    · have hrounds : (fun pos ↦ pos :: skipRounds file (fuel + 1) ty pos) = oneRound := by
        funext pos
        rw [skipRounds, if_neg harray]
        rfl
      rw [hrounds]
      exact (consumes_skipString fuel harray hwidth).paced

theorem paced_skipValue (fuel ty : ℕ) :
    Paced 8 file.data.length (skipValue file fuel ty) (skipRounds file fuel ty) := by
  cases fuel with
  | zero => exact (Forward.throw _).paced
  | succ fuel =>
    by_cases harray : ty = 9
    · subst harray
      rw [skipValue_header]
      exact consumes_readHeader.forward.paced.bind fun header ↦
        paced_skipElements (paced_skipElement fuel header.1)
    · rw [show skipRounds file (fuel + 1) ty = noRounds by rw [skipRounds, if_neg harray]]
      refine Forward.paced ?_
      unfold skipValue
      rw [if_neg harray]
      split
      · exact consumes_readU64.forward.bind forward_seekForward
      · split
        · exact forward_seekForward _
        · exact .throw _

/-- An element that has no fixed width consumes eight bytes of the file, or fails. -/
theorem consumes_skipElement (fuel : ℕ) {ty : ℕ} (h : fixedWidth ty = none) :
    Consumes 8 file.data.length (skipValue file fuel ty) := by
  cases fuel with
  | zero => exact .throw _
  | succ fuel =>
    by_cases harray : ty = 9
    · subst harray
      rw [skipValue_header]
      exact consumes_readHeader.bind fun header ↦
        (paced_skipElements (paced_skipElement fuel header.1)).forward
    · exact consumes_skipString fuel harray h

/-! ## Fuel -/

theorem avoids_readExact (length : ℕ) : Avoids .outOfFuel (readExact file length) := by
  intro pos hfail
  unfold readExact at hfail
  split at hfail
  · cases hfail
  · cases hfail

theorem avoids_readFixed (width : ℕ) : Avoids .outOfFuel (readFixed file width) :=
  (avoids_readExact width).bind fun _ ↦ .pure _

theorem avoids_seekForward (length : ℕ) : Avoids .outOfFuel (seekForward file length) := by
  intro pos hfail
  unfold seekForward at hfail
  split at hfail
  · cases hfail
  · split at hfail
    · cases hfail
    · cases hfail

theorem avoids_readHeader : Avoids .outOfFuel (readHeader file) :=
  (avoids_readFixed 4).bind fun _ ↦ (avoids_readFixed 8).bind fun _ ↦ .pure _

theorem avoids_readString : Avoids .outOfFuel (readString file) := by
  refine (avoids_readFixed 8).bind fun length ↦ ?_
  split
  · exact .throw nofun
  · refine (avoids_readExact length).bind fun data ↦ ?_
    split
    · exact .pure _
    · exact .throw nofun

theorem avoids_readIntegerValue (ty : ℕ) : Avoids .outOfFuel (readIntegerValue file ty) := by
  have hskip : Avoids .outOfFuel (skipValueRead file ty) := by
    unfold skipValueRead
    split
    · exact (avoids_readExact _).bind fun _ ↦ .pure _
    · exact .throw nofun
  unfold readIntegerValue
  split_ifs
  · exact (avoids_readFixed 1).bind fun _ ↦ .pure _
  · exact (avoids_readFixed 2).bind fun _ ↦ .pure _
  · exact (avoids_readFixed 4).bind fun _ ↦ .pure _
  · exact (avoids_readFixed 8).bind fun _ ↦ .pure _
  · exact hskip.bind fun _ ↦ .pure _

theorem repeatTimes_congr {step step' : Reader Unit} (hforward : Forward step) (count : ℕ)
    {pos : ℕ} (hsame : ∀ pos' ≥ pos, step pos' = step' pos' ∧ step pos' ≠ .error .outOfFuel) :
    repeatTimes count step pos = repeatTimes count step' pos ∧
      repeatTimes count step pos ≠ .error .outOfFuel := by
  induction count generalizing pos with
  | zero => exact ⟨rfl, nofun⟩
  | succ count ih =>
    obtain ⟨heq, hfuel⟩ := hsame pos le_rfl
    rw [repeatTimes, repeatTimes, bind_apply, bind_apply, ← heq]
    cases hstep : step pos with
    | error e =>
      rw [hstep] at hfuel
      exact ⟨rfl, fun hfail ↦ hfuel (by rw [Except.error.inj hfail])⟩
    | ok result =>
      have hle := hforward pos result.1 result.2 hstep
      exact ih fun pos' hpos' ↦ hsame pos' (hle.trans hpos')

/-- A value that is not an array is skipped without fuel for its elements. -/
theorem skipValue_of_ne (fuel fuel' : ℕ) {ty : ℕ} (h : ty ≠ 9) :
    skipValue file (fuel + 1) ty = skipValue file (fuel' + 1) ty ∧
      Avoids .outOfFuel (skipValue file (fuel + 1) ty) := by
  unfold skipValue
  rw [if_neg h, if_neg h]
  refine ⟨rfl, ?_⟩
  split
  · exact (avoids_readFixed 8).bind avoids_seekForward
  · split
    · exact avoids_seekForward _
    · exact .throw nofun

/-- Any fuel beyond what is left of the file skips a value alike, and does not run out. -/
theorem skipValue_congr {fuel fuel' : ℕ} (ty : ℕ) {pos : ℕ}
    (h : file.data.length - pos < fuel) (h' : file.data.length - pos < fuel') :
    skipValue file fuel ty pos = skipValue file fuel' ty pos ∧
      skipValue file fuel ty pos ≠ .error .outOfFuel := by
  induction fuel generalizing fuel' ty pos with
  | zero => exact absurd h (Nat.not_lt_zero _)
  | succ fuel ih =>
    obtain ⟨fuel', rfl⟩ := Nat.exists_eq_add_one_of_ne_zero (Nat.ne_zero_of_lt h')
    by_cases harray : ty = 9
    · subst harray
      rw [skipValue_header, skipValue_header, bind_apply, bind_apply]
      cases hheader : readHeader file pos with
      | error e =>
        have havoids : readHeader file pos ≠ .error .outOfFuel := avoids_readHeader pos
        rw [hheader] at havoids
        exact ⟨rfl, fun hfail ↦ havoids (congrArg Except.error (Except.error.inj hfail))⟩
      | ok result =>
        -- The header is read from what was left, so less is left for the elements.
        obtain ⟨hlimit, hpos⟩ := consumes_readHeader pos result.1 result.2 hheader
        dsimp only
        unfold skipElements
        cases fixedWidth result.1.1 with
        | some width => exact ⟨rfl, avoids_seekForward _ _⟩
        | none =>
          refine repeatTimes_congr (paced_skipValue fuel result.1.1).forward result.1.2 ?_
          exact fun pos' hpos' ↦ ih result.1.1 (by omega) (by omega)
    · obtain ⟨hsame, havoids⟩ : skipValue file (fuel + 1) ty = skipValue file (fuel' + 1) ty ∧ _ :=
        skipValue_of_ne fuel fuel' harray
      exact ⟨congrFun hsame pos, havoids pos⟩

/-- Fuel for the bytes of the file is enough from every place. -/
theorem skipValue_of_lt {fuel fuel' : ℕ} (h : file.data.length < fuel)
    (h' : file.data.length < fuel') (ty : ℕ) :
    skipValue file fuel ty = skipValue file fuel' ty ∧
      Avoids .outOfFuel (skipValue file fuel ty) := by
  have hleft (pos : ℕ) := Nat.sub_le file.data.length pos
  have hsame (pos : ℕ) := skipValue_congr ty ((hleft pos).trans_lt h) ((hleft pos).trans_lt h')
  exact ⟨funext fun pos ↦ (hsame pos).1, fun pos ↦ (hsame pos).2⟩

/-! ## Entries -/

theorem readEntry_of_lt {fuel fuel' : ℕ} (h : file.data.length < fuel)
    (h' : file.data.length < fuel') : readEntry file fuel = readEntry file fuel' := by
  unfold readEntry
  simp only [(skipValue_of_lt h h' _).1]

theorem avoids_readEntry {fuel : ℕ} (h : file.data.length < fuel) :
    Avoids .outOfFuel (readEntry file fuel) := by
  refine avoids_readString.bind fun key ↦ (avoids_readFixed 4).bind fun ty ↦ ?_
  split
  · exact (avoids_readIntegerValue ty).bind fun _ ↦ .pure _
  · exact (skipValue_of_lt h h ty).2.bind fun _ ↦ .pure _

theorem paced_readEntry (fuel : ℕ) :
    Paced 8 file.data.length (readEntry file fuel) (entryRounds file fuel) := by
  refine consumes_readString.paced.bind fun key ↦ forward_readU32.paced.bind fun ty ↦ ?_
  split
  · exact ((forward_readIntegerValue ty).bind fun _ ↦ .pure _).paced
  · exact (paced_skipValue fuel ty).bind_pure fun _ ↦ (key, none)

theorem consumes_readEntry (fuel : ℕ) :
    Consumes 8 file.data.length (readEntry file fuel) := by
  refine consumes_readString.bind fun key ↦ forward_readU32.bind fun ty ↦ ?_
  split
  · exact (forward_readIntegerValue ty).bind fun _ ↦ .pure _
  · exact (paced_skipValue fuel ty).forward.bind fun _ ↦ .pure _

theorem inspectEntries_of_lt {fuel fuel' : ℕ} (h : file.data.length < fuel)
    (h' : file.data.length < fuel') (count : ℕ) (found : Found) :
    inspectEntries file fuel count found = inspectEntries file fuel' count found := by
  induction count generalizing found with
  | zero => rfl
  | succ count ih =>
    unfold inspectEntries
    simp only [readEntry_of_lt h h', ih]

theorem avoids_inspectEntries {fuel : ℕ} (h : file.data.length < fuel) (count : ℕ)
    (found : Found) : Avoids .outOfFuel (inspectEntries file fuel count found) := by
  induction count generalizing found with
  | zero => exact .pure _
  | succ count ih =>
    refine (avoids_readEntry h).bind fun (key, value) ↦ ?_
    dsimp only
    split
    · exact .pure _
    · exact ih _

theorem paced_inspectEntries (fuel count : ℕ) (found : Found) :
    Paced 8 file.data.length (inspectEntries file fuel count found)
      (entriesRounds file fuel count found) := by
  induction count generalizing found with
  | zero => exact (Forward.pure _).paced
  | succ count ih =>
    refine (paced_readEntry fuel).bind fun (key, value) ↦ ?_
    dsimp only
    cases (found.record key value).complete with
    | some done => exact (Forward.pure _).paced
    | none => exact ih _

/-! ## Inspection -/

theorem avoids_inspect : Avoids .outOfFuel (inspect file) := by
  refine (avoids_readExact 4).bind fun magic ↦ ?_
  split
  · exact .pure _
  · refine (avoids_readFixed 4).bind fun version ↦ ?_
    split
    · exact .pure _
    · refine (avoids_readFixed 8).bind fun _ ↦ (avoids_readFixed 8).bind fun count ↦ ?_
      exact avoids_inspectEntries (Nat.lt_succ_self _) count _

theorem paced_inspect : Paced 8 file.data.length (inspect file) (inspectRounds file) := by
  have hword : Forward (readU64 file) := consumes_readU64.forward
  refine (forward_readExact 4).paced.bind fun magic ↦ ?_
  split
  · exact (Forward.pure _).paced
  · refine forward_readU32.paced.bind fun version ↦ ?_
    split
    · exact (Forward.pure _).paced
    · refine hword.paced.bind fun _ ↦ hword.paced.bind fun count ↦ ?_
      exact paced_inspectEntries _ count _

/-- On a file, skipping a value and inspection end, whatever the file declares. -/
structure InspectionEnds (file : GgufFile) : Prop where
  /-- Fuel for the bytes of the file does not run out, -/
  skipped : ∀ ty, Avoids .outOfFuel (skipValue file (file.data.length + 1) ty)
  inspected : inspectGguf file ≠ .error .outOfFuel
  /-- and more of it changes nothing. -/
  skippedAlike : ∀ more ty, skipValue file (file.data.length + 1 + more) ty =
    skipValue file (file.data.length + 1) ty
  inspectedAlike : ∀ more count found,
    inspectEntries file (file.data.length + 1 + more) count found =
      inspectEntries file (file.data.length + 1) count found
  /-- An entry consumes eight bytes of the file, or fails, -/
  entry : ∀ fuel, Consumes 8 file.data.length (readEntry file fuel)
  /-- and so does an element of an array that has no fixed width. -/
  element : ∀ fuel ty, fixedWidth ty = none →
    Consumes 8 file.data.length (skipValue file fuel ty)
  /-- The rounds of all loops, in the order in which they are made, are eight bytes apart, -/
  skipStrided : ∀ fuel ty pos, Strided 8 file.data.length (skipRounds file fuel ty pos)
  inspectStrided : ∀ pos, Strided 8 file.data.length (inspectRounds file pos)
  /-- so that there are few of them. -/
  skipBounded : ∀ fuel ty pos, (skipRounds file fuel ty pos).length ≤ file.data.length / 8 + 1
  inspectBounded : ∀ pos, (inspectRounds file pos).length ≤ file.data.length / 8 + 1
  /-- The reader does not go back. -/
  skipForward : ∀ fuel ty, Forward (skipValue file fuel ty)
  entryForward : ∀ fuel, Forward (readEntry file fuel)
  inspectForward : Forward (inspect file)

/-- Inspection ends on every file. -/
theorem inspection_ends (file : GgufFile) : InspectionEnds file where
  skipped ty := (skipValue_of_lt (Nat.lt_succ_self _) (Nat.lt_succ_self _) ty).2
  inspected := by
    unfold inspectGguf
    intro hfail
    cases hread : inspect file 0 with
    | error e =>
      rw [hread] at hfail
      cases hfail
      exact avoids_inspect 0 hread
    | ok result =>
      rw [hread] at hfail
      cases hfail
  skippedAlike more ty := (skipValue_of_lt (by omega) (Nat.lt_succ_self _) ty).1
  inspectedAlike more count found :=
    inspectEntries_of_lt (by omega) (Nat.lt_succ_self _) count found
  entry := consumes_readEntry
  element fuel _ h := consumes_skipElement fuel h
  skipStrided fuel ty pos := (paced_skipValue fuel ty).strided pos
  inspectStrided pos := paced_inspect.strided pos
  skipBounded fuel ty pos := ((paced_skipValue fuel ty).strided pos).length_le (by decide)
  inspectBounded pos := (paced_inspect.strided pos).length_le (by decide)
  skipForward fuel ty := (paced_skipValue fuel ty).forward
  entryForward fuel := (consumes_readEntry fuel).forward
  inspectForward := paced_inspect.forward

end Cameo.Models
