import Cameo.Address
import Cameo.Library.Trim

/-!
# Byte strings

Texts as they are read from a socket: decoded strictly, or with U+FFFD in place of what is not
UTF-8.  A strict decoding is the inverse of `bytes`; a lossy one keeps every ASCII byte and turns
the others into characters beyond ASCII.
-/

namespace Cameo

open Library

/-- `String::from_utf8`. -/
def fromUtf8 (data : List UInt8) : Option String := String.fromUTF8? ⟨data.toArray⟩

theorem fromUtf8_bytes (text : String) : fromUtf8 (bytes text) = some text := by
  have hdata : (⟨(bytes text).toArray⟩ : ByteArray) = text.toByteArray := by
    rw [bytes, Array.toArray_toList]
    rfl
  rw [fromUtf8, hdata, String.fromUTF8?, dif_pos text.isValidUTF8]
  rfl

theorem bytes_of_fromUtf8 {data : List UInt8} {text : String} (h : fromUtf8 data = some text) :
    bytes text = data := by
  unfold fromUtf8 String.fromUTF8? at h
  split at h
  · cases h
    rfl
  · cases h

theorem bytes_append (left right : String) : bytes (left ++ right) = bytes left ++ bytes right := by
  simp [bytes]

theorem bytes_inj {left right : String} (h : bytes left = bytes right) : left = right :=
  Option.some.inj ((fromUtf8_bytes left).symm.trans ((congrArg fromUtf8 h).trans
    (fromUtf8_bytes right)))

/-! ## Encoding -/

/-- A text is encoded character by character. -/
theorem bytes_eq_flatMap (text : String) :
    bytes text = text.toList.flatMap String.utf8EncodeChar := by
  rw [bytes, String.toUTF8, ← String.utf8Encode_toList]
  exact congrArg Array.toList (by simp [List.utf8Encode, List.flatMap])

/-- A character within ASCII is one byte. -/
theorem utf8EncodeChar_of_ascii {c : Char} (h : c.toNat < 0x80) :
    String.utf8EncodeChar c = [UInt8.ofNat c.toNat] :=
  if_pos (Nat.le_of_lt_succ h)

/-- A character beyond ASCII has no ASCII byte. -/
theorem le_of_mem_utf8EncodeChar {c : Char} (h : 0x80 ≤ c.toNat) :
    ∀ byte ∈ String.utf8EncodeChar c, 0x80 ≤ byte.toNat := by
  have hlead (high low : ℕ) (hlow : low < 256 - high) (hhigh : 0x80 ≤ high) (hle : high < 256) :
      0x80 ≤ (UInt8.ofNat (low + high)).toNat := by
    rw [UInt8.toNat_ofNat']
    omega
  have hpast : ¬ c.val.toNat ≤ 0x7f := Nat.not_le.mpr h
  unfold String.utf8EncodeChar
  simp only [hpast, if_false]
  intro byte hmem
  split at hmem
  · simp only [List.mem_cons, List.not_mem_nil, or_false] at hmem
    rcases hmem with rfl | rfl <;> exact hlead _ _ (by omega) (by omega) (by omega)
  · split at hmem
    · simp only [List.mem_cons, List.not_mem_nil, or_false] at hmem
      rcases hmem with rfl | rfl | rfl <;> exact hlead _ _ (by omega) (by omega) (by omega)
    · simp only [List.mem_cons, List.not_mem_nil, or_false] at hmem
      rcases hmem with rfl | rfl | rfl | rfl <;> exact hlead _ _ (by omega) (by omega) (by omega)

/-- The ASCII bytes of a text are its ASCII characters. -/
theorem mem_bytes_iff {byte : UInt8} (h : byte.toNat < 0x80) (text : String) :
    byte ∈ bytes text ↔ ∃ c ∈ text.toList, c.toNat = byte.toNat := by
  rw [bytes_eq_flatMap, List.mem_flatMap]
  refine exists_congr fun c ↦ and_congr_right fun _ ↦ ?_
  by_cases hascii : c.toNat < 0x80
  · rw [utf8EncodeChar_of_ascii hascii, List.mem_singleton, ← UInt8.toNat_inj, UInt8.toNat_ofNat']
    omega
  · refine iff_of_false ?_ (by omega)
    intro hmem
    have := le_of_mem_utf8EncodeChar (not_lt.mp hascii) byte hmem
    omega

/-! ## Splitting -/

/-- `text.split_whitespace()`. -/
def splitWhitespace (text : List Char) : List (List Char) :=
  (text.splitOnP isWhitespace).filter (· ≠ [])

/-- `text.split("\r\n")`. -/
def splitCrlf : List Char → List (List Char)
  | [] => [[]]
  | '\r' :: '\n' :: rest => [] :: splitCrlf rest
  | c :: rest => (splitCrlf rest).modifyHead (c :: ·)

/-- Splitting at a character finds its first occurrence. -/
theorem splitOnce_eq_some_iff {c : Char} {text left right : List Char} :
    splitOnce [c] text = some (left, right) ↔ text = left ++ c :: right ∧ c ∉ left := by
  induction text generalizing left with
  | nil =>
    refine iff_of_false nofun ?_
    rintro ⟨h, -⟩
    exact absurd h (by simp)
  | cons d rest ih =>
    unfold splitOnce
    by_cases hd : d = c
    · rw [if_pos (by simp [hd])]
      constructor
      · intro h
        cases h
        exact ⟨by rw [hd]; rfl, List.not_mem_nil⟩
      · rintro ⟨htext, hfree⟩
        cases left with
        | nil =>
          cases htext
          rfl
        | cons e left =>
          rw [List.cons_append, List.cons.injEq] at htext
          exact absurd (htext.1 ▸ hd ▸ List.mem_cons_self) hfree
    · rw [if_neg (by simpa using Ne.symm hd), Option.map_eq_some_iff]
      constructor
      · rintro ⟨⟨front, back⟩, hsplit, h⟩
        cases h
        obtain ⟨htext, hfree⟩ := ih.mp hsplit
        refine ⟨by rw [htext, List.cons_append], ?_⟩
        rw [List.mem_cons, not_or]
        exact ⟨Ne.symm hd, hfree⟩
      · rintro ⟨htext, hfree⟩
        cases left with
        | nil =>
          rw [List.nil_append, List.cons.injEq] at htext
          exact absurd htext.1 hd
        | cons e left =>
          rw [List.cons_append, List.cons.injEq] at htext
          obtain ⟨rfl, htext⟩ := htext
          rw [List.mem_cons, not_or] at hfree
          exact ⟨(left, right), ih.mpr ⟨htext, hfree.2⟩, rfl⟩

theorem splitOnce_eq_none_iff {c : Char} {text : List Char} :
    splitOnce [c] text = none ↔ c ∉ text := by
  constructor
  · intro hnone hmem
    obtain ⟨left, right, rfl, hfree⟩ := List.eq_append_cons_of_mem hmem
    rw [splitOnce_eq_some_iff.mpr ⟨rfl, hfree⟩] at hnone
    cases hnone
  · intro hfree
    cases h : splitOnce [c] text with
    | none => rfl
    | some halves =>
      obtain ⟨htext, -⟩ := splitOnce_eq_some_iff.mp h
      rw [htext] at hfree
      exact absurd (List.mem_append_right _ List.mem_cons_self) hfree

/-- No piece of a split has a separator in it. -/
theorem not_of_mem_splitOnP {text piece : List Char} {separator : Char → Bool}
    (h : piece ∈ text.splitOnP separator) : ∀ c ∈ piece, separator c = false := by
  induction text generalizing piece with
  | nil =>
    rw [List.splitOnP_nil, List.mem_singleton] at h
    rw [h]
    exact nofun
  | cons c rest ih =>
    rw [List.splitOnP_cons_eq_if_modifyHead] at h
    split at h
    · rcases List.mem_cons.mp h with rfl | hrest
      · exact nofun
      · exact ih hrest
    · rename_i hc
      cases hsplit : rest.splitOnP separator with
      | nil => exact absurd hsplit (List.splitOnP_ne_nil _ _)
      | cons first others =>
        rw [hsplit, List.modifyHead_cons] at h
        rcases List.mem_cons.mp h with rfl | hothers
        · exact List.forall_mem_cons.mpr
            ⟨Bool.eq_false_iff.mpr hc, ih (hsplit ▸ List.mem_cons_self)⟩
        · exact ih (hsplit ▸ List.mem_cons_of_mem _ hothers)

/-- The pieces between white space are not empty and have none in them. -/
theorem of_mem_splitWhitespace {text piece : List Char} (h : piece ∈ splitWhitespace text) :
    piece ≠ [] ∧ ∀ c ∈ piece, isWhitespace c = false := by
  obtain ⟨hpiece, hne⟩ := List.mem_filter.mp h
  exact ⟨of_decide_eq_true hne, not_of_mem_splitOnP hpiece⟩

/-- A word before white space is split off. -/
theorem splitWhitespace_cons {word : List Char} (hne : word ≠ [])
    (hword : ∀ c ∈ word, isWhitespace c = false) {space : Char} (hspace : isWhitespace space = true)
    (rest : List Char) :
    splitWhitespace (word ++ space :: rest) = word :: splitWhitespace rest := by
  rw [splitWhitespace, List.splitOnP_append_cons_of_forall_mem hword space hspace,
    List.filter_cons_of_pos (by simpa using hne)]
  rfl

/-! ## Trimming -/

theorem trimChars_eq_trimBy (text : List Char) : trimChars text = trimBy isWhitespace text := rfl

/-- Trimming leaves no space to trim. -/
theorem trimChars_trimChars (text : List Char) : trimChars (trimChars text) = trimChars text :=
  trimBy_trimBy (fun _ h ↦ h) text

theorem trim_trim (text : String) : trim (trim text) = trim text := by
  rw [trim, trim, String.toList_ofList, trimChars_trimChars]

/-! ## Lossy decoding -/

def replacementChar : Char := '\uFFFD'

/-- The next byte as a continuation within the bounds: its six bits, and what follows. -/
def continuation (least greatest : ℕ) : List UInt8 → Option (ℕ × List UInt8)
  | [] => none
  | byte :: rest =>
    if least ≤ byte.toNat ∧ byte.toNat ≤ greatest then some (byte.toNat - 0x80, rest) else none

/-- The bounds of the second byte after a leading one. -/
def secondBounds (lead : ℕ) : ℕ × ℕ :=
  if lead = 0xe0 then (0xa0, 0xbf)
  else if lead = 0xed then (0x80, 0x9f)
  else if lead = 0xf0 then (0x90, 0xbf)
  else if lead = 0xf4 then (0x80, 0x8f)
  else (0x80, 0xbf)

/-- The first character of a lossy decoding, and the bytes after it.  A sequence that breaks off
is one U+FFFD. -/
def lossyChar (byte : UInt8) (rest : List UInt8) : Char × List UInt8 :=
  let lead := byte.toNat
  if lead < 0x80 then (Char.ofNat lead, rest)
  else if lead < 0xc2 ∨ 0xf4 < lead then (replacementChar, rest)
  else
    match continuation (secondBounds lead).1 (secondBounds lead).2 rest with
    | none => (replacementChar, rest)
    | some (second, rest) =>
      if lead < 0xe0 then (Char.ofNat ((lead - 0xc0) * 64 + second), rest)
      else
        match continuation 0x80 0xbf rest with
        | none => (replacementChar, rest)
        | some (third, rest) =>
          if lead < 0xf0 then
            (Char.ofNat (((lead - 0xe0) * 64 + second) * 64 + third), rest)
          else
            match continuation 0x80 0xbf rest with
            | none => (replacementChar, rest)
            | some (fourth, rest) =>
              (Char.ofNat ((((lead - 0xf0) * 64 + second) * 64 + third) * 64 + fourth), rest)

def lossyChars : ℕ → List UInt8 → List Char
  | 0, _ => []
  | _, [] => []
  | fuel + 1, byte :: rest =>
    let next := lossyChar byte rest
    next.1 :: lossyChars fuel next.2

/-- `String::from_utf8_lossy`, as characters. -/
def fromUtf8Lossy (data : List UInt8) : List Char := lossyChars data.length data

def byteChar (byte : UInt8) : Char := Char.ofNat byte.toNat

theorem continuation_eq_some {least greatest value : ℕ} {data rest : List UInt8}
    (h : continuation least greatest data = some (value, rest)) (hleast : 0x80 ≤ least) :
    least ≤ value + 0x80 ∧ value + 0x80 ≤ greatest := by
  cases data with
  | nil => cases h
  | cons byte data =>
    rw [continuation] at h
    by_cases hbounds : least ≤ byte.toNat ∧ byte.toNat ≤ greatest
    · rw [if_pos hbounds, Option.some.injEq, Prod.mk.injEq] at h
      omega
    · rw [if_neg hbounds] at h
      cases h

theorem toNat_ofNat_of_scalar {code : ℕ} (h : code < 0xd800 ∨ 0xdfff < code ∧ code < 0x110000) :
    (Char.ofNat code).toNat = code := by
  have hvalid : code.isValidChar := h
  rw [Char.ofNat, dif_pos hvalid]
  rfl

/-- A byte beyond ASCII begins a character beyond ASCII. -/
theorem le_toNat_lossyChar {byte : UInt8} (h : 0x80 ≤ byte.toNat) (rest : List UInt8) :
    0x80 ≤ (lossyChar byte rest).1.toNat := by
  have hreplacement : 0x80 ≤ replacementChar.toNat := by decide
  unfold lossyChar
  dsimp only
  rw [if_neg (not_lt.mpr h)]
  split
  · exact hreplacement
  rename_i hlead
  rw [not_or, not_lt, not_lt] at hlead
  split
  · exact hreplacement
  rename_i second rest₂ hsecond
  have hbounds : 0x80 ≤ (secondBounds byte.toNat).1 := by
    unfold secondBounds
    split_ifs <;> decide
  have hsecond := continuation_eq_some hsecond hbounds
  unfold secondBounds at hsecond
  split
  · rename_i htwo
    have hwithin : second ≤ 0x3f := by
      split_ifs at hsecond <;> omega
    dsimp only
    rw [toNat_ofNat_of_scalar (by omega)]
    omega
  rename_i htwo
  split
  · exact hreplacement
  rename_i third rest₃ hthird
  have hthird := continuation_eq_some hthird le_rfl
  split
  · rename_i hthree
    dsimp only
    split_ifs at hsecond <;> rw [toNat_ofNat_of_scalar (by omega)] <;> omega
  rename_i hthree
  split
  · exact hreplacement
  rename_i fourth rest₄ hfourth
  have hfourth := continuation_eq_some hfourth le_rfl
  dsimp only
  split_ifs at hsecond <;> rw [toNat_ofNat_of_scalar (by omega)] <;> omega

theorem lossyChars_of_ascii {byte : UInt8} (h : byte.toNat < 0x80) (fuel : ℕ)
    (rest : List UInt8) :
    lossyChars (fuel + 1) (byte :: rest) = byteChar byte :: lossyChars fuel rest := by
  rw [lossyChars, lossyChar, if_pos h]
  rfl

theorem le_toNat_byteChar {byte : UInt8} (h : 0x80 ≤ byte.toNat) :
    0x80 ≤ (byteChar byte).toNat := by
  have hbyte := byte.toNat_lt
  rw [byteChar, toNat_ofNat_of_scalar (by omega)]
  exact h

/-- What stands before an ASCII character is decoded byte by byte, if it is ASCII at all. -/
theorem lossyChars_takeWhile {accepts : Char → Bool}
    (haccepts : ∀ c, accepts c = true → c.toNat < 0x80) {stop : Char} (hstop : stop.toNat < 0x80)
    {fuel : ℕ} {data : List UInt8} (hfuel : data.length ≤ fuel)
    (h : ((lossyChars fuel data).takeWhile (· ≠ stop)).all accepts = true ∨
      ((data.takeWhile fun byte ↦ byteChar byte ≠ stop).map byteChar).all accepts = true) :
    (lossyChars fuel data).takeWhile (· ≠ stop) =
      (data.takeWhile fun byte ↦ byteChar byte ≠ stop).map byteChar := by
  induction fuel generalizing data with
  | zero =>
    rw [List.length_eq_zero_iff.mp (Nat.le_zero.mp hfuel)]
    rfl
  | succ fuel ih =>
    cases data with
    | nil => rfl
    | cons byte rest =>
      by_cases hascii : byte.toNat < 0x80
      · rw [lossyChars_of_ascii hascii] at h ⊢
        by_cases hat : byteChar byte = stop
        · simp [hat]
        · have hpass : decide (byteChar byte ≠ stop) = true := decide_eq_true hat
          simp only [List.takeWhile_cons, hpass, if_true, List.map_cons, List.all_cons,
            Bool.and_eq_true] at h ⊢
          rw [ih (Nat.le_of_succ_le_succ hfuel) (h.imp And.right And.right)]
      · -- Neither side accepts a first character beyond ASCII.
        rw [not_lt] at hascii
        have refused {c : Char} (hc : 0x80 ≤ c.toNat) {tail : List Char} :
            ((c :: tail).all accepts) = false := by
          rw [List.all_cons, Bool.and_eq_false_iff]
          exact .inl (Bool.eq_false_iff.mpr fun htrue ↦ absurd (haccepts c htrue) (not_lt.mpr hc))
        have passed {c : Char} (hc : 0x80 ≤ c.toNat) : decide (c ≠ stop) = true := by
          refine decide_eq_true ?_
          rintro rfl
          exact absurd hstop (not_lt.mpr hc)
        have hfirst := le_toNat_lossyChar hascii rest
        have hbyte := le_toNat_byteChar hascii
        simp only [lossyChars, List.takeWhile_cons, passed hfirst, passed hbyte, if_true,
          List.map_cons, refused hfirst, refused hbyte, Bool.false_eq_true, or_self] at h

end Cameo
