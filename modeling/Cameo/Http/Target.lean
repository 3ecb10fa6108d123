import Mathlib.Data.String.Basic
import Cameo.Bytes
import Cameo.Library.Ordered

/-!
# Request targets

`split_target` takes a target apart at its first question mark and decodes the path as a whole, so
that an encoded slash separates segments like one that stands for itself.  `field_route` looks at
the target as it was sent.
-/

namespace Cameo.Http

open Library

/-! ## Decoding -/

/-- The loop of `percent_decode`. -/
def percentDecodeBytes (plusAsSpace : Bool) : List UInt8 → Option (List UInt8)
  | [] => some []
  | 37 :: hi :: lo :: rest =>
    match digitOf 16 (byteChar hi), digitOf 16 (byteChar lo) with
    | some hi, some lo => (percentDecodeBytes plusAsSpace rest).map (.ofNat (hi * 16 + lo) :: ·)
    | _, _ => none
  | b :: rest =>
    if b = 37 then none
    else if b = 43 ∧ plusAsSpace then (percentDecodeBytes plusAsSpace rest).map (32 :: ·)
    else (percentDecodeBytes plusAsSpace rest).map (b :: ·)

/-- `percent_decode`; its only error is `ParseError::Malformed`, here `none`. -/
def percentDecode (text : List Char) (plusAsSpace : Bool) : Option String :=
  (percentDecodeBytes plusAsSpace (bytes (String.ofList text))).bind fun out ↦
    if out.any fun byte ↦ byte = 0 || byte = 13 || byte = 10 || byte = 0x7f then none
    else fromUtf8 out

def addPair (map : Ordered.Map String String) (pair : List Char) :
    Option (Ordered.Map String String) := do
  let (k, v) := (splitOnce ['='] pair).getD (pair, [])
  return map.insert (← percentDecode k true) (← percentDecode v true)

/-- `split_target`; its only error is `ParseError::Malformed`, here `none`. -/
def splitTarget (target : String) : Option (String × Ordered.Map String String) := do
  let (path, query) := (splitOnce ['?'] target.toList).getD (target.toList, [])
  let map ← ((query.splitOn '&').filter (· ≠ [])).foldlM addPair .empty
  let path ← percentDecode path false
  if path.toList.any fun c ↦ c.toNat < 0x20 || c.toNat = 0x7f then none else some (path, map)

example : (splitTarget "/api/models?spec=a%2Fb+c&&x").map (fun split ↦ (split.1, split.2.entries)) =
    some ("/api/models", [("spec", "a/b c"), ("x", "")]) := by decide +kernel

/-! ## The field prefix -/

/-- `FIELD_PREFIX`. -/
def fieldPrefix : String := "/field"

/-- `FieldRoute`. -/
inductive FieldRoute where
  | redirect (location : String)
  | forward (target : String)
deriving DecidableEq

/-- `field_route`. -/
def fieldRoute (target : String) : Option FieldRoute :=
  (stripPrefix fieldPrefix target).bind fun rest ↦
    match rest.toList.head? with
    | none => some (.redirect (fieldPrefix ++ "/"))
    | some '?' => some (.redirect (fieldPrefix ++ "/" ++ rest))
    | some '/' => some (.forward rest)
    | some _ => none

/-! ## Encoding -/

/-- A digit of `%XX`. -/
def hexDigit (value : ℕ) : Char := "0123456789ABCDEF".toList.getD value '0'

def isUnreserved (c : Char) : Bool := c.isAlphanum || c ∈ "-._~".toList

/-- A byte as it is sent: itself, or `%XX`. -/
def encodeByte (byte : UInt8) : List Char :=
  if isUnreserved (byteChar byte) then [byteChar byte]
  else ['%', hexDigit (byte.toNat / 16), hexDigit (byte.toNat % 16)]

/-- A text as a client sends it in one segment of a path. -/
def percentEncode (text : String) : List Char := (bytes text).flatMap encodeByte

def isPathChar (c : Char) : Bool := isUnreserved c || c = '%' || c = '/'

def asciiByte (c : Char) : UInt8 := .ofNat c.toNat

theorem bytes_of_ascii {text : List Char} (h : ∀ c ∈ text, c.toNat < 0x80) :
    bytes (String.ofList text) = text.map asciiByte := by
  rw [bytes_eq_flatMap, String.toList_ofList]
  induction text with
  | nil => rfl
  | cons c text ih =>
    obtain ⟨hc, htext⟩ := List.forall_mem_cons.mp h
    rw [List.flatMap_cons, utf8EncodeChar_of_ascii hc, ih htext]
    rfl

theorem byteChar_asciiByte {c : Char} (h : c.toNat < 0x80) : byteChar (asciiByte c) = c := by
  rw [byteChar, asciiByte, UInt8.toNat_ofNat', Nat.mod_eq_of_lt (by omega), Char.ofNat_toNat]

theorem hexDigit_spec : ∀ value < 16, (hexDigit value).toNat < 0x80 ∧
    digitOf 16 (hexDigit value) = some value ∧ isPathChar (hexDigit value) = true := by
  decide

theorem toNat_of_isUnreserved {c : Char} (h : isUnreserved c = true) :
    0x21 ≤ c.toNat ∧ c.toNat < 0x7f ∧ c ≠ '%' ∧ c ≠ '/' ∧ c ≠ '?' ∧ c ≠ '#' := by
  rcases (Bool.or_eq_true _ _).mp h with halnum | hother
  · have hcode := toNat_of_isAlphanum halnum
    have hne (d : Char) (hd : ¬((48 ≤ d.toNat ∧ d.toNat ≤ 57) ∨ (65 ≤ d.toNat ∧ d.toNat ≤ 90) ∨
        (97 ≤ d.toNat ∧ d.toNat ≤ 122))) : c ≠ d := by
      rintro rfl
      exact hd hcode
    exact ⟨by omega, by omega, hne _ (by decide), hne _ (by decide), hne _ (by decide),
      hne _ (by decide)⟩
  · have hall : ("-._~".toList.all fun c ↦ decide (0x21 ≤ c.toNat ∧ c.toNat < 0x7f ∧ c ≠ '%' ∧
        c ≠ '/' ∧ c ≠ '?' ∧ c ≠ '#')) = true := by decide
    exact of_decide_eq_true (List.all_eq_true.mp hall c (of_decide_eq_true hother))

theorem toNat_of_isPathChar {c : Char} (h : isPathChar c = true) :
    0x21 ≤ c.toNat ∧ c.toNat < 0x7f ∧ c ≠ '?' ∧ c ≠ '#' := by
  unfold isPathChar at h
  rcases (Bool.or_eq_true _ _).mp h with h | hslash
  · rcases (Bool.or_eq_true _ _).mp h with hplain | hpercent
    · obtain ⟨hlow, hhigh, -, -, hquery, hfragment⟩ := toNat_of_isUnreserved hplain
      exact ⟨hlow, hhigh, hquery, hfragment⟩
    · rw [of_decide_eq_true hpercent]
      decide
  · rw [of_decide_eq_true hslash]
    decide

theorem isPathChar_of_mem_encodeByte (byte : UInt8) :
    ∀ c ∈ encodeByte byte, isPathChar c = true := by
  unfold encodeByte
  have hlt := byte.toNat_lt
  intro c hc
  split at hc
  · rename_i hplain
    rw [List.mem_singleton.mp hc, isPathChar, hplain]
    rfl
  · simp only [List.mem_cons, List.not_mem_nil, or_false] at hc
    rcases hc with rfl | rfl | rfl
    · decide
    · exact (hexDigit_spec _ (by omega)).2.2
    · exact (hexDigit_spec _ (Nat.mod_lt _ (by decide))).2.2

theorem isPathChar_of_mem_percentEncode (text : String) :
    ∀ c ∈ percentEncode text, isPathChar c = true := by
  intro c hc
  obtain ⟨byte, -, hc⟩ := List.mem_flatMap.mp hc
  exact isPathChar_of_mem_encodeByte byte c hc

/-- A byte other than a percent sign stands for itself in a path. -/
theorem percentDecodeBytes_cons {byte : UInt8} (h : byte ≠ 37) (rest : List UInt8) :
    percentDecodeBytes false (byte :: rest) = (percentDecodeBytes false rest).map (byte :: ·) := by
  rw [percentDecodeBytes, if_neg h, if_neg (fun hplus ↦ Bool.false_ne_true hplus.2)]
  intro hi lo after heq
  exact absurd heq h

/-- An encoded byte is decoded. -/
theorem percentDecodeBytes_encodeByte (byte : UInt8) (rest : List UInt8) :
    percentDecodeBytes false ((encodeByte byte).map asciiByte ++ rest) =
      (percentDecodeBytes false rest).map (byte :: ·) := by
  have hlt := byte.toNat_lt
  unfold encodeByte
  split
  · rename_i hplain
    obtain ⟨-, hhigh, hne, -⟩ := toNat_of_isUnreserved hplain
    have hbyte : byte.toNat < 0x80 := by
      by_contra hlarge
      have hcode := le_toNat_byteChar (not_lt.mp hlarge)
      omega
    have hsame : asciiByte (byteChar byte) = byte := by
      rw [asciiByte, byteChar, toNat_ofNat_of_scalar (by omega), UInt8.ofNat_toNat]
    have hpercent : byte ≠ 37 := by
      rintro rfl
      exact hne rfl
    rw [List.map_cons, List.map_nil, hsame, List.cons_append, List.nil_append,
      percentDecodeBytes_cons hpercent]
  · obtain ⟨hhi, hhi', -⟩ := hexDigit_spec (byte.toNat / 16) (by omega)
    obtain ⟨hlo, hlo', -⟩ := hexDigit_spec (byte.toNat % 16) (Nat.mod_lt _ (by decide))
    rw [List.map_cons, List.map_cons, List.map_cons, List.map_nil]
    change percentDecodeBytes false (37 :: asciiByte _ :: asciiByte _ :: rest) = _
    rw [percentDecodeBytes, byteChar_asciiByte hhi, byteChar_asciiByte hlo, hhi', hlo']
    dsimp only
    rw [show byte.toNat / 16 * 16 + byte.toNat % 16 = byte.toNat by omega, UInt8.ofNat_toNat]

/-- An encoded text is decoded, after a path that stands for itself. -/
theorem percentDecodeBytes_percentEncode (front : List UInt8) (hfront : 37 ∉ front)
    (text : String) :
    percentDecodeBytes false (front ++ (percentEncode text).map asciiByte) =
      some (front ++ bytes text) := by
  induction front with
  | nil =>
    rw [List.nil_append, List.nil_append, percentEncode]
    induction bytes text with
    | nil => rfl
    | cons byte rest ih =>
      rw [List.flatMap_cons, List.map_append, percentDecodeBytes_encodeByte, ih]
      rfl
  | cons byte front ih =>
    rw [List.mem_cons, not_or] at hfront
    rw [List.cons_append, percentDecodeBytes_cons (Ne.symm hfront.1), ih hfront.2]
    rfl

def isAsciiControl (c : Char) : Bool := c.toNat < 0x20 || c.toNat = 0x7f

/-- The bytes of a path that ends in an encoded text. -/
theorem percentDecodeBytes_path {front : List Char}
    (hfront : ∀ c ∈ front, isPathChar c = true ∧ c ≠ '%') (text : String) :
    percentDecodeBytes false (bytes (String.ofList (front ++ percentEncode text))) =
      some (bytes (String.ofList (front ++ text.toList))) := by
  have hbytes : bytes (String.ofList (front ++ percentEncode text)) =
      bytes (String.ofList front) ++ (percentEncode text).map asciiByte := by
    rw [String.ofList_append, bytes_append, bytes_of_ascii fun c hc ↦
      (toNat_of_isPathChar (isPathChar_of_mem_percentEncode text c hc)).2.1.trans (by decide)]
  have hpercent : (37 : UInt8) ∉ bytes (String.ofList front) := by
    rw [mem_bytes_iff (by decide), String.toList_ofList]
    rintro ⟨c, hc, hcode⟩
    exact (hfront c hc).2 (Char.toNat_inj.mp hcode)
  rw [hbytes, percentDecodeBytes_percentEncode _ hpercent, String.ofList_append, bytes_append,
    String.ofList_toList]

/-- What the decoder refuses by itself, a NUL, a line end or a DEL, is a control character. -/
theorem any_isAsciiControl_of_bytes {text : String}
    (h : ((bytes text).any fun byte ↦ byte = 0 || byte = 13 || byte = 10 || byte = 0x7f) = true) :
    text.toList.any isAsciiControl = true := by
  obtain ⟨byte, hmem, hcode⟩ := List.any_eq_true.mp h
  simp only [Bool.or_eq_true, decide_eq_true_eq] at hcode
  have hsmall : byte.toNat < 0x80 ∧ (byte.toNat < 0x20 ∨ byte.toNat = 0x7f) := by
    rcases hcode with ((rfl | rfl) | rfl) | rfl <;> decide
  obtain ⟨c, hc, hc'⟩ := (mem_bytes_iff hsmall.1 _).mp hmem
  refine List.any_eq_true.mpr ⟨c, hc, ?_⟩
  rw [isAsciiControl, Bool.or_eq_true, decide_eq_true_eq, decide_eq_true_eq]
  omega

/-- A path that ends in an encoded text is decoded unless there is a control character in it. -/
theorem splitTarget_percentEncode {front : List Char}
    (hfront : ∀ c ∈ front, isPathChar c = true ∧ c ≠ '%') (text : String) :
    splitTarget (String.ofList (front ++ percentEncode text)) =
      if text.toList.any isAsciiControl then none
      else some (String.ofList (front ++ text.toList), .empty) := by
  have hpath : ∀ c ∈ front ++ percentEncode text, isPathChar c = true := by
    intro c hc
    rcases List.mem_append.mp hc with hc | hc
    · exact (hfront c hc).1
    · exact isPathChar_of_mem_percentEncode text c hc
  have hquery : splitOnce ['?'] (front ++ percentEncode text) = none := by
    rw [splitOnce_eq_none_iff]
    exact fun hmem ↦ (toNat_of_isPathChar (hpath _ hmem)).2.2.1 rfl
  have hcontrol : (front ++ text.toList).any isAsciiControl = text.toList.any isAsciiControl := by
    rw [List.any_append, Bool.or_eq_right_iff_imp]
    intro hfree
    obtain ⟨c, hc, hcode⟩ := List.any_eq_true.mp hfree
    obtain ⟨hlow, hhigh, -⟩ := toNat_of_isPathChar (hfront c hc).1
    rw [isAsciiControl, Bool.or_eq_true, decide_eq_true_eq, decide_eq_true_eq] at hcode
    omega
  have hsplit : splitTarget (String.ofList (front ++ percentEncode text)) =
      (percentDecode (front ++ percentEncode text) false).bind fun path ↦
        if path.toList.any isAsciiControl then none else some (path, .empty) := by
    rw [splitTarget, String.toList_ofList, hquery]
    rfl
  rw [hsplit, percentDecode, percentDecodeBytes_path hfront, Option.bind_some, fromUtf8_bytes]
  split
  · rename_i hbyte
    have hany := any_isAsciiControl_of_bytes hbyte
    rw [String.toList_ofList, hcontrol] at hany
    rw [if_pos hany, Option.bind_none]
  · rw [Option.bind_some, String.toList_ofList, hcontrol]

end Cameo.Http
