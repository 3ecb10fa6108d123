import Cameo.Library.Trim
import Mathlib.Data.Int.Basic
import Mathlib.Data.List.Basic

/-!
# Text

The parts of the source's string library that the model needs.
-/

namespace Cameo

def asciiLower (c : Char) : Char := if 'A' ≤ c ∧ c ≤ 'Z' then Char.ofNat (c.toNat + 32) else c

/-- `str::eq_ignore_ascii_case`. -/
def eqIgnoreAsciiCase (a b : String) : Bool :=
  a.toList.map asciiLower = b.toList.map asciiLower

/-- `char::is_whitespace`: the Unicode property White_Space. -/
def isWhitespace (c : Char) : Bool :=
  let code := c.toNat
  (0x9 ≤ code ∧ code ≤ 0xd) ∨ code = 0x20 ∨ code = 0x85 ∨ code = 0xa0 ∨ code = 0x1680 ∨
    (0x2000 ≤ code ∧ code ≤ 0x200a) ∨ code = 0x2028 ∨ code = 0x2029 ∨ code = 0x202f ∨
    code = 0x205f ∨ code = 0x3000

/-- `text.trim().is_empty()`. -/
def isBlank (text : String) : Bool := text.toList.all isWhitespace

/-- `str::trim`, as characters. -/
def trimChars (text : List Char) : List Char :=
  ((text.dropWhile isWhitespace).reverse.dropWhile isWhitespace).reverse

/-- `str::trim`. -/
def trim (text : String) : String := String.ofList (trimChars text.toList)

/-- `str::to_ascii_lowercase`. -/
def toAsciiLowercase (text : String) : String := String.ofList (text.toList.map asciiLower)

/-- `str::bytes`. -/
def bytes (text : String) : List UInt8 := text.toUTF8.data.toList

/-- A line less the carriage return before its newline. -/
def stripReturn (line : List Char) : List Char :=
  if line.getLast? = some '\r' then line.dropLast else line

/-- `str::lines`. -/
def lines (text : String) : List (List Char) :=
  let pieces := text.toList.splitOn '\n'
  pieces.dropLast.map stripReturn ++
    match pieces.getLast? with
    | none | some [] => []
    | some last => [last]

/-- `str::strip_prefix`. -/
def stripPrefix (lead text : String) : Option String :=
  if lead.toList.isPrefixOf text.toList then
    some (String.ofList (text.toList.drop lead.toList.length))
  else none

/-- `str::strip_suffix`. -/
def stripSuffix (trail text : String) : Option String :=
  if trail.toList.isSuffixOf text.toList then
    some (String.ofList (text.toList.take (text.toList.length - trail.toList.length)))
  else none

/-- `str::split_once`, as characters: what stands before and after the first occurrence. -/
def splitOnce (pattern : List Char) : List Char → Option (List Char × List Char)
  | [] => if pattern = [] then some ([], []) else none
  | c :: rest =>
    if pattern.isPrefixOf (c :: rest) then some ([], (c :: rest).drop pattern.length)
    else (splitOnce pattern rest).map fun halves ↦ (c :: halves.1, halves.2)

/-- `str::rsplit_once` of a character: what stands before and after its last occurrence. -/
def rsplitOnce (separator : Char) (text : List Char) : Option (List Char × List Char) :=
  if separator ∈ text then
    some (((text.reverse.dropWhile (· ≠ separator)).drop 1).reverse,
      (text.reverse.takeWhile (· ≠ separator)).reverse)
  else none

/-- `str::trim_end_matches` of a character. -/
def trimEndMatches (c : Char) (text : List Char) : List Char :=
  (text.reverse.dropWhile (· = c)).reverse

/-- A text without the leading repetitions of a pattern; the first argument bounds their number. -/
def dropRepeated (pattern : List Char) : ℕ → List Char → List Char
  | 0, text => text
  | n + 1, text =>
    if pattern.isPrefixOf text then dropRepeated pattern n (text.drop pattern.length) else text

/-- `str::trim_end_matches` of a text. -/
def trimEndText (pattern text : String) : String :=
  String.ofList (dropRepeated pattern.toList.reverse text.length text.toList.reverse).reverse

/-- `char::is_control`: the Unicode category Cc. -/
def isControl (c : Char) : Bool := c.toNat < 0x20 ∨ (0x7f ≤ c.toNat ∧ c.toNat ≤ 0x9f)

/-- The code points of letters and digits. -/
theorem toNat_of_isAlphanum {c : Char} (h : c.isAlphanum = true) :
    (48 ≤ c.toNat ∧ c.toNat ≤ 57) ∨ (65 ≤ c.toNat ∧ c.toNat ≤ 90) ∨
      (97 ≤ c.toNat ∧ c.toNat ≤ 122) := by
  have hkinds : ((c.isUpper || c.isLower) || c.isDigit) = true := h
  rw [Bool.or_eq_true, Bool.or_eq_true] at hkinds
  rcases hkinds with (hupper | hlower) | hdigit
  · have hrange : 'A'.val ≤ c.val ∧ c.val ≤ 'Z'.val := of_decide_eq_true hupper
    exact .inr (.inl ⟨UInt32.le_iff_toNat_le.mp hrange.1, UInt32.le_iff_toNat_le.mp hrange.2⟩)
  · obtain ⟨hlow, hhigh⟩ := (Bool.and_eq_true _ _).mp hlower
    exact .inr (.inr ⟨UInt32.le_iff_toNat_le.mp (of_decide_eq_true hlow),
      UInt32.le_iff_toNat_le.mp (of_decide_eq_true hhigh)⟩)
  · exact .inl (Char.isDigit_iff_toNat.mp hdigit)

/-- Decimal texts differ as their numbers do. -/
theorem decimal_inj {m n : ℕ} (h : toString m = toString n) : m = n := by
  have hnumber := congrArg (fun text ↦ Nat.ofDigitChars 10 text.toList 0) h
  simpa only [Nat.toString_eq_repr, Nat.toList_repr, Nat.ofDigitChars_ten_toDigits] using hnumber

theorem isDigit_of_mem_decimal {n : ℕ} {c : Char} (h : c ∈ (toString n).toList) :
    c.isDigit = true := by
  rw [Nat.toString_eq_repr, Nat.toList_repr] at h
  exact Nat.isDigit_of_mem_toDigits (by decide) (by decide) h

theorem decimal_ne_nil (n : ℕ) : (toString n).toList ≠ [] := by
  rw [Nat.toString_eq_repr, Nat.toList_repr]
  exact Nat.toDigits_ne_nil

/-! ## Python -/

/-- `character.isspace()`: White_Space and the four information separators. -/
def isSpace (c : Char) : Bool := isWhitespace c || decide (0x1c ≤ c.toNat ∧ c.toNat ≤ 0x1f)

/-- `not text.strip()`. -/
def stripsEmpty (text : String) : Bool := text.toList.all isSpace

/-- `text.strip()`, as characters. -/
def strip (text : List Char) : List Char :=
  ((text.dropWhile isSpace).reverse.dropWhile isSpace).reverse

def octalDigit? (c : Char) : Option ℕ :=
  if '0' ≤ c ∧ c ≤ '7' then some (c.toNat - '0'.toNat) else none

/-- Octal digits after a first one; an underscore may stand between two digits. -/
def octalDigits (value : ℕ) : List Char → Option ℕ
  | [] => some value
  | '_' :: c :: rest => (octalDigit? c).bind fun digit ↦ octalDigits (8 * value + digit) rest
  | c :: rest => (octalDigit? c).bind fun digit ↦ octalDigits (8 * value + digit) rest

/-- Octal digits after an optional sign. -/
def unsignedOctal? : List Char → Option ℕ
  | '0' :: 'o' :: '_' :: c :: rest | '0' :: 'O' :: '_' :: c :: rest
  | '0' :: 'o' :: c :: rest | '0' :: 'O' :: c :: rest =>
    (octalDigit? c).bind fun digit ↦ octalDigits digit rest
  | c :: rest => (octalDigit? c).bind fun digit ↦ octalDigits digit rest
  | [] => none

/-- The code points of the decimal digits zero. -/
def decimalZeros : List ℕ :=
  [0x660, 0x6f0, 0x7c0, 0x966, 0x9e6, 0xa66, 0xae6, 0xb66, 0xbe6, 0xc66, 0xce6, 0xd66, 0xde6, 0xe50,
    0xed0, 0xf20, 0x1040, 0x1090, 0x17e0, 0x1810, 0x1946, 0x19d0, 0x1a80, 0x1a90, 0x1b50, 0x1bb0,
    0x1c40, 0x1c50, 0xa620, 0xa8d0, 0xa900, 0xa9d0, 0xa9f0, 0xaa50, 0xabf0, 0xff10, 0x104a0,
    0x10d30, 0x11066, 0x110f0, 0x11136, 0x111d0, 0x112f0, 0x11450, 0x114d0, 0x11650, 0x116c0,
    0x11730, 0x118e0, 0x11950, 0x11c50, 0x11d50, 0x11da0, 0x11f50, 0x16a60, 0x16ac0, 0x16b50,
    0x1d7ce, 0x1d7d8, 0x1d7e2, 0x1d7ec, 0x1d7f6, 0x1e140, 0x1e2f0, 0x1e4f0, 0x1e950, 0x1fbf0]

/-- A character as `int` reads it: beyond ASCII only spaces and decimal digits matter. -/
def intChar (c : Char) : Char :=
  if c.toNat < 0x80 then c
  else if isWhitespace c then ' '
  else
    match decimalZeros.find? fun start ↦ start ≤ c.toNat ∧ c.toNat < start + 10 with
    | some start => Char.ofNat (c.toNat - start + '0'.toNat)
    | none => '?'

/-- `int(text, 8)`.  Of the characters of ASCII only the six of C's `isspace` are stripped. -/
def octal? (text : String) : Option ℤ :=
  let isCSpace (c : Char) : Bool := c = ' ' || decide (9 ≤ c.toNat ∧ c.toNat ≤ 13)
  match Library.trimBy isCSpace (text.toList.map intChar) with
  | '-' :: rest => (unsignedOctal? rest).map fun n ↦ -(n : ℤ)
  | '+' :: rest => (unsignedOctal? rest).map Int.ofNat
  | rest => (unsignedOctal? rest).map Int.ofNat

/-- `PurePosixPath`. -/
structure PosixPath where
  root : String
  parts : List String
deriving DecidableEq

namespace PosixPath

/-- `PurePosixPath(text)`: empty and dot components are dropped, and exactly two leading slashes are
a root of their own. -/
def ofString (text : String) : PosixPath where
  root := match text.toList with
    | '/' :: '/' :: '/' :: _ => "/"
    | '/' :: '/' :: _ => "//"
    | '/' :: _ => "/"
    | _ => ""
  parts := ((text.toList.splitOn '/').filter fun part ↦ part ≠ [] ∧ part ≠ ['.']).map String.ofList

/-- `path.is_absolute()`. -/
def isAbsolute (path : PosixPath) : Bool := path.root ≠ ""

/-- `str(path)`. -/
def toString (path : PosixPath) : String :=
  if path.root = "" ∧ path.parts = [] then "." else path.root ++ "/".intercalate path.parts

end PosixPath

end Cameo
