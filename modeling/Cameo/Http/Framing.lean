import Cameo.Http.Incoming

/-!
# Framing

What a conforming proxy would take for the same message: every header line is a token, a colon and a
value, a content length is digits between spaces and tabs, and the head ends in an empty line.
`parse_head` trims lines and names before it checks them, and the length goes through an integer
parser, so it accepts more.
-/

namespace Cameo.Http

open Library

/-! ## The grammar -/

def IsDigits (text : List Char) : Prop :=
  text ≠ [] ∧ text.all (fun c ↦ (digitOf 10 c).isSome) = true

instance (text : List Char) : Decidable (IsDigits text) := inferInstanceAs (Decidable (_ ∧ _))

/-- A header line: a token, a colon right after it, and a value; a content length is digits. -/
def FieldLine (line : String) : Prop :=
  ∃ name value, line = name ++ ":" ++ value ∧ isToken name = true ∧
    (toAsciiLowercase name = "content-length" → IsDigits (trimBy isSpaceOrTab value.toList))

/-- A head as the grammar has it, up to and including its empty line. -/
structure Unambiguous (lines : HeadLines) : Prop where
  fields : ∀ line ∈ lines.fields, FieldLine line
  blank : lines.blank = ""

/-- A text that neither begins nor ends with white space. -/
def Unpadded (text : List Char) : Prop :=
  text.head?.any isWhitespace = false ∧ text.getLast?.any isWhitespace = false

instance (text : List Char) : Decidable (Unpadded text) := inferInstanceAs (Decidable (_ ∧ _))

/-- No white space stands around the name of a header, none but spaces and tabs around a content
length, and no carriage return in the line that ends the head. -/
structure Plain (lengthOk : List Char → Prop) (lines : HeadLines) : Prop where
  name : ∀ line ∈ lines.fields, ∀ k v, splitOnce [':'] line.toList = some (k, v) → Unpadded k
  length : ∀ line ∈ lines.fields, ∀ k v, splitOnce [':'] line.toList = some (k, v) →
    toAsciiLowercase (trim (String.ofList k)) = "content-length" →
      trimBy isSpaceOrTab v = trimChars v ∧ lengthOk (trimChars v)
  blank : '\r' ∉ lines.blank.toList

/-! ## Characters -/

theorem ne_of_isTokenChar {c : Char} (h : isTokenChar c = true) :
    isWhitespace c = false ∧ c ≠ ':' := by
  rcases (Bool.or_eq_true _ _).mp h with halnum | hother
  · have hcode := toNat_of_isAlphanum halnum
    constructor
    · simp only [isWhitespace, decide_eq_false_iff_not]
      omega
    · rintro rfl
      exact absurd hcode (by decide)
  · have hall : ("!#$%&'*+-.^_`|~".toList.all fun c ↦ !isWhitespace c && c ≠ ':') = true := by
      decide
    have hc := List.all_eq_true.mp hall c (of_decide_eq_true hother)
    simpa using hc

theorem isTokenChar_of_asciiLower {c : Char} (h : isTokenChar (asciiLower c) = true) :
    isTokenChar c = true := by
  unfold asciiLower at h
  split at h
  · rename_i hupper
    have halnum : c.isAlphanum = true := by
      have hletter : c.isUpper = true := decide_eq_true hupper
      change ((c.isUpper || c.isLower) || c.isDigit) = true
      rw [hletter, Bool.true_or, Bool.true_or]
    rw [isTokenChar, halnum, Bool.true_or]
  · exact h

theorem isToken_of_toAsciiLowercase {text : String} (h : isToken (toAsciiLowercase text) = true) :
    isToken text = true := by
  unfold isToken toAsciiLowercase at *
  simp only [Bool.and_eq_true, decide_eq_true_eq, List.all_eq_true, String.toList_ofList] at *
  refine ⟨?_, fun c hc ↦ isTokenChar_of_asciiLower (h.2 _ (List.mem_map_of_mem hc))⟩
  rintro rfl
  exact h.1 rfl

theorem unpadded_of_forall {text : List Char} (h : ∀ c ∈ text, isWhitespace c = false) :
    Unpadded text := by
  constructor
  · cases hc : text.head? with
    | none => rfl
    | some c => exact h c (List.mem_of_head? hc)
  · cases hc : text.getLast? with
    | none => rfl
    | some c => exact h c (List.mem_of_getLast? hc)

theorem unpadded_iff {text : List Char} : Unpadded text ↔ trimChars text = text :=
  trimBy_eq_self_iff.symm

theorem toNat_of_digit {c : Char} (h : (digitOf 10 c).isSome = true) :
    48 ≤ c.toNat ∧ c.toNat ≤ 57 := by
  unfold digitOf at h
  dsimp only at h
  split at h
  · rename_i hrange
    exact hrange
  · have hlarge (base offset : ℕ) (hoffset : 10 ≤ offset) :
        ((some (base + offset)).filter (· < 10)).isSome = false := by
      rw [Option.filter_some_neg (by simp; omega)]
      rfl
    split at h
    · rw [hlarge _ 10 le_rfl] at h
      cases h
    · split at h
      · rw [hlarge _ 10 le_rfl] at h
        cases h
      · cases h

theorem unpadded_of_isDigits {text : List Char} (h : IsDigits text) : Unpadded text := by
  refine unpadded_of_forall fun c hc ↦ ?_
  have hcode := toNat_of_digit (List.all_eq_true.mp h.2 c hc)
  simp only [isWhitespace, decide_eq_false_iff_not]
  omega

/-- Digits between optional white space are what trimming leaves. -/
theorem isDigits_trimBy_iff (text : List Char) :
    IsDigits (trimBy isSpaceOrTab text) ↔
      trimBy isSpaceOrTab text = trimChars text ∧ IsDigits (trimChars text) := by
  constructor
  · intro h
    have hows : ∀ c, isSpaceOrTab c = true → isWhitespace c = true := by
      intro c hc
      rcases (Bool.or_eq_true _ _).mp hc with hspace | htab
      · rw [of_decide_eq_true hspace]
        decide
      · rw [of_decide_eq_true htab]
        decide
    have hsame : trimBy isSpaceOrTab text = trimChars text :=
      (unpadded_iff.mp (unpadded_of_isDigits h)).symm.trans (trimBy_trimBy hows text)
    exact ⟨hsame, hsame ▸ h⟩
  · rintro ⟨hsame, h⟩
    rw [hsame]
    exact h

/-! ## Lines -/

/-- A line is what the header loop looks at, and carriage returns after it. -/
theorem exists_trimmedLine {line : String} (h : IsLine line) :
    ∃ back : List Char, (∀ c ∈ back, c = '\r') ∧ line.toList = trimmedLine line ++ back := by
  have htrimmed : trimmedLine line =
      line.toList.rdropWhile fun c ↦ decide (c = '\r' ∨ c = '\n') := by
    rw [trimmedLine, trimLineEnd, String.toList_append]
    exact rdropWhile_append_of_pos (List.all_eq_true.mp rfl)
  obtain ⟨back, hback, hline⟩ :=
    exists_rdropWhile (fun c ↦ decide (c = '\r' ∨ c = '\n')) line.toList
  rw [← htrimmed] at hline
  refine ⟨back, fun c hc ↦ ?_, hline⟩
  rcases of_decide_eq_true (hback c hc) with hcr | hlf
  · exact hcr
  · exact absurd (hlf ▸ hline ▸ List.mem_append_right _ hc) h

/-- The name and the value of a header line that is accepted. -/
theorem exists_split_of_headerField {line key value : String} (hline : IsLine line)
    (h : headerField (trimmedLine line) = some (key, value)) :
    ∃ k v, splitOnce [':'] line.toList = some (k, v) ∧
      key = toAsciiLowercase (trim (String.ofList k)) ∧ isToken key = true ∧
      value.toList = trimChars v := by
  rw [headerField, Option.bind_eq_some_iff] at h
  obtain ⟨⟨k, v⟩, hsplit, h⟩ := h
  dsimp only at h
  split at h
  · cases h
  · rename_i hok
    rw [Option.some.injEq, Prod.mk.injEq] at h
    obtain ⟨rfl, rfl⟩ := h
    obtain ⟨back, hback, htext⟩ := exists_trimmedLine hline
    obtain ⟨htrimmed, hfree⟩ := splitOnce_eq_some_iff.mp hsplit
    refine ⟨k, v ++ back, ?_, rfl, ?_, ?_⟩
    · rw [splitOnce_eq_some_iff]
      exact ⟨by rw [htext, htrimmed, List.append_assoc, List.cons_append], hfree⟩
    · by_contra htoken
      exact hok (.inl (by simpa using htoken))
    · have hspace : ∀ c ∈ back, isWhitespace c = true := by
        intro c hc
        rw [hback c hc]
        decide
      rw [trim, String.toList_ofList, String.toList_ofList, trimChars_eq_trimBy v,
        ← trimBy_append_right hspace]
      rfl

/-- An accepted header line is one of the grammar if no slack is left in it. -/
theorem fieldLine_iff {line : String} {k v : List Char}
    (hsplit : splitOnce [':'] line.toList = some (k, v))
    (htoken : isToken (toAsciiLowercase (trim (String.ofList k))) = true) :
    FieldLine line ↔ Unpadded k ∧
      (toAsciiLowercase (trim (String.ofList k)) = "content-length" →
        trimBy isSpaceOrTab v = trimChars v ∧ IsDigits (trimChars v)) := by
  obtain ⟨hline, hfree⟩ := splitOnce_eq_some_iff.mp hsplit
  constructor
  · rintro ⟨name, rest, rfl, hname, hlength⟩
    have hchars : ∀ c ∈ name.toList, isTokenChar c = true :=
      List.all_eq_true.mp ((Bool.and_eq_true _ _).mp hname).2
    have hsplit' : splitOnce [':'] (name ++ ":" ++ rest).toList =
        some (name.toList, rest.toList) := by
      rw [splitOnce_eq_some_iff]
      refine ⟨by simp, fun hmem ↦ (ne_of_isTokenChar (hchars _ hmem)).2 rfl⟩
    rw [hsplit, Option.some.injEq, Prod.mk.injEq] at hsplit'
    obtain ⟨rfl, rfl⟩ := hsplit'
    have hunpadded : Unpadded name.toList :=
      unpadded_of_forall fun c hc ↦ (ne_of_isTokenChar (hchars c hc)).1
    refine ⟨hunpadded, fun hname ↦ (isDigits_trimBy_iff _).mp (hlength ?_)⟩
    rw [String.ofList_toList, trim, unpadded_iff.mp hunpadded, String.ofList_toList] at hname
    exact hname
  · rintro ⟨hunpadded, hlength⟩
    have htrim : trim (String.ofList k) = String.ofList k := by
      rw [trim, String.toList_ofList, unpadded_iff.mp hunpadded]
    rw [htrim] at htoken hlength
    refine ⟨String.ofList k, String.ofList v, ?_, isToken_of_toAsciiLowercase htoken, ?_⟩
    · rw [← String.toList_inj, hline]
      simp
    · intro hname
      rw [String.toList_ofList]
      exact (isDigits_trimBy_iff v).mpr (hlength hname)

theorem exists_headerField_of_mem {fields : List String} {pairs : List (String × String)}
    (h : headerFields fields = some pairs) {line : String} (hline : line ∈ fields) :
    ∃ key value, headerField (trimmedLine line) = some (key, value) ∧ (key, value) ∈ pairs := by
  induction fields generalizing pairs with
  | nil => exact absurd hline List.not_mem_nil
  | cons first fields ih =>
    rw [headerFields_cons, Option.bind_eq_some_iff] at h
    obtain ⟨pair, hfirst, h⟩ := h
    obtain ⟨rest, hrest, rfl⟩ := Option.map_eq_some_iff.mp h
    rcases List.mem_cons.mp hline with rfl | hline
    · exact ⟨pair.1, pair.2, hfirst, List.mem_cons_self⟩
    · obtain ⟨key, value, hfield, hmem⟩ := ih hrest hline
      exact ⟨key, value, hfield, List.mem_cons_of_mem _ hmem⟩

theorem lineBytes_inj {line other : String} (hline : IsLine line) (hother : IsLine other)
    {rest rest' : List UInt8} (h : lineBytes line ++ rest = lineBytes other ++ rest') :
    line = other ∧ rest = rest' := by
  have htaken {text : String} (htext : IsLine text) (after : List UInt8) :
      takeThrough 10 (lineBytes text ++ after) = lineBytes text := by
    rw [lineBytes_eq, List.append_assoc _ [10] after]
    exact takeThrough_append (not_mem_of_isLine htext) after
  have hbytes : lineBytes line = lineBytes other := by
    rw [← htaken hline rest, h, htaken hother rest']
  refine ⟨?_, List.append_cancel_left (hbytes ▸ h)⟩
  have htext := congrArg String.toList (bytes_inj hbytes)
  rw [String.toList_append, String.toList_append] at htext
  exact String.toList_inj.mp (List.append_cancel_right htext)

theorem fieldSection_inj {fields fields' : List String} {blank blank' : String}
    (h : Ends fields blank) (h' : Ends fields' blank') {rest rest' : List UInt8}
    (heq : fieldSection fields blank ++ rest = fieldSection fields' blank' ++ rest') :
    fields = fields' ∧ blank = blank' ∧ rest = rest' := by
  induction fields generalizing fields' with
  | nil =>
    cases fields' with
    | nil =>
      obtain ⟨rfl, rfl⟩ := lineBytes_inj h.line h'.line heq
      exact ⟨rfl, rfl, rfl⟩
    | cons line fields' =>
      obtain ⟨hline, hfull⟩ := h'.fields line List.mem_cons_self
      rw [fieldSection_cons, fieldSection_nil, List.append_assoc] at heq
      obtain ⟨rfl, -⟩ := lineBytes_inj h.line hline heq
      exact absurd h.blank hfull
  | cons line fields ih =>
    obtain ⟨hline, hfull⟩ := h.fields line List.mem_cons_self
    rw [fieldSection_cons, List.append_assoc] at heq
    cases fields' with
    | nil =>
      rw [fieldSection_nil] at heq
      obtain ⟨rfl, -⟩ := lineBytes_inj hline h'.line heq
      exact absurd h'.blank hfull
    | cons line' fields' =>
      rw [fieldSection_cons, List.append_assoc] at heq
      obtain ⟨rfl, hafter⟩ := lineBytes_inj hline (h'.fields line' List.mem_cons_self).1 heq
      have hrest : Ends fields blank :=
        ⟨fun other hmem ↦ h.fields other (List.mem_cons_of_mem _ hmem), h.line, h.blank⟩
      have hrest' : Ends fields' blank' :=
        ⟨fun other hmem ↦ h'.fields other (List.mem_cons_of_mem _ hmem), h'.line, h'.blank⟩
      obtain ⟨rfl, rfl, rfl⟩ := ih hrest hrest' hafter
      exact ⟨rfl, rfl, rfl⟩

/-- A stream begins with the lines of one head only. -/
theorem lines_unique {lines other : HeadLines} (hline : IsLine lines.request)
    (hends : Ends lines.fields lines.blank) (hline' : IsLine other.request)
    (hends' : Ends other.fields other.blank) {rest rest' : List UInt8}
    (heq : lines.raw ++ rest = other.raw ++ rest') : other = lines := by
  rw [HeadLines.raw, HeadLines.raw, List.append_assoc, List.append_assoc] at heq
  obtain ⟨hrequest, heq⟩ := lineBytes_inj hline hline' heq
  obtain ⟨hfields, hblank, -⟩ := fieldSection_inj hends hends' heq
  cases lines
  cases other
  dsimp only at hrequest hfields hblank
  rw [hrequest, hfields, hblank]

/-! ## What the parser lets through -/

/-- The line that ends a head is empty unless it holds more carriage returns. -/
theorem blank_iff {fields : List String} {blank : String} (h : Ends fields blank) :
    blank = "" ↔ '\r' ∉ blank.toList := by
  obtain ⟨back, hback, htext⟩ := exists_trimmedLine h.line
  rw [h.blank, List.nil_append] at htext
  constructor
  · rintro rfl
    exact List.not_mem_nil
  · intro hfree
    cases back with
    | nil => exact String.toList_inj.mp htext
    | cons c back =>
      rw [htext, hback c List.mem_cons_self] at hfree
      exact absurd List.mem_cons_self hfree

/-- An accepted head is one of the grammar if no slack is left in it and its length is digits. -/
theorem unambiguous_iff {lines : HeadLines} {head : Head} (hreads : lines.Reads head) :
    Unambiguous lines ↔ Plain IsDigits lines := by
  obtain ⟨pairs, hpairs, -⟩ := addHeaders_eq_some_iff.mp hreads.headers
  have hline {line : String} (hmem : line ∈ lines.fields) {k v : List Char}
      (hsplit : splitOnce [':'] line.toList = some (k, v)) :
      isToken (toAsciiLowercase (trim (String.ofList k))) = true := by
    obtain ⟨key, value, hfield, -⟩ := exists_headerField_of_mem hpairs hmem
    obtain ⟨k', v', hsplit', rfl, htoken, -⟩ :=
      exists_split_of_headerField (hreads.ends.fields line hmem).1 hfield
    rw [hsplit, Option.some.injEq, Prod.mk.injEq] at hsplit'
    rw [hsplit'.1]
    exact htoken
  constructor
  · rintro ⟨hfields, hblank⟩
    refine ⟨?_, ?_, (blank_iff hreads.ends).mp hblank⟩
    · intro line hmem k v hsplit
      exact ((fieldLine_iff hsplit (hline hmem hsplit)).mp (hfields line hmem)).1
    · intro line hmem k v hsplit
      exact ((fieldLine_iff hsplit (hline hmem hsplit)).mp (hfields line hmem)).2
  · rintro ⟨hname, hlength, hblank⟩
    refine ⟨?_, (blank_iff hreads.ends).mpr hblank⟩
    intro line hmem
    obtain ⟨key, value, hfield, -⟩ := exists_headerField_of_mem hpairs hmem
    obtain ⟨k, v, hsplit, -⟩ :=
      exists_split_of_headerField (hreads.ends.fields line hmem).1 hfield
    exact (fieldLine_iff hsplit (hline hmem hsplit)).mpr
      ⟨hname line hmem k v hsplit, hlength line hmem k v hsplit⟩

/-- No plus sign before the number. -/
def Unsigned (text : List Char) : Prop := text.head? ≠ some '+'

instance (text : List Char) : Decidable (Unsigned text) := inferInstanceAs (Decidable (_ ≠ _))

/-- What the integer parser accepts is digits unless it begins with a plus sign. -/
theorem isDigits_iff_unsigned {text : List Char} {length : ℕ} (h : parseUsize text = some length) :
    IsDigits text ↔ Unsigned text := by
  constructor
  · rintro ⟨-, hdigits⟩ hplus
    obtain ⟨rest, rfl⟩ := List.head?_eq_some_iff.mp hplus
    exact absurd (List.all_eq_true.mp hdigits '+' List.mem_cons_self) (by decide)
  · intro hunsigned
    have hsame : withoutPlus text = text := by
      unfold withoutPlus
      split
      · exact absurd rfl hunsigned
      · rfl
    unfold parseUsize at h
    rw [hsame] at h
    dsimp only at h
    split at h
    · cases h
    · rename_i hok
      rw [not_or, Bool.not_eq_true, Bool.not_eq_false'] at hok
      exact hok

/-- For the head of a request, whose body has been read, it comes down to the sign. -/
theorem plain_iff_of_request {lines : HeadLines} {head : Head} {body : List UInt8}
    (hreads : lines.Reads head) (hbody : IsBody head.headers body) :
    Plain IsDigits lines ↔ Plain Unsigned lines := by
  obtain ⟨pairs, hpairs, hnodup, -, hheaders⟩ := addHeaders_eq_some_iff.mp hreads.headers
  have hparsed {line : String} (hmem : line ∈ lines.fields) {k v : List Char}
      (hsplit : splitOnce [':'] line.toList = some (k, v))
      (hname : toAsciiLowercase (trim (String.ofList k)) = "content-length") :
      parseUsize (trimChars v) = some body.length := by
    obtain ⟨key, value, hfield, hpair⟩ := exists_headerField_of_mem hpairs hmem
    obtain ⟨k', v', hsplit', rfl, -, hvalue⟩ :=
      exists_split_of_headerField (hreads.ends.fields line hmem).1 hfield
    rw [hsplit, Option.some.injEq, Prod.mk.injEq] at hsplit'
    obtain ⟨rfl, rfl⟩ := hsplit'
    rw [← hvalue]
    refine hbody.declared value ?_
    rw [hheaders, get?_insertAll hnodup, ← hname]
    exact hpair
  constructor
  · rintro ⟨hname, hlength, hblank⟩
    refine ⟨hname, fun line hmem k v hsplit hkey ↦ ?_, hblank⟩
    obtain ⟨hows, hdigits⟩ := hlength line hmem k v hsplit hkey
    exact ⟨hows, (isDigits_iff_unsigned (hparsed hmem hsplit hkey)).mp hdigits⟩
  · rintro ⟨hname, hlength, hblank⟩
    refine ⟨hname, fun line hmem k v hsplit hkey ↦ ?_, hblank⟩
    obtain ⟨hows, hunsigned⟩ := hlength line hmem k v hsplit hkey
    exact ⟨hows, (isDigits_iff_unsigned (hparsed hmem hsplit hkey)).mpr hunsigned⟩

/-- An accepted stream begins with the lines of one head.  They are one of the grammar exactly if
no slack is left in them and, where the length is read, it has no sign; where it is not read, it has
to be digits as it stands. -/
theorem framing_unambiguous_iff {stream rest : List UInt8} {head : Head}
    (h : parseHead stream = .ok (head, rest)) :
    ∃ lines : HeadLines, lines.Reads head ∧ stream = lines.raw ++ rest ∧
      (∀ (other : HeadLines) head' rest', other.Reads head' → stream = other.raw ++ rest' →
        other = lines) ∧
      (Unambiguous lines ↔ Plain IsDigits lines) ∧
      ∀ field request after, parseIncoming field stream = .ok (.request request, after) →
        (Unambiguous lines ↔ Plain Unsigned lines) := by
  obtain ⟨lines, hreads, rfl⟩ := parseHead_eq_ok_iff.mp h
  refine ⟨lines, hreads, rfl, fun other head' rest' hother heq ↦
    lines_unique hreads.line hreads.ends hother.line hother.ends heq, unambiguous_iff hreads, ?_⟩
  intro field request after hrequest
  obtain ⟨consumed, hconsumes, hstream⟩ := parseIncoming_eq_ok_iff.mp hrequest
  cases hconsumes with
  | @request lines' head' path query body hreads' _ _ _ _ hbody =>
    rw [List.append_assoc] at hstream
    obtain rfl := lines_unique hreads.line hreads.ends hreads'.line hreads'.ends hstream
    exact (unambiguous_iff hreads').trans (plain_iff_of_request hreads' hbody)

/-- A stream that is accepted, with a head that passes a check. -/
theorem exists_parseHead {stream : List UInt8} {check : Head → Bool}
    (h : ((parseHead stream).toOption.any fun accepted ↦ check accepted.1) = true) :
    ∃ head rest, parseHead stream = .ok (head, rest) ∧ check head = true := by
  cases hparse : parseHead stream with
  | error e =>
    rw [hparse] at h
    cases h
  | ok accepted =>
    rw [hparse] at h
    exact ⟨accepted.1, accepted.2, rfl, h⟩

/-- A head without slack, and two bytes of a body. -/
def plainLines : HeadLines := ⟨"POST /api HTTP/1.1", ["Host: x", "Content-Length: 2"], ""⟩

theorem framing_unambiguous_plain :
    ∃ head rest, parseHead (plainLines.raw ++ [104, 105]) = .ok (head, rest) ∧
      ∃ lines : HeadLines, lines.Reads head ∧ plainLines.raw ++ [104, 105] = lines.raw ++ rest ∧
        (Unambiguous lines ↔ Plain IsDigits lines) := by
  obtain ⟨head, rest, h, -⟩ :=
    @exists_parseHead (plainLines.raw ++ [104, 105]) (fun _ ↦ true) (by decide)
  obtain ⟨lines, hreads, hstream, -, hiff, -⟩ := framing_unambiguous_iff h
  exact ⟨head, rest, h, lines, hreads, hstream, hiff⟩

/-- Space before a colon, a sign before a length, and a carriage return in the last line. -/
def slackLines : HeadLines :=
  ⟨"POST /api HTTP/1.1", ["Host : x", "Content-Length: +2"], "\r"⟩

theorem reads_slackLines :
    slackLines.Reads ⟨"POST", "/api", "HTTP/1.1",
      insertAll .empty [("host", "x"), ("content-length", "+2")]⟩ where
  line := by decide
  request := by decide
  ends := ⟨by decide, by decide, by decide⟩
  headers := addHeaders_eq_some_iff.mpr
    ⟨[("host", "x"), ("content-length", "+2")], by decide, by decide, fun _ _ ↦ rfl, rfl⟩
  host := fun _ ↦ by decide
  budget := by decide

theorem isBody_slackLines :
    IsBody (insertAll .empty [("host", "x"), ("content-length", "+2")]) [104, 105] where
  declared := by
    intro text htext
    have hlength : (insertAll .empty [("host", "x"), ("content-length", "+2")]).get?
        "content-length" = some "+2" := by decide
    rw [hlength] at htext
    cases htext
    decide
  absent := fun hnone ↦ absurd hnone (by decide)
  small := by decide

/-- They are accepted as the head of a request with a body of two bytes, and are no head of the
grammar. -/
theorem not_unambiguous_slack :
    (∃ request, parseIncoming false (slackLines.raw ++ [104, 105]) = .ok (.request request, [])) ∧
      (∃ head, slackLines.Reads head) ∧ ¬ Unambiguous slackLines := by
  refine ⟨?_, ⟨_, reads_slackLines⟩, ?_⟩
  · have hsplits : (splitTarget "/api").isSome = true := by decide
    obtain ⟨⟨path, query⟩, hsplit⟩ := Option.isSome_iff_exists.mp hsplits
    have hconsumes := @Consumes.request false _ _ _ _ _ reads_slackLines rfl (by decide)
      (by decide) hsplit isBody_slackLines
    exact ⟨_, parseIncoming_eq_ok_iff.mpr ⟨_, hconsumes, (List.append_nil _).symm⟩⟩
  · intro hgrammar
    have hline := hgrammar.fields "Host : x" (by decide)
    have hpadded := (@fieldLine_iff "Host : x" "Host ".toList " x".toList (by decide)
      (by decide)).mp hline
    exact absurd hpadded.1 (by decide)

end Cameo.Http
