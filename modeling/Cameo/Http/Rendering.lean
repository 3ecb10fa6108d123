import Cameo.Http.Framing

/-!
# Heads written back

A head is written as its request line, its headers in the order of their names and an empty line.
Whatever `parse_head` accepts can be written this way: no name and no value of an accepted header
breaks a line, and reading it back gives the head again.
-/

namespace Cameo.Http

open Library

/-! ## Writing -/

def headerLine (header : String × String) : String := header.1 ++ ": " ++ header.2

def Head.line (head : Head) : String :=
  head.method ++ " " ++ head.target ++ " " ++ head.version

/-- A head as `field_request_head` writes it. -/
def Head.render (head : Head) : String :=
  head.line ++ "\r\n" ++
    String.join (head.headers.entries.map fun header ↦ headerLine header ++ "\r\n") ++ "\r\n"

/-- The characters of a header value: no control characters but tabs. -/
def isValueChar (c : Char) : Bool := !(c.toNat < 0x20 && c ≠ '\t')

/-- A header as it is kept: a token in lower case, and a trimmed value. -/
structure CleanHeader (name value : String) : Prop where
  token : isToken name = true
  lower : toAsciiLowercase name = name
  trimmed : trim value = value
  value : ∀ c ∈ value.toList, isValueChar c = true

theorem cleanHeader_of_all {name value : String} (htoken : isToken name = true)
    (hlower : toAsciiLowercase name = name) (htrimmed : trim value = value)
    (hvalue : value.toList.all isValueChar = true) : CleanHeader name value :=
  ⟨htoken, hlower, htrimmed, List.all_eq_true.mp hvalue⟩

/-- A head that can be written and read back. -/
structure Head.Readable (head : Head) : Prop where
  method : isToken head.method = true
  target : targetOk head.target = true
  unbroken : ∀ c ∈ head.target.toList, isWhitespace c = false
  version : head.version = "HTTP/1.0" ∨ head.version = "HTTP/1.1"
  host : head.version = "HTTP/1.1" → (head.headers.get? "host").isSome = true
  headers : ∀ name value, head.headers.get? name = some value → CleanHeader name value

/-! ## Accepted heads -/

theorem requestLine_eq_some {line method target version : String}
    (h : requestLine line = some (method, target, version)) :
    isToken method = true ∧ targetOk target = true ∧
      (∀ c ∈ target.toList, isWhitespace c = false) ∧
      (version = "HTTP/1.0" ∨ version = "HTTP/1.1") := by
  unfold requestLine at h
  split at h
  · rename_i m t v hsplit
    dsimp only at h
    split at h
    · rename_i hok
      rw [Option.some.injEq, Prod.mk.injEq, Prod.mk.injEq] at h
      obtain ⟨rfl, rfl, rfl⟩ := h
      have hmem : t ∈ splitWhitespace line.toList := by simp [hsplit]
      refine ⟨hok.2.1, hok.2.2, ?_, hok.1⟩
      rw [String.toList_ofList]
      exact (of_mem_splitWhitespace hmem).2
    · cases h
  · cases h

theorem cleanHeader_of_headerField {trimmed : List Char} {name value : String}
    (h : headerField trimmed = some (name, value)) : CleanHeader name value := by
  have hlower := lowercase_of_headerField h
  rw [headerField, Option.bind_eq_some_iff] at h
  obtain ⟨⟨k, v⟩, -, h⟩ := h
  dsimp only at h
  split at h
  · cases h
  · rename_i hok
    rw [Option.some.injEq, Prod.mk.injEq] at h
    obtain ⟨rfl, rfl⟩ := h
    rw [not_or, Bool.not_eq_true, Bool.not_eq_false', Bool.not_eq_true, List.any_eq_false] at hok
    refine ⟨hok.1, hlower, trim_trim _, fun c hc ↦ ?_⟩
    rw [isValueChar, Bool.not_eq_true']
    exact Bool.eq_false_iff.mpr (hok.2 c hc)

theorem cleanHeader_of_mem {fields : List String} {pairs : List (String × String)}
    (h : headerFields fields = some pairs) : ∀ pair ∈ pairs, CleanHeader pair.1 pair.2 := by
  induction fields generalizing pairs with
  | nil =>
    cases h
    exact nofun
  | cons line fields ih =>
    rw [headerFields_cons, Option.bind_eq_some_iff] at h
    obtain ⟨first, hfirst, h⟩ := h
    obtain ⟨rest, hrest, rfl⟩ := Option.map_eq_some_iff.mp h
    exact List.forall_mem_cons.mpr ⟨cleanHeader_of_headerField hfirst, ih hrest⟩

/-- An accepted head can be written and read back. -/
theorem readable_of_parseHead {stream rest : List UInt8} {head : Head}
    (h : parseHead stream = .ok (head, rest)) : head.Readable := by
  obtain ⟨lines, hreads, rfl⟩ := parseHead_eq_ok_iff.mp h
  obtain ⟨hmethod, htarget, hunbroken, hversion⟩ := requestLine_eq_some hreads.request
  obtain ⟨pairs, hpairs, hnodup, -, hheaders⟩ := addHeaders_eq_some_iff.mp hreads.headers
  refine ⟨hmethod, htarget, hunbroken, hversion, hreads.host, ?_⟩
  intro name value hget
  rw [hheaders, get?_insertAll hnodup] at hget
  exact cleanHeader_of_mem hpairs (name, value) hget

/-! ## Reading back -/

theorem isToken_iff {text : String} :
    isToken text = true ↔ text.toList ≠ [] ∧ ∀ c ∈ text.toList, isTokenChar c = true := by
  rw [isToken, Bool.and_eq_true, decide_eq_true_eq, List.all_eq_true, Ne, Ne,
    String.toList_eq_nil_iff]

/-- The request line of a readable head is read back. -/
theorem requestLine_line {head : Head} (h : head.Readable) :
    requestLine (head.line ++ "\r\n") = some (head.method, head.target, head.version) := by
  obtain ⟨hne, hmethod⟩ := isToken_iff.mp h.method
  have htarget : head.target.toList ≠ [] := by
    have hok := h.target
    rw [targetOk, Bool.and_eq_true, Bool.and_eq_true, decide_eq_true_eq] at hok
    intro hnil
    rw [hnil] at hok
    cases hok.1.1
  have hversion : head.version.toList ≠ [] ∧
      (head.version.toList.all fun c ↦ !isWhitespace c) = true := by
    rcases h.version with hversion | hversion
    · rw [hversion]
      decide
    · rw [hversion]
      decide
  have hunbroken : ∀ c ∈ head.version.toList, isWhitespace c = false := fun c hc ↦
    (Bool.not_eq_true' _).mp (List.all_eq_true.mp hversion.2 c hc)
  have htext : (head.line ++ "\r\n").toList = head.method.toList ++ ' ' ::
      (head.target.toList ++ ' ' :: (head.version.toList ++ '\r' :: ['\n'])) := by
    simp [Head.line]
  have hsplit : splitWhitespace (head.line ++ "\r\n").toList =
      [head.method.toList, head.target.toList, head.version.toList] := by
    have htoken : ∀ c ∈ head.method.toList, isWhitespace c = false :=
      fun c hc ↦ (ne_of_isTokenChar (hmethod c hc)).1
    rw [htext, splitWhitespace_cons hne htoken (by decide),
      splitWhitespace_cons htarget h.unbroken (by decide),
      splitWhitespace_cons hversion.1 hunbroken (by decide)]
    rfl
  rw [requestLine, hsplit]
  dsimp only
  rw [String.ofList_toList, String.ofList_toList, String.ofList_toList,
    if_pos ⟨h.version, h.method, h.target⟩]

/-- A character of a header value is not a carriage return and no line feed. -/
theorem ne_of_isValueChar {c : Char} (h : isValueChar c = true) : c ≠ '\r' ∧ c ≠ '\n' := by
  constructor
  · rintro rfl
    exact absurd h (by decide)
  · rintro rfl
    exact absurd h (by decide)

theorem ne_of_not_isWhitespace {c : Char} (h : isWhitespace c = false) : c ≠ '\r' ∧ c ≠ '\n' := by
  constructor
  · rintro rfl
    exact absurd h (by decide)
  · rintro rfl
    exact absurd h (by decide)

/-- A line without carriage returns and line feeds is looked at as it is. -/
theorem trimmedLine_of_forall {line : String} (h : ∀ c ∈ line.toList, c ≠ '\r' ∧ c ≠ '\n') :
    IsLine line ∧ trimmedLine line = line.toList := by
  have hline : IsLine line := fun hmem ↦ (h _ hmem).2 rfl
  refine ⟨hline, ?_⟩
  obtain ⟨back, hback, htext⟩ := exists_trimmedLine hline
  cases back with
  | nil => rw [htext, List.append_nil]
  | cons c back =>
    have hmem : c ∈ line.toList := htext ▸ List.mem_append_right _ List.mem_cons_self
    exact absurd (hback c List.mem_cons_self) (h c hmem).1

theorem headerLine_toList (name value : String) :
    (headerLine (name, value)).toList = name.toList ++ ':' :: ' ' :: value.toList := by
  simp [headerLine]

theorem splitOnce_headerLine {name : String} (h : ∀ c ∈ name.toList, isTokenChar c = true)
    (value : String) : splitOnce [':'] (headerLine (name, value)).toList =
      some (name.toList, ' ' :: value.toList) := by
  rw [splitOnce_eq_some_iff, headerLine_toList]
  exact ⟨rfl, fun hmem ↦ (ne_of_isTokenChar (h _ hmem)).2 rfl⟩

theorem trim_of_unbroken {text : String} (h : ∀ c ∈ text.toList, isWhitespace c = false) :
    trim text = text := by
  rw [trim, unpadded_iff.mp (unpadded_of_forall h), String.ofList_toList]

/-- The blank after the colon is trimmed with the rest. -/
theorem trim_blank (value : String) : trim (String.ofList (' ' :: value.toList)) = trim value := by
  have hblank : trimBy isWhitespace ([' '] ++ value.toList) = trimBy isWhitespace value.toList :=
    trimBy_append_left (List.forall_mem_singleton.mpr (by decide)) _
  rw [trim, trim, String.toList_ofList, trimChars_eq_trimBy, trimChars_eq_trimBy]
  exact congrArg String.ofList hblank

theorem any_control_eq_false {value : String} (h : ∀ c ∈ value.toList, isValueChar c = true) :
    (value.toList.any fun c ↦ c.toNat < 0x20 && c ≠ '\t') = false := by
  rw [List.any_eq_false]
  intro c hc hcontrol
  have hok := h c hc
  rw [isValueChar, hcontrol] at hok
  cases hok

theorem trim_of_isToken {name : String} (h : isToken name = true) : trim name = name :=
  trim_of_unbroken fun c hc ↦ (ne_of_isTokenChar ((isToken_iff.mp h).2 c hc)).1

/-- A header that is written is read back, with its name in lower case. -/
theorem headerField_headerLine {name value : String}
    (h : CleanHeader (toAsciiLowercase name) value) :
    headerField (headerLine (name, value)).toList = some (toAsciiLowercase name, value) := by
  have htoken := isToken_of_toAsciiLowercase h.token
  rw [headerField, splitOnce_headerLine (isToken_iff.mp htoken).2, Option.bind_some]
  dsimp only
  rw [String.ofList_toList, trim_blank, trim_of_isToken htoken, h.trimmed, if_neg]
  rintro (hbad | hbad)
  · rw [h.token] at hbad
    cases hbad
  · rw [any_control_eq_false h.value] at hbad
    cases hbad

/-- A header line of a token and a value breaks no line and is not empty. -/
theorem trimmedLine_token {name value : String} (hname : ∀ c ∈ name.toList, isTokenChar c = true)
    (hvalue : ∀ c ∈ value.toList, isValueChar c = true) :
    IsLine (headerLine (name, value)) ∧
      trimmedLine (headerLine (name, value)) = (headerLine (name, value)).toList := by
  refine trimmedLine_of_forall fun c hc ↦ ?_
  rw [headerLine_toList, List.mem_append, List.mem_cons, List.mem_cons] at hc
  rcases hc with htoken | rfl | rfl | htext
  · exact ne_of_not_isWhitespace (ne_of_isTokenChar (hname c htoken)).1
  · decide
  · decide
  · exact ne_of_isValueChar (hvalue c htext)

theorem trimmedLine_headerLine {name value : String} (h : CleanHeader name value) :
    IsLine (headerLine (name, value)) ∧
      trimmedLine (headerLine (name, value)) = (headerLine (name, value)).toList :=
  trimmedLine_token (isToken_iff.mp h.token).2 h.value

theorem not_isWhitespace_of_mem_decimal {n : ℕ} {c : Char} (h : c ∈ (toString n).toList) :
    isWhitespace c = false := by
  have hcode : 48 ≤ c.toNat ∧ c.toNat ≤ 57 := Char.isDigit_iff_toNat.mp (isDigit_of_mem_decimal h)
  simp only [isWhitespace, decide_eq_false_iff_not]
  omega

theorem isValueChar_of_mem_decimal {n : ℕ} {c : Char} (h : c ∈ (toString n).toList) :
    isValueChar c = true := by
  have hcode : 48 ≤ c.toNat := (Char.isDigit_iff_toNat.mp (isDigit_of_mem_decimal h)).1
  have hcontrol : ¬ c.toNat < 0x20 := by omega
  simp [isValueChar, hcontrol]

theorem trim_decimal (n : ℕ) : trim (toString n) = toString n :=
  trim_of_unbroken fun _ hc ↦ not_isWhitespace_of_mem_decimal hc

def Head.lines (head : Head) : HeadLines := ⟨head.line, head.headers.entries.map headerLine, ""⟩

theorem bytes_join (texts : List String) : bytes (String.join texts) = texts.flatMap bytes := by
  have hfold (front : String) :
      bytes (texts.foldl (· ++ ·) front) = bytes front ++ texts.flatMap bytes := by
    induction texts generalizing front with
    | nil => exact (List.append_nil _).symm
    | cons text texts ih =>
      rw [List.foldl_cons, ih, bytes_append, List.flatMap_cons, List.append_assoc]
  exact hfold ""

theorem bytes_render (head : Head) : bytes head.render = head.lines.raw := by
  rw [Head.render, bytes_append, bytes_append, bytes_append, bytes_join, List.flatMap_map,
    HeadLines.raw, fieldSection, lineBytes, bytes_append, Head.lines, List.flatMap_map,
    List.append_assoc]
  rfl

theorem headerFields_map {pairs : List (String × String)}
    (h : ∀ pair ∈ pairs, CleanHeader pair.1 pair.2) :
    headerFields (pairs.map headerLine) = some pairs := by
  induction pairs with
  | nil => rfl
  | cons pair pairs ih =>
    obtain ⟨hpair, hrest⟩ := List.forall_mem_cons.mp h
    have hclean : CleanHeader (toAsciiLowercase pair.1) pair.2 := by rwa [hpair.lower]
    have hfield := headerField_headerLine hclean
    rw [hpair.lower] at hfield
    rw [List.map_cons, headerFields_cons, (trimmedLine_headerLine hpair).2, hfield,
      Option.bind_some, ih hrest]
    rfl

theorem insertAll_entries (headers : Ordered.Map String String) :
    insertAll .empty headers.entries = headers := by
  apply Ordered.Map.ext_get?
  intro name
  refine Option.ext fun value ↦ ?_
  rw [get?_insertAll headers.nodup_keys, headers.mem_entries_iff]

theorem isLine_line {head : Head} (h : head.Readable) : IsLine head.line := by
  obtain ⟨-, hmethod⟩ := isToken_iff.mp h.method
  have hversion : '\n' ∉ head.version.toList := by
    rcases h.version with hversion | hversion
    · rw [hversion]
      decide
    · rw [hversion]
      decide
  rw [IsLine, Head.line]
  simp only [String.toList_append, List.mem_append, not_or]
  refine ⟨⟨⟨⟨fun hmem ↦ ?_, by decide⟩, fun hmem ↦ ?_⟩, by decide⟩, hversion⟩
  · exact (ne_of_not_isWhitespace (ne_of_isTokenChar (hmethod _ hmem)).1).2 rfl
  · exact (ne_of_not_isWhitespace (h.unbroken _ hmem)).2 rfl

theorem cleanHeader_of_mem_entries {head : Head} (h : head.Readable) :
    ∀ pair ∈ head.headers.entries, CleanHeader pair.1 pair.2 := fun pair hmem ↦
  h.headers pair.1 pair.2 ((head.headers.mem_entries_iff _ _).mp hmem)

/-- The lines of a readable head end with their first empty line. -/
theorem ends_lines {head : Head} (h : head.Readable) : Ends head.lines.fields head.lines.blank := by
  refine ⟨?_, show IsLine "" by decide, show trimmedLine "" = [] by decide⟩
  intro line hmem
  obtain ⟨pair, hpair, rfl⟩ := List.mem_map.mp hmem
  obtain ⟨hline, htrimmed⟩ := trimmedLine_headerLine (cleanHeader_of_mem_entries h pair hpair)
  refine ⟨hline, ?_⟩
  rw [htrimmed, headerLine_toList]
  simp

/-- A readable head that is written within the budget is read back. -/
theorem parseHead_render {head : Head} (h : head.Readable)
    (hbudget : (bytes head.render).length ≤ maxHead) (rest : List UInt8) :
    parseHead (bytes head.render ++ rest) = .ok (head, rest) := by
  rw [bytes_render] at hbudget ⊢
  refine parseHead_eq_ok_iff.mpr ⟨head.lines, ?_, rfl⟩
  refine ⟨isLine_line h, requestLine_line h, ends_lines h, ?_, h.host, hbudget⟩
  exact addHeaders_eq_some_iff.mpr ⟨head.headers.entries,
    headerFields_map (cleanHeader_of_mem_entries h), head.headers.nodup_keys, fun _ _ ↦ rfl,
    (insertAll_entries _).symm⟩

/-- One that is not within the budget is not read at all. -/
theorem render_length_le_of_parseHead {head : Head} (h : head.Readable) {rest after : List UInt8}
    {other : Head} (hparse : parseHead (bytes head.render ++ rest) = .ok (other, after)) :
    (bytes head.render).length ≤ maxHead := by
  obtain ⟨lines, hreads, hstream⟩ := parseHead_eq_ok_iff.mp hparse
  rw [bytes_render] at hstream ⊢
  have hlines : lines = head.lines := @lines_unique head.lines lines (isLine_line h)
    (ends_lines h) hreads.line hreads.ends _ _ hstream
  rw [← hlines]
  exact hreads.budget

end Cameo.Http
