import Mathlib.Data.String.Basic
import Cameo.Bytes
import Cameo.Library.Fallible
import Cameo.Library.Lines
import Cameo.Library.Ordered

/-!
# Request heads

`parse_head` reads the request line and the header lines through a byte budget, up to and including
the line that it takes for the empty one.  It accepts exactly the streams that begin with such a
head within the budget, and leaves the rest of them unread.
-/

namespace Cameo.Http

open Library

/-! ## Reading lines -/

/-- The kinds of errors that reading a byte stream ends in. -/
inductive ErrorKind where
  | unexpectedEof
  | invalidData
deriving DecidableEq

/-- `ParseError`. -/
inductive ParseError where
  | empty
  | malformed
  | tooLarge
  | io (kind : ErrorKind)
deriving DecidableEq

/-- `MAX_HEAD`. -/
def maxHead : ℕ := 32 * 1024

/-- A reader with a byte budget: what the inner reader still holds, and how much may be read. -/
structure Take where
  inner : List UInt8
  limit : ℕ

namespace Take

/-- `head.read_line`: the next line with its line feed, or what there is of it; nothing at the end
of the stream or of the budget. -/
def readLine (head : Take) : Except ParseError (String × Take) :=
  let line := takeThrough 10 (head.inner.take head.limit)
  match fromUtf8 line with
  | none => .error (.io .invalidData)
  | some text => .ok (text, ⟨head.inner.drop line.length, head.limit - line.length⟩)

/-- What a head that breaks off is rejected with. -/
def stopped (head : Take) : ParseError := if head.limit = 0 then .tooLarge else .malformed

end Take

/-! ## Heads -/

/-- `Head`. -/
structure Head where
  method : String
  target : String
  version : String
  headers : Ordered.Map String String

/-- The characters of a token.  The bytes of a character beyond ASCII are none of them. -/
def isTokenChar (c : Char) : Bool := c.isAlphanum || c ∈ "!#$%&'*+-.^_`|~".toList

def isToken (text : String) : Bool := text ≠ "" && text.toList.all isTokenChar

/-- Whether a request target is one that `parse_head` lets through. -/
def targetOk (target : String) : Bool :=
  target.toList.head? = some '/' && '#' ∉ target.toList &&
    target.toList.all fun c ↦ 0x21 ≤ c.toNat && c.toNat ≠ 0x7f

def requestLine (line : String) : Option (String × String × String) :=
  match splitWhitespace line.toList with
  | [method, target, version] =>
    let (method, target, version) :=
      (String.ofList method, String.ofList target, String.ofList version)
    if (version = "HTTP/1.0" ∨ version = "HTTP/1.1") ∧ isToken method ∧ targetOk target then
      some (method, target, version)
    else none
  | _ => none

/-- `h.trim_end_matches(['\r', '\n'])`. -/
def trimLineEnd (line : String) : List Char :=
  (line.toList.reverse.dropWhile fun c ↦ c = '\r' ∨ c = '\n').reverse

/-- The name, in lower case, and the value of a header line. -/
def headerField (trimmed : List Char) : Option (String × String) :=
  (splitOnce [':'] trimmed).bind fun (k, v) ↦
    let key := toAsciiLowercase (trim (String.ofList k))
    let value := trim (String.ofList v)
    if !isToken key ∨ value.toList.any (fun c ↦ c.toNat < 0x20 && c ≠ '\t') then none
    else some (key, value)

/-- Take a header in, unless it repeats one. -/
def addHeader (headers : Ordered.Map String String) (trimmed : List Char) :
    Option (Ordered.Map String String) :=
  (headerField trimmed).bind fun (key, value) ↦
    if (headers.get? key).isSome then none else some (headers.insert key value)

/-- The loop over the header lines.  Every line takes a byte of the budget at least, so the budget
is enough fuel. -/
def readHeaders : ℕ → Take → Ordered.Map String String →
    Except ParseError (Ordered.Map String String × Take)
  | 0, _, _ => .error .malformed
  | fuel + 1, head, headers => do
    let (h, head) ← head.readLine
    -- At the end of the stream or of the budget the head is not complete.
    match stripSuffix "\r\n" h with
    | none => .error head.stopped
    | some _ =>
      let trimmed := trimLineEnd h
      if trimmed = [] then .ok (headers, head)
      else
        match addHeader headers trimmed with
        | none => .error .malformed
        | some headers => readHeaders fuel head headers

/-- `parse_head`, with what it leaves of the stream. -/
def parseHead (stream : List UInt8) : Except ParseError (Head × List UInt8) := do
  let (line, head) ← Take.readLine ⟨stream, maxHead⟩
  if line = "" then .error .empty
  else
    match stripSuffix "\r\n" line with
    | none => .error head.stopped
    | some _ =>
      match requestLine line with
      | none => .error .malformed
      | some (method, target, version) =>
        let (headers, head) ← readHeaders (head.limit + 1) head .empty
        if version = "HTTP/1.1" ∧ (headers.get? "host").isNone then .error .malformed
        else .ok (⟨method, target, version, headers⟩, head.inner)

/-! ## Lines -/

def lineBytes (line : String) : List UInt8 := bytes (line ++ "\r\n")

def IsLine (line : String) : Prop := '\n' ∉ line.toList

instance (line : String) : Decidable (IsLine line) := inferInstanceAs (Decidable (_ ∉ _))

theorem lineBytes_eq (line : String) : lineBytes line = (bytes line ++ [13]) ++ [10] := by
  rw [lineBytes, bytes_append, List.append_assoc]
  rfl

theorem not_mem_of_isLine {line : String} (h : IsLine line) :
    (10 : UInt8) ∉ bytes line ++ [13] := by
  rw [List.mem_append, mem_bytes_iff (by decide)]
  rintro (⟨c, hc, hcode⟩ | hcr)
  · have heq : c = '\n' := Char.toNat_inj.mp hcode
    exact h (heq ▸ hc)
  · exact absurd hcr (by decide)

/-- A line within the budget is read. -/
theorem readLine_of_isLine {line : String} (h : IsLine line) {limit : ℕ}
    (hlimit : (lineBytes line).length ≤ limit) (rest : List UInt8) :
    Take.readLine ⟨lineBytes line ++ rest, limit⟩ =
      .ok (line ++ "\r\n", ⟨rest, limit - (lineBytes line).length⟩) := by
  have htaken : takeThrough 10 ((lineBytes line ++ rest).take limit) = lineBytes line := by
    rw [lineBytes_eq, List.append_assoc _ [10] rest]
    refine takeThrough_take (not_mem_of_isLine h) ?_ rest
    rw [lineBytes_eq, List.length_append, List.length_singleton] at hlimit
    exact hlimit
  unfold Take.readLine
  dsimp only
  rw [htaken, lineBytes, fromUtf8_bytes]
  dsimp only
  rw [List.drop_left]

theorem append_of_stripSuffix {trail text front : String}
    (h : stripSuffix trail text = some front) : text = front ++ trail := by
  unfold stripSuffix at h
  split at h
  · rename_i hsuffix
    obtain ⟨lead, hlead⟩ := List.isSuffixOf_iff_suffix.mp hsuffix
    cases h
    rw [← hlead, List.length_append, Nat.add_sub_cancel, List.take_left, ← String.toList_inj,
      String.toList_append, String.toList_ofList, hlead]
  · cases h

theorem stripSuffix_append (front trail : String) :
    stripSuffix trail (front ++ trail) = some front := by
  rw [stripSuffix, String.toList_append, if_pos (List.isSuffixOf_iff_suffix.mpr
    (List.suffix_append _ _)), List.length_append, Nat.add_sub_cancel, List.take_left,
    String.ofList_toList]

/-- What is read as a line was one, and stood within the budget. -/
theorem isLine_of_readLine {head after : Take} {text line : String}
    (h : head.readLine = .ok (text, after)) (hline : stripSuffix "\r\n" text = some line) :
    text = line ++ "\r\n" ∧ IsLine line ∧ head.inner = lineBytes line ++ after.inner ∧
      head.limit = (lineBytes line).length + after.limit := by
  have htext := append_of_stripSuffix hline
  unfold Take.readLine at h
  dsimp only at h
  split at h
  · cases h
  · rename_i decoded hdecoded
    cases h
    have htaken : takeThrough 10 (head.inner.take head.limit) = lineBytes line := by
      rw [lineBytes, ← htext]
      exact (bytes_of_fromUtf8 hdecoded).symm
    have hprefix : takeThrough 10 (head.inner.take head.limit) <+: head.inner.take head.limit :=
      takeThrough_prefix _
    rw [htaken] at hprefix
    dsimp only
    rw [htaken]
    refine ⟨htext, ?_, ?_, ?_⟩
    · have hfree := exists_line_of_takeThrough (htaken.trans (lineBytes_eq line))
      intro hmem
      refine hfree (List.mem_append_left _ ?_)
      exact (mem_bytes_iff (by decide) line).mpr ⟨'\n', hmem, rfl⟩
    · obtain ⟨rest, hrest⟩ := hprefix.trans (List.take_prefix _ _)
      rw [← hrest, List.drop_left]
    · have hle := hprefix.length_le
      rw [List.length_take] at hle
      omega

/-! ## What is accepted -/

/-- The lines of a head, without their ends: the request line, the header lines, and the line that
is taken for the empty one. -/
structure HeadLines where
  request : String
  fields : List String
  blank : String

def trimmedLine (line : String) : List Char := trimLineEnd (line ++ "\r\n")

def fieldSection (fields : List String) (blank : String) : List UInt8 :=
  fields.flatMap lineBytes ++ lineBytes blank

namespace HeadLines

def raw (lines : HeadLines) : List UInt8 :=
  lineBytes lines.request ++ fieldSection lines.fields lines.blank

end HeadLines

/-- The first line that is taken for the empty one ends the header section. -/
structure Ends (fields : List String) (blank : String) : Prop where
  fields : ∀ line ∈ fields, IsLine line ∧ trimmedLine line ≠ []
  line : IsLine blank
  blank : trimmedLine blank = []

def addHeaders (headers : Ordered.Map String String) (fields : List String) :
    Option (Ordered.Map String String) :=
  fields.foldlM (fun headers line ↦ addHeader headers (trimmedLine line)) headers

theorem addHeaders_cons (headers : Ordered.Map String String) (line : String)
    (fields : List String) :
    addHeaders headers (line :: fields) =
      (addHeader headers (trimmedLine line)).bind (addHeaders · fields) := rfl

theorem fieldSection_cons (line : String) (fields : List String) (blank : String) :
    fieldSection (line :: fields) blank = lineBytes line ++ fieldSection fields blank := by
  rw [fieldSection, List.flatMap_cons, List.append_assoc]
  rfl

theorem fieldSection_nil (blank : String) : fieldSection [] blank = lineBytes blank := rfl

theorem lineBytes_length_pos (line : String) : 0 < (lineBytes line).length := by
  rw [lineBytes_eq, List.length_append, List.length_singleton]
  exact Nat.succ_pos _

/-- A round of the header loop. -/
theorem readHeaders_of_isLine {line : String} (hline : IsLine line) {limit : ℕ}
    (hlimit : (lineBytes line).length ≤ limit) (rest : List UInt8) (fuel : ℕ)
    (headers : Ordered.Map String String) :
    readHeaders (fuel + 1) ⟨lineBytes line ++ rest, limit⟩ headers =
      if trimmedLine line = [] then .ok (headers, ⟨rest, limit - (lineBytes line).length⟩)
      else
        match addHeader headers (trimmedLine line) with
        | none => .error .malformed
        | some headers => readHeaders fuel ⟨rest, limit - (lineBytes line).length⟩ headers := by
  rw [readHeaders, readLine_of_isLine hline hlimit]
  dsimp only [bind, Except.bind]
  rw [stripSuffix_append]
  rfl

/-- The header loop accepts a header section within the budget. -/
theorem readHeaders_of_ends {fields : List String} {blank : String} (hends : Ends fields blank)
    {limit fuel : ℕ} (hlimit : (fieldSection fields blank).length ≤ limit) (hfuel : limit < fuel)
    {headers result : Ordered.Map String String} (hadd : addHeaders headers fields = some result)
    (rest : List UInt8) :
    readHeaders fuel ⟨fieldSection fields blank ++ rest, limit⟩ headers =
      .ok (result, ⟨rest, limit - (fieldSection fields blank).length⟩) := by
  obtain ⟨fuel, rfl⟩ := Nat.exists_eq_succ_of_ne_zero (Nat.ne_zero_of_lt hfuel)
  induction fields generalizing limit fuel headers with
  | nil =>
    cases hadd
    rw [fieldSection_nil] at hlimit ⊢
    rw [readHeaders_of_isLine hends.line hlimit, if_pos hends.blank]
  | cons line fields ih =>
    obtain ⟨hline, hfull⟩ := hends.fields line List.mem_cons_self
    rw [addHeaders_cons, Option.bind_eq_some_iff] at hadd
    obtain ⟨more, hmore, hadd⟩ := hadd
    have hpos := lineBytes_length_pos line
    rw [fieldSection_cons, List.length_append] at hlimit ⊢
    rw [List.append_assoc, readHeaders_of_isLine hline (by omega), if_neg hfull, hmore]
    dsimp only
    obtain ⟨fuel, rfl⟩ := Nat.exists_eq_succ_of_ne_zero (show fuel ≠ 0 by omega)
    have hrest : Ends fields blank :=
      ⟨fun line hmem ↦ hends.fields line (List.mem_cons_of_mem _ hmem), hends.line, hends.blank⟩
    rw [ih hrest (by omega) hadd fuel (by omega), Nat.sub_sub]

/-- What the header loop accepts is a header section within the budget. -/
theorem ends_of_readHeaders {fuel : ℕ} {head after : Take}
    {headers result : Ordered.Map String String}
    (h : readHeaders fuel head headers = .ok (result, after)) :
    ∃ fields blank, Ends fields blank ∧ addHeaders headers fields = some result ∧
      head.inner = fieldSection fields blank ++ after.inner ∧
      head.limit = (fieldSection fields blank).length + after.limit := by
  induction fuel generalizing head headers with
  | zero => cases h
  | succ fuel ih =>
    rw [readHeaders, bind_eq_ok] at h
    obtain ⟨⟨text, next⟩, hread, h⟩ := h
    dsimp only at h
    split at h
    · cases h
    · rename_i line hstrip
      obtain ⟨rfl, hline, hinner, hlimit⟩ := isLine_of_readLine hread hstrip
      split at h
      · rename_i hblank
        cases h
        exact ⟨[], line, ⟨nofun, hline, hblank⟩, rfl, hinner, hlimit⟩
      · rename_i hfull
        split at h
        · cases h
        · rename_i more hmore
          obtain ⟨fields, blank, hends, hadd, hinner', hlimit'⟩ := ih h
          refine ⟨line :: fields, blank, ⟨?_, hends.line, hends.blank⟩, ?_, ?_, ?_⟩
          · intro other hmem
            rcases List.mem_cons.mp hmem with rfl | hmem
            · exact ⟨hline, hfull⟩
            · exact hends.fields other hmem
          · rw [addHeaders_cons, trimmedLine, hmore]
            exact hadd
          · rw [hinner, hinner', fieldSection_cons, List.append_assoc]
          · rw [hlimit, hlimit', fieldSection_cons, List.length_append, Nat.add_assoc]

namespace HeadLines

/-- The lines make up a head, with the request line taken apart and its headers. -/
structure Reads (lines : HeadLines) (head : Head) : Prop where
  line : IsLine lines.request
  request : requestLine (lines.request ++ "\r\n") = some (head.method, head.target, head.version)
  ends : Ends lines.fields lines.blank
  headers : addHeaders .empty lines.fields = some head.headers
  host : head.version = "HTTP/1.1" → (head.headers.get? "host").isSome = true
  budget : lines.raw.length ≤ maxHead

end HeadLines

/-- `parse_head` accepts the streams that begin with a head within the budget, and leaves what comes
after it. -/
theorem parseHead_eq_ok_iff {stream rest : List UInt8} {head : Head} :
    parseHead stream = .ok (head, rest) ↔
      ∃ lines : HeadLines, lines.Reads head ∧ stream = lines.raw ++ rest := by
  constructor
  · intro h
    rw [parseHead, bind_eq_ok] at h
    obtain ⟨⟨text, next⟩, hread, h⟩ := h
    dsimp only at h
    split at h
    · cases h
    · split at h
      · cases h
      · rename_i line hstrip
        obtain ⟨rfl, hline, hinner, hlimit⟩ := isLine_of_readLine hread hstrip
        split at h
        · cases h
        · rename_i method target version hrequest
          rw [bind_eq_ok] at h
          obtain ⟨⟨headers, after⟩, hheaders, h⟩ := h
          obtain ⟨fields, blank, hends, hadd, hinner', hlimit'⟩ := ends_of_readHeaders hheaders
          dsimp only at h hinner hlimit
          split at h
          · cases h
          · rename_i hhost
            cases h
            refine ⟨⟨line, fields, blank⟩, ⟨hline, hrequest, hends, hadd, ?_, ?_⟩, ?_⟩
            · intro hversion
              rw [not_and, Bool.not_eq_true, Option.isNone_eq_false_iff] at hhost
              exact hhost hversion
            · rw [HeadLines.raw, List.length_append]
              dsimp only
              omega
            · rw [hinner, hinner', HeadLines.raw, List.append_assoc]
  · rintro ⟨lines, hreads, rfl⟩
    have hbudget := hreads.budget
    rw [HeadLines.raw, List.length_append] at hbudget
    rw [parseHead, HeadLines.raw, List.append_assoc,
      readLine_of_isLine hreads.line (by omega)]
    dsimp only [bind, Except.bind]
    rw [if_neg (by simp), stripSuffix_append]
    dsimp only
    rw [hreads.request]
    dsimp only
    rw [readHeaders_of_ends hreads.ends (by omega) (Nat.lt_succ_self _) hreads.headers]
    dsimp only
    rw [if_neg]
    rintro ⟨hversion, hnone⟩
    rw [Option.isNone_iff_eq_none] at hnone
    have hsome := hreads.host hversion
    rw [hnone] at hsome
    cases hsome

/-! ## Headers -/

/-- The names, in lower case, and the values of header lines. -/
def headerFields (fields : List String) : Option (List (String × String)) :=
  fields.mapM fun line ↦ headerField (trimmedLine line)

/-- Store headers one after the other. -/
def insertAll (headers : Ordered.Map String String) (pairs : List (String × String)) :
    Ordered.Map String String :=
  pairs.foldl (fun acc pair ↦ acc.insert pair.1 pair.2) headers

theorem headerFields_cons (line : String) (fields : List String) :
    headerFields (line :: fields) = (headerField (trimmedLine line)).bind fun pair ↦
      (headerFields fields).map (pair :: ·) := by
  unfold headerFields
  rw [List.mapM_cons]
  cases headerField (trimmedLine line) with
  | none => rfl
  | some pair => cases fields.mapM fun line ↦ headerField (trimmedLine line) <;> rfl

/-- Names are absent after a header is stored if they are other names and were absent before. -/
theorem absent_insert_iff {headers : Ordered.Map String String} {name value : String}
    {names : List String} :
    (∀ other ∈ names, (headers.insert name value).get? other = none) ↔
      name ∉ names ∧ ∀ other ∈ names, headers.get? other = none := by
  simp only [Ordered.Map.get?_insert_eq_none_iff]
  constructor
  · intro h
    exact ⟨fun hmem ↦ (h name hmem).1 rfl, fun other hmem ↦ (h other hmem).2⟩
  · rintro ⟨hname, h⟩ other hmem
    exact ⟨fun heq ↦ hname (heq ▸ hmem), h other hmem⟩

/-- Header lines are taken in when they are well formed and none repeats a name. -/
theorem addHeaders_eq_some_iff {headers result : Ordered.Map String String}
    {fields : List String} :
    addHeaders headers fields = some result ↔
      ∃ pairs, headerFields fields = some pairs ∧ (pairs.map Prod.fst).Nodup ∧
        (∀ name ∈ pairs.map Prod.fst, headers.get? name = none) ∧
        result = insertAll headers pairs := by
  induction fields generalizing headers with
  | nil =>
    constructor
    · intro h
      cases h
      exact ⟨[], rfl, List.nodup_nil, nofun, rfl⟩
    · rintro ⟨pairs, hpairs, -, -, rfl⟩
      cases hpairs
      rfl
  | cons line fields ih =>
    rw [addHeaders_cons, headerFields_cons, addHeader]
    cases headerField (trimmedLine line) with
    | none =>
      refine iff_of_false nofun ?_
      rintro ⟨pairs, hpairs, -⟩
      cases hpairs
    | some pair =>
      obtain ⟨name, value⟩ := pair
      dsimp only [Option.bind_some]
      by_cases htaken : (headers.get? name).isSome = true
      · rw [if_pos htaken]
        refine iff_of_false nofun ?_
        rintro ⟨pairs, hpairs, -, hnone, -⟩
        obtain ⟨rest, -, rfl⟩ := Option.map_eq_some_iff.mp hpairs
        rw [hnone name List.mem_cons_self] at htaken
        cases htaken
      · rw [if_neg htaken, Option.bind_some, ih]
        rw [Bool.not_eq_true, Option.isSome_eq_false_iff, Option.isNone_iff_eq_none] at htaken
        constructor
        · rintro ⟨rest, hrest, hnodup, hnone, rfl⟩
          obtain ⟨hname, hnone⟩ := absent_insert_iff.mp hnone
          refine ⟨(name, value) :: rest, by rw [hrest]; rfl, List.nodup_cons.mpr ⟨hname, hnodup⟩,
            ?_, rfl⟩
          exact List.forall_mem_cons.mpr ⟨htaken, hnone⟩
        · rintro ⟨pairs, hpairs, hnodup, hnone, rfl⟩
          obtain ⟨rest, hrest, rfl⟩ := Option.map_eq_some_iff.mp hpairs
          obtain ⟨hname, hnodup⟩ := List.nodup_cons.mp hnodup
          obtain ⟨-, hnone⟩ := List.forall_mem_cons.mp hnone
          exact ⟨rest, hrest, hnodup, absent_insert_iff.mpr ⟨hname, hnone⟩, rfl⟩

/-- Headers stored under distinct names. -/
theorem get?_insertAll {pairs : List (String × String)} (h : (pairs.map Prod.fst).Nodup)
    (name value : String) :
    (insertAll .empty pairs).get? name = some value ↔ (name, value) ∈ pairs := by
  rw [insertAll, Ordered.Map.get?_foldl_insert (fun value ↦ value) h, Ordered.Map.get?_empty,
    Option.or_none]
  constructor
  · intro hget
    obtain ⟨pair, hfind, rfl⟩ := Option.map_eq_some_iff.mp hget
    have hfound := List.find?_some hfind
    have hname : pair.1 = name := by simpa using hfound
    exact hname ▸ List.mem_of_find?_eq_some hfind
  · intro hmem
    have hsome : (pairs.find? fun pair ↦ pair.1 = name).isSome = true :=
      List.find?_isSome.mpr ⟨(name, value), hmem, by simp⟩
    obtain ⟨pair, hfind⟩ := Option.isSome_iff_exists.mp hsome
    have hfound := List.find?_some hfind
    have hname : pair.1 = name := by simpa using hfound
    have heq : pair = (name, value) :=
      List.inj_on_of_nodup_map h (List.mem_of_find?_eq_some hfind) hmem hname
    rw [hfind, heq]
    rfl

end Cameo.Http
