import Cameo.Gateway.Chunked

/-!
# Backend responses

`parse_backend_response` takes a raw response apart.  It is complete for the framing that its own
head declares: a content length is the length of the body, a chunked body is one well-formed
encoding, and no framing header is repeated or stands beside the other.  Without either, the body
is what came before the connection closed.
-/

namespace Cameo.Gateway

open Library

/-- `MAX_RESPONSE_HEADERS`. -/
def maxResponseHeaders : ℕ := 64 * 1024

/-- `BackendResponse`. -/
structure BackendResponse where
  status : UInt16
  contentType : String
  body : List UInt8
deriving DecidableEq

/-- What `parse_backend_response` keeps of the header lines. -/
structure ResponseHead where
  contentType : String
  chunked : Bool
  contentLength : Option ℕ
deriving DecidableEq

/-- A header line: the name in lower case, and the value. -/
def headerField (line : List Char) : Option (String × String) :=
  (splitOnce [':'] line).map fun field ↦
    (toAsciiLowercase (trim (String.ofList field.1)), trim (String.ofList field.2))

/-- `u8::is_ascii_digit`. -/
def isDigit (c : Char) : Bool := (digitOf 10 c).isSome

def readHeader (head : ResponseHead) (line : List Char) : Option ResponseHead := do
  let (key, val) ← headerField line
  if key = "content-type" then some { head with contentType := val }
  else if key = "transfer-encoding" then
    if head.chunked || !eqIgnoreAsciiCase val "chunked" then none
    else some { head with chunked := true }
  else if key = "content-length" then
    if head.contentLength.isSome || val.toList = [] || !val.toList.all isDigit then none
    else (parseUsize val.toList).map fun length ↦ { head with contentLength := some length }
  else some head

def statusOf (line : List Char) : Option UInt16 :=
  match splitWhitespace line with
  | [] => none
  | version :: rest =>
    if version = "HTTP/1.1".toList ∨ version = "HTTP/1.0".toList then
      (rest.head?.bind parseU16).filter fun status ↦ 200 ≤ status ∧ status ≤ 599
    else none

/-- `parse_backend_response`. -/
def parseBackendResponse (raw : List UInt8) : Option BackendResponse := do
  let place ← findSubslice (crlf ++ crlf) raw
  let bodyRaw := raw.drop (place + 4)
  if (raw.take place).length > maxResponseHeaders ∨ raw.length > maxBufferedResponse then none
  else
    let text ← fromUtf8 (raw.take place)
    let lines := splitCrlf text.toList
    let status ← lines.head?.bind statusOf
    let head ← lines.tail.foldlM readHeader ⟨"application/json", false, none⟩
    if head.chunked && head.contentLength.isSome then none
    else if head.chunked then
      (dechunk bodyRaw).map fun body ↦ ⟨status, head.contentType, body⟩
    else if head.contentLength.any (· ≠ bodyRaw.length) then none
    else some ⟨status, head.contentType, bodyRaw⟩

/-! ## Framing -/

/-- The values of a header, in the order of the lines. -/
def declared (name : String) (fields : List (String × String)) : List String :=
  (fields.filter fun field ↦ field.1 = name).map Prod.snd

def IsLength (text : String) (length : ℕ) : Prop :=
  text.toList ≠ [] ∧ text.toList.all isDigit = true ∧ valueOf 10 text.toList = length

/-- The body is complete for the framing that the fields declare. -/
structure Framed (fields : List (String × String)) (bodyRaw body : List UInt8) : Prop where
  once : (declared "transfer-encoding" fields).length +
    (declared "content-length" fields).length ≤ 1
  chunked : ∀ coding ∈ declared "transfer-encoding" fields,
    eqIgnoreAsciiCase coding "chunked" = true ∧ ChunkedBody bodyRaw body
  sized : ∀ text ∈ declared "content-length" fields,
    IsLength text bodyRaw.length ∧ body = bodyRaw
  closed : declared "transfer-encoding" fields = [] → body = bodyRaw

/-- The raw response is a head, an empty line, and a body that is complete for the head. -/
def CompleteFraming (raw body : List UInt8) : Prop :=
  ∃ head bodyRaw text fields, raw = head ++ (crlf ++ crlf) ++ bodyRaw ∧
    fromUtf8 head = some text ∧
    (splitCrlf text.toList).tail.mapM headerField = some fields ∧ Framed fields bodyRaw body

/-- The fields read so far are those that the state stands for. -/
structure Reads (fields : List (String × String)) (head : ResponseHead) : Prop where
  codings : if head.chunked then
      ∃ coding, declared "transfer-encoding" fields = [coding] ∧
        eqIgnoreAsciiCase coding "chunked" = true
    else declared "transfer-encoding" fields = []
  lengths : match head.contentLength with
    | none => declared "content-length" fields = []
    | some length => ∃ text, declared "content-length" fields = [text] ∧ IsLength text length

theorem declared_append (name : String) (fields : List (String × String))
    (field : String × String) :
    declared name (fields ++ [field]) =
      declared name fields ++ if field.1 = name then [field.2] else [] := by
  by_cases h : field.1 = name <;> simp [declared, h]

theorem withoutPlus_of_digits {text : List Char} (h : text.all isDigit = true) :
    withoutPlus text = text := by
  unfold withoutPlus
  split
  · cases h
  · rfl

theorem parseUsize_of_digits {text : List Char} (hdigits : text.all isDigit = true) {length : ℕ}
    (h : parseUsize text = some length) : valueOf 10 text = length := by
  rw [parseUsize, withoutPlus_of_digits hdigits] at h
  split at h
  · cases h
  · split at h
    · exact Option.some.inj h
    · cases h

/-- One round keeps what the state stands for. -/
theorem reads_of_readHeader {head after : ResponseHead} {line : List Char}
    {fields : List (String × String)} (hreads : Reads fields head)
    (h : readHeader head line = some after) :
    ∃ field, headerField line = some field ∧ Reads (fields ++ [field]) after := by
  simp only [readHeader, Option.bind_eq_bind, Option.bind_eq_some_iff] at h
  obtain ⟨⟨key, val⟩, hfield, h⟩ := h
  refine ⟨(key, val), hfield, ?_⟩
  obtain ⟨hcodings, hlengths⟩ := hreads
  have kept {name : String} (hne : key ≠ name) :
      declared name (fields ++ [(key, val)]) = declared name fields := by
    rw [declared_append, if_neg hne, List.append_nil]
  have added : declared key (fields ++ [(key, val)]) = declared key fields ++ [val] := by
    rw [declared_append, if_pos rfl]
  dsimp only at h
  split at h
  · rename_i hkey
    cases h
    subst hkey
    exact ⟨by rwa [kept (by decide)], by rwa [kept (by decide)]⟩
  · split at h
    · rename_i hkey
      subst hkey
      split at h
      · cases h
      · rename_i hfresh
        rw [Bool.or_eq_true, not_or, Bool.not_eq_true, Bool.not_eq_true', Bool.not_eq_false]
          at hfresh
        cases h
        rw [hfresh.1] at hcodings
        refine ⟨⟨val, ?_, hfresh.2⟩, by rwa [kept (by decide)]⟩
        rw [added, hcodings]
        rfl
    · split at h
      · rename_i hkey
        subst hkey
        split at h
        · cases h
        · rename_i hfresh
          rw [Bool.or_eq_true, Bool.or_eq_true, not_or, not_or, Bool.not_eq_true,
            decide_eq_true_eq, Bool.not_eq_true', Bool.not_eq_false,
            Option.isSome_eq_false_iff, Option.isNone_iff_eq_none] at hfresh
          obtain ⟨⟨hnone, hne⟩, hdigits⟩ := hfresh
          obtain ⟨length, hlength, rfl⟩ := Option.map_eq_some_iff.mp h
          rw [hnone] at hlengths
          refine ⟨by rwa [kept (by decide)], val, ?_, hne, hdigits,
            parseUsize_of_digits hdigits hlength⟩
          rw [added, hlengths]
          rfl
      · rename_i hcoding hlength
        cases h
        exact ⟨by rwa [kept hcoding], by rwa [kept hlength]⟩

theorem reads_of_foldlM {lines : List (List Char)} {head after : ResponseHead}
    {fields : List (String × String)} (hreads : Reads fields head)
    (h : lines.foldlM readHeader head = some after) :
    ∃ more, lines.mapM headerField = some more ∧ Reads (fields ++ more) after := by
  induction lines generalizing head fields with
  | nil =>
    cases h
    exact ⟨[], rfl, by rwa [List.append_nil]⟩
  | cons line lines ih =>
    rw [List.foldlM_cons] at h
    obtain ⟨next, hnext, hrest⟩ := Option.bind_eq_some_iff.mp h
    obtain ⟨field, hfield, hreads⟩ := reads_of_readHeader hreads hnext
    obtain ⟨more, hmore, hreads⟩ := ih hreads hrest
    refine ⟨field :: more, ?_, by rwa [List.append_cons]⟩
    rw [List.mapM_cons, hfield, hmore]
    rfl

/-- One complete chunked body, for a chunked head without a length. -/
theorem framed_of_chunked {fields : List (String × String)} {head : ResponseHead}
    (h : Reads fields head) (hchunked : head.chunked = true) (hnone : head.contentLength = none)
    {bodyRaw body : List UInt8} (hbody : dechunk bodyRaw = some body) :
    Framed fields bodyRaw body := by
  obtain ⟨hcodings, hlengths⟩ := h
  rw [if_pos hchunked] at hcodings
  rw [hnone] at hlengths
  obtain ⟨coding, hcoding, hname⟩ := hcodings
  refine ⟨by rw [hcoding, hlengths]; rfl, ?_, by rw [hlengths]; exact nofun,
    by rw [hcoding]; exact nofun⟩
  rw [hcoding]
  intro other hother
  obtain rfl := List.mem_singleton.mp hother
  exact ⟨hname, (dechunk_eq_some_iff.mp hbody).1⟩

/-- All bytes that follow, for a head that is not chunked and whose length, if any, is theirs. -/
theorem framed_of_rest {fields : List (String × String)} {head : ResponseHead}
    (h : Reads fields head) (hchunked : ¬ head.chunked = true) {bodyRaw : List UInt8}
    (hlength : ∀ length, head.contentLength = some length → length = bodyRaw.length) :
    Framed fields bodyRaw bodyRaw := by
  obtain ⟨hcodings, hlengths⟩ := h
  rw [if_neg hchunked] at hcodings
  cases hdeclared : head.contentLength with
  | none =>
    rw [hdeclared] at hlengths
    exact ⟨by rw [hcodings, hlengths]; decide, by rw [hcodings]; exact nofun,
      by rw [hlengths]; exact nofun, fun _ ↦ rfl⟩
  | some length =>
    rw [hdeclared] at hlengths
    obtain ⟨text, htext, hvalue⟩ := hlengths
    refine ⟨by rw [hcodings, htext]; rfl, by rw [hcodings]; exact nofun, ?_, fun _ ↦ rfl⟩
    rw [htext]
    intro other hother
    obtain rfl := List.mem_singleton.mp hother
    exact ⟨hlength length hdeclared ▸ hvalue, rfl⟩

/-- A parsed response is complete for its declared framing. -/
theorem completeFraming_of_parse {raw : List UInt8} {response : BackendResponse}
    (h : parseBackendResponse raw = some response) : CompleteFraming raw response.body := by
  simp only [parseBackendResponse, Option.bind_eq_bind, Option.bind_eq_some_iff] at h
  obtain ⟨place, hplace, h⟩ := h
  split at h
  · cases h
  simp only [Option.bind_eq_some_iff] at h
  obtain ⟨text, htext, status, -, head, hhead, h⟩ := h
  have hstart : Reads [] ⟨"application/json", false, none⟩ := ⟨rfl, rfl⟩
  obtain ⟨fields, hfields, hreads⟩ := reads_of_foldlM hstart hhead
  rw [List.nil_append] at hreads
  refine ⟨raw.take place, raw.drop (place + 4), text, fields, findSubslice_split hplace, htext,
    hfields, ?_⟩
  split at h
  · cases h
  rename_i hone
  split at h
  · rename_i hchunked
    obtain ⟨body, hbody, rfl⟩ := Option.map_eq_some_iff.mp h
    have hnone : head.contentLength = none := by
      rw [hchunked, Bool.true_and, Bool.not_eq_true] at hone
      rwa [Option.isSome_eq_false_iff, Option.isNone_iff_eq_none] at hone
    exact framed_of_chunked hreads hchunked hnone hbody
  · rename_i hchunked
    split at h
    · cases h
    rename_i hlength
    cases h
    refine framed_of_rest hreads hchunked ?_
    intro length hdeclared
    rw [hdeclared] at hlength
    simpa using hlength

/-- Decoding is exact: `dechunk` decodes every well-formed body within the cap and refuses every
strict prefix and every strict extension of one, and a response is parsed only when its body is
complete for its declared framing. -/
theorem backend_decoding_exact :
    (∀ data body, ChunkedBody data body → body.length ≤ maxBufferedResponse →
      dechunk data = some body) ∧
    (∀ data body other, ChunkedBody data body →
      (other <+: data ∧ other ≠ data ∨ data <+: other ∧ data ≠ other) → dechunk other = none) ∧
    (∀ raw response, parseBackendResponse raw = some response →
      CompleteFraming raw response.body) :=
  ⟨fun _ _ hbody hfits ↦ dechunk_eq_some_iff.mpr ⟨hbody, hfits⟩,
    fun _ _ _ hbody hother ↦ dechunk_eq_none hbody hother,
    fun _ _ h ↦ completeFraming_of_parse h⟩

end Cameo.Gateway
