import Cameo.Bytes
import Cameo.Clock
import Cameo.Library.Subslice

/-!
# Chunked bodies

`dechunk` decodes the body of a chunked response.  A well-formed body is a sequence of chunks, each
a line with its size, as many bytes and a line end, then a line of size zero, the trailer lines and
an empty line.  The decoder accepts exactly these, within the size cap, and as none of them is a
strict prefix of another it refuses whatever breaks off early or goes on.
-/

namespace Cameo.Gateway

open Library

/-- `MAX_BUFFERED_RESPONSE`. -/
def maxBufferedResponse : ℕ := 32 * 1024 * 1024

def crlf : List UInt8 := [13, 10]

/-- The size that `dechunk` reads from a line, up to a semicolon. -/
def chunkSize (line : List UInt8) : Option ℕ :=
  let sizeText := (fromUtf8Lossy line).takeWhile (· ≠ ';')
  if sizeText = [] ∨ !sizeText.all isHexDigit then none
  else if valueOf 16 sizeText < UInt64.size then some (valueOf 16 sizeText) else none

/-- The trailer loop of `dechunk`: whether the data is a trailer section and nothing else.  Every
line takes two bytes at least, so the length of the data is enough fuel. -/
def trailersEnd : ℕ → List UInt8 → Bool
  | 0, _ => false
  | fuel + 1, data =>
    match findSubslice crlf data with
    | none => false
    | some place =>
      if place = 0 then data.length = 2
      else if 58 ∈ data.take place then trailersEnd fuel (data.drop (place + 2))
      else false

/-- The chunk loop of `dechunk`, on what has been decoded and what is left, with fuel for every
chunk. -/
def dechunkLoop : ℕ → List UInt8 → List UInt8 → Option (List UInt8)
  | 0, _, _ => none
  | fuel + 1, out, data => do
    let place ← findSubslice crlf data
    let size ← chunkSize (data.take place)
    let data := data.drop (place + 2)
    if size = 0 then
      if trailersEnd data.length data then some out else none
    else if data.length < size ∨ saturatingAdd out.length size > maxBufferedResponse then none
    else if crlf.isPrefixOf (data.drop size) then
      dechunkLoop fuel (out ++ data.take size) ((data.drop size).drop 2)
    else none

/-- `dechunk`; its only error is `invalid_response()`, here `none`. -/
def dechunk (data : List UInt8) : Option (List UInt8) := dechunkLoop data.length [] data

/-! ## Well-formed bodies -/

/-- A line that holds no line end. -/
def IsLine (line : List UInt8) : Prop := findSubslice crlf line = none

/-- A line with a size: hex digits, and after a semicolon whatever extensions. -/
def SizeLine (line : List UInt8) (size : ℕ) : Prop :=
  IsLine line ∧ ∃ digits extension, line = digits ++ extension ∧ digits ≠ [] ∧
    (∀ byte ∈ digits, isHexDigit (byteChar byte) = true) ∧
    (extension = [] ∨ extension.head? = some 59) ∧ valueOf 16 (digits.map byteChar) = size

/-- A trailer line: a field, with its colon. -/
def TrailerLine (line : List UInt8) : Prop := IsLine line ∧ line ≠ [] ∧ 58 ∈ line

def trailerSection (lines : List (List UInt8)) : List UInt8 := lines.flatMap (· ++ crlf)

inductive ChunkedBody : List UInt8 → List UInt8 → Prop where
  | last {line : List UInt8} {trailers : List (List UInt8)} (hline : SizeLine line 0)
      (htrailers : ∀ trailer ∈ trailers, TrailerLine trailer) :
      ChunkedBody (line ++ (crlf ++ (trailerSection trailers ++ crlf))) []
  | chunk {line data encoded rest : List UInt8} (hline : SizeLine line data.length)
      (hdata : data ≠ []) (hrest : ChunkedBody encoded rest) :
      ChunkedBody (line ++ (crlf ++ (data ++ (crlf ++ encoded)))) (data ++ rest)

/-! ## Lines -/

theorem findSubslice_crlf {line : List UInt8} (h : IsLine line) (rest : List UInt8) :
    findSubslice crlf (line ++ (crlf ++ rest)) = some line.length :=
  findSubslice_line (by decide) h rest

@[simp] theorem drop_crlf (rest : List UInt8) : (crlf ++ rest).drop 2 = rest := rfl

@[simp] theorem length_crlf : crlf.length = 2 := rfl

/-- Data splits into a first line and the rest in one way. -/
theorem line_inj {line line' rest rest' : List UInt8} (hline : IsLine line)
    (hline' : IsLine line') (h : line ++ (crlf ++ rest) = line' ++ (crlf ++ rest')) :
    line = line' ∧ rest = rest' := by
  have hlength : some line.length = some line'.length := by
    rw [← findSubslice_crlf hline rest, h, findSubslice_crlf hline' rest']
  obtain ⟨rfl, hrest⟩ := List.append_inj h (Option.some.inj hlength)
  exact ⟨rfl, List.append_cancel_left hrest⟩

/-- The first line of data that has one. -/
theorem exists_line {data : List UInt8} {place : ℕ} (h : findSubslice crlf data = some place) :
    IsLine (data.take place) ∧ data = data.take place ++ (crlf ++ data.drop (place + 2)) := by
  refine ⟨findSubslice_take h, ?_⟩
  rw [← List.append_assoc]
  exact findSubslice_split h

theorem toNat_lt_of_isHexDigit {c : Char} (h : isHexDigit c = true) : c.toNat < 0x80 := by
  unfold isHexDigit digitOf at h
  dsimp only at h
  split at h
  · rename_i hrange
    have hle : c.toNat ≤ '9'.toNat := hrange.2
    exact hle.trans_lt (by decide)
  · split at h
    · rename_i hrange
      have hle : c.toNat ≤ 'f'.toNat := hrange.2
      exact hle.trans_lt (by decide)
    · split at h
      · rename_i hrange
        have hle : c.toNat ≤ 'F'.toNat := hrange.2
        exact hle.trans_lt (by decide)
      · cases h

def sizeBytes (line : List UInt8) : List UInt8 := line.takeWhile fun byte ↦ byteChar byte ≠ ';'

theorem byteChar_eq_semicolon {byte : UInt8} (h : byteChar byte = ';') : byte = 59 := by
  have hlt := byte.toNat_lt
  have hcode := congrArg Char.toNat h
  rw [byteChar, toNat_ofNat_of_scalar (by omega)] at hcode
  exact UInt8.toNat_inj.mp hcode

theorem sizeLine_iff {line : List UInt8} {size : ℕ} :
    SizeLine line size ↔ IsLine line ∧ sizeBytes line ≠ [] ∧
      ((sizeBytes line).map byteChar).all isHexDigit = true ∧
      valueOf 16 ((sizeBytes line).map byteChar) = size := by
  constructor
  · rintro ⟨hline, digits, extension, rfl, hne, hhex, hextension, hvalue⟩
    have hdigits : sizeBytes (digits ++ extension) = digits := by
      have hpass : ∀ byte ∈ digits, decide (byteChar byte ≠ ';') = true := by
        intro byte hmem
        refine decide_eq_true ?_
        intro hsemicolon
        have hfalse := hhex byte hmem
        rw [hsemicolon] at hfalse
        exact absurd hfalse (by decide)
      rw [sizeBytes, List.takeWhile_append_of_pos hpass]
      cases extension with
      | nil => simp
      | cons first rest =>
        obtain rfl : first = 59 := by simpa using hextension
        rw [List.takeWhile_cons_of_neg (by decide), List.append_nil]
    rw [hdigits]
    refine ⟨hline, hne, ?_, hvalue⟩
    rw [List.all_map, List.all_eq_true]
    exact hhex
  · rintro ⟨hline, hne, hhex, hvalue⟩
    refine ⟨hline, sizeBytes line, line.dropWhile fun byte ↦ byteChar byte ≠ ';',
      (List.takeWhile_append_dropWhile).symm, hne, ?_, ?_, hvalue⟩
    · rw [List.all_map, List.all_eq_true] at hhex
      exact hhex
    · cases hrest : line.dropWhile fun byte ↦ byteChar byte ≠ ';' with
      | nil => exact .inl rfl
      | cons first rest =>
        have hstop := List.head?_dropWhile_not (fun byte ↦ decide (byteChar byte ≠ ';')) line
        rw [hrest] at hstop
        refine .inr (congrArg some (byteChar_eq_semicolon ?_))
        simpa using hstop

/-- `dechunk` reads the size of exactly the size lines, if it fits a `usize`. -/
theorem chunkSize_eq_some_iff {line : List UInt8} (hline : IsLine line) {size : ℕ} :
    chunkSize line = some size ↔ SizeLine line size ∧ size < UInt64.size := by
  have hdecoded := @lossyChars_takeWhile isHexDigit (fun _ ↦ toNat_lt_of_isHexDigit) ';'
    (by decide) _ line le_rfl
  rw [sizeLine_iff, chunkSize]
  change _ → (fromUtf8Lossy line).takeWhile _ = (sizeBytes line).map byteChar at hdecoded
  constructor
  · intro h
    split at h
    · cases h
    rename_i hhex
    rw [not_or, Bool.not_eq_true', Bool.not_eq_false] at hhex
    rw [hdecoded (.inl hhex.2)] at h hhex
    split at h
    · rename_i hfits
      cases h
      exact ⟨⟨hline, mt (congrArg (List.map byteChar)) hhex.1, hhex.2, rfl⟩, hfits⟩
    · cases h
  · rintro ⟨⟨-, hne, hhex, rfl⟩, hfits⟩
    rw [hdecoded (.inr hhex), if_neg, if_pos hfits]
    rw [not_or, Bool.not_eq_true', Bool.not_eq_false]
    exact ⟨mt List.map_eq_nil_iff.mp hne, hhex⟩

/-! ## What is accepted -/

theorem trailerSection_cons (line : List UInt8) (lines : List (List UInt8)) :
    trailerSection (line :: lines) ++ crlf = line ++ (crlf ++ (trailerSection lines ++ crlf)) := by
  simp [trailerSection]

theorem length_trailerSection_pos (lines : List (List UInt8)) :
    2 ≤ (trailerSection lines ++ crlf).length := by
  simp [crlf]

theorem trailersEnd_iff {fuel : ℕ} {data : List UInt8} (hfuel : data.length ≤ fuel) :
    trailersEnd fuel data = true ↔
      ∃ trailers, (∀ trailer ∈ trailers, TrailerLine trailer) ∧
        data = trailerSection trailers ++ crlf := by
  induction fuel generalizing data with
  | zero =>
    refine iff_of_false nofun ?_
    rintro ⟨trailers, -, rfl⟩
    exact absurd (length_trailerSection_pos trailers) (by omega)
  | succ fuel ih =>
    rw [trailersEnd]
    constructor
    · intro h
      split at h
      · cases h
      rename_i place hplace
      obtain ⟨hline, hsplit⟩ := exists_line hplace
      have hinside := findSubslice_length_le hplace
      split at h
      · rename_i hzero
        subst hzero
        have hlength : data.length = 2 := of_decide_eq_true h
        refine ⟨[], nofun, ?_⟩
        rw [List.drop_eq_nil_of_le (by omega)] at hsplit
        exact hsplit
      · rename_i hpositive
        split at h
        · rename_i hcolon
          obtain ⟨trailers, htrailers, hrest⟩ := (ih (by simp; omega)).mp h
          refine ⟨data.take place :: trailers, ?_, ?_⟩
          · refine List.forall_mem_cons.mpr ⟨⟨hline, ?_, hcolon⟩, htrailers⟩
            exact List.ne_nil_of_mem hcolon
          · rw [trailerSection_cons, ← hrest]
            exact hsplit
        · cases h
    · rintro ⟨trailers, htrailers, rfl⟩
      cases trailers with
      | nil => rfl
      | cons trailer trailers =>
        obtain ⟨⟨hline, hne, hcolon⟩, hrest⟩ := List.forall_mem_cons.mp htrailers
        rw [trailerSection_cons] at hfuel ⊢
        have hpositive : trailer.length ≠ 0 := mt List.length_eq_zero_iff.mp hne
        rw [findSubslice_crlf hline]
        dsimp only
        rw [if_neg hpositive, List.take_left, if_pos hcolon, ← List.append_assoc,
          List.drop_left' (by simp [crlf])]
        refine (ih ?_).mpr ⟨trailers, hrest, rfl⟩
        simp only [List.length_append, crlf, List.length_cons, List.length_nil] at hfuel ⊢
        omega

/-- The first line of a well-formed body, and what follows it. -/
theorem ChunkedBody.cases_line {data body : List UInt8} (h : ChunkedBody data body) :
    ∃ line size after, data = line ++ (crlf ++ after) ∧ SizeLine line size ∧
      ((size = 0 ∧ body = [] ∧ ∃ trailers, (∀ trailer ∈ trailers, TrailerLine trailer) ∧
          after = trailerSection trailers ++ crlf) ∨
        size ≠ 0 ∧ ∃ chunk encoded rest, after = chunk ++ (crlf ++ encoded) ∧
          chunk.length = size ∧ body = chunk ++ rest ∧ ChunkedBody encoded rest) := by
  cases h with
  | last hline htrailers => exact ⟨_, 0, _, rfl, hline, .inl ⟨rfl, rfl, _, htrailers, rfl⟩⟩
  | chunk hline hdata hrest =>
    exact ⟨_, _, _, rfl, hline, .inr ⟨mt List.length_eq_zero_iff.mp hdata, _, _, _, rfl, rfl, rfl,
      hrest⟩⟩

/-- The data of a chunk, with its line end, and what follows. -/
theorem exists_chunk {data : List UInt8} {size : ℕ} (hsize : size ≤ data.length)
    (hend : crlf.isPrefixOf (data.drop size) = true) :
    ∃ chunk encoded, data = chunk ++ (crlf ++ encoded) ∧ chunk.length = size := by
  obtain ⟨encoded, hencoded⟩ := List.isPrefixOf_iff_prefix.mp hend
  refine ⟨data.take size, encoded, ?_, List.length_take_of_le hsize⟩
  rw [hencoded, List.take_append_drop]

/-- What the chunk loop decodes is well formed and fits the cap. -/
theorem chunkedBody_of_dechunkLoop {fuel : ℕ} {out data result : List UInt8}
    (hfuel : data.length ≤ fuel) (hout : out.length ≤ maxBufferedResponse)
    (h : dechunkLoop fuel out data = some result) :
    ∃ body, ChunkedBody data body ∧ result = out ++ body ∧
      out.length + body.length ≤ maxBufferedResponse := by
  have hcap : maxBufferedResponse < u64Max := by decide
  induction fuel generalizing out data with
  | zero => cases h
  | succ fuel ih =>
    rw [dechunkLoop] at h
    simp only [Option.bind_eq_bind, Option.bind_eq_some_iff] at h
    obtain ⟨place, hplace, size, hsize, h⟩ := h
    obtain ⟨hline, hsplit⟩ := exists_line hplace
    have hinside := findSubslice_length_le hplace
    have hsized := ((chunkSize_eq_some_iff hline).mp hsize).1
    generalize data.drop (place + 2) = after at hsplit h
    split at h
    · rename_i hzero
      subst hzero
      split at h
      · rename_i htrailers
        cases h
        obtain ⟨trailers, hlines, rfl⟩ := (trailersEnd_iff le_rfl).mp htrailers
        rw [hsplit]
        exact ⟨[], .last hsized hlines, (List.append_nil _).symm, hout⟩
      · cases h
    · rename_i hpositive
      split at h
      · cases h
      rename_i hroom
      rw [not_or, not_lt, not_lt, saturatingAdd_le_iff hcap] at hroom
      split at h
      · rename_i hend
        obtain ⟨chunk, encoded, rfl, rfl⟩ := exists_chunk hroom.1 hend
        rw [List.drop_left, List.take_left, drop_crlf] at h
        have hshort : encoded.length ≤ fuel := by
          have hlengths := congrArg List.length hsplit
          simp only [List.length_append, length_crlf] at hlengths
          omega
        obtain ⟨rest, hrest, rfl, hfits⟩ := ih hshort (by simpa using hroom.2) h
        rw [List.length_append] at hfits
        rw [hsplit]
        refine ⟨chunk ++ rest, .chunk hsized ?_ hrest, List.append_assoc _ _ _, ?_⟩
        · exact mt (congrArg List.length) hpositive
        · rw [List.length_append]
          omega
      · cases h

/-- The chunk loop decodes a well-formed body that fits the cap beside what is decoded already. -/
theorem dechunkLoop_of_chunkedBody {fuel : ℕ} {out data body : List UInt8}
    (hfuel : data.length ≤ fuel) (hbody : ChunkedBody data body)
    (hfits : out.length + body.length ≤ maxBufferedResponse) :
    dechunkLoop fuel out data = some (out ++ body) := by
  have hcap : maxBufferedResponse < u64Max := by decide
  induction fuel generalizing out data body with
  | zero =>
    obtain ⟨line, size, after, rfl, -⟩ := hbody.cases_line
    simp [crlf] at hfuel
  | succ fuel ih =>
    rw [dechunkLoop]
    simp only [Option.bind_eq_bind, Option.bind_eq_some_iff]
    obtain ⟨line, size, after, rfl, hsized, hcases⟩ := hbody.cases_line
    have hfits64 : size < UInt64.size := by
      rcases hcases with ⟨rfl, -⟩ | ⟨-, chunk, encoded, rest, -, rfl, rfl, -⟩
      · decide
      · rw [List.length_append] at hfits
        have hsmall : maxBufferedResponse < UInt64.size := by decide
        omega
    refine ⟨line.length, findSubslice_crlf hsized.1 after, size, ?_, ?_⟩
    · rw [List.take_left]
      exact (chunkSize_eq_some_iff hsized.1).mpr ⟨hsized, hfits64⟩
    rw [← List.append_assoc, List.drop_left' (by simp [crlf])]
    rcases hcases with ⟨rfl, rfl, hafter⟩ | ⟨hne, chunk, encoded, rest, rfl, rfl, rfl, hrest⟩
    · rw [if_pos rfl, (trailersEnd_iff le_rfl).mpr hafter, List.append_nil]
      rfl
    · rw [List.length_append] at hfits
      have hroom : ¬ ((chunk ++ (crlf ++ encoded)).length < chunk.length ∨
          saturatingAdd out.length chunk.length > maxBufferedResponse) := by
        rw [not_or, not_lt, not_lt, saturatingAdd_le_iff hcap, List.length_append]
        omega
      have hend : crlf.isPrefixOf (crlf ++ encoded) = true :=
        List.isPrefixOf_iff_prefix.mpr (List.prefix_append _ _)
      rw [if_neg hne, if_neg hroom, List.drop_left, List.take_left, if_pos hend, drop_crlf]
      rw [← List.append_assoc]
      refine ih ?_ hrest ?_
      · simp only [List.length_append, length_crlf] at hfuel
        omega
      · rw [List.length_append]
        omega

theorem dechunk_eq_some_iff {data body : List UInt8} :
    dechunk data = some body ↔
      ChunkedBody data body ∧ body.length ≤ maxBufferedResponse := by
  constructor
  · intro h
    obtain ⟨_, hbody, rfl, hfits⟩ := chunkedBody_of_dechunkLoop le_rfl (Nat.zero_le _) h
    exact ⟨hbody, by simpa using hfits⟩
  · rintro ⟨hbody, hfits⟩
    exact dechunkLoop_of_chunkedBody le_rfl hbody (by simpa using hfits)

/-! ## No body is the beginning of another -/

theorem sizeLine_inj {line : List UInt8} {size size' : ℕ} (h : SizeLine line size)
    (h' : SizeLine line size') : size = size' :=
  (sizeLine_iff.mp h).2.2.2.symm.trans (sizeLine_iff.mp h').2.2.2

theorem trailerSection_extension {trailers others : List (List UInt8)} {extra : List UInt8}
    (htrailers : ∀ trailer ∈ trailers, TrailerLine trailer)
    (hothers : ∀ other ∈ others, TrailerLine other)
    (h : trailerSection trailers ++ crlf ++ extra = trailerSection others ++ crlf) :
    extra = [] := by
  have hempty : IsLine [] := rfl
  induction trailers generalizing others with
  | nil =>
    cases others with
    | nil => simpa [trailerSection] using h
    | cons other others =>
      obtain ⟨⟨hline, hne, -⟩, -⟩ := List.forall_mem_cons.mp hothers
      rw [trailerSection_cons] at h
      exact absurd (line_inj hempty hline h).1.symm hne
  | cons trailer trailers ih =>
    obtain ⟨⟨hline, hne, -⟩, hrest⟩ := List.forall_mem_cons.mp htrailers
    rw [trailerSection_cons, List.append_assoc, List.append_assoc] at h
    cases others with
    | nil => exact absurd (line_inj hline hempty h).1 hne
    | cons other others =>
      obtain ⟨⟨hline', -, -⟩, hrest'⟩ := List.forall_mem_cons.mp hothers
      rw [trailerSection_cons] at h
      exact ih hrest hrest' (line_inj hline hline' h).2

/-- A well-formed body that goes on as another is that one. -/
theorem ChunkedBody.extension {data body extra body' : List UInt8} (h : ChunkedBody data body)
    (h' : ChunkedBody (data ++ extra) body') : extra = [] := by
  induction h generalizing body' with
  | last hline htrailers =>
    obtain ⟨line', size', after', hsplit, hline', hcases⟩ := h'.cases_line
    rw [List.append_assoc, List.append_assoc] at hsplit
    obtain ⟨rfl, rfl⟩ := line_inj hline.1 hline'.1 hsplit
    obtain rfl := sizeLine_inj hline hline'
    rcases hcases with ⟨-, -, others, hothers, hsection⟩ | ⟨hne, -⟩
    · exact trailerSection_extension htrailers hothers hsection
    · exact absurd rfl hne
  | chunk hline hdata hrest ih =>
    obtain ⟨line', size', after', hsplit, hline', hcases⟩ := h'.cases_line
    rw [List.append_assoc, List.append_assoc] at hsplit
    obtain ⟨rfl, rfl⟩ := line_inj hline.1 hline'.1 hsplit
    obtain rfl := sizeLine_inj hline hline'
    rcases hcases with ⟨hzero, -⟩ | ⟨-, chunk, encoded, rest, hchunk, hlength, -, hrest'⟩
    · exact absurd (List.length_eq_zero_iff.mp hzero) hdata
    · rw [List.append_assoc] at hchunk
      obtain ⟨rfl, hencoded⟩ := List.append_inj hchunk hlength.symm
      rw [List.append_assoc] at hencoded
      rw [← List.append_cancel_left hencoded] at hrest'
      exact ih hrest'

/-- What is a strict prefix or a strict extension of a well-formed body is not one. -/
theorem dechunk_eq_none {data body other : List UInt8} (h : ChunkedBody data body)
    (hother : other <+: data ∧ other ≠ data ∨ data <+: other ∧ data ≠ other) :
    dechunk other = none := by
  rw [Option.eq_none_iff_forall_not_mem]
  intro body' hbody'
  have h' := (dechunk_eq_some_iff.mp hbody').1
  rcases hother with ⟨⟨extra, rfl⟩, hne⟩ | ⟨⟨extra, rfl⟩, hne⟩
  · exact hne (by rw [h'.extension h, List.append_nil])
  · exact hne (by rw [h.extension h', List.append_nil])

end Cameo.Gateway
