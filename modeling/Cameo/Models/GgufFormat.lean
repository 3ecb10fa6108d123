import Cameo.Models.Gguf

/-!
# The GGUF metadata format

Metadata sections of versions 2 and 3, in their default byte order: the types of values, what
encodes a value of each, arrays nested to any depth, and the entries of a section.  Every encoding
is skipped to its end, so from a well-formed section the inspection takes exactly the five values it
wants, whatever the other entries are.
-/

namespace Cameo.Models

open Library

/-! ## Values -/

inductive GgufType where
  | uint8
  | int8
  | uint16
  | int16
  | uint32
  | int32
  | float32
  | bool
  | string
  | array
  | uint64
  | int64
  | float64
deriving DecidableEq

namespace GgufType

def code : GgufType → ℕ
  | uint8 => 0
  | int8 => 1
  | uint16 => 2
  | int16 => 3
  | uint32 => 4
  | int32 => 5
  | float32 => 6
  | bool => 7
  | string => 8
  | array => 9
  | uint64 => 10
  | int64 => 11
  | float64 => 12

/-- The bytes of a value, if every value of the type has as many. -/
def width : GgufType → Option ℕ
  | uint8 | int8 | bool => some 1
  | uint16 | int16 => some 2
  | uint32 | int32 | float32 => some 4
  | uint64 | int64 | float64 => some 8
  | string | array => none

def isUnsigned : GgufType → Bool
  | uint8 | uint16 | uint32 | uint64 => true
  | _ => false

theorem code_lt (ty : GgufType) : ty.code < 256 ^ 4 := by
  cases ty <;> decide

theorem fixedWidth_code (ty : GgufType) : fixedWidth ty.code = ty.width := by
  cases ty <;> rfl

end GgufType

/-- The bytes that encode a value of a type: a string behind its length, an array behind the type of
its elements and their number. -/
inductive Encodes : GgufType → List UInt8 → Prop
  | scalar {ty : GgufType} {width : ℕ} {value : List UInt8} (hwidth : ty.width = some width)
    (hvalue : value.length = width) : Encodes ty value
  | string {text : List UInt8} (hlength : text.length < 256 ^ 8) :
    Encodes .string (leBytes 8 text.length ++ text)
  | array {element : GgufType} {items : List (List UInt8)} (hcount : items.length < 256 ^ 8)
    (hitems : ∀ item ∈ items, Encodes element item) :
    Encodes .array (leBytes 4 element.code ++ leBytes 8 items.length ++ items.flatten)

/-! ## Sections -/

/-- An entry: a key of at most 65535 bytes, and a value of a type. -/
structure GgufEntry where
  key : String
  short : (bytes key).length ≤ 65535
  type : GgufType
  value : List UInt8
  encodes : Encodes type value

def GgufEntry.encoding (entry : GgufEntry) : List UInt8 :=
  leBytes 8 (bytes entry.key).length ++ bytes entry.key ++ leBytes 4 entry.type.code ++ entry.value

structure GgufSection where
  version : ℕ
  supported : version = 2 ∨ version = 3
  tensorCount : ℕ
  counted : tensorCount < 256 ^ 8
  entries : List GgufEntry
  listed : entries.length < 256 ^ 8

def GgufSection.encoding (sec : GgufSection) : List UInt8 :=
  bytes "GGUF" ++ leBytes 4 sec.version ++ leBytes 8 sec.tensorCount ++
    leBytes 8 sec.entries.length ++ sec.entries.flatMap GgufEntry.encoding

/-- Exactly one entry has a key with an ending, and its value is an unsigned integer. -/
def OnceAs (entries : List GgufEntry) (suffix : String) (n : UInt32) : Prop :=
  ∃ entry, entries.filter (fun entry ↦ endsWith entry.key suffix) = [entry] ∧
    entry.type.isUnsigned = true ∧ leValue entry.value = n.toNat

/-! ## Steps of the reader -/

variable {file : GgufFile} {pos : ℕ}

/-- A step that succeeds is followed by the next one from where it ends. -/
theorem bind_of_ok {α β : Type} {step : Reader α} {next : α → Reader β} {a : α} {pos' : ℕ}
    (h : step pos = .ok (a, pos')) : (step >>= next) pos = next a pos' := by
  change (step pos >>= fun result ↦ next result.1 result.2) = _
  rw [h]
  rfl

theorem readExact_of_holds {part : List UInt8} (h : Holds file.data pos part) :
    readExact file part.length pos = .ok (part, pos + part.length) := by
  unfold readExact
  rw [if_pos (.inr h.length_le), h.take_drop]

theorem readFixed_of_holds {part : List UInt8} (h : Holds file.data pos part) :
    readFixed file part.length pos = .ok (leValue part, pos + part.length) :=
  bind_of_ok (readExact_of_holds h)

/-- A number is read from its bytes. -/
theorem readFixed_leBytes {width n : ℕ} (hn : n < 256 ^ width)
    (h : Holds file.data pos (leBytes width n)) :
    readFixed file width pos = .ok (n, pos + width) := by
  have := readFixed_of_holds h
  rwa [length_leBytes, leValue_leBytes hn] at this

theorem readU32_leBytes {n : ℕ} (hn : n < 256 ^ 4) (h : Holds file.data pos (leBytes 4 n)) :
    readU32 file pos = .ok (n, pos + 4) := readFixed_leBytes hn h

theorem readU64_leBytes {n : ℕ} (hn : n < 256 ^ 8) (h : Holds file.data pos (leBytes 8 n)) :
    readU64 file pos = .ok (n, pos + 8) := readFixed_leBytes hn h

theorem seekForward_of_le {length : ℕ} (h : pos + length ≤ file.data.length) :
    seekForward file length pos = .ok ((), pos + length) := by
  have hmax : pos + length ≤ file.maxOffset := h.trans file.fits
  have := file.bounded
  unfold seekForward
  rw [if_neg (by omega), if_pos hmax]

theorem readString_of_holds {text : String} (hshort : (bytes text).length ≤ 65535)
    (h : Holds file.data pos (leBytes 8 (bytes text).length ++ bytes text)) :
    readString file pos =
      .ok (text, pos + (leBytes 8 (bytes text).length ++ bytes text).length) := by
  obtain ⟨hlength, htext⟩ := holds_append_iff.mp h
  rw [length_leBytes] at htext
  have hsmall : ¬ (bytes text).length > maxString := by
    rw [maxString]
    omega
  unfold readString
  rw [bind_of_ok (readU64_leBytes (by omega) hlength), if_neg hsmall,
    bind_of_ok (readExact_of_holds htext), fromUtf8_bytes, List.length_append, length_leBytes,
    ← Nat.add_assoc]
  rfl

/-! ## Skipping -/

theorem Encodes.length_of_width {ty : GgufType} {value : List UInt8} (h : Encodes ty value)
    {width : ℕ} (hwidth : ty.width = some width) : value.length = width := by
  cases h with
  | scalar hown hvalue =>
    rw [hvalue]
    exact Option.some.inj (hown.symm.trans hwidth)
  | string => exact absurd hwidth nofun
  | array => exact absurd hwidth nofun

/-- A step that skips each of several parts skips them all. -/
theorem repeatTimes_of_holds {step : Reader Unit} {items : List (List UInt8)}
    (hstep : ∀ item ∈ items, ∀ pos, Holds file.data pos item →
      step pos = .ok ((), pos + item.length))
    (h : Holds file.data pos items.flatten) :
    repeatTimes items.length step pos = .ok ((), pos + items.flatten.length) := by
  induction items generalizing pos with
  | nil => rfl
  | cons item rest ih =>
    rw [List.flatten_cons] at h ⊢
    obtain ⟨hitem, hrest⟩ := holds_append_iff.mp h
    rw [List.length_cons, repeatTimes,
      bind_of_ok (hstep item List.mem_cons_self pos hitem),
      ih (fun other hother ↦ hstep other (List.mem_cons_of_mem item hother)) hrest,
      List.length_append, Nat.add_assoc]

/-- The elements of an array of fixed width have as many bytes as their number says. -/
theorem length_flatten_of_width {items : List (List UInt8)} {width : ℕ}
    (h : ∀ item ∈ items, item.length = width) : items.flatten.length = items.length * width := by
  induction items with
  | nil => exact (Nat.zero_mul width).symm
  | cons item rest ih =>
    rw [List.flatten_cons, List.length_append, h item List.mem_cons_self,
      ih fun other hother ↦ h other (List.mem_cons_of_mem item hother), List.length_cons,
      Nat.add_one_mul, Nat.add_comm]

theorem skipValue_scalar (fuel : ℕ) {ty : GgufType} {width : ℕ} (h : ty.width = some width) :
    skipValue file (fuel + 1) ty.code = seekForward file width := by
  cases ty <;> cases h <;> rfl

theorem skipValue_string (fuel : ℕ) : skipValue file (fuel + 1) GgufType.string.code =
    readU64 file >>= seekForward file := rfl

def skipElements (file : GgufFile) (fuel element count : ℕ) : Reader Unit :=
  match fixedWidth element with
  | some width => seekForward file (saturatingMul count width)
  | none => repeatTimes count (skipValue file fuel element)

theorem skipValue_array (fuel : ℕ) : skipValue file (fuel + 1) GgufType.array.code =
    readU32 file >>= fun element ↦ readU64 file >>= skipElements file fuel element := rfl

/-- The elements of an array are skipped to their end, if each of them is. -/
theorem skipElements_of_holds {fuel : ℕ} {element : GgufType} {items : List (List UInt8)}
    (hitems : ∀ item ∈ items, Encodes element item)
    (hskip : ∀ item ∈ items, ∀ pos, Holds file.data pos item →
      skipValue file fuel element.code pos = .ok ((), pos + item.length))
    (h : Holds file.data pos items.flatten) :
    skipElements file fuel element.code items.length pos =
      .ok ((), pos + items.flatten.length) := by
  unfold skipElements
  rw [element.fixedWidth_code]
  cases hwidth : element.width with
  | some width =>
    have hlength : items.flatten.length = items.length * width :=
      length_flatten_of_width fun item hitem ↦ (hitems item hitem).length_of_width hwidth
    have hle := h.length_le
    have hfile : file.data.length < 2 ^ 63 := lt_of_le_of_lt file.fits file.bounded
    have hsaturated : saturatingMul items.length width = items.flatten.length := by
      rw [saturatingMul, ← hlength]
      refine min_eq_left ?_
      rw [u64Max]
      omega
    dsimp only
    rw [hsaturated, seekForward_of_le hle]
  | none => exact repeatTimes_of_holds hskip h

/-- A value is skipped to its end. -/
theorem skipValue_of_encodes {ty : GgufType} {value : List UInt8} (h : Encodes ty value) :
    ∀ {fuel pos}, value.length < fuel → Holds file.data pos value →
      skipValue file fuel ty.code pos = .ok ((), pos + value.length) := by
  induction h with
  | @scalar ty width value hwidth hvalue =>
    intro fuel pos hfuel hholds
    obtain ⟨fuel, rfl⟩ := Nat.exists_eq_add_one_of_ne_zero (Nat.ne_zero_of_lt hfuel)
    have hseek := seekForward_of_le hholds.length_le
    rw [skipValue_scalar fuel hwidth, ← hvalue, hseek]
  | @string text hlength =>
    intro fuel pos hfuel hholds
    obtain ⟨fuel, rfl⟩ := Nat.exists_eq_add_one_of_ne_zero (Nat.ne_zero_of_lt hfuel)
    obtain ⟨hword, htext⟩ := holds_append_iff.mp hholds
    rw [length_leBytes] at htext
    rw [skipValue_string, bind_of_ok (readU64_leBytes hlength hword),
      seekForward_of_le htext.length_le, List.length_append, length_leBytes, ← Nat.add_assoc]
  | @array element items hcount hitems ih =>
    intro fuel pos hfuel hholds
    obtain ⟨fuel, rfl⟩ := Nat.exists_eq_add_one_of_ne_zero (Nat.ne_zero_of_lt hfuel)
    obtain ⟨hheader, hitemsHold⟩ := holds_append_iff.mp hholds
    obtain ⟨helement, hlength⟩ := holds_append_iff.mp hheader
    rw [length_leBytes] at hlength
    rw [List.length_append, length_leBytes, length_leBytes] at hitemsHold
    rw [List.length_append, List.length_append, length_leBytes, length_leBytes] at hfuel ⊢
    have hskip : ∀ item ∈ items, ∀ pos, Holds file.data pos item →
        skipValue file fuel element.code pos = .ok ((), pos + item.length) := by
      intro item hitem pos hheld
      have hle : item.length ≤ items.flatten.length := (List.sublist_flatten_of_mem hitem).length_le
      exact ih item hitem (by omega) hheld
    have hread : (readU64 file >>= skipElements file fuel element.code) (pos + 4) = _ :=
      bind_of_ok (readU64_leBytes hcount hlength)
    rw [skipValue_array, bind_of_ok (readU32_leBytes element.code_lt helement), hread,
      Nat.add_assoc, skipElements_of_holds hitems hskip hitemsHold, Nat.add_assoc]

/-! ## Entries -/

/-- An unsigned integer is read. -/
theorem readIntegerValue_of_encodes {ty : GgufType} {value : List UInt8} (h : Encodes ty value)
    (hunsigned : ty.isUnsigned = true) (hholds : Holds file.data pos value) :
    readIntegerValue file ty.code pos = .ok (some (leValue value), pos + value.length) := by
  have hread := readFixed_of_holds hholds
  cases ty with
  | uint8 =>
    rw [h.length_of_width rfl] at hread ⊢
    exact bind_of_ok hread
  | uint16 =>
    rw [h.length_of_width rfl] at hread ⊢
    exact bind_of_ok hread
  | uint32 =>
    rw [h.length_of_width rfl] at hread ⊢
    exact bind_of_ok hread
  | uint64 =>
    rw [h.length_of_width rfl] at hread ⊢
    exact bind_of_ok hread
  | _ => exact absurd hunsigned Bool.false_ne_true

/-- What reading an entry gives: its key, and its value if it is wanted. -/
def GgufEntry.result (entry : GgufEntry) : String × Option ℕ :=
  (entry.key, if wanted entry.key then some (leValue entry.value) else none)

/-- Behind the key and the type of an entry, its value is read if it is wanted, and skipped if it is
not. -/
theorem readEntry_of_front {entry : GgufEntry} (fuel : ℕ)
    (h : Holds file.data pos (leBytes 8 (bytes entry.key).length ++ bytes entry.key ++
      leBytes 4 entry.type.code)) :
    readEntry file fuel pos =
      (if wanted entry.key then
        (readIntegerValue file entry.type.code >>= fun value ↦ pure (entry.key, value))
      else (skipValue file fuel entry.type.code >>= fun _ ↦ pure (entry.key, none)))
        (pos + (leBytes 8 (bytes entry.key).length ++ bytes entry.key).length + 4) := by
  obtain ⟨hkey, htype⟩ := holds_append_iff.mp h
  unfold readEntry
  rw [bind_of_ok (readString_of_holds entry.short hkey),
    bind_of_ok (readU32_leBytes entry.type.code_lt htype)]

theorem GgufEntry.length_encoding (entry : GgufEntry) : entry.encoding.length =
    (leBytes 8 (bytes entry.key).length ++ bytes entry.key).length + 4 + entry.value.length := by
  rw [GgufEntry.encoding, List.length_append, List.length_append, length_leBytes]

/-- An entry is read to its end. -/
theorem readEntry_of_holds {entry : GgufEntry} {fuel : ℕ}
    (hwanted : wanted entry.key = true → entry.type.isUnsigned = true)
    (hfuel : file.data.length < fuel) (h : Holds file.data pos entry.encoding) :
    readEntry file fuel pos = .ok (entry.result, pos + entry.encoding.length) := by
  obtain ⟨hfront, hvalue⟩ := holds_append_iff.mp h
  rw [List.length_append, length_leBytes, ← Nat.add_assoc] at hvalue
  rw [readEntry_of_front fuel hfront, entry.length_encoding, GgufEntry.result]
  by_cases hw : wanted entry.key = true
  · rw [if_pos hw, if_pos hw,
      bind_of_ok (readIntegerValue_of_encodes entry.encodes (hwanted hw) hvalue)]
    simp only [Nat.add_assoc]
    rfl
  · have hle := hvalue.length_le
    rw [if_neg hw, if_neg hw, bind_of_ok (skipValue_of_encodes entry.encodes (by omega) hvalue)]
    simp only [Nat.add_assoc]
    rfl

/-! ## The five wanted values -/

inductive Field where
  | context
  | layers
  | kvHeads
  | heads
  | embedding
deriving DecidableEq

/-- What the keys of a wanted value end with. -/
def Field.suffix : Field → String
  | context => ".context_length"
  | layers => ".block_count"
  | kvHeads => ".attention.head_count_kv"
  | heads => ".attention.head_count"
  | embedding => ".embedding_length"

def Found.get (found : Found) : Field → Option UInt32
  | .context => found.context
  | .layers => found.layers
  | .kvHeads => found.kvHeads
  | .heads => found.heads
  | .embedding => found.embedding

/-- No key ends as two wanted values do. -/
theorem field_unique {key : String} {f g : Field} (hf : endsWith key f.suffix = true)
    (hg : endsWith key g.suffix = true) : f = g := by
  have hends : f.suffix.toList <:+ g.suffix.toList ∨ g.suffix.toList <:+ f.suffix.toList :=
    List.suffix_or_suffix_of_suffix (List.isSuffixOf_iff_suffix.mp hf)
      (List.isSuffixOf_iff_suffix.mp hg)
  cases f <;> cases g <;> first | rfl | exact absurd hends (by decide)

theorem wanted_iff {key : String} :
    wanted key = true ↔ ∃ f : Field, endsWith key f.suffix = true := by
  unfold wanted
  simp only [Bool.or_eq_true]
  constructor
  · rintro ((((h | h) | h) | h) | h)
    · exact ⟨.context, h⟩
    · exact ⟨.layers, h⟩
    · exact ⟨.heads, h⟩
    · exact ⟨.kvHeads, h⟩
    · exact ⟨.embedding, h⟩
  · rintro ⟨f, h⟩
    cases f with
    | context => exact .inl (.inl (.inl (.inl h)))
    | layers => exact .inl (.inl (.inl (.inr h)))
    | heads => exact .inl (.inl (.inr h))
    | kvHeads => exact .inl (.inr h)
    | embedding => exact .inr h

def Found.set (found : Found) (value : Option UInt32) : Field → Found
  | .context => { found with context := value }
  | .layers => { found with layers := value }
  | .kvHeads => { found with kvHeads := value }
  | .heads => { found with heads := value }
  | .embedding => { found with embedding := value }

theorem Found.get_set (found : Found) (value : Option UInt32) (f g : Field) :
    (found.set value g).get f = if f = g then value else found.get f := by
  cases f <;> cases g <;> rfl

theorem record_eq (found : Found) (key : String) (value : Option ℕ) :
    found.record key value =
      if endsWith key Field.context.suffix then found.set (value.bind toU32) .context
      else if endsWith key Field.layers.suffix then found.set (value.bind toU32) .layers
      else if endsWith key Field.kvHeads.suffix then found.set (value.bind toU32) .kvHeads
      else if endsWith key Field.heads.suffix then found.set (value.bind toU32) .heads
      else if endsWith key Field.embedding.suffix then found.set (value.bind toU32) .embedding
      else found := rfl

theorem record_of_endsWith (found : Found) {key : String} {g : Field}
    (hg : endsWith key g.suffix = true) (value : Option ℕ) :
    found.record key value = found.set (value.bind toU32) g := by
  have hother : ∀ f : Field, f ≠ g → ¬ endsWith key f.suffix = true :=
    fun f hne hf ↦ hne (field_unique hf hg)
  rw [record_eq]
  cases g with
  | context => rw [if_pos hg]
  | layers => rw [if_neg (hother .context nofun), if_pos hg]
  | kvHeads => rw [if_neg (hother .context nofun), if_neg (hother .layers nofun), if_pos hg]
  | heads =>
    rw [if_neg (hother .context nofun), if_neg (hother .layers nofun),
      if_neg (hother .kvHeads nofun), if_pos hg]
  | embedding =>
    rw [if_neg (hother .context nofun), if_neg (hother .layers nofun),
      if_neg (hother .kvHeads nofun), if_neg (hother .heads nofun), if_pos hg]

theorem record_of_not_wanted (found : Found) {key : String} (h : ¬ wanted key = true)
    (value : Option ℕ) : found.record key value = found := by
  have hnone : ∀ f : Field, ¬ endsWith key f.suffix = true :=
    fun f hf ↦ h (wanted_iff.mpr ⟨f, hf⟩)
  rw [record_eq, if_neg (hnone .context), if_neg (hnone .layers), if_neg (hnone .kvHeads),
    if_neg (hnone .heads), if_neg (hnone .embedding)]

/-- An entry sets the value that its key is wanted for, and no other. -/
theorem get_record (found : Found) (key : String) (value : Option ℕ) (f : Field) :
    (found.record key value).get f =
      if endsWith key f.suffix then value.bind toU32 else found.get f := by
  by_cases hw : wanted key = true
  · obtain ⟨g, hg⟩ := wanted_iff.mp hw
    rw [record_of_endsWith found hg, Found.get_set]
    by_cases heq : f = g
    · subst heq
      rw [if_pos rfl, if_pos hg]
    · rw [if_neg heq, if_neg fun hf ↦ heq (field_unique hf hg)]
  · rw [record_of_not_wanted found hw, if_neg fun hf ↦ hw (wanted_iff.mpr ⟨f, hf⟩)]

theorem complete_of_missing {found : Found} {f : Field} (h : found.get f = none) :
    found.complete = none := by
  obtain ⟨context, layers, heads, kvHeads, embedding⟩ := found
  unfold Found.complete
  split
  · rename_i heq
    cases heq
    cases f <;> exact absurd h nofun
  · rfl

/-- The values known are complete if the heads divide the embedding. -/
theorem complete_of_all {found : Found} {expected : Field → UInt32}
    (h : ∀ f, found.get f = some (expected f)) (hheads : 0 < expected .heads)
    (hdvd : expected .embedding % expected .heads = 0) :
    found.complete = some ⟨expected .context, expected .layers, expected .kvHeads,
      expected .embedding / expected .heads⟩ := by
  obtain ⟨context, layers, heads, kvHeads, embedding⟩ := found
  obtain rfl : context = some (expected .context) := h .context
  obtain rfl : layers = some (expected .layers) := h .layers
  obtain rfl : heads = some (expected .heads) := h .heads
  obtain rfl : kvHeads = some (expected .kvHeads) := h .kvHeads
  obtain rfl : embedding = some (expected .embedding) := h .embedding
  exact if_pos ⟨hheads, hdvd⟩

/-! ## Inspection of a section -/

/-- Whether an entry has been seen whose key is wanted for a value. -/
def seen (entries : List GgufEntry) (f : Field) : Bool :=
  entries.any fun entry ↦ endsWith entry.key f.suffix

/-- The values seen are known, and no others. -/
def Knows (entries : List GgufEntry) (expected : Field → UInt32) (found : Found) : Prop :=
  ∀ f, found.get f = if seen entries f then some (expected f) else none

variable {entries : List GgufEntry} {expected : Field → UInt32}

/-- The entry that a value is wanted from gives the value. -/
theorem OnceAs.value_of_mem {suffix : String} {n : UInt32} (h : OnceAs entries suffix n)
    {entry : GgufEntry} (hmem : entry ∈ entries) (hends : endsWith entry.key suffix = true) :
    entry.type.isUnsigned = true ∧ leValue entry.value = n.toNat := by
  obtain ⟨sole, hfilter, hsole⟩ := h
  have : entry ∈ [sole] := hfilter ▸ List.mem_filter.mpr ⟨hmem, hends⟩
  rwa [List.mem_singleton.mp this]

theorem toU32_toNat (n : UInt32) : toU32 n.toNat = some n := by
  unfold toU32
  rw [dif_pos n.toNat_lt]
  exact congrArg some (UInt32.toNat_inj.mp UInt32.toNat_ofNatLT)

/-- What is known after one more entry. -/
theorem Knows.step (honce : ∀ f : Field, OnceAs entries f.suffix (expected f))
    {done : List GgufEntry} {entry : GgufEntry} (hmem : entry ∈ entries) {found : Found}
    (h : Knows done expected found) :
    Knows (done ++ [entry]) expected (found.record entry.key entry.result.2) := by
  intro f
  rw [get_record, seen, List.any_append, List.any_cons, List.any_nil, Bool.or_false]
  by_cases hends : endsWith entry.key f.suffix = true
  · have hw : wanted entry.key = true := wanted_iff.mpr ⟨f, hends⟩
    rw [if_pos hends, hends, Bool.or_true, if_pos rfl, GgufEntry.result]
    dsimp only
    rw [if_pos hw, Option.bind_some, ((honce f).value_of_mem hmem hends).2, toU32_toNat]
  · rw [if_neg hends, Bool.eq_false_iff.mpr hends, Bool.or_false]
    exact h f

/-- From any point of a section at which a value is still unknown, the rest of the entries gives the
result. -/
theorem inspectEntries_of_holds (honce : ∀ f : Field, OnceAs entries f.suffix (expected f))
    (hheads : 0 < expected .heads) (hdvd : expected .embedding % expected .heads = 0) {fuel : ℕ}
    (hfuel : file.data.length < fuel) {done rest : List GgufEntry} (hsplit : entries = done ++ rest)
    {found : Found} (hknows : Knows done expected found) (hmissing : ∃ f, seen done f = false)
    (h : Holds file.data pos (rest.flatMap GgufEntry.encoding)) :
    ∃ pos', inspectEntries file fuel rest.length found pos =
      .ok (some ⟨expected .context, expected .layers, expected .kvHeads,
        expected .embedding / expected .heads⟩, pos') := by
  induction rest generalizing done found pos with
  | nil =>
    -- Every value is seen by the end.
    obtain ⟨f, hf⟩ := hmissing
    obtain ⟨sole, hfilter, -⟩ := honce f
    have hsole := List.mem_filter.mp (hfilter ▸ List.mem_singleton_self sole)
    rw [hsplit, List.append_nil] at hsole
    exact absurd (List.any_eq_true.mpr ⟨sole, hsole⟩) (by rw [← seen, hf]; exact Bool.false_ne_true)
  | cons entry rest ih =>
    have hmem : entry ∈ entries := by
      rw [hsplit]
      exact List.mem_append_right done List.mem_cons_self
    have hunsigned : wanted entry.key = true → entry.type.isUnsigned = true := by
      intro hw
      obtain ⟨f, hends⟩ := wanted_iff.mp hw
      exact ((honce f).value_of_mem hmem hends).1
    rw [List.flatMap_cons] at h
    obtain ⟨hentry, hrest⟩ := holds_append_iff.mp h
    have hnext := hknows.step honce hmem
    rw [List.length_cons, inspectEntries, bind_of_ok (readEntry_of_holds hunsigned hfuel hentry)]
    dsimp only
    rw [show (entry.result.1 : String) = entry.key from rfl]
    by_cases hall : ∀ f, seen (done ++ [entry]) f = true
    · rw [complete_of_all (fun f ↦ (hnext f).trans (if_pos (hall f))) hheads hdvd]
      exact ⟨_, rfl⟩
    · obtain ⟨f, hf⟩ := not_forall.mp hall
      rw [complete_of_missing ((hnext f).trans (if_neg hf))]
      exact ih (by rw [hsplit, List.append_assoc, List.singleton_append]) hnext
        ⟨f, Bool.eq_false_iff.mpr hf⟩ hrest

/-- Behind the header of a section the inspection comes to its entries. -/
theorem inspect_of_section {sec : GgufSection} (hsec : sec.encoding <+: file.data) :
    ∃ pos, Holds file.data pos (sec.entries.flatMap GgufEntry.encoding) ∧
      inspect file 0 = inspectEntries file (file.data.length + 1) sec.entries.length
        ⟨none, none, none, none, none⟩ pos := by
  obtain ⟨hheader, hentries⟩ := holds_append_iff.mp (holds_zero hsec)
  obtain ⟨hfront, hlisted⟩ := holds_append_iff.mp hheader
  obtain ⟨hstart, htensors⟩ := holds_append_iff.mp hfront
  obtain ⟨hmagic, hversion⟩ := holds_append_iff.mp hstart
  have hmagicLength : (bytes "GGUF").length = 4 := by decide
  simp only [List.length_append, length_leBytes, hmagicLength, Nat.zero_add] at hversion htensors
  simp only [List.length_append, length_leBytes, hmagicLength, Nat.zero_add] at hlisted hentries
  have hread : readExact file 4 0 = .ok (bytes "GGUF", 4) := by
    have := readExact_of_holds hmagic
    rwa [hmagicLength, Nat.zero_add] at this
  have hsmall : sec.version < 256 ^ 4 := by
    rcases sec.supported with h | h <;> rw [h] <;> decide
  have hknown : 2 ≤ sec.version ∧ sec.version ≤ 3 := by
    rcases sec.supported with h | h <;> rw [h] <;> decide
  refine ⟨_, hentries, ?_⟩
  unfold inspect
  rw [bind_of_ok hread, if_neg (not_not_intro rfl), bind_of_ok (readU32_leBytes hsmall hversion),
    if_neg (not_not_intro hknown), bind_of_ok (readU64_leBytes sec.counted htensors),
    bind_of_ok (readU64_leBytes sec.listed hlisted)]

/-- What a section declares of its model is what inspection returns. -/
theorem inspectGguf_returns {sec : GgufSection} (hsec : sec.encoding <+: file.data)
    {context layers heads kvHeads embedding : UInt32}
    (hcontext : OnceAs sec.entries ".context_length" context)
    (hlayers : OnceAs sec.entries ".block_count" layers)
    (hheads : OnceAs sec.entries ".attention.head_count" heads)
    (hkvHeads : OnceAs sec.entries ".attention.head_count_kv" kvHeads)
    (hembedding : OnceAs sec.entries ".embedding_length" embedding)
    (hpos : 0 < heads) (hdvd : heads.toNat ∣ embedding.toNat) :
    inspectGguf file = .ok (some ⟨context, layers, kvHeads, embedding / heads⟩) := by
  let expected : Field → UInt32
    | .context => context
    | .layers => layers
    | .kvHeads => kvHeads
    | .heads => heads
    | .embedding => embedding
  have honce : ∀ f : Field, OnceAs sec.entries f.suffix (expected f) := by
    intro f
    cases f with
    | context => exact hcontext
    | layers => exact hlayers
    | kvHeads => exact hkvHeads
    | heads => exact hheads
    | embedding => exact hembedding
  have hmod : expected .embedding % expected .heads = 0 := by
    rw [← UInt32.toNat_inj, UInt32.toNat_mod]
    exact Nat.mod_eq_zero_of_dvd hdvd
  have hknows : Knows [] expected ⟨none, none, none, none, none⟩ := by
    intro f
    cases f <;> rfl
  obtain ⟨pos, hentries, hinspect⟩ := inspect_of_section hsec
  obtain ⟨pos', hpos'⟩ := inspectEntries_of_holds honce hpos hmod (Nat.lt_succ_self _)
    (List.nil_append sec.entries).symm hknows ⟨.context, rfl⟩ hentries
  unfold inspectGguf
  rw [hinspect, hpos']
  rfl

def wordEntry (key : String) (short : (bytes key).length ≤ 65535) (n : UInt32) : GgufEntry where
  key := key
  short := short
  type := .uint32
  value := leBytes 4 n.toNat
  encodes := .scalar rfl (length_leBytes 4 n.toNat)

/-- An array of three bytes and an empty one. -/
def nestedItems : List (List UInt8) :=
  [leBytes 4 GgufType.uint8.code ++ leBytes 8 3 ++ [1, 2, 3],
    leBytes 4 GgufType.uint8.code ++ leBytes 8 0]

theorem encodes_nestedItems : ∀ item ∈ nestedItems, Encodes .array item := by
  have hbytes : ∀ item ∈ [[1], [2], [3]], Encodes .uint8 item := by
    intro item hitem
    simp only [List.mem_cons, List.not_mem_nil, or_false] at hitem
    rcases hitem with rfl | rfl | rfl <;> exact .scalar rfl rfl
  have hnone : ∀ item ∈ ([] : List (List UInt8)), Encodes .uint8 item := nofun
  intro item hitem
  simp only [nestedItems, List.mem_cons, List.not_mem_nil, or_false] at hitem
  rcases hitem with rfl | rfl
  · exact .array (by decide) hbytes
  · exact .array (by decide) hnone

def nestedEntry : GgufEntry where
  key := "tokenizer.merges"
  short := by decide +kernel
  type := .array
  value := leBytes 4 GgufType.array.code ++ leBytes 8 nestedItems.length ++ nestedItems.flatten
  encodes := .array (by decide) encodes_nestedItems

/-- A section with nested arrays, and a key for values among its wanted ones. -/
def sampleSection : GgufSection where
  version := 3
  supported := .inr rfl
  tensorCount := 291
  counted := by decide
  entries := [
    wordEntry "llama.attention.head_count_kv" (by decide +kernel) 8,
    nestedEntry,
    wordEntry "llama.embedding_length" (by decide +kernel) 5120,
    wordEntry "llama.attention.key_length" (by decide +kernel) 128,
    wordEntry "llama.attention.head_count" (by decide +kernel) 40,
    wordEntry "llama.block_count" (by decide +kernel) 48,
    wordEntry "llama.context_length" (by decide +kernel) 32768]
  listed := by decide

/-- A file that is the section and a byte behind it. -/
def sampleFile : GgufFile where
  data := sampleSection.encoding ++ [0]
  maxOffset := 2 ^ 62
  fits := by decide +kernel
  bounded := by decide

theorem inspectGguf_returns_sample :
    inspectGguf sampleFile = .ok (some ⟨32768, 48, 8, 5120 / 40⟩) :=
  inspectGguf_returns (List.prefix_append sampleSection.encoding [0])
    ⟨wordEntry "llama.context_length" (by decide +kernel) 32768, rfl, rfl, by decide⟩
    ⟨wordEntry "llama.block_count" (by decide +kernel) 48, rfl, rfl, by decide⟩
    ⟨wordEntry "llama.attention.head_count" (by decide +kernel) 40, rfl, rfl, by decide⟩
    ⟨wordEntry "llama.attention.head_count_kv" (by decide +kernel) 8, rfl, rfl, by decide⟩
    ⟨wordEntry "llama.embedding_length" (by decide +kernel) 5120, rfl, rfl, by decide⟩
    (by decide) (by decide)

end Cameo.Models
