import Cameo.Address
import Mathlib.Data.List.TakeWhile
import Mathlib.Tactic.Ring

/-!
# The guard of callback addresses

The hub calls a node at the address that the node gives.  The guard reads the host of that address
with the parsers of the standard library, which take an IPv4 address in one spelling; whoever dials
it also takes numbers in hexadecimal and octal, fewer than four of them, and IPv4 addresses inside
of IPv6 ones.
-/

namespace Cameo

/-! ## What a resolver dials -/

def readWhole (base : ℕ) (text : List Char) : Option ℕ :=
  if text ≠ [] ∧ text.all fun c ↦ (digitOf base c).isSome then some (valueOf base text) else none

/-- A part of an IPv4 address, as C writes numbers: in hexadecimal after `0x`, in octal after
another leading zero, and in decimal otherwise. -/
def inetPart : List Char → Option ℕ
  | '0' :: 'x' :: digits | '0' :: 'X' :: digits => readWhole 16 digits
  | '0' :: c :: digits => readWhole 8 (c :: digits)
  | digits => readWhole 10 digits

/-- The address of up to four parts: all but the last are a byte each, and the last has the bytes
that remain. -/
def joinParts : List ℕ → Option ℕ
  | [a] => if a < 2 ^ 32 then some a else none
  | [a, b] => if a < 2 ^ 8 ∧ b < 2 ^ 24 then some (a * 2 ^ 24 + b) else none
  | [a, b, c] =>
    if a < 2 ^ 8 ∧ b < 2 ^ 8 ∧ c < 2 ^ 16 then some (a * 2 ^ 24 + b * 2 ^ 16 + c) else none
  | [a, b, c, d] =>
    if a < 2 ^ 8 ∧ b < 2 ^ 8 ∧ c < 2 ^ 8 ∧ d < 2 ^ 8 then
      some (a * 2 ^ 24 + b * 2 ^ 16 + c * 2 ^ 8 + d)
    else none
  | _ => none

/-- `inet_aton`: the IPv4 address that a text spells, as a number. -/
def inetAton (host : List Char) : Option ℕ := ((host.splitOn '.').mapM inetPart).bind joinParts

def Ipv4Addr.ofNat (n : ℕ) : Ipv4Addr :=
  ⟨.ofNat (n / 2 ^ 24), .ofNat (n / 2 ^ 16), .ofNat (n / 2 ^ 8), .ofNat n⟩

def Ipv4Addr.toNat (ip : Ipv4Addr) : ℕ :=
  ip.a.toNat * 2 ^ 24 + ip.b.toNat * 2 ^ 16 + ip.c.toNat * 2 ^ 8 + ip.d.toNat

/-- Where packets to an IPv6 address go: to the IPv4 address in it, if there is one. -/
def unmapped : Ipv6Addr → IpAddr
  | [0, 0, 0, 0, 0, 0xffff, high, low] => .v4 (.ofNat (high * 2 ^ 16 + low))
  | groups => .v6 groups

/-- The address that is dialed for a host, if the host spells one.  Percent-encoded, globbed and
IDNA spellings are not read. -/
def dialed (host : List Char) : Option IpAddr :=
  match Ipv6Addr.parse host with
  | some groups => some (unmapped groups)
  | none => (inetAton host).map fun n ↦ .v4 (.ofNat n)

/-- The link-local and the unspecified addresses. -/
def IpAddr.isForbidden : IpAddr → Bool
  | .v4 ip => ip.isLinkLocal || ip.isUnspecified
  | .v6 ip => ip.all (· = 0) || (ip.headD 0) / 64 = 0xfe80 / 64

example : dialed "0xa9.0376.43518".toList = some (.v4 ⟨169, 254, 169, 254⟩) := by decide

/-! ## The bytes of an address -/

theorem Ipv4Addr.ofNat_toNat (ip : Ipv4Addr) : Ipv4Addr.ofNat ip.toNat = ip := by
  have ha := ip.a.toNat_lt
  have hb := ip.b.toNat_lt
  have hc := ip.c.toNat_lt
  have hd := ip.d.toNat_lt
  have hbyte {byte : UInt8} {n : ℕ} (h : n % 2 ^ 8 = byte.toNat) : UInt8.ofNat n = byte := by
    apply UInt8.toNat_inj.mp
    rw [UInt8.toNat_ofNat', h]
  unfold ofNat toNat
  congr 1
  · exact hbyte (by omega)
  · exact hbyte (by omega)
  · exact hbyte (by omega)
  · exact hbyte (by omega)

/-- A number is that of a forbidden address when it is zero or its upper half is `169.254`. -/
theorem isForbidden_ofNat {n : ℕ} (hn : n < 2 ^ 32) :
    (IpAddr.v4 (.ofNat n)).isForbidden = false ↔ n ≠ 0 ∧ n / 2 ^ 16 ≠ 0xa9fe := by
  have hbyte (m : ℕ) (byte : UInt8) : UInt8.ofNat m = byte ↔ m % 2 ^ 8 = byte.toNat := by
    rw [← UInt8.toNat_inj, UInt8.toNat_ofNat']
  unfold IpAddr.isForbidden Ipv4Addr.isLinkLocal Ipv4Addr.isUnspecified Ipv4Addr.ofNat
  simp only [Bool.or_eq_false_iff, Bool.and_eq_false_iff, decide_eq_false_iff_not,
    Ipv4Addr.mk.injEq, hbyte]
  have hlocal : (169 : UInt8).toNat = 169 ∧ (254 : UInt8).toNat = 254 ∧ (0 : UInt8).toNat = 0 := by
    decide
  obtain ⟨h169, h254, hzero⟩ := hlocal
  rw [h169, h254, hzero]
  omega

/-! ## What the parsers of the standard library read -/

theorem valueOf_lt {base : ℕ} (hbase : 0 < base) (digits : List Char) :
    valueOf base digits < base ^ digits.length := by
  have hdigit (c : Char) : (digitOf base c).getD 0 < base := by
    cases h : digitOf base c with
    | none => exact hbase
    | some value => exact of_decide_eq_true (Option.filter_eq_some_iff.mp h).2
  have hfold (n : ℕ) : digits.foldl (fun n c ↦ base * n + (digitOf base c).getD 0) n <
      (n + 1) * base ^ digits.length := by
    induction digits generalizing n with
    | nil => simp
    | cons c digits ih =>
      have hc := hdigit c
      calc digits.foldl (fun n c ↦ base * n + (digitOf base c).getD 0)
            (base * n + (digitOf base c).getD 0)
          < (base * n + (digitOf base c).getD 0 + 1) * base ^ digits.length := ih _
        _ ≤ (base * n + base) * base ^ digits.length := Nat.mul_le_mul_right _ (by omega)
        _ = (n + 1) * base ^ (digits.length + 1) := by ring
  simpa [valueOf] using hfold 0

/-- A number is the digits at the beginning of the text. -/
theorem readNumber_eq_some {base maxDigits : ℕ} {allowZeroPrefix : Bool} {text rest : List Char}
    {n : ℕ} (h : readNumber base maxDigits allowZeroPrefix text = some (n, rest)) :
    ∃ digits, text = digits ++ rest ∧ digits ≠ [] ∧ digits.length ≤ maxDigits ∧
      (∀ c ∈ digits, (digitOf base c).isSome = true) ∧ n = valueOf base digits ∧
      (allowZeroPrefix = false → digits.head? = some '0' → digits.length = 1) := by
  unfold readNumber at h
  dsimp only at h
  split at h
  · cases h
  · rename_i hgood
    simp only [not_or, not_and, not_lt] at hgood
    obtain ⟨hne, hlength, hzero⟩ := hgood
    obtain ⟨rfl, rfl⟩ := Prod.mk.inj (Option.some.inj h)
    refine ⟨text.takeWhile fun c ↦ (digitOf base c).isSome,
      (List.prefix_iff_eq_append.mp (List.takeWhile_prefix _)).symm, hne, hlength, ?_, rfl, ?_⟩
    · exact fun c hc ↦ List.mem_takeWhile_imp (p := fun c ↦ (digitOf base c).isSome) hc
    · intro hstrict hhead
      have hone := hzero (by simp [hstrict]) hhead
      have hpos := List.length_pos_of_ne_nil hne
      omega

theorem readChar_eq_some {c : Char} {text rest : List Char} (h : readChar c text = some rest) :
    text = c :: rest := by
  cases text with
  | nil => cases h
  | cons head tail =>
    by_cases hhead : head = c
    · rw [readChar, if_pos hhead] at h
      rw [hhead, Option.some.inj h]
    · rw [readChar, if_neg hhead] at h
      cases h

/-- A part as the parsers of the standard library take it is one of `inet_aton`. -/
theorem inetPart_decimal {digits : List Char} (hne : digits ≠ [])
    (hdigits : ∀ c ∈ digits, (digitOf 10 c).isSome = true)
    (hzero : digits.head? = some '0' → digits.length = 1) :
    inetPart digits = some (valueOf 10 digits) := by
  have hwhole : inetPart digits = readWhole 10 digits := by
    unfold inetPart
    split
    · cases hzero rfl
    · cases hzero rfl
    · cases hzero rfl
    · rfl
  rw [hwhole, readWhole, if_pos ⟨hne, List.all_eq_true.mpr hdigits⟩]

theorem readOctet_eq_some {text rest : List Char} {octet : UInt8}
    (h : readOctet text = some (octet, rest)) :
    ∃ part, text = part ++ rest ∧ inetPart part = some octet.toNat ∧ '.' ∉ part := by
  obtain ⟨⟨n, rest'⟩, hnumber, hoctet⟩ := Option.bind_eq_some_iff.mp h
  split at hoctet
  · rename_i hn
    obtain ⟨rfl, rfl⟩ := Prod.mk.inj (Option.some.inj hoctet)
    obtain ⟨digits, rfl, hne, -, hdigits, rfl, hzero⟩ := readNumber_eq_some hnumber
    refine ⟨digits, rfl, ?_, fun hdot ↦ ?_⟩
    · rw [inetPart_decimal hne hdigits (hzero rfl), UInt8.toNat_ofNatLT]
    · exact absurd (hdigits '.' hdot) (by decide)
  · cases hoctet

/-- A dotted address is four parts. -/
theorem readIpv4_eq_some {text rest : List Char} {ip : Ipv4Addr}
    (h : readIpv4 text = some (ip, rest)) :
    ∃ a b c d, text = a ++ '.' :: (b ++ '.' :: (c ++ '.' :: (d ++ rest))) ∧
      inetPart a = some ip.a.toNat ∧ inetPart b = some ip.b.toNat ∧
      inetPart c = some ip.c.toNat ∧ inetPart d = some ip.d.toNat ∧
      '.' ∉ a ∧ '.' ∉ b ∧ '.' ∉ c ∧ '.' ∉ d := by
  unfold readIpv4 at h
  simp only [Option.bind_eq_bind, Option.bind_eq_some_iff, Prod.exists, Option.pure_def,
    Option.some.injEq, Prod.mk.injEq] at h
  obtain ⟨a, afterA, ha, dotA, hdotA, b, afterB, hb, dotB, hdotB, c, afterC, hc, dotC, hdotC, d,
    afterD, hd, rfl, rfl⟩ := h
  obtain ⟨partA, rfl, hpartA, hfreeA⟩ := readOctet_eq_some ha
  obtain rfl := readChar_eq_some hdotA
  obtain ⟨partB, rfl, hpartB, hfreeB⟩ := readOctet_eq_some hb
  obtain rfl := readChar_eq_some hdotB
  obtain ⟨partC, rfl, hpartC, hfreeC⟩ := readOctet_eq_some hc
  obtain rfl := readChar_eq_some hdotC
  obtain ⟨partD, rfl, hpartD, hfreeD⟩ := readOctet_eq_some hd
  exact ⟨partA, partB, partC, partD, rfl, hpartA, hpartB, hpartC, hpartD, hfreeA, hfreeB, hfreeC,
    hfreeD⟩

/-- `inet_aton` reads a dotted address as the standard library does. -/
theorem inetAton_of_parse {host : List Char} {ip : Ipv4Addr} (h : Ipv4Addr.parse host = some ip) :
    inetAton host = some ip.toNat := by
  obtain ⟨⟨ip', rest⟩, hread, hrest⟩ := Option.bind_eq_some_iff.mp h
  split at hrest
  · rename_i hempty
    obtain rfl := Option.some.inj hrest
    obtain ⟨a, b, c, d, hhost, ha, hb, hc, hd, hfreeA, hfreeB, hfreeC, hfreeD⟩ :=
      readIpv4_eq_some hread
    rw [show rest = [] from hempty, List.append_nil] at hhost
    have hsplit : host.splitOn '.' = [a, b, c, d] := by
      rw [hhost, List.splitOn_append_cons_self_of_not_mem hfreeA,
        List.splitOn_append_cons_self_of_not_mem hfreeB,
        List.splitOn_append_cons_self_of_not_mem hfreeC, List.splitOn_eq_singleton hfreeD]
    have hparts : [a, b, c, d].mapM inetPart =
        some [ip'.a.toNat, ip'.b.toNat, ip'.c.toNat, ip'.d.toNat] := by
      simp [ha, hb, hc, hd]
    rw [inetAton, hsplit, hparts, Option.bind_some, joinParts,
      if_pos ⟨ip'.a.toNat_lt, ip'.b.toNat_lt, ip'.c.toNat_lt, ip'.d.toNat_lt⟩]
    rfl
  · cases hrest

/-! ## What has colons -/

theorem readGroups_suffix (limit : ℕ) (first : Bool) (text : List Char) :
    (readGroups limit first text).rest <:+ text := by
  induction limit generalizing first text with
  | zero => exact List.suffix_rfl
  | succ limit ih =>
    have hstart {start : List Char} (h : (if first then some text else readChar ':' text) =
        some start) : start <:+ text := by
      cases first with
      | true =>
        obtain rfl := Option.some.inj h
        exact List.suffix_rfl
      | false =>
        rw [readChar_eq_some h]
        exact List.suffix_cons _ _
    unfold readGroups
    dsimp only
    split
    · rename_i ip rest hdotted
      split at hdotted
      · obtain ⟨start, hsome, hread⟩ := Option.bind_eq_some_iff.mp hdotted
        obtain ⟨a, b, c, d, rfl, -⟩ := readIpv4_eq_some hread
        refine List.IsSuffix.trans ⟨a ++ '.' :: (b ++ '.' :: (c ++ '.' :: d)), ?_⟩ (hstart hsome)
        simp
      · cases hdotted
    · split
      · rename_i value rest hnumber
        obtain ⟨start, hsome, hread⟩ := Option.bind_eq_some_iff.mp hnumber
        obtain ⟨digits, rfl, -⟩ := readNumber_eq_some hread
        exact ((ih false rest).trans (List.suffix_append digits rest)).trans (hstart hsome)
      · exact List.suffix_rfl

theorem lt_of_mem_readGroups {limit : ℕ} {first : Bool} {text : List Char} {value : ℕ}
    (h : value ∈ (readGroups limit first text).values) : value < 2 ^ 16 := by
  induction limit generalizing first text with
  | zero => cases h
  | succ limit ih =>
    unfold readGroups at h
    dsimp only at h
    split at h
    · rename_i ip rest hdotted
      have ha := ip.a.toNat_lt
      have hb := ip.b.toNat_lt
      have hc := ip.c.toNat_lt
      have hd := ip.d.toNat_lt
      simp only [Ipv4Addr.groups, List.mem_cons, List.not_mem_nil, or_false] at h
      omega
    · split at h
      · rename_i number rest hnumber
        obtain ⟨start, -, hread⟩ := Option.bind_eq_some_iff.mp hnumber
        obtain ⟨digits, -, -, hlength, -, rfl, -⟩ := readNumber_eq_some hread
        rcases List.mem_cons.mp h with rfl | hlater
        · calc valueOf 16 digits < 16 ^ digits.length := valueOf_lt (by decide) digits
            _ ≤ 16 ^ 4 := Nat.pow_le_pow_right (by decide) hlength
            _ = 2 ^ 16 := by decide
        · exact ih hlater
      · cases h

/-- Groups after the first one have a colon before them. -/
theorem colon_mem_of_later_groups {limit : ℕ} {text : List Char}
    (h : (readGroups limit false text).values ≠ []) : ':' ∈ text := by
  cases limit with
  | zero => exact absurd rfl h
  | succ limit =>
    cases hcolon : readChar ':' text with
    | some rest =>
      rw [readChar_eq_some hcolon]
      exact List.mem_cons_self
    | none =>
      refine absurd ?_ h
      unfold readGroups
      dsimp only
      rw [if_neg Bool.false_ne_true, hcolon]
      simp

/-- More groups than a dotted address stands for have a colon among them. -/
theorem colon_mem_of_groups {limit : ℕ} {text : List Char}
    (h : 2 < (readGroups limit true text).values.length) : ':' ∈ text := by
  cases limit with
  | zero => cases h
  | succ limit =>
    unfold readGroups at h
    dsimp only at h
    rw [if_pos rfl] at h
    split at h
    · exact absurd h (lt_irrefl 2)
    · split at h
      · rename_i value rest hnumber
        rw [Option.bind_some] at hnumber
        obtain ⟨digits, rfl, -⟩ := readNumber_eq_some hnumber
        refine List.mem_append_right _ (@colon_mem_of_later_groups limit _ ?_)
        intro hempty
        rw [hempty, List.length_singleton] at h
        omega
      · cases h

theorem colon_mem_of_parse {host : List Char} {groups : Ipv6Addr}
    (h : Ipv6Addr.parse host = some groups) : ':' ∈ host := by
  obtain ⟨read, hread, -⟩ := Option.bind_eq_some_iff.mp h
  unfold readIpv6 at hread
  dsimp only at hread
  split at hread
  · rename_i hlength
    have hmany : 2 < (readGroups 8 true host).values.length := by omega
    exact colon_mem_of_groups hmany
  · split at hread
    · cases hread
    · obtain ⟨second, hsecond, hread⟩ := Option.bind_eq_some_iff.mp hread
      refine (readGroups_suffix 8 true host).subset ?_
      rw [readChar_eq_some hsecond]
      exact List.mem_cons_self

theorem lt_of_mem_parse {host : List Char} {groups : Ipv6Addr}
    (h : Ipv6Addr.parse host = some groups) {value : ℕ} (hvalue : value ∈ groups) :
    value < 2 ^ 16 := by
  obtain ⟨read, hread, hgroups⟩ := Option.bind_eq_some_iff.mp h
  split at hgroups
  · obtain rfl := Option.some.inj hgroups
    unfold readIpv6 at hread
    dsimp only at hread
    split at hread
    · obtain rfl := Option.some.inj hread
      exact lt_of_mem_readGroups hvalue
    · split at hread
      · cases hread
      · obtain ⟨second, -, hread⟩ := Option.bind_eq_some_iff.mp hread
        obtain ⟨tail, -, hread⟩ := Option.bind_eq_some_iff.mp hread
        obtain rfl := Option.some.inj hread
        rcases List.mem_append.mp hvalue with hfront | htail
        · rcases List.mem_append.mp hfront with hhead | hzeros
          · exact lt_of_mem_readGroups hhead
          · rw [List.eq_of_mem_replicate hzeros]
            decide
        · exact lt_of_mem_readGroups htail
  · cases hgroups

theorem exists_mem_splitOn {c separator : Char} {text : List Char} (hmem : c ∈ text)
    (hne : c ≠ separator) : ∃ piece ∈ text.splitOn separator, c ∈ piece := by
  induction text with
  | nil => cases hmem
  | cons head rest ih =>
    rw [List.splitOn_cons_eq_if_modifyHead]
    cases hpieces : rest.splitOn separator with
    | nil => exact absurd hpieces (List.splitOn_ne_nil _ _)
    | cons first others =>
      rw [hpieces] at ih
      split
      · rename_i hhead
        rcases List.mem_cons.mp hmem with rfl | hrest
        · exact absurd (eq_of_beq hhead) hne
        · obtain ⟨piece, hpiece, hc⟩ := ih hrest
          exact ⟨piece, List.mem_cons_of_mem _ hpiece, hc⟩
      · rw [List.modifyHead_cons]
        rcases List.mem_cons.mp hmem with rfl | hrest
        · exact ⟨_, List.mem_cons_self, List.mem_cons_self⟩
        · obtain ⟨piece, hpiece, hc⟩ := ih hrest
          rcases List.mem_cons.mp hpiece with rfl | hothers
          · exact ⟨_, List.mem_cons_self, List.mem_cons_of_mem _ hc⟩
          · exact ⟨piece, List.mem_cons_of_mem _ hothers, hc⟩

theorem colon_not_mem_of_inetPart {part : List Char} {n : ℕ} (h : inetPart part = some n) :
    ':' ∉ part := by
  have hwhole {base : ℕ} {digits : List Char} (hbase : (digitOf base ':').isSome = false)
      (hread : readWhole base digits = some n) : ':' ∉ digits := by
    intro hcolon
    unfold readWhole at hread
    split at hread
    · rename_i hgood
      have hdigit := List.all_eq_true.mp hgood.2 ':' hcolon
      rw [hbase] at hdigit
      cases hdigit
    · cases hread
  unfold inetPart at h
  split at h
  · have hfree := hwhole (by decide) h
    simp [hfree]
  · have hfree := hwhole (by decide) h
    simp [hfree]
  · have hfree := hwhole (by decide) h
    exact fun hmem ↦ hfree ((List.mem_cons.mp hmem).resolve_left (by decide))
  · exact hwhole (by decide) h

/-- No IPv4 address has a colon. -/
theorem colon_not_mem_of_inetAton {host : List Char} {n : ℕ} (h : inetAton host = some n) :
    ':' ∉ host := by
  intro hcolon
  obtain ⟨parts, hparts, -⟩ := Option.bind_eq_some_iff.mp h
  obtain ⟨piece, hpiece, hmem⟩ := exists_mem_splitOn hcolon (show ':' ≠ '.' by decide)
  generalize host.splitOn '.' = pieces at hparts hpiece
  induction pieces generalizing parts with
  | nil => cases hpiece
  | cons first rest ih =>
    rw [List.mapM_cons] at hparts
    obtain ⟨value, hvalue, hparts⟩ := Option.bind_eq_some_iff.mp hparts
    obtain ⟨values, hvalues, -⟩ := Option.bind_eq_some_iff.mp hparts
    rcases List.mem_cons.mp hpiece with rfl | hrest
    · exact colon_not_mem_of_inetPart hvalue hmem
    · exact ih values hvalues hrest

theorem lt_of_inetAton {host : List Char} {n : ℕ} (h : inetAton host = some n) : n < 2 ^ 32 := by
  obtain ⟨parts, -, hjoin⟩ := Option.bind_eq_some_iff.mp h
  have hif {fits : Prop} [Decidable fits] {m : ℕ} (hm : fits → m < 2 ^ 32)
      (hite : (if fits then some m else none) = some n) : n < 2 ^ 32 := by
    split at hite
    · rename_i hfits
      obtain rfl := Option.some.inj hite
      exact hm hfits
    · cases hite
  unfold joinParts at hjoin
  split at hjoin
  · exact hif id hjoin
  · exact hif (by omega) hjoin
  · exact hif (by omega) hjoin
  · exact hif (by omega) hjoin
  · cases hjoin

/-! ## The guard -/

/-- The guard lets an address pass when it reads a host in it that is a name or an address that is
not forbidden. -/
theorem pushAddressOk_iff {address : String} : pushAddressOk address = true ↔
    ∃ host literal, (callbackAuthority address).bind hostOf = some host ∧
      parseIpLiteral host = some literal ∧ ∀ ip ∈ literal, ip.isForbidden = false := by
  unfold pushAddressOk
  cases hhost : (callbackAuthority address).bind hostOf with
  | none => simp
  | some host =>
    rw [Option.bind_some]
    simp only [Option.some.injEq, exists_and_left, exists_eq_left']
    cases hliteral : parseIpLiteral host with
    | none => simp
    | some literal =>
      cases literal with
      | none => simp
      | some ip => cases ip with
        | v4 ip => simp [IpAddr.isForbidden]
        | v6 ip => simp [IpAddr.isForbidden]

theorem IpAddr.parse_of_ipv4 {host : List Char} {ip : Ipv4Addr}
    (h : Ipv4Addr.parse host = some ip) : IpAddr.parse host = some (.v4 ip) := by
  obtain ⟨⟨ip', rest⟩, hread, hrest⟩ := Option.bind_eq_some_iff.mp h
  split at hrest
  · rename_i hempty
    obtain rfl := Option.some.inj hrest
    unfold IpAddr.parse
    rw [hread]
    exact if_pos hempty
  · cases hrest

/-- No text is read as an IPv4 address that spells an IPv6 one. -/
theorem IpAddr.parse_of_ipv6 {host : List Char} {groups : Ipv6Addr} {ip : IpAddr}
    (hgroups : Ipv6Addr.parse host = some groups) (hip : IpAddr.parse host = some ip) :
    ip = .v6 groups := by
  unfold IpAddr.parse at hip
  split at hip
  · rename_i dotted rest hread
    split at hip
    · rename_i hempty
      have hdotted : Ipv4Addr.parse host = some dotted := by
        rw [Ipv4Addr.parse, hread, Option.bind_some, if_pos hempty]
      exact absurd (colon_mem_of_parse hgroups)
        (colon_not_mem_of_inetAton (inetAton_of_parse hdotted))
    · cases hip
  · rw [hgroups] at hip
    exact (Option.some.inj hip).symm

/-- An IPv4 address in a spelling that the guard does not read, or inside of an IPv6 address, is
not a forbidden one. -/
structure HidesNoAddress (host : List Char) : Prop where
  number : Ipv4Addr.parse host = none → ∀ n, inetAton host = some n → n ≠ 0 ∧ n / 2 ^ 16 ≠ 0xa9fe
  mapped : ∀ high low, Ipv6Addr.parse host = some [0, 0, 0, 0, 0, 0xffff, high, low] →
    ¬ (high = 0 ∧ low = 0) ∧ high ≠ 0xa9fe

theorem isForbidden_unmapped {groups : Ipv6Addr} (hgroups : ∀ value ∈ groups, value < 2 ^ 16)
    (hplain : (IpAddr.v6 groups).isForbidden = false) :
    (unmapped groups).isForbidden = false ↔ ∀ high low,
      groups = [0, 0, 0, 0, 0, 0xffff, high, low] → ¬ (high = 0 ∧ low = 0) ∧ high ≠ 0xa9fe := by
  unfold unmapped
  split
  · rename_i high low
    have hhigh : high < 2 ^ 16 := hgroups high (by simp)
    have hlow : low < 2 ^ 16 := hgroups low (by simp)
    rw [isForbidden_ofNat (by omega)]
    constructor
    · intro h high' low' heq
      obtain ⟨rfl, rfl⟩ : high = high' ∧ low = low' := by simpa using heq
      omega
    · intro h
      have hhidden := h high low rfl
      omega
  · rename_i hnot
    exact iff_of_true hplain fun high low heq ↦ absurd heq (hnot high low)

theorem inetAton_of_ipv6 {host : List Char} {groups : Ipv6Addr}
    (h : Ipv6Addr.parse host = some groups) : inetAton host = none := by
  cases hnumber : inetAton host with
  | none => rfl
  | some n => exact absurd (colon_mem_of_parse h) (colon_not_mem_of_inetAton hnumber)

theorem parseIpLiteral_of_ipv6 {host : List Char} {groups : Ipv6Addr} {literal : Option IpAddr}
    (h : Ipv6Addr.parse host = some groups) (hliteral : parseIpLiteral host = some literal) :
    literal = some (.v6 groups) := by
  unfold parseIpLiteral at hliteral
  split at hliteral
  · rename_i ip hip
    rw [← Option.some.inj hliteral, IpAddr.parse_of_ipv6 h hip]
  · rw [if_pos (Or.inl (colon_mem_of_parse h))] at hliteral
    cases hliteral

theorem parseIpLiteral_of_ipv4 {host : List Char} {ip : Ipv4Addr}
    (h : Ipv4Addr.parse host = some ip) : parseIpLiteral host = some (some (.v4 ip)) := by
  rw [parseIpLiteral, IpAddr.parse_of_ipv4 h]

/-- An IPv6 literal that is let pass dials a forbidden address only through the IPv4 one in it. -/
theorem dialed_ipv6_iff {host : List Char} {groups : Ipv6Addr}
    (h : Ipv6Addr.parse host = some groups) (hplain : (IpAddr.v6 groups).isForbidden = false) :
    (∀ ip, dialed host = some ip → ip.isForbidden = false) ↔ HidesNoAddress host := by
  have hunmapped := isForbidden_unmapped (fun _ ↦ lt_of_mem_parse h) hplain
  unfold dialed
  rw [h]
  constructor
  · intro hdialed
    refine ⟨fun _ n hn ↦ ?_, fun high low hmapped ↦ ?_⟩
    · cases (inetAton_of_ipv6 h).symm.trans hn
    · exact hunmapped.mp (hdialed _ rfl) high low (Option.some.inj (h.symm.trans hmapped))
  · rintro ⟨-, hmapped⟩ ip hip
    obtain rfl := Option.some.inj hip
    exact hunmapped.mpr fun high low hgroups ↦ hmapped high low (h.trans (congrArg _ hgroups))

/-- Any other host that is let pass dials one only through a spelling that is not read. -/
theorem dialed_ipv4_iff {host : List Char} (h : Ipv6Addr.parse host = none)
    (hplain : ∀ ip, Ipv4Addr.parse host = some ip → (IpAddr.v4 ip).isForbidden = false) :
    (∀ ip, dialed host = some ip → ip.isForbidden = false) ↔ HidesNoAddress host := by
  unfold dialed
  rw [h]
  dsimp only
  constructor
  · intro hdialed
    refine ⟨fun _ n hn ↦ ?_, fun high low hmapped ↦ ?_⟩
    · exact (isForbidden_ofNat (lt_of_inetAton hn)).mp (hdialed _ (by rw [hn]; rfl))
    · cases h.symm.trans hmapped
  · rintro ⟨hnumber, -⟩ ip hip
    obtain ⟨n, hn, rfl⟩ := Option.map_eq_some_iff.mp hip
    cases hdotted : Ipv4Addr.parse host with
    | none => exact (isForbidden_ofNat (lt_of_inetAton hn)).mpr (hnumber hdotted n hn)
    | some dotted =>
      obtain rfl := Option.some.inj ((inetAton_of_parse hdotted).symm.trans hn)
      rw [Ipv4Addr.ofNat_toNat]
      exact hplain dotted hdotted

/-- What is dialed for the host of an address that the guard lets pass is not forbidden exactly
when the host hides no address from it. -/
theorem dialed_isForbidden_iff (address : String) (haddress : pushAddressOk address = true)
    (host : List Char) (hhost : (callbackAuthority address).bind hostOf = some host) :
    (∀ ip, dialed host = some ip → ip.isForbidden = false) ↔ HidesNoAddress host := by
  obtain ⟨host', literal, hhost', hliteral, hallowed⟩ := pushAddressOk_iff.mp haddress
  obtain rfl : host = host' := Option.some.inj (hhost.symm.trans hhost')
  cases hparse : Ipv6Addr.parse host with
  | some groups =>
    apply dialed_ipv6_iff hparse
    exact hallowed _ (parseIpLiteral_of_ipv6 hparse hliteral)
  | none =>
    apply dialed_ipv4_iff hparse
    intro ip hip
    exact hallowed _ (Option.some.inj (hliteral.symm.trans (parseIpLiteral_of_ipv4 hip)))

/-- A private address inside of an IPv6 one is let pass and hides nothing. -/
theorem dialed_isForbidden_mapped_private :
    (∀ ip, dialed "::ffff:10.0.0.2".toList = some ip → ip.isForbidden = false) ↔
      HidesNoAddress "::ffff:10.0.0.2".toList :=
  dialed_isForbidden_iff "https://[::ffff:10.0.0.2]:9090/" (by decide) _ (by decide)

/-- The guard lets the metadata service of a cloud pass, written as one number. -/
theorem metadata_service_passes :
    ¬ (∀ address host ip, pushAddressOk address = true →
      (callbackAuthority address).bind hostOf = some host → dialed host = some ip →
        ip.isForbidden = false) := by
  intro h
  have hforbidden := h "https://2852039166:80" "2852039166".toList (.v4 ⟨169, 254, 169, 254⟩)
    (by decide) (by decide) (by decide)
  revert hforbidden
  decide

end Cameo
