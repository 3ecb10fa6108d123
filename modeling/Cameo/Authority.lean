import Cameo.Hub.CallbackGuard

/-!
# Authorities

A host with a port after a colon, as it is written and as `host_of` reads it.  A host with colons of
its own is an IPv6 address: `host_of` takes it without a port as it is, and with a port in brackets
only.
-/

namespace Cameo

/-! ## Ports -/

/-- The port after the last colon of an authority. -/
def portOf (authority : List Char) : Option UInt16 :=
  (rsplitOnce ':' authority).bind fun halves ↦ parseU16 halves.2

def authorityText (host : List Char) (port : UInt16) : List Char :=
  host ++ ':' :: (toString port.toNat).toList

theorem digitOf_of_isDigit {c : Char} (h : c.isDigit = true) :
    digitOf 10 c = some (c.toNat - '0'.toNat) := by
  have hrange := Char.isDigit_iff_toNat.mp h
  have hbounds : '0' ≤ c ∧ c ≤ '9' :=
    ⟨UInt32.le_iff_toNat_le.mpr hrange.1, UInt32.le_iff_toNat_le.mpr hrange.2⟩
  have hvalue : c.toNat - '0'.toNat < 10 := by
    have hnine : '9'.toNat = '0'.toNat + 9 := rfl
    have htop : c.toNat ≤ '9'.toNat := hrange.2
    omega
  unfold digitOf
  rw [if_pos hbounds]
  exact Option.filter_some_pos (decide_eq_true hvalue)

theorem valueOf_decimal (n : ℕ) : valueOf 10 (toString n).toList = n := by
  have hfold (digits : List Char) (h : ∀ c ∈ digits, c.isDigit = true) (start : ℕ) :
      digits.foldl (fun n c ↦ 10 * n + (digitOf 10 c).getD 0) start =
        Nat.ofDigitChars 10 digits start := by
    induction digits generalizing start with
    | nil => rfl
    | cons c rest ih =>
      rw [List.foldl_cons, digitOf_of_isDigit (h c List.mem_cons_self),
        ih fun d hd ↦ h d (List.mem_cons_of_mem c hd)]
      rfl
  rw [valueOf, hfold _ fun c ↦ isDigit_of_mem_decimal]
  rw [Nat.toString_eq_repr, Nat.toList_repr, Nat.ofDigitChars_ten_toDigits]

theorem all_digits_decimal (n : ℕ) :
    ((toString n).toList.all fun c ↦ (digitOf 10 c).isSome) = true := by
  rw [List.all_eq_true]
  intro c hc
  rw [digitOf_of_isDigit (isDigit_of_mem_decimal hc)]
  rfl

theorem colon_not_mem_decimal (n : ℕ) : ':' ∉ (toString n).toList := by
  intro hmem
  exact absurd (isDigit_of_mem_decimal hmem) (by decide)

theorem withoutPlus_decimal (n : ℕ) : withoutPlus (toString n).toList = (toString n).toList := by
  unfold withoutPlus
  split
  · rename_i rest htext
    exact absurd (isDigit_of_mem_decimal (htext ▸ List.mem_cons_self)) (by decide : ¬ '+'.isDigit)
  · rfl

/-- A number that fits is read as it is written. -/
theorem parseUsize_decimal {n : ℕ} (h : n < UInt64.size) :
    parseUsize (toString n).toList = some n := by
  unfold parseUsize
  dsimp only
  rw [withoutPlus_decimal, all_digits_decimal, valueOf_decimal,
    if_neg (by simp), if_pos h]

/-- A port is read as it is written. -/
theorem parseU16_decimal (port : UInt16) : parseU16 (toString port.toNat).toList = some port := by
  have hvalue := valueOf_decimal port.toNat
  have hall := all_digits_decimal port.toNat
  have hne := decimal_ne_nil port.toNat
  have hport : valueOf 10 (toString port.toNat).toList < UInt16.size := by
    rw [hvalue]
    exact port.toNat_lt
  unfold parseU16
  simp only [withoutPlus_decimal]
  rw [hall, if_neg (by simp), dif_pos hport]
  congr 1
  apply UInt16.toNat_inj.mp
  rw [UInt16.toNat_ofNatLT, hvalue]

theorem rsplitOnce_append {separator : Char} (left : List Char) {right : List Char}
    (h : separator ∉ right) :
    rsplitOnce separator (left ++ separator :: right) = some (left, right) := by
  have hmem : separator ∈ left ++ separator :: right :=
    List.mem_append_right left List.mem_cons_self
  have hreverse : (left ++ separator :: right).reverse =
      right.reverse ++ separator :: left.reverse := by
    rw [List.reverse_append, List.reverse_cons, List.append_assoc, List.singleton_append]
  have hfree (c : Char) (hc : c ∈ right.reverse) : decide (c ≠ separator) = true := by
    refine decide_eq_true ?_
    rintro rfl
    exact h (List.mem_reverse.mp hc)
  unfold rsplitOnce
  rw [if_pos hmem, hreverse, List.dropWhile_append_of_pos hfree,
    List.takeWhile_append_of_pos hfree]
  simp

theorem eq_append_of_rsplitOnce {separator : Char} {text left right : List Char}
    (h : rsplitOnce separator text = some (left, right)) : text = left ++ separator :: right := by
  unfold rsplitOnce at h
  split at h
  · rename_i hmem
    obtain ⟨rfl, rfl⟩ := Prod.mk.inj (Option.some.inj h)
    have hparts := List.takeWhile_append_dropWhile (p := (· ≠ separator)) (l := text.reverse)
    have hhead := List.head?_dropWhile_not (· ≠ separator) text.reverse
    cases hrest : text.reverse.dropWhile (· ≠ separator) with
    | nil =>
      have hfree := List.dropWhile_eq_nil_iff.mp hrest separator (List.mem_reverse.mpr hmem)
      exact absurd rfl (of_decide_eq_true hfree)
    | cons c rest =>
      rw [hrest, List.head?_cons] at hhead
      have hc : c = separator := by simpa using hhead
      have htext := congrArg List.reverse hparts
      rw [hrest, hc, List.reverse_reverse, List.reverse_append, List.reverse_cons,
        List.append_assoc] at htext
      exact htext.symm
  · cases h

theorem portOf_authorityText (host : List Char) (port : UInt16) :
    portOf (authorityText host port) = some port := by
  unfold portOf authorityText
  rw [rsplitOnce_append host (colon_not_mem_decimal port.toNat), Option.bind_some]
  exact parseU16_decimal port

/-! ## The colons of a host -/

/-- Groups have a colon between any two, but for the two that a dotted address stands for. -/
theorem length_readGroups (limit : ℕ) (first : Bool) (text : List Char) :
    (readGroups limit first text).values.length + (readGroups limit first text).rest.count ':' ≤
      text.count ':' + if first then 2 else 1 := by
  induction limit generalizing first text with
  | zero =>
    rw [readGroups, List.length_nil]
    dsimp only
    omega
  | succ limit ih =>
    have hstart {start : List Char} (h : (if first then some text else readChar ':' text) =
        some start) :
        start.count ':' + 2 = text.count ':' + if first then 2 else 1 := by
      cases first with
      | true =>
        obtain rfl := Option.some.inj h
        rfl
      | false =>
        rw [readChar_eq_some h, List.count_cons_self]
        rfl
    unfold readGroups
    dsimp only
    split
    · rename_i ip rest hdotted
      split at hdotted
      · obtain ⟨start, hsome, hread⟩ := Option.bind_eq_some_iff.mp hdotted
        obtain ⟨a, b, c, d, rfl, -⟩ := readIpv4_eq_some hread
        have hcount := hstart hsome
        simp only [List.count_append, List.count_cons, Ipv4Addr.groups, List.length_cons,
          List.length_nil] at hcount ⊢
        omega
      · cases hdotted
    · split
      · rename_i value rest hnumber
        obtain ⟨start, hsome, hread⟩ := Option.bind_eq_some_iff.mp hnumber
        obtain ⟨digits, rfl, -⟩ := readNumber_eq_some hread
        have hcount := hstart hsome
        have hlater := ih false rest
        simp only [List.count_append, Bool.false_eq_true, if_false, List.length_cons] at *
        omega
      · rw [List.length_nil]
        dsimp only
        omega

/-- An IPv6 address has two colons or more. -/
theorem two_le_count_of_parse {host : List Char} {groups : Ipv6Addr}
    (h : Ipv6Addr.parse host = some groups) : 2 ≤ host.count ':' := by
  obtain ⟨read, hread, -⟩ := Option.bind_eq_some_iff.mp h
  have hgroups := length_readGroups 8 true host
  unfold readIpv6 at hread
  dsimp only at hread
  split at hread
  · rename_i hlength
    rw [hlength, if_pos rfl] at hgroups
    omega
  · split at hread
    · cases hread
    · obtain ⟨first, hfirst, hread⟩ := Option.bind_eq_some_iff.mp hread
      obtain ⟨second, hsecond, -⟩ := Option.bind_eq_some_iff.mp hread
      have hsublist := (readGroups_suffix 8 true host).sublist.count_le ':'
      rw [readChar_eq_some hfirst, readChar_eq_some hsecond, List.count_cons_self,
        List.count_cons_self] at hsublist
      omega

/-- A literal address does not have exactly one colon. -/
theorem parse_eq_none_of_count {text : List Char} (h : text.count ':' = 1) :
    IpAddr.parse text = none := by
  cases hparse : IpAddr.parse text with
  | none => rfl
  | some ip =>
    unfold IpAddr.parse at hparse
    split at hparse
    · rename_i dotted rest hread
      split at hparse
      · rename_i hempty
        have hdotted : Ipv4Addr.parse text = some dotted := by
          rw [Ipv4Addr.parse, hread, Option.bind_some, if_pos hempty]
        have hfree := colon_not_mem_of_inetAton (inetAton_of_parse hdotted)
        rw [List.count_eq_zero_of_not_mem hfree] at h
        cases h
      · cases hparse
    · obtain ⟨groups, hgroups, -⟩ := Option.map_eq_some_iff.mp hparse
      have hmany := two_le_count_of_parse hgroups
      omega

theorem parse_bracket (rest : List Char) : Ipv6Addr.parse ('[' :: rest) = none := by
  have hdigit (base : ℕ) : digitOf base '[' = none := by
    unfold digitOf
    rw [if_neg (by decide), if_neg (by decide), if_neg (by decide)]
    rfl
  have hnumber (base maxDigits : ℕ) (allowZeroPrefix : Bool) :
      readNumber base maxDigits allowZeroPrefix ('[' :: rest) = none := by
    simp [readNumber, hdigit]
  have hdotted : readIpv4 ('[' :: rest) = none := by
    simp [readIpv4, readOctet, hnumber]
  have hgroups : readGroups 8 true ('[' :: rest) = ⟨[], false, '[' :: rest⟩ := by
    simp [readGroups, hdotted, hnumber]
  simp [Ipv6Addr.parse, readIpv6, hgroups, readChar]

/-- What is neither empty nor in brackets is an address, or a name with or without a port. -/
theorem hostOf_of_bare {address : List Char} (hne : address ≠ [])
    (hbracket : address.head? ≠ some '[') :
    hostOf address =
      if (IpAddr.parse address).isSome then some address
      else
        match address.count ':' with
        | 0 => some address
        | 1 => (rsplitOnce ':' address).bind fun halves ↦
            if halves.1 ≠ [] ∧ (parseU16 halves.2).isSome then some halves.1 else none
        | _ => none := by
  cases address with
  | nil => exact absurd rfl hne
  | cons c rest =>
    unfold hostOf
    split
    · rename_i hnil
      exact absurd hnil hne
    · rename_i rest' hcons
      rw [hcons] at hbracket
      exact absurd rfl hbracket
    · rfl

/-- A host is not empty, and does not begin with a bracket. -/
theorem head_of_hostOf {address host : List Char} (h : hostOf address = some host) :
    host ≠ [] ∧ host.head? ≠ some '[' := by
  unfold hostOf at h
  split at h
  · cases h
  · split at h
    · cases h
    · rename_i literal suffix hsplit
      dsimp only at h
      split at h
      · rename_i hliteral
        obtain rfl := Option.some.inj h
        refine ⟨?_, fun hhead ↦ ?_⟩
        · rintro rfl
          cases hliteral.1
        · obtain ⟨rest, rfl⟩ := List.head?_eq_some_iff.mp hhead
          rw [parse_bracket] at hliteral
          cases hliteral.1
      · cases h
  · rename_i hne hbracket
    have hhead : address.head? ≠ some '[' := by
      intro hhead
      obtain ⟨rest, rfl⟩ := List.head?_eq_some_iff.mp hhead
      exact hbracket rest rfl
    split at h
    · obtain rfl := Option.some.inj h
      exact ⟨hne, hhead⟩
    · split at h
      · obtain rfl := Option.some.inj h
        exact ⟨hne, hhead⟩
      · obtain ⟨⟨left, right⟩, hsplit, hgood⟩ := Option.bind_eq_some_iff.mp h
        split at hgood
        · rename_i hleft
          obtain rfl := Option.some.inj hgood
          refine ⟨hleft.1, fun hfirst ↦ hhead ?_⟩
          rw [eq_append_of_rsplitOnce hsplit, List.head?_append, hfirst]
          rfl
        · cases hgood
      · cases h

/-! ## Reading back -/

/-- An authority is read as a host and a port. -/
structure ReadsBack (authority host : List Char) (port : UInt16) : Prop where
  host : hostOf authority = some host
  port : portOf authority = some port

theorem count_authorityText (host : List Char) (port : UInt16) :
    (authorityText host port).count ':' = host.count ':' + 1 := by
  have hdigits : (toString port.toNat).toList.count ':' = 0 :=
    List.count_eq_zero.mpr (colon_not_mem_decimal port.toNat)
  rw [authorityText, List.count_append, List.count_cons_self, hdigits]

/-- A host that an address has is read back from an authority exactly if it has no colons. -/
theorem readsBack_iff {address host : List Char} (h : hostOf address = some host)
    (port : UInt16) : ReadsBack (authorityText host port) host port ↔ ':' ∉ host := by
  obtain ⟨hne, hbracket⟩ := head_of_hostOf h
  have hcount := count_authorityText host port
  have hhead : (authorityText host port).head? ≠ some '[' := by
    rwa [authorityText, List.head?_append_of_ne_nil _ hne]
  have hempty : authorityText host port ≠ [] := List.append_ne_nil_of_left_ne_nil hne _
  have hbare := hostOf_of_bare hempty hhead
  constructor
  · intro hreads hcolon
    have hlonger : authorityText host port ≠ host := by
      intro heq
      have hlength := congrArg List.length heq
      rw [authorityText, List.length_append, List.length_cons] at hlength
      omega
    have hpos := List.count_pos_iff.mpr hcolon
    have hhost := hbare.symm.trans hreads.host
    split at hhost
    · exact hlonger (Option.some.inj hhost)
    · split at hhost
      · omega
      · omega
      · cases hhost
  · intro hcolon
    refine ⟨?_, portOf_authorityText host port⟩
    have hone : (authorityText host port).count ':' = 1 := by
      rw [hcount, List.count_eq_zero_of_not_mem hcolon]
    have hport : (parseU16 (toString port.toNat).toList).isSome = true := by
      rw [parseU16_decimal]
      rfl
    have hsplit : rsplitOnce ':' (authorityText host port) =
        some (host, (toString port.toNat).toList) :=
      rsplitOnce_append host (colon_not_mem_decimal port.toNat)
    rw [hbare, parse_eq_none_of_count hone, hone]
    rw [Option.isSome_none, if_neg Bool.false_ne_true, hsplit, Option.bind_some,
      if_pos ⟨hne, hport⟩]
    rfl

end Cameo
