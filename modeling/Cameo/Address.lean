import Cameo.Text

/-!
# Network addresses

The literal IP addresses of the source's standard library, read as its parsers read them, and the
checks made of the address at which a hub may call a node.
-/

namespace Cameo

/-! ## Numbers -/

def digitOf (base : ℕ) (c : Char) : Option ℕ :=
  let value :=
    if '0' ≤ c ∧ c ≤ '9' then some (c.toNat - '0'.toNat)
    else if 'a' ≤ c ∧ c ≤ 'f' then some (c.toNat - 'a'.toNat + 10)
    else if 'A' ≤ c ∧ c ≤ 'F' then some (c.toNat - 'A'.toNat + 10)
    else none
  value.filter (· < base)

/-- `is_ascii_hexdigit`. -/
def isHexDigit (c : Char) : Bool := (digitOf 16 c).isSome

def valueOf (base : ℕ) (digits : List Char) : ℕ :=
  digits.foldl (fun n c ↦ base * n + (digitOf base c).getD 0) 0

/-- A number at the beginning of a text, and what comes after it: all the digits there are, but at
most so many of them, and a leading zero only where it is allowed or the whole number. -/
def readNumber (base maxDigits : ℕ) (allowZeroPrefix : Bool) (text : List Char) :
    Option (ℕ × List Char) :=
  let digits := text.takeWhile fun c ↦ (digitOf base c).isSome
  if digits = [] ∨ maxDigits < digits.length ∨
      (!allowZeroPrefix ∧ digits.head? = some '0' ∧ 1 < digits.length) then none
  else some (valueOf base digits, text.drop digits.length)

/-- A number without its optional plus sign. -/
def withoutPlus : List Char → List Char
  | '+' :: rest => rest
  | rest => rest

/-- `text.parse::<u16>()`: decimal digits, after an optional plus sign. -/
def parseU16 (text : List Char) : Option UInt16 :=
  let digits := withoutPlus text
  if digits = [] ∨ !digits.all fun c ↦ (digitOf 10 c).isSome then none
  else if h : valueOf 10 digits < UInt16.size then some (.ofNatLT _ h) else none

/-- `text.parse::<usize>()` on a 64-bit machine: decimal digits, after an optional plus sign. -/
def parseUsize (text : List Char) : Option ℕ :=
  let digits := withoutPlus text
  if digits = [] ∨ !digits.all fun c ↦ (digitOf 10 c).isSome then none
  else if valueOf 10 digits < UInt64.size then some (valueOf 10 digits) else none

/-! ## IPv4 -/

/-- `Ipv4Addr`. -/
structure Ipv4Addr where
  a : UInt8
  b : UInt8
  c : UInt8
  d : UInt8
deriving DecidableEq

/-- One part of a dotted address: up to three digits, no leading zero, at most 255. -/
def readOctet (text : List Char) : Option (UInt8 × List Char) :=
  (readNumber 10 3 false text).bind fun number ↦
    if h : number.1 < UInt8.size then some (.ofNatLT number.1 h, number.2) else none

/-- A given character at the beginning of a text. -/
def readChar (c : Char) : List Char → Option (List Char)
  | head :: rest => if head = c then some rest else none
  | [] => none

/-- A dotted address at the beginning of a text. -/
def readIpv4 (text : List Char) : Option (Ipv4Addr × List Char) := do
  let (a, rest) ← readOctet text
  let (b, rest) ← readOctet (← readChar '.' rest)
  let (c, rest) ← readOctet (← readChar '.' rest)
  let (d, rest) ← readOctet (← readChar '.' rest)
  return (⟨a, b, c, d⟩, rest)

namespace Ipv4Addr

/-- `text.parse::<Ipv4Addr>()`. -/
def parse (text : List Char) : Option Ipv4Addr :=
  (readIpv4 text).bind fun read ↦ if read.2 = [] then some read.1 else none

/-- `Ipv4Addr::is_loopback`. -/
def isLoopback (ip : Ipv4Addr) : Bool := ip.a = 127

/-- `Ipv4Addr::is_link_local`. -/
def isLinkLocal (ip : Ipv4Addr) : Bool := ip.a = 169 && ip.b = 254

/-- `Ipv4Addr::is_unspecified`. -/
def isUnspecified (ip : Ipv4Addr) : Bool := ip = ⟨0, 0, 0, 0⟩

/-- The address as the last two groups of an IPv6 address. -/
def groups (ip : Ipv4Addr) : List ℕ :=
  [ip.a.toNat * 256 + ip.b.toNat, ip.c.toNat * 256 + ip.d.toNat]

end Ipv4Addr

/-! ## IPv6 -/

/-- What a list of groups says, whether it ends in a dotted address, and what comes after it. -/
structure Groups where
  values : List ℕ
  dotted : Bool
  rest : List Char

/-- Groups at the beginning of a text, at most `limit` of them; `first` is whether none has been
read yet.  A dotted address takes the place of two groups and ends the list. -/
def readGroups : (limit : ℕ) → (first : Bool) → List Char → Groups
  | 0, _, text => ⟨[], false, text⟩
  | limit + 1, first, text =>
    let start := if first then some text else readChar ':' text
    match if 0 < limit then start.bind readIpv4 else none with
    | some (ip, rest) => ⟨ip.groups, true, rest⟩
    | none =>
      match start.bind (readNumber 16 4 true) with
      | some (value, rest) =>
        let later := readGroups limit false rest
        ⟨value :: later.values, later.dotted, later.rest⟩
      | none => ⟨[], false, text⟩

/-- `Ipv6Addr`, as its eight groups. -/
abbrev Ipv6Addr := List ℕ

/-- An IPv6 address at the beginning of a text: eight groups, or fewer with one double colon in the
place of the missing ones. -/
def readIpv6 (text : List Char) : Option (Ipv6Addr × List Char) :=
  let head := readGroups 8 true text
  if head.values.length = 8 then some (head.values, head.rest)
  else if head.dotted then none
  else do
    let rest ← readChar ':' (← readChar ':' head.rest)
    let tail := readGroups (8 - (head.values.length + 1)) true rest
    let zeros := List.replicate (8 - head.values.length - tail.values.length) 0
    return (head.values ++ zeros ++ tail.values, tail.rest)

/-- `text.parse::<Ipv6Addr>()`. -/
def Ipv6Addr.parse (text : List Char) : Option Ipv6Addr :=
  (readIpv6 text).bind fun read ↦ if read.2 = [] then some read.1 else none

/-- `IpAddr`. -/
inductive IpAddr where
  | v4 (ip : Ipv4Addr)
  | v6 (ip : Ipv6Addr)
deriving DecidableEq

/-- `IpAddr::is_loopback`. -/
def IpAddr.isLoopback : IpAddr → Bool
  | .v4 ip => ip.isLoopback
  | .v6 ip => ip = [0, 0, 0, 0, 0, 0, 0, 1]

/-- `text.parse::<IpAddr>()`.  A text that begins with a dotted address is read as one. -/
def IpAddr.parse (text : List Char) : Option IpAddr :=
  match readIpv4 text with
  | some (ip, rest) => if rest = [] then some (.v4 ip) else none
  | none => (Ipv6Addr.parse text).map .v6

/-! ## Callback addresses -/

/-- `host_of`. -/
def hostOf (address : List Char) : Option (List Char) :=
  match address with
  | [] => none
  | '[' :: rest =>
    match splitOnce [']'] rest with
    | none => none
    | some (host, suffix) =>
      let port := suffix = [] ∨
        ((readChar ':' suffix).bind parseU16).isSome
      if (Ipv6Addr.parse host).isSome ∧ port then some host else none
  | _ =>
    if (IpAddr.parse address).isSome then some address
    else
      match address.count ':' with
      | 0 => some address
      | 1 => (rsplitOnce ':' address).bind fun halves ↦
          if halves.1 ≠ [] ∧ (parseU16 halves.2).isSome then some halves.1 else none
      | _ => none

/-- `parse_ip_literal`, with `none` for its error. -/
def parseIpLiteral (host : List Char) : Option (Option IpAddr) :=
  match IpAddr.parse host with
  | some ip => some (some ip)
  | none =>
    let ipv4Like := '.' ∈ host ∧ host.all fun c ↦ (digitOf 10 c).isSome || c = '.'
    if ':' ∈ host ∨ '[' ∈ host ∨ ']' ∈ host ∨ ipv4Like then none else some none

/-- `callback_authority`. -/
def callbackAuthority (address : String) : Option (List Char) :=
  (stripPrefix "https://" address).bind fun rest ↦
    let authority := trimEndMatches '/' rest.toList
    if authority = [] ∨ '/' ∈ authority ∨ '@' ∈ authority ∨ '?' ∈ authority ∨ '#' ∈ authority then
      none
    else some authority

/-- `push_address_ok`. -/
def pushAddressOk (address : String) : Bool :=
  match ((callbackAuthority address).bind hostOf).bind parseIpLiteral with
  | none => false
  | some (some (.v4 ip)) => !(ip.isLinkLocal || ip.isUnspecified)
  | some (some (.v6 ip)) => !(ip.all (· = 0) || (ip.headD 0) / 64 = 0xfe80 / 64)
  | some none => true

example : pushAddressOk "https://[fe80::1]:9090" = false := by decide +kernel

example : pushAddressOk "https://node.example:9090/" = true := by decide +kernel

end Cameo
