import Cameo.Clock
import Cameo.Library.Ordered
import Cameo.Text
import Mathlib.Data.String.Basic

/-!
# Credentials and request rates

The role-tagged keys a daemon accepts, the comparison of a presented key with a configured one, and
the fixed-window limiter that every request over TCP passes.
-/

namespace Cameo.Daemon

open Library

/-! ## Comparing secrets -/

def differences (left right : List UInt8) : UInt8 :=
  (left.zip right).foldl (fun acc pair ↦ acc ||| (pair.1 ^^^ pair.2)) 0

theorem or_eq_zero_iff (a b : UInt8) : a ||| b = 0 ↔ a = 0 ∧ b = 0 := by
  simp only [← UInt8.toBitVec_inj, UInt8.toBitVec_or, UInt8.toBitVec_zero]
  exact BitVec.or_eq_zero_iff

theorem xor_eq_zero_iff (a b : UInt8) : a ^^^ b = 0 ↔ a = b := by
  simp only [← UInt8.toBitVec_inj, UInt8.toBitVec_xor, UInt8.toBitVec_zero]
  exact BitVec.xor_eq_zero_iff

theorem foldl_differences_eq_zero_iff (pairs : List (UInt8 × UInt8)) (acc : UInt8) :
    pairs.foldl (fun acc pair ↦ acc ||| (pair.1 ^^^ pair.2)) acc = 0 ↔
      acc = 0 ∧ ∀ pair ∈ pairs, pair.1 = pair.2 := by
  induction pairs generalizing acc with
  | nil => simp
  | cons head rest ih =>
    rw [List.foldl_cons, ih, or_eq_zero_iff, xor_eq_zero_iff, List.forall_mem_cons, and_assoc]

/-- Bytes of one length without a difference are equal. -/
theorem differences_eq_zero_iff {left right : List UInt8} (h : left.length = right.length) :
    differences left right = 0 ↔ left = right := by
  rw [differences, foldl_differences_eq_zero_iff]
  constructor
  · rintro ⟨-, hall⟩
    apply List.ext_getElem h
    intro i hl hr
    have hi : i < (left.zip right).length := by simp [hl, hr]
    have hmem : (left[i], right[i]) ∈ left.zip right := by
      rw [← List.getElem_zip (h := hi)]
      exact List.getElem_mem hi
    exact hall _ hmem
  · rintro rfl
    refine ⟨rfl, ?_⟩
    intro pair hpair
    obtain ⟨i, hi, rfl⟩ := List.getElem_of_mem hpair
    simp

/-- `KeyRing::ct_eq`, and `key_matches` of a present key. -/
def ctEq (a b : String) : Bool :=
  (bytes a).length = (bytes b).length && differences (bytes a) (bytes b) = 0

/-- `key_matches`. -/
def keyMatches (presented : Option String) (key : String) : Bool := presented.any (ctEq · key)

/-! ## Keys -/

/-- `Role`. -/
inductive Role where
  | operator
  | consumer
deriving DecidableEq

/-- `ApiKey`. -/
structure ApiKey where
  key : String
  role : Role
  label : String
deriving DecidableEq

/-- `Posture`. -/
inductive Posture where
  | selfHost
  | multiTenant
deriving DecidableEq

/-- `Posture::allows_local_harness`. -/
def Posture.allowsLocalHarness (posture : Posture) : Bool := posture = .selfHost

/-- `KeyRing`. -/
structure KeyRing where
  keys : List ApiKey
deriving DecidableEq

namespace KeyRing

/-- `KeyRing::role_of`. -/
def roleOf (ring : KeyRing) (presented : Option String) : Option Role :=
  presented.bind fun p ↦ (ring.keys.find? fun k ↦ ctEq p k.key).map ApiKey.role

/-- `KeyRing::requires_operator`. -/
def requiresOperator (ring : KeyRing) : Bool := ring.keys.any fun k ↦ k.role = .operator

/-- `KeyRing::requires_consumer`. -/
def requiresConsumer (ring : KeyRing) : Bool := ring.keys.any fun k ↦ k.role = .consumer

/-- `KeyRing::is_operator`. -/
def isOperator (ring : KeyRing) (presented : Option String) : Bool :=
  ring.roleOf presented = some .operator

/-- `KeyRing::is_consumer_or_better`. -/
def isConsumerOrBetter (ring : KeyRing) (presented : Option String) : Bool :=
  (ring.roleOf presented).isSome

end KeyRing

/-- `validate_secret`. -/
def validateSecret (kind secret : String) : Except String Unit :=
  if secret.utf8ByteSize < 16 then
    .error (kind ++ " is too short; use at least 16 bytes of random secret material")
  else if secret.utf8ByteSize > 4096 then .error (kind ++ " exceeds the 4096-byte limit")
  else if trim secret ≠ secret ∨ secret.toList.any isControl then
    .error (kind ++ " must not contain leading/trailing whitespace or control characters")
  else .ok ()

/-! ## The limiter -/

/-- `Window`. -/
structure Window where
  resetAt : Instant
  count : ℕ

/-- `RateLimiter`. -/
structure RateLimiter where
  windows : Ordered.Map String Window

namespace RateLimiter

/-- `RateLimiter::new`. -/
def new : RateLimiter := ⟨.empty⟩

/-- `MAX_IDENTITIES`. -/
def maxIdentities : ℕ := 4096

/-- `WINDOW_SECONDS`. -/
def windowSeconds : ℕ := 60

/-- `RateLimiter::allow_at`. -/
def allowAt (limiter : RateLimiter) (key : String) (limit : ℕ) (duration : Duration)
    (now : Instant) : Bool × RateLimiter :=
  if limit = 0 then (false, limiter)
  else
    let crowded := limiter.windows.size ≥ maxIdentities ∧ (limiter.windows.get? key).isNone
    let windows :=
      if crowded then limiter.windows.retain fun value ↦ value.resetAt > now else limiter.windows
    if crowded ∧ windows.size ≥ maxIdentities then (false, ⟨windows⟩)
    else
      let found := (windows.get? key).getD ⟨now + duration, 0⟩
      let entry := if found.resetAt ≤ now then ⟨now + duration, 0⟩ else found
      if entry.count ≥ limit then (false, ⟨windows.insert key entry⟩)
      else (true, ⟨windows.insert key { entry with count := entry.count + 1 }⟩)

/-- A limiter that has seen no client lets the first request pass. -/
theorem allowAt_new {limit : ℕ} (hlimit : limit ≠ 0) (key : String) (duration : Duration)
    (now : Instant) : (new.allowAt key limit duration now).1 = true := by
  have hroom : ¬ maxIdentities ≤ (Ordered.Map.empty : Ordered.Map String Window).size := by
    simp [Ordered.Map.size, Ordered.Map.empty, maxIdentities]
  have hpos : ¬ limit ≤ 0 := by omega
  simp [allowAt, new, hroom, hlimit, hpos]

end RateLimiter

end Cameo.Daemon
