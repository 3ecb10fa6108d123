import Cameo.Daemon.Serve
import Cameo.Float

/-!
# The advertised subset of the `/v1` gateway

The filters that a body passes before it is forwarded: parameters the node does not implement are
refused, and so is a token limit beyond the context window.  Both read numbers with `as_u64`, which
skips every other shape of a number, and the limit is read from the first of two keys that is
present, whatever it holds.
-/

namespace Cameo.Gateway

open Json Daemon

/-- `GatewayRoute`. -/
inductive GatewayRoute where
  | chatCompletions
  | completions
  | embeddings
deriving DecidableEq

/-- `unsupported`. -/
def unsupported (message param : String) : Response :=
  ⟨400, .ofFields [("error", .ofFields [
    ("message", .string message),
    ("type", .string "invalid_request_error"),
    ("code", .string "unsupported_parameter"),
    ("param", .string param)])]⟩

/-- `tool_choice_requests_tools`. -/
def toolChoiceRequestsTools (body : Value) : Bool :=
  match body.get? "tool_choice" with
  | none | some .null => false
  | some (.string choice) => choice ≠ "none"
  | some _ => true

/-- `multimodal`. -/
def multimodal (body : Value) : Bool :=
  (((body.get? "messages").bind Value.asArray).getD []).any fun message ↦
    match message.get? "content" with
    | some (.array parts) => parts.any fun part ↦
        (part.get? "type").bind Value.asStr = some "image_url" || (part.get? "image_url").isSome
    | _ => false

/-- The parameters that only one route refuses. -/
def rejectForRoute (route : GatewayRoute) (body : Value) : Option Response :=
  match route with
  | .chatCompletions | .completions =>
    if (body.get? "best_of").isSome || (body.get? "echo").isSome then
      some (unsupported "best_of and echo are not advertised by this node" "best_of")
    else none
  | .embeddings =>
    if ((body.get? "encoding_format").bind Value.asStr).any (· ≠ "float") then
      some (unsupported "only float embedding encoding is advertised" "encoding_format")
    else none

/-- `reject_unsupported`. -/
def rejectUnsupported (route : GatewayRoute) (body : Value) : Option Response :=
  if (body.get? "tools").isSome || (body.get? "functions").isSome ||
      toolChoiceRequestsTools body then
    some (unsupported
      "native tool calls are not available; the agent harness owns tool orchestration" "tools")
  else if (body.get? "logprobs").isSome || (body.get? "top_logprobs").isSome then
    some (unsupported "logprobs are not advertised by this node" "logprobs")
  else if (body.get? "logit_bias").isSome then
    some (unsupported "logit_bias is not advertised by this node" "logit_bias")
  else if ((body.get? "n").bind Value.asU64).any (· ≠ 1) then
    some (unsupported "only n=1 completions are advertised" "n")
  else if multimodal body then
    some (unsupported "image and multimodal inputs are not advertised by this node" "messages")
  else if ((body.get? "response_format").bind (Value.get? "type")).bind Value.asStr =
      some "json_schema" then
    some (unsupported "structured json_schema response_format is not advertised"
      "response_format")
  else rejectForRoute route body

/-- The token limit that `reject_token_ceiling` reads. -/
def requestedTokens (body : Value) : Option ℕ :=
  ((body.get? "max_completion_tokens").or (body.get? "max_tokens")).bind Value.asU64

/-- `reject_token_ceiling`. -/
def rejectTokenCeiling (body : Value) (contextTokens : Option UInt32) : Option Response := do
  let context ← contextTokens
  let requested ← requestedTokens body
  if requested > context.toNat then
    some (unsupported
      s!"max_tokens {requested} exceeds the served context window {context.toNat}" "max_tokens")
  else none

/-! ## What is advertised -/

def IsOne : Number → Prop
  | .posInt n => n = 1
  | .negInt i => i = 1
  | .float bits => FloatValue.ofBits bits = .ofNat 1

/-- A JSON number that is at most the limit. -/
def AtMost (limit : ℕ) : Number → Prop
  | .posInt n => n ≤ limit
  | .negInt i => i ≤ limit
  | .float bits => (FloatValue.ofBits bits).le (.ofNat limit) = true

instance : DecidablePred IsOne
  | .posInt n => inferInstanceAs (Decidable (n = 1))
  | .negInt i => inferInstanceAs (Decidable (i = 1))
  | .float bits => inferInstanceAs (Decidable (FloatValue.ofBits bits = .ofNat 1))

instance (limit : ℕ) : DecidablePred (AtMost limit)
  | .posInt n => inferInstanceAs (Decidable (n ≤ limit))
  | .negInt i => inferInstanceAs (Decidable (i ≤ limit))
  | .float bits => inferInstanceAs (Decidable ((FloatValue.ofBits bits).le (.ofNat limit) = true))

/-- One completion, and no more tokens than the context window. -/
structure Advertised (context : UInt32) (body : Value) : Prop where
  n : ∀ value, body.get? "n" = some value →
    value = .null ∨ ∃ number, value = .number number ∧ IsOne number
  maxTokens : ∀ number, body.get? "max_tokens" = some (.number number) →
    AtMost context.toNat number
  maxCompletionTokens : ∀ number, body.get? "max_completion_tokens" = some (.number number) →
    AtMost context.toNat number

/-- No parameter other than `n` is one that the route does not implement. -/
structure OtherwiseSupported (route : GatewayRoute) (body : Value) : Prop where
  tools : ((body.get? "tools").isSome || (body.get? "functions").isSome ||
    toolChoiceRequestsTools body) = false
  logprobs : ((body.get? "logprobs").isSome || (body.get? "top_logprobs").isSome) = false
  logitBias : (body.get? "logit_bias").isSome = false
  messages : multimodal body = false
  responseFormat : ((body.get? "response_format").bind (Value.get? "type")).bind Value.asStr ≠
    some "json_schema"
  forRoute : rejectForRoute route body = none

theorem rejectUnsupported_eq_none_iff (route : GatewayRoute) (body : Value) :
    rejectUnsupported route body = none ↔
      OtherwiseSupported route body ∧ ∀ n, (body.get? "n").bind Value.asU64 = some n → n = 1 := by
  unfold rejectUnsupported
  constructor
  · intro h
    split at h
    · cases h
    rename_i htools
    split at h
    · cases h
    rename_i hlogprobs
    split at h
    · cases h
    rename_i hbias
    split at h
    · cases h
    rename_i hn
    split at h
    · cases h
    rename_i hmessages
    split at h
    · cases h
    rename_i hformat
    refine ⟨⟨by simpa using htools, by simpa using hlogprobs, by simpa using hbias,
      by simpa using hmessages, hformat, h⟩, ?_⟩
    intro n hread
    rw [hread] at hn
    simpa using hn
  · rintro ⟨hother, hn⟩
    have hone : ((body.get? "n").bind Value.asU64).any (· ≠ 1) = false := by
      cases hread : (body.get? "n").bind Value.asU64 with
      | none => rfl
      | some n => simp [hn n hread]
    rw [if_neg (Bool.eq_false_iff.mp hother.tools), if_neg (Bool.eq_false_iff.mp hother.logprobs),
      if_neg (Bool.eq_false_iff.mp hother.logitBias), if_neg (Bool.eq_false_iff.mp hone),
      if_neg (Bool.eq_false_iff.mp hother.messages), if_neg hother.responseFormat]
    exact hother.forRoute

theorem rejectTokenCeiling_eq_none_iff (body : Value) (context : UInt32) :
    rejectTokenCeiling body (some context) = none ↔
      ∀ requested, requestedTokens body = some requested → requested ≤ context.toNat := by
  cases hread : requestedTokens body with
  | none => simp [rejectTokenCeiling, hread]
  | some requested => simp [rejectTokenCeiling, hread]

/-- `n` has a shape that the filter does not read, and is not one. -/
def SkippedN (body : Value) : Prop :=
  ∃ value, body.get? "n" = some value ∧ value ≠ .null ∧ value.asU64 = none ∧
    ∀ number, value = .number number → ¬ IsOne number

/-- A token limit beyond the window that the filter does not read: it is not a nonnegative integer,
or it stands behind the other key. -/
def SkippedLimit (context : UInt32) (body : Value) : Prop :=
  ∃ number, ¬ AtMost context.toNat number ∧
    (body.get? "max_completion_tokens" = some (.number number) ∧
        (Value.number number).asU64 = none ∨
      body.get? "max_tokens" = some (.number number) ∧
        ((Value.number number).asU64 = none ∨ (body.get? "max_completion_tokens").isSome = true))

/-- The filters refuse the body on something they do read. -/
def ReadAndRefused (route : GatewayRoute) (context : UInt32) (body : Value) : Prop :=
  ¬ OtherwiseSupported route body ∨
    (∃ n, (body.get? "n").bind Value.asU64 = some n ∧ n ≠ 1) ∨
    ∃ requested, requestedTokens body = some requested ∧ context.toNat < requested

/-- A number beyond the window that `as_u64` reads. -/
theorem not_atMost_posInt {limit : ℕ} {number : Number} (h : ¬ AtMost limit number) :
    (Value.number number).asU64 = none ∨ ∃ n, number = .posInt n ∧ limit < n := by
  cases number with
  | posInt n => exact .inr ⟨n, rfl, not_le.mp h⟩
  | negInt i => exact .inl rfl
  | float bits => exact .inl rfl

/-- An accepted `n` is advertised unless it was skipped. -/
theorem n_advertised {body : Value}
    (hread : ∀ n, (body.get? "n").bind Value.asU64 = some n → n = 1) (hskip : ¬ SkippedN body)
    {value : Value} (h : body.get? "n" = some value) :
    value = .null ∨ ∃ number, value = .number number ∧ IsOne number := by
  by_contra hbad
  rw [not_or, not_exists] at hbad
  apply hskip
  refine ⟨value, h, hbad.1, ?_, fun number hnumber hone ↦ hbad.2 number ⟨hnumber, hone⟩⟩
  cases hasU64 : value.asU64 with
  | none => rfl
  | some n =>
    rw [h, Option.bind_some] at hread
    obtain rfl := hread n hasU64
    unfold Value.asU64 at hasU64
    split at hasU64
    · cases hasU64
      exact absurd ⟨rfl, rfl⟩ (hbad.2 (.posInt 1))
    · cases hasU64

/-- The filters let through exactly what is advertised, unless the body is accepted with an `n` or
a limit that they skip. -/
theorem accepted_advertised_iff (route : GatewayRoute) (context : UInt32) (body : Value) :
    (rejectUnsupported route body = none → rejectTokenCeiling body (some context) = none →
        Advertised context body) ↔
      ReadAndRefused route context body ∨ ¬ SkippedN body ∧ ¬ SkippedLimit context body := by
  rw [rejectUnsupported_eq_none_iff, rejectTokenCeiling_eq_none_iff]
  constructor
  · intro h
    by_contra hcondition
    rw [not_or] at hcondition
    obtain ⟨hread, hskipped⟩ := hcondition
    simp only [ReadAndRefused, not_or, not_not, not_exists, not_and, not_lt] at hread
    have hadvertised := h ⟨hread.1, hread.2.1⟩ hread.2.2
    apply hskipped
    constructor
    · rintro ⟨value, hvalue, hnull, -, hother⟩
      rcases hadvertised.n value hvalue with hisNull | ⟨number, hnumber, hone⟩
      · exact hnull hisNull
      · exact hother number hnumber hone
    · rintro ⟨number, hlarge, ⟨hkey, -⟩ | ⟨hkey, -⟩⟩
      · exact hlarge (hadvertised.maxCompletionTokens number hkey)
      · exact hlarge (hadvertised.maxTokens number hkey)
  · rintro (hrefused | ⟨hn, hlimit⟩) ⟨hother, hone⟩ hceiling
    · rcases hrefused with hrefused | ⟨n, hread, hne⟩ | ⟨requested, hread, hlarge⟩
      · exact absurd hother hrefused
      · exact absurd (hone n hread) hne
      · exact absurd (hceiling requested hread) (not_le.mpr hlarge)
    · refine ⟨fun value ↦ n_advertised hone hn, ?_, ?_⟩
      · intro number hkey
        by_contra hlarge
        refine hlimit ⟨number, hlarge, .inr ⟨hkey, ?_⟩⟩
        rcases not_atMost_posInt hlarge with hskipped | ⟨n, rfl, hbeyond⟩
        · exact .inl hskipped
        · -- A limit that is read stands behind the other key, or it would have been refused.
          right
          by_contra habsent
          rw [Bool.not_eq_true, Option.isSome_eq_false_iff, Option.isNone_iff_eq_none] at habsent
          refine absurd (hceiling n ?_) (not_le.mpr hbeyond)
          rw [requestedTokens, habsent, hkey]
          rfl
      · intro number hkey
        by_contra hlarge
        refine hlimit ⟨number, hlarge, .inl ⟨hkey, ?_⟩⟩
        rcases not_atMost_posInt hlarge with hskipped | ⟨n, rfl, hbeyond⟩
        · exact hskipped
        · refine absurd (hceiling n ?_) (not_le.mpr hbeyond)
          rw [requestedTokens, hkey]
          rfl

/-- Two completions, written as a float, and a million tokens behind a null pass the filters of a
node with a window of 4096. -/
theorem skipped_n_and_limit :
    let body := Value.object [("max_completion_tokens", .null), ("max_tokens", .nat 1000000),
      ("model", .string "m"), ("n", .number (.float 0x4000000000000000))]
    rejectUnsupported .chatCompletions body = none ∧
      rejectTokenCeiling body (some 4096) = none ∧ ¬ Advertised 4096 body := by
  intro body
  refine ⟨by decide +kernel, by decide +kernel, ?_⟩
  intro h
  rcases h.n (.number (.float 0x4000000000000000)) (by decide +kernel) with hnull | hone
  · cases hnull
  · obtain ⟨number, hnumber, hone⟩ := hone
    cases hnumber
    exact absurd hone (by decide +kernel)

end Cameo.Gateway
