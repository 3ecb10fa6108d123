import Cameo.Bytes
import Cameo.Library.Fallible
import Cameo.Library.Quoting

/-!
# Calls by curl

The hub calls a node with the `curl` program, which reads everything about the request from a
configuration on its standard input.  What it reads there are the options that were planned, with
the caller's texts as they are; but it has its own reading of a URL and of data that begin with an
at sign.
-/

namespace Cameo.Hub

open Library

/-! ## The configuration -/

/-- `Policy`. -/
inductive Policy where
  | httpsOnly
  | httpOrHttps
deriving DecidableEq

def Policy.protocols : Policy → String
  | httpsOnly => "=https"
  | httpOrHttps => "=http,https"

/-- `MAX_RESPONSE_BYTES`. -/
def maxResponseBytes : ℕ := 1024 * 1024

/-- `CurlPlan`. -/
structure CurlPlan where
  args : List String
  stdinConfig : String
deriving DecidableEq

/-- A character in `quote_config`. -/
def quoteCharacter : Char → Except String (List Char)
  | '\\' => .ok ['\\', '\\']
  | '"' => .ok ['\\', '"']
  | '\n' => .ok ['\\', 'n']
  | '\r' => .ok ['\\', 'r']
  | '\t' => .ok ['\\', 't']
  | '\x0b' => .ok ['\\', 'v']
  | character =>
    if isControl character then .error "curl request contains an unsupported control character"
    else .ok [character]

/-- `quote_config`. -/
def quoteConfig (value : String) : Except String String :=
  (value.toList.mapM quoteCharacter).map fun quoted ↦
    String.ofList ('"' :: (quoted.flatten ++ ['"']))

def bearerConfig : Option String → Except String String
  | none => .ok ""
  | some token => do
    let header ← quoteConfig ("Authorization: Bearer " ++ token)
    return "header = " ++ header ++ "\n"

def bodyConfig : Option (List UInt8) → Except String String
  | none => .ok ""
  | some bytes =>
    match fromUtf8 bytes with
    | none => .error "outbound JSON request body is not valid UTF-8"
    | some body => do
      let data ← quoteConfig body
      return "header = \"Content-Type: application/json\"\n" ++ ("data-binary = " ++ data ++ "\n")

def settingsConfig (timeoutSecs : ℕ) (policy : Policy) : String :=
  "silent\nshow-error\nfail\n" ++
    ("connect-timeout = " ++ toString (min timeoutSecs 5) ++ "\n") ++
    ("max-time = " ++ toString timeoutSecs ++ "\n") ++
    ("max-filesize = " ++ toString maxResponseBytes ++ "\n") ++
    ("proto = \"" ++ policy.protocols ++ "\"\n") ++
    (if policy.protocols = "=https" then "tlsv1.2\n" else "")

/-- `plan_json_request`. -/
def planJsonRequest (url method : String) (bearer : Option String) (body : Option (List UInt8))
    (timeoutSecs : ℕ) (policy : Policy) : Except String CurlPlan :=
  if ¬ method.toList.all Char.isUpper ∨ method = "" then
    .error "curl request method must contain only uppercase ASCII letters"
  else if timeoutSecs = 0 ∨ timeoutSecs > 300 then
    .error "curl timeout must be between 1 and 300 seconds"
  else do
    let quotedMethod ← quoteConfig method
    let quotedUrl ← quoteConfig url
    let bearerLines ← bearerConfig bearer
    let bodyLines ← bodyConfig body
    return ⟨["--config", "-"], settingsConfig timeoutSecs policy ++
      ("request = " ++ quotedMethod ++ "\n") ++ ("url = " ++ quotedUrl ++ "\n") ++ bearerLines ++
      bodyLines⟩

/-! ## What curl reads -/

structure ConfigOption where
  name : String
  param : Option String
deriving DecidableEq

/-- `ISSPACE`. -/
def isConfigSpace (c : Char) : Bool := c ∈ [' ', '\t', '\n', '\x0b', '\x0c', '\r']

/-- What is written for a character after a backslash. -/
def configEscape : Char → Option Char
  | '\\' => some '\\'
  | '"' => some '"'
  | '\n' => some 'n'
  | '\r' => some 'r'
  | '\t' => some 't'
  | '\x0b' => some 'v'
  | _ => none

/-- What a character after a backslash stands for; itself, if it has no meaning. -/
def configUnescape : Char → Char
  | 'n' => '\n'
  | 'r' => '\r'
  | 't' => '\t'
  | 'v' => '\x0b'
  | c => c

def configQuoting : Quoting Char where
  escape := '\\'
  delimiter := '"'
  encode := configEscape
  decode := configUnescape
  escape_ne_delimiter := by decide
  encode_escape := rfl
  encode_delimiter := rfl
  decode_encode := by
    intro x letter h
    unfold configEscape at h
    split at h
    all_goals cases h
    all_goals rfl

/-- The parameter of an option: quoted, or up to the next space; none if it is empty. -/
def readParam : List Char → Option String
  | '"' :: quoted => some (String.ofList (configQuoting.unquote quoted))
  | text =>
    let param := text.takeWhile fun c ↦ !isConfigSpace c
    if param = [] then none else some (String.ofList param)

/-- The option on a line, if that is neither blank nor a comment.  Its name ends at a space or, if
it has no dashes, at a colon or an equals sign. -/
def readOption (line : List Char) : Option ConfigOption :=
  match line.dropWhile isConfigSpace with
  | [] => none
  | '#' :: _ => none
  | first :: rest =>
    let separates (c : Char) := isConfigSpace c || (first ≠ '-' && (c = '=' || c = ':'))
    let text := first :: rest
    some ⟨String.ofList (text.takeWhile fun c ↦ !separates c),
      readParam ((text.dropWhile fun c ↦ !separates c).dropWhile separates)⟩

def readConfig (config : String) : List ConfigOption :=
  (config.toList.splitOn '\n').filterMap readOption

/-- Data to send: bytes, or what is in a file. -/
inductive Payload where
  | bytes (data : List UInt8)
  | file (path : String)
deriving DecidableEq

/-- `--data-binary`. -/
def payloadOf (value : String) : Payload :=
  match value.toList with
  | '@' :: path => .file (String.ofList path)
  | _ => .bytes (Cameo.bytes value)

structure CurlRequest where
  url : String
  method : Option String
  headers : List String
  data : List Payload
deriving DecidableEq

def paramsOf (name : String) (options : List ConfigOption) : List String :=
  (options.filter fun option ↦ option.name = name).filterMap ConfigOption.param

/-- The requests that options are for, if curl can read the URLs: `glob` is what it makes of one. -/
def requestsOf (glob : String → Option (List String)) (options : List ConfigOption) :
    Option (List CurlRequest) :=
  ((paramsOf "url" options).mapM glob).map fun urls ↦ urls.flatten.map fun url ↦
    ⟨url, (paramsOf "request" options).getLast?, paramsOf "header" options,
      (paramsOf "data-binary" options).map payloadOf⟩

def settingsOf (options : List ConfigOption) : List ConfigOption :=
  options.filter fun option ↦ option.name ∉ ["url", "request", "header", "data-binary"]

/-! ## Reading lines back -/

/-- A text is lines with the given options, one after the other. -/
def Writes (text : String) (options : List ConfigOption) : Prop :=
  ∃ lines : List (List Char), text.toList = lines.flatMap (· ++ ['\n']) ∧
    (∀ line ∈ lines, '\n' ∉ line) ∧ lines.filterMap readOption = options

theorem Writes.empty : Writes "" [] := ⟨[], rfl, nofun, rfl⟩

theorem Writes.append {first second : String} {options others : List ConfigOption}
    (h : Writes first options) (hsecond : Writes second others) :
    Writes (first ++ second) (options ++ others) := by
  obtain ⟨lines, htext, hlines, hoptions⟩ := h
  obtain ⟨lines', htext', hlines', hothers⟩ := hsecond
  refine ⟨lines ++ lines', ?_, ?_, ?_⟩
  · rw [String.toList_append, htext, htext', List.flatMap_append]
  · exact List.forall_mem_append.mpr ⟨hlines, hlines'⟩
  · rw [List.filterMap_append, hoptions, hothers]

/-- One line. -/
theorem Writes.line {text : String} {option : ConfigOption} (hline : '\n' ∉ text.toList)
    (hread : readOption text.toList = some option) : Writes (text ++ "\n") [option] := by
  refine ⟨[text.toList], ?_, ?_, ?_⟩
  · rw [String.toList_append, List.flatMap_singleton]
    rfl
  · simpa using hline
  · rw [List.filterMap_cons_some hread, List.filterMap_nil]

theorem Writes.readConfig_eq {config : String} {options : List ConfigOption}
    (h : Writes config options) : readConfig config = options := by
  obtain ⟨lines, htext, hlines, hoptions⟩ := h
  have hsplit : (lines.flatMap (· ++ ['\n'])).splitOn '\n' = lines ++ [[]] := by
    clear htext hoptions
    induction lines with
    | nil => rfl
    | cons line rest ih =>
      obtain ⟨hline, hrest⟩ := List.forall_mem_cons.mp hlines
      rw [List.flatMap_cons, List.append_assoc, List.singleton_append,
        List.splitOn_append_cons_self_of_not_mem hline, ih hrest, List.cons_append]
  rw [readConfig, htext, hsplit, List.filterMap_append, hoptions]
  exact List.append_nil options

/-! ## Reading an option back -/

/-- A character that ends the name of an option. -/
def separates (c : Char) : Bool := isConfigSpace c || c = '=' || c = ':'

/-- A long name without its dashes. -/
def isOptionName : List Char → Bool
  | [] => false
  | first :: rest => first ≠ '#' && first ≠ '-' && (first :: rest).all fun c ↦ !separates c

/-- A name ends where the line does or at a separator. -/
theorem readOption_append {name after : List Char} (hname : isOptionName name = true)
    (hafter : ∀ c ∈ after.head?, separates c = true) :
    readOption (name ++ after) =
      some ⟨String.ofList name, readParam (after.dropWhile separates)⟩ := by
  cases name with
  | nil => cases hname
  | cons first rest =>
    simp only [isOptionName, Bool.and_eq_true, decide_eq_true_eq] at hname
    obtain ⟨⟨hcomment, hdash⟩, hall⟩ := hname
    have hsame (c : Char) : (isConfigSpace c || (first ≠ '-' && (c = '=' || c = ':'))) =
        separates c := by
      simp [separates, hdash, Bool.or_assoc]
    have hfirst : isConfigSpace first = false := by
      have hplain := List.all_eq_true.mp hall first List.mem_cons_self
      simp only [separates, Bool.not_eq_true', Bool.or_eq_false_iff] at hplain
      exact hplain.1.1
    have hpass : ∀ c ∈ first :: rest, (!separates c) = true := List.all_eq_true.mp hall
    have hends : after.takeWhile (fun c ↦ !separates c) = [] ∧
        after.dropWhile (fun c ↦ !separates c) = after := by
      cases after with
      | nil => exact ⟨rfl, rfl⟩
      | cons c after =>
        have hc : ¬ (!separates c) = true := by simp [hafter c rfl]
        exact ⟨List.takeWhile_cons_of_neg hc, List.dropWhile_cons_of_neg hc⟩
    unfold readOption
    rw [List.cons_append, List.dropWhile_cons_of_neg (by simp [hfirst])]
    split
    · rename_i heq
      cases heq
    · rename_i heq
      exact absurd (List.cons.inj heq).1 hcomment
    · rename_i heq
      obtain ⟨rfl, rfl⟩ := List.cons.inj heq
      simp only [hsame]
      rw [← List.cons_append, List.takeWhile_append_of_pos hpass,
        List.dropWhile_append_of_pos hpass, hends.1, hends.2, List.append_nil]

theorem separates_of_isDigit {c : Char} (h : c.isDigit = true) : separates c = false := by
  rw [← Bool.not_eq_true]
  intro hseparates
  simp only [separates, isConfigSpace, Bool.or_eq_true, decide_eq_true_eq, List.mem_cons,
    List.not_mem_nil, or_false] at hseparates
  rcases hseparates with ((rfl | rfl | rfl | rfl | rfl | rfl) | rfl) | rfl
  all_goals exact absurd h (by decide)

/-- The decimal digits of a number are read back. -/
theorem readParam_toString (n : ℕ) : readParam (toString n).toList = some (toString n) := by
  have hplain : ∀ c ∈ (toString n).toList, (!isConfigSpace c) = true := by
    intro c hc
    have hseparates := separates_of_isDigit (isDigit_of_mem_decimal hc)
    simp only [separates, Bool.or_eq_false_iff] at hseparates
    rw [hseparates.1.1]
    rfl
  have hne : (toString n).toList ≠ [] := decimal_ne_nil n
  unfold readParam
  split
  · rename_i quoted heq
    exact absurd (isDigit_of_mem_decimal (heq ▸ List.mem_cons_self)) (by decide)
  · dsimp only
    rw [List.takeWhile_eq_self_iff.mpr hplain, if_neg hne, String.ofList_toList]

theorem separates_newline : separates '\n' = true := by decide

theorem newline_not_mem_of_isOptionName {name : List Char} (h : isOptionName name = true) :
    '\n' ∉ name := by
  intro hmem
  cases name with
  | nil => cases hmem
  | cons first rest =>
    simp only [isOptionName, Bool.and_eq_true] at h
    have hplain := List.all_eq_true.mp h.2 '\n' hmem
    rw [separates_newline] at hplain
    cases hplain

/-- A line with a parameter, after an equals sign. -/
theorem Writes.assign {name lead param value : String}
    (hlead : lead.toList = name.toList ++ [' ', '=', ' '])
    (hname : isOptionName name.toList = true)
    (hfirst : ∀ c ∈ param.toList.head?, separates c = false) (hline : '\n' ∉ param.toList)
    (hread : readParam param.toList = some value) :
    Writes (lead ++ param ++ "\n") [⟨name, some value⟩] := by
  have htext : (lead ++ param).toList = name.toList ++ (' ' :: '=' :: ' ' :: param.toList) := by
    rw [String.toList_append, hlead, List.append_assoc]
    rfl
  have hskip : (' ' :: '=' :: ' ' :: param.toList).dropWhile separates = param.toList := by
    rw [List.dropWhile_cons_of_pos (by decide), List.dropWhile_cons_of_pos (by decide),
      List.dropWhile_cons_of_pos (by decide)]
    cases hparam : param.toList with
    | nil => rfl
    | cons c rest =>
      rw [hparam] at hfirst
      exact List.dropWhile_cons_of_neg (by simp [hfirst c rfl])
  have hspace : ∀ c ∈ (' ' :: '=' :: ' ' :: param.toList).head?, separates c = true := by
    rintro c hc
    obtain rfl := Option.some.inj hc
    decide
  apply Writes.line
  · rw [htext, List.mem_append]
    rintro (hmem | hmem)
    · exact newline_not_mem_of_isOptionName hname hmem
    · simp only [List.mem_cons] at hmem
      rcases hmem with heq | heq | heq | hmem
      · cases heq
      · cases heq
      · cases heq
      · exact hline hmem
  · rw [htext, readOption_append hname hspace, hskip, hread, String.ofList_toList]

/-- A line with a number. -/
theorem Writes.number {name lead : String} (hlead : lead.toList = name.toList ++ [' ', '=', ' '])
    (hname : isOptionName name.toList = true) (n : ℕ) :
    Writes (lead ++ toString n ++ "\n") [⟨name, some (toString n)⟩] := by
  apply Writes.assign hlead hname
  · exact fun c hc ↦ separates_of_isDigit (isDigit_of_mem_decimal (List.mem_of_head? hc))
  · exact fun hmem ↦ absurd (isDigit_of_mem_decimal hmem) (by decide)
  · exact readParam_toString n

theorem quoteCharacter_eq_ok {c : Char} {quoted : List Char} (h : quoteCharacter c = .ok quoted) :
    quoted = configQuoting.quoteOne c := by
  unfold quoteCharacter at h
  split at h
  · exact (Except.ok.inj h).symm
  · exact (Except.ok.inj h).symm
  · exact (Except.ok.inj h).symm
  · exact (Except.ok.inj h).symm
  · exact (Except.ok.inj h).symm
  · exact (Except.ok.inj h).symm
  · split at h
    · cases h
    · obtain rfl := Except.ok.inj h
      have hplain : configEscape c = none := by
        unfold configEscape
        split
        all_goals first | contradiction | rfl
      unfold Quoting.quoteOne
      rw [show configQuoting.encode c = none from hplain]

theorem quoteConfig_eq_ok {value quoted : String} (h : quoteConfig value = .ok quoted) :
    quoted.toList = '"' :: (configQuoting.quote value.toList ++ ['"']) := by
  unfold quoteConfig at h
  generalize value.toList = text at h ⊢
  cases hmap : text.mapM quoteCharacter with
  | error e =>
    rw [hmap] at h
    cases h
  | ok pieces =>
    rw [hmap] at h
    obtain rfl := Except.ok.inj h
    have hpieces : pieces.flatten = configQuoting.quote text := by
      have hall := mapM_ok hmap
      clear hmap h
      induction hall with
      | nil => rfl
      | cons hfirst _ ih =>
        rw [List.flatten_cons, ih, quoteCharacter_eq_ok hfirst]
        rfl
    rw [String.toList_ofList, hpieces]

/-- What is between quotes in a configuration is on one line. -/
theorem newline_not_mem_quote (text : List Char) : '\n' ∉ configQuoting.quote text := by
  refine configQuoting.not_mem_quote rfl (by decide) ?_ text
  intro x letter h
  change configEscape x = some letter at h
  unfold configEscape at h
  split at h
  all_goals
    rintro rfl
    exact absurd h (by decide)

/-- A line with a quoted text. -/
theorem Writes.quoted {name lead value quoted : String}
    (hlead : lead.toList = name.toList ++ [' ', '=', ' '])
    (hname : isOptionName name.toList = true) (h : quoteConfig value = .ok quoted) :
    Writes (lead ++ quoted ++ "\n") [⟨name, some value⟩] := by
  have hquoted := quoteConfig_eq_ok h
  apply Writes.assign hlead hname
  · rw [hquoted]
    rintro c hc
    obtain rfl := Option.some.inj hc
    decide
  · rw [hquoted, List.mem_cons, List.mem_append, List.mem_singleton]
    rintro (heq | hmem | heq)
    · cases heq
    · exact newline_not_mem_quote _ hmem
    · cases heq
  · rw [hquoted]
    have hread : configQuoting.unquote (configQuoting.quote value.toList ++ ['"']) = value.toList :=
      configQuoting.unquote_quote value.toList []
    rw [readParam, hread, String.ofList_toList]

/-! ## What a plan says -/

def planSettings (timeoutSecs : ℕ) (policy : Policy) : List ConfigOption :=
  [⟨"silent", none⟩, ⟨"show-error", none⟩, ⟨"fail", none⟩,
    ⟨"connect-timeout", some (toString (min timeoutSecs 5))⟩,
    ⟨"max-time", some (toString timeoutSecs)⟩, ⟨"max-filesize", some (toString maxResponseBytes)⟩,
    ⟨"proto", some policy.protocols⟩] ++
  (if policy.protocols = "=https" then [⟨"tlsv1.2", none⟩] else [])

def bearerOptions : Option String → List ConfigOption
  | none => []
  | some token => [⟨"header", some ("Authorization: Bearer " ++ token)⟩]

def bodyOptions : Option String → List ConfigOption
  | none => []
  | some body =>
    [⟨"header", some "Content-Type: application/json"⟩, ⟨"data-binary", some body⟩]

theorem writes_bearerConfig {bearer : Option String} {text : String}
    (h : bearerConfig bearer = .ok text) : Writes text (bearerOptions bearer) := by
  cases bearer with
  | none =>
    obtain rfl := Except.ok.inj h
    exact .empty
  | some token =>
    obtain ⟨header, hheader, h⟩ := bind_eq_ok.mp h
    obtain rfl := Except.ok.inj h
    exact .quoted (by decide) (by decide) hheader

theorem writes_bodyConfig {body : Option (List UInt8)} {text : String}
    (h : bodyConfig body = .ok text) :
    ∃ decoded : Option String, decoded.map Cameo.bytes = body ∧
      Writes text (bodyOptions decoded) := by
  cases body with
  | none =>
    obtain rfl := Except.ok.inj h
    exact ⟨none, rfl, .empty⟩
  | some bytes =>
    cases hbytes : fromUtf8 bytes with
    | none =>
      rw [bodyConfig, hbytes] at h
      cases h
    | some decoded =>
      rw [bodyConfig, hbytes] at h
      obtain ⟨data, hdata, h⟩ := bind_eq_ok.mp h
      obtain rfl := Except.ok.inj h
      have hheader : Writes "header = \"Content-Type: application/json\"\n"
          [⟨"header", some "Content-Type: application/json"⟩] :=
        ⟨["header = \"Content-Type: application/json\"".toList], by decide, by decide,
          by decide +kernel⟩
      exact ⟨some decoded, congrArg some (bytes_of_fromUtf8 hbytes),
        hheader.append (.quoted (by decide) (by decide) hdata)⟩

theorem writes_settingsConfig (timeoutSecs : ℕ) (policy : Policy) :
    Writes (settingsConfig timeoutSecs policy) (planSettings timeoutSecs policy) := by
  have hflags : Writes "silent\nshow-error\nfail\n"
      [⟨"silent", none⟩, ⟨"show-error", none⟩, ⟨"fail", none⟩] :=
    ⟨["silent".toList, "show-error".toList, "fail".toList], by decide, by decide,
      by decide +kernel⟩
  have hproto : Writes ("proto = \"" ++ policy.protocols ++ "\"\n")
      [⟨"proto", some policy.protocols⟩] := by
    refine ⟨[("proto = \"" ++ policy.protocols ++ "\"").toList], ?_⟩
    cases policy with
    | httpsOnly => exact ⟨by decide, by decide, by decide +kernel⟩
    | httpOrHttps => exact ⟨by decide, by decide, by decide +kernel⟩
  have htls : Writes (if policy.protocols = "=https" then "tlsv1.2\n" else "")
      (if policy.protocols = "=https" then [⟨"tlsv1.2", none⟩] else []) := by
    split
    · exact ⟨["tlsv1.2".toList], by decide, by decide, by decide +kernel⟩
    · exact .empty
  have hconnect := @Writes.number "connect-timeout" "connect-timeout = " (by decide) (by decide)
    (min timeoutSecs 5)
  have hmax := @Writes.number "max-time" "max-time = " (by decide) (by decide) timeoutSecs
  have hsize := @Writes.number "max-filesize" "max-filesize = " (by decide) (by decide)
    maxResponseBytes
  exact ((((hflags.append hconnect).append hmax).append hsize).append hproto).append htls

/-- What curl reads are the options that were planned. -/
theorem readConfig_of_plan {url method : String} {bearer : Option String}
    {body : Option (List UInt8)} {timeoutSecs : ℕ} {policy : Policy} {plan : CurlPlan}
    (h : planJsonRequest url method bearer body timeoutSecs policy = .ok plan) :
    ∃ decoded : Option String, decoded.map Cameo.bytes = body ∧ plan.args = ["--config", "-"] ∧
      readConfig plan.stdinConfig = planSettings timeoutSecs policy ++
        [⟨"request", some method⟩] ++ [⟨"url", some url⟩] ++ bearerOptions bearer ++
        bodyOptions decoded := by
  unfold planJsonRequest at h
  split at h
  · cases h
  · split at h
    · cases h
    · obtain ⟨quotedMethod, hmethod, h⟩ := bind_eq_ok.mp h
      obtain ⟨quotedUrl, hurl, h⟩ := bind_eq_ok.mp h
      obtain ⟨bearerLines, hbearer, h⟩ := bind_eq_ok.mp h
      obtain ⟨bodyLines, hbody, h⟩ := bind_eq_ok.mp h
      obtain rfl := Except.ok.inj h
      obtain ⟨decoded, hdecoded, hbodyLines⟩ := writes_bodyConfig hbody
      have hrequest := @Writes.quoted "request" "request = " _ _ (by decide) (by decide) hmethod
      have htarget := @Writes.quoted "url" "url = " _ _ (by decide) (by decide) hurl
      have hwrites := ((((writes_settingsConfig timeoutSecs policy).append hrequest).append
        htarget).append (writes_bearerConfig hbearer)).append hbodyLines
      exact ⟨decoded, hdecoded, rfl, hwrites.readConfig_eq⟩

/-! ## The request that curl makes -/

def askedRequest (url method : String) (bearer : Option String) (body : Option (List UInt8)) :
    CurlRequest where
  url := url
  method := some method
  headers := (bearer.map fun token ↦ "Authorization: Bearer " ++ token).toList ++
    (body.map fun _ ↦ "Content-Type: application/json").toList
  data := (body.map Payload.bytes).toList

/-- A plan makes curl send the request that the caller asks for, and nothing else. -/
structure CarriesExactly (glob : String → Option (List String)) (plan : CurlPlan)
    (url method : String) (bearer : Option String) (body : Option (List UInt8)) (timeoutSecs : ℕ)
    (policy : Policy) : Prop where
  args : plan.args = ["--config", "-"]
  settings : settingsOf (readConfig plan.stdinConfig) = planSettings timeoutSecs policy
  requests : requestsOf glob (readConfig plan.stdinConfig) =
    some [askedRequest url method bearer body]

def planOptions (url method : String) (bearer body : Option String) (timeoutSecs : ℕ)
    (policy : Policy) : List ConfigOption :=
  planSettings timeoutSecs policy ++ [⟨"request", some method⟩] ++ [⟨"url", some url⟩] ++
    bearerOptions bearer ++ bodyOptions body

theorem settingsOf_planOptions (url method : String) (bearer body : Option String)
    (timeoutSecs : ℕ) (policy : Policy) :
    settingsOf (planOptions url method bearer body timeoutSecs policy) =
      planSettings timeoutSecs policy := by
  unfold settingsOf planOptions planSettings
  cases bearer <;> cases body <;> cases policy <;> simp [bearerOptions, bodyOptions]

theorem paramsOf_planOptions (url method : String) (bearer body : Option String)
    (timeoutSecs : ℕ) (policy : Policy) :
    paramsOf "url" (planOptions url method bearer body timeoutSecs policy) = [url] ∧
    paramsOf "request" (planOptions url method bearer body timeoutSecs policy) = [method] ∧
    paramsOf "header" (planOptions url method bearer body timeoutSecs policy) =
      (bearer.map fun token ↦ "Authorization: Bearer " ++ token).toList ++
        (body.map fun _ ↦ "Content-Type: application/json").toList ∧
    paramsOf "data-binary" (planOptions url method bearer body timeoutSecs policy) =
      body.toList := by
  unfold paramsOf planOptions planSettings
  cases bearer <;> cases body <;> cases policy <;> simp [bearerOptions, bodyOptions]

/-- A text begins with an at sign when its first byte is one. -/
theorem head?_bytes_eq_at_iff {text : List Char} :
    (text.flatMap String.utf8EncodeChar).head? = some 64 ↔ ∃ rest, text = '@' :: rest := by
  cases text with
  | nil => exact iff_of_false nofun (by rintro ⟨rest, h⟩; cases h)
  | cons c rest =>
    rw [List.flatMap_cons]
    constructor
    · intro h
      by_cases hascii : c.toNat < 0x80
      · rw [utf8EncodeChar_of_ascii hascii] at h
        have hcode := congrArg UInt8.toNat (Option.some.inj h)
        rw [UInt8.toNat_ofNat', Nat.mod_eq_of_lt (by omega)] at hcode
        have hchar : c.toNat = '@'.toNat := hcode
        exact ⟨rest, by rw [Char.toNat_inj.mp hchar]⟩
      · have hhigh := le_of_mem_utf8EncodeChar (not_lt.mp hascii)
        cases hbytes : String.utf8EncodeChar c with
        | nil =>
          have hlength := congrArg List.length hbytes
          rw [String.length_utf8EncodeChar] at hlength
          exact absurd hlength (Char.utf8Size_pos c).ne'
        | cons byte bytes =>
          rw [hbytes] at h hhigh
          obtain rfl : byte = 64 := Option.some.inj h
          exact absurd (hhigh 64 List.mem_cons_self) (by decide)
    · rintro ⟨rest', heq⟩
      rw [(List.cons.inj heq).1]
      rfl

/-- Data are sent as they are unless they begin with an at sign. -/
theorem payloadOf_eq_bytes_iff (value : String) :
    payloadOf value = .bytes (Cameo.bytes value) ↔ (Cameo.bytes value).head? ≠ some 64 := by
  rw [bytes_eq_flatMap, Ne, head?_bytes_eq_at_iff]
  unfold payloadOf
  split
  · rename_i path htext
    exact iff_of_false nofun (not_not.mpr ⟨path, htext⟩)
  · rename_i hnot
    rw [bytes_eq_flatMap]
    exact iff_of_true rfl fun ⟨rest, htext⟩ ↦ hnot rest htext

/-- The requests that a plan stands for: one for each URL that curl makes of the caller's, with the
caller's method and headers, and with the body as curl takes it. -/
theorem requestsOf_plan {url method : String} {bearer : Option String} {body : Option (List UInt8)}
    {timeoutSecs : ℕ} {policy : Policy} {plan : CurlPlan}
    (h : planJsonRequest url method bearer body timeoutSecs policy = .ok plan) :
    ∃ decoded : Option String, decoded.map Cameo.bytes = body ∧ plan.args = ["--config", "-"] ∧
      settingsOf (readConfig plan.stdinConfig) = planSettings timeoutSecs policy ∧
      ∀ glob, requestsOf glob (readConfig plan.stdinConfig) = (glob url).map fun urls ↦
        urls.map fun target ↦ ⟨target, some method, (askedRequest url method bearer body).headers,
          decoded.toList.map payloadOf⟩ := by
  obtain ⟨decoded, rfl, hargs, hread⟩ := readConfig_of_plan h
  change readConfig plan.stdinConfig = planOptions url method bearer decoded timeoutSecs policy
    at hread
  obtain ⟨hurl, hmethod, hheader, hdata⟩ :=
    paramsOf_planOptions url method bearer decoded timeoutSecs policy
  refine ⟨decoded, rfl, hargs, ?_, fun glob ↦ ?_⟩
  · rw [hread]
    exact settingsOf_planOptions url method bearer decoded timeoutSecs policy
  · rw [hread, requestsOf, hurl, hmethod, hheader, hdata, List.mapM_cons, List.mapM_nil]
    cases glob url <;> cases decoded <;> simp [askedRequest]

/-- What curl is told is the caller's request and nothing else exactly when the URL stands for
itself and the body does not begin with an at sign. -/
theorem carriesExactly_iff (glob : String → Option (List String)) (url method : String)
    (bearer : Option String) (body : Option (List UInt8)) (timeoutSecs : ℕ) (policy : Policy)
    (plan : CurlPlan) (h : planJsonRequest url method bearer body timeoutSecs policy = .ok plan) :
    CarriesExactly glob plan url method bearer body timeoutSecs policy ↔
      glob url = some [url] ∧ ∀ data ∈ body, data.head? ≠ some 64 := by
  obtain ⟨decoded, rfl, hargs, hsettings, hrequests⟩ := requestsOf_plan h
  have hpayload : decoded.toList.map payloadOf =
      ((decoded.map Cameo.bytes).map Payload.bytes).toList ↔
        ∀ data ∈ decoded.map Cameo.bytes, data.head? ≠ some 64 := by
    cases decoded with
    | none => simp
    | some text => simpa using payloadOf_eq_bytes_iff text
  rw [← hpayload]
  constructor
  · rintro ⟨-, -, hasked⟩
    rw [hrequests] at hasked
    obtain ⟨urls, hglob, hasked⟩ := Option.map_eq_some_iff.mp hasked
    obtain ⟨target, others, rfl, htarget, hothers⟩ := List.map_eq_cons_iff.mp hasked
    obtain rfl := List.map_eq_nil_iff.mp hothers
    obtain ⟨rfl, -, -, hdata⟩ := CurlRequest.mk.inj htarget
    exact ⟨hglob, hdata⟩
  · rintro ⟨hglob, hdata⟩
    refine ⟨hargs, hsettings, ?_⟩
    rw [hrequests, hglob, hdata]
    rfl

/-- What curl makes of a URL without the characters that it expands. -/
def literalGlob (url : String) : Option (List String) :=
  if url.toList.all fun c ↦ c ∉ ['{', '}', '[', ']'] then some [url] else none

def pairingPlan : CurlPlan where
  args := ["--config", "-"]
  stdinConfig := "silent\nshow-error\nfail\nconnect-timeout = 5\nmax-time = 20\n" ++
    "max-filesize = 1048576\nproto = \"=https\"\ntlsv1.2\nrequest = \"POST\"\n" ++
    "url = \"https://hub.example/hub/pair\"\n" ++
    "header = \"Authorization: Bearer device-secret\"\n" ++
    "header = \"Content-Type: application/json\"\ndata-binary = \"[\\\"a\\\"]\"\n"

theorem carriesExactly_pairing :
    CarriesExactly literalGlob pairingPlan "https://hub.example/hub/pair" "POST"
      (some "device-secret") (some (Cameo.bytes "[\"a\"]")) 20 .httpsOnly ↔
    literalGlob "https://hub.example/hub/pair" = some ["https://hub.example/hub/pair"] ∧
      ∀ data ∈ some (Cameo.bytes "[\"a\"]"), data.head? ≠ some 64 :=
  carriesExactly_iff literalGlob _ _ _ _ _ _ pairingPlan (by decide +kernel)

/-- A body that begins with an at sign makes curl read a file. -/
theorem body_reads_file :
    ¬ (∀ url method bearer body timeoutSecs policy plan,
      planJsonRequest url method bearer body timeoutSecs policy = .ok plan →
        CarriesExactly literalGlob plan url method bearer body timeoutSecs policy) := by
  intro h
  have hplanned : (planJsonRequest "https://node.example:9090/api/servers" "POST" none
      (some (Cameo.bytes "@/etc/passwd")) 20 .httpsOnly).toOption.isSome = true := by
    decide +kernel
  cases hplan : planJsonRequest "https://node.example:9090/api/servers" "POST" none
      (some (Cameo.bytes "@/etc/passwd")) 20 .httpsOnly with
  | error e =>
    rw [hplan] at hplanned
    cases hplanned
  | ok plan =>
    obtain ⟨decoded, hdecoded, -, -, hrequests⟩ := requestsOf_plan hplan
    obtain ⟨text, rfl, htext⟩ := Option.map_eq_some_iff.mp hdecoded
    obtain rfl := bytes_inj htext
    have hurl : literalGlob "https://node.example:9090/api/servers" =
        some ["https://node.example:9090/api/servers"] := by decide +kernel
    have hasked := (h _ _ _ _ _ _ plan hplan).requests
    rw [hrequests, hurl] at hasked
    have hsent := (List.cons.inj (Option.some.inj hasked)).1
    have hdata : [payloadOf "@/etc/passwd"] = [Payload.bytes (Cameo.bytes "@/etc/passwd")] :=
      congrArg CurlRequest.data hsent
    have hfile : payloadOf "@/etc/passwd" = .file "/etc/passwd" := by decide +kernel
    rw [hfile] at hdata
    cases (List.cons.inj hdata).1

end Cameo.Hub
