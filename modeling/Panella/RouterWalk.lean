import Panella.Lib.Replace
import Panella.Router

/-!
# The model router's walk (`panella/model_router.py`)

| here | there |
| --- | --- |
| `isLocalEndpoint`, `resolveCredential` | `_is_local_endpoint` (:213-228), `_resolve_credential` (:298-314) |
| `Secrets`, `redact` | `_redact` (:316-326) |
| `turn`, `walk`, `MemoryModelRouter.invoke` | `_invoke` (:328-348) |
| `openaiRequest`, `openaiAnswer`, `openaiCompatibleTransport` | `_openai_compatible_transport` (:128-155) |
| `anthropicRequest`, `anthropicAnswer`, `anthropicTransport` | `_anthropic_transport` (:158-183) |
| `defaultTransport` | `default_transport` (:186-206) |

The endpoints answer as they like, each also according to what was sent before. The walk asks them in the order of the bindings, each
once, up to the first that answers with a text (**`invoke_first`**). A request carries the key of its own binding or, on the way to the
own machine, none (**`sent_keyed`**), and nothing else of the environment has an effect on what is sent (**`invoke_agrees`**). Whatever
transport is put in, no key is in the error of a walk that fails (**`failure_redacted`**).
-/

namespace Panella.Router

open PyJson PyText Fallible

/-! ## Credentials -/

/-- An exception, a `TransportError` or another. -/
inductive CallErr
  | transport (message : String)
  | other (typeName message : String)

def CallErr.reason : CallErr → String
  | .transport message => message
  | .other typeName message => typeName ++ ": " ++ message

/-- What `json.loads` raises: a `ValueError` of some class, or another. -/
inductive LoadErr
  | value (typeName : String)
  | other (typeName message : String)

structure RouterLib where
  /-- `urlparse(endpoint).hostname`. -/
  hostname : String → Except CallErr (Option String)
  /-- `host.lower()`. -/
  lower : String → String
  /-- `ipaddress.ip_address(host).is_loopback`, which `ValueError` leaves open. -/
  isLoopback : String → Option Bool
  /-- `json.loads(raw)`. -/
  loads : List UInt8 → Except LoadErr Json

def isLocalEndpoint (lib : RouterLib) (endpoint : Option String) : Except CallErr Bool :=
  match endpoint.filter (· ≠ "") with
  | none => .ok true
  | some e => (lib.hostname e).map fun hostname =>
    let host := lib.lower (hostname.getD "")
    host = "localhost" || (lib.isLoopback host).getD false

/-- The credential of a binding; `none` for what carries its own. -/
def resolveCredential (lib : RouterLib) (env : Environ) (b : ProviderBinding) : Except CallErr (Option String) :=
  if b.authMode = "api_key" then
    if env.value b.credentialRef = "" then
      (if b.provider = "ollama" then isLocalEndpoint lib b.endpoint else .ok false) >>= fun isLocal =>
        if isLocal then .ok (some "")
        else .error (.transport (b.provider ++ ": credential env " ++ b.credentialRef ++ " not set"))
    else .ok (some (env.value b.credentialRef))
  else .ok none

/-! ## Redaction -/

def longValues (env : Environ) : List String := ((env.map Prod.snd).filter fun value => 8 ≤ value.length).dedup

/-- `sorted({v for v in …}, key=len, reverse=True)`: the order of a set is open, so is that of values of one length. -/
structure Secrets (env : Environ) where
  values : List String
  perm : values.Perm (longValues env)
  longestFirst : values.Pairwise fun v w => w.length ≤ v.length

def redaction : String := "***"

def redact (values : List String) (text : String) : String :=
  values.foldl (fun out value =>
    if value.toList <:+: out.toList then String.ofList (Replace.replace value.toList redaction.toList out.toList) else out) text

/-! ## The walk -/

/-- What resolves a binding to a text, `none` where it gives something else. -/
abbrev Transport (σ : Type) := σ → ProviderBinding → Option String → String → String → σ × Except CallErr (Option String)

def ProviderBinding.label (b : ProviderBinding) : String := b.provider ++ "/" ++ b.authMode

def ProviderBinding.emptyResponse (b : ProviderBinding) : String := b.label ++ ": empty response"

section
variable {σ : Type} (lib : RouterLib) {env : Environ} (secrets : Secrets env) (transport : Transport σ) (system user : String)

/-- What a call comes to: a text, or what is noted. -/
def outcome (b : ProviderBinding) : Except CallErr (Option String) → Except String String
  | .error e => .error (redact secrets.values (b.label ++ ": " ++ e.reason))
  | .ok none => .error b.emptyResponse
  | .ok (some text) => if stripSpace text = "" then .error b.emptyResponse else .ok text

def turn (s : σ) (b : ProviderBinding) : σ × Except String String :=
  match resolveCredential lib env b with
  | .error e => (s, outcome secrets b (.error e))
  | .ok credential => ((transport s b credential system user).1, outcome secrets b (transport s b credential system user).2)

def walk : σ → List ProviderBinding → List String → σ × Except (List String) String
  | s, [], errors => (s, .error errors)
  | s, b :: bs, errors =>
    match turn lib secrets transport system user s b with
    | (s', .ok text) => (s', .ok text)
    | (s', .error reason) => walk s' bs (errors ++ [reason])

def MemoryModelRouter.failureHead (r : MemoryModelRouter env) : String :=
  "all " ++ toString (allBindings r.tiers).length ++ " model-router bindings failed for role=" ++ r.role ++ ":"

/-- `_invoke`, which is also what `chat_fn` and `judge_fn` give; its error is the text of `AllProvidersFailed`. -/
def MemoryModelRouter.invoke (r : MemoryModelRouter env) (s : σ) : σ × Except String String :=
  let (s', result) := walk lib secrets transport system user s (allBindings r.tiers) []
  (s', result.mapError fun errors => r.failureHead ++ " " ++ "; ".intercalate errors)

end

/-! ## The transports -/

structure HttpRequest where
  url : String
  headers : List (String × String)
  /-- What `json.dumps` writes. -/
  payload : Json

/-- What a POST gives or raises, after those that were made before it. -/
abbrev Poster := List HttpRequest → HttpRequest → Except CallErr (Int × List UInt8)

/-- `_OPENAI_COMPAT_ENDPOINTS.get(provider) or ""`. -/
def openaiCompatEndpoint (provider : String) : String :=
  if provider = "openai" then "https://api.openai.com/v1"
  else if provider = "gemini" then "https://generativelanguage.googleapis.com/v1beta/openai"
  else if provider = "ollama" then "http://localhost:11434/v1"
  else ""

def anthropicDefaultEndpoint : String := "https://api.anthropic.com"

/-- `(endpoint or default).rstrip("/")`. -/
def baseUrl (endpoint : Option String) (default : String) : String :=
  String.ofList (((endpoint.filter (· ≠ "")).getD default).toList.rdropWhile (· = '/'))

/-- The header of a credential that is not empty. -/
def authHeader (name scheme : String) (credential : Option String) : List (String × String) :=
  match credential.filter (· ≠ "") with
  | some key => [(name, scheme ++ key)]
  | none => []

def chatMessage (role content : String) : Json := .obj [("role", .str role), ("content", .str content)]

def openaiRequest (b : ProviderBinding) (credential : Option String) (system user : String) : Except CallErr HttpRequest :=
  let base := baseUrl b.endpoint (openaiCompatEndpoint b.provider)
  if base = "" then .error (.transport ("no endpoint configured for provider " ++ b.provider))
  else .ok {
    url := base ++ "/chat/completions"
    headers := ("Content-Type", "application/json") :: authHeader "Authorization" "Bearer " credential
    payload := .obj [("model", .str b.model), ("temperature", .int 0),
      ("messages", .arr [chatMessage "system" system, chatMessage "user" user])] }

def anthropicRequest (b : ProviderBinding) (credential : Option String) (system user : String) : HttpRequest where
  url := baseUrl b.endpoint anthropicDefaultEndpoint ++ "/v1/messages"
  headers := ("Content-Type", "application/json") :: ("anthropic-version", "2023-06-01") :: authHeader "x-api-key" "" credential
  payload := .obj [("model", .str b.model), ("max_tokens", .int 1024), ("system", .str system),
    ("messages", .arr [chatMessage "user" user])]

/-- `v[key]`, or the type of what it raises. -/
def keyItem (key : String) : Json → Except String Json
  | .obj kvs => if Dict.has kvs key then .ok (Dict.get kvs key) else .error "KeyError"
  | _ => .error "TypeError"

/-- `v[0]`. -/
def firstItem : Json → Except String Json
  | .arr (v :: _) => .ok v
  | .arr [] => .error "IndexError"
  | .str s => match s.toList with
    | c :: _ => .ok (.str (String.singleton c))
    | [] => .error "IndexError"
  | .obj _ => .error "KeyError"
  | _ => .error "TypeError"

/-- The part of a response that is looked for. -/
def readResponse (lib : RouterLib) (provider : String) (path : Json → Except String Json) (raw : List UInt8) : Except CallErr Json :=
  match lib.loads raw with
  | .error (.value typeName) => .error (.transport (provider ++ " malformed response: " ++ typeName))
  | .error (.other typeName message) => .error (.other typeName message)
  | .ok v => (path v).mapError fun typeName => .transport (provider ++ " malformed response: " ++ typeName)

/-- A text that is not blank, without the blanks around it. -/
def contentText (provider text : String) : Except CallErr String :=
  if stripSpace text = "" then .error (.transport (provider ++ " response content missing or non-text")) else .ok (stripSpace text)

def openaiAnswer (lib : RouterLib) (provider : String) (response : Int × List UInt8) : Except CallErr String :=
  if response.1 ≠ 200 then .error (.transport (provider ++ " HTTP " ++ toString response.1))
  else do
    let content ← readResponse lib provider
      (fun v => keyItem "choices" v >>= firstItem >>= keyItem "message" >>= keyItem "content") response.2
    match content with
    | .str text => contentText provider text
    | _ => .error (.transport (provider ++ " response content missing or non-text"))

/-- The text of a block, if it is one. -/
def blockText : Json → Option String
  | .obj kvs => match Dict.get kvs "text" with
    | .str text => some text
    | _ => none
  | _ => none

def anthropicAnswer (lib : RouterLib) (response : Int × List UInt8) : Except CallErr String :=
  if response.1 ≠ 200 then .error (.transport ("anthropic HTTP " ++ toString response.1))
  else do
    let blocks ← readResponse lib "anthropic" (keyItem "content") response.2
    match blocks with
    | .arr items => contentText "anthropic" (String.join (items.filterMap blockText))
    | _ => contentText "anthropic" ""

section
variable (lib : RouterLib) (post : Poster)

def openaiCompatibleTransport : Transport (List HttpRequest) := fun sent b credential system user =>
  match openaiRequest b credential system user with
  | .error e => (sent, .error e)
  | .ok q => (sent ++ [q], (post sent q >>= openaiAnswer lib b.provider).map some)

def anthropicTransport : Transport (List HttpRequest) := fun sent b credential system user =>
  let q := anthropicRequest b credential system user
  (sent ++ [q], (post sent q >>= anthropicAnswer lib).map some)

def defaultTransport : Transport (List HttpRequest) := fun sent b credential system user =>
  if b.authMode = "subscription" then
    (sent, .error (.transport ("subscription transport is accepted + routed but deferred (ToS research + a hardened, " ++
      "env-isolated subprocess required); walking to fallback — API-key mode is the default")))
  else if b.authMode = "mcp_connector" then
    (sent, .error (.transport
      "mcp_connector transport is accepted + routed but not yet wired (deferred); walking to fallback"))
  else if b.provider = "anthropic" then anthropicTransport lib post sent b credential system user
  else openaiCompatibleTransport lib post sent b credential system user

end

/-! ## What the errors show -/

theorem toList_redact (values : List String) (text : String) :
    (redact values text).toList = Replace.mask redaction.toList (values.map String.toList) text.toList := by
  induction values generalizing text with
  | nil => rfl
  | cons value values ih =>
    have hstep : (if value.toList <:+: text.toList then
        String.ofList (Replace.replace value.toList redaction.toList text.toList) else text).toList =
          Replace.replace value.toList redaction.toList text.toList := by
      split
      · rw [String.toList_ofList]
      · next hnot => rw [Replace.replace_of_not_infix hnot]
    rw [redact, List.foldl_cons, ← redact, ih, hstep]
    rfl

theorem redaction_ne_nil : redaction.toList ≠ [] := by simp [redaction]

/-- A value that the mark has nothing in common with. -/
theorem disjoint_redaction {value : String} (h : '*' ∉ value.toList) : value.toList.Disjoint redaction.toList := by
  intro c hc hmark
  have hstar : c = '*' := by simpa [redaction] using hmark
  exact h (hstar ▸ hc)

section
variable {σ : Type} {lib : RouterLib} {env : Environ} {secrets : Secrets env} {transport : Transport σ} {system user : String}
  {r : MemoryModelRouter env} {s s' : σ} {b : ProviderBinding} {bs : List ProviderBinding} {errors errors' : List String}
  {value text message : String}

theorem Secrets.mem_iff : value ∈ secrets.values ↔ value ∈ env.map Prod.snd ∧ 8 ≤ value.length := by
  rw [secrets.perm.mem_iff, longValues, List.mem_dedup, List.mem_filter, decide_eq_true_iff]

theorem Secrets.ne_nil (h : value ∈ secrets.values) : value.toList ≠ [] := by
  intro hnil
  have hlength := (Secrets.mem_iff.1 h).2
  rw [← String.length_toList, hnil] at hlength
  cases hlength

/-- **No secret is left** in what is redacted. -/
theorem not_infix_redact (hvalue : value ∈ secrets.values) (hstar : '*' ∉ value.toList) :
    ¬ value.toList <:+: (redact secrets.values text).toList := by
  rw [toList_redact]
  exact Replace.not_infix_mask redaction_ne_nil (List.mem_map_of_mem hvalue) (Secrets.ne_nil hvalue) (disjoint_redaction hstar)

/-- A turn that fails notes that the response was empty, or something redacted. -/
theorem turn_error {reason : String} (h : (turn lib secrets transport system user s b).2 = .error reason) :
    reason = b.emptyResponse ∨ ∃ text, reason = redact secrets.values text := by
  have houtcome : ∀ call, outcome secrets b call = .error reason →
      reason = b.emptyResponse ∨ ∃ text, reason = redact secrets.values text := by
    intro call hcall
    unfold outcome at hcall
    split at hcall
    · exact .inr ⟨_, (Except.error.inj hcall).symm⟩
    · exact .inl (Except.error.inj hcall).symm
    · split_ifs at hcall
      exact .inl (Except.error.inj hcall).symm
  unfold turn at h
  split at h <;> dsimp only at h <;> exact houtcome _ h

theorem walk_error (h : (walk lib secrets transport system user s bs errors).2 = .error errors') :
    ∀ reason ∈ errors', reason ∈ errors ∨ (∃ b ∈ bs, reason = b.emptyResponse) ∨ ∃ text, reason = redact secrets.values text := by
  induction bs generalizing s errors with
  | nil =>
    cases h
    exact fun reason hreason => .inl hreason
  | cons b bs ih =>
    intro reason hreason
    rw [walk] at h
    split at h
    · cases h
    · next s' noted hturn =>
      rcases ih h reason hreason with hold | ⟨b', hb', hempty⟩ | hredacted
      · rcases List.mem_append.1 hold with hold | hnew
        · exact .inl hold
        · obtain rfl := List.mem_singleton.1 hnew
          rcases turn_error (congrArg Prod.snd hturn) with hempty | hredacted
          · exact .inr (.inl ⟨b, List.mem_cons_self, hempty⟩)
          · exact .inr (.inr hredacted)
      · exact .inr (.inl ⟨b', List.mem_cons_of_mem _ hb', hempty⟩)
      · exact .inr (.inr hredacted)

/-- **No secret is in the error of a walk**, whatever the transport raises or answers: a value of the environment of 8 characters or
more, without stars, blanks and semicolons, does not occur in it, if it is no piece of the router's own text. -/
theorem failure_redacted (lib : RouterLib) (secrets : Secrets env) (transport : Transport σ) (system user : String)
    (r : MemoryModelRouter env) (s : σ) (message : String)
    (h : (r.invoke lib secrets transport system user s).2 = .error message) (value : String) (hvalue : value ∈ env.map Prod.snd)
    (hlength : 8 ≤ value.length) (hplain : ∀ c ∈ value.toList, c ≠ '*' ∧ c ≠ ' ' ∧ c ≠ ';')
    (hhead : ¬ value.toList <:+: r.failureHead.toList)
    (hempty : ∀ b ∈ allBindings r.tiers, ¬ value.toList <:+: b.emptyResponse.toList) : ¬ value.toList <:+: message.toList := by
  intro hmessage
  have hsecret : value ∈ secrets.values := Secrets.mem_iff.2 ⟨hvalue, hlength⟩
  have hstar : '*' ∉ value.toList := fun hmem => (hplain _ hmem).1 rfl
  have hblank : value.toList.Disjoint [' '] := fun c hc hmem => (hplain c hc).2.1 (List.mem_singleton.1 hmem)
  have hsep : value.toList.Disjoint "; ".toList := by
    intro c hc hmem
    have hcases : c = ';' ∨ c = ' ' := by simpa using hmem
    rcases hcases with heq | heq
    · exact (hplain c hc).2.2 heq
    · exact (hplain c hc).2.1 heq
  obtain ⟨errors, herrors, rfl⟩ : ∃ errors, (walk lib secrets transport system user s (allBindings r.tiers) []).2 = .error errors ∧
      message = r.failureHead ++ " " ++ "; ".intercalate errors := by
    change Except.mapError _ (walk lib secrets transport system user s (allBindings r.tiers) []).2 = _ at h
    cases hwalk : (walk lib secrets transport system user s (allBindings r.tiers) []).2 with
    | ok text =>
      rw [hwalk] at h
      cases h
    | error errors =>
      rw [hwalk] at h
      exact ⟨errors, rfl, (Except.error.inj h).symm⟩
  have hlist : (r.failureHead ++ " " ++ "; ".intercalate errors).toList =
      r.failureHead.toList ++ ([' '] ++ "; ".toList.intercalate (errors.map String.toList)) := by
    simp [String.toList_append, String.toList_intercalate]
  rw [hlist] at hmessage
  rcases Replace.infix_append_mark (List.cons_ne_nil _ _) hblank hmessage with hin | hrest
  · exact hhead hin
  · obtain ⟨reason, hreason, hin⟩ := Replace.infix_intercalate (by simp) (Secrets.ne_nil hsecret) hsep hrest
    obtain ⟨reason, hmem, rfl⟩ := List.mem_map.1 hreason
    rcases walk_error herrors reason hmem with hnone | ⟨b, hb, rfl⟩ | ⟨text, rfl⟩
    · cases hnone
    · exact hempty b hb hin
    · exact absurd hin (not_infix_redact hsecret hstar)

def sampleLib : RouterLib := ⟨fun _ => .ok none, id, fun _ => none, fun _ => .error (.value "JSONDecodeError")⟩

def sampleEnv : Environ := [("OPENAI_API_KEY", "sk-123456789")]

def sampleBinding : ProviderBinding := ⟨"openai", "api_key", "gpt-4o-mini", "OPENAI_API_KEY", none⟩

def sampleTiers : List RouterTier := [⟨"T0", sampleBinding, []⟩]

/-- In whatever environment. -/
theorem sampleTiers_valid (env : Environ) : ValidTiers env "extract" sampleTiers where
  role := by decide
  nonempty := List.cons_ne_nil _ _
  names := by decide
  usable := by
    intro b hb
    obtain rfl := List.mem_singleton.1 hb
    exact ⟨by decide, by decide, by decide, fun h => absurd h (by decide), fun h => absurd h (by decide)⟩

def sampleRouter (env : Environ) : MemoryModelRouter env := ⟨sampleTiers, "extract", sampleTiers_valid env⟩

def sampleSecrets : Secrets sampleEnv := ⟨["sk-123456789"], .refl _, List.pairwise_singleton _ _⟩

/-- A transport that raises with the key in the message. -/
def leakingTransport : Transport Unit := fun s _ credential _ _ => (s, .error (.other "ValueError" ("bad key " ++ credential.getD "")))

theorem failure_redacted_sample : ∃ message,
    ((sampleRouter sampleEnv).invoke sampleLib sampleSecrets leakingTransport "s" "u" ()).2 = .error message ∧
      ¬ "sk-123456789".toList <:+: message.toList := by
  refine ⟨_, rfl, failure_redacted sampleLib sampleSecrets leakingTransport "s" "u" (sampleRouter sampleEnv) () _ rfl "sk-123456789" ?_ ?_ ?_ ?_ ?_⟩
  · decide
  · decide
  · simp
  · decide
  · decide

end

/-! ## Whom the walk asks -/

section
variable (lib : RouterLib) (post : Poster) (env : Environ) (system user : String)

/-- The request of a binding with a credential, if there is an endpoint for it. -/
def requestWith (b : ProviderBinding) (credential : Option String) : Option HttpRequest :=
  if b.provider = "anthropic" then some (anthropicRequest b credential system user)
  else (openaiRequest b credential system user).toOption

/-- The request that a binding makes in an environment, if it makes one. -/
def requestFor (b : ProviderBinding) : Option HttpRequest :=
  if b.authMode = "api_key" then (resolveCredential lib env b).toOption.bind (requestWith system user b) else none

/-- The requests that a walk over these bindings can make, in their order. -/
def requests (bs : List ProviderBinding) : List (ProviderBinding × HttpRequest) :=
  bs.filterMap fun b => (requestFor lib env system user b).map (b, ·)

/-- The text in what a POST gives. -/
def textIn (b : ProviderBinding) (given : Except CallErr (Int × List UInt8)) : Option String :=
  (given >>= if b.provider = "anthropic" then anthropicAnswer lib else openaiAnswer lib b.provider).toOption

/-- The text that the `k`-th request would bring, those before it sent. -/
def textAt (sent : List HttpRequest) (asked : List (ProviderBinding × HttpRequest)) (k : Nat) : Option String :=
  asked[k]?.bind fun bq => textIn lib bq.1 (post (sent ++ (asked.take k).map Prod.snd) bq.2)

end

section
variable {lib : RouterLib} {post : Poster} {env : Environ} {secrets : Secrets env} {system user : String} {b : ProviderBinding}
  {q : HttpRequest} {bs : List ProviderBinding} {sent : List HttpRequest} {errors : List String} {text : String}

theorem contentText_ok {provider content : String} (h : contentText provider content = .ok text) : stripSpace text = text ∧ text ≠ "" := by
  unfold contentText at h
  split_ifs at h with hblank
  cases h
  exact ⟨stripSpace_stripSpace content, hblank⟩

theorem openaiAnswer_ok {provider : String} {response : Int × List UInt8} (h : openaiAnswer lib provider response = .ok text) :
    ∃ content, contentText provider content = .ok text := by
  unfold openaiAnswer at h
  split_ifs at h
  obtain ⟨content, -, h⟩ := bind_ok h
  split at h
  · exact ⟨_, h⟩
  · cases h

theorem anthropicAnswer_ok {response : Int × List UInt8} (h : anthropicAnswer lib response = .ok text) :
    ∃ content, contentText "anthropic" content = .ok text := by
  unfold anthropicAnswer at h
  split_ifs at h
  obtain ⟨blocks, -, h⟩ := bind_ok h
  split at h <;> exact ⟨_, h⟩

/-- What a transport returns is not blank. -/
theorem textIn_some {given : Except CallErr (Int × List UInt8)} (h : textIn lib b given = some text) : stripSpace text ≠ "" := by
  have hcontent : ∃ provider content, contentText provider content = .ok text := by
    have hok : (given >>= if b.provider = "anthropic" then anthropicAnswer lib else openaiAnswer lib b.provider) = .ok text :=
      toOption_eq_some_iff.1 h
    obtain ⟨response, -, hanswer⟩ := bind_ok hok
    split_ifs at hanswer
    · exact ⟨_, anthropicAnswer_ok hanswer⟩
    · exact ⟨_, openaiAnswer_ok hanswer⟩
  obtain ⟨provider, content, hcontent⟩ := hcontent
  obtain ⟨hstrip, hne⟩ := contentText_ok hcontent
  rwa [hstrip]

variable (post secrets sent) in
/-- A binding that makes no request is passed by. -/
theorem turn_none (hb : b.authMode ∈ authModes) (h : requestFor lib env system user b = none) :
    ∃ reason, turn lib secrets (defaultTransport lib post) system user sent b = (sent, .error reason) := by
  by_cases hkey : b.authMode = "api_key"
  · rw [requestFor, if_pos hkey] at h
    unfold turn
    cases hcredential : resolveCredential lib env b with
    | error e => exact ⟨_, rfl⟩
    | ok credential =>
      rw [hcredential] at h
      by_cases hprovider : b.provider = "anthropic"
      · simp [Except.toOption, requestWith, hprovider] at h
      · cases hrequest : openaiRequest b credential system user with
        | ok q => simp [Except.toOption, requestWith, hprovider, hrequest] at h
        | error e => simp [defaultTransport, hkey, hprovider, openaiCompatibleTransport, hrequest, outcome]
  · have hcredential : resolveCredential lib env b = .ok none := if_neg hkey
    have hother : b.authMode = "subscription" ∨ b.authMode = "mcp_connector" := by
      simpa [authModes, hkey] using hb
    rcases hother with hmode | hmode <;> simp [turn, hcredential, defaultTransport, hmode, outcome]

/-- What is called for a binding with a request. -/
theorem requestFor_some (h : requestFor lib env system user b = some q) :
    b.authMode = "api_key" ∧ ∃ credential, resolveCredential lib env b = .ok credential ∧ requestWith system user b credential = some q := by
  unfold requestFor at h
  split_ifs at h with hkey
  obtain ⟨credential, hcredential, hrequest⟩ := Option.bind_eq_some_iff.1 h
  exact ⟨hkey, credential, toOption_eq_some_iff.1 hcredential, hrequest⟩

theorem defaultTransport_eq {credential : Option String} (hkey : b.authMode = "api_key")
    (h : requestWith system user b credential = some q) :
    defaultTransport lib post sent b credential system user = (sent ++ [q],
      (post sent q >>= if b.provider = "anthropic" then anthropicAnswer lib else openaiAnswer lib b.provider).map some) := by
  unfold requestWith at h
  split_ifs at h with hprovider
  · cases h
    simp [defaultTransport, hkey, hprovider, anthropicTransport]
  · simp [defaultTransport, hkey, hprovider, openaiCompatibleTransport, toOption_eq_some_iff.1 h]

variable (post secrets sent) in
/-- A binding's request is sent, and counts if it brings a text. -/
theorem turn_some (h : requestFor lib env system user b = some q) :
    (∃ text, textIn lib b (post sent q) = some text ∧
        turn lib secrets (defaultTransport lib post) system user sent b = (sent ++ [q], .ok text)) ∨
      textIn lib b (post sent q) = none ∧
        ∃ reason, turn lib secrets (defaultTransport lib post) system user sent b = (sent ++ [q], .error reason) := by
  obtain ⟨hkey, credential, hcredential, hrequest⟩ := requestFor_some h
  have hturn : turn lib secrets (defaultTransport lib post) system user sent b = (sent ++ [q], outcome secrets b
      ((post sent q >>= if b.provider = "anthropic" then anthropicAnswer lib else openaiAnswer lib b.provider).map some)) := by
    rw [turn, hcredential]
    simp only [defaultTransport_eq hkey hrequest]
  rw [hturn]
  cases hgiven : post sent q >>= (if b.provider = "anthropic" then anthropicAnswer lib else openaiAnswer lib b.provider) with
  | error e => exact .inr ⟨by rw [textIn, hgiven]; rfl, _, rfl⟩
  | ok text =>
    have htext : textIn lib b (post sent q) = some text := by rw [textIn, hgiven]; rfl
    refine .inl ⟨text, htext, ?_⟩
    simp only [Except.map, outcome, if_neg (textIn_some htext)]

variable (lib post secrets system user sent errors) in
theorem walk_first (hbs : ∀ b ∈ bs, b.authMode ∈ authModes) :
    (∃ k text, textAt lib post sent (requests lib env system user bs) k = some text ∧
        (∀ j < k, textAt lib post sent (requests lib env system user bs) j = none) ∧
        walk lib secrets (defaultTransport lib post) system user sent bs errors =
          (sent ++ ((requests lib env system user bs).take (k + 1)).map Prod.snd, .ok text)) ∨
      (∀ k, textAt lib post sent (requests lib env system user bs) k = none) ∧
        ∃ errors', walk lib secrets (defaultTransport lib post) system user sent bs errors =
          (sent ++ (requests lib env system user bs).map Prod.snd, .error errors') := by
  induction bs generalizing sent errors with
  | nil => exact .inr ⟨fun k => by simp [requests, textAt], errors, by simp [requests, walk]⟩
  | cons b bs ih =>
    obtain ⟨hb, hbs⟩ := List.forall_mem_cons.1 hbs
    cases hq : requestFor lib env system user b with
    | none =>
      have hsame : requests lib env system user (b :: bs) = requests lib env system user bs :=
        List.filterMap_cons_none (by rw [hq]; rfl)
      obtain ⟨reason, hturn⟩ := turn_none post secrets sent hb hq
      have hwalk : walk lib secrets (defaultTransport lib post) system user sent (b :: bs) errors =
          walk lib secrets (defaultTransport lib post) system user sent bs (errors ++ [reason]) := by
        rw [walk, hturn]
      rw [hsame, hwalk]
      exact ih _ _ hbs
    | some q =>
      have hcons : requests lib env system user (b :: bs) = (b, q) :: requests lib env system user bs :=
        List.filterMap_cons_some (by rw [hq]; rfl)
      have hshift : ∀ k, textAt lib post sent (requests lib env system user (b :: bs)) (k + 1) =
          textAt lib post (sent ++ [q]) (requests lib env system user bs) k := by
        intro k
        simp [textAt, hcons]
      have hfirst : textAt lib post sent (requests lib env system user (b :: bs)) 0 = textIn lib b (post sent q) := by
        simp [textAt, hcons]
      rcases turn_some post secrets sent hq with ⟨text, htext, hturn⟩ | ⟨hnone, reason, hturn⟩
      · refine .inl ⟨0, text, hfirst.trans htext, nofun, ?_⟩
        rw [walk, hturn, hcons]
        rfl
      · have hwalk : walk lib secrets (defaultTransport lib post) system user sent (b :: bs) errors =
            walk lib secrets (defaultTransport lib post) system user (sent ++ [q]) bs (errors ++ [reason]) := by
          rw [walk, hturn]
        rw [hwalk]
        rcases ih _ _ hbs with ⟨k, text, htext, hbefore, hrest⟩ | ⟨hall, errors', hrest⟩
        · refine .inl ⟨k + 1, text, (hshift k).trans htext, ?_, ?_⟩
          · rintro (- | j) hj
            · exact hfirst.trans hnone
            · exact (hshift j).trans (hbefore j (Nat.lt_of_succ_lt_succ hj))
          · rw [hrest, hcons]
            simp
        · refine .inr ⟨?_, errors', ?_⟩
          · rintro (- | k)
            · exact hfirst.trans hnone
            · exact (hshift k).trans (hall k)
          · rw [hrest, hcons]
            simp

variable {r : MemoryModelRouter env}

theorem defaultKeyEnv_ne {provider : String} (h : provider ∈ providers) : providerDefaultKeyEnv provider ≠ "" := by
  simp only [providers, List.mem_cons, List.not_mem_nil, or_false] at h
  rcases h with rfl | rfl | rfl | rfl <;> decide

theorem authMode_mem (r : MemoryModelRouter env) : ∀ b ∈ allBindings r.tiers, b.authMode ∈ authModes :=
  fun b hb => (r.valid.usable b hb).authMode

/-- **The first that answers**: the walk sends the requests of the bindings that have one, in their order, up to the first that brings a
text, which it returns; it fails exactly if none does, when all have been sent. -/
theorem invoke_first (lib : RouterLib) (post : Poster) (secrets : Secrets env) (system user : String) (r : MemoryModelRouter env) :
    (∃ k text, textAt lib post [] (requests lib env system user (allBindings r.tiers)) k = some text ∧
        (∀ j < k, textAt lib post [] (requests lib env system user (allBindings r.tiers)) j = none) ∧
        r.invoke lib secrets (defaultTransport lib post) system user [] =
          (((requests lib env system user (allBindings r.tiers)).take (k + 1)).map Prod.snd, .ok text)) ∨
      (∀ k, textAt lib post [] (requests lib env system user (allBindings r.tiers)) k = none) ∧
        ∃ message, r.invoke lib secrets (defaultTransport lib post) system user [] =
          ((requests lib env system user (allBindings r.tiers)).map Prod.snd, .error message) := by
  rcases walk_first lib post secrets system user [] [] (authMode_mem r) with ⟨k, text, htext, hbefore, hwalk⟩ | ⟨hall, errors, hwalk⟩
  · refine .inl ⟨k, text, htext, hbefore, ?_⟩
    rw [MemoryModelRouter.invoke, hwalk]
    rfl
  · refine .inr ⟨hall, r.failureHead ++ " " ++ "; ".intercalate errors, ?_⟩
    rw [MemoryModelRouter.invoke, hwalk]
    rfl

/-- The credential that goes with a request: the binding's own key, or none on the way to the own machine. -/
inductive Keyed (lib : RouterLib) (env : Environ) (b : ProviderBinding) : Option String → Prop
  | own (h : env.value b.credentialRef ≠ "") : Keyed lib env b (some (env.value b.credentialRef))
  | keyless (h : env.value b.credentialRef = "") (hprovider : b.provider = "ollama") (hlocal : isLocalEndpoint lib b.endpoint = .ok true) :
      Keyed lib env b (some "")

theorem resolveCredential_keyed {credential : Option String} (hkey : b.authMode = "api_key")
    (h : resolveCredential lib env b = .ok credential) : Keyed lib env b credential := by
  rw [resolveCredential, if_pos hkey] at h
  split_ifs at h with hvalue hprovider
  · obtain ⟨isLocal, hlocal, h⟩ := bind_ok h
    cases isLocal with
    | true =>
      cases h
      exact .keyless hvalue hprovider hlocal
    | false => cases h
  · cases h
  · cases h
    exact .own hvalue

/-- **A key goes only where it belongs**: each request of a walk is that of an API-key binding with its own key, or with none to an
ollama on the own machine; and the key of a provider that has a subscription is never sent. -/
theorem sent_keyed (lib : RouterLib) (post : Poster) (secrets : Secrets env) (system user : String) (r : MemoryModelRouter env)
    (q : HttpRequest) (hq : q ∈ (r.invoke lib secrets (defaultTransport lib post) system user []).1) :
    ∃ b ∈ allBindings r.tiers, b.authMode = "api_key" ∧
      (∃ credential, Keyed lib env b credential ∧ requestWith system user b credential = some q) ∧
      ∀ sub ∈ allBindings r.tiers, sub.authMode = "subscription" → env.value b.credentialRef ≠ "" →
        b.credentialRef ≠ providerDefaultKeyEnv sub.provider ∧ (b.credentialRef = "" ∨ b.credentialRef ≠ sub.credentialRef) := by
  have hmem : ∃ b, (b, q) ∈ requests lib env system user (allBindings r.tiers) := by
    change q ∈ (walk lib secrets (defaultTransport lib post) system user [] (allBindings r.tiers) []).1 at hq
    rcases walk_first lib post secrets system user [] [] (authMode_mem r) with ⟨k, text, -, -, hwalk⟩ | ⟨-, errors, hwalk⟩ <;>
      rw [hwalk, List.nil_append] at hq <;> obtain ⟨⟨b, q⟩, hmem, rfl⟩ := List.mem_map.1 hq
    · exact ⟨b, List.mem_of_mem_take hmem⟩
    · exact ⟨b, hmem⟩
  obtain ⟨b, hmem⟩ := hmem
  obtain ⟨b', hb, hrequest⟩ := List.mem_filterMap.1 hmem
  obtain ⟨q', hq', hpair⟩ := Option.map_eq_some_iff.1 hrequest
  cases hpair
  obtain ⟨hkey, credential, hcredential, hwith⟩ := requestFor_some hq'
  refine ⟨b, hb, hkey, ⟨credential, resolveCredential_keyed hkey hcredential, hwith⟩, ?_⟩
  intro sub hsub hmode hvalue
  have husable := r.valid.usable sub hsub
  have hunset : ∀ name ∈ [providerDefaultKeyEnv sub.provider, sub.credentialRef], name ≠ "" → b.credentialRef ≠ name := by
    rintro name hname hne rfl
    exact hvalue (husable.noKey hmode _ hname hne)
  constructor
  · exact hunset _ List.mem_cons_self (defaultKeyEnv_ne husable.provider)
  · by_cases hne : b.credentialRef = ""
    · exact .inl hne
    · right
      rintro heq
      exact hunset _ (List.mem_cons_of_mem _ List.mem_cons_self) (heq ▸ hne) heq

/-- An endpoint that cannot be reached. -/
def refusing : Poster := fun _ _ => .error (.transport "connection refused")

theorem sent_keyed_sample :
    ∃ q ∈ ((sampleRouter sampleEnv).invoke sampleLib sampleSecrets (defaultTransport sampleLib refusing) "s" "u" []).1,
      ∃ b credential, Keyed sampleLib sampleEnv b credential ∧ requestWith "s" "u" b credential = some q := by
  refine ⟨_, List.mem_cons_self, ?_⟩
  obtain ⟨b, -, -, ⟨credential, hkeyed, hrequest⟩, -⟩ :=
    sent_keyed sampleLib refusing sampleSecrets "s" "u" (sampleRouter sampleEnv) _ List.mem_cons_self
  exact ⟨b, credential, hkeyed, hrequest⟩

/-- **Nothing else of the environment counts**: where two environments agree on the keys of the API-key bindings, a walk sends the same
requests and returns the same text in both. -/
theorem invoke_agrees {env' : Environ} (lib : RouterLib) (post : Poster) (secrets : Secrets env) (secrets' : Secrets env')
    (system user : String) (r : MemoryModelRouter env) (r' : MemoryModelRouter env') (htiers : r'.tiers = r.tiers)
    (hkeys : ∀ b ∈ allBindings r.tiers, b.authMode = "api_key" → env'.value b.credentialRef = env.value b.credentialRef) :
    (r'.invoke lib secrets' (defaultTransport lib post) system user []).1 =
        (r.invoke lib secrets (defaultTransport lib post) system user []).1 ∧
      (r'.invoke lib secrets' (defaultTransport lib post) system user []).2.toOption =
        (r.invoke lib secrets (defaultTransport lib post) system user []).2.toOption := by
  have hsame : requests lib env' system user (allBindings r'.tiers) = requests lib env system user (allBindings r.tiers) := by
    rw [htiers]
    apply List.filterMap_congr
    intro b hb
    have hrequest : requestFor lib env' system user b = requestFor lib env system user b := by
      unfold requestFor
      split_ifs with hkey
      · rw [resolveCredential, resolveCredential, hkeys b hb hkey]
      · rfl
    rw [hrequest]
  have hinvoke : ∀ {env : Environ} (secrets : Secrets env) (r : MemoryModelRouter env) {sent result},
      walk lib secrets (defaultTransport lib post) system user [] (allBindings r.tiers) [] = (sent, result) →
        (r.invoke lib secrets (defaultTransport lib post) system user []).1 = sent ∧
          (r.invoke lib secrets (defaultTransport lib post) system user []).2.toOption = result.toOption := by
    intro env secrets r sent result hwalk
    rw [MemoryModelRouter.invoke, hwalk]
    exact ⟨rfl, by cases result <;> rfl⟩
  have h := walk_first lib post secrets system user [] [] (authMode_mem r)
  have h' := walk_first lib post secrets' system user [] [] (authMode_mem r')
  rw [hsame] at h'
  rcases h with ⟨k, text, htext, hbefore, hwalk⟩ | ⟨hnone, errors, hwalk⟩ <;>
    rcases h' with ⟨k', text', htext', hbefore', hwalk'⟩ | ⟨hnone', errors', hwalk'⟩ <;>
      obtain ⟨hsent, hresult⟩ := hinvoke secrets r hwalk <;> obtain ⟨hsent', hresult'⟩ := hinvoke secrets' r' hwalk' <;>
        rw [hsent, hsent', hresult, hresult']
  · have hk : k = k' := by
      rcases Nat.lt_trichotomy k k' with hlt | heq | hlt
      · rw [hbefore' k hlt] at htext
        cases htext
      · exact heq
      · rw [hbefore k' hlt] at htext'
        cases htext'
    subst hk
    rw [htext] at htext'
    cases htext'
    exact ⟨rfl, rfl⟩
  · rw [hnone' k] at htext
    cases htext
  · rw [hnone k'] at htext'
    cases htext'
  · exact ⟨rfl, rfl⟩

/-- With another variable beside the key. -/
def homeEnv : Environ := [("OPENAI_API_KEY", "sk-123456789"), ("HOME", "/home/me")]

def homeSecrets : Secrets homeEnv := ⟨["sk-123456789", "/home/me"], .refl _, by decide⟩

theorem invoke_agrees_sample : ((sampleRouter homeEnv).invoke sampleLib homeSecrets (defaultTransport sampleLib refusing) "s" "u" []).1 =
    ((sampleRouter sampleEnv).invoke sampleLib sampleSecrets (defaultTransport sampleLib refusing) "s" "u" []).1 := by
  refine (invoke_agrees sampleLib refusing sampleSecrets homeSecrets "s" "u" (sampleRouter sampleEnv) (sampleRouter homeEnv) rfl ?_).1
  intro b hb _
  obtain rfl := List.mem_singleton.1 hb
  decide

end

end Panella.Router
