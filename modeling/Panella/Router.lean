import Panella.Distribution
import Panella.Lib.SortedSet
import Panella.Lib.Text

/-!
# The model router's configuration (`panella/model_router.py`)

| here | there |
| --- | --- |
| `ProviderBinding`, `RouterTier` | `ProviderBinding` (:95-101), `RouterTier` (:104-108) |
| `parseBinding`, `parseTiers` | `_parse_binding` (:372-394), `_parse_tiers` (:397-414) |
| `validateBinding`, `validate` | `_validate` (:261-296), with the test of the role in `__init__` (:237-254) |
| `fromGovernance` | `from_governance` (:358-366) |

A router is only ever built with bindings that can be used, and with a subscription binding only where its owner has acknowledged it and
no key of its provider is set. What the governance has for a role becomes a router exactly if it is a list of tiers in their form:
**`fromGovernance_ok_iff`**.
-/

namespace Panella.Router

open PyJson PyText Fallible

structure ProviderBinding where
  provider : String
  authMode : String
  model : String
  /-- The name of the variable with the credential. -/
  credentialRef : String
  endpoint : Option String
deriving DecidableEq

structure RouterTier where
  name : String
  primary : ProviderBinding
  fallbacks : List ProviderBinding
deriving DecidableEq

def providers : List String := ["openai", "anthropic", "gemini", "ollama"]
def authModes : List String := ["api_key", "subscription", "mcp_connector"]
def roles : List String := ["extract", "judge", "synth"]
def tierNames : List String := ["T0", "T1", "T3"]
def subscriptionAckEnv : String := "PANELLA_SUBSCRIPTION_TOS_ACK"

/-- `_PROVIDER_DEFAULT_KEY_ENV.get(provider, "")`. -/
def providerDefaultKeyEnv (provider : String) : String :=
  if provider = "openai" then "OPENAI_API_KEY"
  else if provider = "anthropic" then "ANTHROPIC_API_KEY"
  else if provider = "gemini" then "GEMINI_API_KEY"
  else if provider = "ollama" then "OLLAMA_API_KEY"
  else ""

/-- The environment: the variables with their values. -/
abbrev Environ := List (String × String)

/-- `env.get(name) or ""`. -/
def Environ.value (env : Environ) (name : String) : String := (env.lookup name).getD ""

/-- `_all_bindings`. -/
def allBindings (tiers : List RouterTier) : List ProviderBinding := tiers.flatMap fun t => t.primary :: t.fallbacks

/-! ## Validation -/

/-- `candidate_envs`. -/
def candidateEnvs (b : ProviderBinding) : List String :=
  providerDefaultKeyEnv b.provider :: if b.credentialRef = "" then [] else [b.credentialRef]

def conflicting (env : Environ) (b : ProviderBinding) : List String :=
  SortedSet.sortedSet ((candidateEnvs b).filter fun name => name ≠ "" ∧ env.value name ≠ "")

section
variable (d : Deployment) (env : Environ)

def validateBinding (b : ProviderBinding) : Except String Unit :=
  if b.provider ∉ providers then .error ("invalid provider: " ++ d.repr (.str b.provider))
  else if b.authMode ∉ authModes then .error ("invalid auth_mode: " ++ d.repr (.str b.authMode))
  else if stripSpace b.model = "" then .error (b.provider ++ ": binding.model must be a non-empty string")
  else if b.authMode ≠ "subscription" then .ok ()
  else if env.value subscriptionAckEnv ≠ "1" then
    .error (b.provider ++ ": auth_mode=subscription requires " ++ subscriptionAckEnv ++
      "=1 (subscription-mode ToS is an owner acknowledgment; API-key mode is the unconditional default)")
  else if conflicting env b ≠ [] then
    .error (b.provider ++ ": auth_mode=subscription but API key env(s) " ++ ", ".intercalate (conflicting env b) ++
      " set — an API key silently overrides a subscription/OAuth token; unset it (see agent-sdk-subscription-auth-headless)")
  else .ok ()

def validateTier (t : RouterTier) : Except String Unit :=
  if t.name ∈ tierNames then .ok () else .error ("invalid tier name: " ++ d.repr (.str t.name))

def validate (role : String) (tiers : List RouterTier) : Except String Unit :=
  if role ∉ roles then .error ("invalid role: " ++ d.repr (.str role))
  else if tiers = [] then .error ("router for role=" ++ d.repr (.str role) ++ " has no tiers")
  else (tiers.forM (validateTier d)) >>= fun _ => (allBindings tiers).forM (validateBinding d env)

end

/-- A binding that can be used. -/
structure Usable (env : Environ) (b : ProviderBinding) : Prop where
  provider : b.provider ∈ providers
  authMode : b.authMode ∈ authModes
  model : stripSpace b.model ≠ ""
  acknowledged : b.authMode = "subscription" → env.value subscriptionAckEnv = "1"
  noKey : b.authMode = "subscription" → ∀ name ∈ [providerDefaultKeyEnv b.provider, b.credentialRef], name ≠ "" → env.value name = ""

structure ValidTiers (env : Environ) (role : String) (tiers : List RouterTier) : Prop where
  role : role ∈ roles
  nonempty : tiers ≠ []
  names : ∀ t ∈ tiers, t.name ∈ tierNames
  usable : ∀ b ∈ allBindings tiers, Usable env b

/-- A router that was built in an environment. -/
structure MemoryModelRouter (env : Environ) where
  tiers : List RouterTier
  role : String
  valid : ValidTiers env role tiers

variable {d : Deployment} {env : Environ} {b : ProviderBinding} {t : RouterTier} {role : String} {tiers : List RouterTier}

theorem forM_ok_iff {α : Type} {f : α → Except String Unit} {xs : List α} : xs.forM f = .ok () ↔ ∀ x ∈ xs, f x = .ok () := by
  induction xs with
  | nil => simp [pure, Except.pure]
  | cons x xs ih =>
    have hcons : (x :: xs).forM f = (f x >>= fun _ => xs.forM f) := rfl
    rw [hcons, List.forall_mem_cons, ← ih]
    cases f x <;> simp

theorem conflicting_eq_nil_iff : conflicting env b = [] ↔
    ∀ name ∈ [providerDefaultKeyEnv b.provider, b.credentialRef], name ≠ "" → env.value name = "" := by
  rw [conflicting, SortedSet.sortedSet_eq_nil_iff, List.filter_eq_nil_iff]
  by_cases href : b.credentialRef = "" <;> simp [candidateEnvs, href]

theorem validateBinding_ok_iff : validateBinding d env b = .ok () ↔ Usable env b := by
  unfold validateBinding
  constructor
  · intro h
    split_ifs at h with hprovider hmode hmodel hkind hack hconflict
    · exact ⟨hprovider, hmode, hmodel, fun hs => absurd hs hkind, fun hs => absurd hs hkind⟩
    · exact ⟨hprovider, hmode, hmodel, fun _ => not_not.1 hack, fun _ => conflicting_eq_nil_iff.1 (not_not.1 hconflict)⟩
  · intro h
    rw [if_neg (not_not.2 h.provider), if_neg (not_not.2 h.authMode), if_neg h.model]
    by_cases hkind : b.authMode = "subscription"
    · rw [if_neg (not_not.2 hkind), if_neg (not_not.2 (h.acknowledged hkind)),
        if_neg (not_not.2 (conflicting_eq_nil_iff.2 (h.noKey hkind)))]
    · rw [if_pos hkind]

theorem validateTier_ok_iff : validateTier d t = .ok () ↔ t.name ∈ tierNames := by
  unfold validateTier
  split_ifs with h <;> simp [h]

/-- **What is let through** can be used. -/
theorem validate_ok_iff : validate d env role tiers = .ok () ↔ ValidTiers env role tiers := by
  unfold validate
  constructor
  · intro h
    split_ifs at h with hrole htiers
    obtain ⟨_, hnames, hbindings⟩ := bind_ok h
    exact ⟨hrole, htiers, fun t ht => validateTier_ok_iff.1 (forM_ok_iff.1 hnames t ht),
      fun b hb => validateBinding_ok_iff.1 (forM_ok_iff.1 hbindings b hb)⟩
  · intro h
    rw [if_neg (not_not.2 h.role), if_neg h.nonempty, forM_ok_iff.2 fun t ht => validateTier_ok_iff.2 (h.names t ht), ok_then]
    exact forM_ok_iff.2 fun b hb => validateBinding_ok_iff.2 (h.usable b hb)

/-- `MemoryModelRouter(tiers, role=role, env=env)`. -/
def MemoryModelRouter.init (d : Deployment) (env : Environ) (tiers : List RouterTier) (role : String) :
    Except String (MemoryModelRouter env) :=
  match h : validate d env role tiers with
  | .ok () => .ok ⟨tiers, role, validate_ok_iff.1 h⟩
  | .error e => .error e

/-! ## The governance's configuration -/

/-- What is raised. -/
inductive ConfigErr
  | config (message : String)
  | raised (e : PyErr)

section
variable (d : Deployment)

def bindingOf (raw : Dict) (model : String) : ProviderBinding where
  provider := d.str (Dict.get raw "provider")
  authMode := d.str (Dict.getD raw "auth_mode" (.str "api_key"))
  model := stripSpace model
  credentialRef := d.str (Dict.getD raw "credential_ref" (.str ""))
  endpoint := if (Dict.get raw "endpoint").truthy then some (d.str (Dict.get raw "endpoint")) else none

def parseBinding (place : String) : Json → Except ConfigErr ProviderBinding
  | .obj raw =>
    if !Dict.has raw "provider" then .error (.config (place ++ ": binding missing required key 'provider'"))
    else if !Dict.has raw "model" then .error (.config (place ++ ": binding missing required key 'model'"))
    else
      match Dict.get raw "model" with
      | .str model =>
        if stripSpace model = "" then
          .error (.config (place ++ ": binding.model must be a non-empty string, got " ++ d.repr (.str model)))
        else .ok (bindingOf d raw model)
      | v => .error (.config (place ++ ": binding.model must be a non-empty string, got " ++ d.repr v))
  | v => .error (.config (place ++ ": binding must be a mapping, got " ++ typeName v))

/-- The fallbacks of a tier, from the `j`-th on. -/
def parseFallbacks (place : String) : Nat → List Json → Except ConfigErr (List ProviderBinding)
  | _, [] => .ok []
  | j, v :: vs => do
    let b ← parseBinding d (place ++ ".fallbacks[" ++ toString j ++ "]") v
    let bs ← parseFallbacks place (j + 1) vs
    .ok (b :: bs)

def parseTier (place : String) : Json → Except ConfigErr RouterTier
  | .obj raw =>
    if !Dict.has raw "primary" then .error (.config (place ++ ": missing 'primary' binding"))
    else do
      let primary ← parseBinding d (place ++ ".primary") (Dict.get raw "primary")
      let items ← (iterItems ((Dict.get raw "fallbacks").orElse (.arr []))).mapError .raised
      let fallbacks ← parseFallbacks d place 0 items
      .ok ⟨d.str (Dict.getD raw "name" (.str "")), primary, fallbacks⟩
  | _ => .error (.config (place ++ " must be a mapping"))

/-- The tiers from the `i`-th on. -/
def parseTiersFrom (place : String) : Nat → List Json → Except ConfigErr (List RouterTier)
  | _, [] => .ok []
  | i, v :: vs => do
    let t ← parseTier d (place ++ "[" ++ toString i ++ "]") v
    let ts ← parseTiersFrom place (i + 1) vs
    .ok (t :: ts)

def parseTiers (role : String) : Json → Except ConfigErr (List RouterTier)
  | .arr (v :: vs) => parseTiersFrom d ("model_router[" ++ d.repr (.str role) ++ "]") 0 (v :: vs)
  | _ => .error (.config ("model_router[" ++ d.repr (.str role) ++ "] must be a non-empty list of tiers"))

/-- `from_governance`, with the `model_router` of the governance. -/
def fromGovernance (env : Environ) (modelRouter : Dict) (role : String) : Except ConfigErr (MemoryModelRouter env) :=
  match Dict.get modelRouter role with
  | .null => .error (.config ("governance.model_router has no config for role=" ++ d.repr (.str role)))
  | raw => do
    let tiers ← parseTiers d role raw
    (MemoryModelRouter.init d env tiers role).mapError .config

end

/-- A mapping that is read as a binding. -/
inductive ReadsBinding (d : Deployment) : Json → ProviderBinding → Prop
  | mk {raw : Dict} {model : String} (hprovider : Dict.has raw "provider" = true) (hmodel : Dict.get raw "model" = .str model)
      (hne : stripSpace model ≠ "") : ReadsBinding d (.obj raw) (bindingOf d raw model)

/-- A mapping that is read as a tier. -/
inductive ReadsTier (d : Deployment) : Json → RouterTier → Prop
  | mk {raw : Dict} {primary : ProviderBinding} {items : List Json} {fallbacks : List ProviderBinding}
      (hprimary : Dict.has raw "primary" = true) (hread : ReadsBinding d (Dict.get raw "primary") primary)
      (hitems : iterItems ((Dict.get raw "fallbacks").orElse (.arr [])) = .ok items)
      (hfallbacks : List.Forall₂ (ReadsBinding d) items fallbacks) :
      ReadsTier d (.obj raw) ⟨d.str (Dict.getD raw "name" (.str "")), primary, fallbacks⟩

variable {raw v : Json} {vs : List Json} {bs : List ProviderBinding} {ts : List RouterTier} {place : String}

theorem parseBinding_ok_iff : parseBinding d place raw = .ok b ↔ ReadsBinding d raw b := by
  constructor
  · intro h
    unfold parseBinding at h
    split at h
    · next raw =>
      split_ifs at h with hprovider hmodel
      split at h
      · next model hm =>
        split_ifs at h with hne
        cases h
        exact .mk (by simpa using hprovider) hm hne
      · cases h
    · cases h
  · rintro (@⟨raw, model, hprovider, hmodel, hne⟩)
    have hhas : Dict.has raw "model" = true := by
      by_contra hno
      rw [Dict.get_of_notMem fun hmem => hno (Dict.has_iff.2 hmem)] at hmodel
      cases hmodel
    simp only [parseBinding, hprovider, hhas, hmodel, hne, Bool.not_true, Bool.false_eq_true, if_false]

theorem parseFallbacks_ok_iff {j : Nat} : parseFallbacks d place j vs = .ok bs ↔ List.Forall₂ (ReadsBinding d) vs bs := by
  induction vs generalizing j bs with
  | nil => cases bs <;> simp [parseFallbacks]
  | cons v vs ih =>
    constructor
    · intro h
      obtain ⟨b, hb, h⟩ := bind_ok h
      obtain ⟨bs', hbs, h⟩ := bind_ok h
      cases h
      exact .cons (parseBinding_ok_iff.1 hb) (ih.1 hbs)
    · rintro (- | ⟨hb, hbs⟩)
      rw [parseFallbacks, parseBinding_ok_iff.2 hb, ok_then, ih.2 hbs, ok_then]

theorem parseTier_ok_iff : parseTier d place raw = .ok t ↔ ReadsTier d raw t := by
  constructor
  · intro h
    unfold parseTier at h
    split at h
    · next raw =>
      split_ifs at h with hprimary
      obtain ⟨primary, hread, h⟩ := bind_ok h
      obtain ⟨items, hitems, h⟩ := bind_ok h
      obtain ⟨fallbacks, hfallbacks, h⟩ := bind_ok h
      cases h
      exact .mk (by simpa using hprimary) (parseBinding_ok_iff.1 hread) (mapError_ok hitems) (parseFallbacks_ok_iff.1 hfallbacks)
    · cases h
  · rintro ⟨hprimary, hread, hitems, hfallbacks⟩
    simp only [parseTier, hprimary, Bool.not_true, Bool.false_eq_true, if_false, parseBinding_ok_iff.2 hread, hitems, mapError_of_ok,
      parseFallbacks_ok_iff.2 hfallbacks, ok_then]

theorem parseTiersFrom_ok_iff {i : Nat} : parseTiersFrom d place i vs = .ok ts ↔ List.Forall₂ (ReadsTier d) vs ts := by
  induction vs generalizing i ts with
  | nil => cases ts <;> simp [parseTiersFrom]
  | cons v vs ih =>
    constructor
    · intro h
      obtain ⟨t, ht, h⟩ := bind_ok h
      obtain ⟨ts', hts, h⟩ := bind_ok h
      cases h
      exact .cons (parseTier_ok_iff.1 ht) (ih.1 hts)
    · rintro (- | ⟨ht, hts⟩)
      rw [parseTiersFrom, parseTier_ok_iff.2 ht, ok_then, ih.2 hts, ok_then]

theorem init_ok_iff {r : MemoryModelRouter env} : MemoryModelRouter.init d env tiers role = .ok r ↔ r.tiers = tiers ∧ r.role = role := by
  unfold MemoryModelRouter.init
  obtain ⟨rtiers, rrole, hvalid⟩ := r
  constructor
  · intro h
    split at h
    · cases h
      exact ⟨rfl, rfl⟩
    · cases h
  · rintro ⟨rfl, rfl⟩
    split
    · rfl
    · next e h =>
      rw [validate_ok_iff.2 hvalid] at h
      cases h

theorem parseTiers_ok_iff : parseTiers d role raw = .ok ts ↔ ∃ vs, raw = .arr vs ∧ vs ≠ [] ∧ List.Forall₂ (ReadsTier d) vs ts := by
  unfold parseTiers
  constructor
  · intro h
    split at h
    · exact ⟨_, rfl, List.cons_ne_nil _ _, parseTiersFrom_ok_iff.1 h⟩
    · cases h
  · rintro ⟨vs, rfl, hne, hread⟩
    obtain ⟨v, vs, rfl⟩ := List.exists_cons_of_ne_nil hne
    exact parseTiersFrom_ok_iff.2 hread

/-- **What becomes a router**: a list of tiers in their form that can be used in this environment, and nothing else. -/
theorem fromGovernance_ok_iff {modelRouter : Dict} {r : MemoryModelRouter env} :
    fromGovernance d env modelRouter role = .ok r ↔
      ∃ vs, Dict.get modelRouter role = .arr vs ∧ List.Forall₂ (ReadsTier d) vs r.tiers ∧ r.role = role := by
  unfold fromGovernance
  constructor
  · intro h
    split at h
    · cases h
    · obtain ⟨tiers, htiers, h⟩ := bind_ok h
      obtain ⟨rfl, hrole⟩ := init_ok_iff.1 (mapError_ok h)
      obtain ⟨vs, hvs, -, hread⟩ := parseTiers_ok_iff.1 htiers
      exact ⟨vs, hvs, hread, hrole⟩
  · rintro ⟨vs, hvs, hread, hrole⟩
    have hne : vs ≠ [] := by
      rintro rfl
      exact r.valid.nonempty (List.forall₂_nil_left_iff.1 hread)
    rw [hvs]
    simp only [parseTiers_ok_iff.2 ⟨vs, rfl, hne, hread⟩, ok_then, init_ok_iff.2 ⟨rfl, hrole⟩, mapError_of_ok]

end Panella.Router
