import Panella.Resolver.LoadRegistry
import Panella.Resolver.NormalForm

/-!
# Where a domain goes

The three lookups of `prepare_guard` over a registry that was accepted: by kind and folded domain, by an alias as it is written,
by a folded alias. Folding is not injective, so a string may reach a slot by any of them, but no two of them disagree.
-/

namespace Panella.Resolver

open Fallible PyJson PyText

/-- What the loader has checked of a registry. -/
structure Unambiguous (u : Unicode) (registry : SlotRegistry) : Prop where
  canonical : ∀ slot ∈ registry.slots, Canonical u slot
  raw : ∀ slot ∈ registry.slots, ∀ slot' ∈ registry.slots, ∀ surface, surface ∈ slot.surfaces → surface ∈ slot'.surfaces →
    slot = slot'
  folded : ∀ slot ∈ registry.slots, ∀ slot' ∈ registry.slots, ∀ surface ∈ slot.surfaces, ∀ surface' ∈ slot'.surfaces,
    resolverNormalize u surface = resolverNormalize u surface' → slot = slot'

/-- How a string reaches a slot. -/
def Reached (u : Unicode) (rawDomain : String) (slot : RegistrySlot) : Prop :=
  resolverNormalize u rawDomain = slot.domain ∨ rawDomain ∈ slot.aliases ∨
    ∃ a ∈ slot.aliases, resolverNormalize u rawDomain = resolverNormalize u a

/-- Routing is unambiguous. -/
structure RoutesUnambiguously (u : Unicode) (registry : SlotRegistry) : Prop where
  raw : ∀ slot ∈ registry.slots, ∀ slot' ∈ registry.slots, ∀ surface, surface ∈ slot.surfaces → surface ∈ slot'.surfaces →
    slot = slot'
  folded : ∀ slot ∈ registry.slots, ∀ slot' ∈ registry.slots, ∀ surface ∈ slot.surfaces, ∀ surface' ∈ slot'.surfaces,
    resolverNormalize u surface = resolverNormalize u surface' → slot = slot'
  aliases : ∀ request evidence, ∀ slot ∈ registry.slots, request.rawDomain ∈ slot.aliases →
    (prepareGuard u request registry evidence).target = some slot
  domains : ∀ request evidence, ∀ slot ∈ registry.slots, request.rawDomain = slot.domain → request.kind = slot.kind →
    (prepareGuard u request registry evidence).target = some slot
  reached : ∀ request evidence slot, (prepareGuard u request registry evidence).target = some slot →
    slot ∈ registry.slots ∧ Reached u request.rawDomain slot
  /-- What neither its kind and folded domain nor an alias as it is written finds, a folded alias does. -/
  foldedSafe : ∀ request evidence slot, (prepareGuard u request registry evidence).target = some slot →
    registry.byId (request.kind ++ ":" ++ resolverNormalize u request.rawDomain) = none →
    registry.aliasRaw request.rawDomain = none → slot.highRisk = false

section
variable {u : Unicode} {registry : SlotRegistry} {slot : RegistrySlot} {request : ResolveRequest} {evidence : RiskEvidence}

theorem unambiguous_of_filed {st : Loading} (hfiled : Filed u st) (hslots : registry.slots = st.slots) :
    Unambiguous u registry := by
  have hsame : ∀ slot ∈ st.slots, ∀ slot' ∈ st.slots, slot.slotId = slot'.slotId → slot = slot' :=
    fun slot hmem slot' hmem' hid => List.inj_on_of_nodup_map st.ids hmem hmem' hid
  refine ⟨fun slot hmem => hfiled.canonical slot (hslots ▸ hmem), ?_, ?_⟩
  · intro slot hmem slot' hmem' surface hs hs'
    rw [hslots] at hmem hmem'
    apply hsame slot hmem slot' hmem'
    have howner := (hfiled.raw surface slot.slotId).2 ⟨slot, hmem, rfl, hs⟩
    rw [(hfiled.raw surface slot'.slotId).2 ⟨slot', hmem', rfl, hs'⟩] at howner
    exact (Option.some.inj howner).symm
  · intro slot hmem slot' hmem' surface hs surface' hs' hfold
    rw [hslots] at hmem hmem'
    apply hsame slot hmem slot' hmem'
    have howner := (hfiled.folded _ slot.slotId).2 ⟨slot, hmem, rfl, List.mem_map_of_mem hs⟩
    rw [hfold, (hfiled.folded _ slot'.slotId).2 ⟨slot', hmem', rfl, List.mem_map_of_mem hs'⟩] at howner
    exact (Option.some.inj howner).symm

/-- An id says its kind and its domain. -/
theorem id_injective {kind kind' domain domain' : String} (hk : kind ∈ kinds) (hk' : kind' ∈ kinds)
    (h : kind ++ ":" ++ domain = kind' ++ ":" ++ domain') : kind = kind' ∧ domain = domain' := by
  have hlist := congrArg String.toList h
  simp only [String.toList_append] at hlist
  simp only [kinds, List.mem_cons, List.not_mem_nil, or_false] at hk hk'
  rcases hk with rfl | rfl | rfl <;> rcases hk' with rfl | rfl | rfl
  all_goals first
    | exact ⟨rfl, String.toList_injective (by simpa using hlist)⟩
    | simp at hlist

theorem byId_request {id : String} (h : Unambiguous u registry) (hkind : request.kind ∈ kinds)
    (hfound : registry.byId (request.kind ++ ":" ++ id) = some slot) :
    slot ∈ registry.slots ∧ slot.kind = request.kind ∧ slot.domain = id := by
  obtain ⟨hmem, hid⟩ := SlotRegistry.byId_some hfound
  have hcanonical := h.canonical slot hmem
  rw [hcanonical.id] at hid
  exact ⟨hmem, id_injective hcanonical.kind hkind hid⟩

theorem aliasRaw_of_mem (h : Unambiguous u registry) (hmem : slot ∈ registry.slots) {surface : String}
    (hs : surface ∈ slot.aliases) : registry.aliasRaw surface = some slot := by
  cases hfound : registry.aliasRaw surface with
  | none =>
    have hnone := List.find?_eq_none.1 hfound slot (List.mem_reverse.2 hmem)
    exact absurd hs (by simpa using hnone)
  | some slot' =>
    obtain ⟨hmem', hs'⟩ := SlotRegistry.aliasRaw_some hfound
    rw [h.raw slot hmem slot' hmem' surface (List.mem_cons_of_mem _ hs) (List.mem_cons_of_mem _ hs')]

/-- **An alias goes to its slot**, whatever the kind: what the kind and the fold of the alias find is that slot, too. -/
theorem target_of_alias (h : Unambiguous u registry) (hmem : slot ∈ registry.slots) (hs : request.rawDomain ∈ slot.aliases) :
    (prepareGuard u request registry evidence).target = some slot := by
  unfold prepareGuard lookupTarget
  dsimp only
  cases hfound : registry.byId (request.kind ++ ":" ++ resolverNormalize u request.rawDomain) with
  | some slot' =>
    obtain ⟨hmem', -, hdomain⟩ := byId_request h request.kindKnown hfound
    have hfold : resolverNormalize u request.rawDomain = resolverNormalize u slot'.domain := by
      rw [(h.canonical slot' hmem').folded, hdomain]
    rw [h.folded slot hmem slot' hmem' request.rawDomain (List.mem_cons_of_mem _ hs) slot'.domain List.mem_cons_self hfold]
  | none => rw [aliasRaw_of_mem h hmem hs]

theorem target_of_domain (h : Unambiguous u registry) (hmem : slot ∈ registry.slots) (hs : request.rawDomain = slot.domain)
    (hkind : request.kind = slot.kind) : (prepareGuard u request registry evidence).target = some slot := by
  have hcanonical := h.canonical slot hmem
  unfold prepareGuard lookupTarget
  dsimp only
  rw [hs, hcanonical.folded, hkind, ← hcanonical.id, SlotRegistry.byId_of_mem hmem]

/-- **What is reached, and how.** -/
theorem reached_of_target (h : Unambiguous u registry)
    (htarget : (prepareGuard u request registry evidence).target = some slot) :
    slot ∈ registry.slots ∧ Reached u request.rawDomain slot ∧
      (registry.byId (request.kind ++ ":" ++ resolverNormalize u request.rawDomain) = none →
        registry.aliasRaw request.rawDomain = none → slot.highRisk = false) := by
  unfold prepareGuard lookupTarget at htarget
  dsimp only at htarget
  cases hfound : registry.byId (request.kind ++ ":" ++ resolverNormalize u request.rawDomain) with
  | some slot' =>
    rw [hfound] at htarget
    cases htarget
    obtain ⟨hmem, -, hdomain⟩ := byId_request h request.kindKnown hfound
    exact ⟨hmem, .inl hdomain.symm, fun hnone => by cases hnone⟩
  | none =>
    rw [hfound] at htarget
    cases hraw : registry.aliasRaw request.rawDomain with
    | some slot' =>
      rw [hraw] at htarget
      cases htarget
      obtain ⟨hmem, hs⟩ := SlotRegistry.aliasRaw_some hraw
      exact ⟨hmem, .inr (.inl hs), fun _ hnone => by cases hnone⟩
    | none =>
      rw [hraw] at htarget
      cases hfolded : registry.aliasFolded u (resolverNormalize u request.rawDomain) with
      | none =>
        rw [hfolded] at htarget
        cases htarget
      | some slot' =>
        rw [hfolded] at htarget
        dsimp only at htarget
        split at htarget
        · cases htarget
        · next hrisk =>
          cases htarget
          obtain ⟨hmem, hs⟩ := SlotRegistry.aliasFolded_some hfolded
          obtain ⟨a, ha, hfold⟩ := List.mem_map.1 hs
          exact ⟨hmem, .inr (.inr ⟨a, ha, hfold.symm⟩), fun _ _ => by simpa using hrisk⟩

end

/-- **Routing through an accepted registry is unambiguous.** -/
theorem loadRegistry_routes {u : Unicode} {lim : PyJson.Limits} {fixtureExists : String → Bool} {loaded taxonomy : PyJson.Json}
    {governance : Option PyJson.Json} {expectedHash : Option String} {registry : SlotRegistry}
    (h : loadRegistry u lim fixtureExists loaded taxonomy governance expectedHash = .ok registry) :
    RoutesUnambiguously u registry := by
  obtain ⟨st, hfiled, hslots⟩ := loadRegistry_filed h
  have hclear : Unambiguous u registry := unambiguous_of_filed hfiled hslots
  exact
    { raw := hclear.raw
      folded := hclear.folded
      aliases := fun _ _ slot hmem hs => target_of_alias hclear hmem hs
      domains := fun _ _ slot hmem hs hkind => target_of_domain hclear hmem hs hkind
      reached := fun _ _ slot htarget => ⟨(reached_of_target hclear htarget).1, (reached_of_target hclear htarget).2.1⟩
      foldedSafe := fun _ _ slot htarget => (reached_of_target hclear htarget).2.2 }

/-! ## A registry that is accepted -/

section
variable {u : Unicode}

/-- A domain of `i + 1` letters. -/
def plainDomain (i : Nat) : String := join [List.replicate (i + 1) 'q']

theorem isToken_plain (i : Nat) : ∀ t ∈ [List.replicate (i + 1) 'q'], IsToken t := by
  intro t ht
  rw [List.mem_singleton.1 ht]
  refine ⟨by simp, fun c hc => ?_⟩
  rw [List.eq_of_mem_replicate hc]
  decide

/-- No word of a list has the letter. -/
theorem plainDomain_notMem {words : List String} (h : (words.all fun w => !w.toList.contains 'q') = true) (i : Nat) :
    plainDomain i ∉ words := by
  intro hmem
  have hword := List.all_eq_true.1 h _ hmem
  simp [plainDomain, join] at hword

theorem resolverNormalize_plain (i : Nat) : resolverNormalize u (plainDomain i) = plainDomain i := by
  have hkept : kept (List.replicate (i + 1) 'q') = true := by
    rw [kept, decide_eq_true_eq]
    refine ⟨by simp, ?_⟩
    have hstop : plainDomain i ∉ stopwords := plainDomain_notMem (by decide) i
    simpa [plainDomain, join] using hstop
  have hfold : foldToken (List.replicate (i + 1) 'q') = List.replicate (i + 1) 'q' := by
    unfold foldToken
    rw [if_neg]
    rintro ⟨-, hsuffix, -⟩
    have hlast := List.eq_of_mem_replicate (hsuffix.mem (List.mem_singleton_self 's'))
    exact absurd hlast (by decide)
  rw [plainDomain, resolverNormalize_join (isToken_plain i), List.filter_singleton, hkept]
  simp [hfold]

theorem tokens_plain (i : Nat) : tokens u (plainDomain i) = {plainDomain i} := by
  have hne : List.replicate (i + 1) 'q' ≠ [] := by simp
  unfold tokens
  rw [resolverNormalize_plain, plainDomain, splitOn_join (isToken_plain i) (by simp), List.filter_singleton]
  simp [hne, join]

theorem plainDomain_injective {i j : Nat} (h : plainDomain i = plainDomain j) : i = j := by
  have hlist := List.cons.inj (join_injective (isToken_plain i) (isToken_plain j) h)
  have hlength := congrArg List.length hlist.1
  simpa using hlength

def bareSlot (i : Nat) : RegistrySlot :=
  ⟨"fact:" ++ plainDomain i, "fact", plainDomain i, "alpha beta gamma delta", false, [], [], [], none, "all", []⟩

def bareJson (i : Nat) : Json :=
  .obj [("id", .str ("fact:" ++ plainDomain i)), ("kind", .str "fact"), ("domain", .str (plainDomain i)),
    ("description", .str "alpha beta gamma delta"), ("high_risk", .bool false), ("aliases", .arr []),
    ("taxonomy_domain", .str "all"), ("blocking_terms", .arr [])]

theorem check_of {holds : Prop} [Decidable holds] {message : String} (h : holds) : check holds message = .ok () := if_pos h

/-- The description has four words that say something. -/
theorem content_plain (i : Nat) :
    4 ≤ ((tokens asciiOnly "alpha beta gamma delta" \ scoringDrop asciiOnly) \ tokens asciiOnly (plainDomain i)).card := by
  have htokens : tokens asciiOnly "alpha beta gamma delta" = ["alpha", "beta", "gamma", "delta"].toFinset := by decide +kernel
  have hdrop : ∀ t ∈ ["alpha", "beta", "gamma", "delta"], t ∉ scoringDrop asciiOnly := by
    have hstop : (["alpha", "beta", "gamma", "delta"].all fun w => !stopwords.contains w) = true := by decide +kernel
    have hblock : (["alpha", "beta", "gamma", "delta"].all
      fun w => !(blockingStopwords.map (resolverNormalize asciiOnly)).contains w) = true := by decide +kernel
    intro t ht hmem
    rcases Finset.mem_union.1 hmem with hin | hin
    · have hnot := List.all_eq_true.1 hstop t ht
      rw [List.contains_iff_mem.2 (List.mem_toFinset.1 hin)] at hnot
      cases hnot
    · have hnot := List.all_eq_true.1 hblock t ht
      rw [List.contains_iff_mem.2 (List.mem_filter.1 (List.mem_toFinset.1 hin)).1] at hnot
      cases hnot
  have hq : plainDomain i ∉ ["alpha", "beta", "gamma", "delta"] := plainDomain_notMem (by decide) i
  have hall : (tokens asciiOnly "alpha beta gamma delta" \ scoringDrop asciiOnly) \ tokens asciiOnly (plainDomain i) =
      ["alpha", "beta", "gamma", "delta"].toFinset := by
    rw [htokens, tokens_plain]
    ext t
    simp only [Finset.mem_sdiff, Finset.mem_singleton, List.mem_toFinset]
    exact ⟨fun h => h.1.1, fun h => ⟨⟨h, hdrop t h⟩, fun he => hq (he ▸ h)⟩⟩
  rw [hall]
  decide

theorem textOf_str {s : String} (h : s ≠ "") : textOf (.str s) = some s := if_neg h

theorem plainDomain_toList (i : Nat) : (plainDomain i).toList = 'q' :: List.replicate i 'q' := by
  simp [plainDomain, join, List.replicate_succ]

/-- The fields of a slot of no high risk, with no alias and no term. -/
structure Bare (u : Unicode) (domains : List (String × Int)) (fields : Dict) (slot : RegistrySlot) : Prop where
  keys : fields.map Prod.fst = requiredSlotFields
  slotId : textOf (Dict.get fields "id") = some slot.slotId
  kind : textOf (Dict.get fields "kind") = some slot.kind
  domain : textOf (Dict.get fields "domain") = some slot.domain
  description : textOf (Dict.get fields "description") = some slot.description
  highRisk : Dict.get fields "high_risk" = .bool false
  aliases : Dict.get fields "aliases" = .arr []
  taxonomyDomain : Dict.get fields "taxonomy_domain" = .str slot.taxonomyDomain
  blockingTerms : Dict.get fields "blocking_terms" = .arr []
  content : 4 ≤ ((tokens u slot.description \ scoringDrop u) \ tokens u slot.domain).card
  isId : slot.kind ∈ kinds ∧ slot.slotId = slot.kind ++ ":" ++ slot.domain
  known : slot.taxonomyDomain ∈ domains.map Prod.fst
  canonical : ¬ Reserved slot.domain ∧ extractorNormalizeDomain u slot.domain = slot.domain ∧
    resolverNormalize u slot.domain = slot.domain
  noStopword : NoStopword u slot.domain
  rest : slot = ⟨slot.slotId, slot.kind, slot.domain, slot.description, false, [], [], [], none, slot.taxonomyDomain, []⟩

theorem Bare.read {domains : List (String × Int)} {fields : Dict} {slot : RegistrySlot} (h : Bare u domains fields slot)
    (index : Nat) : readSlot u domains index (.obj fields) = .ok slot := by
  have hkeys : requiredSlotFields ⊆ fields.map Prod.fst ∧ fields.map Prod.fst ⊆ allowedSlotFields := by
    rw [h.keys]
    decide
  have hmissing : ∀ key ∉ requiredSlotFields, Dict.getD fields key (.arr []) = .arr [] := by
    intro key hkey
    unfold Dict.getD Dict.has
    rw [if_neg]
    rw [Bool.not_eq_true, List.any_eq_false]
    intro kv hkv
    have hne : kv.1 ≠ key := by
      rintro rfl
      exact hkey (h.keys ▸ List.mem_map_of_mem hkv)
    simpa using hne
  unfold readSlot
  dsimp only
  rw [check_of hkeys, ok_then, requireText, h.slotId, requireText, h.kind, requireText, h.domain, requireText, h.description]
  rw [ok_then, ok_then, ok_then, ok_then, check_of h.content, ok_then, check_of h.isId, ok_then, h.taxonomyDomain,
    requireDomain,
    if_pos h.known, ok_then, check_of h.canonical, ok_then, check_of h.noStopword, ok_then, h.highRisk, requireBool, ok_then,
    h.aliases, strList]
  simp only [List.mapM_nil, Option.pure_def, if_pos List.nodup_nil, ok_then]
  rw [h.blockingTerms, strList, hmissing _ (by decide), hmissing _ (by decide), strList]
  simp only [List.mapM_nil, Option.pure_def, if_pos List.nodup_nil, ok_then]
  rw [check_of (by simp), ok_then, check_of (by simp), ok_then, check_of (by simp), ok_then, check_of (by simp), ok_then,
    strList]
  simp only [List.mapM_nil, Option.pure_def, if_pos List.nodup_nil, ok_then]
  rw [check_of (by simp), ok_then, check_of (by simp), ok_then, check_of (by simp), ok_then]
  rw [if_pos trivial, ← h.rest]

theorem readSlot_bare (i index : Nat) : readSlot asciiOnly [("all", 90)] index (bareJson i) = .ok (bareSlot i) := by
  have hdomain : plainDomain i ≠ "" := by
    intro he
    have hlist := congrArg String.toList he
    rw [plainDomain_toList] at hlist
    cases hlist
  have hid : "fact:" ++ plainDomain i ≠ "" := by
    intro he
    have hlist := congrArg String.toList he
    rw [String.toList_append] at hlist
    cases hlist
  apply Bare.read
  exact
    { keys := rfl
      slotId := textOf_str hid
      kind := rfl
      domain := textOf_str hdomain
      description := rfl
      highRisk := rfl
      aliases := rfl
      taxonomyDomain := rfl
      blockingTerms := rfl
      content := content_plain i
      isId := ⟨List.mem_of_elem_eq_true rfl, rfl⟩
      known := List.mem_singleton_self "all"
      canonical := by
        refine ⟨?_, extractorNormalizeDomain_join (isToken_plain i), resolverNormalize_plain i⟩
        unfold Reserved
        rw [bareSlot, plainDomain_toList]
        rintro ⟨rest, hrest⟩
        cases hrest
      noStopword := by
        unfold NoStopword
        rw [bareSlot, tokens_plain, Finset.singleton_inter_of_notMem]
        rw [List.mem_toFinset]
        exact plainDomain_notMem (by decide) i
      rest := rfl }

/-- Two of them are apart. -/
theorem apart_bare {i j : Nat} (h : i ≠ j) : Apart asciiOnly (bareSlot i) (bareSlot j) := by
  have hne : plainDomain i ≠ plainDomain j := fun he => h (plainDomain_injective he)
  constructor
  · intro hid
    exact hne ((String.append_right_inj "fact:").1 hid)
  · intro surface hs surface' hs'
    rw [List.mem_singleton.1 hs, List.mem_singleton.1 hs', bareSlot, bareSlot, resolverNormalize_plain, resolverNormalize_plain]
    exact hne

end

/-- A registry with as many slots as it needs. -/
def sampleDocument : Json := .obj [("version", .str "1"), ("slots", .arr ((List.range 90).map bareJson))]

def sampleTaxonomy : Json :=
  .obj [("version", .str "1"), ("domains", .obj [("all", .obj [("min_slots", .int 90), ("provenance", .str "generic:all")])])]

theorem forM_returns {α : Type} {f : α → Except ResolverErr Unit} {xs : List α} (h : ∀ x ∈ xs, f x = .ok ()) :
    xs.forM f = .ok () := by
  induction xs with
  | nil => rfl
  | cons x xs ih =>
    rw [List.forM, h x List.mem_cons_self, ok_then]
    exact ih fun y hy => h y (List.mem_cons_of_mem _ hy)

/-- **It is accepted, and routes its slots.** -/
theorem loadRegistry_routes_sample : ∃ registry,
    loadRegistry asciiOnly ⟨1000, 4300⟩ (fun _ => false) sampleDocument sampleTaxonomy none none = .ok registry ∧
    RoutesUnambiguously asciiOnly registry := by
  have htaxonomy : validateTaxonomy [("version", .str "1"), ("domains", .obj [("all",
      .obj [("min_slots", .int 90), ("provenance", .str "generic:all")])])] = .ok [("all", 90)] := by decide +kernel
  obtain ⟨slotHash, hslotHash⟩ : ∃ hash, canonicalHash ⟨1000, 4300⟩ sampleDocument = .ok hash := by
    unfold canonicalHash dumps
    rw [if_neg (by decide +kernel), if_neg (by decide +kernel)]
    exact ⟨_, rfl⟩
  obtain ⟨taxonomyHash, htaxonomyHash⟩ : ∃ hash, canonicalHash ⟨1000, 4300⟩ sampleTaxonomy = .ok hash := by
    unfold canonicalHash dumps
    rw [if_neg (by decide +kernel), if_neg (by decide +kernel)]
    exact ⟨_, rfl⟩
  obtain ⟨st, hst, hslots⟩ : ∃ st, loadSlots asciiOnly [("all", 90)] 0 ((List.range 90).map bareJson)
      ⟨[], ⟨[], []⟩, List.nodup_nil⟩ = .ok st ∧ st.slots = [] ++ (List.range 90).map bareSlot := by
    apply loadSlots_returns filed_nil
    · rw [List.forall₂_map_left_iff, List.forall₂_map_right_iff]
      exact List.forall₂_same.2 fun i _ => readSlot_bare i
    · exact List.pairwise_map.2 (List.nodup_range.imp apart_bare)
  rw [List.nil_append] at hslots
  have hcounts : checkCounts st.slots [("all", 90)] = .ok () := by
    apply forM_returns
    intro domain hdomain
    rw [List.mem_singleton.1 hdomain]
    apply check_of
    rw [hslots, List.countP_eq_length.2, List.length_map, List.length_range]
    · decide
    · intro slot hslot
      obtain ⟨i, -, rfl⟩ := List.mem_map.1 hslot
      rfl
  have hneighbors : checkNeighbors st.slots = .ok () := by
    apply forM_returns
    intro slot hslot
    rw [hslots] at hslot
    obtain ⟨i, -, rfl⟩ := List.mem_map.1 hslot
    rfl
  have hloaded : ∃ registry, loadRegistry asciiOnly ⟨1000, 4300⟩ (fun _ => false) sampleDocument sampleTaxonomy none none =
      .ok registry := by
    refine ⟨⟨"1", st.slots, compositeRegistryHash slotHash taxonomyHash, slotHash, taxonomyHash, st.ids⟩, ?_⟩
    unfold loadRegistry
    rw [hslotHash, htaxonomyHash]
    rw [sampleDocument, sampleTaxonomy, mapping, mapping, ok_then, ok_then]
    simp only [Dict.get, textOf, reduceCtorEq, String.reduceEq, if_true, if_false]
    rw [check_of (by decide), ok_then, htaxonomy, ok_then, ok_then, ok_then]
    rw [check_of (fun _ he => by cases he), ok_then, check_of (by decide), ok_then, hst, ok_then, hcounts, ok_then,
      hneighbors, ok_then]
    rfl
  obtain ⟨registry, h⟩ := hloaded
  exact ⟨registry, h, loadRegistry_routes h⟩

end Panella.Resolver
