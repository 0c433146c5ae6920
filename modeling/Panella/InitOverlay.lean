import Panella.GovernanceFile
import Panella.Lib.DeepMerge
import Panella.Lib.JsonRoundTrip

/-!
# The overlay `init` writes (`panella/cli/init.py:559-602`)

`init` merges its approval section over the operator's overlay and puts the result in its place; `load_governance` merges that
over the base. A configuration file is a `Config`, whose keys and values are whatever YAML has; `key` and `value` are the keys and
values that `init` writes. **`init_preserves_overlay`**: nothing but `init`'s own entries is another than before.
-/

namespace Panella

open DeepMerge PyJson

section
variable {κ α : Type} [DecidableEq κ] (key : String → κ) (value : Json → α)

/-- `LOCAL_CLI_APPROVER`. -/
def localCliApprover : String := "local_cli:owner"

/-- `approval_section`. -/
def approvalSection (tokenFile : String) : List (κ × Config κ α) :=
  [(key "approval", .mapping
    [(key "authorized_approvers", .value (value (.arr [.str localCliApprover]))),
     (key "transport", .mapping
      [(key "kind", .value (value (.str "local_cli"))),
       (key "config", .mapping
        [(key "token_file", .value (value (.str tokenFile))),
         (key "token_mode", .value (value (.str "0600")))])])])]

/-- `_write_governance_overlay`, over what the operator's overlay holds: the mapping it dumps. -/
def governanceOverlay (tokenFile : String) (base : List (κ × Config κ α)) : List (κ × Config κ α) :=
  (OrderedDict.setDefault (merge base (approvalSection key value tokenFile)) (key "schema_version") (.value (value (.int 1)))).1

/-- The entries of `init`, and what it sets them to. -/
def initEntries (tokenFile : String) : List (List κ × α) :=
  [([key "approval", key "authorized_approvers"], value (.arr [.str localCliApprover])),
   ([key "approval", key "transport", key "kind"], value (.str "local_cli")),
   ([key "approval", key "transport", key "config", key "token_file"], value (.str tokenFile)),
   ([key "approval", key "transport", key "config", key "token_mode"], value (.str "0600"))]

/-- The paths where `init` has a say. -/
def initPaths : List (List κ) :=
  [[key "approval", key "authorized_approvers"], [key "approval", key "transport", key "kind"],
   [key "approval", key "transport", key "config", key "token_file"],
   [key "approval", key "transport", key "config", key "token_mode"], [key "schema_version"]]

/-- `approval`, its transport and the config of that are mappings where they are there. -/
def MappingsWhenPresent (overlay : List (κ × Config κ α)) : Prop :=
  ∀ path ∈ [[key "approval"], [key "approval", key "transport"], [key "approval", key "transport", key "config"]],
    ∀ v, (Config.mapping overlay).path? path = some v → ∃ items, v = .mapping items

/-- What `load_governance` merges before and after `init`. -/
structure PreservesOverlay (tokenFile : String) (base overlay : List (κ × Config κ α)) : Prop where
  /-- Neither in an entry of `init` nor on the way to one. -/
  elsewhere : ∀ path : List κ, (∀ own ∈ initPaths key, ¬ own <+: path ∧ ¬ path <+: own) →
    (Config.mapping (merge base (governanceOverlay key value tokenFile overlay))).path? path =
      (Config.mapping (merge base overlay)).path? path
  entries : ∀ entry ∈ initEntries key value tokenFile,
    (Config.mapping (merge base (governanceOverlay key value tokenFile overlay))).path? entry.1 = some (.value entry.2)
  again : governanceOverlay key value tokenFile (governanceOverlay key value tokenFile overlay) =
    governanceOverlay key value tokenFile overlay

end

section
variable {κ α : Type} [DecidableEq κ] {key : String → κ} {value : Json → α} {tokenFile : String}
  {base overlay : List (κ × Config κ α)} {path : List κ}

theorem wf_approvalSection (hkey : Function.Injective key) :
    (Config.mapping (approvalSection key value tokenFile) : Config κ α).WF := by
  have hne : ∀ {s t : String}, s ≠ t → key s ≠ key t := fun h he => h (hkey he)
  simp [approvalSection, Config.WF, WFItems, hne]

theorem compatible_approvalSection (h : MappingsWhenPresent key overlay) :
    CompatibleItems overlay (approvalSection key value tokenFile) := by
  have hlevel : ∀ {c : Option (Config κ α)} {new : List (κ × Config κ α)}, (∀ v, c = some v → ∃ items, v = .mapping items) →
      (∀ old, c = some (.mapping old) → CompatibleItems old new) → Compatible c (.mapping new) := by
    intro c new hmapping hitems
    rcases c with _ | v
    · rw [Compatible] <;> simp
    · obtain ⟨old, rfl⟩ := hmapping v rfl
      rw [Compatible]
      exact hitems old rfl
  have hvalue : ∀ (c : Option (Config κ α)) (a : α), Compatible c (.value a) := by
    rintro (_ | ⟨b⟩ | ⟨old⟩) a <;> rw [Compatible] <;> simp
  refine ⟨hlevel (fun v hv => h [key "approval"] (by simp) v (by simp [Config.path?, hv])) fun old hold => ?_, trivial⟩
  refine ⟨hvalue _ _, hlevel (fun v hv => h [key "approval", key "transport"] (by simp) v ?_) fun old' hold' => ?_, trivial⟩
  · simp [Config.path?, hold, hv]
  refine ⟨hvalue _ _, hlevel (fun v hv => h [key "approval", key "transport", key "config"] (by simp) v ?_) fun old'' _ => ?_,
    trivial⟩
  · simp [Config.path?, hold, hold', hv]
  exact ⟨hvalue _ _, hvalue _ _, trivial⟩

/-- A path apart from `init`'s entries leaves its section. -/
theorem untouched_approvalSection (h : ∀ own ∈ initPaths key, ¬ own <+: path ∧ ¬ path <+: own) :
    Untouched (.mapping (approvalSection key value tokenFile)) path := by
  have hlevel : ∀ {items : List (κ × Config κ α)} {p : List κ}, p ≠ [] →
      (∀ k ks v, p = k :: ks → items.lookup k = some v → Untouched v ks) → Untouched (.mapping items) p := by
    intro items p hp hnext
    cases p with
    | nil => exact absurd rfl hp
    | cons k ks => exact fun v hv => hnext k ks v rfl hv
  simp only [initPaths, List.mem_cons, List.not_mem_nil, or_false, forall_eq_or_imp, forall_eq] at h
  obtain ⟨happrovers, hkind, hfile, hmode, -⟩ := h
  apply hlevel
  · rintro rfl
    exact happrovers.2 (List.nil_prefix)
  rintro k ks v rfl hv
  simp only [approvalSection, OrderedDict.lookup_cons_if, List.lookup_nil] at hv
  split at hv <;> cases hv
  next hk =>
  subst hk
  apply hlevel
  · rintro rfl
    exact happrovers.2 (by simp)
  rintro k ks v rfl hv
  simp only [OrderedDict.lookup_cons_if, List.lookup_nil] at hv
  split at hv
  · next hk =>
    exact absurd (by simp [hk]) happrovers.1
  split at hv <;> cases hv
  next hk =>
  subst hk
  apply hlevel
  · rintro rfl
    exact hkind.2 (by simp)
  rintro k ks v rfl hv
  simp only [OrderedDict.lookup_cons_if, List.lookup_nil] at hv
  split at hv
  · next hk => exact absurd (by simp [hk]) hkind.1
  split at hv <;> cases hv
  next hk =>
  subst hk
  apply hlevel
  · rintro rfl
    exact hfile.2 (by simp)
  rintro k ks v rfl hv
  simp only [OrderedDict.lookup_cons_if, List.lookup_nil] at hv
  split at hv
  · next hk => exact absurd (by simp [hk]) hfile.1
  split at hv
  · next hk => exact absurd (by simp [hk]) hmode.1
  · cases hv

theorem path?_approvalSection (hkey : Function.Injective key) : ∀ entry ∈ initEntries key value tokenFile,
    (Config.mapping (approvalSection key value tokenFile)).path? entry.1 = some (.value entry.2) := by
  have hne : ∀ {s t : String}, s ≠ t → key s ≠ key t := fun h he => h (hkey he)
  intro entry hentry
  simp only [initEntries, List.mem_cons, List.not_mem_nil, or_false] at hentry
  rcases hentry with rfl | rfl | rfl | rfl <;>
    simp [approvalSection, Config.path?, OrderedDict.lookup_cons_if, hne]

/-! ## The overlay that is written -/

theorem wf_governanceOverlay (hkey : Function.Injective key) (ho : (Config.mapping overlay).WF) :
    (Config.mapping (governanceOverlay key value tokenFile overlay)).WF := by
  have hmerged := wf_merge overlay ho (approvalSection key value tokenFile) (wf_approvalSection hkey).2
  unfold governanceOverlay OrderedDict.setDefault
  split
  · exact hmerged
  · exact ⟨OrderedDict.nodup_keys_put hmerged.1 _ _, wfItems_put hmerged.2 trivial⟩

/-- `schema_version` apart, it is the merge. -/
theorem lookup_governanceOverlay {k : κ} (hk : k ≠ key "schema_version") :
    (governanceOverlay key value tokenFile overlay).lookup k = (merge overlay (approvalSection key value tokenFile)).lookup k := by
  unfold governanceOverlay
  rw [OrderedDict.lookup_setDefault, if_neg hk]

/-- **Written once, written for good.** -/
theorem governanceOverlay_again (hkey : Function.Injective key) (ho : (Config.mapping overlay).WF) :
    governanceOverlay key value tokenFile (governanceOverlay key value tokenFile overlay) =
      governanceOverlay key value tokenFile overlay := by
  have happroval : key "approval" ≠ key "schema_version" := fun he => absurd (hkey he) (by decide)
  have hhas : HasItems (governanceOverlay key value tokenFile overlay) (approvalSection key value tokenFile) := by
    have hmerged := has_mergeValue (some (.mapping overlay)) (.mapping (approvalSection key value tokenFile)) (wf_approvalSection hkey)
    rw [mergeValue_mapping, Has] at hmerged
    refine ⟨?_, trivial⟩
    rw [lookup_governanceOverlay happroval]
    exact hmerged.1
  have hsame := merge_eq_self _ (wf_governanceOverlay hkey ho) _ hhas
  have hversion : ∃ known, (governanceOverlay key value tokenFile overlay).lookup (key "schema_version") = some known := by
    exact ⟨_, (OrderedDict.lookup_setDefault ..).trans (if_pos rfl)⟩
  obtain ⟨known, hknown⟩ := hversion
  show (OrderedDict.setDefault (merge (governanceOverlay key value tokenFile overlay) (approvalSection key value tokenFile))
    (key "schema_version") (.value (value (.int 1)))).1 = governanceOverlay key value tokenFile overlay
  rw [hsame, OrderedDict.setDefault, hknown]

/-- **What is merged under `init`'s overlay**, apart from `init`'s paths. -/
theorem path?_governanceOverlay (hkey : Function.Injective key) (ho : (Config.mapping overlay).WF)
    (hmappings : MappingsWhenPresent key overlay) (h : ∀ own ∈ initPaths key, ¬ own <+: path ∧ ¬ path <+: own) :
    (Config.mapping (merge base (governanceOverlay key value tokenFile overlay))).path? path =
      (Config.mapping (merge base overlay)).path? path := by
  have hsection : (Config.mapping (approvalSection key value tokenFile)).WF := wf_approvalSection hkey
  have huntouched : Untouched (.mapping (approvalSection key value tokenFile)) path := untouched_approvalSection h
  obtain ⟨-, k, ks, -, rfl⟩ := untouched_cases huntouched
  have hk : k ≠ key "schema_version" := by
    rintro rfl
    exact (h [key "schema_version"] (by simp [initPaths])).1 (by simp)
  have hfits : Compatible (some (.mapping overlay)) (.mapping (approvalSection key value tokenFile)) := by
    rw [Compatible]
    exact compatible_approvalSection hmappings
  have hmerge := path?_merge_merge (fun x hx => by cases hx; exact ho) hsection hfits huntouched (some (.mapping base))
  have hboth := wf_merge overlay ho (approvalSection key value tokenFile) hsection.2
  rw [mergeValue_mapping, mergeValue_mapping, overlaid, Option.bind_some, mergeValue_mapping] at hmerge
  rw [← hmerge, path?_cons, path?_cons, lookup_merge (wf_governanceOverlay hkey ho).1, lookup_merge hboth.1,
    lookup_governanceOverlay hk]

theorem path?_entry (hkey : Function.Injective key) (ho : (Config.mapping overlay).WF) {entry : List κ × α}
    (hentry : entry ∈ initEntries key value tokenFile) :
    (Config.mapping (merge base (governanceOverlay key value tokenFile overlay))).path? entry.1 = some (.value entry.2) := by
  have hmerged := path?_merge_value (wf_approvalSection hkey) (path?_approvalSection hkey entry hentry) (some (.mapping overlay))
  have hbelow : ∃ ks, entry.1 = key "approval" :: ks := by
    simp only [initEntries, List.mem_cons, List.not_mem_nil, or_false] at hentry
    rcases hentry with rfl | rfl | rfl | rfl <;> exact ⟨_, rfl⟩
  obtain ⟨ks, hks⟩ := hbelow
  have hwritten : (Config.mapping (governanceOverlay key value tokenFile overlay)).path? entry.1 = some (.value entry.2) := by
    rw [mergeValue_mapping] at hmerged
    rw [← hmerged, hks, path?_cons, path?_cons, lookup_governanceOverlay fun he => absurd (hkey he) (by decide)]
  have hover := path?_merge_value (wf_governanceOverlay hkey ho) hwritten (some (.mapping base))
  rwa [mergeValue_mapping] at hover

end

/-- **`init` preserves the operator's overlay**, whatever the base. -/
theorem init_preserves_overlay {κ α : Type} [DecidableEq κ] {key : String → κ} (hkey : Function.Injective key) (value : Json → α)
    (tokenFile : String) (base : List (κ × Config κ α)) {overlay : List (κ × Config κ α)} (ho : (Config.mapping overlay).WF)
    (hmappings : MappingsWhenPresent key overlay) : PreservesOverlay key value tokenFile base overlay where
  elsewhere _ h := path?_governanceOverlay hkey ho hmappings h
  entries _ hentry := path?_entry hkey ho hentry
  again := governanceOverlay_again hkey ho

/-- An operator's wing and another transport. -/
def sampleOverlay : List (String × Config String Json) :=
  [("identity", .mapping [("owner_wing", .value (.str "notes"))]),
   ("approval", .mapping [("transport", .mapping [("kind", .value (.str "telegram"))])])]

theorem init_preserves_overlay_sample : PreservesOverlay id id "/run/token"
    [("identity", .mapping [("owner_wing", .value (.str "wing")), ("owner_slug", .value (.str "owner"))])] sampleOverlay := by
  apply init_preserves_overlay Function.injective_id
  · simp [sampleOverlay, Config.WF, WFItems]
  · intro path hpath v hv
    simp only [List.mem_cons, List.not_mem_nil, or_false] at hpath
    rcases hpath with rfl | rfl | rfl
    · exact ⟨_, (Option.some.inj hv).symm⟩
    · exact ⟨_, (Option.some.inj hv).symm⟩
    · cases hv

/-! ## JSON documents -/

mutual
/-- A document as a configuration: what is no mapping is a value. -/
def configOf : Json → Config String Json
  | .obj kvs => .mapping (itemsOf kvs)
  | v => .value v
def itemsOf : List (String × Json) → List (String × Config String Json)
  | [] => []
  | (k, v) :: kvs => (k, configOf v) :: itemsOf kvs
end

section
variable {d : Dict} {k : String} {v : Json}

theorem keys_itemsOf (d : Dict) : (itemsOf d).map Prod.fst = d.map Prod.fst := by
  induction d with
  | nil =>
    rw [itemsOf]
    rfl
  | cons kv d ih => rw [itemsOf, List.map_cons, List.map_cons, ih]

theorem lookup_itemsOf (d : Dict) (k : String) :
    (itemsOf d).lookup k = if Dict.has d k then some (configOf (Dict.get d k)) else none := by
  induction d with
  | nil =>
    rw [itemsOf]
    rfl
  | cons kv d ih =>
    obtain ⟨k', v⟩ := kv
    rw [itemsOf, OrderedDict.lookup_cons_if, ih]
    by_cases hk : k' = k
    · simp [hk, Dict.has, Dict.get]
    · have hhas : Dict.has ((k', v) :: d) k = Dict.has d k := by
        unfold Dict.has
        rw [List.any_cons, beq_eq_false_iff_ne.2 hk, Bool.false_or]
      rw [if_neg (Ne.symm hk), hhas, Dict.get, if_neg hk]

theorem itemsOf_set (h : (d.map Prod.fst).Nodup) (k : String) (v : Json) :
    itemsOf (Dict.set d k v) = OrderedDict.put (itemsOf d) k (configOf v) := by
  induction d with
  | nil => simp [Dict.set, itemsOf, OrderedDict.put]
  | cons kv d ih =>
    obtain ⟨hnew, hrest⟩ := List.nodup_cons.1 h
    obtain ⟨k', v'⟩ := kv
    rw [Dict.set]
    split
    · next hk =>
      have hother : ∀ item ∈ itemsOf d, (if item.1 = k then (k, configOf v) else item) = item := by
        intro item hmem
        rw [if_neg]
        rintro rfl
        exact hnew (hk ▸ keys_itemsOf d ▸ List.mem_map_of_mem hmem)
      rw [itemsOf, itemsOf, OrderedDict.put, if_pos (by simp [hk]), List.map_cons, if_pos hk, List.map_congr_left hother,
        List.map_id', hk]
    · next hk =>
      rw [itemsOf, itemsOf, ih hrest]
      unfold OrderedDict.put
      by_cases hany : (itemsOf d).any (·.1 = k) = true
      · rw [if_pos hany, if_pos (by simp [hany]), List.map_cons, if_neg hk]
      · rw [if_neg hany, if_neg (by simp [hk, hany]), List.cons_append]

end

mutual
/-- **`deepMerge` is the merge of the configurations.** -/
theorem itemsOf_deepMerge (base : Dict) (hb : WF (.obj base)) : (overlay : List (String × Json)) → WFMembers overlay →
    WF (.obj (deepMerge base overlay)) ∧ itemsOf (deepMerge base overlay) = merge (itemsOf base) (itemsOf overlay)
  | [], _ => by
    rw [deepMerge, itemsOf, merge]
    exact ⟨hb, rfl⟩
  | (k, v) :: overlay, ho => by
    obtain ⟨hwf, hvalue⟩ := configOf_mergeValue (Dict.get base k) (wf_get hb k) v ho.1
    have hset : itemsOf (Dict.set base k (Panella.mergeValue (Dict.get base k) v)) =
        OrderedDict.put (itemsOf base) k (DeepMerge.mergeValue ((itemsOf base).lookup k) (configOf v)) := by
      rw [itemsOf_set hb.1, lookup_itemsOf, hvalue]
      split
      · rfl
      · next hmissing =>
        have hnull : Dict.get base k = .null := Dict.get_of_notMem fun hmem => hmissing (Dict.has_iff.2 hmem)
        rw [hnull, configOf, mergeValue_of_value, mergeValue_none]
        simp
    obtain ⟨hwf', hrest⟩ := itemsOf_deepMerge _ (wf_set hb hwf) overlay ho.2
    rw [deepMerge, itemsOf, merge, ← hset]
    exact ⟨hwf', hrest⟩
theorem configOf_mergeValue (old : Json) (hold : WF old) : (v : Json) → WF v →
    WF (Panella.mergeValue old v) ∧
      configOf (Panella.mergeValue old v) = DeepMerge.mergeValue (some (configOf old)) (configOf v)
  | .obj new, hv => by
    cases old with
    | obj kvs =>
      obtain ⟨hwf, hitems⟩ := itemsOf_deepMerge kvs hold new hv.2
      rw [Panella.mergeValue, configOf, configOf, configOf, mergeValue_mapping, hitems]
      exact ⟨hwf, rfl⟩
    | _ =>
      rw [Panella.mergeValue]
      · exact ⟨hv, by simp [configOf]⟩
      · simp
  | .null, _ => by cases old <;> (rw [Panella.mergeValue] <;> simp [configOf, WF])
  | .bool b, _ => by cases old <;> (rw [Panella.mergeValue] <;> simp [configOf, WF])
  | .int n, _ => by cases old <;> (rw [Panella.mergeValue] <;> simp [configOf, WF])
  | .float x, _ => by cases old <;> (rw [Panella.mergeValue] <;> simp [configOf, WF])
  | .str s, _ => by cases old <;> (rw [Panella.mergeValue] <;> simp [configOf, WF])
  | .arr xs, hv => by cases old <;> (rw [Panella.mergeValue] <;> simp [configOf, hv])
end

end Panella
