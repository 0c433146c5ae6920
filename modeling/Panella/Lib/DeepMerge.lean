import Panella.Lib.OrderedDict

/-!
# Deep merges of nested dictionaries

A configuration is a value or a mapping to configurations; keys and values are of any type. `merge` puts an overlay over a base:
where both have a mapping the two are merged, elsewhere the overlay's entry replaces the base's. What stands at a path of the
result is settled by three rules: a value of the overlay is there (`path?_merge_value`), what the overlay does not reach is as it
was (`path?_merge_untouched`), and so it is under a base that both are laid over (**`path?_merge_merge`**). What is there already
is not changed (`merge_eq_self`).
-/

namespace DeepMerge

inductive Config (κ α : Type) where
  | value (a : α)
  | mapping (items : List (κ × Config κ α))

variable {κ α : Type} [DecidableEq κ]

mutual
/-- The overlay's items, one after the other. -/
def merge : List (κ × Config κ α) → List (κ × Config κ α) → List (κ × Config κ α)
  | base, [] => base
  | base, (k, v) :: overlay => merge (OrderedDict.put base k (mergeValue (base.lookup k) v)) overlay
def mergeValue : Option (Config κ α) → Config κ α → Config κ α
  | some (.mapping old), .mapping new => .mapping (merge old new)
  | _, v => v
end

/-- An entry of the overlay, or none, over one of the base. -/
def overlaid (c : Option (Config κ α)) : Option (Config κ α) → Option (Config κ α)
  | none => c
  | some v => some (mergeValue c v)

/-- What stands at a path. -/
def Config.path? : Config κ α → List κ → Option (Config κ α)
  | c, [] => some c
  | .value _, _ :: _ => none
  | .mapping items, k :: ks => (items.lookup k).bind (·.path? ks)

mutual
/-- No mapping has a key twice. -/
def Config.WF : Config κ α → Prop
  | .value _ => True
  | .mapping items => (items.map Prod.fst).Nodup ∧ WFItems items
def WFItems : List (κ × Config κ α) → Prop
  | [] => True
  | (_, v) :: items => v.WF ∧ WFItems items
end

/-- The path leaves what the configuration has a mapping for. -/
def Untouched : Config κ α → List κ → Prop
  | .value _, _ => False
  | .mapping _, [] => False
  | .mapping items, k :: ks => ∀ v, items.lookup k = some v → Untouched v ks

mutual
/-- Where the second has a mapping, the first has one or nothing. -/
def Compatible : Option (Config κ α) → Config κ α → Prop
  | some (.mapping old), .mapping new => CompatibleItems old new
  | some (.value _), .mapping _ => False
  | _, _ => True
def CompatibleItems (old : List (κ × Config κ α)) : List (κ × Config κ α) → Prop
  | [] => True
  | (k, v) :: new => Compatible (old.lookup k) v ∧ CompatibleItems old new
end

mutual
/-- The first has all that the second has. -/
def Has : Option (Config κ α) → Config κ α → Prop
  | some (.mapping old), .mapping new => HasItems old new
  | some (.value a), .value b => a = b
  | _, _ => False
def HasItems (old : List (κ × Config κ α)) : List (κ × Config κ α) → Prop
  | [] => True
  | (k, v) :: new => Has (old.lookup k) v ∧ HasItems old new
end

variable {base overlay items old new : List (κ × Config κ α)} {k : κ} {v : Config κ α} {c : Option (Config κ α)}

@[simp] theorem mergeValue_value (c : Option (Config κ α)) (a : α) : mergeValue c (.value a) = .value a := by
  cases c with
  | none => rw [mergeValue]; simp
  | some c => cases c <;> rw [mergeValue] <;> simp

@[simp] theorem mergeValue_none (v : Config κ α) : mergeValue none v = v := by
  cases v <;> rw [mergeValue] <;> simp

@[simp] theorem mergeValue_mapping (old new : List (κ × Config κ α)) :
    mergeValue (some (.mapping old)) (.mapping new) = .mapping (merge old new) := by rw [mergeValue]

@[simp] theorem mergeValue_of_value (a : α) (v : Config κ α) : mergeValue (some (.value a)) v = v := by
  cases v <;> rw [mergeValue] <;> simp

/-- **What a merge has at a key.** -/
theorem lookup_merge (h : (overlay.map Prod.fst).Nodup) (base : List (κ × Config κ α)) (k : κ) :
    (merge base overlay).lookup k = overlaid (base.lookup k) (overlay.lookup k) := by
  induction overlay generalizing base with
  | nil => rw [merge]; rfl
  | cons item overlay ih =>
    obtain ⟨k', v⟩ := item
    obtain ⟨hnew, hrest⟩ := List.nodup_cons.1 h
    rw [merge, ih hrest, OrderedDict.lookup_cons_if, OrderedDict.lookup_put]
    by_cases hk : k = k'
    · have hnone : overlay.lookup k = none := by
        rw [← Option.not_isSome_iff_eq_none, OrderedDict.lookup_isSome, hk]
        exact hnew
      rw [hnone, if_pos hk, if_pos hk, hk]
      rfl
    · rw [if_neg hk, if_neg hk]

theorem wfItems_iff : WFItems items ↔ ∀ item ∈ items, item.2.WF := by
  induction items with
  | nil => simp [WFItems]
  | cons item items ih => simp [WFItems, ih]

theorem mem_of_lookup (h : items.lookup k = some v) : (k, v) ∈ items := by
  induction items with
  | nil => cases h
  | cons item items ih =>
    rw [OrderedDict.lookup_cons_if] at h
    split at h
    · next hk =>
      cases h
      rw [hk]
      exact List.mem_cons_self
    · exact List.mem_cons_of_mem _ (ih h)

theorem wf_of_lookup (h : WFItems items) (hv : items.lookup k = some v) : v.WF := wfItems_iff.1 h _ (mem_of_lookup hv)

theorem wfItems_put (h : WFItems items) (hv : v.WF) : WFItems (OrderedDict.put items k v) := by
  rw [wfItems_iff] at h ⊢
  intro item hmem
  unfold OrderedDict.put at hmem
  split at hmem
  · obtain ⟨item', hmem', rfl⟩ := List.mem_map.1 hmem
    split
    · exact hv
    · exact h item' hmem'
  · rcases List.mem_append.1 hmem with hold | hnew
    · exact h item hold
    · rw [List.mem_singleton.1 hnew]
      exact hv

mutual
/-- **A merge has no key twice.** -/
theorem wf_merge (base : List (κ × Config κ α)) (hb : (base.map Prod.fst).Nodup ∧ WFItems base) :
    (overlay : List (κ × Config κ α)) → WFItems overlay →
      ((merge base overlay).map Prod.fst).Nodup ∧ WFItems (merge base overlay)
  | [], _ => by
    rw [merge]
    exact hb
  | (k, v) :: overlay, ho => by
    rw [merge]
    have hv : (mergeValue (base.lookup k) v).WF := wf_mergeValue (base.lookup k) (fun _ hc => wf_of_lookup hb.2 hc) v ho.1
    exact wf_merge _ ⟨OrderedDict.nodup_keys_put hb.1 k _, wfItems_put hb.2 hv⟩ overlay ho.2
theorem wf_mergeValue (c : Option (Config κ α)) (hc : ∀ x, c = some x → x.WF) : (v : Config κ α) → v.WF → (mergeValue c v).WF
  | .value a, _ => by
    rw [mergeValue_value]
    trivial
  | .mapping new, hv => by
    rcases c with _ | ⟨a⟩ | ⟨old⟩
    · rw [mergeValue_none]
      exact hv
    · rw [mergeValue_of_value]
      exact hv
    · rw [mergeValue_mapping]
      exact wf_merge old (hc _ rfl) new hv.2
end

/-! ## What stands at a path -/

variable {a : α} {p : List κ}

theorem path?_cons (items : List (κ × Config κ α)) (k : κ) (ks : List κ) :
    (Config.mapping items).path? (k :: ks) = (items.lookup k).bind (·.path? ks) := rfl

/-- Nothing is reached in a value. -/
theorem untouched_cases (h : Untouched v p) : ∃ items k ks, v = .mapping items ∧ p = k :: ks := by
  cases v with
  | value a => cases p <;> exact absurd h id
  | mapping items =>
    cases p with
    | nil => exact absurd h id
    | cons k ks => exact ⟨items, k, ks, rfl, rfl⟩

theorem path?_untouched (h : Untouched v p) : v.path? p = none := by
  induction p generalizing v with
  | nil =>
    obtain ⟨items, k, ks, -, hp⟩ := untouched_cases h
    cases hp
  | cons k ks ih =>
    obtain ⟨items, -, -, rfl, -⟩ := untouched_cases h
    rw [path?_cons]
    cases hv : items.lookup k with
    | none => rfl
    | some v => exact ih (h v hv)

/-- **A value of the overlay is in the merge.** -/
theorem path?_merge_value (hv : v.WF) (h : v.path? p = some (.value a)) (c : Option (Config κ α)) :
    (mergeValue c v).path? p = some (.value a) := by
  induction p generalizing c v with
  | nil =>
    cases h
    rw [mergeValue_value]
    rfl
  | cons k ks ih =>
    cases v with
    | value b => cases h
    | mapping new =>
      rcases c with _ | ⟨b⟩ | ⟨old⟩
      · rw [mergeValue_none]
        exact h
      · rw [mergeValue_of_value]
        exact h
      · rw [mergeValue_mapping, path?_cons, lookup_merge hv.1]
        rw [path?_cons] at h
        cases hnew : new.lookup k with
        | none =>
          rw [hnew] at h
          cases h
        | some x =>
          rw [hnew] at h
          exact ih (wf_of_lookup hv.2 hnew) h _

/-- **What the overlay does not reach is as it was.** -/
theorem path?_merge_untouched (hv : v.WF) (h : Untouched v p) (c : Option (Config κ α)) :
    (mergeValue c v).path? p = c.bind (·.path? p) := by
  induction p generalizing c v with
  | nil =>
    obtain ⟨items, k, ks, -, hp⟩ := untouched_cases h
    cases hp
  | cons k ks ih =>
    obtain ⟨new, -, -, rfl, -⟩ := untouched_cases h
    rcases c with _ | ⟨b⟩ | ⟨old⟩
    · rw [mergeValue_none]
      exact path?_untouched h
    · rw [mergeValue_of_value]
      exact path?_untouched h
    · rw [mergeValue_mapping, path?_cons, lookup_merge hv.1, Option.bind_some, path?_cons]
      cases hnew : new.lookup k with
      | none => rfl
      | some x => exact ih (wf_of_lookup hv.2 hnew) (h x hnew) _

theorem compatible_of_lookup (h : CompatibleItems old new) (hv : new.lookup k = some v) : Compatible (old.lookup k) v := by
  induction new with
  | nil => cases hv
  | cons item new ih =>
    rw [OrderedDict.lookup_cons_if] at hv
    split at hv
    · next hk =>
      cases hv
      rw [hk]
      exact h.1
    · exact ih h.2 hv

/-- **Two overlays, one after the other**: where the second does not reach, the base sees the first alone. -/
theorem path?_merge_merge {first : Option (Config κ α)} {second : Config κ α} (hf : ∀ x, first = some x → x.WF)
    (hs : second.WF) (hfits : Compatible first second) (h : Untouched second p) (c : Option (Config κ α)) :
    (mergeValue c (mergeValue first second)).path? p = (overlaid c first).bind (·.path? p) := by
  induction p generalizing c first second with
  | nil =>
    obtain ⟨items, k, ks, -, hp⟩ := untouched_cases h
    cases hp
  | cons k ks ih =>
    obtain ⟨new, -, -, rfl, -⟩ := untouched_cases h
    rcases first with _ | ⟨b⟩ | ⟨old⟩
    · rw [mergeValue_none]
      exact path?_merge_untouched hs h c
    · rw [Compatible] at hfits
      exact absurd hfits id
    · have hold : (Config.mapping old).WF := hf _ rfl
      have hmiddle := path?_merge_untouched hs h (some (.mapping old))
      rw [overlaid, Option.bind_some]
      rcases c with _ | ⟨b⟩ | ⟨base⟩
      · rw [mergeValue_none, mergeValue_none]
        exact hmiddle
      · rw [mergeValue_of_value, mergeValue_of_value]
        exact hmiddle
      · rw [Compatible] at hfits
        rw [mergeValue_mapping, mergeValue_mapping, mergeValue_mapping, path?_cons, path?_cons,
          lookup_merge (wf_merge old hold new hs.2).1, lookup_merge hs.1, lookup_merge hold.1]
        cases hnew : new.lookup k with
        | none => rfl
        | some x =>
          have hrest := ih (fun y hy => wf_of_lookup hold.2 hy) (wf_of_lookup hs.2 hnew) (compatible_of_lookup hfits hnew) (h x hnew)
          exact hrest _

/-! ## What is there already -/

mutual
/-- **A merge has what its overlay has.** -/
theorem has_mergeValue (c : Option (Config κ α)) : (v : Config κ α) → v.WF → Has (some (mergeValue c v)) v
  | .value a, _ => by
    rw [mergeValue_value, Has]
  | .mapping new, hv => by
    have hlookup : ∀ k v, (k, v) ∈ new → new.lookup k = some v := fun k v hmem => (OrderedDict.mem_iff_lookup hv.1).1 hmem
    have hself : HasItems new new := by
      apply has_items new new hv.2
      intro k v hmem
      exact ⟨none, by rw [hlookup k v hmem, mergeValue_none]⟩
    rcases c with _ | ⟨a⟩ | ⟨old⟩
    · rw [mergeValue_none, Has]
      exact hself
    · rw [mergeValue_of_value, Has]
      exact hself
    · rw [mergeValue_mapping, Has]
      apply has_items _ new hv.2
      intro k v hmem
      exact ⟨old.lookup k, by rw [lookup_merge hv.1, hlookup k v hmem]; rfl⟩
theorem has_items (items : List (κ × Config κ α)) : (new : List (κ × Config κ α)) → WFItems new →
    (∀ k v, (k, v) ∈ new → ∃ c, items.lookup k = some (mergeValue c v)) → HasItems items new
  | [], _, _ => by
    rw [HasItems]
    trivial
  | (k, v) :: new, hv, h => by
    obtain ⟨c, hc⟩ := h k v List.mem_cons_self
    rw [HasItems, hc]
    exact ⟨has_mergeValue c v hv.1, has_items items new hv.2 fun k' v' hmem => h k' v' (List.mem_cons_of_mem _ hmem)⟩
end

/-- Setting a key to what it has changes nothing. -/
theorem put_eq_self {x : Config κ α} (h : (items.map Prod.fst).Nodup) (hx : items.lookup k = some x) :
    OrderedDict.put items k x = items := by
  have hmem := mem_of_lookup hx
  have hany : items.any (·.1 = k) = true := List.any_eq_true.2 ⟨_, hmem, by simp⟩
  unfold OrderedDict.put
  rw [if_pos hany]
  have hsame : ∀ item ∈ items, (if item.1 = k then (k, x) else item) = item := by
    intro item hitem
    split
    · next hk =>
      rw [← hk] at hmem ⊢
      have hfound := (OrderedDict.mem_iff_lookup h).1 hitem
      rw [(OrderedDict.mem_iff_lookup h).1 hmem] at hfound
      rw [Option.some.inj hfound]
    · rfl
  rw [List.map_congr_left hsame, List.map_id']

mutual
/-- **What a configuration has already does not change it.** -/
theorem merge_eq_self (items : List (κ × Config κ α)) (hw : (Config.mapping items).WF) :
    (new : List (κ × Config κ α)) → HasItems items new → merge items new = items
  | [], _ => by rw [merge]
  | (k, v) :: new, h => by
    rw [HasItems] at h
    obtain ⟨x, hx, hsame⟩ := mergeValue_eq_self (items.lookup k) (fun _ hy => wf_of_lookup hw.2 hy) v h.1
    rw [merge, hsame, put_eq_self hw.1 hx]
    exact merge_eq_self items hw new h.2
theorem mergeValue_eq_self (c : Option (Config κ α)) (hw : ∀ x, c = some x → x.WF) :
    (v : Config κ α) → Has c v → ∃ x, c = some x ∧ mergeValue c v = x
  | .value a, h => by
    rcases c with _ | ⟨b⟩ | ⟨old⟩
    · exact absurd h (by rw [Has] <;> simp)
    · rw [Has] at h
      exact ⟨_, rfl, by rw [mergeValue_value, h]⟩
    · exact absurd h (by rw [Has] <;> simp)
  | .mapping new, h => by
    rcases c with _ | ⟨b⟩ | ⟨old⟩
    · exact absurd h (by rw [Has] <;> simp)
    · exact absurd h (by rw [Has] <;> simp)
    · rw [Has] at h
      exact ⟨_, rfl, by rw [mergeValue_mapping, merge_eq_self old (hw _ rfl) new h]⟩
end

end DeepMerge
