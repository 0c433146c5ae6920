import Mathlib.Algebra.BigOperators.Group.List.Lemmas
import Mathlib.Algebra.Ring.Nat
import Mathlib.Data.List.GetD
import Mathlib.Data.String.Basic
import Panella.Lib.OrderedDict
import Panella.SearchIsolation

/-!
# Aggregate stats (`panella/client.py`, `panella/panella_adapter.py`)

| here | there |
| --- | --- |
| `tallyRow`, `walkPages` | the loops of `PanellaAdapter.aggregate_stats` (:684-718) |
| `wingBreakdown` | its `wing_breakdown` (:719-727) |
| `pruneWing`, `aggregateStats` | `MemoryClient.aggregate_stats` (:756-797) |

The adapter tallies the rows of the tenants over all rooms, and the client prunes the rooms afterwards. The counts are
pruned with their rooms; the latest timestamp of a wing is not.
-/

namespace Panella

open Fallible PyJson OrderedDict

/-! ## The adapter -/

/-- `GET /api/memories` by page: the JSON of the answer, or `f"{type(exc).__name__}: {exc}"` of what it raised. -/
abbrev PagesApi : Type := Nat → Except String Json

/-- `body.get(key)`, of `resp.json() or {}`. -/
def bodyField (body : Json) (key : String) : Except PyErr Json :=
  if body.truthy then
    match body with
    | .obj kvs => .ok (Dict.get kvs key)
    | v => .error (.attributeError ("'" ++ typeName v ++ "' object has no attribute 'get'"))
  else .ok .null

/-- `per_wing` and `per_wing_latest`. -/
structure Tally where
  perWing : List (String × List (String × Nat))
  perWingLatest : List (String × String)

def Tally.empty : Tally := ⟨[], []⟩

/-- `wing_filter and wing != wing_filter`. -/
def passedOver (wingFilter : Option String) (wing : String) : Bool :=
  match wingFilter with
  | none => false
  | some f => f ≠ "" && wing ≠ f

/-- The end of one turn of the inner loop, for a row that is counted. -/
def Tally.count (t : Tally) (wing room ts : String) : Tally :=
  let rooms := (t.perWing.lookup wing).getD []
  let later := (t.perWingLatest.lookup wing).all fun latest => decide (latest < ts)
  { perWing := put t.perWing wing (put rooms room ((rooms.lookup room).getD 0 + 1))
    perWingLatest := if ts ≠ "" ∧ later = true then put t.perWingLatest wing ts else t.perWingLatest }

/-- The row is counted. -/
def counted {F : Type} (wingFilter : Option String) (ids : List String) (h : ReadHit F) : Bool :=
  h.wing ≠ "" && !passedOver wingFilter h.wing && inTenants ids h.tenantId

section
variable (F : Type) (d : Deployment) (wingFilter : Option String) (ids : List String)

/-- One turn of the inner loop. -/
def tallyRow (t : Tally) (mem : Json) : Except ClientErr Tally :=
  match mem with
  | .obj kvs => do
    let hit : ReadHit F ← (d.normalize kvs).mapError .py
    .ok (if counted wingFilter ids hit then t.count hit.wing hit.room (createdText d hit) else t)
  | _ => .ok t

/-- The outer loop, from one page on; `none` when the rounds run out. -/
def walkPages (api : PagesApi) : Nat → Nat → Tally → Except ClientErr (Option Tally)
  | 0, _, _ => .ok none
  | rounds + 1, page, t =>
    match api page with
    | .error text => .error (.py (.runtimeError ("aggregate_stats: pagination failed at page=" ++ toString page ++
        " (" ++ text ++ ")")))
    | .ok body => do
      let memories ← (bodyField body "memories" >>= listOrEmpty).mapError .py
      let t ← memories.foldlM (tallyRow F d wingFilter ids) t
      let more ← (bodyField body "has_more").mapError .py
      if more.truthy then walkPages api rounds (page + 1) t else .ok (some t)

end

structure WingStats where
  wing : String
  drawerCount : Nat
  rooms : List (String × Nat)
  mostRecentWriteTs : Option String
deriving DecidableEq

structure Stats where
  totalDrawers : Nat
  wingBreakdown : List WingStats
  lastSyncedTs : String
deriving DecidableEq

/-- `sum(rooms.values())`. -/
def roomSum (rooms : List (String × Nat)) : Nat := (rooms.map Prod.snd).sum

/-- `wing_breakdown` of the adapter: `sorted(per_wing.items())`, whose wings differ. -/
def wingBreakdown (t : Tally) : List WingStats :=
  (t.perWing.insertionSort fun a b => a.1 ≤ b.1).map fun wr => ⟨wr.1, roomSum wr.2, wr.2, t.perWingLatest.lookup wr.1⟩

/-! ## The client -/

/-- The gate of one room. -/
def permittedRoom (p : AgentProfile) (wing room : String) : Bool := readable p (writePath wing room)

/-- One turn of the loop of the client; `none` where no room is permitted. -/
def pruneWing (p : AgentProfile) (row : WingStats) : Option WingStats :=
  let rooms := row.rooms.filter fun rc => permittedRoom p row.wing rc.1
  if rooms = [] then none else some { row with drawerCount := roomSum rooms, rooms }

/-- `aggregate_stats`; `now` is the clock as the adapter writes it into `last_synced_ts`, which no loop reads. -/
def aggregateStats (F : Type) (d : Deployment) (p : AgentProfile) (pr : Principal) (clk : ReadClock) (api : PagesApi)
    (rounds : Nat) (now : String) (wingFilter : Option String) : Except ClientErr (Option Stats) := do
  readGate pr clk
  let ids ← (tenantIds p pr clk.scope).mapError .py
  let raw ← withFallback (walkPages F d wingFilter ids api rounds 1 .empty) (walkPages F d wingFilter [] api rounds 1 .empty)
  .ok (raw.map fun t =>
    let wings := (wingBreakdown t).filterMap (pruneWing p)
    ⟨(wings.map WingStats.drawerCount).sum, wings, now⟩)

/-! ## The listing -/

/-- A store that lists its rows on these pages. -/
def pagesApi (pages : List (List Json)) : PagesApi := fun page =>
  .ok (.obj [("memories", .arr (pages.getD (page - 1) [])), ("has_more", .bool (decide (page < pages.length)))])

section
variable {F : Type} {d : Deployment} {wingFilter : Option String} {ids : List String}

/-- The normalized row of an element of a page, if it has one. -/
def listedRow (d : Deployment) : Json → Option (ReadHit F)
  | .obj kvs => (d.normalize kvs).toOption
  | _ => none

/-- `_normalize_hit` reads every row. -/
def ListReadable (F : Type) (d : Deployment) (mems : List Json) : Prop :=
  ∀ kvs, Json.obj kvs ∈ mems → ∃ row : ReadHit F, d.normalize kvs = .ok row

/-- The rows a tally counts. -/
def countedRows (F : Type) (d : Deployment) (wingFilter : Option String) (ids : List String) (mems : List Json) :
    List (ReadHit F) :=
  (mems.filterMap (listedRow d)).filter (counted wingFilter ids)

/-- The tally of rows. -/
def tallyOf (d : Deployment) (t : Tally) (rows : List (ReadHit F)) : Tally :=
  rows.foldl (fun t h => t.count h.wing h.room (createdText d h)) t

variable (wingFilter ids) in
theorem tallyRow_listed (t : Tally) {mem : Json} (hread : ∀ kvs, mem = .obj kvs → ∃ row : ReadHit F, d.normalize kvs = .ok row) :
    tallyRow F d wingFilter ids t mem = .ok (tallyOf d t (countedRows F d wingFilter ids [mem])) := by
  cases mem with
  | obj kvs =>
    obtain ⟨row, hrow⟩ := hread kvs rfl
    simp only [tallyRow, hrow, mapError_of_ok, ok_then, countedRows, listedRow, Except.toOption, List.filterMap_cons,
      List.filterMap_nil, List.filter_cons, List.filter_nil]
    cases counted wingFilter ids row <;> rfl
  | _ => rfl

theorem countedRows_cons (mem : Json) (mems : List Json) : countedRows F d wingFilter ids (mem :: mems) =
    countedRows F d wingFilter ids [mem] ++ countedRows F d wingFilter ids mems := by
  unfold countedRows
  rw [← List.filter_append, ← List.filterMap_append]
  rfl

/-- Over rows that can all be read, the loop is the tally of the rows it counts. -/
theorem tally_listed {mems : List Json} (hread : ListReadable F d mems) (t : Tally) :
    mems.foldlM (tallyRow F d wingFilter ids) t = .ok (tallyOf d t (countedRows F d wingFilter ids mems)) := by
  induction mems generalizing t with
  | nil => rfl
  | cons mem mems ih =>
    have hmem := tallyRow_listed wingFilter ids t fun kvs h => hread kvs (h ▸ List.mem_cons_self)
    rw [List.foldlM_cons, hmem, ok_then, ih fun kvs h => hread kvs (List.mem_cons_of_mem mem h), countedRows_cons mem mems,
      tallyOf, tallyOf, tallyOf, List.foldl_append]

variable (wingFilter ids) in
/-- A row that cannot be read fails the tally, whatever it is of. -/
theorem tally_unread {mems : List Json} (t : Tally) (hread : ¬ ListReadable F d mems) :
    ∃ e, mems.foldlM (tallyRow F d wingFilter ids) t = .error e := by
  cases hrun : mems.foldlM (tallyRow F d wingFilter ids) t with
  | error e => exact ⟨e, rfl⟩
  | ok t' =>
    refine absurd ?_ hread
    clear hread
    intro kvs hkvs
    induction mems generalizing t with
    | nil => cases hkvs
    | cons mem mems ih =>
      rw [List.foldlM_cons] at hrun
      obtain ⟨t₁, hone, hrun⟩ := bind_ok hrun
      rcases List.mem_cons.1 hkvs with rfl | hkvs
      · obtain ⟨row, hrow, -⟩ := bind_ok hone
        exact ⟨row, mapError_ok hrow⟩
      · exact ih t₁ hrun hkvs

theorem bodyField_page (mems : List Json) (more : Bool) :
    (bodyField (.obj [("memories", .arr mems), ("has_more", .bool more)]) "memories" >>= listOrEmpty) = .ok mems ∧
      bodyField (.obj [("memories", .arr mems), ("has_more", .bool more)]) "has_more" = .ok (.bool more) := by
  have htruthy : (Json.obj [("memories", .arr mems), ("has_more", .bool more)]).truthy = true := rfl
  have hmems : Dict.get [("memories", Json.arr mems), ("has_more", .bool more)] "memories" = .arr mems := by simp [Dict.get]
  have hmore : Dict.get [("memories", Json.arr mems), ("has_more", .bool more)] "has_more" = .bool more := by simp [Dict.get]
  constructor
  · simp only [bodyField, if_pos htruthy, hmems, ok_then]
    cases mems <;> rfl
  · simp only [bodyField, if_pos htruthy, hmore]

variable (F d wingFilter ids) in
/-- **With a round for every page, the walk is the tally of all pages at once.** -/
theorem walk_pages (pages : List (List Json)) {rounds : Nat} (i : Nat) (t : Tally) (hone : 1 ≤ rounds)
    (hrounds : pages.length ≤ i + rounds) :
    walkPages F d wingFilter ids (pagesApi pages) rounds (i + 1) t =
      ((pages.drop i).flatten.foldlM (tallyRow F d wingFilter ids) t).map some := by
  induction rounds generalizing i t with
  | zero => omega
  | succ rounds ih =>
    obtain ⟨hmems, hmore⟩ := bodyField_page (pages.getD i []) (decide (i + 1 < pages.length))
    have hgoes : (Json.bool (decide (i + 1 < pages.length))).truthy = true ↔ i + 1 < pages.length := decide_eq_true_iff
    simp only [walkPages, pagesApi, Nat.add_sub_cancel, hmems, hmore, mapError_of_ok, ok_then]
    by_cases hi : i < pages.length
    · have hdrop : pages.drop i = pages.getD i [] :: pages.drop (i + 1) := by
        rw [List.drop_eq_getElem_cons hi, List.getD_eq_getElem _ _ hi]
      rw [hdrop, List.flatten_cons, List.foldlM_append]
      cases hpage : (pages.getD i []).foldlM (tallyRow F d wingFilter ids) t with
      | error e => rfl
      | ok t' =>
        by_cases hlast : i + 1 < pages.length
        · have hnext := ih (i + 1) t' (by omega) (by omega)
          rw [ok_then, if_pos (hgoes.2 hlast)]
          exact hnext
        · rw [ok_then, if_neg fun h => hlast (hgoes.1 h), List.drop_eq_nil_of_le (by omega)]
          rfl
    · have hpast : pages.getD i [] = [] := List.getD_eq_default _ _ (by omega)
      have hlast : ¬ i + 1 < pages.length := by omega
      simp only [hpast, List.drop_eq_nil_of_le (Nat.not_lt.1 hi), List.foldlM_nil, List.flatten_nil]
      change (if _ then _ else _) = _
      rw [if_neg fun h => hlast (hgoes.1 h)]
      rfl

end

/-! ## What a tally holds -/

/-- The latest of some timestamps, where one is set. -/
def IsLatest (texts : List String) : Option String → Prop
  | none => ∀ u ∈ texts, u = ""
  | some ts => ts ≠ "" ∧ ts ∈ texts ∧ ∀ u ∈ texts, u ≤ ts

theorem empty_le (s : String) : "" ≤ s := by
  apply not_lt.1
  intro h
  have hlist := String.lt_iff_toList_lt.1 h
  simp at hlist

theorem isLatest_unique {texts texts' : List String} {o o' : Option String} (h : IsLatest texts o) (h' : IsLatest texts' o')
    (hsub : ∀ u ∈ texts, u ≠ "" → ∃ u' ∈ texts', u ≤ u') (hsub' : ∀ u ∈ texts', u ≠ "" → ∃ u' ∈ texts, u ≤ u') : o = o' := by
  have hbelow : ∀ {xs ys : List String} {a b : Option String}, IsLatest xs a → IsLatest ys b →
      (∀ u ∈ xs, u ≠ "" → ∃ u' ∈ ys, u ≤ u') → ∀ x ∈ a, ∃ y ∈ b, x ≤ y := by
    intro xs ys a b ha hb hs x hx
    obtain rfl := Option.mem_def.1 hx
    obtain ⟨hne, hmem, -⟩ := ha
    obtain ⟨u', hu', hle⟩ := hs x hmem hne
    cases b with
    | none =>
      rw [hb u' hu'] at hle
      exact absurd (le_antisymm hle (empty_le x)) hne
    | some y => exact ⟨y, rfl, hle.trans (hb.2.2 u' hu')⟩
  cases o with
  | none =>
    cases o' with
    | none => rfl
    | some y =>
      obtain ⟨x, hx, -⟩ := hbelow h' h hsub' y rfl
      cases hx
  | some x =>
    obtain ⟨y, hy, hxy⟩ := hbelow h h' hsub x rfl
    obtain rfl := Option.mem_def.1 hy
    obtain ⟨x', hx', hyx⟩ := hbelow h' h hsub' y rfl
    cases hx'
    rw [le_antisymm hxy hyx]

theorem isLatest_snoc {texts : List String} {o : Option String} (h : IsLatest texts o) (u : String) :
    IsLatest (texts ++ [u]) (if u ≠ "" ∧ (o.all fun latest => decide (latest < u)) = true then some u else o) := by
  by_cases hu : u = ""
  · rw [if_neg fun hc => hc.1 hu]
    cases o with
    | none =>
      intro x hx
      rcases List.mem_append.1 hx with hx | hx
      · exact h x hx
      · exact (List.mem_singleton.1 hx).trans hu
    | some ts =>
      refine ⟨h.1, List.mem_append_left _ h.2.1, ?_⟩
      intro x hx
      rcases List.mem_append.1 hx with hx | hx
      · exact h.2.2 x hx
      · rw [List.mem_singleton.1 hx, hu]
        exact empty_le ts
  · by_cases hl : (o.all fun latest => decide (latest < u)) = true
    · rw [if_pos ⟨hu, hl⟩]
      refine ⟨hu, by simp, ?_⟩
      intro x hx
      rcases List.mem_append.1 hx with hx | hx
      · cases o with
        | none =>
          rw [h x hx]
          exact empty_le u
        | some ts => exact (h.2.2 x hx).trans (le_of_lt (by simpa using hl))
      · rw [List.mem_singleton.1 hx]
    · rw [if_neg fun hc => hl hc.2]
      cases o with
      | none => exact absurd rfl hl
      | some ts =>
        refine ⟨h.1, List.mem_append_left _ h.2.1, ?_⟩
        intro x hx
        rcases List.mem_append.1 hx with hx | hx
        · exact h.2.2 x hx
        · rw [List.mem_singleton.1 hx]
          exact not_lt.1 (by simpa using hl)

section
variable {F : Type}

/-- The rows of a wing. -/
def inWing (rows : List (ReadHit F)) (wing : String) : List (ReadHit F) := rows.filter fun h => h.wing = wing

/-- How many rows a room of a wing has, where it has any. -/
def roomCount (rows : List (ReadHit F)) (wing room : String) : Option Nat :=
  let n := ((inWing rows wing).map fun h => h.room).count room
  if n = 0 then none else some n

/-- The tally is of these rows. -/
structure Tallied (d : Deployment) (rows : List (ReadHit F)) (t : Tally) : Prop where
  wings : (t.perWing.map Prod.fst).Nodup
  mem_wings : ∀ w, w ∈ t.perWing.map Prod.fst ↔ ∃ h ∈ rows, h.wing = w
  rooms : ∀ w, (((t.perWing.lookup w).getD []).map Prod.fst).Nodup
  counts : ∀ w r, ((t.perWing.lookup w).getD []).lookup r = roomCount rows w r
  latest : ∀ w, IsLatest ((inWing rows w).map (createdText d)) (t.perWingLatest.lookup w)

theorem inWing_snoc (rows : List (ReadHit F)) (h : ReadHit F) (w : String) :
    inWing (rows ++ [h]) w = if h.wing = w then inWing rows w ++ [h] else inWing rows w := by
  unfold inWing
  rw [List.filter_append]
  by_cases hw : h.wing = w <;> simp [hw]

theorem tallied_empty (d : Deployment) : Tallied d ([] : List (ReadHit F)) .empty where
  wings := List.nodup_nil
  mem_wings w := by simp [Tally.empty]
  rooms w := List.nodup_nil
  counts w r := rfl
  latest w := by simp [Tally.empty, inWing, IsLatest]

/-- One row more. -/
theorem tallied_count {d : Deployment} {rows : List (ReadHit F)} {t : Tally} (ht : Tallied d rows t) (h : ReadHit F) :
    Tallied d (rows ++ [h]) (t.count h.wing h.room (createdText d h)) where
  wings := nodup_keys_put ht.wings _ _
  mem_wings w := by
    rw [Tally.count, mem_keys_put, ht.mem_wings]
    constructor
    · rintro (rfl | ⟨x, hx, rfl⟩)
      · exact ⟨h, by simp, rfl⟩
      · exact ⟨x, by simp [hx], rfl⟩
    · rintro ⟨x, hx, rfl⟩
      rcases List.mem_append.1 hx with hx | hx
      · exact .inr ⟨x, hx, rfl⟩
      · rw [List.mem_singleton.1 hx]
        exact .inl rfl
  rooms w := by
    rw [Tally.count, lookup_put]
    by_cases hw : w = h.wing
    · rw [if_pos hw]
      exact nodup_keys_put (ht.rooms h.wing) _ _
    · rw [if_neg hw]
      exact ht.rooms w
  counts w r := by
    rw [Tally.count, lookup_put, roomCount, inWing_snoc]
    by_cases hw : w = h.wing
    · subst hw
      simp only [if_true, Option.getD_some, lookup_put, ht.counts, List.map_append, List.map_cons, List.map_nil,
        List.count_append, List.count_singleton]
      by_cases hr : r = h.room
      · subst hr
        simp only [roomCount, if_true, beq_self_eq_true]
        split <;> simp_all
      · have hr' : (h.room == r) = false := by simpa using fun e : h.room = r => hr e.symm
        simp only [hr', if_neg hr, roomCount]
        simp
    · rw [if_neg hw, if_neg fun e : h.wing = w => hw e.symm]
      exact ht.counts w r
  latest w := by
    have hstep := isLatest_snoc (ht.latest h.wing) (createdText d h)
    rw [inWing_snoc]
    by_cases hw : h.wing = w
    · subst hw
      rw [if_pos rfl, List.map_append]
      simp only [Tally.count]
      split
      · next hc =>
        rw [if_pos hc] at hstep
        rw [lookup_put, if_pos rfl]
        exact hstep
      · next hc =>
        rw [if_neg hc] at hstep
        exact hstep
    · rw [if_neg hw]
      have hkeep : (t.count h.wing h.room (createdText d h)).perWingLatest.lookup w = t.perWingLatest.lookup w := by
        simp only [Tally.count]
        split
        · rw [lookup_put, if_neg fun e : w = h.wing => hw e.symm]
        · rfl
      rw [hkeep]
      exact ht.latest w

/-- **A tally of rows is of these rows.** -/
theorem tallied_tallyOf (d : Deployment) (rows : List (ReadHit F)) : Tallied d rows (tallyOf d .empty rows) := by
  induction rows using List.reverseRecOn with
  | nil => exact tallied_empty d
  | append_singleton rows h ih =>
    rw [tallyOf, List.foldl_append]
    exact tallied_count ih h

/-! ## What is left of it -/

/-- The rows of the rooms the profile permits. -/
def permittedRows (p : AgentProfile) (rows : List (ReadHit F)) : List (ReadHit F) :=
  rows.filter fun h => permittedRoom p h.wing h.room

/-- The stats count exactly these rows. -/
structure Counts (rows : List (ReadHit F)) (s : Stats) : Prop where
  sorted : (s.wingBreakdown.map WingStats.wing).Pairwise (· < ·)
  wings : ∀ w, w ∈ s.wingBreakdown.map WingStats.wing ↔ ∃ h ∈ rows, h.wing = w
  rooms : ∀ row ∈ s.wingBreakdown, (row.rooms.map Prod.fst).Nodup ∧ ∀ r, row.rooms.lookup r = roomCount rows row.wing r
  wingCounts : ∀ row ∈ s.wingBreakdown, row.drawerCount = (inWing rows row.wing).length
  total : s.totalDrawers = rows.length

/-- The timestamp of each wing is the latest of its rows among these. -/
def Dates (d : Deployment) (rows : List (ReadHit F)) (s : Stats) : Prop :=
  ∀ row ∈ s.wingBreakdown, IsLatest ((inWing rows row.wing).map (createdText d)) row.mostRecentWriteTs

theorem count_rooms (rows : List (ReadHit F)) (w r : String) :
    ((inWing rows w).map fun h => h.room).count r = rows.countP fun h => decide (h.wing = w) && decide (h.room = r) := by
  unfold inWing
  rw [List.count, List.countP_map, List.countP_filter]
  apply List.countP_congr
  intro h _
  simp [and_comm]

theorem roomCount_permitted (p : AgentProfile) (rows : List (ReadHit F)) (w r : String) :
    roomCount (permittedRows p rows) w r = if permittedRoom p w r then roomCount rows w r else none := by
  unfold roomCount
  simp only [count_rooms, permittedRows, List.countP_filter]
  by_cases hp : permittedRoom p w r = true
  · have hsame : (rows.countP fun h => (decide (h.wing = w) && decide (h.room = r)) && permittedRoom p h.wing h.room) =
        rows.countP fun h => decide (h.wing = w) && decide (h.room = r) := by
      apply List.countP_congr
      intro h _
      constructor
      · intro hc
        simp only [Bool.and_eq_true] at hc ⊢
        exact hc.1
      · intro hc
        simp only [Bool.and_eq_true, decide_eq_true_eq] at hc ⊢
        exact ⟨hc, by rw [hc.1, hc.2]; exact hp⟩
    rw [hsame, if_pos hp]
  · have hzero : (rows.countP fun h => (decide (h.wing = w) && decide (h.room = r)) && permittedRoom p h.wing h.room) = 0 := by
      apply List.countP_eq_zero.2
      intro h _ hc
      simp only [Bool.and_eq_true, decide_eq_true_eq] at hc
      exact hp (by rw [← hc.1.1, ← hc.1.2]; exact hc.2)
    rw [hzero, if_pos rfl, if_neg hp]

/-- Counts over distinct keys add up to what is counted. -/
theorem sum_counts {keys xs : List String} (hkeys : keys.Nodup) (h : ∀ k, k ∈ keys ↔ k ∈ xs) :
    (keys.map fun k => xs.count k).sum = xs.length := by
  have hperm : keys.Perm xs.dedup := (List.perm_ext_iff_of_nodup hkeys (List.nodup_dedup xs)).2 fun k => by
    rw [h, List.mem_dedup]
  rw [(hperm.map _).sum_eq, List.sum_map_count_dedup_eq_length]

theorem map_filterMap_sublist {α β γ : Type} {f : α → Option β} {g : β → γ} {h : α → γ}
    (hf : ∀ a b, f a = some b → g b = h a) (l : List α) : ((l.filterMap f).map g).Sublist (l.map h) := by
  induction l with
  | nil => exact .slnil
  | cons a l ih =>
    cases ha : f a with
    | none =>
      rw [List.filterMap_cons_none ha]
      exact ih.trans (List.sublist_cons_self _ _)
    | some b =>
      rw [List.filterMap_cons_some ha, List.map_cons, List.map_cons, hf a b ha]
      exact ih.cons_cons _

/-- A dictionary of room counts sums to the number of rows. -/
theorem roomSum_eq {rows : List (ReadHit F)} {w : String} {rooms : List (String × Nat)} (hnd : (rooms.map Prod.fst).Nodup)
    (h : ∀ r, rooms.lookup r = roomCount rows w r) : roomSum rooms = (inWing rows w).length := by
  have hcount : ∀ rc ∈ rooms, rc.2 = ((inWing rows w).map fun h => h.room).count rc.1 := by
    rintro ⟨r, n⟩ hrc
    have hr := h r
    rw [(mem_iff_lookup hnd).1 hrc, roomCount] at hr
    split at hr
    · cases hr
    · exact Option.some.inj hr
  have hkeys : ∀ r, r ∈ rooms.map Prod.fst ↔ r ∈ (inWing rows w).map fun h => h.room := by
    intro r
    rw [← lookup_isSome, h, roomCount, ← List.count_pos_iff]
    split
    · next hz => simp [hz]
    · next hz => simp [Nat.pos_of_ne_zero hz]
  rw [roomSum, List.map_congr_left hcount]
  have hsum := sum_counts hnd hkeys
  rw [List.map_map, List.length_map] at hsum
  exact hsum

theorem length_inWing (rows : List (ReadHit F)) (w : String) :
    (inWing rows w).length = (rows.map fun h => h.wing).count w := by
  unfold inWing
  rw [List.count, List.countP_map, ← List.countP_eq_length_filter]
  apply List.countP_congr
  intro h _
  simp

/-- The wings of the client, of a tally. -/
def prunedWings (p : AgentProfile) (t : Tally) : List WingStats := (wingBreakdown t).filterMap (pruneWing p)

/-- Every wing the client shows: a wing of the tally, with the rooms the profile permits. -/
theorem prunedWings_mem {d : Deployment} {p : AgentProfile} {rows : List (ReadHit F)} {t : Tally} (ht : Tallied d rows t)
    {row : WingStats} (hrow : row ∈ prunedWings p t) :
    (row.rooms.map Prod.fst).Nodup ∧ (∀ r, row.rooms.lookup r = roomCount (permittedRows p rows) row.wing r) ∧
      row.rooms ≠ [] ∧ row.drawerCount = roomSum row.rooms ∧ row.mostRecentWriteTs = t.perWingLatest.lookup row.wing := by
  obtain ⟨row₀, hrow₀, hprune⟩ := List.mem_filterMap.1 hrow
  obtain ⟨⟨w, rooms⟩, hwr, rfl⟩ := List.mem_map.1 hrow₀
  have hlook : t.perWing.lookup w = some rooms :=
    (mem_iff_lookup ht.wings).1 ((List.mem_insertionSort _).1 hwr)
  have hnd := ht.rooms w
  have hcounts := ht.counts w
  rw [hlook, Option.getD_some] at hnd hcounts
  simp only [pruneWing] at hprune
  split at hprune
  · cases hprune
  · next hne =>
    cases hprune
    refine ⟨(List.filter_sublist.map _).nodup hnd, ?_, hne, rfl, rfl⟩
    intro r
    rw [lookup_filter_keys (permittedRoom p w), hcounts, roomCount_permitted]

/-- The wings of the client are in order and distinct. -/
theorem prunedWings_sorted {d : Deployment} {rows : List (ReadHit F)} {t : Tally} (ht : Tallied d rows t) (p : AgentProfile) :
    ((prunedWings p t).map WingStats.wing).Pairwise (· < ·) := by
  have hsub : ((prunedWings p t).map WingStats.wing).Sublist ((wingBreakdown t).map WingStats.wing) := by
    apply map_filterMap_sublist
    intro a b hab
    simp only [pruneWing] at hab
    split at hab
    · cases hab
    · cases hab
      rfl
  have hperm := List.perm_insertionSort (fun a b : String × List (String × Nat) => a.1 ≤ b.1) t.perWing
  have hkeys : (wingBreakdown t).map WingStats.wing =
      (t.perWing.insertionSort fun a b => a.1 ≤ b.1).map Prod.fst := by
    rw [wingBreakdown, List.map_map]
    rfl
  have hnd : ((wingBreakdown t).map WingStats.wing).Nodup := by
    rw [hkeys]
    exact (hperm.map Prod.fst).nodup_iff.2 ht.wings
  have hle : ((wingBreakdown t).map WingStats.wing).Pairwise (· ≤ ·) := by
    rw [hkeys, List.pairwise_map]
    have : Std.Total fun a b : String × List (String × Nat) => a.1 ≤ b.1 := ⟨fun a b => le_total a.1 b.1⟩
    have : IsTrans (String × List (String × Nat)) fun a b => a.1 ≤ b.1 := ⟨fun a b c => le_trans⟩
    exact List.pairwise_insertionSort _ _
  exact ((hle.and hnd).imp fun h => lt_of_le_of_ne h.1 h.2).sublist hsub

/-- The wings of the client are those with a row in a room the profile permits. -/
theorem mem_prunedWings {d : Deployment} {p : AgentProfile} {rows : List (ReadHit F)} {t : Tally} (ht : Tallied d rows t)
    (w : String) : w ∈ (prunedWings p t).map WingStats.wing ↔ ∃ h ∈ permittedRows p rows, h.wing = w := by
  have hcount : ∀ r, roomCount (permittedRows p rows) w r ≠ none ↔ ∃ h ∈ permittedRows p rows, h.wing = w ∧ h.room = r := by
    intro r
    unfold roomCount
    simp only [count_rooms]
    split
    · next hz =>
      simp only [ne_eq, not_true_eq_false, false_iff, not_exists, not_and]
      intro h hh hw hr
      exact List.countP_eq_zero.1 hz h hh (by simp [hw, hr])
    · next hz =>
      obtain ⟨h, hh, hb⟩ := List.countP_pos_iff.1 (Nat.pos_of_ne_zero hz)
      simp only [Bool.and_eq_true, decide_eq_true_eq] at hb
      simp only [ne_eq, reduceCtorEq, not_false_eq_true, true_iff]
      exact ⟨h, hh, hb⟩
  constructor
  · intro hw
    obtain ⟨row, hrow, rfl⟩ := List.mem_map.1 hw
    obtain ⟨hnd, hlook, hne, -, -⟩ := prunedWings_mem ht hrow
    obtain ⟨⟨r, n⟩, hrn⟩ := List.exists_mem_of_ne_nil _ hne
    have hsome : roomCount (permittedRows p rows) row.wing r ≠ none := by
      rw [← hlook, (mem_iff_lookup hnd).1 hrn]
      exact Option.some_ne_none n
    obtain ⟨h, hh, hw, -⟩ := (hcount r).1 hsome
    exact ⟨h, hh, hw⟩
  · rintro ⟨h, hh, rfl⟩
    have hmem : h.wing ∈ t.perWing.map Prod.fst := (ht.mem_wings h.wing).2 ⟨h, (List.mem_filter.1 hh).1, rfl⟩
    obtain ⟨⟨w, rooms⟩, hwr, hw⟩ := List.mem_map.1 hmem
    obtain rfl : w = h.wing := hw
    have hlook : t.perWing.lookup h.wing = some rooms := (mem_iff_lookup ht.wings).1 hwr
    have hroom : (rooms.filter fun rc => permittedRoom p h.wing rc.1).lookup h.room ≠ none := by
      have hcounts := ht.counts h.wing
      rw [hlook, Option.getD_some] at hcounts
      rw [lookup_filter_keys (permittedRoom p h.wing), hcounts, ← roomCount_permitted]
      exact (hcount h.room).2 ⟨h, hh, rfl, rfl⟩
    have hne : (rooms.filter fun rc => permittedRoom p h.wing rc.1) ≠ [] := fun e => hroom (by rw [e]; rfl)
    refine List.mem_map.2 ⟨⟨h.wing, roomSum (rooms.filter fun rc => permittedRoom p h.wing rc.1),
      rooms.filter fun rc => permittedRoom p h.wing rc.1, t.perWingLatest.lookup h.wing⟩, ?_, rfl⟩
    refine List.mem_filterMap.2 ⟨⟨h.wing, roomSum rooms, rooms, t.perWingLatest.lookup h.wing⟩, ?_, ?_⟩
    · exact List.mem_map.2 ⟨(h.wing, rooms), (List.mem_insertionSort _).2 hwr, rfl⟩
    · simp only [pruneWing, if_neg hne]

/-- The stats of a tally. -/
def statsOf (p : AgentProfile) (t : Tally) (now : String) : Stats :=
  ⟨((prunedWings p t).map WingStats.drawerCount).sum, prunedWings p t, now⟩

/-- **What the client returns counts exactly the permitted rows.** -/
theorem counts_statsOf {d : Deployment} {rows : List (ReadHit F)} {t : Tally} (ht : Tallied d rows t) (p : AgentProfile)
    (now : String) : Counts (permittedRows p rows) (statsOf p t now) := by
  have hwing : ∀ row ∈ prunedWings p t, row.drawerCount = (inWing (permittedRows p rows) row.wing).length := by
    intro row hrow
    obtain ⟨hnd, hlook, -, hsum, -⟩ := prunedWings_mem ht hrow
    rw [hsum, roomSum_eq hnd hlook]
  refine ⟨prunedWings_sorted ht p, mem_prunedWings ht, ?_, hwing, ?_⟩
  · intro row hrow
    obtain ⟨hnd, hlook, -, -, -⟩ := prunedWings_mem ht hrow
    exact ⟨hnd, hlook⟩
  · have hnd : ((prunedWings p t).map WingStats.wing).Nodup := (prunedWings_sorted ht p).imp ne_of_lt
    have hcover : ∀ w, w ∈ (prunedWings p t).map WingStats.wing ↔ w ∈ (permittedRows p rows).map fun h => h.wing := by
      intro w
      rw [mem_prunedWings ht, List.mem_map]
    have hsum := sum_counts hnd hcover
    rw [List.map_map, List.length_map] at hsum
    rw [← hsum]
    change ((prunedWings p t).map WingStats.drawerCount).sum = _
    congr 1
    apply List.map_congr_left
    intro row hrow
    rw [hwing row hrow, length_inWing]
    rfl

theorem dates_statsOf {d : Deployment} {rows : List (ReadHit F)} {t : Tally} (ht : Tallied d rows t) (p : AgentProfile)
    (now : String) : Dates d rows (statsOf p t now) := by
  intro row hrow
  obtain ⟨-, -, -, -, hts⟩ := prunedWings_mem ht hrow
  rw [hts]
  exact ht.latest row.wing

end

/-! ## What a caller learns -/

section
variable (F : Type) (d : Deployment) (p : AgentProfile) (pr : Principal) (wingFilter : Option String)

/-- The rows of the caller's tenant, of the wing asked for, in rooms the profile permits. -/
def statRows (mems : List Json) : List (ReadHit F) :=
  (mems.filterMap (listedRow d)).filter fun h =>
    decide (h.tenantId = pr.tenantId) && !passedOver wingFilter h.wing && permittedRoom p h.wing h.room

/-- No row of a denied room is later than every permitted row of its wing, where the wing is shown. -/
def Timely (mems : List Json) : Prop :=
  ∀ h ∈ countedRows F d wingFilter [pr.tenantId] mems, createdText d h ≠ "" →
    (∃ g ∈ statRows F d p pr wingFilter mems, g.wing = h.wing) →
      ∃ g ∈ statRows F d p pr wingFilter mems, g.wing = h.wing ∧ createdText d h ≤ createdText d g

end

/-- Two results are equal as dictionaries, but for `last_synced_ts`. -/
def SameStats (s s' : Stats) : Prop :=
  s.totalDrawers = s'.totalDrawers ∧
    List.Forall₂ (fun a b => a.wing = b.wing ∧ a.drawerCount = b.drawerCount ∧ a.rooms.Perm b.rooms ∧
      a.mostRecentWriteTs = b.mostRecentWriteTs) s.wingBreakdown s'.wingBreakdown

/-- Two calls end alike. -/
def SameOutcome : Except ClientErr (Option Stats) → Except ClientErr (Option Stats) → Prop
  | .ok (some s), .ok (some s') => SameStats s s'
  | .error e, .error e' => e = e'
  | _, _ => False

section
variable {F : Type} {d : Deployment} {p : AgentProfile} {pr : Principal} {wingFilter : Option String}

theorem forall₂_of_map_eq {α β γ : Type} {f : α → γ} {g : β → γ} {R : α → β → Prop} :
    ∀ {l : List α} {m : List β}, l.map f = m.map g → (∀ a ∈ l, ∀ b ∈ m, f a = g b → R a b) → List.Forall₂ R l m
  | [], [], _, _ => .nil
  | [], _ :: _, h, _ => by simp at h
  | _ :: _, [], h, _ => by simp at h
  | a :: l, b :: m, h, hR => by
    rw [List.map_cons, List.map_cons, List.cons.injEq] at h
    refine .cons (hR a List.mem_cons_self b List.mem_cons_self h.1) (forall₂_of_map_eq h.2 ?_)
    intro x hx y hy hxy
    exact hR x (List.mem_cons_of_mem a hx) y (List.mem_cons_of_mem b hy) hxy

theorem exists_of_forall₂ {α β : Type} {R : α → β → Prop} {l : List α} {m : List β} (h : List.Forall₂ R l m) {a : α}
    (ha : a ∈ l) : ∃ b ∈ m, R a b := by
  induction h with
  | nil => cases ha
  | cons hR _ ih =>
    rcases List.mem_cons.1 ha with rfl | ha
    · exact ⟨_, List.mem_cons_self, hR⟩
    · obtain ⟨b, hb, hab⟩ := ih ha
      exact ⟨b, List.mem_cons_of_mem _ hb, hab⟩

/-- Counts of the same rows are the same; the timestamps are compared apart. -/
theorem sameStats_of_counts {rows rows' : List (ReadHit F)} {s s' : Stats} (h : Counts rows s) (h' : Counts rows' s')
    (hrows : rows.Perm rows')
    (hts : ∀ a ∈ s.wingBreakdown, ∀ b ∈ s'.wingBreakdown, a.wing = b.wing → a.mostRecentWriteTs = b.mostRecentWriteTs) :
    SameStats s s' := by
  have hwing : ∀ w, (inWing rows w).Perm (inWing rows' w) := fun w => hrows.filter _
  have hwings : s.wingBreakdown.map WingStats.wing = s'.wingBreakdown.map WingStats.wing := by
    apply List.Subset.antisymm_of_pairwise h.sorted h'.sorted
    · intro w hw
      obtain ⟨x, hx, rfl⟩ := (h.wings w).1 hw
      exact (h'.wings x.wing).2 ⟨x, hrows.mem_iff.1 hx, rfl⟩
    · intro w hw
      obtain ⟨x, hx, rfl⟩ := (h'.wings w).1 hw
      exact (h.wings x.wing).2 ⟨x, hrows.mem_iff.2 hx, rfl⟩
  refine ⟨by rw [h.total, h'.total, hrows.length_eq], forall₂_of_map_eq hwings ?_⟩
  intro a ha b hb hab
  refine ⟨hab, ?_, ?_, hts a ha b hb hab⟩
  · rw [h.wingCounts a ha, h'.wingCounts b hb, hab]
    exact (hwing b.wing).length_eq
  · apply perm_of_lookup (h.rooms a ha).1 (h'.rooms b hb).1
    intro r
    rw [(h.rooms a ha).2, (h'.rooms b hb).2, hab, roomCount, roomCount, ((hwing b.wing).map _).count_eq]

/-- `str(v or text)` is never empty. -/
theorem str_orElse_ne (hrepr : ∀ v, d.repr v ≠ "") (v : Json) {text : String} (ht : text ≠ "") :
    d.str (v.orElse (.str text)) ≠ "" := by
  unfold Json.orElse
  split
  · next hv =>
    cases v with
    | str s =>
      intro hs
      rw [Deployment.str_str] at hs
      rw [hs] at hv
      cases hv
    | _ => exact hrepr _
  · exact ht

theorem wing_ne_empty (hrepr : ∀ v, d.repr v ≠ "") {mems : List Json} {h : ReadHit F}
    (hh : h ∈ mems.filterMap (listedRow d)) : h.wing ≠ "" := by
  obtain ⟨mem, -, hmem⟩ := List.mem_filterMap.1 hh
  cases mem with
  | obj kvs =>
    simp only [listedRow] at hmem
    cases hrow : d.normalize (F := F) kvs with
    | error e => rw [hrow] at hmem; cases hmem
    | ok row =>
      rw [hrow] at hmem
      cases hmem
      obtain ⟨raw, -, rfl⟩ := map_ok hrow
      exact str_orElse_ne hrepr _ (by decide)
  | _ => cases hmem

theorem permittedRows_counted (hrepr : ∀ v, d.repr v ≠ "") (hstar : pr.tenantId ≠ "*") (mems : List Json) :
    permittedRows p (countedRows F d wingFilter [pr.tenantId] mems) = statRows F d p pr wingFilter mems := by
  unfold permittedRows countedRows statRows
  rw [List.filter_filter]
  apply List.filter_congr
  intro h hh
  simp only [counted, wing_ne_empty hrepr hh, inTenants_own hstar, ne_eq, not_false_eq_true, decide_true, Bool.true_and]
  cases permittedRoom p h.wing h.room <;> cases passedOver wingFilter h.wing <;>
    cases decide (h.tenantId = pr.tenantId) <;> rfl

/-! ## One call -/

variable {clk : ReadClock} {now : String} {pages : List (List Json)} {rounds : Nat}

/-- The tally a call makes of pages it can read. -/
theorem aggregateStats_read (hmay : MaySearch p pr clk) (hread : ListReadable F d pages.flatten)
    (hrounds : pages.length < rounds) :
    aggregateStats F d p pr clk (pagesApi pages) rounds now wingFilter =
      .ok (some (statsOf p (tallyOf d .empty (countedRows F d wingFilter [pr.tenantId] pages.flatten)) now)) := by
  have hwalk := walk_pages F d wingFilter [pr.tenantId] pages 0 .empty
    (Nat.one_le_of_lt hrounds) (by omega)
  rw [List.drop_zero, tally_listed hread] at hwalk
  unfold aggregateStats
  simp only [hmay.gate, hmay.tenantIds, mapError_of_ok, ok_then, hwalk, Nat.zero_add] at *
  rfl

variable (wingFilter now) in
theorem aggregateStats_unread (hmay : MaySearch p pr clk) (hread : ¬ ListReadable F d pages.flatten)
    (hrounds : pages.length < rounds) :
    ∃ e, aggregateStats F d p pr clk (pagesApi pages) rounds now wingFilter = .error e := by
  have hwalk : ∀ ids, ∃ e, walkPages F d wingFilter ids (pagesApi pages) rounds 1 .empty = .error e := by
    intro ids
    obtain ⟨e, he⟩ := tally_unread wingFilter ids .empty hread
    refine ⟨e, ?_⟩
    have hall := walk_pages F d wingFilter ids pages 0 .empty
      (Nat.one_le_of_lt hrounds) (by omega)
    rw [List.drop_zero, he] at hall
    exact hall
  obtain ⟨e, he⟩ := hwalk [pr.tenantId]
  obtain ⟨e', he'⟩ := hwalk []
  unfold aggregateStats
  simp only [hmay.gate, hmay.tenantIds, mapError_of_ok, ok_then, he, he', withFallback]
  split
  · exact ⟨_, rfl⟩
  · exact ⟨_, rfl⟩

variable (F d wingFilter) in
/-- Whoever does not pass the gates gets the same error from every store. -/
theorem aggregateStats_gated (hbg : pr.isRootWithBreakGlass clk.scope = false) (h : ¬ MaySearch p pr clk) :
    ∃ e, ∀ api rounds now, aggregateStats F d p pr clk api rounds now wingFilter = .error e := by
  rcases MaySearch.of_gates hbg h with ⟨e, hgate⟩ | ⟨hgate, e, hids⟩
  · exact ⟨e, fun _ _ _ => by simp [aggregateStats, hgate]⟩
  · exact ⟨.py e, fun _ _ _ => by simp [aggregateStats, hgate, hids]⟩

variable (wingFilter now) in
/-- The rows a call counts, and the dates it reads. -/
theorem aggregateStats_spec (hrepr : ∀ v, d.repr v ≠ "") (hmay : MaySearch p pr clk)
    (hread : ListReadable F d pages.flatten) (hrounds : pages.length < rounds) :
    ∃ s, aggregateStats F d p pr clk (pagesApi pages) rounds now wingFilter = .ok (some s) ∧
      Counts (statRows F d p pr wingFilter pages.flatten) s ∧
      Dates d (countedRows F d wingFilter [pr.tenantId] pages.flatten) s := by
  have ht := tallied_tallyOf d (countedRows F d wingFilter [pr.tenantId] pages.flatten)
  refine ⟨_, aggregateStats_read hmay hread hrounds, ?_, dates_statsOf ht p now⟩
  rw [← permittedRows_counted hrepr hmay.star]
  exact counts_statsOf ht p now

theorem statRows_counted {mems : List Json} (hrepr : ∀ v, d.repr v ≠ "") (hstar : pr.tenantId ≠ "*") {h : ReadHit F}
    (hh : h ∈ statRows F d p pr wingFilter mems) : h ∈ countedRows F d wingFilter [pr.tenantId] mems := by
  rw [← permittedRows_counted hrepr hstar] at hh
  exact (List.mem_filter.1 hh).1

theorem mem_inWing {rows : List (ReadHit F)} {w : String} {h : ReadHit F} : h ∈ inWing rows w ↔ h ∈ rows ∧ h.wing = w := by
  simp [inWing]

/-- In a timely store the latest of a wing that is shown is the latest of its permitted rows. -/
theorem Timely.bound {mems mems' : List Json} (hrepr : ∀ v, d.repr v ≠ "") (hstar : pr.tenantId ≠ "*")
    (htime : Timely F d p pr wingFilter mems)
    (hrows : (statRows F d p pr wingFilter mems).Perm (statRows F d p pr wingFilter mems')) {w : String}
    (hw : ∃ g ∈ statRows F d p pr wingFilter mems, g.wing = w) :
    ∀ u ∈ (inWing (countedRows F d wingFilter [pr.tenantId] mems) w).map (createdText d), u ≠ "" →
      ∃ u' ∈ (inWing (countedRows F d wingFilter [pr.tenantId] mems') w).map (createdText d), u ≤ u' := by
  intro u hu hne
  obtain ⟨h, hh, rfl⟩ := List.mem_map.1 hu
  obtain ⟨hmem, rfl⟩ := mem_inWing.1 hh
  obtain ⟨g, hg, hgw, hle⟩ := htime h hmem hne hw
  exact ⟨_, List.mem_map.2 ⟨g, mem_inWing.2 ⟨statRows_counted hrepr hstar (hrows.mem_iff.1 hg), hgw⟩, rfl⟩, hle⟩

/-! ## Two stores -/

variable {pages' : List (List Json)} {rounds' : Nat} {now' : String}

/-- **Noninterference**: two timely stores with the same permitted rows give the same stats. -/
theorem stats_agree (hrepr : ∀ v, d.repr v ≠ "") (hbg : pr.isRootWithBreakGlass clk.scope = false)
    (hrows : (statRows F d p pr wingFilter pages.flatten).Perm (statRows F d p pr wingFilter pages'.flatten))
    (hread : ListReadable F d pages.flatten) (hread' : ListReadable F d pages'.flatten)
    (htime : Timely F d p pr wingFilter pages.flatten) (htime' : Timely F d p pr wingFilter pages'.flatten)
    (hrounds : pages.length < rounds) (hrounds' : pages'.length < rounds') :
    SameOutcome (aggregateStats F d p pr clk (pagesApi pages) rounds now wingFilter)
      (aggregateStats F d p pr clk (pagesApi pages') rounds' now' wingFilter) := by
  by_cases hmay : MaySearch p pr clk
  · obtain ⟨s, hs, hcounts, hdates⟩ := aggregateStats_spec wingFilter now hrepr hmay hread hrounds
    obtain ⟨s', hs', hcounts', hdates'⟩ := aggregateStats_spec wingFilter now' hrepr hmay hread' hrounds'
    rw [hs, hs']
    apply sameStats_of_counts hcounts hcounts' hrows
    intro a ha b hb hab
    have hwa : ∃ g ∈ statRows F d p pr wingFilter pages.flatten, g.wing = a.wing :=
      (hcounts.wings a.wing).1 (List.mem_map_of_mem ha)
    have hwb : ∃ g ∈ statRows F d p pr wingFilter pages'.flatten, g.wing = a.wing :=
      (hcounts'.wings a.wing).1 (hab ▸ List.mem_map_of_mem hb)
    have hlatest := hdates' b hb
    rw [← hab] at hlatest
    exact isLatest_unique (hdates a ha) hlatest (htime.bound hrepr hmay.star hrows hwa)
      (htime'.bound hrepr hmay.star hrows.symm hwb)
  · obtain ⟨e, he⟩ := aggregateStats_gated F d wingFilter hbg hmay
    rw [he, he]
    rfl

/-- Where a store shows what the permitted rows alone would, it is timely. -/
theorem timely_of_same (hrepr : ∀ v, d.repr v ≠ "") (hmay : MaySearch p pr clk)
    (hrounds : pages.length < rounds) (hrounds' : pages'.length < rounds') (hread' : ListReadable F d pages'.flatten)
    (honly : (pages'.flatten.filterMap (listedRow (F := F) d)).Perm (statRows F d p pr wingFilter pages.flatten))
    (hsame : SameOutcome (aggregateStats F d p pr clk (pagesApi pages) rounds now wingFilter)
      (aggregateStats F d p pr clk (pagesApi pages') rounds' now' wingFilter)) :
    ListReadable F d pages.flatten ∧ Timely F d p pr wingFilter pages.flatten := by
  obtain ⟨s', hs', hcounts', hdates'⟩ := aggregateStats_spec wingFilter now' hrepr hmay hread' hrounds'
  have hread : ListReadable F d pages.flatten := by
    by_contra hread
    obtain ⟨e, he⟩ := aggregateStats_unread wingFilter now hmay hread hrounds
    rw [he, hs'] at hsame
    exact hsame
  obtain ⟨s, hs, hcounts, hdates⟩ := aggregateStats_spec wingFilter now hrepr hmay hread hrounds
  rw [hs, hs'] at hsame
  refine ⟨hread, ?_⟩
  intro h hh hne hw
  obtain ⟨row, hrow, hwing⟩ := List.mem_map.1 ((hcounts.wings h.wing).2 hw)
  obtain ⟨b, hb, hab⟩ : ∃ b ∈ s'.wingBreakdown, row.wing = b.wing ∧ row.mostRecentWriteTs = b.mostRecentWriteTs := by
    obtain ⟨b, hb, hR⟩ := exists_of_forall₂ hsame.2 hrow
    exact ⟨b, hb, hR.1, hR.2.2.2⟩
  have hown := hdates row hrow
  have hquiet := hdates' b hb
  rw [← hab.1, ← hab.2] at hquiet
  have hmem : createdText d h ∈ (inWing (countedRows F d wingFilter [pr.tenantId] pages.flatten) row.wing).map (createdText d) :=
    List.mem_map_of_mem (mem_inWing.2 ⟨hh, hwing.symm⟩)
  cases hts : row.mostRecentWriteTs with
  | none =>
    rw [hts] at hown
    exact absurd (hown _ hmem) hne
  | some ts =>
    rw [hts] at hown hquiet
    obtain ⟨g, hg, hgt⟩ := List.mem_map.1 hquiet.2.1
    obtain ⟨hgc, hgw⟩ := mem_inWing.1 hg
    refine ⟨g, honly.mem_iff.1 (List.mem_filter.1 hgc).1, hgw.trans hwing, ?_⟩
    rw [hgt]
    exact hown.2.2 _ hmem

/-- A listing of permitted rows only has nothing to hide. -/
theorem statRows_only (honly : (pages'.flatten.filterMap (listedRow (F := F) d)).Perm
    (statRows F d p pr wingFilter pages.flatten)) :
    statRows F d p pr wingFilter pages'.flatten = pages'.flatten.filterMap (listedRow d) := by
  apply List.filter_eq_self.2
  intro h hh
  exact (List.mem_filter.1 (honly.mem_iff.1 hh)).2

theorem timely_only (honly : (pages'.flatten.filterMap (listedRow (F := F) d)).Perm
    (statRows F d p pr wingFilter pages.flatten)) : Timely F d p pr wingFilter pages'.flatten := by
  intro h hh _ _
  refine ⟨h, ?_, rfl, le_refl _⟩
  rw [statRows_only honly]
  exact (List.mem_filter.1 hh).1

end

/-! ## A row of a denied room -/

/-- A row as a page lists it. -/
def listedMemory (hash room created : String) : Json :=
  .obj [("content_hash", .str hash), ("created_at_iso", .str created),
    ("tags", .arr [.str "wing:facts", .str ("room:" ++ room), .str "tenant:t_default"])]

/-- One permitted row. -/
def quietPages : List (List Json) := [[listedMemory "h1" "inbox" "2026-01-01"]]

/-- And a later one in a denied room, on a page of its own. -/
def deniedPages : List (List Json) := [[listedMemory "h1" "inbox" "2026-01-01"], [listedMemory "h2" "private" "2026-02-02"]]

def statsDeployment : Deployment := { sampleDeployment with repr := fun _ => "None" }

theorem statsDeployment_repr (v : Json) : statsDeployment.repr v ≠ "" := by
  change "None" ≠ ""
  decide

theorem readable_listedMemory (d : Deployment) (hash room created : String) :
    ListReadable Unit d [listedMemory hash room created] := by
  intro kvs hkvs
  cases List.mem_singleton.1 hkvs
  exact ⟨_, rfl⟩

theorem ListReadable.append {F : Type} {d : Deployment} {mems mems' : List Json} (h : ListReadable F d mems)
    (h' : ListReadable F d mems') : ListReadable F d (mems ++ mems') := by
  intro kvs hkvs
  rcases List.mem_append.1 hkvs with hkvs | hkvs
  · exact h kvs hkvs
  · exact h' kvs hkvs

theorem readable_quietPages (d : Deployment) : ListReadable Unit d quietPages.flatten := readable_listedMemory d _ _ _

theorem readable_deniedPages (d : Deployment) : ListReadable Unit d deniedPages.flatten :=
  (readable_listedMemory d _ _ _).append (readable_listedMemory d _ _ _)

theorem statRows_deniedPages :
    statRows Unit statsDeployment readerProfile.toAgentProfile readerPrincipal none deniedPages.flatten =
      statRows Unit statsDeployment readerProfile.toAgentProfile readerPrincipal none quietPages.flatten := by
  rfl

theorem stats_quietPages : aggregateStats Unit statsDeployment readerProfile.toAgentProfile readerPrincipal sampleClock
    (pagesApi quietPages) 3 "now" none = .ok (some ⟨1, [⟨"facts", 1, [("inbox", 1)], some "2026-01-01"⟩], "now"⟩) := by
  rfl

theorem stats_deniedPages : aggregateStats Unit statsDeployment readerProfile.toAgentProfile readerPrincipal sampleClock
    (pagesApi deniedPages) 3 "now" none = .ok (some ⟨1, [⟨"facts", 1, [("inbox", 1)], some "2026-02-02"⟩], "now"⟩) := by
  rfl

/-- **A denied room shows in a timestamp**: two stores with the same permitted rows, and the stats of a wing differ. -/
theorem stats_leak : ¬ ∀ (d : Deployment) (p : AgentProfile) (pr : Principal) (clk : ReadClock) (wingFilter : Option String)
    (pages pages' : List (List Json)) (rounds rounds' : Nat) (now now' : String),
    (∀ v, d.repr v ≠ "") → pr.isRootWithBreakGlass clk.scope = false →
    ListReadable Unit d pages.flatten → ListReadable Unit d pages'.flatten →
    (statRows Unit d p pr wingFilter pages.flatten).Perm (statRows Unit d p pr wingFilter pages'.flatten) →
    pages.length < rounds → pages'.length < rounds' →
    SameOutcome (aggregateStats Unit d p pr clk (pagesApi pages) rounds now wingFilter)
      (aggregateStats Unit d p pr clk (pagesApi pages') rounds' now' wingFilter) := by
  intro h
  have hsame := h statsDeployment readerProfile.toAgentProfile readerPrincipal sampleClock none deniedPages quietPages 3 3
    "now" "now" statsDeployment_repr rfl (readable_deniedPages _) (readable_quietPages _)
    (by rw [statRows_deniedPages]) (by decide) (by decide)
  rw [stats_deniedPages, stats_quietPages] at hsame
  cases hsame.2 with
  | cons hR _ => exact absurd hR.2.2.2 (by decide)

/-! ## The main theorem -/

/-- **What stats disclose.** The counts are exactly those of the permitted rows of the caller's tenant. The result depends on
nothing else where no row of a denied room is later than the permitted rows of its wing; and a store gives what its
permitted rows alone would give only there. -/
theorem stats_disclosed (F : Type) (d : Deployment) (p : AgentProfile) (pr : Principal) (clk : ReadClock)
    (wingFilter : Option String) (hrepr : ∀ v, d.repr v ≠ "") (hbg : pr.isRootWithBreakGlass clk.scope = false) :
    (∀ pages rounds now, pages.length < rounds → MaySearch p pr clk → ListReadable F d pages.flatten →
      ∃ s, aggregateStats F d p pr clk (pagesApi pages) rounds now wingFilter = .ok (some s)) ∧
    (∀ pages rounds now s, pages.length < rounds →
      aggregateStats F d p pr clk (pagesApi pages) rounds now wingFilter = .ok (some s) →
      Counts (statRows F d p pr wingFilter pages.flatten) s) ∧
    (∀ pages pages' rounds rounds' now now',
      (statRows F d p pr wingFilter pages.flatten).Perm (statRows F d p pr wingFilter pages'.flatten) →
      ListReadable F d pages.flatten → ListReadable F d pages'.flatten →
      Timely F d p pr wingFilter pages.flatten → Timely F d p pr wingFilter pages'.flatten →
      pages.length < rounds → pages'.length < rounds' →
      SameOutcome (aggregateStats F d p pr clk (pagesApi pages) rounds now wingFilter)
        (aggregateStats F d p pr clk (pagesApi pages') rounds' now' wingFilter)) ∧
    ∀ pages pages' rounds rounds' now now' s', pages.length < rounds → pages'.length < rounds' →
      (pages'.flatten.filterMap (listedRow (F := F) d)).Perm (statRows F d p pr wingFilter pages.flatten) →
      aggregateStats F d p pr clk (pagesApi pages') rounds' now' wingFilter = .ok (some s') →
      (SameOutcome (aggregateStats F d p pr clk (pagesApi pages) rounds now wingFilter)
          (aggregateStats F d p pr clk (pagesApi pages') rounds' now' wingFilter) ↔
        ListReadable F d pages.flatten ∧ Timely F d p pr wingFilter pages.flatten) := by
  have hgate : ∀ {pages rounds now s}, aggregateStats F d p pr clk (pagesApi pages) rounds now wingFilter = .ok (some s) →
      MaySearch p pr clk := by
    intro pages rounds now s h
    by_contra hmay
    obtain ⟨e, he⟩ := aggregateStats_gated F d wingFilter hbg hmay
    rw [he] at h
    cases h
  have hreads : ∀ {pages rounds now s}, pages.length < rounds →
      aggregateStats F d p pr clk (pagesApi pages) rounds now wingFilter = .ok (some s) → ListReadable F d pages.flatten := by
    intro pages rounds now s hrounds h
    by_contra hread
    obtain ⟨e, he⟩ := aggregateStats_unread wingFilter now (hgate h) hread hrounds
    rw [he] at h
    cases h
  refine ⟨?_, ?_, ?_, ?_⟩
  · intro pages rounds now hrounds hmay hread
    exact ⟨_, aggregateStats_read hmay hread hrounds⟩
  · intro pages rounds now s hrounds h
    obtain ⟨s₀, hs₀, hcounts, -⟩ := aggregateStats_spec wingFilter now hrepr (hgate h) (hreads hrounds h) hrounds
    rw [h] at hs₀
    cases hs₀
    exact hcounts
  · intro pages pages' rounds rounds' now now' hrows hread hread' htime htime' hrounds hrounds'
    exact stats_agree hrepr hbg hrows hread hread' htime htime' hrounds hrounds'
  · intro pages pages' rounds rounds' now now' s' hrounds hrounds' honly hs'
    have hread' := hreads hrounds' hs'
    constructor
    · intro hsame
      exact timely_of_same hrepr (hgate hs') hrounds hrounds' hread' honly hsame
    · rintro ⟨hread, htime⟩
      apply stats_agree hrepr hbg _ hread hread' htime (timely_only honly) hrounds hrounds'
      rw [statRows_only honly]
      exact honly.symm

/-- The store with the later row in a denied room is not timely. -/
theorem stats_disclosed_denied :
    ¬ Timely Unit statsDeployment readerProfile.toAgentProfile readerPrincipal none deniedPages.flatten := by
  intro htime
  have hsame := (stats_disclosed Unit statsDeployment readerProfile.toAgentProfile readerPrincipal sampleClock none
    statsDeployment_repr rfl).2.2.2 deniedPages quietPages 3 3 "now" "now" _ (by decide) (by decide)
    (by rw [statRows_deniedPages]; rfl) stats_quietPages
  have hout := hsame.2 ⟨readable_deniedPages _, htime⟩
  rw [stats_deniedPages, stats_quietPages] at hout
  cases hout.2 with
  | cons hR _ => exact absurd hR.2.2.2 (by decide)

end Panella
