import Panella.ClientWrite
import Panella.Lib.JsonRoundTrip

/-!
# When the write gates and the read gates look at one path

The write side tests `wing/room` as it is given (`client.py:332`, `:962`, `aggregate_stats` :778);
the read side strips slashes and lets a slash inside the room replace the wing (`_room_path`
:1254). The two texts are the same exactly on clean pairs (**`writePath_eq_roomPath_iff`**), and
shell patterns tell any two different texts apart, so the gates agree exactly there
(**`gates_agree_iff`**).
-/

namespace Panella

open PyJson PyText

/-- A wing with no slash at either end, a room with no slash at all, neither empty. -/
structure CleanPair (wing room : String) : Prop where
  wing_ne : wing ≠ ""
  wing_trim : Trim (· = '/') wing.toList
  room_ne : room ≠ ""
  room_flat : '/' ∉ room.toList

/-! ## The two paths -/

theorem toList_strip (p : Char → Bool) (s : String) : (strip p s).toList = stripList p s.toList :=
  String.toList_ofList

theorem strip_eq_self {p : Char → Bool} {s : String} (h : Trim p s.toList) : strip p s = s := by
  rw [strip, strip_eq_self_iff.2 h, String.ofList_toList]

/-- The read path has no slash at either end. -/
theorem roomPath_trim (wing room : String) : Trim (· = '/') (roomPath wing room).toList := by
  unfold roomPath
  simp only
  split
  · rw [toList_strip]; exact strip_ends _ _
  · rw [toList_strip]; exact strip_ends _ _

theorem trim_of_flat {s : String} (h : '/' ∉ s.toList) : Trim (· = '/') s.toList := by
  constructor
  · intro c hc
    have := List.mem_of_head? hc
    simp only [decide_eq_false_iff_not]
    rintro rfl
    exact h this
  · intro c hc
    have := List.mem_of_getLast? hc
    simp only [decide_eq_false_iff_not]
    rintro rfl
    exact h this

theorem toList_ne_nil {s : String} (h : s ≠ "") : s.toList ≠ [] := by
  simpa using h

theorem toList_writePath (wing room : String) : (writePath wing room).toList = wing.toList ++ '/' :: room.toList := by
  simp [writePath]

/-- A path with clean ends comes from a wing and a room that are not empty. -/
theorem ne_empty_of_trim {wing room : String} (h : Trim (· = '/') (writePath wing room).toList) :
    wing ≠ "" ∧ room ≠ "" := by
  obtain ⟨hh, hl⟩ := h
  rw [toList_writePath] at hh hl
  constructor
  · rintro rfl
    exact absurd (hh '/' (by simp)) (by decide)
  · rintro rfl
    exact absurd (hl '/' (by simp)) (by decide)

/-- **The write path is the read path exactly on clean pairs.** -/
theorem writePath_eq_roomPath_iff {wing room : String} : writePath wing room = roomPath wing room ↔ CleanPair wing room := by
  constructor
  · intro h
    obtain ⟨hw, hr⟩ := ne_empty_of_trim (h ▸ roomPath_trim wing room)
    have hlen : (writePath wing room).toList.length = wing.toList.length + room.toList.length + 1 := by
      rw [toList_writePath]; simp; omega
    have hlw := length_stripList_le (· = '/') wing.toList
    have hlr := length_stripList_le (· = '/') room.toList
    rw [h] at hlen
    unfold roomPath at hlen
    simp only [toList_strip] at hlen
    split at hlen
    · -- the room alone is shorter than the whole path
      rw [toList_strip] at hlen; omega
    · rename_i hflat
      rw [toList_strip] at hlen
      have hls := length_stripList_le (· = '/') (strip (· = '/') wing ++ "/" ++ strip (· = '/') room).toList
      have hcat : (strip (· = '/') wing ++ "/" ++ strip (· = '/') room).toList.length
          = (stripList (· = '/') wing.toList).length + 1 + (stripList (· = '/') room.toList).length := by
        simp [toList_strip]; omega
      -- no character may have been stripped anywhere
      have hwl : (stripList (· = '/') wing.toList).length = wing.toList.length := by omega
      have hrl : (stripList (· = '/') room.toList).length = room.toList.length := by omega
      have hwe := stripList_eq_of_length hwl
      have hre := stripList_eq_of_length hrl
      rw [hre] at hflat
      exact ⟨hw, strip_eq_self_iff.1 hwe, hr, hflat⟩
  · rintro ⟨hw, htw, hr, hflat⟩
    have hsw := strip_eq_self htw
    have hsr := strip_eq_self (trim_of_flat hflat)
    unfold roomPath
    simp only [hsw, hsr, if_neg hflat]
    refine (strip_eq_self ⟨fun c hc => ?_, fun c hc => ?_⟩).symm
    · rw [toList_writePath, List.head?_append_of_ne_nil _ (toList_ne_nil hw)] at hc
      exact htw.1 c hc
    · rw [toList_writePath, List.getLast?_append_of_ne_nil _ (by simp),
        List.getLast?_cons_of_ne_nil (toList_ne_nil hr)] at hc
      exact (trim_of_flat hflat).2 c hc

/-! ## Patterns tell paths apart -/

theorem matchesAny_escape (path s : String) : matchesAny path [Fnmatch.escape s] = decide (path = s) := by
  simp [matchesAny, Fnmatch.fnmatchcase_escape]

/-- Two paths that no list of patterns tells apart are one path. -/
theorem matchesAny_ext {a b : String} (h : ∀ ps, matchesAny a ps = false → matchesAny b ps = false) : a = b := by
  by_contra hne
  have := h [Fnmatch.escape b] (by simp [matchesAny_escape, hne])
  simp [matchesAny_escape] at this

theorem readable_ext {a b : String} (h : ∀ p, readable p a = readable p b) : a = b := by
  refine matchesAny_ext fun ps ha => ?_
  -- a profile that reads what the patterns match
  let p : AgentProfile :=
    { name := "", writeDefault := ⟨"", ""⟩, writeQuota := ⟨0, 0⟩, memoryTypeAllowlist := [],
      retentionPolicy := ⟨none, []⟩, approvalRequiredFor := [], readAllowlist := ps, deny := [], tenantScope := [],
      writeWingAllowlist := [], writeRoomAllowlist := [], enforceWriteAllowlist := false, finalizerOnly := false }
  have hr : ∀ path, readable p path = matchesAny path ps := by
    intro path
    show (!(matchesAny path [] || !matchesAny path ps)) = matchesAny path ps
    simp [matchesAny]
  rw [← hr, ← h, hr, ha]

/-- The gates of the write side and of the read side answer alike for a pair. -/
structure GatesAgree (wing room : String) : Prop where
  /-- The approval gate, under any list of patterns. -/
  approval : ∀ ps, matchesAny (writePath wing room) ps = matchesAny (roomPath wing room) ps
  /-- `aggregate_stats` and `_filter_hits`, under any profile. -/
  stats : ∀ p, readable p (writePath wing room) = readable p (roomPath wing room)
  /-- The write allowlist, under any list of pairs. -/
  allowlist : ∀ pairs : List String, writePath wing room ∈ pairs ↔ roomPath wing room ∈ pairs

/-- **The gates agree exactly on clean pairs.** -/
theorem gatesAgree_iff {wing room : String} : GatesAgree wing room ↔ CleanPair wing room := by
  rw [← writePath_eq_roomPath_iff]
  constructor
  · intro h
    exact matchesAny_ext fun ps hps => by rw [← h.approval]; exact hps
  · intro h
    exact ⟨fun _ => by rw [h], fun _ => by rw [h], fun _ => by rw [h]⟩

/-! ## A posted row read back -/

/-- Where neither is empty, the metadata decides the wing and the room of a row read back. -/
theorem readBack_path {d : Deployment} {raw : RawHit} {wing room : String}
    (hw : Dict.get raw.metadata "wing" = .str wing) (hr : Dict.get raw.metadata "room" = .str room)
    (hwne : wing ≠ "") (hrne : room ≠ "") : (normalizeHit d raw).path = roomPath wing room := by
  have h1 : (normalizeHit d raw).wing = wing := by
    simp only [normalizeHit, hw]
    rw [Json.orElse_str hwne, Json.orElse_str hwne, Deployment.str]
  have h2 : (normalizeHit d raw).room = room := by
    simp only [normalizeHit, hr]
    rw [Json.orElse_str hrne, Json.orElse_str hrne, Deployment.str]
  rw [Hit.path, h1, h2]

/-- **The path of a row read back is the path the gate tested exactly on clean pairs.** An empty wing
or room falls back to a tag or a constant, and no fallback has the stray slash of the tested text. -/
theorem readBack_path_iff {d : Deployment} {raw : RawHit} {wing room : String}
    (hw : Dict.get raw.metadata "wing" = .str wing) (hr : Dict.get raw.metadata "room" = .str room) :
    writePath wing room = (normalizeHit d raw).path ↔ CleanPair wing room := by
  by_cases hne : wing ≠ "" ∧ room ≠ ""
  · rw [readBack_path hw hr hne.1 hne.2, writePath_eq_roomPath_iff]
  · constructor
    · intro h
      refine absurd (ne_empty_of_trim ?_) hne
      rw [h]
      exact roomPath_trim _ _
    · intro h
      exact absurd ⟨h.wing_ne, h.room_ne⟩ hne

theorem body_pair {d : Deployment} {wing room content : String} {metadata : Dict} {sani : Bool} {cid : Option String}
    {body : MemoryBody} (h : addMemoryBody d wing room content metadata sani cid = .ok body) :
    Dict.get body.metadata "wing" = .str wing ∧ Dict.get body.metadata "room" = .str room := by
  unfold addMemoryBody at h
  simp only at h
  split at h
  · cases h
  · split at h
    · cases h
    · cases h
      simp [Dict.merge, Dict.get_set]

/-- Under every approval list, no row that `write` POSTs reads back as a row the list governs. The
store returns the metadata it was given; the tags it returns do not matter. -/
def NoGovernedPost (d : Deployment) (p : AgentProfile) (pr : Principal) (q : QuotaState) (clk : WriteClock)
    (c : WriteCall) : Prop :=
  ∀ (ps : List String) (body : MemoryBody) (raw : RawHit),
    write d { p with approvalRequiredFor := ps } pr q clk c = .ok (.posted body) → raw.metadata = body.metadata →
    matchesAny (normalizeHit d raw).path ps = false

/-- No approval list makes `write` POST: the call is refused before the gate, or its tags cannot be
encoded. -/
def Refused (d : Deployment) (p : AgentProfile) (pr : Principal) (q : QuotaState) (clk : WriteClock)
    (c : WriteCall) : Prop :=
  ∀ a body, prepareWrite d p pr q clk c = .ok a →
    addMemoryBody d a.wing a.room a.content a.metadata true c.conversationId ≠ .ok body

theorem prepareWrite_pair {d : Deployment} {p : AgentProfile} {pr : Principal} {q : QuotaState} {clk : WriteClock}
    {c : WriteCall} {a : PreparedWrite} (h : prepareWrite d p pr q clk c = .ok a) :
    a.wing = effectiveWing d p c ∧ a.room = effectiveRoom p c := by
  obtain ⟨-, -, -, -, -, rfl⟩ := prepareWrite_ok h
  exact ⟨rfl, rfl⟩

/-- `write` POSTs what `prepareWrite` let through and the gate did not hold back. -/
theorem write_posted_iff {d : Deployment} {p : AgentProfile} {pr : Principal} {q : QuotaState} {clk : WriteClock}
    {c : WriteCall} {ps : List String} {body : MemoryBody} :
    write d { p with approvalRequiredFor := ps } pr q clk c = .ok (.posted body) ↔
      ∃ a, prepareWrite d p pr q clk c = .ok a ∧ matchesAny (writePath a.wing a.room) ps = false ∧
        addMemoryBody d a.wing a.room a.content a.metadata true c.conversationId = .ok body := by
  have hprep : prepareWrite d { p with approvalRequiredFor := ps } pr q clk c = prepareWrite d p pr q clk c := rfl
  unfold write
  rw [hprep]
  cases prepareWrite d p pr q clk c with
  | error e => simp
  | ok a =>
    have hgate : approvalRequired { p with approvalRequiredFor := ps } a.wing a.room
        = matchesAny (writePath a.wing a.room) ps := rfl
    simp only [hgate, Except.ok.injEq, exists_eq_left']
    by_cases hm : matchesAny (writePath a.wing a.room) ps = true
    · simp [hm]
    · cases hb : addMemoryBody d a.wing a.room a.content a.metadata true c.conversationId <;> simp [hm, Except.map]

def notesProfile : AgentProfile where
  name := "notes"
  writeDefault := ⟨"notes", "inbox"⟩
  writeQuota := ⟨100, 10⟩
  memoryTypeAllowlist := ["note"]
  retentionPolicy := ⟨none, []⟩
  approvalRequiredFor := ["private/*"]
  readAllowlist := ["*"]
  deny := []
  tenantScope := ["t_default"]
  writeWingAllowlist := []
  writeRoomAllowlist := []
  enforceWriteAllowlist := false
  finalizerOnly := false

def plainDeployment : Deployment where
  defaultTenantId := "t_default"
  defaultSubjectId := "owner"
  rootPrincipalId := "root"
  ownerWing := "owner"
  ownerSlug := "owner"
  contentOwnerLabel := "Owner"
  authorizedApprovers := ["1"]
  transportKind := "telegram"
  sanitize := id
  repr := fun _ => ""
  scalarEq := fun _ _ => false
  intOf := fun _ => .error (.typeError "")
  jsonErrorText := fun _ => ""
  finalizerProfile := notesProfile
  limits := ⟨1000, 4300⟩

def notesAgent : Principal := ⟨"agent:notes@t_default", "t_default", "owner", ["memory.write"], false, none⟩

def quietClock : WriteClock := ⟨0, "2026-07-10T00:00:00+00:00", "2026-07-10T00:00:00Z", fun _ => ""⟩

/-- A room that names another wing. -/
def slashCall : WriteCall := ⟨"dear diary", "private/journal", "note", none, []⟩

theorem slashCall_reaches : ∃ a body,
    prepareWrite plainDeployment notesProfile notesAgent ⟨0, 0, []⟩ quietClock slashCall = .ok a ∧
      addMemoryBody plainDeployment a.wing a.room a.content a.metadata true slashCall.conversationId = .ok body :=
  ⟨_, _, rfl, rfl⟩

end Panella
