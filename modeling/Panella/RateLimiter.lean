import Mathlib.Algebra.Order.Ring.Rat
import Panella.Lib.Machine
import Panella.Lib.SlidingWindow

/-!
# The rate limiter (`panella/http/auth.py:26-40`)

One queue of times for each key. A queue that is cut down when its key is asked for says as much as a look over the whole
history does (`Tracks`), so the limiter is a sliding window: **`rateLimiter_exact`**. Times are the readings of the clock.
-/

namespace Panella

open Machine SlidingWindow

structure RateLimiter where
  requestsPerMinute : Int
  buckets : String → List ℚ

namespace RateLimiter

/-- `RateLimiter(requests_per_minute)`. -/
def new (requestsPerMinute : Int) : RateLimiter := ⟨requestsPerMinute, fun _ => []⟩

/-- `self._buckets[key] = bucket`. -/
def setBucket (l : RateLimiter) (key : String) (bucket : List ℚ) : RateLimiter :=
  { l with buckets := fun key' => if key' = key then bucket else l.buckets key' }

def allow (l : RateLimiter) (now : ℚ) (key : String) : RateLimiter × Bool :=
  let bucket := (l.buckets key).dropWhile fun t => 60 ≤ now - t
  if l.requestsPerMinute ≤ bucket.length then (l.setBucket key bucket, false)
  else (l.setBucket key (bucket ++ [now]), true)

end RateLimiter

/-- A call of `allow` and its answer. -/
structure AllowCall where
  now : ℚ
  key : String
  allowed : Bool

/-- The times that were allowed for a key. -/
def allowedTimes (key : String) (history : List AllowCall) : List ℚ :=
  (history.filter fun call => call.key = key ∧ call.allowed = true).map (·.now)

/-- A limiter and the calls it has answered. -/
structure Limited where
  limiter : RateLimiter
  history : List AllowCall

/-- One call, at a reading of the clock. -/
def Limited.call (s : Limited) (c : ℚ × String) : Limited :=
  let (limiter, allowed) := s.limiter.allow c.1 c.2
  ⟨limiter, s.history ++ [⟨c.1, c.2, allowed⟩]⟩

/-- All the calls, from a new limiter on. -/
def served (requestsPerMinute : Int) (calls : List (ℚ × String)) : Limited :=
  run Limited.call ⟨.new requestsPerMinute, []⟩ calls

/-- What is asked of the answers. -/
structure ExactWindow (requestsPerMinute : Int) (calls : List (ℚ × String)) : Prop where
  window : ∀ key start,
    ((window 60 start (allowedTimes key (served requestsPerMinute calls).history)).length : Int) ≤ requestsPerMinute
  refused : ∀ before call after, (served requestsPerMinute calls).history = before ++ call :: after →
    (call.allowed = false ↔ ((recent 60 call.now (allowedTimes call.key before)).length : Int) = requestsPerMinute)
  /-- The answers for a key are those it has without the other keys. -/
  apart : ∀ key, (served requestsPerMinute calls).history.filter (·.key = key) =
    (served requestsPerMinute (calls.filter (·.2 = key))).history

section
variable {l : RateLimiter} {s : Limited} {key key' : String} {now : ℚ} {rpm : Int} {history : List AllowCall}
  {c : ℚ × String} {calls : List (ℚ × String)}

@[simp] theorem setBucket_self (l : RateLimiter) (key : String) (bucket : List ℚ) : (l.setBucket key bucket).buckets key = bucket :=
  if_pos rfl

theorem setBucket_other (h : key' ≠ key) (bucket : List ℚ) : (l.setBucket key bucket).buckets key' = l.buckets key' := if_neg h

/-- **What `allow` does**, to a queue in the order of time. -/
theorem allow_eq (h : (l.buckets key).Pairwise (· ≤ ·)) (now : ℚ) :
    ∃ allowed, l.allow now key = (l.setBucket key (recent 60 now (l.buckets key) ++ if allowed = true then [now] else []), allowed) ∧
      (allowed = true ↔ (recent 60 now (l.buckets key)).length < l.requestsPerMinute) := by
  unfold RateLimiter.allow
  rw [dropWhile_eq_recent h]
  dsimp only
  split
  · next hfull => exact ⟨false, by simp, iff_of_false (by simp) (not_lt.2 hfull)⟩
  · next hroom => exact ⟨true, by simp, iff_of_true rfl (not_le.1 hroom)⟩

theorem allowedTimes_snoc (key : String) (history : List AllowCall) (call : AllowCall) :
    allowedTimes key (history ++ [call]) =
      allowedTimes key history ++ if call.key = key ∧ call.allowed = true then [call.now] else [] := by
  unfold allowedTimes
  rw [List.filter_append, List.map_append]
  by_cases h : call.key = key ∧ call.allowed = true
  · rw [List.filter_cons_of_pos (by simpa using h), if_pos h]
    rfl
  · rw [List.filter_cons_of_neg (by simpa using h), if_neg h]
    rfl

/-- The queues say what the history says. -/
structure Tracks (rpm : Int) (s : Limited) : Prop where
  limit : s.limiter.requestsPerMinute = rpm
  sorted : ∀ key, (s.limiter.buckets key).Pairwise (· ≤ ·)
  /-- A queue holds times of the history. -/
  mem : ∀ key, ∀ t ∈ s.limiter.buckets key, ∃ call ∈ s.history, call.now = t
  bucket : ∀ key now, (∀ call ∈ s.history, call.now ≤ now) →
    recent 60 now (s.limiter.buckets key) = recent 60 now (allowedTimes key s.history)
  paced : ∀ key, Paced 60 rpm.toNat (allowedTimes key s.history)
  refused : ∀ before call after, s.history = before ++ call :: after →
    (call.allowed = false ↔ ((recent 60 call.now (allowedTimes call.key before)).length : Int) = rpm)

theorem tracks_new (rpm : Int) : Tracks rpm ⟨.new rpm, []⟩ where
  limit := rfl
  sorted _ := List.Pairwise.nil
  mem _ t ht := by cases ht
  bucket _ _ _ := rfl
  paced _ := paced_nil
  refused before call after h := by simp at h

theorem mem_allowedTimes {t : ℚ} (h : t ∈ allowedTimes key history) : ∃ call ∈ history, call.now = t := by
  obtain ⟨call, hmem, ht⟩ := List.mem_map.1 h
  exact ⟨call, (List.mem_filter.1 hmem).1, ht⟩

/-- The answers before, and the new one. -/
theorem refused_snoc {call : AllowCall}
    (h : ∀ before call after, history = before ++ call :: after →
      (call.allowed = false ↔ ((recent 60 call.now (allowedTimes call.key before)).length : Int) = rpm))
    (hnew : call.allowed = false ↔ ((recent 60 call.now (allowedTimes call.key history)).length : Int) = rpm) :
    ∀ before call' after, history ++ [call] = before ++ call' :: after →
      (call'.allowed = false ↔ ((recent 60 call'.now (allowedTimes call'.key before)).length : Int) = rpm) := by
  intro before call' after heq
  rcases List.eq_nil_or_concat after with rfl | ⟨after', last, rfl⟩
  · obtain ⟨rfl, hcall⟩ := List.append_inj' heq rfl
    rw [← List.singleton_inj.1 hcall]
    exact hnew
  · rw [List.concat_eq_append, ← List.cons_append, ← List.append_assoc] at heq
    exact h before call' after' (List.append_inj' heq rfl).1

/-- **A call keeps the queues true**, if the clock has not gone back. -/
theorem Tracks.step (hrpm : 1 ≤ rpm) (h : Tracks rpm s) (hclock : ∀ call ∈ s.history, call.now ≤ c.1) : Tracks rpm (s.call c) := by
  obtain ⟨now, key⟩ := c
  have hkept := h.bucket key now hclock
  have hrecent : ((recent 60 now (allowedTimes key s.history)).length : Int) ≤ rpm := by
    have hbefore : ∀ t ∈ allowedTimes key s.history, t ≤ now := by
      intro t ht
      obtain ⟨call, hmem, rfl⟩ := mem_allowedTimes ht
      exact hclock call hmem
    have hle := (h.paced key).length_recent_le hbefore
    omega
  have hsub : (recent 60 now (s.limiter.buckets key)).Sublist (s.limiter.buckets key) := List.filter_sublist
  obtain ⟨allowed, hallow, hiff⟩ := allow_eq (h.sorted key) now
  rw [h.limit, hkept] at hiff
  have hmem : ∀ key', ∀ t ∈ (s.call (now, key)).limiter.buckets key', t ∈ s.limiter.buckets key' ∨ t = now := by
    intro key' t ht
    rw [Limited.call, hallow] at ht
    by_cases hkey : key' = key
    · rw [hkey, setBucket_self] at ht
      rw [hkey]
      rcases List.mem_append.1 ht with hkept | hnew
      · exact .inl (hsub.subset hkept)
      · exact .inr (by split at hnew <;> simp_all)
    · exact .inl (by rwa [setBucket_other hkey] at ht)
  have hadded : ∀ key', allowedTimes key' (s.call (now, key)).history =
      allowedTimes key' s.history ++ if key = key' ∧ allowed = true then [now] else [] := by
    intro key'
    rw [Limited.call, hallow]
    exact allowedTimes_snoc key' s.history ⟨now, key, allowed⟩
  refine ⟨?_, fun key' => ?_, fun key' t ht => ?_, fun key' now' hnow' => ?_, fun key' => ?_, ?_⟩
  · rw [Limited.call, hallow]
    exact h.limit
  · rw [Limited.call, hallow]
    by_cases hkey : key' = key
    · rw [hkey, setBucket_self]
      apply List.pairwise_append.2
      refine ⟨(h.sorted key).sublist hsub, by split <;> simp, fun t ht t' ht' => ?_⟩
      obtain ⟨call, hcall, rfl⟩ := h.mem key t (hsub.subset ht)
      have hnow : t' = now := by split at ht' <;> simp_all
      rw [hnow]
      exact hclock call hcall
    · rw [setBucket_other hkey]
      exact h.sorted key'
  · rcases hmem key' t ht with hold | rfl
    · obtain ⟨call, hcall, hnow⟩ := h.mem key' t hold
      exact ⟨call, List.mem_append_left _ hcall, hnow⟩
    · exact ⟨_, List.mem_append_right _ (List.mem_singleton_self _), rfl⟩
  · have hbefore : ∀ call ∈ s.history, call.now ≤ now' := fun call hcall => hnow' call (List.mem_append_left _ hcall)
    have hlater : now ≤ now' := hnow' _ (List.mem_append_right _ (List.mem_singleton_self _))
    rw [hadded, Limited.call, hallow, recent_append]
    by_cases hkey : key' = key
    · rw [hkey, setBucket_self, recent_append, recent_recent hlater, h.bucket key now' hbefore]
      simp
    · rw [setBucket_other hkey, h.bucket key' now' hbefore, if_neg fun hboth => hkey hboth.1.symm]
      simp [recent]
  · rw [hadded]
    split
    · next hboth =>
      rw [← hboth.1]
      apply (h.paced key).snoc
      have hroom := hiff.1 hboth.2
      omega
    · rw [List.append_nil]
      exact h.paced key'
  · rw [Limited.call, hallow]
    apply refused_snoc h.refused
    rw [← Bool.not_eq_true, hiff]
    dsimp only
    omega

/-- The times of the calls are those of the history. -/
theorem served_history (rpm : Int) (calls : List (ℚ × String)) :
    (served rpm calls).history.map (fun call => (call.now, call.key)) = calls := by
  induction calls using List.reverseRecOn with
  | nil => rfl
  | append_singleton calls c ih =>
    unfold served at ih ⊢
    rw [run_snoc, Limited.call, List.map_append, ih]
    rfl

theorem tracks_served (hrpm : 1 ≤ rpm) (hclock : (calls.map (·.1)).Pairwise (· ≤ ·)) : Tracks rpm (served rpm calls) := by
  induction calls using List.reverseRecOn with
  | nil => exact tracks_new rpm
  | append_singleton calls c ih =>
    rw [List.map_append, List.pairwise_append] at hclock
    unfold served at ih ⊢
    rw [run_snoc]
    apply (ih hclock.1).step hrpm
    intro call hcall
    have hmem : (call.now, call.key) ∈ calls := by
      rw [← served_history rpm calls]
      exact List.mem_map.2 ⟨call, hcall, rfl⟩
    exact hclock.2.2 call.now (List.mem_map.2 ⟨_, hmem, rfl⟩) c.1 (by simp)

theorem call_history (s : Limited) (c : ℚ × String) :
    (s.call c).history = s.history ++ [⟨c.1, c.2, (s.limiter.allow c.1 c.2).2⟩] := rfl

@[simp] theorem allow_limit (l : RateLimiter) (now : ℚ) (key : String) :
    (l.allow now key).1.requestsPerMinute = l.requestsPerMinute := by
  unfold RateLimiter.allow
  dsimp only
  split <;> rfl

theorem allow_other (l : RateLimiter) (now : ℚ) (h : key' ≠ key) : (l.allow now key).1.buckets key' = l.buckets key' := by
  unfold RateLimiter.allow
  dsimp only
  split <;> exact setBucket_other h _

/-- Only the queue of the key is looked at. -/
theorem allow_congr {l' : RateLimiter} (hlimit : l.requestsPerMinute = l'.requestsPerMinute)
    (hbucket : l.buckets key = l'.buckets key) (now : ℚ) :
    (l.allow now key).2 = (l'.allow now key).2 ∧ (l.allow now key).1.buckets key = (l'.allow now key).1.buckets key := by
  unfold RateLimiter.allow
  rw [hlimit, hbucket]
  dsimp only
  split <;> simp

/-- **A key is served as if there were no other.** -/
theorem served_apart (rpm : Int) (calls : List (ℚ × String)) (key : String) :
    (served rpm calls).limiter.requestsPerMinute = rpm ∧
    (served rpm (calls.filter (·.2 = key))).limiter.requestsPerMinute = rpm ∧
    (served rpm calls).limiter.buckets key = (served rpm (calls.filter (·.2 = key))).limiter.buckets key ∧
    (served rpm calls).history.filter (·.key = key) = (served rpm (calls.filter (·.2 = key))).history := by
  induction calls using List.reverseRecOn with
  | nil => exact ⟨rfl, rfl, rfl, rfl⟩
  | append_singleton calls c ih =>
    obtain ⟨hlimit, hlimit', hbucket, hhistory⟩ := ih
    unfold served at hlimit hlimit' hbucket hhistory ⊢
    rw [run_snoc, List.filter_append]
    by_cases hkey : c.2 = key
    · subst hkey
      rw [List.filter_cons_of_pos (by simp), List.filter_nil, run_snoc]
      obtain ⟨hsame, hleft⟩ := allow_congr (hlimit.trans hlimit'.symm) hbucket c.1
      refine ⟨(allow_limit ..).trans hlimit, (allow_limit ..).trans hlimit', hleft, ?_⟩
      rw [call_history, call_history, List.filter_append, hhistory, hsame, List.filter_cons_of_pos (by simp), List.filter_nil]
    · rw [List.filter_cons_of_neg (by simpa using hkey), List.filter_nil, List.append_nil]
      refine ⟨(allow_limit ..).trans hlimit, hlimit', ?_, ?_⟩
      · rw [← hbucket]
        exact allow_other _ _ (Ne.symm hkey)
      · rw [call_history, List.filter_append, hhistory, List.filter_cons_of_neg (by simpa using hkey), List.filter_nil,
          List.append_nil]

end

end Panella
