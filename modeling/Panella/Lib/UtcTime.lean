import Mathlib.Data.String.Basic
import Mathlib.Order.Basic
import Mathlib.Tactic.IntervalCases

/-!
# Python's `datetime`, in UTC

| here | there |
| --- | --- |
| `daysBeforeYear`, `daysBeforeMonth`, `Fields.ordinal` | `_days_before_year`, `_days_before_month`, `_ymd2ord` |
| `ymdOf` | `_ord2ymd` |
| `DateTime.addSeconds` | `dt + timedelta(seconds=n)` |
| `DateTime.isoformat` | `dt.isoformat()` |

A datetime is the count of microseconds since the first of January of year 1; its fields are read off the count. What is used
of it: **`isoformat_lt_iff`** (the texts of two datetimes compare like the datetimes, although a text has no fraction where
the microseconds are zero) and `addSeconds_some`.
-/

namespace UtcTime

/-! ## The calendar -/

def daysBeforeYear (year : Nat) : Nat := (year - 1) * 365 + (year - 1) / 4 - (year - 1) / 100 + (year - 1) / 400

def isLeap (year : Nat) : Bool := year % 4 = 0 && (year % 100 ≠ 0 || year % 400 = 0)

/-- `_DAYS_BEFORE_MONTH`. -/
def daysBeforeMonthTable : List Nat := [0, 0, 31, 59, 90, 120, 151, 181, 212, 243, 273, 304, 334, 365]

def daysBeforeMonth (leap : Bool) (month : Nat) : Nat :=
  daysBeforeMonthTable.getD month 0 + if 2 < month && leap then 1 else 0

def daysInMonth (leap : Bool) (month : Nat) : Nat := daysBeforeMonth leap (month + 1) - daysBeforeMonth leap month

structure Fields where
  year : Nat
  month : Nat
  day : Nat
  hour : Nat
  minute : Nat
  second : Nat
  microsecond : Nat

/-- What `datetime(…)` accepts. -/
structure Fields.Valid (f : Fields) : Prop where
  year : 1 ≤ f.year ∧ f.year ≤ 9999
  month : 1 ≤ f.month ∧ f.month ≤ 12
  day : 1 ≤ f.day ∧ f.day ≤ daysInMonth (isLeap f.year) f.month
  hour : f.hour < 24
  minute : f.minute < 60
  second : f.second < 60
  microsecond : f.microsecond < 1000000

/-- `_ymd2ord`. -/
def Fields.ordinal (f : Fields) : Nat := daysBeforeYear f.year + daysBeforeMonth (isLeap f.year) f.month + f.day

/-- The microseconds since the start of the calendar. -/
def Fields.micros (f : Fields) : Nat :=
  ((((f.ordinal - 1) * 24 + f.hour) * 60 + f.minute) * 60 + f.second) * 1000000 + f.microsecond

/-- The month a day of the year lies in. -/
def monthOf (leap : Bool) (n : Nat) : Nat := ([12, 11, 10, 9, 8, 7, 6, 5, 4, 3, 2].find? (daysBeforeMonth leap · ≤ n)).getD 1

/-- `_ord2ymd`, of the ordinal less one. -/
def ymdOf (n : Nat) : Nat × Nat × Nat :=
  let n400 := n / 146097
  let r400 := n % 146097
  let n100 := r400 / 36524
  let r100 := r400 % 36524
  let n4 := r100 / 1461
  let r4 := r100 % 1461
  let n1 := r4 / 365
  let r := r4 % 365
  let year := n400 * 400 + 1 + n100 * 100 + n4 * 4 + n1
  if n1 = 4 ∨ n100 = 4 then (year - 1, 12, 31)
  else
    let leap := n1 = 3 && (n4 ≠ 24 || n100 = 3)
    (year, monthOf leap r, r - daysBeforeMonth leap (monthOf leap r) + 1)

/-- The days of the calendar, to the end of year 9999. -/
def maxDays : Nat := 3652059

structure DateTime where
  micros : Nat
  inRange : micros < maxDays * 86400000000
deriving DecidableEq

def DateTime.fields (t : DateTime) : Fields :=
  let (year, month, day) := ymdOf (t.micros / 86400000000)
  { year, month, day
    hour := t.micros / 3600000000 % 24
    minute := t.micros / 60000000 % 60
    second := t.micros / 1000000 % 60
    microsecond := t.micros % 1000000 }

instance : Preorder DateTime := Preorder.lift DateTime.micros

instance (t u : DateTime) : Decidable (t ≤ u) := inferInstanceAs (Decidable (t.micros ≤ u.micros))

theorem DateTime.le_iff {t u : DateTime} : t ≤ u ↔ t.micros ≤ u.micros := Iff.rfl

theorem DateTime.lt_iff {t u : DateTime} : t < u ↔ t.micros < u.micros := Iff.rfl

/-- `t + timedelta(seconds=n)`; `none` where it raises `OverflowError`. -/
def DateTime.addSeconds (t : DateTime) (n : Int) : Option DateTime :=
  if h : 0 ≤ (t.micros : Int) + n * 1000000 ∧ ((t.micros : Int) + n * 1000000).toNat < maxDays * 86400000000 then
    some ⟨((t.micros : Int) + n * 1000000).toNat, h.2⟩
  else none

theorem DateTime.addSeconds_some {t u : DateTime} {n : Int} (h : t.addSeconds n = some u) :
    (u.micros : Int) = t.micros + n * 1000000 := by
  unfold addSeconds at h
  split at h
  · next hrange =>
    cases h
    exact Int.toNat_of_nonneg hrange.1
  · cases h

/-! ### The fields of a day -/

theorem daysBeforeMonth_table : ∀ leap : Bool, ∀ month ∈ List.range 13, 1 ≤ month →
    daysBeforeMonth leap month < daysBeforeMonth leap (month + 1) := by decide

theorem daysBeforeMonth_succ {leap : Bool} {month : Nat} (h : 1 ≤ month ∧ month ≤ 12) :
    daysBeforeMonth leap (month + 1) = daysBeforeMonth leap month + daysInMonth leap month := by
  have hlt := daysBeforeMonth_table leap month (List.mem_range.2 (by omega)) h.1
  unfold daysInMonth
  omega

theorem daysBeforeMonth_last : ∀ leap : Bool, daysBeforeMonth leap 13 = if leap then 366 else 365 := by decide

theorem daysBeforeMonth_mono (leap : Bool) {m m' : Nat} (hm : 1 ≤ m) (hlt : m < m') (hm' : m' ≤ 13) :
    daysBeforeMonth leap m + daysInMonth leap m ≤ daysBeforeMonth leap m' := by
  induction m' with
  | zero => omega
  | succ m' ih =>
    rcases Nat.lt_succ_iff_lt_or_eq.1 hlt with hlt' | rfl
    · have hstep := daysBeforeMonth_table leap m' (List.mem_range.2 (by omega)) (by omega)
      have hrec := ih hlt' (by omega)
      omega
    · rw [daysBeforeMonth_succ ⟨hm, by omega⟩]

theorem daysBeforeYear_succ {year : Nat} (h : 1 ≤ year) :
    daysBeforeYear (year + 1) = daysBeforeYear year + if isLeap year then 366 else 365 := by
  obtain ⟨n, rfl⟩ := Nat.exists_eq_add_of_le' h
  have hstep : ∀ k, (n + 1) / k = n / k + if (n + 1) % k = 0 then 1 else 0 := by
    intro k
    rw [Nat.succ_div]
    simp only [Nat.dvd_iff_mod_eq_zero]
  have hfour : (n + 1) % 100 = 0 → (n + 1) % 4 = 0 := by omega
  have hhundred : (n + 1) % 400 = 0 → (n + 1) % 100 = 0 := by omega
  have hle : n / 100 ≤ n / 4 := Nat.div_le_div_left (by decide) (by decide)
  unfold daysBeforeYear
  rw [Nat.add_sub_cancel, Nat.add_sub_cancel, hstep 4, hstep 100, hstep 400]
  by_cases h4 : (n + 1) % 4 = 0
  · by_cases h100 : (n + 1) % 100 = 0
    · by_cases h400 : (n + 1) % 400 = 0
      · have hleap : isLeap (n + 1) = true := by simp [isLeap, h4, h400]
        rw [hleap, if_pos h4, if_pos h100, if_pos h400, if_pos rfl]
        omega
      · have hleap : isLeap (n + 1) = false := by simp [isLeap, h100, h400]
        rw [hleap, if_pos h4, if_pos h100, if_neg h400, if_neg Bool.false_ne_true]
        omega
    · have hleap : isLeap (n + 1) = true := by simp [isLeap, h4, h100]
      rw [hleap, if_pos h4, if_neg h100, if_neg (mt hhundred h100), if_pos rfl]
      omega
  · have hleap : isLeap (n + 1) = false := by simp [isLeap, h4]
    rw [hleap, if_neg h4, if_neg (mt hfour h4), if_neg (mt hhundred (mt hfour h4)), if_neg Bool.false_ne_true]
    omega

theorem daysBeforeYear_mono {y y' : Nat} (hy : 1 ≤ y) (hlt : y < y') :
    daysBeforeYear y + (if isLeap y then 366 else 365) ≤ daysBeforeYear y' := by
  induction y' with
  | zero => omega
  | succ y' ih =>
    rcases Nat.lt_succ_iff_lt_or_eq.1 hlt with hlt' | rfl
    · have hrec := ih hlt'
      rw [daysBeforeYear_succ (by omega : 1 ≤ y')]
      omega
    · rw [daysBeforeYear_succ hy]

theorem Fields.Valid.day_le {f : Fields} (h : f.Valid) :
    daysBeforeMonth (isLeap f.year) f.month + f.day ≤ if isLeap f.year then 366 else 365 := by
  have hday := h.day.2
  have hlast := daysBeforeMonth_mono (isLeap f.year) h.month.1 (Nat.lt_succ_of_le h.month.2) le_rfl
  rw [daysBeforeMonth_last] at hlast
  omega

/-- A later day has the higher ordinal. -/
theorem ordinal_lt {f g : Fields} (hf : f.Valid) (hg : g.Valid)
    (h : f.year < g.year ∨ f.year = g.year ∧ (f.month < g.month ∨ f.month = g.month ∧ f.day < g.day)) :
    f.ordinal < g.ordinal := by
  have hfday := hf.day_le
  have hgday := hg.day.1
  unfold Fields.ordinal
  rcases h with hyear | ⟨hyear, hmonth | ⟨hmonth, hday⟩⟩
  · have hmono := daysBeforeYear_mono hf.year.1 hyear
    omega
  · have hmono := daysBeforeMonth_mono (isLeap f.year) hf.month.1 hmonth (hg.month.2.trans (by decide))
    have hfd := hf.day.2
    rw [← hyear]
    omega
  · rw [← hyear, ← hmonth]
    omega

/-- A day of the year lies in the month that `monthOf` finds. -/
theorem monthOf_spec : ∀ leap : Bool, ∀ r ∈ List.range 365, (1 ≤ monthOf leap r ∧ monthOf leap r ≤ 12) ∧
    daysBeforeMonth leap (monthOf leap r) ≤ r ∧
      r - daysBeforeMonth leap (monthOf leap r) + 1 ≤ daysInMonth leap (monthOf leap r) := by
  decide +kernel

theorem daysBeforeMonth_december : ∀ leap : Bool, daysBeforeMonth leap 12 = if leap then 335 else 334 := by decide

theorem daysInMonth_december : ∀ leap : Bool, daysInMonth leap 12 = 31 := by decide

/-- The year `400 a + 100 b + 4 c + d + 1` of a cycle. -/
theorem isLeap_cycle {a b c d : Nat} (hb : b ≤ 3) (hc : c ≤ 24) (hd : d ≤ 3) :
    isLeap (a * 400 + 1 + b * 100 + c * 4 + d) = (d = 3 && (c ≠ 24 || b = 3)) := by
  have h4 : (a * 400 + 1 + b * 100 + c * 4 + d) % 4 = 0 ↔ d = 3 := by omega
  have h100 : (a * 400 + 1 + b * 100 + c * 4 + d) % 100 = 0 ↔ d = 3 ∧ c = 24 := by omega
  have h400 : (a * 400 + 1 + b * 100 + c * 4 + d) % 400 = 0 ↔ d = 3 ∧ c = 24 ∧ b = 3 := by omega
  unfold isLeap
  simp only [ne_eq, h4, h100, h400]
  by_cases hd3 : d = 3 <;> by_cases hc24 : c = 24 <;> by_cases hb3 : b = 3 <;> simp [hd3, hc24, hb3]

theorem daysBeforeYear_cycle {a b c d : Nat} (hb : b ≤ 3) (hc : c ≤ 24) (hd : d ≤ 3) :
    daysBeforeYear (a * 400 + 1 + b * 100 + c * 4 + d) = a * 146097 + b * 36524 + c * 1461 + d * 365 := by
  have hpred : a * 400 + 1 + b * 100 + c * 4 + d - 1 = a * 400 + b * 100 + c * 4 + d := by omega
  have h4 : (a * 400 + b * 100 + c * 4 + d) / 4 = a * 100 + b * 25 + c := by omega
  have h100 : (a * 400 + b * 100 + c * 4 + d) / 100 = a * 4 + b := by omega
  have h400 : (a * 400 + b * 100 + c * 4 + d) / 400 = a := by omega
  rw [daysBeforeYear, hpred, h4, h100, h400]
  omega

/-- **The date of an ordinal.** -/
theorem ymdOf_spec {n : Nat} (hn : n < maxDays) {year month day : Nat} (h : ymdOf n = (year, month, day)) :
    (1 ≤ year ∧ year ≤ 9999) ∧ (1 ≤ month ∧ month ≤ 12) ∧ (1 ≤ day ∧ day ≤ daysInMonth (isLeap year) month) ∧
      daysBeforeYear year + daysBeforeMonth (isLeap year) month + day = n + 1 := by
  unfold ymdOf at h
  dsimp only at h
  unfold maxDays at hn
  generalize ha : n / 146097 = a at h
  generalize hra : n % 146097 = ra at h
  generalize hb : ra / 36524 = b at h
  generalize hrb : ra % 36524 = rb at h
  generalize hc : rb / 1461 = c at h
  generalize hrc : rb % 1461 = rc at h
  generalize hd : rc / 365 = d at h
  generalize hr : rc % 365 = r at h
  have hsum : n = a * 146097 + b * 36524 + c * 1461 + d * 365 + r := by omega
  split at h
  · next hlast =>
    -- the last day of a leap year
    cases h
    have hdecember : ∀ a' b' c' : Nat, b' ≤ 3 → c' ≤ 24 → (c' ≠ 24 ∨ b' = 3) → a' * 400 + b' * 100 + c' * 4 + 4 ≤ 9999 →
        a' * 146097 + b' * 36524 + c' * 1461 + 1460 = n →
        a * 400 + 1 + b * 100 + c * 4 + d - 1 = a' * 400 + 1 + b' * 100 + c' * 4 + 3 →
        (1 ≤ a * 400 + 1 + b * 100 + c * 4 + d - 1 ∧ a * 400 + 1 + b * 100 + c * 4 + d - 1 ≤ 9999) ∧
          (1 ≤ 12 ∧ 12 ≤ 12) ∧ (1 ≤ 31 ∧ 31 ≤ daysInMonth (isLeap (a * 400 + 1 + b * 100 + c * 4 + d - 1)) 12) ∧
          daysBeforeYear (a * 400 + 1 + b * 100 + c * 4 + d - 1) +
            daysBeforeMonth (isLeap (a * 400 + 1 + b * 100 + c * 4 + d - 1)) 12 + 31 = n + 1 := by
      intro a' b' c' hb' hc' hcycle hyear hn' hsame
      have hleap : isLeap (a' * 400 + 1 + b' * 100 + c' * 4 + 3) = true := by
        rw [isLeap_cycle hb' hc' le_rfl]
        simpa using hcycle
      rw [hsame, hleap, daysBeforeYear_cycle hb' hc' le_rfl, daysBeforeMonth_december, daysInMonth_december, if_pos rfl]
      have hsum' : a' * 146097 + b' * 36524 + c' * 1461 + 3 * 365 + 335 + 31 = n + 1 := by
        rw [← hn']
      exact ⟨by omega, by omega, by omega, hsum'⟩
    rcases hlast with hd4 | hb4
    · exact hdecember a b c (by omega) (by omega) (by omega) (by omega) (by omega) (by omega)
    · exact hdecember a 3 24 (by omega) (by omega) (by omega) (by omega) (by omega) (by omega)
  · next hlast =>
    cases h
    have hb3 : b ≤ 3 := by omega
    have hc24 : c ≤ 24 := by omega
    have hd3 : d ≤ 3 := by omega
    rw [isLeap_cycle hb3 hc24 hd3, daysBeforeYear_cycle hb3 hc24 hd3]
    obtain ⟨hmonth, hbefore, hday⟩ := monthOf_spec (d = 3 && (c ≠ 24 || b = 3)) r (List.mem_range.2 (by omega))
    exact ⟨by omega, hmonth, ⟨by omega, hday⟩, by omega⟩

/-- **The fields of a datetime are its own.** -/
theorem DateTime.fields_spec (t : DateTime) : t.fields.Valid ∧ t.fields.micros = t.micros := by
  have hrange := t.inRange
  unfold maxDays at hrange
  obtain ⟨hyear, hmonth, hday, hordinal⟩ := ymdOf_spec (n := t.micros / 86400000000) (by unfold maxDays; omega) rfl
  refine ⟨⟨hyear, hmonth, hday, ?_, ?_, ?_, ?_⟩, ?_⟩
  · exact Nat.mod_lt _ (by decide)
  · exact Nat.mod_lt _ (by decide)
  · exact Nat.mod_lt _ (by decide)
  · exact Nat.mod_lt _ (by decide)
  · have hord : t.fields.ordinal = t.micros / 86400000000 + 1 := hordinal
    rw [Fields.micros, hord]
    simp only [DateTime.fields]
    omega

/-! ## The text -/

/-- `n` with `w` digits. -/
def digits : Nat → Nat → List Char
  | 0, _ => []
  | w + 1, n => digits w (n / 10) ++ [Nat.digitChar (n % 10)]

def fraction (microsecond : Nat) : List Char :=
  if microsecond = 0 then [] else '.' :: digits 6 microsecond

def Fields.text (f : Fields) : List Char :=
  digits 4 f.year ++ '-' :: (digits 2 f.month ++ '-' :: (digits 2 f.day ++ 'T' :: (digits 2 f.hour ++ ':' ::
    (digits 2 f.minute ++ ':' :: (digits 2 f.second ++ (fraction f.microsecond ++ "+00:00".toList))))))

def DateTime.isoformat (t : DateTime) : String := String.ofList t.fields.text

/-- `t.strftime("%Y%m%d%H%M%S")`. -/
def DateTime.stamp (t : DateTime) : String :=
  let f := t.fields
  String.ofList (digits 4 f.year ++ digits 2 f.month ++ digits 2 f.day ++ digits 2 f.hour ++ digits 2 f.minute ++
    digits 2 f.second)

theorem length_digits (w n : Nat) : (digits w n).length = w := by
  induction w generalizing n with
  | zero => rfl
  | succ w ih => rw [digits, List.length_append, ih, List.length_singleton]

/-- Texts of one length decide before what follows them. -/
theorem append_lt_append_iff {a b x y : List Char} (h : a.length = b.length) :
    a ++ x < b ++ y ↔ a < b ∨ a = b ∧ x < y := by
  induction a generalizing b with
  | nil =>
    rw [List.length_nil, eq_comm, List.length_eq_zero_iff] at h
    simp [h]
  | cons c a ih =>
    cases b with
    | nil => simp at h
    | cons d b =>
      simp only [List.length_cons, Nat.add_right_cancel_iff] at h
      rw [List.cons_append, List.cons_append, List.cons_lt_cons_iff, List.cons_lt_cons_iff, ih h, List.cons.injEq]
      constructor
      · rintro (hcd | ⟨rfl, hab | ⟨rfl, hxy⟩⟩)
        · exact .inl (.inl hcd)
        · exact .inl (.inr ⟨rfl, hab⟩)
        · exact .inr ⟨⟨rfl, rfl⟩, hxy⟩
      · rintro ((hcd | ⟨rfl, hab⟩) | ⟨⟨rfl, rfl⟩, hxy⟩)
        · exact .inl hcd
        · exact .inr ⟨rfl, .inl hab⟩
        · exact .inr ⟨rfl, .inr ⟨rfl, hxy⟩⟩

theorem digitChar_table : ∀ m ∈ List.range 10, ∀ n ∈ List.range 10,
    (Nat.digitChar m < Nat.digitChar n ↔ m < n) ∧ (Nat.digitChar m = Nat.digitChar n ↔ m = n) := by decide

/-- **Numbers of one width compare like their digits.** -/
theorem digits_compare (w : Nat) {m n : Nat} (hm : m < 10 ^ w) (hn : n < 10 ^ w) :
    (digits w m < digits w n ↔ m < n) ∧ (digits w m = digits w n ↔ m = n) := by
  induction w generalizing m n with
  | zero =>
    have hm0 : m = 0 := by simpa using hm
    have hn0 : n = 0 := by simpa using hn
    subst hm0 hn0
    exact ⟨iff_of_false (List.lt_irrefl []) (Nat.lt_irrefl 0), iff_of_true rfl rfl⟩
  | succ w ih =>
    have hlen : (digits w (m / 10)).length = (digits w (n / 10)).length := by rw [length_digits, length_digits]
    have hpow : 10 ^ (w + 1) = 10 ^ w * 10 := Nat.pow_succ 10 w
    obtain ⟨hlt, heq⟩ := ih (m := m / 10) (n := n / 10) (by omega) (by omega)
    obtain ⟨hclt, hceq⟩ := digitChar_table (m % 10) (List.mem_range.2 (by omega)) (n % 10) (List.mem_range.2 (by omega))
    constructor
    · rw [digits, digits, append_lt_append_iff hlen, hlt, heq, List.cons_lt_cons_iff, hclt]
      simp only [List.lt_irrefl, and_false, or_false]
      omega
    · rw [digits, digits]
      constructor
      · intro happ
        obtain ⟨hinit, hlast⟩ := List.append_inj happ hlen
        have hquot := heq.1 hinit
        have hrest := hceq.1 (List.cons.inj hlast).1
        omega
      · rintro rfl
        rfl

theorem fraction_lt_iff {m n : Nat} (hm : m < 1000000) (hn : n < 1000000) :
    fraction m ++ "+00:00".toList < fraction n ++ "+00:00".toList ↔ m < n := by
  have hzone : "+00:00".toList = '+' :: "00:00".toList := rfl
  have hplus : '+' < '.' := by decide
  have hdot : ¬ '.' < '+' := by decide
  unfold fraction
  by_cases hm0 : m = 0
  · by_cases hn0 : n = 0
    · subst hm0 hn0
      simp
    · rw [if_pos hm0, if_neg hn0, List.nil_append, hzone, List.cons_append, List.cons_lt_cons_iff]
      exact iff_of_true (.inl hplus) (by omega)
  · by_cases hn0 : n = 0
    · rw [if_neg hm0, if_pos hn0, List.nil_append, hzone, List.cons_append, List.cons_lt_cons_iff]
      refine iff_of_false ?_ (by omega)
      rintro (hlt | ⟨heq, -⟩)
      · exact hdot hlt
      · exact absurd heq (by decide)
    · have hlen : (digits 6 m).length = (digits 6 n).length := by rw [length_digits, length_digits]
      rw [if_neg hm0, if_neg hn0, List.cons_append, List.cons_append, List.cons_lt_cons_iff, append_lt_append_iff hlen,
        (digits_compare 6 hm hn).1]
      simp

/-- The fields of a datetime compare one after the other. -/
def Fields.Before (f g : Fields) : Prop :=
  f.year < g.year ∨ f.year = g.year ∧ (f.month < g.month ∨ f.month = g.month ∧ (f.day < g.day ∨ f.day = g.day ∧
    (f.hour < g.hour ∨ f.hour = g.hour ∧ (f.minute < g.minute ∨ f.minute = g.minute ∧
      (f.second < g.second ∨ f.second = g.second ∧ f.microsecond < g.microsecond)))))

theorem daysInMonth_le : ∀ leap : Bool, ∀ month ∈ List.range 13, daysInMonth leap month ≤ 31 := by decide

theorem text_lt_iff {f g : Fields} (hf : f.Valid) (hg : g.Valid) : f.text < g.text ↔ f.Before g := by
  have hwidth : ∀ w m n, (digits w m).length = (digits w n).length := fun w m n => by rw [length_digits, length_digits]
  have hyear := digits_compare 4 (m := f.year) (n := g.year) (by have := hf.year; omega) (by have := hg.year; omega)
  have hmonth := digits_compare 2 (m := f.month) (n := g.month) (by have := hf.month; omega) (by have := hg.month; omega)
  have hdays : ∀ {h : Fields}, h.Valid → h.day < 100 := by
    intro h hh
    have hle := daysInMonth_le (isLeap h.year) h.month (List.mem_range.2 (by have := hh.month; omega))
    have hday := hh.day
    omega
  have hday := digits_compare 2 (hdays hf) (hdays hg)
  have hhour := digits_compare 2 (m := f.hour) (n := g.hour) (by have := hf.hour; omega) (by have := hg.hour; omega)
  have hminute := digits_compare 2 (m := f.minute) (n := g.minute) (by have := hf.minute; omega) (by have := hg.minute; omega)
  have hsecond := digits_compare 2 (m := f.second) (n := g.second) (by have := hf.second; omega) (by have := hg.second; omega)
  have hfraction := fraction_lt_iff hf.microsecond hg.microsecond
  unfold Fields.text Fields.Before
  simp only [append_lt_append_iff (hwidth _ _ _), List.cons_lt_cons_iff, Char.lt_irrefl, false_or, true_and, hyear.1, hyear.2,
    hmonth.1, hmonth.2, hday.1, hday.2, hhour.1, hhour.2, hminute.1, hminute.2, hsecond.1, hsecond.2, hfraction]

theorem micros_lt {f g : Fields} (hf : f.Valid) (hg : g.Valid) (h : f.Before g) : f.micros < g.micros := by
  have hfh := hf.hour
  have hfm := hf.minute
  have hfs := hf.second
  have hfu := hf.microsecond
  have hfd := hf.day.1
  have hford : 1 ≤ f.ordinal := by unfold Fields.ordinal; omega
  unfold Fields.micros
  by_cases hdate : f.year < g.year ∨ f.year = g.year ∧ (f.month < g.month ∨ f.month = g.month ∧ f.day < g.day)
  · have hlt := ordinal_lt hf hg hdate
    omega
  · unfold Fields.Before at h
    have hsame : f.year = g.year ∧ f.month = g.month ∧ f.day = g.day := by omega
    have hord : f.ordinal = g.ordinal := by rw [Fields.ordinal, Fields.ordinal, hsame.1, hsame.2.1, hsame.2.2]
    omega

/-- Of two pairs that compare first by a number, one comes before the other where it does for equal numbers. -/
theorem lex_total {a b : Nat} {P Q : Prop} (h : a = b → P ∨ Q) : (a < b ∨ a = b ∧ P) ∨ (b < a ∨ b = a ∧ Q) := by
  rcases Nat.lt_trichotomy a b with hlt | heq | hgt
  · exact .inl (.inl hlt)
  · exact (h heq).imp (fun hp => .inr ⟨heq, hp⟩) (fun hq => .inr ⟨heq.symm, hq⟩)
  · exact .inr (.inl hgt)

theorem before_total {f g : Fields} (h : f ≠ g) : f.Before g ∨ g.Before f := by
  unfold Fields.Before
  apply lex_total
  intro hyear
  apply lex_total
  intro hmonth
  apply lex_total
  intro hday
  apply lex_total
  intro hhour
  apply lex_total
  intro hminute
  apply lex_total
  intro hsecond
  apply Nat.lt_or_gt_of_ne
  intro hmicrosecond
  apply h
  cases f
  cases g
  simp only [Fields.mk.injEq]
  exact ⟨hyear, hmonth, hday, hhour, hminute, hsecond, hmicrosecond⟩

theorem Fields.Valid.ordinal_le {f : Fields} (h : f.Valid) : f.ordinal ≤ maxDays := by
  have hday := h.day_le
  have hlast : daysBeforeYear 10000 = maxDays := by decide
  have hmono := daysBeforeYear_mono h.year.1 (Nat.lt_succ_of_le h.year.2)
  rw [hlast] at hmono
  unfold Fields.ordinal
  omega

/-- Every date and time that `datetime(…)` accepts is one of a `DateTime`. -/
theorem DateTime.exists_fields {f : Fields} (h : f.Valid) : ∃ t : DateTime, t.fields = f := by
  have hord := h.ordinal_le
  have hpos : 1 ≤ f.ordinal := by
    have hday := h.day.1
    unfold Fields.ordinal
    omega
  have hrange : f.micros < maxDays * 86400000000 := by
    have hhour := h.hour
    have hminute := h.minute
    have hsecond := h.second
    have hmicro := h.microsecond
    unfold Fields.micros
    omega
  obtain ⟨hvalid, hmicros⟩ := DateTime.fields_spec ⟨f.micros, hrange⟩
  dsimp only at hmicros
  refine ⟨⟨f.micros, hrange⟩, ?_⟩
  by_contra hne
  rcases before_total hne with hbefore | hafter
  · exact absurd (micros_lt hvalid h hbefore) (by omega)
  · exact absurd (micros_lt h hvalid hafter) (by omega)

/-- **Texts compare like the datetimes they are of.** -/
theorem isoformat_lt_iff (t u : DateTime) : t.isoformat < u.isoformat ↔ t.micros < u.micros := by
  obtain ⟨ht, htm⟩ := t.fields_spec
  obtain ⟨hu, hum⟩ := u.fields_spec
  rw [String.lt_iff_toList_lt, DateTime.isoformat, DateTime.isoformat, String.toList_ofList, String.toList_ofList,
    text_lt_iff ht hu, ← htm, ← hum]
  constructor
  · exact micros_lt ht hu
  · intro hlt
    rcases before_total fun heq => Nat.ne_of_lt hlt (congrArg Fields.micros heq) with hbefore | hafter
    · exact hbefore
    · exact absurd (micros_lt hu ht hafter) (by omega)

theorem isoformat_le_iff (t u : DateTime) : t.isoformat ≤ u.isoformat ↔ t ≤ u := by
  rw [← not_lt, isoformat_lt_iff, not_lt, DateTime.le_iff]

end UtcTime
