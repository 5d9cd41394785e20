import Mathlib.Order.Basic
import Mathlib.Data.Rat.Floor
import Mathlib.Tactic.Ring
import Orchestrator.Exn

/-!
Clock readings: UTC instants with microseconds in the years 1 to 9999, the text
`datetime.isoformat` writes for them and `datetime.fromisoformat` on such texts.

`parseIso_nowIso` says that the text gives the instant back.
-/

namespace Orchestrator.Clock

/-- The microseconds of the years 1 to 9999. -/
def limit : ℕ := 3652059 * 86400000000

/-- An instant, as microseconds since the beginning of the year 1. -/
abbrev DateTime := {n : ℕ // n < limit}

lemma limit_pos : 0 < limit := by decide
lemma sampleTime_lt : 63892886400000000 < limit := by decide

lemma second_lt (n : Fin 1000) : n.1 * 1000000 < limit := by
  rw [limit]
  omega

instance minEqOrNat : Std.MinEqOr ℕ := inferInstance
instance maxEqOrNat : Std.MaxEqOr ℕ := inferInstance
instance neZeroThousand : NeZero 1000 := inferInstance

/-! ### The calendar -/

/-- The days before the year `y + 1`. -/
def daysBeforeYear (y : ℕ) : ℕ := 365 * y + y / 4 - y / 100 + y / 400

def isLeap (year : ℕ) : Bool := year % 4 = 0 && (year % 100 ≠ 0 || year % 400 = 0)

def monthLengths (year : ℕ) : List ℕ :=
  [31, if isLeap year then 29 else 28, 31, 30, 31, 30, 31, 31, 30, 31, 30, 31]

def daysBeforeMonth (year month : ℕ) : ℕ := ((monthLengths year).take (month - 1)).sum

/-- The year of a day and the days of that year before it. -/
def splitYear (day : ℕ) : ℕ × ℕ :=
  let a := day / 146097
  let r := day % 146097
  let b := min 3 (r / 36524)
  let r := r - b * 36524
  let c := r / 1461
  let r := r % 1461
  let d := min 3 (r / 365)
  (400 * a + 100 * b + 4 * c + d + 1, r - d * 365)

/-- The month and the day of the month, both from 1. -/
def splitMonth : List ℕ → ℕ → ℕ × ℕ
  | [], n => (1, n + 1)
  | k :: r, n =>
    if n < k then (1, n + 1) else ((splitMonth r (n - k)).1 + 1, (splitMonth r (n - k)).2)

lemma daysBeforeYear_cycles (a : ℕ) {b c d : ℕ} (hb : b ≤ 3) (hc : c ≤ 24) (hd : d ≤ 3) :
    daysBeforeYear (400 * a + 100 * b + 4 * c + d) = 146097 * a + 36524 * b + 1461 * c +
      365 * d := by
  have h4 : (400 * a + 100 * b + 4 * c + d) / 4 = 100 * a + 25 * b + c := by omega
  have h100 : (400 * a + 100 * b + 4 * c + d) / 100 = 4 * a + b := by omega
  have h400 : (400 * a + 100 * b + 4 * c + d) / 400 = a := by omega
  rw [daysBeforeYear, h4, h100, h400]
  omega

lemma daysBeforeYear_split (day : ℕ) :
    daysBeforeYear ((splitYear day).1 - 1) + (splitYear day).2 = day := by
  simp only [splitYear, Nat.add_sub_cancel]
  rw [daysBeforeYear_cycles _ (by omega) (by omega) (by omega)]
  omega

lemma splitYear_year {day : ℕ} (h : day < 3652059) :
    1 ≤ (splitYear day).1 ∧ (splitYear day).1 ≤ 9999 := by
  simp only [splitYear]
  omega

lemma monthLengths_sum (year : ℕ) : (monthLengths year).sum = if isLeap year then 366 else 365 := by
  cases h : isLeap year <;> simp [monthLengths, h]

lemma monthLengths_getD_le (year i : ℕ) : (monthLengths year).getD i 0 ≤ 31 := by
  have h : ∀ k ∈ monthLengths year, k ≤ 31 := by
    cases h : isLeap year <;> simp [monthLengths, h]
  rw [List.getD_eq_getElem?_getD]
  cases hi : (monthLengths year)[i]? with
  | none => simp
  | some k => exact h k (List.mem_of_getElem? hi)

lemma splitYear_lt (day : ℕ) : (splitYear day).2 < (monthLengths (splitYear day).1).sum := by
  rw [monthLengths_sum]
  by_cases h : (splitYear day).2 < 365
  · split <;> omega
  · -- only the last day of a leap year is left
    have hl : isLeap (splitYear day).1 = true := by
      simp only [isLeap, Bool.and_eq_true, decide_eq_true_eq, Bool.or_eq_true]
      simp only [splitYear] at h ⊢
      omega
    rw [if_pos hl]
    simp only [splitYear] at h ⊢
    omega

lemma splitMonth_spec {ls : List ℕ} {n : ℕ} (h : n < ls.sum) :
    1 ≤ (splitMonth ls n).1 ∧ (splitMonth ls n).1 ≤ ls.length ∧ 1 ≤ (splitMonth ls n).2 ∧
      (splitMonth ls n).2 ≤ ls.getD ((splitMonth ls n).1 - 1) 0 ∧
      (ls.take ((splitMonth ls n).1 - 1)).sum + ((splitMonth ls n).2 - 1) = n := by
  induction ls generalizing n with
  | nil => simp at h
  | cons k r ih =>
    rw [splitMonth]
    by_cases hk : n < k
    · simp only [hk, if_true, List.length_cons]
      exact ⟨by omega, by omega, by omega, by simpa using Nat.succ_le_of_lt hk, by simp⟩
    · rw [List.sum_cons] at h
      obtain ⟨h1, h2, h3, h4, h5⟩ := ih (n := n - k) (by omega)
      simp only [hk, if_false, List.length_cons]
      obtain ⟨j, hj⟩ : ∃ j, (splitMonth r (n - k)).1 = j + 1 := ⟨_, (Nat.sub_add_cancel h1).symm⟩
      rw [hj] at h1 h2 h4 h5 ⊢
      simp only [Nat.add_sub_cancel, List.getD_cons_succ, List.take_succ_cons,
        List.sum_cons] at h4 h5 ⊢
      exact ⟨by omega, by omega, h3, h4, by omega⟩

/-! ### Digits -/

def digitChar (n : ℕ) : Char := Char.ofNat (48 + n)

/-- The last `k` decimal digits of `n`. -/
def pad : ℕ → ℕ → List Char
  | 0, _ => []
  | k + 1, n => pad k (n / 10) ++ [digitChar (n % 10)]

def digitOf (c : Char) : Option ℕ :=
  if 48 ≤ c.toNat ∧ c.toNat ≤ 57 then some (c.toNat - 48) else none

/-- Read `k` digits after the digits of `acc`. -/
def readNum : ℕ → ℕ → List Char → Option (ℕ × List Char)
  | 0, acc, l => some (acc, l)
  | _ + 1, _, [] => none
  | k + 1, acc, c :: l => (digitOf c).bind fun d => readNum k (10 * acc + d) l

lemma digitOf_digitChar : ∀ d < 10, digitOf (digitChar d) = some d := by decide

lemma readNum_pad (k : ℕ) {j acc n : ℕ} (l : List Char) (h : n < 10 ^ k) :
    readNum (k + j) acc (pad k n ++ l) = readNum j (acc * 10 ^ k + n) l := by
  induction k generalizing j n l with
  | zero =>
    obtain rfl : n = 0 := by simpa using h
    simp [pad]
  | succ k ih =>
    have hk : n / 10 < 10 ^ k := by rw [pow_succ] at h; omega
    rw [pad, List.append_assoc, List.singleton_append, show k + 1 + j = k + (j + 1) by omega,
      ih _ hk, readNum, digitOf_digitChar _ (Nat.mod_lt _ (by omega)), Option.bind_some]
    congr 1
    rw [pow_succ]
    have := Nat.div_add_mod n 10
    linarith

/-! ### The text of an instant -/

structure Civil where
  year : ℕ
  month : ℕ
  day : ℕ
  hour : ℕ
  minute : ℕ
  second : ℕ
  microsecond : ℕ

def civil (t : DateTime) : Civil :=
  let s := t.1 / 1000000
  let y := splitYear (s / 86400)
  let m := splitMonth (monthLengths y.1) y.2
  ⟨y.1, m.1, m.2, s / 3600 % 24, s / 60 % 60, s % 60, t.1 % 1000000⟩

/-- `datetime.isoformat` -/
def isoChars (c : Civil) : List Char :=
  pad 4 c.year ++ '-' :: (pad 2 c.month ++ '-' :: (pad 2 c.day ++ 'T' :: (pad 2 c.hour ++
    ':' :: (pad 2 c.minute ++ ':' :: (pad 2 c.second ++
      ((if c.microsecond = 0 then [] else '.' :: pad 6 c.microsecond) ++ "+00:00".toList))))))

def nowIso (t : DateTime) : String := String.ofList (isoChars (civil t))

/-- The instant of seven fields in range, as the constructor of `datetime` checks them. -/
def ofCivil (c : Civil) : Option DateTime :=
  if 1 ≤ c.year ∧ 1 ≤ c.month ∧ c.month ≤ 12 ∧ 1 ≤ c.day ∧
      c.day ≤ (monthLengths c.year).getD (c.month - 1) 0 ∧ c.hour < 24 ∧ c.minute < 60 ∧
      c.second < 60 then
    let days := daysBeforeYear (c.year - 1) + (daysBeforeMonth c.year c.month + (c.day - 1))
    let n := (((days * 24 + c.hour) * 60 + c.minute) * 60 + c.second) * 1000000 + c.microsecond
    if h : n < limit then some ⟨n, h⟩ else none
  else none

def expect (c : Char) : List Char → Option (List Char)
  | [] => none
  | d :: l => if d = c then some l else none

def readFraction : List Char → Option (ℕ × List Char)
  | '.' :: l => readNum 6 0 l
  | l => some (0, l)

/-- The zone of UTC; `Z` is first replaced by `+00:00`. -/
def isZone (l : List Char) : Bool := l = "+00:00".toList || l = ['Z']

def inUtc (c : Civil) (l : List Char) : Option Civil := if isZone l then some c else none

lemma inUtc_utc (c : Civil) : inUtc c "+00:00".toList = some c := if_pos (by decide)

def readCivil (l : List Char) : Option Civil := do
  let (year, l) ← readNum 4 0 l
  let l ← expect '-' l
  let (month, l) ← readNum 2 0 l
  let l ← expect '-' l
  let (day, l) ← readNum 2 0 l
  let l ← expect 'T' l
  let (hour, l) ← readNum 2 0 l
  let l ← expect ':' l
  let (minute, l) ← readNum 2 0 l
  let l ← expect ':' l
  let (second, l) ← readNum 2 0 l
  let (microsecond, l) ← readFraction l
  inUtc ⟨year, month, day, hour, minute, second, microsecond⟩ l

/-- `parse_iso_datetime` on the texts `isoformat` writes for UTC, and on their `Z` form; other texts
that `fromisoformat` reads are none that the services write. -/
def parseIso (s : String) : Except Exn DateTime :=
  match (readCivil s.toList).bind ofCivil with
  | some t => .ok t
  | none => .error (.valueError "Invalid isoformat string")

lemma ofCivil_civil (t : DateTime) : ofCivil (civil t) = some t := by
  obtain ⟨n, hn⟩ := t
  have hd : n / 1000000 / 86400 < 3652059 := by simp only [limit] at hn; omega
  have hy := splitYear_year hd
  have hs := daysBeforeYear_split (n / 1000000 / 86400)
  obtain ⟨h1, h2, h3, h4, h5⟩ := splitMonth_spec (splitYear_lt (n / 1000000 / 86400))
  rw [ofCivil, if_pos ⟨hy.1, h1, h2, h3, h4, Nat.mod_lt _ (by omega), Nat.mod_lt _ (by omega),
    Nat.mod_lt _ (by omega)⟩]
  simp only [civil, daysBeforeMonth, h5, hs]
  have e : (((n / 1000000 / 86400 * 24 + n / 1000000 / 3600 % 24) * 60 +
    n / 1000000 / 60 % 60) * 60 +
      n / 1000000 % 60) * 1000000 + n % 1000000 = n := by omega
  simp only [e, hn, dite_true]

lemma readNum_field (k : ℕ) {n : ℕ} (l : List Char) (h : n < 10 ^ k) :
    readNum k 0 (pad k n ++ l) = some (n, l) := by
  have hr := @readNum_pad k 0 0 n l h
  rwa [Nat.add_zero, Nat.zero_mul, Nat.zero_add] at hr

lemma readFraction_text {n : ℕ} (h : n < 1000000) :
    readFraction ((if n = 0 then [] else '.' :: pad 6 n) ++ "+00:00".toList) =
      some (n, "+00:00".toList) := by
  by_cases h0 : n = 0
  · subst h0; rfl
  · rw [if_neg h0, List.cons_append, readFraction]
    exact readNum_field 6 _ h

lemma readCivil_isoChars {c : Civil} (hy : c.year < 10000) (hm : c.month < 100) (hd : c.day < 100)
    (hh : c.hour < 100) (hi : c.minute < 100) (hs : c.second < 100)
    (hu : c.microsecond < 1000000) : readCivil (isoChars c) = some c := by
  simp only [readCivil, isoChars, readNum_field 4 _ hy, readNum_field 2 _ hm, readNum_field 2 _ hd,
    readNum_field 2 _ hh, readNum_field 2 _ hi, readNum_field 2 _ hs, readFraction_text hu, expect,
    if_true, Option.bind_eq_bind, Option.bind_some, inUtc_utc]

/-- **The text of an instant gives the instant back.** -/
theorem parseIso_nowIso (t : DateTime) : parseIso (nowIso t) = .ok t := by
  have hc := ofCivil_civil t
  have h : 1 ≤ (civil t).year ∧ (civil t).month ≤ 12 ∧ (civil t).day ≤ 31 ∧ (civil t).hour < 24 ∧
      (civil t).minute < 60 ∧ (civil t).second < 60 := by
    rw [ofCivil] at hc
    split at hc
    · next h =>
      exact ⟨h.1, h.2.2.1, h.2.2.2.2.1.trans (monthLengths_getD_le _ _), h.2.2.2.2.2⟩
    · cases hc
  have hy : (civil t).year ≤ 9999 :=
    (splitYear_year (by have := t.2; simp only [limit] at this; omega)).2
  have hu : (civil t).microsecond < 1000000 := Nat.mod_lt _ (by omega)
  rw [parseIso, nowIso, String.toList_ofList, readCivil_isoChars (by omega) (by omega) (by omega)
    (by omega) (by omega) (by omega) hu, Option.bind_some, hc]

/-! ### Adding seconds -/

/-- Rounding to the nearest integer, halves to the even one. -/
def roundHalfEven (q : ℚ) : ℤ :=
  let n := q.floor
  let r := q - n
  if r < 1 / 2 then n else if 1 / 2 < r then n + 1 else if n % 2 = 0 then n else n + 1

/-- `t + timedelta(seconds=q)` -/
def addSeconds (t : DateTime) (q : ℚ) : Except Exn DateTime :=
  let n := t.1 + roundHalfEven (q * 1000000)
  if h : 0 ≤ n ∧ n.toNat < limit then .ok ⟨n.toNat, h.2⟩
  else .error (.overflowError "date value out of range")

/-- `seconds_between` -/
def secondsBetween (start stop : Option String) : Except Exn ℚ :=
  match start, stop with
  | some a, some b => do
    let t ← parseIso a
    let u ← parseIso b
    pure (((u.1 : ℤ) - t.1 : ℤ) / 1000000)
  | _, _ => .ok 0

lemma nowIso_ne_empty (t : DateTime) : nowIso t ≠ "" := by
  intro h
  have hparse := parseIso_nowIso t
  rw [h] at hparse
  cases hparse

example : nowIso ⟨63892886400000001, by decide⟩ = "2025-09-08T00:00:00.000001+00:00" := by decide

end Orchestrator.Clock
