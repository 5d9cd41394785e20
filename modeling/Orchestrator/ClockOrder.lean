import Mathlib.Data.String.Basic
import Orchestrator.Clock

/-!
The order of the texts of clock readings: instants are ordered as their texts are, character by
character. So a comparison of two such texts, as the task store makes it, is one of the instants.
-/

namespace Orchestrator.Clock

/-! ### Fixed-width fields -/

lemma digitChar_lt : ∀ d < 10, ∀ e < 10, d < e → digitChar d < digitChar e := by decide

/-- A field that is less decides, whatever comes after it. -/
lemma pad_append_lt {k n m : ℕ} (hm : m < 10 ^ k) (h : n < m) (r r' : List Char) :
    pad k n ++ r < pad k m ++ r' := by
  induction k generalizing n m r r' with
  | zero =>
    rw [pow_zero] at hm
    omega
  | succ k ih =>
    have hmk : m / 10 < 10 ^ k := by rw [pow_succ] at hm; omega
    rw [pad, pad, List.append_assoc, List.append_assoc]
    rcases Nat.lt_or_ge (n / 10) (m / 10) with hlt | hge
    · exact ih hmk hlt _ _
    · -- the last digit decides
      have heq : n / 10 = m / 10 := by omega
      have hlast : n % 10 < m % 10 := by omega
      rw [heq]
      apply List.append_left_lt
      exact List.Lex.rel (digitChar_lt _ (Nat.mod_lt _ (by omega)) _
        (Nat.mod_lt _ (by omega)) hlast)

/-- One field and a separator: the field decides, or what comes after. -/
lemma field_lt {k n m : ℕ} (hm : m < 10 ^ k) (c : Char) {r r' : List Char}
    (h : n < m ∨ n = m ∧ r < r') : pad k n ++ c :: r < pad k m ++ c :: r' := by
  rcases h with h | ⟨rfl, h⟩
  · exact pad_append_lt hm h _ _
  · apply List.append_left_lt
    exact List.cons_lt_cons_iff.mpr (Or.inr ⟨rfl, h⟩)

/-- The fraction: a missing one is the least. -/
lemma fraction_lt {n m : ℕ} (hm : m < 1000000) (h : n < m) :
    (if n = 0 then [] else '.' :: pad 6 n) ++ "+00:00".toList <
      (if m = 0 then [] else '.' :: pad 6 m) ++ "+00:00".toList := by
  rw [if_neg (show m ≠ 0 by omega)]
  by_cases hn : n = 0
  · rw [if_pos hn]
    exact List.Lex.rel (by decide)
  · rw [if_neg hn]
    exact List.cons_lt_cons_iff.mpr (Or.inr ⟨rfl, pad_append_lt hm h _ _⟩)

/-! ### The calendar -/

/-- The fields of an earlier instant, in the order of the text. -/
def Civil.Before (c c' : Civil) : Prop :=
  c.year < c'.year ∨ c.year = c'.year ∧ (c.month < c'.month ∨ c.month = c'.month ∧
    (c.day < c'.day ∨ c.day = c'.day ∧ (c.hour < c'.hour ∨ c.hour = c'.hour ∧
      (c.minute < c'.minute ∨ c.minute = c'.minute ∧ (c.second < c'.second ∨ c.second = c'.second ∧
        c.microsecond < c'.microsecond)))))

lemma daysBeforeYear_succ (y : ℕ) :
    daysBeforeYear (y + 1) = daysBeforeYear y + (monthLengths (y + 1)).sum := by
  have h4 : (y + 1) / 4 = y / 4 + if (y + 1) % 4 = 0 then 1 else 0 := by split <;> omega
  have h100 : (y + 1) / 100 = y / 100 + if (y + 1) % 100 = 0 then 1 else 0 := by split <;> omega
  have h400 : (y + 1) / 400 = y / 400 + if (y + 1) % 400 = 0 then 1 else 0 := by split <;> omega
  have hle : y / 100 ≤ y / 4 := by omega
  have hleap : isLeap (y + 1) =
      decide ((y + 1) % 4 = 0 ∧ ((y + 1) % 100 ≠ 0 ∨ (y + 1) % 400 = 0)) := by
    simp [isLeap]
  have h : (y + 1) % 400 = 0 → (y + 1) % 100 = 0 := by omega
  have h' : (y + 1) % 100 = 0 → (y + 1) % 4 = 0 := by omega
  rw [monthLengths_sum, daysBeforeYear, daysBeforeYear, h4, h100, h400, hleap]
  by_cases hc4 : (y + 1) % 4 = 0
  · by_cases hc100 : (y + 1) % 100 = 0
    · by_cases hc400 : (y + 1) % 400 = 0
      · simp only [hc4, hc100, hc400, if_true, and_self, or_true, decide_true]
        omega
      · simp only [hc4, hc100, hc400, if_true, if_false, ne_eq, not_true, or_self, and_false,
          decide_false, Bool.false_eq_true]
        omega
    · have hc400 : (y + 1) % 400 ≠ 0 := fun hc => hc100 (h hc)
      simp only [hc4, hc100, hc400, if_true, if_false, ne_eq, not_false_eq_true, true_or, and_self,
        decide_true]
      omega
  · have hc100 : (y + 1) % 100 ≠ 0 := fun hc => hc4 (h' hc)
    have hc400 : (y + 1) % 400 ≠ 0 := fun hc => hc100 (h hc)
    simp only [hc4, hc100, hc400, if_false, false_and, decide_false, Bool.false_eq_true]
    omega

lemma daysBeforeYear_mono {y y' : ℕ} (h : y ≤ y') : daysBeforeYear y ≤ daysBeforeYear y' := by
  have hmono : Monotone daysBeforeYear := by
    refine monotone_nat_of_le_succ fun y => ?_
    rw [daysBeforeYear_succ]
    omega
  exact hmono h

/-- A later day is in a later year, or later in the same year. -/
lemma splitYear_mono {day day' : ℕ} (h : day < day') :
    (splitYear day).1 < (splitYear day').1 ∨
      (splitYear day).1 = (splitYear day').1 ∧ (splitYear day).2 < (splitYear day').2 := by
  have hday := daysBeforeYear_split day
  have hday' := daysBeforeYear_split day'
  have hpos : ∀ d, 1 ≤ (splitYear d).1 := fun d => by simp only [splitYear]; omega
  have hlt := splitYear_lt day'
  rcases Nat.lt_trichotomy (splitYear day).1 (splitYear day').1 with hy | hy | hy
  · exact Or.inl hy
  · rw [hy] at hday
    exact Or.inr ⟨hy, by omega⟩
  · -- then `day'` is over before the year of `day` begins
    have hsucc := daysBeforeYear_succ ((splitYear day').1 - 1)
    rw [Nat.sub_add_cancel (hpos day')] at hsucc
    have hmono : daysBeforeYear (splitYear day').1 ≤ daysBeforeYear ((splitYear day).1 - 1) :=
      daysBeforeYear_mono (by omega)
    omega

/-- A later day of a year is in a later month, or later in the same month. -/
lemma splitMonth_mono {l : List ℕ} {n n' : ℕ} (h : n < n') :
    (splitMonth l n).1 < (splitMonth l n').1 ∨
      (splitMonth l n).1 = (splitMonth l n').1 ∧ (splitMonth l n).2 < (splitMonth l n').2 := by
  induction l generalizing n n' with
  | nil => exact Or.inr ⟨rfl, Nat.succ_lt_succ h⟩
  | cons k r ih =>
    rw [splitMonth, splitMonth]
    by_cases hk : n < k
    · by_cases hk' : n' < k
      · rw [if_pos hk, if_pos hk']
        exact Or.inr ⟨rfl, Nat.succ_lt_succ h⟩
      · have hpos : 1 ≤ (splitMonth r (n' - k)).1 := by
          cases r with
          | nil => simp [splitMonth]
          | cons j r =>
            rw [splitMonth]
            split <;> simp
        simp only [if_pos hk, if_neg hk']
        omega
    · have hk' : ¬n' < k := by omega
      simp only [if_neg hk, if_neg hk']
      have hlt : n - k < n' - k := by omega
      have hrest := ih hlt
      omega

/-- A later instant has later fields. -/
lemma civil_before {t u : DateTime} (h : t < u) : (civil t).Before (civil u) := by
  obtain ⟨n, hn⟩ := t
  obtain ⟨m, hm⟩ := u
  have hlt : n < m := h
  simp only [Civil.Before, civil]
  rcases Nat.lt_or_ge (n / 1000000 / 86400) (m / 1000000 / 86400) with hday | hday
  · rcases splitYear_mono hday with hyear | ⟨hyear, hrest⟩
    · exact Or.inl hyear
    · refine Or.inr ⟨hyear, ?_⟩
      rw [hyear]
      rcases splitMonth_mono (l := monthLengths (splitYear (m / 1000000 / 86400)).1) hrest with
        hmonth | ⟨hmonth, hd⟩
      · exact Or.inl hmonth
      · exact Or.inr ⟨hmonth, Or.inl hd⟩
  · -- the same day: the time of day decides
    have heq : n / 1000000 / 86400 = m / 1000000 / 86400 := by omega
    rw [heq]
    refine Or.inr ⟨rfl, Or.inr ⟨rfl, Or.inr ⟨rfl, ?_⟩⟩⟩
    omega

lemma civil_bounds (t : DateTime) : (civil t).year < 10 ^ 4 ∧ (civil t).month < 10 ^ 2 ∧
    (civil t).day < 10 ^ 2 ∧ (civil t).hour < 10 ^ 2 ∧ (civil t).minute < 10 ^ 2 ∧
    (civil t).second < 10 ^ 2 ∧ (civil t).microsecond < 1000000 := by
  have hc := ofCivil_civil t
  have hy : (civil t).year ≤ 9999 :=
    (splitYear_year (by have := t.2; simp only [limit] at this; omega)).2
  have hu : (civil t).microsecond < 1000000 := Nat.mod_lt _ (by omega)
  rw [ofCivil] at hc
  split at hc
  · next h =>
    have hd := h.2.2.2.2.1.trans (monthLengths_getD_le _ _)
    omega
  · cases hc

lemma isoChars_lt {c c' : Civil} (hy : c'.year < 10 ^ 4) (hm : c'.month < 10 ^ 2)
    (hd : c'.day < 10 ^ 2) (hh : c'.hour < 10 ^ 2) (hi : c'.minute < 10 ^ 2)
    (hs : c'.second < 10 ^ 2) (hu : c'.microsecond < 1000000) (h : c.Before c') :
    isoChars c < isoChars c' := by
  refine field_lt hy '-' (h.imp_right (And.imp_right fun h => ?_))
  refine field_lt hm '-' (h.imp_right (And.imp_right fun h => ?_))
  refine field_lt hd 'T' (h.imp_right (And.imp_right fun h => ?_))
  refine field_lt hh ':' (h.imp_right (And.imp_right fun h => ?_))
  refine field_lt hi ':' (h.imp_right (And.imp_right fun h => ?_))
  rcases h with h | ⟨h, hmicro⟩
  · exact pad_append_lt hs h _ _
  · rw [h]
    apply List.append_left_lt
    exact fraction_lt hu hmicro

/-- **The texts of instants are ordered as the instants are.** -/
theorem nowIso_lt_iff (t u : DateTime) : nowIso t < nowIso u ↔ t < u := by
  have hlt : ∀ {t u : DateTime}, t < u → nowIso t < nowIso u := by
    intro t u h
    obtain ⟨hy, hm, hd, hh, hi, hs, hu⟩ := civil_bounds u
    rw [String.lt_iff_toList_lt, nowIso, nowIso, String.toList_ofList, String.toList_ofList]
    exact isoChars_lt hy hm hd hh hi hs hu (civil_before h)
  constructor
  · intro h
    rcases lt_trichotomy t u with htu | rfl | hut
    · exact htu
    · exact absurd h (lt_irrefl _)
    · exact absurd (hlt hut) (lt_asymm h)
  · exact hlt

lemma nowIso_le_iff (t u : DateTime) : nowIso t ≤ nowIso u ↔ t ≤ u := by
  rw [← not_lt, ← not_lt, nowIso_lt_iff]

lemma nowIso_injective : Function.Injective nowIso := by
  intro t u h
  have hparse := parseIso_nowIso t
  rw [h, parseIso_nowIso, Except.ok.injEq] at hparse
  exact hparse.symm

/-- **The texts stand for the instants**: they compare as the instants do, also where one has a
fraction and the other has none, and each gives its instant back. -/
theorem nowIso_faithful (t u : DateTime) :
    (nowIso t < nowIso u ↔ t < u) ∧ (nowIso t = nowIso u ↔ t = u) ∧ parseIso (nowIso t) = .ok t :=
  ⟨nowIso_lt_iff t u, nowIso_injective.eq_iff, parseIso_nowIso t⟩

end Orchestrator.Clock
