import Mathlib.Data.Nat.Find
import Mathlib.Data.String.Basic
import Mathlib.Tactic.Ring
import Agregator.BookPages
/-!
# GoStamp — the texts of instants

`Format(time.RFC3339)` of an instant in UTC: its date, the time of day to the second, and a `Z`.  An instant counts the
microseconds from the first of January of year 0.  Up to year 9999 the order of the texts is that of the seconds
(`rfc3339_lt`).
-/
namespace Agregator

/-! ## Dates by their number -/

namespace Date

/-- The days of a year before the first of a month. -/
def daysBefore (y m : ℕ) : ℕ := ((List.range (m - 1)).map fun i => daysIn y (i + 1)).sum

/-- The days before the first of January of a year. -/
def yearStart (y : ℕ) : ℕ := 365 * y + (y + 3) / 4 - (y + 99) / 100 + (y + 399) / 400

def yearOf (n : ℕ) : ℕ := Nat.findGreatest (fun y => yearStart y ≤ n) (n / 365)

def monthOf (y k : ℕ) : ℕ := Nat.findGreatest (fun m => daysBefore y m ≤ k) 12

/-- `t.Date()`. -/
def ofDayNumber (n : ℕ) : Date :=
  let y := yearOf n
  let m := monthOf y (n - yearStart y)
  ⟨y, m, n - yearStart y - daysBefore y m + 1⟩

theorem dayNumber_eq (d : Date) : d.dayNumber = yearStart d.year + daysBefore d.year d.month + (d.day - 1) := rfl

theorem yearStart_le (n : ℕ) : yearStart (yearOf n) ≤ n :=
  Nat.findGreatest_spec (P := fun y => yearStart y ≤ n) (Nat.zero_le _) (by simp [yearStart])

/-- The leap years of a period come and go one by one. -/
theorem roundUp_succ (y k : ℕ) (hk : 0 < k) : (y + 1 + (k - 1)) / k = (y + (k - 1)) / k + if y % k = 0 then 1 else 0 := by
  rw [show y + 1 + (k - 1) = y + (k - 1) + 1 by omega, Nat.succ_div, show y + (k - 1) + 1 = y + k by omega]
  simp only [Nat.dvd_iff_mod_eq_zero, Nat.add_mod_right]

/-- A year has 365 or 366 days. -/
theorem yearStart_succ (y : ℕ) : yearStart (y + 1) = yearStart y + 365 + (if isLeap y then 1 else 0) := by
  have h4 := roundUp_succ y 4 (by decide)
  have h100 := roundUp_succ y 100 (by decide)
  have h400 := roundUp_succ y 400 (by decide)
  have hle : (y + 99) / 100 ≤ y := by omega
  have hmod : y % 100 = 0 → y % 4 = 0 := fun h => by omega
  have hmod' : y % 400 = 0 → y % 100 = 0 := fun h => by omega
  simp only [Nat.add_one_sub_one] at h4 h100 h400
  simp only [yearStart, isLeap, Bool.and_eq_true, Bool.or_eq_true, bne_iff_ne, beq_iff_eq]
  rw [h4, h100, h400]
  generalize (y + 3) / 4 = a
  generalize (y + 99) / 100 = b at hle
  generalize (y + 399) / 400 = c
  by_cases hy4 : y % 4 = 0
  · by_cases hy100 : y % 100 = 0
    · by_cases hy400 : y % 400 = 0
      · simp only [hy4, hy100, hy400, if_true, ne_eq, not_true_eq_false, or_true, and_true]
        omega
      · simp only [hy4, hy100, hy400, if_true, if_false, ne_eq, not_true_eq_false, or_self, and_false]
        omega
    · have hy400 : y % 400 ≠ 0 := fun h => hy100 (hmod' h)
      simp only [hy4, hy100, hy400, if_true, if_false, ne_eq, not_false_eq_true, true_or, and_true]
      omega
  · have hy100 : y % 100 ≠ 0 := fun h => hy4 (hmod h)
    have hy400 : y % 400 ≠ 0 := fun h => hy100 (hmod' h)
    simp only [hy4, hy100, hy400, if_false, false_and]
    omega

theorem lt_yearStart_succ (n : ℕ) : n < yearStart (yearOf n + 1) := by
  by_cases hle : yearOf n + 1 ≤ n / 365
  · exact not_le.1 (Nat.findGreatest_is_greatest (P := fun y => yearStart y ≤ n) (Nat.lt_succ_self _) hle)
  · have hstart : 365 * (yearOf n + 1) ≤ yearStart (yearOf n + 1) := by
      unfold yearStart
      omega
    omega

theorem daysBefore_thirteen (y : ℕ) : daysBefore y 13 = 365 + (if isLeap y then 1 else 0) := by
  by_cases h : isLeap y = true
  · simp [daysBefore, daysIn, List.range_succ, h]
  · simp [daysBefore, daysIn, List.range_succ, h]

theorem daysBefore_succ (y m : ℕ) (hm : 1 ≤ m) : daysBefore y (m + 1) = daysBefore y m + daysIn y m := by
  obtain ⟨k, rfl⟩ : ∃ k, m = k + 1 := ⟨m - 1, by omega⟩
  simp [daysBefore, List.range_succ]

theorem daysIn_le (y m : ℕ) : daysIn y m ≤ 31 := by
  unfold daysIn
  grind

variable {y k : ℕ}

theorem monthOf_pos : 1 ≤ monthOf y k := Nat.le_findGreatest (by decide) (by simp [daysBefore])

theorem monthOf_le : monthOf y k ≤ 12 := Nat.findGreatest_le 12

theorem daysBefore_monthOf : daysBefore y (monthOf y k) ≤ k :=
  Nat.findGreatest_spec (P := fun m => daysBefore y m ≤ k) (show 1 ≤ 12 by decide) (by simp [daysBefore])

theorem lt_daysBefore_succ (hk : k < daysBefore y 13) : k < daysBefore y (monthOf y k + 1) := by
  by_cases h : monthOf y k + 1 ≤ 12
  · exact not_le.1 (Nat.findGreatest_is_greatest (P := fun m => daysBefore y m ≤ k) (Nat.lt_succ_self _) h)
  · have hle : monthOf y k ≤ 12 := monthOf_le
    rw [show monthOf y k = 12 by omega]
    exact hk

variable {n n' : ℕ}

theorem sub_yearStart_lt : n - yearStart (yearOf n) < daysBefore (yearOf n) 13 := by
  have hlt := lt_yearStart_succ n
  rw [yearStart_succ] at hlt
  rw [daysBefore_thirteen]
  have hle := yearStart_le n
  omega

theorem ofDayNumber_day : (ofDayNumber n).day - 1 = n - yearStart (yearOf n) - daysBefore (yearOf n) (ofDayNumber n).month := by
  simp only [ofDayNumber, Nat.add_sub_cancel]

/-- **The date of a number has that number.** -/
theorem dayNumber_ofDayNumber : (ofDayNumber n).dayNumber = n := by
  have hyear := yearStart_le n
  have hmonth : daysBefore (yearOf n) (monthOf (yearOf n) (n - yearStart (yearOf n))) ≤ n - yearStart (yearOf n) := daysBefore_monthOf
  rw [dayNumber_eq, ofDayNumber_day]
  simp only [ofDayNumber]
  omega

theorem ofDayNumber_month : 1 ≤ (ofDayNumber n).month ∧ (ofDayNumber n).month ≤ 12 := by
  simp only [ofDayNumber]
  exact ⟨monthOf_pos, monthOf_le⟩

theorem ofDayNumber_day_le : 1 ≤ (ofDayNumber n).day ∧ (ofDayNumber n).day ≤ daysIn (ofDayNumber n).year (ofDayNumber n).month := by
  have hmonth : daysBefore (yearOf n) (monthOf (yearOf n) (n - yearStart (yearOf n))) ≤ n - yearStart (yearOf n) := daysBefore_monthOf
  have hnext := lt_daysBefore_succ (sub_yearStart_lt (n := n))
  rw [daysBefore_succ _ _ monthOf_pos] at hnext
  simp only [ofDayNumber]
  omega

theorem yearOf_mono (h : n ≤ n') : yearOf n ≤ yearOf n' :=
  Nat.findGreatest_mono (fun _ hy => hy.trans h) (Nat.div_le_div_right h)

theorem monthOf_mono {k' : ℕ} (h : k ≤ k') : monthOf y k ≤ monthOf y k' := Nat.findGreatest_mono_left (fun _ hm => hm.trans h) 12

theorem yearOf_lt (h : n < yearStart 10000) : yearOf n < 10000 := by
  by_contra hc
  have hle : yearStart 10000 ≤ yearStart (yearOf n) := by
    unfold yearStart
    omega
  have := yearStart_le n
  omega

end Date

/-! ## The order of digits -/

/-- What digits after a number make of it. -/
theorem ofDigitChars_bounds : ∀ (ds : List Char) (a : ℕ), (∀ c ∈ ds, c.isDigit = true) →
    a * 10 ^ ds.length ≤ Nat.ofDigitChars 10 ds a ∧ Nat.ofDigitChars 10 ds a < (a + 1) * 10 ^ ds.length
  | [], a, _ => by simp
  | c :: ds, a, h => by
    obtain ⟨hlo, hhi⟩ := ofDigitChars_bounds ds (10 * a + (c.toNat - '0'.toNat)) fun d hd => h d (List.mem_cons_of_mem _ hd)
    have hc : c.toNat - '0'.toNat ≤ 9 := by
      have hdig := h c List.mem_cons_self
      simp only [Char.isDigit, Bool.and_eq_true, decide_eq_true_eq] at hdig
      have h9 : c.toNat ≤ 57 := hdig.2
      show c.toNat - 48 ≤ 9
      omega
    rw [Nat.ofDigitChars_cons, List.length_cons, pow_succ]
    generalize c.toNat - '0'.toNat = d at hc hlo hhi
    generalize 10 ^ ds.length = k at hlo hhi
    constructor
    · calc a * (k * 10) = 10 * a * k := by ring
        _ ≤ (10 * a + d) * k := Nat.mul_le_mul_right k (Nat.le_add_right _ d)
        _ ≤ _ := hlo
    · calc _ < (10 * a + d + 1) * k := hhi
        _ ≤ (10 * (a + 1)) * k := Nat.mul_le_mul_right k (by omega)
        _ = (a + 1) * (k * 10) := by ring

/-- **Digits of one number of places stand in the order of their numbers.** -/
theorem digits_lt {r r' : List Char} : ∀ (ds ds' : List Char) (a : ℕ), ds.length = ds'.length → (∀ c ∈ ds, c.isDigit = true) →
    (∀ c ∈ ds', c.isDigit = true) → Nat.ofDigitChars 10 ds a < Nat.ofDigitChars 10 ds' a → ds ++ r < ds' ++ r'
  | [], [], a, _, _, _, h => by simp at h
  | c :: ds, c' :: ds', a, hlen, hd, hd', h => by
    rw [List.length_cons, List.length_cons, Nat.succ_inj] at hlen
    have hds : ∀ c ∈ ds, c.isDigit = true := fun d hd' => hd d (List.mem_cons_of_mem _ hd')
    have hds' : ∀ c ∈ ds', c.isDigit = true := fun d hd => hd' d (List.mem_cons_of_mem _ hd)
    rw [Nat.ofDigitChars_cons, Nat.ofDigitChars_cons] at h
    rw [List.cons_append, List.cons_append, List.cons_lt_cons_iff]
    rcases lt_trichotomy c c' with hc | rfl | hc
    · exact .inl hc
    · exact .inr ⟨rfl, digits_lt ds ds' _ hlen hds hds' h⟩
    · exfalso
      have hlo := (ofDigitChars_bounds ds (10 * a + (c.toNat - '0'.toNat)) hds).1
      have hhi := (ofDigitChars_bounds ds' (10 * a + (c'.toNat - '0'.toNat)) hds').2
      have hdig := hd' c' List.mem_cons_self
      simp only [Char.isDigit, Bool.and_eq_true, decide_eq_true_eq] at hdig
      have h0 : 48 ≤ c'.toNat := hdig.1
      have hlt : c'.toNat < c.toNat := hc
      have hstep : 10 * a + (c'.toNat - '0'.toNat) + 1 ≤ 10 * a + (c.toNat - '0'.toNat) := by
        show 10 * a + (c'.toNat - 48) + 1 ≤ 10 * a + (c.toNat - 48)
        omega
      rw [← hlen] at hhi
      have := Nat.mul_le_mul_right (10 ^ ds.length) hstep
      omega

theorem padded_digits (w n : ℕ) : ∀ c ∈ (padded w n).toList, c.isDigit = true := by
  intro c hc
  simp only [padded, String.toList_append, String.toList_ofList, List.mem_append] at hc
  rcases hc with hc | hc
  · rw [List.eq_of_mem_replicate hc]
    rfl
  · rw [show (toString n).toList = Nat.toDigits 10 n by simp] at hc
    exact Nat.isDigit_of_mem_toDigits (by decide) (by decide) hc

/-- Numbers of one width stand in their order, whatever comes after them. -/
theorem padded_lt {w n n' : ℕ} (r r' : List Char) (hw : 0 < w) (hlt : n < n') (hn : n' < 10 ^ w) :
    (padded w n).toList ++ r < (padded w n').toList ++ r' := by
  obtain ⟨hval, hlen⟩ := digitsVal_padded w n hw (hlt.trans hn)
  obtain ⟨hval', hlen'⟩ := digitsVal_padded w n' hw hn
  have hd : (padded w n).toList.all Char.isDigit = true := List.all_eq_true.2 (padded_digits w n)
  have hd' : (padded w n').toList.all Char.isDigit = true := List.all_eq_true.2 (padded_digits w n')
  rw [digitsVal, if_pos hd, Option.some.injEq] at hval
  rw [digitsVal, if_pos hd', Option.some.injEq] at hval'
  have hnum : Nat.ofDigitChars 10 (padded w n).toList 0 < Nat.ofDigitChars 10 (padded w n').toList 0 := by
    calc _ = n := hval
      _ < n' := hlt
      _ = _ := hval'.symm
  exact digits_lt _ _ 0 (hlen.trans hlen'.symm) (padded_digits w n) (padded_digits w n') hnum

/-! ## The texts of instants -/

/-- The second of an instant. -/
def second (t : Time) : ℕ := (t / 1000000).toNat

/-- `Format(time.RFC3339)` of an instant in UTC. -/
def rfc3339 (t : Time) : String :=
  let s := second t
  (Date.ofDayNumber (s / 86400)).string ++ "T" ++ padded 2 (s / 3600 % 24) ++ ":" ++ padded 2 (s / 60 % 60) ++ ":" ++
    padded 2 (s % 60) ++ "Z"

/-- An instant of a year of at most four digits. -/
def Stamped (t : Time) : Prop := 0 ≤ t ∧ second t < Date.yearStart 10000 * 86400

instance (t : Time) : Decidable (Stamped t) := inferInstanceAs (Decidable (_ ∧ _))

example : rfc3339 63901922645000000 = "2024-12-20T14:04:05Z" := by decide

theorem Date.string_toList (d : Date) (r : List Char) : d.string.toList ++ r =
    (padded 4 d.year).toList ++ ('-' :: ((padded 2 d.month).toList ++ ('-' :: ((padded 2 d.day).toList ++ r)))) := by
  simp [Date.string]

/-- Dates stand in their order, whatever comes after them. -/
theorem Date.string_lt {n n' : ℕ} (r r' : List Char) (hlt : n < n') (hn : n' < Date.yearStart 10000) :
    (Date.ofDayNumber n).string.toList ++ r < (Date.ofDayNumber n').string.toList ++ r' := by
  have hyear : (ofDayNumber n).year ≤ (ofDayNumber n').year := yearOf_mono hlt.le
  have hy : (ofDayNumber n').year < 10000 := yearOf_lt hn
  have hm := (ofDayNumber_month (n := n')).2
  have hd := (ofDayNumber_day_le (n := n')).2.trans (daysIn_le _ _)
  rw [string_toList, string_toList]
  rcases hyear.lt_or_eq with hyear | hyear
  · exact padded_lt _ _ (by decide) hyear (by omega)
  · have hmonth : (ofDayNumber n).month ≤ (ofDayNumber n').month := by
      have hsame : yearOf n = yearOf n' := hyear
      simp only [ofDayNumber, hsame]
      exact monthOf_mono (Nat.sub_le_sub_right hlt.le _)
    rw [hyear]
    apply List.append_left_lt
    rw [List.cons_lt_cons_iff]
    refine .inr ⟨rfl, ?_⟩
    rcases hmonth.lt_or_eq with hmonth | hmonth
    · exact padded_lt _ _ (by decide) hmonth (by omega)
    · rw [hmonth]
      apply List.append_left_lt
      rw [List.cons_lt_cons_iff]
      refine .inr ⟨rfl, padded_lt _ _ (by decide) ?_ (by omega)⟩
      -- of two days of one month the later one has the greater number
      have hnum := dayNumber_ofDayNumber (n := n)
      have hnum' := dayNumber_ofDayNumber (n := n')
      have hpos := (ofDayNumber_day_le (n := n)).1
      rw [dayNumber_eq, hyear, hmonth] at hnum
      rw [dayNumber_eq] at hnum'
      omega

theorem rfc3339_toList (t : Time) : (rfc3339 t).toList = (Date.ofDayNumber (second t / 86400)).string.toList ++
    ('T' :: ((padded 2 (second t / 3600 % 24)).toList ++ (':' :: ((padded 2 (second t / 60 % 60)).toList ++
      (':' :: ((padded 2 (second t % 60)).toList ++ ['Z'])))))) := by
  simp [rfc3339]

/-- **The texts of instants stand in the order of their seconds.** -/
theorem rfc3339_lt {t u : Time} (hu : Stamped u) (h : second t < second u) : rfc3339 t < rfc3339 u := by
  have hbound := hu.2
  rw [String.lt_iff, rfc3339_toList, rfc3339_toList]
  generalize second t = s at h
  generalize second u = s' at h hbound
  by_cases hday : s / 86400 < s' / 86400
  · exact Date.string_lt _ _ hday (by omega)
  have hday : s / 86400 = s' / 86400 := by omega
  rw [hday]
  apply List.append_left_lt
  rw [List.cons_lt_cons_iff]
  refine .inr ⟨rfl, ?_⟩
  by_cases hhour : s / 3600 % 24 < s' / 3600 % 24
  · exact padded_lt _ _ (by decide) hhour (by omega)
  have hhour : s / 3600 % 24 = s' / 3600 % 24 := by omega
  rw [hhour]
  apply List.append_left_lt
  rw [List.cons_lt_cons_iff]
  refine .inr ⟨rfl, ?_⟩
  by_cases hmin : s / 60 % 60 < s' / 60 % 60
  · exact padded_lt _ _ (by decide) hmin (by omega)
  have hmin : s / 60 % 60 = s' / 60 % 60 := by omega
  rw [hmin]
  apply List.append_left_lt
  rw [List.cons_lt_cons_iff]
  exact .inr ⟨rfl, padded_lt _ _ (by decide) (by omega) (by omega)⟩

/-- Instants of one second have one text, and instants of different seconds have not. -/
theorem rfc3339_inj {t u : Time} (ht : Stamped t) (hu : Stamped u) : rfc3339 t = rfc3339 u ↔ second t = second u := by
  constructor
  · intro h
    rcases lt_trichotomy (second t) (second u) with hlt | heq | hgt
    · exact absurd h (rfc3339_lt hu hlt).ne
    · exact heq
    · exact absurd h (rfc3339_lt ht hgt).ne'
  · intro h
    unfold rfc3339
    rw [h]

theorem second_mono {t u : Time} (h : t ≤ u) : second t ≤ second u :=
  Int.toNat_le_toNat (Int.ediv_le_ediv (by decide) h)

end Agregator
