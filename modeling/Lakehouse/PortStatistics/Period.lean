import Lakehouse.Library
import Lakehouse.Error
import Lakehouse.Common.Outcome
import Mathlib.Data.Int.ConditionallyCompleteOrder
import Mathlib.Order.Monotone.Basic
import Mathlib.Tactic.IntervalCases
/-!
# Periods

A period is a month of the calendar in UTC, named `YYYY-MM`. The months of
the years 1 to 9999 follow each other without a gap, so that every instant
before the last of them lies in exactly one period (`exists_unique_period`).
The month 9999-12 has no end the calendar can name, and is refused.
-/

namespace Lakehouse

namespace PortStatistics

variable (L : Library)

/-- `PERIOD_PATTERN.fullmatch(text)`. -/
def isPeriod : Text → Bool
  | [a, b, c, d, 0x2D, e, f] =>
    [a, b, c, d].all isDigit &&
      (e == 0x30 && (0x31 ≤ f && f ≤ 0x39) || e == 0x31 && (0x30 ≤ f && f ≤ 0x32))
  | _ => false

/-- `datetime(year, month, 1, tzinfo=UTC)`. -/
def firstOfMonth (year month : ℕ) : Except PyError ℤ :=
  if year = 0 ∨ 9999 < year then
    .error (.valueError (lit "year " ++ Text.ofNat year ++ lit " is out of range"))
  else .ok (IsoTime.daysFromCivil year month 1 * 86400000000)

/-- The first of the month that follows. -/
def firstOfNextMonth (year month : ℕ) : Except PyError ℤ :=
  if month = 12 then firstOfMonth (year + 1) 1 else firstOfMonth year (month + 1)

/-- `int(period[:4])`. -/
def yearOf (period : Text) : ℕ := digitsValue (period.take 4)

/-- `int(period[5:7])`. -/
def monthOf (period : Text) : ℕ := digitsValue ((period.drop 5).take 2)

/-- **`parse_period`**: the bounds of a month, the second one excluded. -/
def parsePeriod (period : Text) : Except PyError (ℤ × ℤ) :=
  if isPeriod period = false then
    .error (.valueError (lit "period " ++ L.reprText period ++ lit " must match YYYY-MM"))
  else do
    let start ← firstOfMonth (yearOf period) (monthOf period)
    let stop ← firstOfNextMonth (yearOf period) (monthOf period)
    return (start, stop)

/-- `_in_period`. -/
def inPeriod (instant start stop : ℤ) : Bool := start ≤ instant && instant < stop

/-- A period is closed at its start and open at its end. -/
theorem inPeriod_iff {instant start stop : ℤ} :
    inPeriod instant start stop = true ↔ start ≤ instant ∧ instant < stop := by
  simp [inPeriod]

/-! ## The months of the calendar -/

/-- The first instant of the months, counted from 0001-01. -/
def monthStart (k : ℕ) : ℤ := IsoTime.daysFromCivil (k / 12 + 1) (k % 12 + 1) 1 * 86400000000

/-- The months before 9999-12. -/
def monthCount : ℕ := 119987

/-- **The months start one after another.** -/
theorem monthStart_strictMono : StrictMono monthStart := by
  refine strictMono_nat_of_lt_succ fun k => ?_
  obtain ⟨q, r, hr, rfl⟩ : ∃ q r, r < 12 ∧ k = 12 * q + r :=
    ⟨k / 12, k % 12, Nat.mod_lt _ (by decide), by omega⟩
  have hdiv : (12 * q + r) / 12 = q := by omega
  have hmod : (12 * q + r) % 12 = r := by omega
  unfold monthStart
  refine mul_lt_mul_of_pos_right ?_ (by decide)
  rw [hdiv, hmod]
  by_cases hr11 : r = 11
  · rw [show (12 * q + r + 1) / 12 = q + 1 by omega, show (12 * q + r + 1) % 12 = 0 by omega, hr11]
    simp only [IsoTime.daysFromCivil]
    norm_num
  · rw [show (12 * q + r + 1) / 12 = q by omega, show (12 * q + r + 1) % 12 = r + 1 by omega]
    interval_cases r
    all_goals
      simp only [IsoTime.daysFromCivil]
      norm_num
    all_goals omega

/-- The month of an instant before the last one. -/
theorem exists_month {t : ℤ} (h0 : monthStart 0 ≤ t) (h : t < monthStart monthCount) :
    ∃ k < monthCount, monthStart k ≤ t ∧ t < monthStart (k + 1) := by
  have hex : ∃ k, t < monthStart k := ⟨_, h⟩
  obtain ⟨k, hk⟩ : ∃ k, Nat.find hex = k + 1 := by
    refine Nat.exists_eq_succ_of_ne_zero fun hz => ?_
    have hfind := Nat.find_spec hex
    rw [hz] at hfind
    omega
  refine ⟨k, ?_, ?_, hk ▸ Nat.find_spec hex⟩
  · have hle := Nat.find_min' hex h
    omega
  · exact not_lt.1 (Nat.find_min hex (by omega))

/-- There is only one. -/
theorem month_unique {t : ℤ} {j k : ℕ} (hj : monthStart j ≤ t ∧ t < monthStart (j + 1))
    (hk : monthStart k ≤ t ∧ t < monthStart (k + 1)) : j = k := by
  have hjk := monthStart_strictMono.lt_iff_lt.1 (hj.1.trans_lt hk.2)
  have hkj := monthStart_strictMono.lt_iff_lt.1 (hk.1.trans_lt hj.2)
  omega

/-! ## The texts of the periods -/

/-- The place of a month among the months. -/
def monthIndex (period : Text) : ℕ := 12 * (yearOf period - 1) + (monthOf period - 1)

variable {L} {p q : Text} {start stop t : ℤ}

/-- The shape of a period's text. -/
theorem exists_of_isPeriod (h : isPeriod p = true) : ∃ a b c d e f,
    p = [a, b, c, d, 0x2D, e, f] ∧ (∀ x ∈ [a, b, c, d], isDigit x = true) ∧
      (e = 0x30 ∧ 0x31 ≤ f ∧ f ≤ 0x39 ∨ e = 0x31 ∧ 0x30 ≤ f ∧ f ≤ 0x32) := by
  unfold isPeriod at h
  split at h
  · rename_i a b c d e f
    rw [Bool.and_eq_true, List.all_eq_true] at h
    exact ⟨a, b, c, d, e, f, rfl, h.1, by simpa using h.2⟩
  · cases h

/-- The year is the number of the first four digits. -/
theorem yearOf_eq (a b c d e f : ℕ) : yearOf [a, b, c, d, 0x2D, e, f] =
    1000 * (a - 0x30) + 100 * (b - 0x30) + 10 * (c - 0x30) + (d - 0x30) := by
  simp only [yearOf, digitsValue, List.take_succ_cons, List.take_zero, List.foldl_cons,
    List.foldl_nil]
  omega

/-- The month is the number of the last two digits. -/
theorem monthOf_eq (a b c d e f : ℕ) : monthOf [a, b, c, d, 0x2D, e, f] =
    10 * (e - 0x30) + (f - 0x30) := by
  simp [monthOf, digitsValue]

/-- A period's month is from one to twelve. -/
theorem monthOf_bounds (h : isPeriod p = true) : 1 ≤ monthOf p ∧ monthOf p ≤ 12 := by
  obtain ⟨a, b, c, d, e, f, rfl, -, hm⟩ := exists_of_isPeriod h
  rw [monthOf_eq]
  omega

/-- The text of a month is the only one. -/
theorem eq_of_monthIndex (hp : isPeriod p = true) (hq : isPeriod q = true) (hyp : yearOf p ≠ 0)
    (hyq : yearOf q ≠ 0) (h : monthIndex p = monthIndex q) : p = q := by
  have hmp := monthOf_bounds hp
  have hmq := monthOf_bounds hq
  have hyear : yearOf p = yearOf q := by
    unfold monthIndex at h
    omega
  have hmonth : monthOf p = monthOf q := by
    unfold monthIndex at h
    omega
  obtain ⟨a, b, c, d, e, f, rfl, hdig, hm⟩ := exists_of_isPeriod hp
  obtain ⟨a', b', c', d', e', f', rfl, hdig', hm'⟩ := exists_of_isPeriod hq
  rw [yearOf_eq, yearOf_eq] at hyear
  rw [monthOf_eq, monthOf_eq] at hmonth
  simp only [List.forall_mem_cons, isDigit, Bool.and_eq_true, decide_eq_true_eq,
    List.not_mem_nil, false_implies, implies_true, and_true] at hdig hdig'
  simp only [List.cons.injEq, and_true, true_and]
  omega

/-- The text of a month. -/
def periodText (k : ℕ) : Text :=
  let y := k / 12 + 1
  let m := k % 12 + 1
  [y / 1000 + 0x30, y / 100 % 10 + 0x30, y / 10 % 10 + 0x30, y % 10 + 0x30, 0x2D, m / 10 + 0x30,
    m % 10 + 0x30]

/-- The text of a month is the period of it. -/
theorem periodText_spec {k : ℕ} (h : k < monthCount) : isPeriod (periodText k) = true ∧
    yearOf (periodText k) ≠ 0 ∧ monthIndex (periodText k) = k := by
  unfold monthCount at h
  have hyear : yearOf (periodText k) = k / 12 + 1 := by
    rw [periodText, yearOf_eq]
    simp only [Nat.add_sub_cancel]
    omega
  have hmonth : monthOf (periodText k) = k % 12 + 1 := by
    rw [periodText, monthOf_eq]
    omega
  refine ⟨?_, ?_, ?_⟩
  · simp only [periodText, isPeriod, List.all_cons, List.all_nil, isDigit, Bool.and_eq_true,
      Bool.or_eq_true, decide_eq_true_eq, beq_iff_eq, and_true]
    omega
  · rw [hyear]
    omega
  · rw [monthIndex, hyear, hmonth]
    omega

/-- The first of a month is an instant in the years one to 9999. -/
theorem firstOfMonth_eq_ok {year month : ℕ} {us : ℤ} : firstOfMonth year month = .ok us ↔
    ¬(year = 0 ∨ 9999 < year) ∧ us = IsoTime.daysFromCivil year month 1 * 86400000000 := by
  rw [firstOfMonth, guard_eq_ok, Except.ok.injEq, eq_comm (a := us)]

/-- **The periods**: the months of the years 1 to 9999 but the last. -/
theorem parsePeriod_eq_ok : parsePeriod L p = .ok (start, stop) ↔
    isPeriod p = true ∧ yearOf p ≠ 0 ∧ monthIndex p < monthCount ∧
      start = monthStart (monthIndex p) ∧ stop = monthStart (monthIndex p + 1) := by
  unfold parsePeriod
  rw [guard_eq_ok, Bool.not_eq_false]
  refine and_congr_right fun hp => ?_
  have hm := monthOf_bounds hp
  have hyear : yearOf p ≤ 9999 := by
    obtain ⟨a, b, c, d, e, f, rfl, hdig, -⟩ := exists_of_isPeriod hp
    simp only [List.forall_mem_cons, isDigit, Bool.and_eq_true, decide_eq_true_eq,
      List.not_mem_nil, false_implies, implies_true, and_true] at hdig
    rw [yearOf_eq]
    omega
  have hindex : yearOf p ≠ 0 → monthIndex p / 12 + 1 = yearOf p ∧
      monthIndex p % 12 + 1 = monthOf p := fun hy => by
    unfold monthIndex
    omega
  rw [bind_eq_ok]
  simp only [bind_eq_ok, pure_eq_ok, Except.ok.injEq, Prod.mk.injEq, firstOfMonth_eq_ok]
  by_cases hy : yearOf p = 0
  · simp [hy]
  obtain ⟨hdiv, hmod⟩ := hindex hy
  have hstart : monthStart (monthIndex p) =
      IsoTime.daysFromCivil (yearOf p) (monthOf p) 1 * 86400000000 := by
    rw [monthStart, hdiv, hmod]
  have hnext : ∀ us, firstOfNextMonth (yearOf p) (monthOf p) = .ok us ↔
      monthIndex p < monthCount ∧ us = monthStart (monthIndex p + 1) := by
    intro us
    unfold firstOfNextMonth monthCount monthStart
    split_ifs with h12
    · rw [firstOfMonth_eq_ok, show (monthIndex p + 1) / 12 + 1 = yearOf p + 1 by omega,
        show (monthIndex p + 1) % 12 + 1 = 1 by omega]
      exact and_congr_left fun _ => by omega
    · rw [firstOfMonth_eq_ok, show (monthIndex p + 1) / 12 + 1 = yearOf p by omega,
        show (monthIndex p + 1) % 12 + 1 = monthOf p + 1 by omega]
      exact and_congr_left fun _ => by omega
  rw [hstart]
  constructor
  · rintro ⟨_, ⟨-, rfl⟩, _, hstop, rfl, rfl⟩
    exact ⟨hy, ((hnext _).1 hstop).1, rfl, ((hnext _).1 hstop).2⟩
  · rintro ⟨-, hlast, rfl, rfl⟩
    exact ⟨_, ⟨by omega, rfl⟩, _, (hnext _).2 ⟨hlast, rfl⟩, rfl, rfl⟩

/-- **A month's text is parsed to its bounds.** -/
theorem parsePeriod_periodText {k : ℕ} (h : k < monthCount) :
    parsePeriod L (periodText k) = .ok (monthStart k, monthStart (k + 1)) := by
  obtain ⟨hp, hy, hindex⟩ := periodText_spec h
  exact parsePeriod_eq_ok.2 ⟨hp, hy, by rwa [hindex], by rw [hindex], by rw [hindex]⟩

/-- **The periods**, the earliest first. -/
def periods : List Text := (List.range monthCount).map periodText

/-- The periods are the texts that parse. -/
theorem mem_periods : p ∈ periods ↔ ∃ bounds, parsePeriod L p = .ok bounds := by
  simp only [periods, List.mem_map, List.mem_range]
  constructor
  · rintro ⟨k, hk, rfl⟩
    exact ⟨_, parsePeriod_periodText hk⟩
  · rintro ⟨⟨start, stop⟩, h⟩
    obtain ⟨hp, hy, hk, -, -⟩ := parsePeriod_eq_ok.1 h
    obtain ⟨hp', hy', hindex⟩ := periodText_spec hk
    exact ⟨_, hk, eq_of_monthIndex hp' hp hy' hy hindex⟩

/-- **Every instant before 9999-12 lies in exactly one period.** -/
theorem exists_unique_period (h0 : monthStart 0 ≤ t) (h : t < monthStart monthCount) :
    ∃! p, ∃ start stop, parsePeriod L p = .ok (start, stop) ∧ inPeriod t start stop = true := by
  obtain ⟨k, hk, hkt⟩ := exists_month h0 h
  obtain ⟨hp, hy, hindex⟩ := periodText_spec hk
  refine ⟨periodText k, ⟨_, _, parsePeriod_periodText hk, inPeriod_iff.2 hkt⟩, ?_⟩
  rintro q ⟨start, stop, hq, hqt⟩
  obtain ⟨hperiod, hyq, -, rfl, rfl⟩ := parsePeriod_eq_ok.1 hq
  refine eq_of_monthIndex hperiod hp hyq hy ?_
  rw [hindex]
  exact month_unique (inPeriod_iff.1 hqt) hkt

end PortStatistics

end Lakehouse
