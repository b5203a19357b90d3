import Lakehouse.Common.Decimal
import Lakehouse.Library
/-!
# The text of an instant

The ISO text of an instant says which instant it is: its fields have fixed
widths, and a date of the calendar is one number of days.
-/

namespace Lakehouse

namespace IsoTime

/-! ## Fields -/

theorem padded_digits {k n : ℕ} (hk : 0 < k) (hn : n < 10 ^ k) :
    Numeral.Digits (padded k n) ∧ digitsValue (padded k n) = n ∧ (padded k n).length = k :=
  Decimal.padded_spec hk hn

/-- **A field of fixed width** can be cut off and read. -/
theorem padded_append_inj {k n m : ℕ} (hk : 0 < k) (hn : n < 10 ^ k) (hm : m < 10 ^ k)
    {t t' : Text} (h : padded k n ++ t = padded k m ++ t') : n = m ∧ t = t' := by
  obtain ⟨-, hvn, hln⟩ := padded_digits hk hn
  obtain ⟨-, hvm, hlm⟩ := padded_digits hk hm
  obtain ⟨hfield, hrest⟩ := List.append_inj h (hln.trans hlm.symm)
  refine ⟨?_, hrest⟩
  rw [← hvn, ← hvm, hfield]

theorem isScalar_padded {k n : ℕ} (hk : 0 < k) (hn : n < 10 ^ k) : (padded k n).IsScalar :=
  fun c hc => scalar_of_isDigit ((padded_digits hk hn).1.2 c hc)

/-! ## Dates -/

/-- A day of an era: its century, its place in the years of that century,
and its place in its year. -/
theorem exists_parts {dayOfEra : ℕ} (h : dayOfEra < 146097) :
    ∃ c q k r, dayOfEra = 36524 * c + 1461 * q + 365 * k + r ∧ c ≤ 3 ∧ q ≤ 24 ∧ k ≤ 3 ∧ r ≤ 365 ∧
      (r = 365 → k = 3) ∧ (r = 365 → q = 24 → c = 3) := by
  obtain ⟨c, hc⟩ : ∃ c, c = min (dayOfEra / 36524) 3 := ⟨_, rfl⟩
  obtain ⟨q, hq⟩ : ∃ q, q = (dayOfEra - 36524 * c) / 1461 := ⟨_, rfl⟩
  obtain ⟨k, hk⟩ : ∃ k, k = min ((dayOfEra - 36524 * c - 1461 * q) / 365) 3 := ⟨_, rfl⟩
  refine ⟨c, q, k, dayOfEra - 36524 * c - 1461 * q - 365 * k, ?_, ?_, ?_, ?_, ?_, ?_, ?_⟩ <;> omega

/-- **The year of a day of an era**: the day is one of the year's. -/
theorem yearOfEra_spec {dayOfEra y : ℕ} (h : dayOfEra < 146097)
    (hy : y = (dayOfEra - dayOfEra / 1460 + dayOfEra / 36524 - dayOfEra / 146096) / 365) :
    y < 400 ∧ 365 * y + y / 4 - y / 100 ≤ dayOfEra ∧
      dayOfEra ≤ 365 * y + y / 4 - y / 100 + 365 := by
  obtain ⟨c, q, k, r, rfl, hc, hq, hk, hr, hlast, hcentury⟩ := exists_parts h
  have hyear : y = 100 * c + 4 * q + k := by
    have hfour : (36524 * c + 1461 * q + 365 * k + r) / 1460 =
        25 * c + q + (24 * c + q + 365 * k + r) / 1460 := by omega
    have hhundred : (36524 * c + 1461 * q + 365 * k + r) / 36524 =
        c + (36524 * c + 1461 * q + 365 * k + r) / 146096 := by omega
    -- the last of four years is long by a day, which one of the two corrections takes off
    have hlate : 1 ≤ (24 * c + q + 365 * k + r) / 1460 → k = 3 ∧ 269 ≤ r := by omega
    have hlong : r = 365 → 1 ≤ (24 * c + q + 365 * k + r) / 1460 := by omega
    have hone : (24 * c + q + 365 * k + r) / 1460 ≤ 1 := by omega
    rw [hy, hhundred, hfour]
    generalize (36524 * c + 1461 * q + 365 * k + r) / 146096 = era
    generalize (24 * c + q + 365 * k + r) / 1460 = late at *
    omega
  have hfour : y / 4 = 25 * c + q := by omega
  have hhundred : y / 100 = c := by omega
  refine ⟨by omega, by omega, by omega⟩

theorem month_spec {dayOfYear month : ℕ} (h : dayOfYear ≤ 365)
    (hm : month = (5 * dayOfYear + 2) / 153) :
    month < 12 ∧ (153 * month + 2) / 5 ≤ dayOfYear ∧
      dayOfYear - (153 * month + 2) / 5 < 31 ∧ (month < 10 ↔ dayOfYear < 306) := by
  refine ⟨by omega, by omega, by omega, by omega⟩

/-- **A date is one day**, and its fields fit their widths. -/
theorem civilFromDays_spec {days : ℤ} (hlow : daysFromCivil 1 1 1 ≤ days)
    (hhigh : days ≤ daysFromCivil 9999 12 31) {y m d : ℕ} (h : civilFromDays days = (y, m, d)) :
    daysFromCivil y m d = days ∧ y < 10 ^ 4 ∧ m < 10 ^ 2 ∧ d < 10 ^ 2 := by
  have hfirst : daysFromCivil 1 1 1 = -719162 := by decide
  have hend : daysFromCivil 9999 12 31 = 2932896 := by decide
  rw [hfirst] at hlow
  rw [hend] at hhigh
  obtain ⟨z, hz⟩ : ∃ z : ℕ, z = (days + 719468).toNat := ⟨_, rfl⟩
  have hdays : days = (z : ℤ) - 719468 := by omega
  obtain ⟨dayOfEra, hdoe⟩ : ∃ n, n = z % 146097 := ⟨_, rfl⟩
  obtain ⟨yearOfEra, hyoe⟩ : ∃ n,
      n = (dayOfEra - dayOfEra / 1460 + dayOfEra / 36524 - dayOfEra / 146096) / 365 := ⟨_, rfl⟩
  obtain ⟨dayOfYear, hdoy⟩ : ∃ n,
      n = dayOfEra - (365 * yearOfEra + yearOfEra / 4 - yearOfEra / 100) := ⟨_, rfl⟩
  obtain ⟨month, hmonth⟩ : ∃ n, n = (5 * dayOfYear + 2) / 153 := ⟨_, rfl⟩
  have hbound : dayOfEra < 146097 := by omega
  obtain ⟨hyear, hstart, hlast⟩ := yearOfEra_spec hbound hyoe
  obtain ⟨hmonths, hday, hlength, hwinter⟩ := month_spec (by omega) hmonth
  rw [civilFromDays, ← hz] at h
  simp only [← hdoe, ← hyoe, ← hdoy, ← hmonth, Prod.mk.injEq] at h
  obtain ⟨hy, hm, hd⟩ := h
  rw [hm] at hy
  have hsplit : z = z / 146097 * 146097 + dayOfEra := by omega
  have hera : z / 146097 ≤ 24 := by omega
  have hyears : y < 10 ^ 4 := by
    by_cases hlate : m ≤ 2
    · -- a January of the year 10000 would be a day after the last one
      rw [if_pos hlate] at hy
      have hnotLast : ¬(z / 146097 = 24 ∧ yearOfEra = 399) := by
        rintro ⟨hera, rfl⟩
        have hearly : dayOfYear < 306 := by omega
        have hten : month < 10 := hwinter.2 hearly
        rw [if_pos hten] at hm
        omega
      omega
    · rw [if_neg hlate] at hy
      omega
  refine ⟨?_, hyears, ?_, ?_⟩
  · have hyearBack : (if m ≤ 2 then y - 1 else y) = yearOfEra + z / 146097 * 400 := by
      split_ifs with hm2 <;> simp only [hm2, if_true, if_false] at hy <;> omega
    have hmonthBack : (m + 9) % 12 = month := by
      split_ifs at hm with hten <;> omega
    rw [daysFromCivil]
    simp only [hyearBack, hmonthBack]
    have hmod : (yearOfEra + z / 146097 * 400) % 400 = yearOfEra := by omega
    have hdiv : (yearOfEra + z / 146097 * 400) / 400 = z / 146097 := by omega
    rw [hmod, hdiv, hdays]
    omega
  · split_ifs at hm <;> omega
  · omega

/-! ## The text -/

/-- An instant of the calendar. -/
def InCalendar (us : ℤ) : Prop := bounds.1 ≤ us ∧ us ≤ bounds.2

instance : DecidablePred InCalendar := fun us => by unfold InCalendar; infer_instance

/-- The day and the time of an instant of the calendar. -/
theorem InCalendar.day {us : ℤ} (h : InCalendar us) :
    daysFromCivil 1 1 1 ≤ us / 86400000000 ∧ us / 86400000000 ≤ daysFromCivil 9999 12 31 := by
  obtain ⟨hlow, hhigh⟩ := h
  unfold bounds at hlow hhigh
  dsimp only at hlow hhigh
  omega

/-- The fields of an instant, in their order, have their values below the
bound of their width. -/
theorem time_lt (us : ℤ) {time : ℕ} (ht : time = (us % 86400000000).toNat) :
    time / 1000000 / 3600 < 10 ^ 2 ∧ time / 1000000 / 60 % 60 < 10 ^ 2 ∧
      time / 1000000 % 60 < 10 ^ 2 ∧ time % 1000000 < 10 ^ 6 := by
  refine ⟨by omega, by omega, by omega, by omega⟩

/-- The day and the fields of its time say which instant it is. -/
theorem time_inj {us us' : ℤ} {time time' : ℕ} (htime : time = (us % 86400000000).toNat)
    (htime' : time' = (us' % 86400000000).toNat) (hday : us / 86400000000 = us' / 86400000000)
    (hhour : time / 1000000 / 3600 = time' / 1000000 / 3600)
    (hminute : time / 1000000 / 60 % 60 = time' / 1000000 / 60 % 60)
    (hsecond : time / 1000000 % 60 = time' / 1000000 % 60)
    (hfraction : time % 1000000 = time' % 1000000) : us = us' := by
  have hminutes : time / 1000000 / 60 = time' / 1000000 / 60 := by omega
  have hseconds : time / 1000000 = time' / 1000000 := by omega
  have hsame : time = time' := by omega
  have hrest : us % 86400000000 = us' % 86400000000 := by omega
  rw [← Int.mul_ediv_add_emod us 86400000000, hday, hrest, Int.mul_ediv_add_emod]

/-- **The text of an instant is the instant's own.** -/
theorem format_inj {us us' : ℤ} (hus : InCalendar us) (hus' : InCalendar us')
    (h : format us = format us') : us = us' := by
  obtain ⟨hlow, hhigh⟩ := hus.day
  obtain ⟨hlow', hhigh'⟩ := hus'.day
  obtain ⟨⟨y, m, d⟩, hcivil⟩ : ∃ p, civilFromDays (us / 86400000000) = p := ⟨_, rfl⟩
  obtain ⟨⟨y', m', d'⟩, hcivil'⟩ : ∃ p, civilFromDays (us' / 86400000000) = p := ⟨_, rfl⟩
  obtain ⟨hback, hy, hm, hd⟩ := civilFromDays_spec hlow hhigh hcivil
  obtain ⟨hback', hy', hm', hd'⟩ := civilFromDays_spec hlow' hhigh' hcivil'
  obtain ⟨time, htime⟩ : ∃ t, t = (us % 86400000000).toNat := ⟨_, rfl⟩
  obtain ⟨time', htime'⟩ : ∃ t, t = (us' % 86400000000).toNat := ⟨_, rfl⟩
  obtain ⟨hH, hM, hS, hU⟩ := time_lt us htime
  obtain ⟨hH', hM', hS', hU'⟩ := time_lt us' htime'
  rw [format, format, hcivil, hcivil'] at h
  simp only [← htime, ← htime', List.append_assoc, List.cons_append] at h
  obtain ⟨hyear, h⟩ := padded_append_inj (by decide) hy hy' h
  obtain ⟨hmonth, h⟩ := padded_append_inj (by decide) hm hm' (List.cons.inj h).2
  obtain ⟨hday, h⟩ := padded_append_inj (by decide) hd hd' (List.cons.inj h).2
  obtain ⟨hhour, h⟩ := padded_append_inj (by decide) hH hH' (List.cons.inj h).2
  obtain ⟨hminute, h⟩ := padded_append_inj (by decide) hM hM' (List.cons.inj h).2
  obtain ⟨hsecond, h⟩ := padded_append_inj (by decide) hS hS' (List.cons.inj h).2
  have hfraction : time % 1000000 = time' % 1000000 := by
    have htail := List.append_cancel_right h
    by_cases hnone : time % 1000000 = 0 <;> by_cases hnone' : time' % 1000000 = 0
    · rw [hnone, hnone']
    · rw [if_pos hnone, if_neg hnone'] at htail
      cases htail
    · rw [if_neg hnone, if_pos hnone'] at htail
      cases htail
    · rw [if_neg hnone, if_neg hnone'] at htail
      have hfield : padded 6 (time % 1000000) ++ [] = padded 6 (time' % 1000000) ++ [] := by
        rw [List.append_nil, List.append_nil]
        exact (List.cons.inj htail).2
      exact (padded_append_inj (by decide) hU hU' hfield).1
  have hdays : us / 86400000000 = us' / 86400000000 := by
    rw [← hback, ← hback', hyear, hmonth, hday]
  exact time_inj htime htime' hdays hhour hminute hsecond hfraction

/-- The text of an instant has digits and punctuation only. -/
theorem isScalar_format {us : ℤ} (hus : InCalendar us) : (format us).IsScalar := by
  obtain ⟨hlow, hhigh⟩ := hus.day
  obtain ⟨⟨y, m, d⟩, hcivil⟩ : ∃ p, civilFromDays (us / 86400000000) = p := ⟨_, rfl⟩
  obtain ⟨-, hy, hm, hd⟩ := civilFromDays_spec hlow hhigh hcivil
  obtain ⟨hH, hM, hS, hU⟩ := time_lt us rfl
  have hfield : ∀ {k n : ℕ}, 0 < k → n < 10 ^ k → (padded k n).IsScalar := isScalar_padded
  have hfraction : ((if (us % 86400000000).toNat % 1000000 = 0 then []
      else 0x2E :: padded 6 ((us % 86400000000).toNat % 1000000)) : Text).IsScalar := by
    split_ifs
    · exact Text.isScalar_nil
    · exact Text.isScalar_cons.2 ⟨by decide, hfield (by decide) hU⟩
  rw [format, hcivil]
  simp only [Text.isScalar_append, Text.isScalar_cons]
  refine ⟨⟨⟨⟨⟨⟨⟨hfield (by decide) hy, by decide, hfield (by decide) hm⟩, by decide,
    hfield (by decide) hd⟩, by decide, hfield (by decide) hH⟩, by decide, hfield (by decide) hM⟩,
    by decide, hfield (by decide) hS⟩, hfraction⟩, by decide⟩

end IsoTime

/-- **The library writes the instants of the calendar** as ISO texts. -/
def Library.WritesIso (L : Library) : Prop :=
  ∀ us, IsoTime.InCalendar us → L.isoformat us = IsoTime.format us

theorem Library.ascii_writesIso : Library.ascii.WritesIso := fun _ _ => rfl

end Lakehouse
