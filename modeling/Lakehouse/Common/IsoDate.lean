import Lakehouse.Common.IsoTime
import Lakehouse.Common.Sort
/-!
# The order of dates

ISO dates are in the order of their days, compared as texts: each field
has its width, the fields stand from the largest to the smallest, and a
later day has a later date.
-/

namespace Lakehouse

/-! ## Texts of one length -/

/-- Before their ends texts are compared by their beginnings, if these are as
long as each other. -/
theorem append_lt_append_iff {α : Type} [LinearOrder α] {a b s t : List α}
    (h : a.length = b.length) : a ++ s < b ++ t ↔ a < b ∨ (a = b ∧ s < t) := by
  induction a generalizing b with
  | nil =>
    obtain rfl := List.eq_nil_of_length_eq_zero h.symm
    simp
  | cons x a ih =>
    cases b with
    | nil => cases h
    | cons y b =>
      rw [List.cons_append, List.cons_append, List.cons_lt_cons_iff, List.cons_lt_cons_iff,
        ih (Nat.succ.inj h), List.cons.injEq]
      constructor
      · rintro (hxy | ⟨rfl, hab | ⟨rfl, hst⟩⟩)
        · exact .inl (.inl hxy)
        · exact .inl (.inr ⟨rfl, hab⟩)
        · exact .inr ⟨⟨rfl, rfl⟩, hst⟩
      · rintro ((hxy | ⟨rfl, hab⟩) | ⟨⟨rfl, rfl⟩, hst⟩)
        · exact .inl hxy
        · exact .inr ⟨rfl, .inl hab⟩
        · exact .inr ⟨rfl, .inr ⟨rfl, hst⟩⟩

/-- **Digits of one length are in the order of their numbers.** -/
theorem digitsValue_lt_of_lt {s t : Text} (hs : ∀ c ∈ s, isDigit c = true)
    (ht : ∀ c ∈ t, isDigit c = true) (hlen : s.length = t.length) (h : s < t) :
    digitsValue s < digitsValue t := by
  induction s generalizing t with
  | nil =>
    obtain rfl := List.eq_nil_of_length_eq_zero hlen.symm
    exact absurd h (lt_irrefl _)
  | cons c s ih =>
    cases t with
    | nil => cases hlen
    | cons d t =>
      have hrest : s.length = t.length := Nat.succ.inj hlen
      obtain ⟨hc, hs'⟩ := List.forall_mem_cons.1 hs
      obtain ⟨hd, ht'⟩ := List.forall_mem_cons.1 ht
      have hvalue : ∀ (c : ℕ) (u : Text),
          digitsValue (c :: u) = (c - 0x30) * 10 ^ u.length + digitsValue u := by
        intro c u
        rw [← List.singleton_append, digitsValue_append]
        simp [digitsValue]
      rw [hvalue, hvalue, hrest]
      obtain hlt | ⟨rfl, hlt⟩ := List.cons_lt_cons_iff.1 h
      · have hbound : digitsValue s < 10 ^ t.length := hrest ▸ digitsValue_lt hs'
        have hstep : c - 0x30 + 1 ≤ d - 0x30 := by
          have := (isDigit_iff.1 hc).1
          omega
        calc (c - 0x30) * 10 ^ t.length + digitsValue s
            < (c - 0x30 + 1) * 10 ^ t.length := by rw [Nat.succ_mul]; omega
          _ ≤ (d - 0x30) * 10 ^ t.length := Nat.mul_le_mul_right _ hstep
          _ ≤ _ := Nat.le_add_right _ _
      · exact Nat.add_lt_add_left (ih hs' ht' hrest hlt) _

namespace IsoTime

theorem padded_lt_padded {k n m : ℕ} (hk : 0 < k) (hn : n < 10 ^ k) (hm : m < 10 ^ k) (h : n < m) :
    padded k n < padded k m := by
  obtain ⟨hdn, hvn, hln⟩ := padded_digits hk hn
  obtain ⟨hdm, hvm, hlm⟩ := padded_digits hk hm
  obtain hlt | heq | hgt := lt_trichotomy (padded k n) (padded k m)
  · exact hlt
  · rw [← hvn, ← hvm, heq] at h
    exact absurd h (lt_irrefl _)
  · have hback := digitsValue_lt_of_lt hdm.2 hdn.2 (hlm.trans hln.symm) hgt
    rw [hvn, hvm] at hback
    exact absurd h hback.asymm

/-- **A field of fixed width comes first in the comparison.** -/
theorem padded_append_lt {k n m : ℕ} (hk : 0 < k) (hn : n < 10 ^ k) (hm : m < 10 ^ k) {s t : Text}
    (h : n < m ∨ (n = m ∧ s < t)) : padded k n ++ s < padded k m ++ t := by
  refine (append_lt_append_iff ((padded_digits hk hn).2.2.trans (padded_digits hk hm).2.2.symm)).2 ?_
  obtain hlt | ⟨rfl, hst⟩ := h
  · exact .inl (padded_lt_padded hk hn hm hlt)
  · exact .inr ⟨rfl, hst⟩

/-! ## Dates -/

/-- `date.isoformat()` of a number of days after the epoch. -/
def isoDate (days : ℤ) : Text :=
  padded 4 (civilFromDays days).1 ++ 0x2D :: padded 2 (civilFromDays days).2.1 ++
    0x2D :: padded 2 (civilFromDays days).2.2

/-- A later day of an era is in no earlier year. -/
theorem yearOfEra_le {a b : ℕ} (hab : a ≤ b) (hb : b < 146097) :
    (a - a / 1460 + a / 36524 - a / 146096) / 365 ≤ (b - b / 1460 + b / 36524 - b / 146096) / 365 :=
  Nat.div_le_div_right (by omega)

/-- The month of a day of an era and its place in the month, counted from
the March of the era's first year. -/
theorem civilFromDays_month {days : ℤ} {z dayOfEra yearOfEra dayOfYear : ℕ}
    (hz : z = (days + 719468).toNat) (hdoe : dayOfEra = z % 146097)
    (hyoe : yearOfEra =
      (dayOfEra - dayOfEra / 1460 + dayOfEra / 36524 - dayOfEra / 146096) / 365)
    (hdoy : dayOfYear = dayOfEra - (365 * yearOfEra + yearOfEra / 4 - yearOfEra / 100))
    {y m d : ℕ} (h : civilFromDays days = (y, m, d)) :
    (1 ≤ m ∧ m ≤ 12) ∧ dayOfYear ≤ 365 ∧
      12 * y + m = 12 * (yearOfEra + z / 146097 * 400) + (5 * dayOfYear + 2) / 153 + 3 ∧
      d = dayOfYear - (153 * ((5 * dayOfYear + 2) / 153) + 2) / 5 + 1 := by
  obtain ⟨hyear, hstart, hlast⟩ := yearOfEra_spec (by omega) hyoe
  rw [civilFromDays, ← hz] at h
  simp only [← hdoe, ← hyoe, ← hdoy, Prod.mk.injEq] at h
  obtain ⟨hy, hm, hd⟩ := h
  rw [hm] at hy
  obtain ⟨hmonths, -⟩ := month_spec (show dayOfYear ≤ 365 by omega) rfl
  generalize (5 * dayOfYear + 2) / 153 = month at *
  refine ⟨?_, by omega, ?_, hd.symm⟩
  · split_ifs at hm <;> omega
  · split_ifs at hm hy <;> omega

/-- **A later day is in a later month, or later in its month.** -/
theorem civilFromDays_lt {days days' : ℤ} (hlow : daysFromCivil 1 1 1 ≤ days) (h : days < days')
    {y m d y' m' d' : ℕ} (hcivil : civilFromDays days = (y, m, d))
    (hcivil' : civilFromDays days' = (y', m', d')) :
    y < y' ∨ (y = y' ∧ (m < m' ∨ (m = m' ∧ d < d'))) := by
  have hfirst : daysFromCivil 1 1 1 = -719162 := by decide
  rw [hfirst] at hlow
  obtain ⟨z, hz⟩ : ∃ z : ℕ, z = (days + 719468).toNat := ⟨_, rfl⟩
  obtain ⟨z', hz'⟩ : ∃ z : ℕ, z = (days' + 719468).toNat := ⟨_, rfl⟩
  have hlt : z < z' := by omega
  obtain ⟨e, he⟩ : ∃ e, e = z % 146097 := ⟨_, rfl⟩
  obtain ⟨e', he'⟩ : ∃ e, e = z' % 146097 := ⟨_, rfl⟩
  obtain ⟨n, hn⟩ : ∃ n, n = (e - e / 1460 + e / 36524 - e / 146096) / 365 := ⟨_, rfl⟩
  obtain ⟨n', hn'⟩ : ∃ n, n = (e' - e' / 1460 + e' / 36524 - e' / 146096) / 365 := ⟨_, rfl⟩
  obtain ⟨r, hr⟩ : ∃ r, r = e - (365 * n + n / 4 - n / 100) := ⟨_, rfl⟩
  obtain ⟨r', hr'⟩ : ∃ r, r = e' - (365 * n' + n' / 4 - n' / 100) := ⟨_, rfl⟩
  obtain ⟨hm, hbound, hindex, hd⟩ := civilFromDays_month hz he hn hr hcivil
  obtain ⟨hm', hbound', hindex', hd'⟩ := civilFromDays_month hz' he' hn' hr' hcivil'
  obtain ⟨hyear, hstart, -⟩ := yearOfEra_spec (by omega) hn
  obtain ⟨hyear', hstart', -⟩ := yearOfEra_spec (by omega) hn'
  -- the months counted through, and the days of one month
  have hmonths : 12 * y + m < 12 * y' + m' ∨ (12 * y + m = 12 * y' + m' ∧ d < d') := by
    obtain hera | hera := Nat.lt_or_ge (z / 146097) (z' / 146097)
    · clear hn hn' hr hr' he he' hd hd' hstart hstart'
      omega
    · replace hera : z / 146097 = z' / 146097 :=
        le_antisymm (Nat.div_le_div_right hlt.le) hera
      have hday : e < e' := by omega
      have hle : n ≤ n' := by
        rw [hn, hn']
        exact yearOfEra_le hday.le (by omega)
      obtain hnext | rfl := hle.lt_or_eq
      · clear hn hn' hr hr' he he' hd hd' hstart hstart'
        omega
      · clear hn hn' he he'
        have hplace : r < r' := by omega
        clear hr hr' hstart hstart'
        omega
  clear hn hn' hr hr' he he' hd hd' hindex hindex' hstart hstart'
  omega

/-- **Dates are in the order of their days.** -/
theorem isoDate_lt {days days' : ℤ} (hlow : daysFromCivil 1 1 1 ≤ days)
    (hhigh : days' ≤ daysFromCivil 9999 12 31) (h : days < days') :
    isoDate days < isoDate days' := by
  obtain ⟨⟨y, m, d⟩, hcivil⟩ : ∃ p, civilFromDays days = p := ⟨_, rfl⟩
  obtain ⟨⟨y', m', d'⟩, hcivil'⟩ : ∃ p, civilFromDays days' = p := ⟨_, rfl⟩
  obtain ⟨-, hy, hm, hd⟩ := civilFromDays_spec hlow (h.le.trans hhigh) hcivil
  obtain ⟨-, hy', hm', hd'⟩ := civilFromDays_spec (hlow.trans h.le) hhigh hcivil'
  have hdash : ∀ {s t : Text}, s < t → (0x2D :: s : Text) < 0x2D :: t :=
    fun hst => List.cons_lt_cons_iff.2 (.inr ⟨rfl, hst⟩)
  have hlast : d < d' → padded 2 d < padded 2 d' := padded_lt_padded (by decide) hd hd'
  have hmiddle : m < m' ∨ (m = m' ∧ d < d') →
      padded 2 m ++ 0x2D :: padded 2 d < padded 2 m' ++ 0x2D :: padded 2 d' := fun hlt =>
    padded_append_lt (by decide) hm hm' (hlt.imp_right fun ⟨hmm, hdd⟩ => ⟨hmm, hdash (hlast hdd)⟩)
  rw [isoDate, isoDate, hcivil, hcivil']
  simp only [List.append_assoc, List.cons_append]
  exact padded_append_lt (by decide) hy hy'
    ((civilFromDays_lt hlow h hcivil hcivil').imp_right fun ⟨hyy, hlt⟩ => ⟨hyy, hdash (hmiddle hlt)⟩)

/-- The text of an instant begins with its date. -/
theorem take_format {us : ℤ} (h : InCalendar us) :
    (format us).take 10 = isoDate (us / 86400000000) := by
  obtain ⟨hlow, hhigh⟩ := h.day
  obtain ⟨⟨y, m, d⟩, hcivil⟩ : ∃ p, civilFromDays (us / 86400000000) = p := ⟨_, rfl⟩
  obtain ⟨-, hy, hm, hd⟩ := civilFromDays_spec hlow hhigh hcivil
  have hlength : (isoDate (us / 86400000000)).length = 10 := by
    rw [isoDate, hcivil]
    simp only [List.length_append, List.length_cons, (padded_digits (by decide) hy).2.2,
      (padded_digits (by decide) hm).2.2, (padded_digits (by decide) hd).2.2]
  obtain ⟨rest, hrest⟩ : ∃ rest, format us = isoDate (us / 86400000000) ++ rest := by
    rw [format, isoDate, hcivil]
    simp only [List.append_assoc, List.cons_append]
    exact ⟨_, rfl⟩
  rw [hrest, ← hlength, List.take_left']
  rfl

end IsoTime

end Lakehouse
