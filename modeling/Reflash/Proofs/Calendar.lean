import Reflash.Calendar
import Reflash.Proofs.Text

/-!
# Reflash.Proofs.Calendar — a moment is known by its stamp

A day of an era lies in one of its years (`exists_yearDay`), and the year that `ofSeconds` reckons is that one
(`yearOfEra_eq`).  So the seconds can be had back from a date (`toSeconds_ofSeconds`), and the date from its stamp
(`stamp_injective`): two moments have one stamp only if they are in the same second.
-/

namespace Reflash.CalendarTime

open Text

/-! ## Days and years -/

/-- Day `d` of an era is day `r` of year `100 * c + 4 * k + j` of it; years begin in March. -/
structure YearDay (d c k j r : Nat) : Prop where
  century : c ≤ 3
  cycle : k ≤ 24
  year : j ≤ 3
  day : r ≤ 365
  /-- The last year of a century has no leap day unless it is the last one of the era. -/
  leap : r = 365 → j = 3 ∧ (k = 24 → c = 3)
  days : d = 36524 * c + 1461 * k + 365 * j + r

theorem exists_yearDay {d : Nat} (hd : d < 146097) : ∃ c k j r, YearDay d c k j r := by
  -- The last day of the era belongs to its fourth century, and the last day of a cycle to its fourth year.
  obtain ⟨c, dayOfCentury, hc, hlast, hdays⟩ :
      ∃ c e, c ≤ 3 ∧ (e ≤ 36523 ∨ e = 36524 ∧ c = 3) ∧ d = 36524 * c + e :=
    ⟨min (d / 36524) 3, d - 36524 * min (d / 36524) 3, by omega, by omega, by omega⟩
  obtain ⟨j, r, hj, hr, hleap, hcycle⟩ :
      ∃ j r, j ≤ 3 ∧ r ≤ 365 ∧ (r = 365 → j = 3) ∧ dayOfCentury % 1461 = 365 * j + r :=
    ⟨min (dayOfCentury % 1461 / 365) 3, dayOfCentury % 1461 - 365 * min (dayOfCentury % 1461 / 365) 3, by omega,
      by omega, by omega, by omega⟩
  exact ⟨c, dayOfCentury / 1461, j, r, hc, by omega, hj, hr, fun h => ⟨hleap h, by omega⟩, by omega⟩

namespace YearDay

variable {d c k j r : Nat}

/-- Centuries are counted as if each had 36524 days; the last day of the era is taken back. -/
theorem centuries (h : YearDay d c k j r) : d / 36524 = c + d / 146096 := by
  obtain ⟨hc, hk, hj, hr, hleap, hdays⟩ := h
  by_cases hlast : d = 146096
  · omega
  · have hzero : d / 146096 = 0 := by omega
    rw [hzero]
    exact Nat.div_eq_of_lt_le (by omega) (by omega)

/-- Cycles of four years are counted as if each had 1460 days; towards the end of one this is one too many. -/
theorem cycles (h : YearDay d c k j r) :
    d / 1460 = 25 * c + k + if 1460 ≤ 24 * c + k + 365 * j + r then 1 else 0 := by
  obtain ⟨hc, hk, hj, hr, -, hdays⟩ := h
  split
  · exact Nat.div_eq_of_lt_le (by omega) (by omega)
  · exact Nat.div_eq_of_lt_le (by omega) (by omega)

/-- The year that is reckoned is the year of the day. -/
theorem yearOfEra_eq (h : YearDay d c k j r) :
    (d - d / 1460 + d / 36524 - d / 146096) / 365 = 100 * c + 4 * k + j := by
  rw [h.centuries, h.cycles]
  obtain ⟨hc, hk, hj, hr, hleap, hdays⟩ := h
  split
  · exact Nat.div_eq_of_lt_le (by omega) (by omega)
  · exact Nat.div_eq_of_lt_le (by omega) (by omega)

end YearDay

/-! ## Dates and seconds -/

/-- The seconds from the start of 1970 to a date. -/
def toSeconds (t : CalendarTime) : Nat :=
  let monthFromMarch := if t.month ≤ 2 then t.month + 9 else t.month - 3
  let year := if t.month ≤ 2 then t.year - 1 else t.year
  let sinceMarch := 365 * year + year / 4 - year / 100 + year / 400 +
    ((153 * monthFromMarch + 2) / 5 + (t.day - 1))
  86400 * (sinceMarch - 719468) + 3600 * t.hour + 60 * t.minute + t.second

/-- The days before a year. -/
theorem days_before_year (era : Nat) {c k j : Nat} (hc : c ≤ 3) (hk : k ≤ 24) (hj : j ≤ 3) :
    let year := 100 * c + 4 * k + j + era * 400
    365 * year + year / 4 - year / 100 + year / 400 = 146097 * era + (36524 * c + 1461 * k + 365 * j) := by
  intro year
  have hfour : year / 4 = 25 * c + k + 100 * era := Nat.div_eq_of_lt_le (by omega) (by omega)
  have hcentury : year / 100 = c + 4 * era := Nat.div_eq_of_lt_le (by omega) (by omega)
  have hera : year / 400 = era := Nat.div_eq_of_lt_le (by omega) (by omega)
  omega

/-- The date by its day in a year of an era. -/
theorem ofSeconds_eq {n c k j r : Nat} (h : YearDay ((n / 86400 + 719468) % 146097) c k j r) :
    let m := (5 * r + 2) / 153
    let month := if m < 10 then m + 3 else m - 9
    ofSeconds n =
      { year := 100 * c + 4 * k + j + (n / 86400 + 719468) / 146097 * 400 + if month ≤ 2 then 1 else 0
        month := month
        day := r - (153 * m + 2) / 5 + 1
        hour := n % 86400 / 3600
        minute := n % 3600 / 60
        second := n % 60 } := by
  have hyear := h.yearOfEra_eq
  obtain ⟨hc, hk, hj, -, -, hdays⟩ := h
  have hfour : (100 * c + 4 * k + j) / 4 = 25 * c + k := Nat.div_eq_of_lt_le (by omega) (by omega)
  have hcentury : (100 * c + 4 * k + j) / 100 = c := Nat.div_eq_of_lt_le (by omega) (by omega)
  have hday : (n / 86400 + 719468) % 146097 - (365 * (100 * c + 4 * k + j) + (25 * c + k) - c) = r := by omega
  simp only [ofSeconds, hyear, hfour, hcentury, hday]

/-- January and February belong to the year before, counted from March. -/
theorem toSeconds_fromMarch {m : Nat} (hm : m ≤ 11) (year day hour minute second : Nat) :
    let month := if m < 10 then m + 3 else m - 9
    toSeconds ⟨year + if month ≤ 2 then 1 else 0, month, day + 1, hour, minute, second⟩ =
      86400 * (365 * year + year / 4 - year / 100 + year / 400 + ((153 * m + 2) / 5 + day) - 719468) + 3600 * hour
        + 60 * minute + second := by
  intro month
  by_cases hmonth : m < 10
  · have hlate : ¬ m + 3 ≤ 2 := by omega
    simp only [toSeconds, month, hmonth, hlate, if_true, if_false, Nat.add_sub_cancel, Nat.add_zero]
  · have hearly : m - 9 ≤ 2 := by omega
    have hback : m - 9 + 9 = m := by omega
    simp only [toSeconds, month, hmonth, hearly, hback, if_true, if_false, Nat.add_sub_cancel]

/-- The seconds are had back from the date. -/
theorem toSeconds_ofSeconds (n : Nat) : (ofSeconds n).toSeconds = n := by
  obtain ⟨c, k, j, r, h⟩ := exists_yearDay (Nat.mod_lt (n / 86400 + 719468) (show 0 < 146097 by decide))
  have hr : r ≤ 365 := h.day
  have hm : (5 * r + 2) / 153 ≤ 11 := by omega
  have hmonth : (153 * ((5 * r + 2) / 153) + 2) / 5 + (r - (153 * ((5 * r + 2) / 153) + 2) / 5) = r := by omega
  have hsince : 146097 * ((n / 86400 + 719468) / 146097) + (36524 * c + 1461 * k + 365 * j) + r =
      n / 86400 + 719468 := by
    have hdays := h.days
    omega
  have hclock : 86400 * (n / 86400) + 3600 * (n % 86400 / 3600) + 60 * (n % 3600 / 60) + n % 60 = n := by omega
  rw [ofSeconds_eq h, toSeconds_fromMarch hm, days_before_year _ h.century h.cycle h.year, hmonth, hsince,
    Nat.add_sub_cancel, hclock]

theorem ofSeconds_injective : Function.Injective ofSeconds := Function.LeftInverse.injective toSeconds_ofSeconds

/-! ## Stamps -/

theorem numeral_yearText (year : Nat) : Numeral (yearText year).toList year := by
  unfold yearText
  split
  · exact numeral_paddedDecimal 4 year
  · rw [String.toList_append]
    exact numeral_plus_decimal year

/-- The stamp tells all parts of a time. -/
theorem stamp_injective : Function.Injective stamp := by
  intro t u h
  have hdash : ¬ ('-'.isDigit = true ∨ '-' = '+') := by decide
  have hscore : ¬ ('_'.isDigit = true ∨ '_' = '+') := by decide
  have hpart : ∀ n, Numeral (paddedDecimal 2 n).toList n := numeral_paddedDecimal 2
  have htext := congrArg String.toList h
  simp only [stamp, String.toList_append, String.reduceToList, List.append_assoc, List.cons_append,
    List.nil_append] at htext
  obtain ⟨hyear, htext⟩ := (numeral_yearText t.year).eq_of_append (numeral_yearText u.year) hdash htext
  obtain ⟨hmonth, htext⟩ := (hpart t.month).eq_of_append (hpart u.month) hdash htext
  obtain ⟨hday, htext⟩ := (hpart t.day).eq_of_append (hpart u.day) hdash htext
  obtain ⟨hhour, htext⟩ := (hpart t.hour).eq_of_append (hpart u.hour) hscore htext
  obtain ⟨hminute, htext⟩ := (hpart t.minute).eq_of_append (hpart u.minute) hscore htext
  have hlast : Numeral (paddedDecimal 2 t.second).toList u.second := by
    rw [htext]
    exact hpart u.second
  have hsecond := (hpart t.second).unique hlast
  obtain ⟨⟩ := t
  obtain ⟨⟩ := u
  rw [CalendarTime.mk.injEq]
  exact ⟨hyear, hmonth, hday, hhour, hminute, hsecond⟩

/-- A stamp is made of digits and signs. -/
theorem mem_stamp {t : CalendarTime} {c : Char} (hc : c ∈ t.stamp.toList) :
    c.isDigit = true ∨ c = '+' ∨ c = '-' ∨ c = '_' := by
  have hyear : c ∈ (yearText t.year).toList → c.isDigit = true ∨ c = '+' := (numeral_yearText _).isDigit_or_plus
  have hpart : ∀ n, c ∈ (paddedDecimal 2 n).toList → c.isDigit = true ∨ c = '+' := fun n =>
    (numeral_paddedDecimal 2 n).isDigit_or_plus
  simp only [stamp, String.toList_append, String.reduceToList, List.mem_append, List.mem_singleton] at hc
  grind

theorem not_mem_stamp {t : CalendarTime} {c : Char} (hc : ¬ (c.isDigit = true ∨ c = '+' ∨ c = '-' ∨ c = '_')) :
    c ∉ t.stamp.toList := fun hmem => hc (mem_stamp hmem)

end Reflash.CalendarTime
