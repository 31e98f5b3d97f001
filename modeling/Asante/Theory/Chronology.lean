import Asante.Model.Clock

/-!
# Texts in the Order of Time

The texts `isoformat` gives are in the order of the instants.

Down to the second every field has a fixed width, and each is a digit of the
time that has passed: of a base in the case of hours, minutes and seconds, and of
a calendar in the case of months and days, where the blocks are the months of the
year and the years. What comes after has no fixed width. A whole second goes on
with the offset and any other with the fraction, and the order is right because
a plus sign comes before a full stop (`fractionText_ordered`).

## Theorems

* `daysBeforeYear_succ`, `daysBeforeMonth_succ`: Years and months are consecutive.
* `dayOfYear_lt`: A date lies within its year.
* `dateText_ordered`, `secondText_ordered`, `fractionText_ordered`: Part by part.
* `isoformat_lt_iff`: The order of the texts is that of the instants.
-/

namespace Asante

open Asante.Core

/-- A year begins when the one before has ended. -/
theorem daysBeforeYear_succ (year : Nat) (h : 1 ≤ year) :
    daysBeforeYear year + daysInYear year = daysBeforeYear (year + 1) := by
  -- One more quarter, less one more century, and one more fourth century.
  have hquarter : year / 4 = (year - 1) / 4 + if year % 4 = 0 then 1 else 0 := by
    by_cases h4 : year % 4 = 0 <;> simp only [h4, if_true, if_false] <;> omega
  have hcentury : year / 100 = (year - 1) / 100 + if year % 100 = 0 then 1 else 0 := by
    by_cases h100 : year % 100 = 0 <;> simp only [h100, if_true, if_false] <;> omega
  have hfourth : year / 400 = (year - 1) / 400 + if year % 400 = 0 then 1 else 0 := by
    by_cases h400 : year % 400 = 0 <;> simp only [h400, if_true, if_false] <;> omega
  have hle : (year - 1) / 100 ≤ (year - 1) / 4 := by omega
  simp only [daysBeforeYear, daysInYear, isLeap, Nat.add_sub_cancel, Bool.and_eq_true,
    Bool.or_eq_true, decide_eq_true_eq]
  rw [hquarter, hcentury, hfourth]
  by_cases h4 : year % 4 = 0 <;> by_cases h100 : year % 100 = 0 <;>
    by_cases h400 : year % 400 = 0 <;> simp only [h4, h100, h400, if_true, if_false, ne_eq,
      not_true_eq_false, not_false_eq_true, true_and, false_and, or_true, or_false,
      and_true] <;> omega

/-- A month begins when the one before has ended. -/
theorem daysBeforeMonth_succ (year month : Nat) (h : 1 ≤ month) :
    daysBeforeMonth year month + daysInMonth year month = daysBeforeMonth year (month + 1) := by
  rcases Nat.exists_eq_add_of_le' h with ⟨m, rfl⟩
  rfl

/-- The twelve months make up the year. -/
theorem daysBeforeMonth_end (year : Nat) : daysBeforeMonth year 13 = daysInYear year := by
  rcases hleap : isLeap year with _ | _ <;>
    simp only [daysBeforeMonth, daysInMonth, daysInYear, hleap, if_true, if_false,
      Bool.false_eq_true]

namespace UtcInstant

/-- A date lies within its year. -/
theorem dayOfYear_lt (t : UtcInstant) : t.dayOfYear < daysInYear t.year := by
  have hend := offset_le (fun m hm => (daysBeforeMonth_succ t.year m hm).le) t.month_range.1
    (Nat.lt_succ_of_le t.month_range.2)
  rw [daysBeforeMonth_end] at hend
  have hday := t.day_range
  rw [dayOfYear]
  omega

theorem year_lt (t : UtcInstant) : t.year < 10 ^ 4 := by
  have h := t.year_range
  omega

theorem month_lt (t : UtcInstant) : t.month < 10 ^ 2 := by
  have h := t.month_range
  omega

theorem day_lt (t : UtcInstant) : t.day < 10 ^ 2 := by
  have h := t.day_range
  have hmonth : daysInMonth t.year t.month ≤ 31 := by
    unfold daysInMonth
    split <;> try split
    all_goals omega
  omega

/-- Within a year the texts of the dates are in the order of the days. -/
theorem monthDayText_lt_iff (t u : UtcInstant) (h : t.year = u.year) :
    t.monthDayText < u.monthDayText ↔ t.dayOfYear < u.dayOfYear := by
  have hmonth := orderedAs_digits 2 month month_lt
  have hday := (orderedAs_digits 2 day day_lt).cons '-'
  have ht := t.day_range
  have hu := u.day_range
  rw [h] at ht
  have hblock : daysBeforeMonth u.year t.month + (t.day - 1) <
      daysBeforeMonth u.year u.month + (u.day - 1) ↔
        t.month < u.month ∨ t.month = u.month ∧ t.day - 1 < u.day - 1 :=
    offset_lt_iff (daysBeforeMonth u.year) (daysInMonth u.year)
      (fun m hm => (daysBeforeMonth_succ u.year m hm).le) t.month_range.1 u.month_range.1
      (by omega) (by omega)
  rw [monthDayText, monthDayText, append_lt_append_iff (by simp only [fixedDigits_length]),
    hmonth t u, hmonth.eq_iff t u, hday t u, dayOfYear, dayOfYear, h, hblock]
  omega

/-- The texts of the dates are in the order of the days. -/
theorem dateText_ordered : OrderedAs dateText days := by
  refine (orderedAs_digits 4 year year_lt).append (fun t u => ?_) (fun t u h => ?_)
    (v := dayOfYear) (fun t u => ?_)
  · simp only [fixedDigits_length]
  · rw [List.cons_lt_cons_iff, monthDayText_lt_iff t u h]
    simp only [lt_irrefl, true_and, false_or]
  · exact offset_lt_iff daysBeforeYear daysInYear (fun y hy => (daysBeforeYear_succ y hy).le)
      t.year_range.1 u.year_range.1 t.dayOfYear_lt u.dayOfYear_lt

theorem dateText_length (t : UtcInstant) : t.dateText.length = 10 := by
  simp only [dateText, monthDayText, List.length_append, List.length_cons, fixedDigits_length]

theorem secondText_length (t : UtcInstant) : t.secondText.length = 19 := by
  simp only [secondText, List.length_append, List.length_cons, fixedDigits_length,
    dateText_length]

/-- Down to the second, the texts are in the order of the seconds. -/
theorem secondText_ordered : OrderedAs secondText seconds := by
  have hhour := (orderedAs_digits 2 hour fun t => t.hour_lt.trans (by omega)).cons 'T'
  have hminute := (orderedAs_digits 2 minute fun t => t.minute_lt.trans (by omega)).cons ':'
  have hsecond := (orderedAs_digits 2 second fun t => t.second_lt.trans (by omega)).cons ':'
  -- Each field is a digit of a positional system, in the order it is printed.
  have htohour := dateText_ordered.append (fun t u => by rw [dateText_length, dateText_length])
    (fun t u _ => hhour t u) (fun t u => radix_lt_iff t.hour_lt u.hour_lt)
  have htominute := htohour.append (fun t u => by
      simp only [List.length_append, List.length_cons, fixedDigits_length, dateText_length])
    (fun t u _ => hminute t u) (fun t u => radix_lt_iff t.minute_lt u.minute_lt)
  exact htominute.append (fun t u => by
      simp only [List.length_append, List.length_cons, fixedDigits_length, dateText_length])
    (fun t u _ => hsecond t u) (fun t u => radix_lt_iff t.second_lt u.second_lt)

/-- What follows the second is in the order of the microseconds, whether or not
    there is a fraction: a whole second goes on with a plus sign, which comes
    before the full stop of a fraction. -/
theorem fractionText_ordered : OrderedAs fractionText microsecond := by
  intro t u
  rw [fractionText, fractionText]
  by_cases ht : t.microsecond = 0 <;> by_cases hu : u.microsecond = 0
  · rw [if_pos ht, if_pos hu, ht, hu]
    exact iff_of_false (lt_irrefl _) (lt_irrefl _)
  · rw [if_pos ht, if_neg hu, List.cons_lt_cons_iff]
    exact iff_of_true (Or.inl (by decide)) (by omega)
  · rw [if_neg ht, if_pos hu, List.cons_lt_cons_iff]
    refine iff_of_false ?_ (by omega)
    rintro (h | ⟨h, _⟩)
    · exact absurd h (by decide)
    · exact absurd h (by decide)
  · rw [if_neg ht, if_neg hu, List.cons_lt_cons_iff,
      append_lt_append_iff (by simp only [fixedDigits_length]),
      orderedAs_digits 6 microsecond (fun t => t.microsecond_lt) t u]
    simp only [lt_irrefl, true_and, false_or, and_false, or_false]

/-- One instant is printed as a text before that of another exactly when it is
    earlier. -/
theorem isoformat_lt_iff (t u : UtcInstant) :
    t.isoformat < u.isoformat ↔ t.microseconds < u.microseconds := by
  rw [isoformat, isoformat, String.lt_iff_toList_lt, String.toList_ofList, String.toList_ofList]
  exact (secondText_ordered.append (fun t u => by rw [secondText_length, secondText_length])
    (fun t u _ => fractionText_ordered t u)
    (fun t u => radix_lt_iff t.microsecond_lt u.microsecond_lt)) t u

example : ∃ t : UtcInstant, t.isoformat = "1970-01-01T00:00:00+00:00" ∧ t.days = 719162 :=
  ⟨⟨1970, 1, 1, 0, 0, 0, 0, by decide, by decide, by decide, by decide, by decide, by decide,
    by decide⟩, by decide, by decide⟩

/-- A text is not after another exactly when its instant is not. -/
theorem isoformat_le_iff (t u : UtcInstant) :
    t.isoformat ≤ u.isoformat ↔ t.microseconds ≤ u.microseconds := by
  rw [← not_lt, ← not_lt, isoformat_lt_iff]

end UtcInstant

end Asante
