import CyreneReactor.Data.Calendar
import CyreneReactor.Data.TextOrder
import CyreneReactor.Domain

namespace CyreneReactor

open TextOrder

/-! Readings of the clock, and the width of their texts. -/

/-- A date of the calendar and a time of the day. -/
def Datetime.IsClock (time : Datetime) : Prop :=
  Calendar.IsDate time.year time.month time.day ∧ time.hour < 24 ∧ time.minute < 60 ∧
    time.second < 60 ∧ time.microsecond < 1000000

instance (time : Datetime) : Decidable time.IsClock :=
  inferInstanceAs (Decidable (_ ∧ _))

theorem toList_padded {width value : Nat} (positive : 0 < width) (bound : value < 10 ^ width) :
    (padded width value).toList = digits width value := by
  simp only [padded, Nat.toString_eq_ofList_toDigits, String.toList_append, String.toList_ofList,
    String.length_ofList]
  exact replicate_append_toDigits positive bound

theorem Datetime.IsClock.day_lt {time : Datetime} (clock : time.IsClock) : time.day < 10 ^ 2 := by
  have bound := clock.1.2.2.2.2.2
  unfold Calendar.daysInMonth at bound
  split_ifs at bound <;> omega

end CyreneReactor
