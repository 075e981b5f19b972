import Mathlib

/-!
# Dates and months

A point in time is a month, a day of the month and the time of day. Adding months keeps the day
where the month is long enough and takes its last day where it is not, as `DateTime.AddMonths`
does, so going forward and then back may end on an earlier day, never on a later one.
-/

namespace AciX

def daysInMonth (month : ℤ) : ℕ :=
  let year := month / 12
  match (month % 12).toNat with
  | 1 => if year % 4 = 0 ∧ (year % 100 ≠ 0 ∨ year % 400 = 0) then 29 else 28
  | 3 | 5 | 8 | 10 => 30
  | _ => 31

theorem daysInMonth_pos (month : ℤ) : 0 < daysInMonth month := by
  unfold daysInMonth
  simp only
  split
  · split_ifs <;> omega
  all_goals omega

structure DateTime where
  month : ℤ
  day : ℕ
  ticks : ℕ
  day_pos : 0 < day := by decide
  day_le : day ≤ daysInMonth month := by decide
  ticks_lt : ticks < 864000000000 := by decide
  deriving DecidableEq

namespace DateTime

instance : LT DateTime where
  lt a b := a.month < b.month ∨ a.month = b.month ∧
    (a.day < b.day ∨ a.day = b.day ∧ a.ticks < b.ticks)

theorem lt_iff {a b : DateTime} : a < b ↔ a.month < b.month ∨ a.month = b.month ∧
    (a.day < b.day ∨ a.day = b.day ∧ a.ticks < b.ticks) := Iff.rfl

instance (a b : DateTime) : Decidable (a < b) := inferInstanceAs (Decidable (_ ∨ _))

def minute (t : DateTime) : ℕ := t.ticks / 600000000 % 60

def addMonths (t : DateTime) (months : ℤ) : DateTime where
  month := t.month + months
  day := min t.day (daysInMonth (t.month + months))
  ticks := t.ticks
  day_pos := lt_min t.day_pos (daysInMonth_pos _)
  day_le := min_le_right _ _
  ticks_lt := t.ticks_lt

theorem addMonths_neg_lt {a b : DateTime} {months : ℤ} (h : b < a.addMonths months) :
    b.addMonths (-months) < a := by
  rw [lt_iff] at h ⊢
  simp only [addMonths] at h ⊢
  have hmonth : b.month = a.month + months → b.month + -months = a.month := by omega
  rcases h with h | ⟨hm, h⟩
  · exact .inl (by omega)
  refine .inr ⟨hmonth hm, ?_⟩
  rw [hmonth hm]
  have ha := a.day_le
  have hb := b.day_le
  rw [hm] at hb
  omega

end DateTime

end AciX
