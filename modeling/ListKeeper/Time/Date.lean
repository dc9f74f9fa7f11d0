/-!
This module contains the proleptic Gregorian calendar: dates with their day number, weekday and
neighbouring days.
-/

namespace ListKeeper

def isLeapYear (year : Int) : Bool :=
  year % 4 == 0 && (year % 100 != 0 || year % 400 == 0)

def daysInMonth (year : Int) : Nat → Nat
  | 2 => if isLeapYear year then 29 else 28
  | 4 | 6 | 9 | 11 => 30
  | _ => 31

theorem one_le_daysInMonth (year : Int) (month : Nat) : 1 ≤ daysInMonth year month := by
  unfold daysInMonth
  split
  · split <;> decide
  all_goals decide

structure Date where
  year : Int
  month : Nat
  day : Nat
  one_le_month : 1 ≤ month
  month_le : month ≤ 12
  one_le_day : 1 ≤ day
  day_le : day ≤ daysInMonth year month
deriving DecidableEq, Repr

namespace Date

def of? (year : Int) (month day : Nat) : Option Date :=
  if h : (1 ≤ month ∧ month ≤ 12) ∧ 1 ≤ day ∧ day ≤ daysInMonth year month then
    some ⟨year, month, day, h.1.1, h.1.2, h.2.1, h.2.2⟩
  else
    none

def daysBeforeYear (year : Int) : Int :=
  let y := year - 1
  365 * y + y / 4 - y / 100 + y / 400

def daysBeforeMonth (year : Int) : Nat → Nat
  | 0 => 0
  | 1 => 0
  | month + 1 => daysBeforeMonth year month + daysInMonth year month

def dayNumber (d : Date) : Int :=
  daysBeforeYear d.year + daysBeforeMonth d.year d.month + d.day

def weekday (d : Date) : Int :=
  (d.dayNumber - 1) % 7

def weekStart (d : Date) : Int :=
  d.dayNumber - d.weekday

def next (d : Date) : Date :=
  if h : d.day < daysInMonth d.year d.month then
    ⟨d.year, d.month, d.day + 1, d.one_le_month, d.month_le, by omega, h⟩
  else if h : d.month < 12 then
    ⟨d.year, d.month + 1, 1, by omega, h, by omega, one_le_daysInMonth ..⟩
  else
    ⟨d.year + 1, 1, 1, by omega, by omega, by omega, one_le_daysInMonth ..⟩

def previous (d : Date) : Date :=
  if h : 1 < d.day then
    have := d.day_le
    ⟨d.year, d.month, d.day - 1, d.one_le_month, d.month_le, by omega, by omega⟩
  else if h : 1 < d.month then
    have := d.month_le
    ⟨d.year, d.month - 1, daysInMonth d.year (d.month - 1), by omega, by omega,
      one_le_daysInMonth .., by omega⟩
  else
    ⟨d.year - 1, 12, 31, by omega, by omega, by omega, by simp [daysInMonth]⟩

def ofDayNumber? (n : Int) : Option Date :=
  let cycle := (n - 1) / 146097
  let inCycle := ((n - 1) % 146097).toNat
  let century := min (inCycle / 36524) 3
  let inCentury := inCycle - century * 36524
  let quad := inCentury / 1461
  let inQuad := inCentury - quad * 1461
  let single := min (inQuad / 365) 3
  let year := cycle * 400 + century * 100 + quad * 4 + single + 1
  let inYear := inQuad - single * 365
  let month := ((List.range 12).filter fun m => daysBeforeMonth year (m + 1) ≤ inYear).length
  of? year month (inYear - daysBeforeMonth year month + 1)

end Date
end ListKeeper
