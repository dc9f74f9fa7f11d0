import ListKeeper.Time.Timestamp
import Mathlib.Data.List.Iterate

/-!
This module contains the theory of the calendar: days are numbered one after the other over the ends
of months and years, so the order of the numbers is that of years, months and days, and a week from
Monday to Sunday is seven numbers.
-/

namespace ListKeeper

namespace Date

section Numbering

def daysInYear (year : Int) : Nat :=
  if isLeapYear year then 366 else 365

theorem daysBeforeYear_succ (year : Int) :
    daysBeforeYear (year + 1) = daysBeforeYear year + daysInYear year := by
  unfold daysBeforeYear daysInYear isLeapYear
  simp only [Bool.and_eq_true, Bool.or_eq_true, beq_iff_eq, bne_iff_ne]
  split
  · omega
  · omega

theorem daysBeforeYear_mono {year year' : Int} (h : year ≤ year') :
    daysBeforeYear year ≤ daysBeforeYear year' := by
  simp only [daysBeforeYear]
  omega

theorem daysBeforeMonth_succ (year : Int) {month : Nat} (h : 1 ≤ month) :
    daysBeforeMonth year (month + 1) = daysBeforeMonth year month + daysInMonth year month := by
  cases month with
  | zero => contradiction
  | succ month => rfl

theorem daysBeforeMonth_thirteen (year : Int) : daysBeforeMonth year 13 = daysInYear year := by
  simp only [daysBeforeMonth, daysInMonth, daysInYear]
  split
  · rfl
  · rfl

theorem daysBeforeMonth_add_le (year : Int) {month month' : Nat} (h : 1 ≤ month)
    (hlt : month < month') :
    daysBeforeMonth year month + daysInMonth year month ≤ daysBeforeMonth year month' := by
  induction month', hlt using Nat.le_induction with
  | base => rw [daysBeforeMonth_succ year h]
  | succ month' hle ih =>
    rw [daysBeforeMonth_succ year (by omega)]
    omega

theorem daysBeforeMonth_add_day_le (d : Date) :
    daysBeforeMonth d.year d.month + d.day ≤ daysInYear d.year := by
  have hmonth := daysBeforeMonth_add_le d.year d.one_le_month (Nat.lt_succ_of_le d.month_le)
  rw [daysBeforeMonth_thirteen] at hmonth
  have := d.day_le
  omega

theorem dayNumber_lt_of_year_lt {a b : Date} (h : a.year < b.year) : a.dayNumber < b.dayNumber := by
  have hyears := daysBeforeYear_mono (show a.year + 1 ≤ b.year from h)
  rw [daysBeforeYear_succ] at hyears
  have hday := a.daysBeforeMonth_add_day_le
  have := b.one_le_day
  unfold dayNumber
  omega

theorem dayNumber_lt_of_month_lt {a b : Date} (hyear : a.year = b.year) (h : a.month < b.month) :
    a.dayNumber < b.dayNumber := by
  have hmonths := daysBeforeMonth_add_le a.year a.one_le_month h
  have := a.day_le
  have := b.one_le_day
  unfold dayNumber
  rw [← hyear]
  omega

theorem year_le_of_dayNumber_le {a b : Date} (h : a.dayNumber ≤ b.dayNumber) : a.year ≤ b.year := by
  by_contra hlt
  have := dayNumber_lt_of_year_lt (show b.year < a.year by omega)
  omega

theorem month_le_of_dayNumber_le {a b : Date} (hyear : a.year = b.year)
    (h : a.dayNumber ≤ b.dayNumber) : a.month ≤ b.month := by
  by_contra hlt
  have := dayNumber_lt_of_month_lt hyear.symm (show b.month < a.month by omega)
  omega

theorem dayNumber_inj {a b : Date} : a.dayNumber = b.dayNumber ↔ a = b := by
  constructor
  · intro h
    have hyear : a.year = b.year :=
      Int.le_antisymm (year_le_of_dayNumber_le h.le) (year_le_of_dayNumber_le h.ge)
    have hmonth : a.month = b.month :=
      Nat.le_antisymm (month_le_of_dayNumber_le hyear h.le)
        (month_le_of_dayNumber_le hyear.symm h.ge)
    have hday : a.day = b.day := by
      unfold dayNumber at h
      rw [hyear, hmonth] at h
      omega
    cases a
    cases b
    cases hyear
    cases hmonth
    cases hday
    rfl
  · rintro rfl
    rfl

end Numbering

section Neighbours

@[simp]
theorem dayNumber_next (d : Date) : d.next.dayNumber = d.dayNumber + 1 := by
  have hday := d.day_le
  unfold next
  split
  · simp only [dayNumber]
    omega
  split
  · next hmonth =>
    simp only [dayNumber]
    rw [daysBeforeMonth_succ _ d.one_le_month]
    omega
  · next hmonth =>
    have hdecember : d.month = 12 := by
      have := d.month_le
      omega
    have hyear := daysBeforeMonth_thirteen d.year
    rw [daysBeforeMonth_succ _ (by decide), ← hdecember] at hyear
    simp only [dayNumber, daysBeforeYear_succ, daysBeforeMonth]
    omega

@[simp]
theorem dayNumber_previous (d : Date) : d.previous.dayNumber = d.dayNumber - 1 := by
  have hday := d.one_le_day
  unfold previous
  split
  · simp only [dayNumber]
    omega
  split
  · next hmonth =>
    have hsucc := daysBeforeMonth_succ d.year (show 1 ≤ d.month - 1 by omega)
    rw [Nat.sub_add_cancel d.one_le_month] at hsucc
    simp only [dayNumber]
    omega
  · next hmonth =>
    have hjanuary : d.month = 1 := by
      have := d.one_le_month
      omega
    have hyear := daysBeforeYear_succ (d.year - 1)
    have hmonths := daysBeforeMonth_thirteen (d.year - 1)
    rw [daysBeforeMonth_succ _ (by decide)] at hmonths
    simp only [dayNumber, hjanuary, daysBeforeMonth, daysInMonth] at hmonths ⊢
    rw [Int.sub_add_cancel] at hyear
    omega

theorem dayNumber_iterate_next (k : Nat) (d : Date) :
    (next^[k] d).dayNumber = d.dayNumber + k := by
  induction k with
  | zero => simp
  | succ k ih =>
    rw [Function.iterate_succ_apply', dayNumber_next, ih]
    omega

theorem dayNumber_iterate_previous (k : Nat) (d : Date) :
    (previous^[k] d).dayNumber = d.dayNumber - k := by
  induction k with
  | zero => simp
  | succ k ih =>
    rw [Function.iterate_succ_apply', dayNumber_previous, ih]
    omega

end Neighbours

section Weeks

def sevenDays (d : Date) : List Date :=
  List.iterate next d 7

def SameWeek (a b : Date) : Prop :=
  ∃ monday : Date, monday.weekday = 0 ∧ a ∈ monday.sevenDays ∧ b ∈ monday.sevenDays

theorem mem_sevenDays_iff (d a : Date) :
    a ∈ d.sevenDays ↔ d.dayNumber ≤ a.dayNumber ∧ a.dayNumber < d.dayNumber + 7 := by
  unfold sevenDays
  rw [List.mem_iterate]
  constructor
  · rintro ⟨k, hk, rfl⟩
    rw [dayNumber_iterate_next]
    omega
  · rintro ⟨hle, hlt⟩
    refine ⟨(a.dayNumber - d.dayNumber).toNat, by omega, ?_⟩
    rw [← dayNumber_inj, dayNumber_iterate_next]
    omega

theorem weekStart_le (d : Date) : d.weekStart ≤ d.dayNumber ∧ d.dayNumber < d.weekStart + 7 := by
  unfold weekStart weekday
  omega

theorem weekStart_eq_of_monday {monday d : Date} (hmonday : monday.weekday = 0)
    (h : d ∈ monday.sevenDays) : d.weekStart = monday.dayNumber := by
  rw [mem_sevenDays_iff] at h
  unfold weekday at hmonday
  unfold weekStart weekday
  omega

theorem exists_monday (d : Date) :
    ∃ monday : Date, monday.weekday = 0 ∧ monday.dayNumber = d.weekStart := by
  refine ⟨previous^[d.weekday.toNat] d, ?_⟩
  unfold weekStart weekday
  rw [dayNumber_iterate_previous]
  omega

theorem sameWeek_iff (a b : Date) : a.SameWeek b ↔ a.weekStart = b.weekStart := by
  constructor
  · rintro ⟨monday, hmonday, ha, hb⟩
    rw [weekStart_eq_of_monday hmonday ha, weekStart_eq_of_monday hmonday hb]
  · intro h
    obtain ⟨monday, hmonday, hstart⟩ := a.exists_monday
    have ha := a.weekStart_le
    have hb := b.weekStart_le
    exact ⟨monday, hmonday, (mem_sevenDays_iff ..).2 (by omega),
      (mem_sevenDays_iff ..).2 (by omega)⟩

instance (a b : Date) : Decidable (a.SameWeek b) :=
  decidable_of_iff _ (sameWeek_iff a b).symm

example : SameWeek ⟨2024, 12, 30, by decide, by decide, by decide, by decide⟩
    ⟨2025, 1, 5, by decide, by decide, by decide, by decide⟩ := by decide

end Weeks

end Date

theorem Timestamp.dayNumber_le_of_le {a b : Timestamp} (h : a ≤ b) :
    a.date.dayNumber ≤ b.date.dayNumber := by
  rw [Timestamp.le_def] at h
  have := a.second_lt
  have := a.nano_lt
  have := b.second_lt
  have := b.nano_lt
  unfold Timestamp.rank at h
  omega

end ListKeeper
