import ListKeeper.Period
import ListKeeper.Proofs.Time.Calendar

/-!
This module contains that periods are consistent with each other and with the calendar: a week is
that of the calendar up to now, a day lies in its week and month and a month in its year, and what
lies between two points in time of a period is in the period.
-/

namespace ListKeeper

def Date.BeforeFirstMonday (d : Date) : Prop :=
  d.year = Timestamp.firstYear ∧ d.month = 1 ∧ d.day ≤ 4

instance (d : Date) : Decidable d.BeforeFirstMonday :=
  inferInstanceAs (Decidable (_ ∧ _))

theorem Date.firstDay_le {d : Date} (h : Timestamp.firstYear ≤ d.year) :
    Timestamp.firstDay ≤ d.dayNumber := by
  have hyear := daysBeforeYear_mono h
  have := d.one_le_day
  unfold Timestamp.firstDay dayNumber
  omega

theorem Date.weekStart_lt_firstDay_iff {d : Date} (h : Timestamp.firstYear ≤ d.year) :
    d.weekStart < Timestamp.firstDay ↔ d.BeforeFirstMonday := by
  let sunday : Date := ⟨Timestamp.firstYear, 1, 4, by decide, by decide, by decide, by decide⟩
  have hsunday : sunday.dayNumber = Timestamp.firstDay + 3 := by decide
  have hweekday : (Timestamp.firstDay - 1) % 7 = 3 := by decide
  have hfirst := firstDay_le h
  have hweek : d.weekStart < Timestamp.firstDay ↔ d.dayNumber ≤ sunday.dayNumber := by
    unfold weekStart weekday
    omega
  rw [hweek]
  constructor
  · intro hle
    have hyear : d.year = sunday.year := Int.le_antisymm (year_le_of_dayNumber_le hle) h
    have hmonth : d.month = 1 :=
      Nat.le_antisymm (month_le_of_dayNumber_le hyear hle) d.one_le_month
    refine ⟨hyear, hmonth, ?_⟩
    simp only [dayNumber, hyear, hmonth, sunday] at hle
    omega
  · rintro ⟨hyear, hmonth, hday⟩
    simp only [dayNumber, hyear, hmonth, sunday]
    omega

namespace Period

/--
The period has the point in time in it.
-/
def Covers (period : Period) (at' now : Timestamp) : Prop :=
  period.covers? at' now = some true

instance (period : Period) (at' now : Timestamp) : Decidable (period.Covers at' now) :=
  inferInstanceAs (Decidable (_ = _))

variable {at' now : Timestamp}

theorem covers_iff {period : Period} (h : period ≠ .thisWeek) :
    period.Covers at' now ↔ period.covers at' now = true := by
  unfold Covers covers?
  rw [if_neg fun hweek => h hweek.1, Option.some_inj]

theorem today_iff : today.Covers at' now ↔ at'.date = now.date := by
  rw [covers_iff (by decide), covers, beq_iff_eq]

theorem thisMonth_iff :
    thisMonth.Covers at' now ↔ at'.date.year = now.date.year ∧ at'.date.month = now.date.month := by
  rw [covers_iff (by decide), covers, Bool.and_eq_true, beq_iff_eq, beq_iff_eq]

theorem thisYear_iff : thisYear.Covers at' now ↔ at'.date.year = now.date.year := by
  rw [covers_iff (by decide), covers, beq_iff_eq]

theorem older_iff : older.Covers at' now ↔ at'.date.year < now.date.year := by
  rw [covers_iff (by decide), covers, decide_eq_true_iff]

theorem thisWeek_iff : thisWeek.Covers at' now ↔
    Timestamp.firstDay ≤ now.date.weekStart ∧ now.date.weekStart ≤ at'.date.dayNumber ∧
      at' ≤ now := by
  unfold Covers covers?
  split
  · next h => grind
  · next h => simp [covers]; grind

theorem covers?_eq_none_iff {period : Period} :
    period.covers? at' now = none ↔
      period = .thisWeek ∧ now.date.weekStart < Timestamp.firstDay := by
  simp [covers?]

theorem thisWeek_iff_sameWeek (h : Timestamp.firstDay ≤ now.date.weekStart) (at' : Timestamp) :
    thisWeek.Covers at' now ↔ at' ≤ now ∧ at'.date.SameWeek now.date := by
  have hat := at'.date.weekStart_le
  rw [thisWeek_iff, Date.sameWeek_iff]
  constructor
  · rintro ⟨_, hstart, hle⟩
    have := Timestamp.dayNumber_le_of_le hle
    refine ⟨hle, ?_⟩
    unfold Date.weekStart Date.weekday at *
    omega
  · rintro ⟨hle, hstart⟩
    exact ⟨h, by omega, hle⟩

theorem Covers.between {period : Period} {a b c : Timestamp} (hab : a ≤ b) (hbc : b ≤ c)
    (ha : period.Covers a now) (hc : period.Covers c now) : period.Covers b now := by
  have hab' := Timestamp.dayNumber_le_of_le hab
  have hbc' := Timestamp.dayNumber_le_of_le hbc
  have hlow := Date.year_le_of_dayNumber_le hab'
  have hhigh := Date.year_le_of_dayNumber_le hbc'
  cases period with
  | today =>
    rw [today_iff, ← Date.dayNumber_inj] at *
    omega
  | thisWeek =>
    rw [thisWeek_iff] at *
    exact ⟨ha.1, by omega, Int.le_trans hbc hc.2.2⟩
  | thisMonth =>
    rw [thisMonth_iff] at *
    have hyear : b.date.year = now.date.year := by omega
    have hlow := Date.month_le_of_dayNumber_le (ha.1.trans hyear.symm) hab'
    have hhigh := Date.month_le_of_dayNumber_le (hyear.trans hc.1.symm) hbc'
    exact ⟨hyear, by omega⟩
  | thisYear =>
    rw [thisYear_iff] at *
    omega
  | older =>
    rw [older_iff] at *
    omega

/--
Seen from any time of the calendar, periods are consistent. There is no answer exactly if this week
is asked for before the first Monday; otherwise this week is the week of the calendar up to now. For
what was before now, a day is in its week and month, a month is in its year, and either this year or
an older one is the right one. What lies between two points in time of a period is in the period.
-/
theorem periods_consistent (hnow : Timestamp.yearInRange now.date.year = true) :
    (∀ (period : Period) (at' : Timestamp), period.covers? at' now = none ↔
      period = .thisWeek ∧ now.date.BeforeFirstMonday) ∧
    (¬ now.date.BeforeFirstMonday → ∀ at', thisWeek.Covers at' now ↔
      at' ≤ now ∧ at'.date.SameWeek now.date) ∧
    (∀ at', at' ≤ now → today.Covers at' now →
      (¬ now.date.BeforeFirstMonday → thisWeek.Covers at' now) ∧ thisMonth.Covers at' now) ∧
    (∀ at', at' ≤ now → thisMonth.Covers at' now → thisYear.Covers at' now) ∧
    (∀ at', at' ≤ now → Xor (thisYear.Covers at' now) (older.Covers at' now)) ∧
    ∀ (period : Period) (a b c : Timestamp), a ≤ b → b ≤ c →
      period.Covers a now → period.Covers c now → period.Covers b now := by
  have hyear : Timestamp.firstYear ≤ now.date.year := by
    simp only [Timestamp.yearInRange, Bool.and_eq_true, decide_eq_true_eq] at hnow
    exact hnow.1
  have hearly := Date.weekStart_lt_firstDay_iff hyear
  have hweek (h : ¬ now.date.BeforeFirstMonday) :=
    thisWeek_iff_sameWeek (Int.not_lt.1 (hearly.not.2 h))
  refine ⟨?_, hweek, ?_, ?_, ?_, fun _ _ _ _ => Covers.between⟩
  · intro period at'
    rw [covers?_eq_none_iff, hearly]
  · intro at' hle htoday
    rw [today_iff] at htoday
    refine ⟨fun h => (hweek h at').2 ⟨hle, ?_⟩, ?_⟩
    · rw [Date.sameWeek_iff, htoday]
    · rw [thisMonth_iff, htoday]
      exact ⟨rfl, rfl⟩
  · intro at' _ hmonth
    exact thisYear_iff.2 (thisMonth_iff.1 hmonth).1
  · intro at' hle
    have hyears := Date.year_le_of_dayNumber_le (Timestamp.dayNumber_le_of_le hle)
    rw [thisYear_iff, older_iff]
    rcases Int.lt_or_eq_of_le hyears with hlt | heq
    · exact .inr ⟨hlt, by omega⟩
    · exact .inl ⟨heq, by omega⟩

/--
On New Year's Day of 2025, a Wednesday, the Monday of the week was still in the year before.
-/
theorem periods_consistent_newYear :
    let now : Timestamp :=
      ⟨⟨2025, 1, 1, by decide, by decide, by decide, by decide⟩, 43200, 0, by decide, by decide⟩
    let monday : Timestamp :=
      ⟨⟨2024, 12, 30, by decide, by decide, by decide, by decide⟩, 0, 0, by decide, by decide⟩
    (Timestamp.yearInRange now.date.year = true ∧ ¬ now.date.BeforeFirstMonday ∧ monday ≤ now) ∧
      (monday.date.SameWeek now.date ∧ thisWeek.Covers monday now) ∧
      Xor (thisYear.Covers monday now) (older.Covers monday now) ∧ older.Covers monday now := by
  intro now monday
  have hrange : Timestamp.yearInRange now.date.year = true := by decide
  have hlate : ¬ now.date.BeforeFirstMonday := by decide
  have hle : monday ≤ now := by decide
  have hsame : monday.date.SameWeek now.date := by decide
  obtain ⟨_, hweek, _, _, hyears, _⟩ := periods_consistent hrange
  exact ⟨⟨hrange, hlate, hle⟩, ⟨hsame, (hweek hlate monday).2 ⟨hle, hsame⟩⟩, hyears monday hle,
    by decide⟩

/--
On the first Friday there is no answer whether it lies in its own week.
-/
theorem thisWeek_unanswered_firstFriday :
    let friday : Timestamp :=
      ⟨⟨-262143, 1, 2, by decide, by decide, by decide, by decide⟩, 0, 0, by decide, by decide⟩
    Timestamp.yearInRange friday.date.year = true ∧ friday ≤ friday ∧
      friday.date.SameWeek friday.date ∧ thisWeek.covers? friday friday = none := by
  decide

end Period
end ListKeeper
