import ListKeeper.Checklist

/-!
This module contains the periods by which lists are filtered, seen from a point in time.
-/

namespace ListKeeper

def Timestamp.firstDay : Int := Date.daysBeforeYear firstYear + 1

inductive Period where
  | today
  | thisWeek
  | thisMonth
  | thisYear
  | older
deriving DecidableEq, Repr

namespace Period

def all : List Period :=
  [.today, .thisWeek, .thisMonth, .thisYear, .older]

def name : Period → String
  | .today => "today"
  | .thisWeek => "this_week"
  | .thisMonth => "this_month"
  | .thisYear => "this_year"
  | .older => "older"

def shortNames : List (String × Period) :=
  [("week", .thisWeek), ("month", .thisMonth), ("year", .thisYear)]

def ofName? (s : String) : Option Period :=
  all.find? fun period => period.name == s

def parse? (s : String) : Option Period :=
  let s := Text.lowered (Text.trimmed s)
  (ofName? s).or (shortNames.lookup s)

/--
The point in time lies in the period, seen from `now`. A week starts on Monday and ends now; the
other periods are whole days, months and years.
-/
def covers (period : Period) (at' now : Timestamp) : Bool :=
  match period with
  | .today => at'.date == now.date
  | .thisWeek => now.date.weekStart ≤ at'.date.dayNumber && at' ≤ now
  | .thisMonth => at'.date.year == now.date.year && at'.date.month == now.date.month
  | .thisYear => at'.date.year == now.date.year
  | .older => at'.date.year < now.date.year

/--
Whether the point in time lies in the period, as far as that can be told. There is no answer when
the week of `now` starts before the first day.
-/
def covers? (period : Period) (at' now : Timestamp) : Option Bool :=
  if period = .thisWeek ∧ now.date.weekStart < Timestamp.firstDay then none
  else some (period.covers at' now)

def toJson (period : Period) : Json := .str period.name

def ofJson? (j : Json) : Option Period := j.name?.bind ofName?

end Period
end ListKeeper
