import ListKeeper.Time.Date

/-!
This module contains points in time: a date, a second of that day and a part of that second. A leap
second is the second before it with a part beyond one whole second. It also contains spans of time in
whole nanoseconds, which are shown in whole milliseconds of a 64-bit word.
-/

namespace ListKeeper

structure Timestamp where
  date : Date
  second : Nat
  nano : Nat
  second_lt : second < 86400
  nano_lt : nano < 2000000000
deriving DecidableEq, Repr

namespace Timestamp

def rank (t : Timestamp) : Int :=
  (t.date.dayNumber * 86400 + t.second) * 2000000000 + t.nano

instance : LE Timestamp where
  le a b := a.rank ≤ b.rank

instance (a b : Timestamp) : Decidable (a ≤ b) :=
  inferInstanceAs (Decidable (a.rank ≤ b.rank))

theorem le_def {a b : Timestamp} : a ≤ b ↔ a.rank ≤ b.rank := Iff.rfl

def fromClock (reading : Timestamp) (ahead : Int) : Timestamp :=
  let total : Int := reading.second - ahead * 60
  let date :=
    if total < 0 then reading.date.previous
    else if total < 86400 then reading.date
    else reading.date.next
  ⟨date, (total % 86400).toNat, reading.nano, by omega, reading.nano_lt⟩

def epoch : Timestamp :=
  ⟨⟨1970, 1, 1, by decide, by decide, by decide, by decide⟩, 0, 0, by decide, by decide⟩

def ofUnix? (seconds : Int) (nanos : Nat) : Option Timestamp := do
  let date ← Date.ofDayNumber? (seconds / 86400 + 719163)
  return ⟨date, (seconds % 86400).toNat, nanos % 1000000000, by omega, by omega⟩

end Timestamp
structure Duration where
  nanos : Nat
deriving DecidableEq, Repr

namespace Duration

def ofMillis (n : Nat) : Duration := ⟨n * 1000000⟩

def ofMicros (n : Nat) : Duration := ⟨n * 1000⟩

def millis (d : Duration) : Nat := d.nanos / 1000000

def millisUp (d : Duration) : Nat := (d.nanos + 999999) / 1000000

def millisWord (d : Duration) : UInt64 := UInt64.ofNat d.millis

@[simp]
theorem millis_ofMillis (n : Nat) : (ofMillis n).millis = n := by
  simp [ofMillis, millis]

end Duration

end ListKeeper
