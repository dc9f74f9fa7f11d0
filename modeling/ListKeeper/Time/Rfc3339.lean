import ListKeeper.Text.Basic
import ListKeeper.Time.Timestamp

/-!
This module contains the written form of a point in time. Writing gives the fewest of 0, 3, 6 or 9
fraction digits; reading takes any offset and is generous about blanks and missing zeros.
-/

namespace ListKeeper.Timestamp

open Text

def firstYear : Int := -262143

def lastYear : Int := 262142

def writeYear (year : Int) : List Char :=
  if 0 ≤ year ∧ year ≤ 9999 then padded 4 year.toNat
  else (if year < 0 then '-' else '+') :: padded 4 year.natAbs

def writeFraction (nano : Nat) : List Char :=
  if nano = 0 then []
  else if nano % 1000000 = 0 then '.' :: padded 3 (nano / 1000000)
  else if nano % 1000 = 0 then '.' :: padded 6 (nano / 1000)
  else '.' :: padded 9 nano

def write (t : Timestamp) : List Char :=
  let leap := if 1000000000 ≤ t.nano then 1 else 0
  writeYear t.date.year ++ '-' :: padded 2 t.date.month ++ '-' :: padded 2 t.date.day ++
    'T' :: padded 2 (t.second / 3600) ++ ':' :: padded 2 (t.second / 60 % 60) ++
    ':' :: padded 2 (t.second % 60 + leap) ++ writeFraction (t.nano % 1000000000) ++ ['Z']

def readNumber (most : Nat) (cs : List Char) : Option (Nat × List Char) :=
  match takeDigits most cs with
  | ([], _) => none
  | (ds, rest) => some (digitsValue ds, rest)

def readPart (cs : List Char) : Option (Nat × List Char) :=
  readNumber 2 (trimStart cs)

def readMark (marks : List Char) : List Char → Option (List Char)
  | [] => none
  | c :: rest => if marks.contains c then some rest else none

def readYear (cs : List Char) : Option (Int × List Char) :=
  match trimStart cs with
  | '-' :: rest => (readNumber rest.length rest).map fun (n, rest) => (-(n : Int), rest)
  | '+' :: rest => (readNumber rest.length rest).map fun (n, rest) => ((n : Int), rest)
  | rest => (readNumber 4 rest).map fun (n, rest) => ((n : Int), rest)

def readFraction : List Char → Option (Nat × List Char)
  | '.' :: rest =>
    match takeDigits 9 rest with
    | ([], _) => none
    | (ds, rest) =>
      some (digitsValue ds * Nat.pow 10 (9 - ds.length), rest.dropWhile Char.isDigit)
  | rest => some (0, rest)

def readHourMinute : List Char → Option (Int × List Char)
  | h₁ :: h₂ :: rest =>
    if h₁.isDigit && h₂.isDigit then
      match rest.dropWhile fun c => c == ':' || isBlank c with
      | m₁ :: m₂ :: rest =>
        if m₁.isDigit && m₁ ≤ '5' && m₂.isDigit then
          some (digitsValue [h₁, h₂] * 60 + digitsValue [m₁, m₂], rest)
        else
          none
      | _ => none
    else
      none
  | _ => none

def readOffset (cs : List Char) : Option (Int × List Char) :=
  if (cs.take 3).map Char.toUpper = ['U', 'T', 'C'] then
    some (0, cs.drop 3)
  else
    match cs with
    | 'Z' :: rest | 'z' :: rest => some (0, rest)
    | '+' :: rest => readHourMinute rest
    | '-' :: rest | '−' :: rest => (readHourMinute rest).map fun (n, rest) => (-n, rest)
    | _ => none

def yearInRange (year : Int) : Bool :=
  firstYear ≤ year && year ≤ lastYear

/--
Put the parts of a reading together. The 60th second of a minute is a leap second.
-/
def assemble? (date : Date) (hour minute second nano : Nat) (ahead : Int) : Option Timestamp :=
  if h : hour < 24 ∧ minute < 60 ∧ second ≤ 60 ∧ nano < 1000000000 ∧ ahead.natAbs < 1440 then
    let leap := if second = 60 then 1 else 0
    some (fromClock
      ⟨date, hour * 3600 + minute * 60 + (second - leap), nano + leap * 1000000000,
        by dsimp only [leap]; split <;> omega, by dsimp only [leap]; split <;> omega⟩ ahead)
  else
    none

def read (cs : List Char) : Option Timestamp := do
  let (year, cs) ← readYear cs
  let cs ← readMark ['-'] (trimStart cs)
  let (month, cs) ← readPart cs
  let cs ← readMark ['-'] (trimStart cs)
  let (day, cs) ← readPart cs
  let cs ← readMark ['T', 't', ' '] cs
  let (hour, cs) ← readPart cs
  let cs ← readMark [':'] (trimStart cs)
  let (minute, cs) ← readPart cs
  let cs ← readMark [':'] (trimStart cs)
  let (second, cs) ← readPart cs
  let (nano, cs) ← readFraction cs
  let (ahead, cs) ← readOffset (trimStart cs)
  guard (trimStart cs).isEmpty
  guard (yearInRange year)
  let date ← Date.of? year month day
  let t ← assemble? date hour minute second nano ahead
  guard (yearInRange t.date.year)
  return t

def toText (t : Timestamp) : String :=
  String.ofList t.write

def ofText? (s : String) : Option Timestamp :=
  read s.toList

end ListKeeper.Timestamp
