import ServiceExposure.Text.Decimal
/-!
# Timestamps

A point in time is written as a day and a time of day with their distance from UTC (RFC 3339), as in
`2024-02-29T12:00:00+01:00`.  `Timestamp.normal?` gives the one form in which such a text is written again: in UTC, with
whole seconds.
-/
namespace ServiceExposure

/-- A day of the calendar. -/
structure Day where
  year : Nat
  /-- From 1 on. -/
  month : Nat
  /-- From 1 on. -/
  day : Nat
deriving DecidableEq

namespace Day

/-- Tests for a year with a 29 February. -/
def isLeap (year : Nat) : Bool := year % 4 = 0 && (year % 100 ≠ 0 || year % 400 = 0)

/-- How many days a month has. -/
def length (year month : Nat) : Nat :=
  match month with
  | 2 => if isLeap year then 29 else 28
  | 4 | 6 | 9 | 11 => 30
  | _ => 31

def isValid (d : Day) : Bool := 1 ≤ d.month && d.month ≤ 12 && 1 ≤ d.day && d.day ≤ length d.year d.month

def next (d : Day) : Day :=
  if d.day < length d.year d.month then { d with day := d.day + 1 }
  else if d.month < 12 then ⟨d.year, d.month + 1, 1⟩
  else ⟨d.year + 1, 1, 1⟩

def previous (d : Day) : Day :=
  if 1 < d.day then { d with day := d.day - 1 }
  else if 1 < d.month then ⟨d.year, d.month - 1, length d.year (d.month - 1)⟩
  else ⟨d.year - 1, 12, 31⟩

end Day

namespace Timestamp

/-- A number with leading zeros up to a width. -/
def padded (width n : Nat) : String :=
  let digits := Nat.toDigits 10 n
  String.ofList (List.replicate (width - digits.length) '0' ++ digits)

/-- The text of a minute of a day and a second of it, where the minute may also be one of the day before or after. -/
def text (d : Day) (minute : Int) (second : Nat) : String :=
  let (d, minute) :=
    if minute < 0 then (d.previous, minute + 1440)
    else if 1440 ≤ minute then (d.next, minute - 1440)
    else (d, minute)
  padded 4 d.year ++ "-" ++ padded 2 d.month ++ "-" ++ padded 2 d.day ++ "T" ++ padded 2 (minute.toNat / 60) ++ ":" ++
    padded 2 (minute.toNat % 60) ++ ":" ++ padded 2 second ++ "Z"

/-- Reads how many minutes a time of day is ahead of UTC. -/
def zone? : List Char → Option Int
  | ['Z'] | ['z'] => some 0
  | [sign, h, h', ':', m, m'] => do
    let hours ← Decimal.ofDigits? [h, h']
    let minutes ← Decimal.ofDigits? [m, m']
    if 24 ≤ hours ∨ 60 ≤ minutes then none
    else if sign = '+' then some ((hours * 60 + minutes : Nat) : Int)
    else if sign = '-' then some (-((hours * 60 + minutes : Nat) : Int))
    else none
  | _ => none

/-- What follows the fraction of a second, where there is one. -/
def afterFraction? : List Char → Option (List Char)
  | '.' :: c :: cs => if c.isDigit then some (cs.dropWhile Char.isDigit) else none
  | cs => some cs

/-- The text of a timestamp in UTC, without the fraction of the second. -/
def normal? (s : String) : Option String :=
  match s.toList with
  | y :: y' :: y'' :: y''' :: '-' :: m :: m' :: '-' :: d :: d' :: t :: h :: h' :: ':' :: i :: i' :: ':' :: s :: s' ::
      rest => do
    let day : Day :=
      ⟨← Decimal.ofDigits? [y, y', y'', y'''], ← Decimal.ofDigits? [m, m'], ← Decimal.ofDigits? [d, d']⟩
    let hour ← Decimal.ofDigits? [h, h']
    let minute ← Decimal.ofDigits? [i, i']
    let second ← Decimal.ofDigits? [s, s']
    let ahead ← zone? (← afterFraction? rest)
    if day.isValid ∧ t ∈ ['T', 't', ' '] ∧ hour < 24 ∧ minute < 60 ∧ second ≤ 60 then
      some (text day (((hour * 60 + minute : Nat) : Int) - ahead) second)
    else none
  | _ => none

end Timestamp
end ServiceExposure
