import ServiceExposure.Text.Decimal
/-!
# Durations

A duration of a whole number of milliseconds is written in seconds from one second on, with as many places as are
needed, and in milliseconds below; no time at all is `0ns`.  A duration is read from numbers with their units, which are
added up, as in `1h30m` or `1.5s`.
-/
namespace ServiceExposure
namespace Duration

/-- The places of a fraction of thousandths, without zeros at the end. -/
def places (thousandths : Nat) : List Char :=
  ([thousandths / 100 % 10, thousandths / 10 % 10, thousandths % 10].map Nat.digitChar).reverse.dropWhile
    (fun c => c = '0') |>.reverse

def text (ms : Nat) : String :=
  if ms = 0 then "0ns"
  else if ms < 1000 then toString ms ++ "ms"
  else
    let places := places (ms % 1000)
    toString (ms / 1000) ++ (if places = [] then "" else "." ++ String.ofList places) ++ "s"

/-! ## Reading -/

/-- The units of a duration, with the nanoseconds that each stands for.  The micro sign and the Greek letter are both in
use. -/
def units : List (String × Nat) :=
  [("ns", 1), ("us", 1000), ("\u00b5s", 1000), ("\u03bcs", 1000), ("ms", 1000000), ("s", 1000000000),
   ("m", 60 * 1000000000), ("h", 3600 * 1000000000)]

/-- Tests for a character of a number. -/
def isNumeral (c : Char) : Bool := c.isDigit || c ∈ ['.', '+', '-']

/-- Reads a number with places, as its digits and how many of them are places; on either side of the point there may be
no digits. -/
def decimal? (cs : List Char) : Option (Nat × Nat) :=
  let (whole, places) := (Text.cutChars '.' cs).getD (cs, [])
  (Decimal.ofDigits? (whole ++ places)).map (fun n => (n, places.length))

/-- The multiple of the smallest binary64 number above zero that is nearest to a fraction, the even one of two. -/
def inSmallest (n d : Nat) : Nat :=
  let q := n * Nat.pow 2 1074 / d
  let r := n * Nat.pow 2 1074 % d
  if d < 2 * r ∨ d = 2 * r ∧ q % 2 = 1 then q + 1 else q

/-- Tests for a number of units that binary64 does not tell from zero. -/
def isNegligible (n places ns : Nat) : Bool := 2 * (inSmallest n (Nat.pow 10 places) * ns) ≤ 1000000000

/-- Reads a number of units, in nanoseconds.  It may have a sign, but is not below zero. -/
def amount? (ns : Nat) : List Char → Option Nat
  | '-' :: cs => (decimal? cs).bind (fun n => if isNegligible n.1 n.2 ns then some 0 else none)
  | '+' :: cs => (decimal? cs).map (fun n => n.1 * ns / Nat.pow 10 n.2)
  | cs => (decimal? cs).map (fun n => n.1 * ns / Nat.pow 10 n.2)

/-- Adds up numbers with their units, in nanoseconds.  A zero at the end needs no unit. -/
def total? : List (List Char) → Option Nat
  | [] | [['0']] => some 0
  | [_] => none
  | number :: unit :: runs => do
    let ns ← units.lookup (String.ofList unit)
    return (← amount? ns number) + (← total? runs)

/-- Reads a duration, in nanoseconds.  Any number of plus signs and then of minus signs may stand in front; the very first
character decides whether the duration is below zero. -/
def ofText? (s : String) : Option Int :=
  let unsigned := (s.toList.dropWhile (· = '+')).dropWhile (· = '-')
  let total := total? (unsigned.splitBy (fun c d => isNumeral c = isNumeral d))
  total.map (fun n => if s.toList.head? = some '-' then -(n : Int) else n)

end Duration
end ServiceExposure
