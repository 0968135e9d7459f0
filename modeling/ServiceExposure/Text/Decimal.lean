import ServiceExposure.Text.Basic
/-!
# Decimal: whole numbers in decimal digits

A number is written by `toString`: the digits without leading zeros, after `-` when it is negative.  Reading is more
liberal: leading zeros count for nothing and a sign may stand in front, `+` always and `-` where the range has negative
numbers.  What is not a number, or is outside the range asked for, reads as `none`.
-/
namespace ServiceExposure
namespace Decimal

/-- The number that a non-empty list of decimal digits stands for. -/
def ofDigits? (cs : List Char) : Option Nat :=
  if cs ≠ [] ∧ cs.all Char.isDigit then some (Nat.ofDigitChars 10 cs 0) else none

theorem ofDigits?_toDigits (n : Nat) : ofDigits? (Nat.toDigits 10 n) = some n := by
  have hd : (Nat.toDigits 10 n).all Char.isDigit = true :=
    List.all_eq_true.2 (fun c hc => Nat.isDigit_of_mem_toDigits (by decide) (by decide) hc)
  simp [ofDigits?, Nat.toDigits_ne_nil, Nat.ofDigitChars_ten_toDigits, hd]

/-- Reads a number that is at least 0 and at most `max`. -/
def readUnsigned? (max : Nat) (s : String) : Option Nat :=
  let digits := match s.toList with
    | '+' :: cs => cs
    | cs => cs
  (ofDigits? digits).filter (· ≤ max)

/-- Reads a number that is at least `min` and at most `max`, with an optional sign. -/
def readSigned? (min max : Int) (s : String) : Option Int :=
  let number := match s.toList with
    | '-' :: cs => (ofDigits? cs).map (fun n => -(n : Int))
    | '+' :: cs => (ofDigits? cs).map Int.ofNat
    | cs => (ofDigits? cs).map Int.ofNat
  number.filter (fun n => min ≤ n ∧ n ≤ max)

theorem readUnsigned?_repr {max n : Nat} (h : n ≤ max) : readUnsigned? max n.repr = some n := by
  have hs : n.repr.toList = Nat.toDigits 10 n := by simp [Nat.repr_eq_ofList_toDigits]
  have hm : (match n.repr.toList with | '+' :: cs => cs | cs => cs) = Nat.toDigits 10 n := by
    rw [hs]
    split
    · rename_i cs hc
      have : ('+').isDigit = true := Nat.isDigit_of_mem_toDigits (by decide) (by decide) (hc ▸ List.mem_cons_self)
      exact absurd this (by decide)
    · rfl
  simp only [readUnsigned?, hm, ofDigits?_toDigits]
  simp [h]

end Decimal
end ServiceExposure
