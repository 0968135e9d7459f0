/-!
# Base64

Bytes are written in groups of four characters for three bytes (RFC 4648), where `=` fills up the last group.  Every
list of bytes has one form: the bits that the last character has to spare are zero.
-/
namespace ServiceExposure
namespace Base64

/-- The six bits that a character stands for. -/
def value? (c : Char) : Option Nat :=
  if 'A' ≤ c ∧ c ≤ 'Z' then some (c.toNat - 65)
  else if 'a' ≤ c ∧ c ≤ 'z' then some (c.toNat - 97 + 26)
  else if '0' ≤ c ∧ c ≤ '9' then some (c.toNat - 48 + 52)
  else if c = '+' then some 62
  else if c = '/' then some 63
  else none

/-- Tests for a character whose last bits are zero, which it has to spare. -/
def spares (n : Nat) (c : Char) : Bool := (value? c).any (fun v => v % n = 0)

/-- Tests for the form of a list of bytes. -/
def isForm (s : String) : Bool :=
  s.toList.length % 4 = 0 &&
    match s.toList.reverse with
    | '=' :: '=' :: c :: cs => spares 16 c && cs.all (fun c => (value? c).isSome)
    | '=' :: c :: cs => spares 4 c && cs.all (fun c => (value? c).isSome)
    | cs => cs.all (fun c => (value? c).isSome)

end Base64
end ServiceExposure
