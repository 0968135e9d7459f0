import ServiceExposure.Json.Basic
import ServiceExposure.Text.Basic
/-!
# Reading JSON

The strict grammar of RFC 8259: blanks are space, tab, line feed and carriage return; no leading zeros, no trailing
commas, no raw control characters in strings; nothing but blanks after the value.  Values may be nested to any depth.
`Json.parse?` reads a whole text.  The functions below it read from the front of a list of characters and give back
what is left; they count down from the length of the text, which no nesting exceeds.
-/
namespace ServiceExposure
namespace Json

/-- Tests for the blanks that may stand between tokens. -/
def isGap (c : Char) : Bool := c = ' ' || c = '\t' || c = '\n' || c = '\r'

/-- What follows the blanks. -/
def skipGap (cs : List Char) : List Char := cs.dropWhile isGap

/-! ## Strings -/

/-- A unit of a string: a character, or the code that a `\u` escape spells. -/
inductive Unit16 where
  | char (c : Char)
  | code (n : Nat)

/-- The value of four hexadecimal digits. -/
def hexCode? (a b c d : Char) : Option Nat := do
  return ((← Text.hexDigit? a) * 16 + (← Text.hexDigit? b)) * 256 + ((← Text.hexDigit? c) * 16 + (← Text.hexDigit? d))

/-- The character that a backslash and a letter stand for. -/
def escaped? : Char → Option Char
  | '"' => some '"'
  | '\\' => some '\\'
  | '/' => some '/'
  | 'b' => some '\x08'
  | 'f' => some '\x0c'
  | 'n' => some '\n'
  | 'r' => some '\r'
  | 't' => some '\t'
  | _ => none

/-- Reads the units of a string after its opening quote, up to and with the closing one. -/
def units? : List Char → Option (List Unit16 × List Char)
  | [] => none
  | '"' :: cs => some ([], cs)
  | '\\' :: 'u' :: a :: b :: c :: d :: cs =>
    match hexCode? a b c d, units? cs with
    | some n, some (us, rest) => some (.code n :: us, rest)
    | _, _ => none
  | '\\' :: e :: cs =>
    match escaped? e, units? cs with
    | some c, some (us, rest) => some (.char c :: us, rest)
    | _, _ => none
  | c :: cs => if c.toNat < 0x20 then none else (units? cs).map (fun r => (.char c :: r.1, r.2))

/-- Tests for the first half of a surrogate pair. -/
def isHighHalf (n : Nat) : Bool := 0xD800 ≤ n && n ≤ 0xDBFF

/-- Tests for the second half of a surrogate pair. -/
def isLowHalf (n : Nat) : Bool := 0xDC00 ≤ n && n ≤ 0xDFFF

/-- The text that units spell: two halves of a surrogate pair make one character, a half alone makes none. -/
def text16? : List Unit16 → Option (List Char)
  | [] => some []
  | .char c :: us => (text16? us).map (c :: ·)
  | .code n :: .code m :: us =>
    if isHighHalf n then
      if isLowHalf m then (text16? us).map (Char.ofNat (0x10000 + (n - 0xD800) * 0x400 + (m - 0xDC00)) :: ·) else none
    else if isLowHalf n then none
    else (text16? (.code m :: us)).map (Char.ofNat n :: ·)
  | .code n :: us => if isHighHalf n || isLowHalf n then none else (text16? us).map (Char.ofNat n :: ·)

/-- Reads a string after its opening quote; a string that is no text reads as `none`. -/
def string? (cs : List Char) : Option (Option String × List Char) :=
  (units? cs).map (fun r => ((text16? r.1).map String.ofList, r.2))

/-! ## Numbers -/

def digits? (cs : List Char) : Option (List Char × List Char) :=
  let ds := cs.takeWhile Char.isDigit
  if ds = [] then none else some (ds, cs.dropWhile Char.isDigit)

/-- Reads the whole part of a number: no leading zeros. -/
def whole? : List Char → Option (Nat × List Char)
  | '0' :: cs => some (0, cs)
  | cs => (digits? cs).map (fun r => (Nat.ofDigitChars 10 r.1 0, r.2))

/-- Reads a fraction if there is one, and tells whether there was. -/
def fraction? : List Char → Option (Bool × List Char)
  | '.' :: cs => (digits? cs).map (fun r => (true, r.2))
  | cs => some (false, cs)

/-- Reads an exponent if there is one, and tells whether there was. -/
def exponent? : List Char → Option (Bool × List Char)
  | 'e' :: cs | 'E' :: cs =>
    let cs := match cs with
      | '+' :: cs | '-' :: cs => cs
      | cs => cs
    (digits? cs).map (fun r => (true, r.2))
  | cs => some (false, cs)

def number? (cs : List Char) : Option (Json × List Char) := do
  let (negative, cs) := match cs with
    | '-' :: cs => (true, cs)
    | cs => (false, cs)
  let (n, cs) ← whole? cs
  let (fractional, cs) ← fraction? cs
  let (scaled, cs) ← exponent? cs
  let value :=
    if fractional || scaled || (negative && n = 0) then .other
    else .int (if negative then -(n : Int) else n)
  return (value, cs)

/-! ## Values -/

/-- The object with the given members; one member name that is no text makes the whole unreadable. -/
def object (members : List (Option String × Json)) : Json :=
  if members.all (fun m => m.1.isSome) then .obj (members.filterMap (fun m => m.1.map (fun k => (k, m.2)))) else .other

mutual

/-- Reads a value whose first character comes next. -/
def value? : Nat → List Char → Option (Json × List Char)
  | 0, _ => none
  | depth + 1, cs =>
    match cs with
    | '"' :: cs => (string? cs).map (fun r => ((r.1.map Json.str).getD .other, r.2))
    | '[' :: cs =>
      match skipGap cs with
      | ']' :: cs => some (.arr [], cs)
      | cs => (items? depth cs).map (fun r => (.arr r.1, r.2))
    | '\x7b' :: cs =>
      match skipGap cs with
      | '\x7d' :: cs => some (.obj [], cs)
      | cs => (members? depth cs).map (fun r => (object r.1, r.2))
    | 'n' :: 'u' :: 'l' :: 'l' :: cs => some (.null, cs)
    | 't' :: 'r' :: 'u' :: 'e' :: cs => some (.bool true, cs)
    | 'f' :: 'a' :: 'l' :: 's' :: 'e' :: cs => some (.bool false, cs)
    | cs => number? cs

/-- Reads the items of a list up to and with the closing bracket. -/
def items? : Nat → List Char → Option (List Json × List Char)
  | 0, _ => none
  | depth + 1, cs =>
    match value? depth (skipGap cs) with
    | none => none
    | some (item, cs) =>
      match skipGap cs with
      | ']' :: cs => some ([item], cs)
      | ',' :: cs => (items? depth cs).map (fun r => (item :: r.1, r.2))
      | _ => none

/-- Reads the members of an object up to and with the closing brace. -/
def members? : Nat → List Char → Option (List (Option String × Json) × List Char)
  | 0, _ => none
  | depth + 1, cs =>
    match skipGap cs with
    | '"' :: cs =>
      match string? cs with
      | none => none
      | some (name, cs) =>
        match skipGap cs with
        | ':' :: cs =>
          match value? depth (skipGap cs) with
          | none => none
          | some (value, cs) =>
            match skipGap cs with
            | '\x7d' :: cs => some ([(name, value)], cs)
            | ',' :: cs => (members? depth cs).map (fun r => ((name, value) :: r.1, r.2))
            | _ => none
        | _ => none
    | _ => none

end

/-- Reads a text that is one JSON value, with blanks around it. -/
def parse? (text : String) : Option Json :=
  match value? (text.toList.length + 1) (skipGap text.toList) with
  | some (v, rest) => if skipGap rest = [] then some v else none
  | none => none

end Json
end ServiceExposure
