import ServiceExposure.Text.Decimal
/-!
# Socket addresses

A socket address is a host and a port: `a.b.c.d:port`, or `[groups]:port` for the eight groups of an IPv6 address, with
`%` and a scope before the bracket where one is needed.  In an IPv6 address one run of zero groups may be written as
`::`, and the last two groups as an IPv4 address.
-/
namespace ServiceExposure

inductive HostAddress where
  | ipv4 (octets : Vector UInt8 4)
  | ipv6 (groups : Vector UInt16 8) (scope : UInt32)
deriving DecidableEq

structure SocketAddress where
  host : HostAddress
  port : UInt16
deriving DecidableEq

namespace HostAddress

/-- Reads one of the numbers of an IPv4 address, which has no zeros in front. -/
def octet? (cs : List Char) : Option UInt8 :=
  if cs.head? = some '0' ∧ cs ≠ ['0'] then none
  else ((Decimal.ofDigits? cs).filter (· < UInt8.size)).map UInt8.ofNat

def octets? (cs : List Char) : Option (Vector UInt8 4) :=
  match cs.splitOn '.' with
  | [a, b, c, d] => do return #v[← octet? a, ← octet? b, ← octet? c, ← octet? d]
  | _ => none

/-- Reads a group of an IPv6 address: up to four hexadecimal digits. -/
def group? (cs : List Char) : Option UInt16 :=
  if cs = [] ∨ 4 < cs.length then none
  else (cs.mapM Text.hexDigit?).map (fun digits => UInt16.ofNat (digits.foldl (fun n d => 16 * n + d) 0))

/-- Two numbers of an IPv4 address as a group. -/
def groupOf (high low : UInt8) : UInt16 := UInt16.ofNat (256 * high.toNat + low.toNat)

/-- Reads groups, of which the last two may be written as an IPv4 address. -/
def mixedGroups? : List (List Char) → Option (List UInt16)
  | [] => some []
  | [last] =>
    match octets? last with
    | some o => some [groupOf o[0] o[1], groupOf o[2] o[3]]
    | none => (group? last).map ([·])
  | cs :: rest => do return (← group? cs) :: (← mixedGroups? rest)

/-- The texts between the colons; none in an empty text. -/
def parts (cs : List Char) : List (List Char) := if cs = [] then [] else cs.splitOn ':'

/-- Parts a text at the first two colons in a row. -/
def cutAtGap : List Char → Option (List Char × List Char)
  | [] => none
  | [_] => none
  | c :: d :: cs => if c = ':' ∧ d = ':' then some ([], cs) else (cutAtGap (d :: cs)).map (fun p => (c :: p.1, p.2))

/-- Reads the groups of an IPv6 address.  The gap stands for at least one group. -/
def groups? (cs : List Char) : Option (Vector UInt16 8) := do
  let groups ← match cutAtGap cs with
    | none => mixedGroups? (parts cs)
    | some (front, back) => do
      let front ← (parts front).mapM group?
      let back ← mixedGroups? (parts back)
      if front.length + back.length < 8 then
        some (front ++ List.replicate (8 - front.length - back.length) 0 ++ back)
      else none
  if h : groups.length = 8 then some ⟨groups.toArray, h⟩ else none

/-- Reads an IPv6 address, perhaps with a scope. -/
def ipv6? (cs : List Char) : Option HostAddress :=
  match Text.cutChars '%' cs with
  | none => (groups? cs).map (.ipv6 · 0)
  | some (cs, scope) => do
    return .ipv6 (← groups? cs) (UInt32.ofNat (← (Decimal.ofDigits? scope).filter (· < UInt32.size)))

def text : HostAddress → String
  | .ipv4 octets => Text.join "." (octets.toList.map toString)
  | .ipv6 groups scope =>
    "[" ++ Text.join ":" (groups.toList.map (fun g => String.ofList (Nat.toDigits 16 g.toNat))) ++
      (if scope = 0 then "" else "%" ++ toString scope) ++ "]"

end HostAddress

namespace SocketAddress

/-- Reads a port; zeros may stand in front. -/
def port? (cs : List Char) : Option UInt16 := ((Decimal.ofDigits? cs).filter (· < UInt16.size)).map UInt16.ofNat

def ofText? (s : String) : Option SocketAddress :=
  match s.toList with
  | '[' :: cs => do
    let (host, rest) ← Text.cutChars ']' cs
    match rest with
    | ':' :: port => return ⟨← HostAddress.ipv6? host, ← port? port⟩
    | _ => none
  | cs => do
    let (host, port) ← Text.cutChars ':' cs
    return ⟨.ipv4 (← HostAddress.octets? host), ← port? port⟩

def text (a : SocketAddress) : String := a.host.text ++ ":" ++ toString a.port

end SocketAddress
end ServiceExposure
