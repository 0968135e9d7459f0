import ServiceExposure.Dict
/-!
# JSON values

A JSON text stands for a tree.  Members of an object are kept as they stand, in order and with repetitions, because a
reader of a text may care (a repeated member is a mistake in a record, but not in a map).  Numbers are whole: a number
with a fraction or an exponent, or written `-0`, is well formed but nobody here reads it, and the same holds of a
string that spells half a surrogate pair and of an object with such a member name.  All of these are `other`.
-/
namespace ServiceExposure

inductive Json where
  | null
  | bool (b : Bool)
  | int (n : Int)
  | str (s : String)
  | arr (items : List Json)
  | obj (members : List (String × Json))
  /-- A well-formed value that nothing here reads. -/
  | other
deriving Inhabited

namespace Json

mutual

def decEq : (a b : Json) → Decidable (a = b)
  | .null, .null => isTrue rfl
  | .other, .other => isTrue rfl
  | .bool a, .bool b => decidable_of_iff (a = b) (by simp)
  | .int a, .int b => decidable_of_iff (a = b) (by simp)
  | .str a, .str b => decidable_of_iff (a = b) (by simp)
  | .arr as, .arr bs =>
    match decEqItems as bs with
    | isTrue h => isTrue (by rw [h])
    | isFalse h => isFalse (fun e => h (by injection e))
  | .obj as, .obj bs =>
    match decEqMembers as bs with
    | isTrue h => isTrue (by rw [h])
    | isFalse h => isFalse (fun e => h (by injection e))
  | .null, .bool _ | .null, .int _ | .null, .str _ | .null, .arr _ | .null, .obj _ | .null, .other
  | .bool _, .null | .bool _, .int _ | .bool _, .str _ | .bool _, .arr _ | .bool _, .obj _ | .bool _, .other
  | .int _, .null | .int _, .bool _ | .int _, .str _ | .int _, .arr _ | .int _, .obj _ | .int _, .other
  | .str _, .null | .str _, .bool _ | .str _, .int _ | .str _, .arr _ | .str _, .obj _ | .str _, .other
  | .arr _, .null | .arr _, .bool _ | .arr _, .int _ | .arr _, .str _ | .arr _, .obj _ | .arr _, .other
  | .obj _, .null | .obj _, .bool _ | .obj _, .int _ | .obj _, .str _ | .obj _, .arr _ | .obj _, .other
  | .other, .null | .other, .bool _ | .other, .int _ | .other, .str _ | .other, .arr _ | .other, .obj _ =>
    isFalse (fun e => by injection e)

def decEqItems : (as bs : List Json) → Decidable (as = bs)
  | [], [] => isTrue rfl
  | [], _ :: _ | _ :: _, [] => isFalse (fun e => by injection e)
  | a :: as, b :: bs =>
    match decEq a b, decEqItems as bs with
    | isTrue h, isTrue hs => isTrue (by rw [h, hs])
    | isFalse h, _ => isFalse (fun e => h (by injection e))
    | _, isFalse hs => isFalse (fun e => hs (by injection e))

def decEqMembers : (as bs : List (String × Json)) → Decidable (as = bs)
  | [], [] => isTrue rfl
  | [], _ :: _ | _ :: _, [] => isFalse (fun e => by injection e)
  | (k, a) :: as, (j, b) :: bs =>
    match decEq a b, decEqMembers as bs with
    | isTrue h, isTrue hs =>
      if hk : k = j then isTrue (by rw [h, hs, hk]) else isFalse (fun e => hk (by injection e with e; injection e))
    | isFalse h, _ => isFalse (fun e => h (by injection e with e; injection e))
    | _, isFalse hs => isFalse (fun e => hs (by injection e))

end

instance : DecidableEq Json := decEq

def text? : Json → Option String
  | .str s => some s
  | _ => none

/-- The number, of a whole number from `min` to `max`. -/
def intIn? (min max : Int) : Json → Option Int
  | .int n => if min ≤ n ∧ n ≤ max then some n else none
  | _ => none

/-- The number, of a whole number that fits 32 bits with a sign. -/
def int32? (j : Json) : Option Int := j.intIn? (-2147483648) 2147483647

/-- The value of the one member of that name; fails on none and on several. -/
def sole? (name : String) (members : List (String × Json)) : Option Json :=
  match members.filter (fun m => m.1 = name) with
  | [m] => some m.2
  | _ => none

/-- The value of a member that may be missing, which counts as `null`; fails on several. -/
def soleOrNull? (name : String) (members : List (String × Json)) : Option Json :=
  match members.filter (fun m => m.1 = name) with
  | [] => some .null
  | [m] => some m.2
  | _ => none

end Json
end ServiceExposure
