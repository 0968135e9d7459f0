import ServiceExposure.Json.Basic
/-!
# Fields of objects

The objects of the cluster are JSON objects.  A type of this library names the fields that it works with and keeps the
others that its objects have, so that reading an object and writing it again changes nothing: `optional` and `required`
read a named field, `object` writes all of them in the order of their names.  A field that is `null` counts as missing,
and one that the objects do not have is passed over.

Each of these types has `ofJson?` to read a value and `toJson` to write one.  The objects of a kind have `ofFields?` and
`toFields` in their place, for `apiVersion` and `kind` come from the kind.  Where a type keeps fields that it does not
name, they are called `others`.
-/
namespace ServiceExposure
namespace Fields

/-- The fields of an object. -/
def ofJson? : Json → Option (Dict Json)
  | .obj members => some (Dict.ofList members)
  | _ => none

/-- The fields of a record, which is an object or an array of the first few of its fields in their order. -/
def ofRecord? (names : List String) : Json → Option (Dict Json)
  | .obj members => some (Dict.ofList members)
  | .arr items => if items.length ≤ names.length then some (Dict.ofList (names.zip items)) else none
  | _ => none

/-- Reads a field that may be missing. -/
def optional {α : Type} (d : Dict Json) (name : String) (read : Json → Option α) : Option (Option α) :=
  match d.get? name with
  | none | some .null => some none
  | some j => (read j).map some

def required {α : Type} (d : Dict Json) (name : String) (read : Json → Option α) : Option α :=
  (d.get? name).bind read

/-- Reads a field that stands for a given value where it is missing. -/
def withDefault {α : Type} (d : Dict Json) (name : String) (read : Json → Option α) (value : α) : Option α :=
  (optional d name read).map (·.getD value)

/-- Reads a field that stands for a given value where it is missing; here `null` is a value like others. -/
def filled {α : Type} (d : Dict Json) (name : String) (read : Json → Option α) (value : α) : Option α :=
  match d.get? name with
  | none => some value
  | some j => read j

/-- The object of the fields that are there and of others. -/
def object (named : List (String × Option Json)) (others : Dict Json) : Json :=
  .obj (others.union (Dict.ofList (named.filterMap (fun f => f.2.map (fun v => (f.1, v)))))).toList

def int? : Json → Option Int
  | .int n => some n
  | _ => none

def bool? : Json → Option Bool
  | .bool b => some b
  | _ => none

def list? {α : Type} (read : Json → Option α) : Json → Option (List α)
  | .arr items => items.mapM read
  | _ => none

def texts? : Json → Option (Dict String)
  | .obj members => (members.mapM (fun (m : String × Json) => m.2.text?.map (fun v => (m.1, v)))).map Dict.ofList
  | _ => none

def ofList {α : Type} (write : α → Json) (items : List α) : Json := .arr (items.map write)

def ofTexts (d : Dict String) : Json := .obj (d.toList.map (fun p => (p.1, .str p.2)))

end Fields
end ServiceExposure
