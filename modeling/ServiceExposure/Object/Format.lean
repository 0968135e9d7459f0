import ServiceExposure.Object.Fields
import ServiceExposure.Text.Base64
import ServiceExposure.Text.Timestamp
/-!
# Formats of values

What this library does not work with it still has to read, for an object is read as a whole: one field of a wrong form
makes all of it unreadable.  A `Format` says which values a field may have.  `Format.read?` gives what a value says
under a format, without the members that the format does not know and with those that it takes for granted.
-/
namespace ServiceExposure

/-- Whether a field has to be there.  Unless it is mandatory, `null` counts as missing. -/
inductive Presence where
  | optional
  | mandatory
  /-- A missing field stands for a value. -/
  | standing (value : Json)

/-- A set of values. -/
inductive Format where
  | any
  | bool
  | int32
  | int64
  | text
  /-- A port by number or by name; sizes are given in the same way, by number or by share. -/
  | numberOrText
  /-- A point in time. -/
  | timestamp
  /-- Bytes in Base64. -/
  | bytes
  | list (item : Format)
  /-- An object with any names and one format for all values. -/
  | map (value : Format)
  /-- An object with named fields. -/
  | record (fields : List (String × Presence × Format))

namespace Format

/-- A field that may be missing. -/
def may (name : String) (f : Format) : String × Presence × Format := (name, .optional, f)

/-- A field that has to be there. -/
def must (name : String) (f : Format) : String × Presence × Format := (name, .mandatory, f)

/-- A text that is empty where it is missing. -/
def textFor (name : String) : String × Presence × Format := (name, .standing (.str ""), .text)

/-- A number that is 0 where it is missing. -/
def numberFor (name : String) : String × Presence × Format := (name, .standing (.int 0), .int32)

/-- A list that is empty where it is missing. -/
def listFor (name : String) (f : Format) : String × Presence × Format := (name, .standing (.arr []), .list f)

/-- A record that is empty where it is missing. -/
def recordFor (name : String) (f : Format) : String × Presence × Format := (name, .standing (.obj []), f)

def texts : Format := .list .text

def textMap : Format := .map .text

/-- Reads a value without parts. -/
def atom? : Format → Json → Option Json
  | .any, j => some j
  | .bool, .bool b => some (.bool b)
  | .int32, j => j.int32?.map .int
  | .int64, j => (j.intIn? (-9223372036854775808) 9223372036854775807).map .int
  | .text, .str s => some (.str s)
  | .numberOrText, .str s => some (.str s)
  | .numberOrText, j => j.int32?.map .int
  | .timestamp, .str s => (Timestamp.normal? s).map .str
  | .bytes, .str s => if Base64.isForm s then some (.str s) else none
  | .bytes, .null => some (.str "")
  | _, _ => none

mutual

/-- What a value says under a format. -/
def read? : Format → Json → Option Json
  | .list item, .arr items => (items.mapM (fun j => item.read? j)).map .arr
  | .map value, .obj members =>
    ((Dict.ofList members).toList.mapM (fun m => (value.read? m.2).map (fun v => (m.1, v)))).map .obj
  | .record fields, .obj members => (readFields? fields (Dict.ofList members)).map .obj
  | f, j => f.atom? j

/-- What the members of an object say under the formats of fields. -/
def readFields? : List (String × Presence × Format) → Dict Json → Option (List (String × Json))
  | [], _ => some []
  | (name, presence, f) :: fields, d => do
    let rest ← readFields? fields d
    match d.get? name, presence with
    | none, .mandatory => none
    | none, .optional | some .null, .optional => return rest
    | none, .standing value | some .null, .standing value => return (name, value) :: rest
    | some j, _ => return (name, ← f.read? j) :: rest

end

/-- The members of an object that are among the fields. -/
def fields? (fields : List (String × Presence × Format)) (d : Dict Json) : Option (Dict Json) :=
  (readFields? fields d).map Dict.ofList

end Format
end ServiceExposure
