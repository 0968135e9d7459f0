import ServiceExposure.Port.Exposed
/-!
# Ownership records

A shared object says in its annotations who asked for which ports: one annotation per contributor, holding the JSON of
its ports.  The name of the annotation is a common beginning and the contributor's name, cut to the 63 characters that
an annotation name may have and ending in a letter or a digit.  Contributors whose names agree up to the cut share a
record.
-/
namespace ServiceExposure

/-- Where the records of contributors are kept. -/
structure OwnershipRecords where
  /-- The part of a key before the slash. -/
  domain : String
  /-- The beginning of the part after the slash. -/
  stem : String
deriving DecidableEq

namespace OwnershipRecords

/-- The records' usual place. -/
def standard : OwnershipRecords := ⟨"k8s.cloudogu.com", "ces-exposed-ports-"⟩

/-- The greatest length of an annotation name. -/
def maxNameLength : Nat := 63

/-- The name part of a contributor's key. -/
def nameOf (r : OwnershipRecords) (contributor : String) : String :=
  String.ofList ((((r.stem ++ contributor).toList.take maxNameLength).reverse.dropWhile
    (fun c => !c.isAlphanum)).reverse)

/-- The annotation that holds a contributor's record. -/
def key (r : OwnershipRecords) (contributor : String) : String := r.domain ++ "/" ++ r.nameOf contributor

/-- Tests whether an annotation holds the record of some contributor. -/
def isKey (r : OwnershipRecords) (key : String) : Bool := (Text.dropStem (r.domain ++ "/" ++ r.stem) key).isSome

/-- The contributor's record; without one it owns nothing. -/
def read (r : OwnershipRecords) (annotations : Dict String) (contributor : String) :
    Except ParseError ExposedPorts :=
  match annotations.get? (r.key contributor) with
  | some text => ExposedPorts.parse (r.key contributor) text
  | none => .ok .empty

/-- All records but the contributor's, in the order of their keys. -/
def readOthers (r : OwnershipRecords) (annotations : Dict String) (contributor : String) :
    Except ParseError (List ExposedPorts) :=
  (annotations.toList.filter (fun p => p.1 ≠ r.key contributor && r.isKey p.1)).mapM
    (fun p => ExposedPorts.parse p.1 p.2)

/-- Sets the contributor's record; a record of no ports is taken out. -/
def write (r : OwnershipRecords) (annotations : Dict String) (contributor : String) (ports : ExposedPorts) :
    Dict String :=
  if ports.isEmpty then annotations.erase (r.key contributor)
  else annotations.insert (r.key contributor) ports.render

end OwnershipRecords
end ServiceExposure
