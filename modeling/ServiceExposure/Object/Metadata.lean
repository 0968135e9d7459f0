import ServiceExposure.Object.Format
/-!
# Metadata of objects

Every object has a name, labels, annotations and the like.  An object that was built here leaves out what it does not
say; "no labels said" and "an empty set of labels" are two different things, and both are kept.
-/
namespace ServiceExposure

open Format (may textFor)

/-- A reference to the object that another one was generated for. -/
structure OwnerReference where
  apiVersion : String
  kind : String
  name : String
  uid : String
  controller : Option Bool
  others : Dict Json
deriving DecidableEq

structure Metadata where
  name : Option String := none
  generateName : Option String := none
  ns : Option String := none
  uid : Option String := none
  /-- Which version of the object this is. -/
  resourceVersion : Option String := none
  labels : Option (Dict String) := none
  annotations : Option (Dict String) := none
  ownerReferences : Option (List OwnerReference) := none
  others : Dict Json := .empty
deriving DecidableEq

namespace OwnerReference

/-- The fields that are kept. -/
def otherFields : List (String × Presence × Format) := [may "blockOwnerDeletion" .bool]

def format : Format :=
  .record ([textFor "apiVersion", textFor "kind", textFor "name", textFor "uid", may "controller" .bool] ++
    otherFields)

def ofJson? (j : Json) : Option OwnerReference := do
  let d ← Fields.ofJson? j
  return {
    apiVersion := ← Fields.withDefault d "apiVersion" Json.text? ""
    kind := ← Fields.withDefault d "kind" Json.text? ""
    name := ← Fields.withDefault d "name" Json.text? ""
    uid := ← Fields.withDefault d "uid" Json.text? ""
    controller := ← Fields.optional d "controller" Fields.bool?
    others := ← Format.fields? otherFields d }

def toJson (r : OwnerReference) : Json :=
  Fields.object
    [("apiVersion", some (.str r.apiVersion)), ("kind", some (.str r.kind)), ("name", some (.str r.name)),
     ("uid", some (.str r.uid)), ("controller", r.controller.map .bool)] r.others

end OwnerReference

namespace Metadata

/-- The name of an object: its own, or what its name is generated from, or none at all. -/
def anyName (m : Metadata) : String := m.name.getD (m.generateName.getD "")

/-- The labels that are set. -/
def labelSet (m : Metadata) : Dict String := m.labels.getD .empty

/-- The annotations that are set. -/
def annotationSet (m : Metadata) : Dict String := m.annotations.getD .empty

/-- The metadata of a new object. -/
def named (ns name : String) : Metadata := { name := some name, ns := some ns }

/-- The format of a record of who wrote which fields. -/
def managedFields : Format :=
  .record
    [may "apiVersion" .text, may "fieldsType" .text, may "fieldsV1" .any, may "manager" .text, may "operation" .text,
     may "subresource" .text, may "time" .timestamp]

/-- The fields that are kept. -/
def otherFields : List (String × Presence × Format) :=
  [may "creationTimestamp" .timestamp, may "deletionGracePeriodSeconds" .int64, may "deletionTimestamp" .timestamp,
   may "finalizers" .texts, may "generation" .int64, may "managedFields" (.list managedFields), may "selfLink" .text]

def format : Format :=
  .record
    ([may "name" .text, may "generateName" .text, may "namespace" .text, may "uid" .text,
      may "resourceVersion" .text, may "labels" .textMap, may "annotations" .textMap,
      may "ownerReferences" (.list OwnerReference.format)] ++ otherFields)

def ofJson? (j : Json) : Option Metadata := do
  let d ← Fields.ofJson? j
  return {
    name := ← Fields.optional d "name" Json.text?
    generateName := ← Fields.optional d "generateName" Json.text?
    ns := ← Fields.optional d "namespace" Json.text?
    uid := ← Fields.optional d "uid" Json.text?
    resourceVersion := ← Fields.optional d "resourceVersion" Json.text?
    labels := ← Fields.optional d "labels" Fields.texts?
    annotations := ← Fields.optional d "annotations" Fields.texts?
    ownerReferences := ← Fields.optional d "ownerReferences" (Fields.list? OwnerReference.ofJson?)
    others := ← Format.fields? otherFields d }

def toJson (m : Metadata) : Json :=
  Fields.object
    [("name", m.name.map .str), ("generateName", m.generateName.map .str), ("namespace", m.ns.map .str),
     ("uid", m.uid.map .str), ("resourceVersion", m.resourceVersion.map .str),
     ("labels", m.labels.map Fields.ofTexts), ("annotations", m.annotations.map Fields.ofTexts),
     ("ownerReferences", m.ownerReferences.map (Fields.ofList OwnerReference.toJson))] m.others

end Metadata

/-- The annotations of an object that is built: none said where there are none. -/
def Dict.nonEmpty? {α : Type} (d : Dict α) : Option (Dict α) := if d.isEmpty then none else some d

end ServiceExposure
