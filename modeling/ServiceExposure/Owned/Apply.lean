import ServiceExposure.Error
import ServiceExposure.Retry
/-!
# Objects with a single writer

An object that is generated for one service, or for the whole cluster, is written as a whole.  `Owned.apply` creates it
or brings the stored one to the wanted form: labels, annotations and owner references are the wanted ones, the rest of
the metadata and what others maintain stay as stored.  Nothing is written when the stored object has that form already.
-/
namespace ServiceExposure
namespace Owned

/-- The wanted object with the fields that others maintain, which are the status of an ingress. -/
def withForeign : (kind : Kind) → (desired current : kind.Object) → kind.Object
  | .ingress => fun (desired current : Ingress) => { desired with status := current.status }
  | .service | .configMap | .networkPolicy | .middleware | .tcpRoute | .udpRoute | .deployment =>
    fun desired _ => desired

/-- The form that the stored object `current` is brought to. -/
def form (kind : Kind) (desired current : kind.Object) : kind.Object :=
  let wanted := kind.metadata desired
  withForeign kind
    (kind.withMetadata desired
      { kind.metadata current with
        labels := wanted.labels
        annotations := wanted.annotations
        ownerReferences := wanted.ownerReferences })
    current

/-- Reads the object and creates or replaces it, once; tells whether anything was written. -/
def cycle (kind : Kind) (desired : kind.Object) : Action Bool := do
  let name := kind.nameOf desired
  match ← Action.request (.get kind name) name with
  | none =>
    Action.request (.create kind desired) name
    return true
  | some (current : kind.Object) =>
    if form kind desired current = current then return false
    else
      let next := form kind desired current
      Action.request (.replace kind (kind.nameOf next) next) name
      return true

/-- Creates the object or brings the stored one to the wanted form; tells whether anything was written. -/
def apply (retry : RetryPolicy) (kind : Kind) (desired : kind.Object) : Action Bool :=
  ExceptT.mk (Retry.onConflict retry Error.isConflict (fun _ => (cycle kind desired).run))

/-- Deletes an object; one that is missing is deleted already.  Tells whether there was one. -/
def deleteIfExists (kind : Kind) (name : String) : Action Bool :=
  ExceptT.mk (.call (.delete kind name) (fun reply => .done (match reply with
    | .ok _ => .ok true
    | .error why =>
      if why = Refusal.notFound then .ok false else .error (.api .delete kind name why))))

end Owned
end ServiceExposure
