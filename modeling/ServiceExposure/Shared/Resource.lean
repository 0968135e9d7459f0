import ServiceExposure.Owned.Apply
import ServiceExposure.Merge
import ServiceExposure.Port.Contributor
/-!
# Objects that all contributors share

A shared object is changed by every contributor, each of which only replaces its own part.  `SharedResource.plan` says
for one contributor what to write, given the object as it stands; `converge` reads the object, plans and writes, and
starts over from a fresh read when somebody else wrote in between.
-/
namespace ServiceExposure

/-- An object shared by all contributors. -/
structure SharedResource where
  kind : Kind
  name : String
  /-- The change that replaces what the contributor had in the object by what it wants. -/
  plan : Option kind.Object → Contributor → ExposedPorts → Except ParseError (Change kind.Object)

namespace SharedResource

/-- Makes a change. -/
def write (s : SharedResource) : Change s.kind.Object → Action Unit
  | .unchanged => pure ()
  | .create o => Action.request (.create s.kind o) s.name
  | .replace o => Action.request (.replace s.kind (s.kind.nameOf o) o) s.name
  | .delete => do
    let _ ← Owned.deleteIfExists s.kind s.name

/-- Reads the object, plans and writes, once. -/
def cycle (s : SharedResource) (contributor : Contributor) (desired : ExposedPorts) : Action Unit := do
  let current ← Action.request (.get s.kind s.name) s.name
  let change ← Action.ofParse (s.plan current contributor desired)
  s.write change

/-- Brings the object to hold exactly `desired` on behalf of the contributor. -/
def converge (s : SharedResource) (retry : RetryPolicy) (contributor : Contributor) (desired : ExposedPorts) :
    Action Unit :=
  ExceptT.mk (Retry.onConflict retry Error.isConflict (fun _ => (s.cycle contributor desired).run))

end SharedResource
end ServiceExposure
