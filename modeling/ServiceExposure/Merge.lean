import ServiceExposure.Latest
/-!
# Partial ownership of a shared collection

Many contributors hold disjoint parts of one collection: the ports of a policy, of a load balancer, the entries of a
forwarding table.  Each entry has a key, and two entries with one key cannot both stand in the collection.  `merge`
replaces what one contributor had (`prior`) by what it wants (`desired`): it takes out only what the contributor had
and no longer wants, and never touches a key that somebody else has claimed.  `Change` says what must be written to
turn one version of an object into another.
-/
namespace ServiceExposure

open Latest (put latest)

/-- What comes of merging one contributor's entries into a collection. -/
structure Merged (ε : Type) where
  /-- The new content of the collection. -/
  entries : List ε
  /-- The wanted entries that now stand in the collection on behalf of the contributor. -/
  owned : List ε
  /-- The wanted entries that were left out because a different one stands under a claimed key. -/
  collisions : List ε
deriving DecidableEq

namespace Merged

variable {ε κ : Type} [DecidableEq ε] [DecidableEq κ] (key : ε → κ)

/-- Brings one wanted entry in.  An entry under a claimed key is only added where nothing stands, and counts as owned
where the very same entry stands. -/
def settle (claimed : List κ) (m : Merged ε) (e : ε) : Merged ε :=
  if key e ∈ claimed then
    match m.entries.find? (fun x => key x = key e) with
    | some x =>
      if x = e then { m with owned := m.owned ++ [e] } else { m with collisions := m.collisions ++ [e] }
    | none => { m with entries := m.entries ++ [e], owned := m.owned ++ [e] }
  else { m with entries := put key e m.entries, owned := m.owned ++ [e] }

end Merged

variable {ε κ : Type} [DecidableEq ε] [DecidableEq κ] (key : ε → κ)

/-- Tests whether the contributor had a key, wants it no more, and nobody else has claimed it. -/
def isStale (prior desired : List ε) (claimed : List κ) (k : κ) : Bool :=
  k ∈ prior.map key && !(k ∈ desired.map key) && !(k ∈ claimed)

/-- Replaces the contributor's `prior` entries of a collection by the `desired` ones. -/
def merge (current prior desired : List ε) (claimed : List κ) : Merged ε :=
  (latest key desired).foldl (Merged.settle key claimed)
    ⟨current.filter (fun e => !isStale key prior desired claimed (key e)), [], []⟩

/-- What has to be written to bring an object about. -/
inductive Change (α : Type) where
  | unchanged
  | create (a : α)
  | replace (a : α)
  | delete
deriving DecidableEq

namespace Change

variable {α : Type} [DecidableEq α]

/-- The change that turns `current` into `desired`, where `none` is an object that does not exist. -/
def between : (current desired : Option α) → Change α
  | none, none => .unchanged
  | none, some d => .create d
  | some _, none => .delete
  | some c, some d => if c = d then .unchanged else .replace d

def isUnchanged : Change α → Bool
  | .unchanged => true
  | _ => false

/-- The object after the change, when it was `current` before. -/
def result (current : Option α) : Change α → Option α
  | .unchanged => current
  | .create a => some a
  | .replace a => some a
  | .delete => none

/-- A change between two objects leads from the one to the other. -/
theorem result_between : ∀ (current desired : Option α), (between current desired).result current = desired
  | none, none | none, some _ | some _, none => rfl
  | some c, some d => by
    by_cases h : c = d <;> simp [between, result, h]

end Change
end ServiceExposure
