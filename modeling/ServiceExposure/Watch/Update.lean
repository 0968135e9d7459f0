/-!
# Updates and their queue

An update names a part of the namespace that is to be reconciled; what is to be done is looked up when the update is
processed.  Updates wait in a queue of limited length.  What is offered to a full or closed queue is dropped.
-/
namespace ServiceExposure

inductive UpdateKind where
  | exposure
  | ingress
  | redirect
deriving DecidableEq, Inhabited

namespace UpdateKind

def all : List UpdateKind := [.exposure, .ingress, .redirect]

def name : UpdateKind → String
  | .exposure => "exposure"
  | .ingress => "ingress"
  | .redirect => "redirect"

end UpdateKind

/-- A part of the namespace that is to be reconciled. -/
inductive Update where
  /-- The exposed ports and the ingresses of a service, or what is left of a service that is gone. -/
  | exposure (service : String)
  /-- Only the ingresses of a service. -/
  | ingresses (service : String)
  /-- The redirect of the alternative hosts. -/
  | redirect
deriving DecidableEq, Inhabited

namespace Update

def kind : Update → UpdateKind
  | .exposure _ => .exposure
  | .ingresses _ => .ingress
  | .redirect => .redirect

def service? : Update → Option String
  | .exposure name | .ingresses name => some name
  | .redirect => none

end Update

/-- Updates that wait to be processed, the earliest first. -/
structure UpdateQueue where
  capacity : Nat
  waiting : List Update := []
  /-- Whether somebody processes updates. -/
  isOpen : Bool := true
deriving DecidableEq

namespace UpdateQueue

/-- Tests whether an update would be taken. -/
def hasRoom (q : UpdateQueue) : Bool := q.isOpen && q.waiting.length < q.capacity

/-- Adds an update at the end, or drops it. -/
def offer (q : UpdateQueue) (u : Update) : UpdateQueue :=
  if q.hasRoom then { q with waiting := q.waiting ++ [u] } else q

def offerAll (q : UpdateQueue) (us : List Update) : UpdateQueue := us.foldl offer q

end UpdateQueue
end ServiceExposure
