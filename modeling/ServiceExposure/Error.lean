import ServiceExposure.Cluster.Request
import ServiceExposure.Port.Exposed
/-!
# Why a reconciliation fails

Three groups of causes matter to whoever reacts to a failure: a malformed input fails the same way until the input
changes (`isPermanent`), a conflict is a lost race (`isConflict`), and a missing object may be what was wanted
(`isNotFound`).
-/
namespace ServiceExposure

/-- Why a reconciliation fails. -/
inductive Error where
  /-- A request came to nothing. -/
  | api (verb : Verb) (kind : Kind) (name : String) (why : Refusal)
  /-- An annotation is malformed. -/
  | parse (e : ParseError)
  /-- A service exposes a port that it does not have. -/
  | undeclaredPort (service : String) (port : Int)
  /-- Nobody can tell whether maintenance is going on. -/
  | maintenance (cause : String)
  /-- Nobody can tell whether a deployment is ready. -/
  | readiness (deployment cause : String)
deriving DecidableEq

namespace Error

def message : Error → String
  | .api verb kind name _ => "failed to " ++ verb.name ++ " " ++ kind.name ++ " " ++ name
  | .parse e => e.message
  | .undeclaredPort service port =>
    "exposed port " ++ toString port ++ " is not a port of service " ++ service
  | .maintenance cause => "failed to read maintenance mode: " ++ cause
  | .readiness deployment cause => "failed to read readiness of deployment " ++ deployment ++ ": " ++ cause

/-- Tests for an error that stays until the input changes. -/
def isPermanent : Error → Bool
  | .parse _ | .undeclaredPort _ _ => true
  | _ => false

def isConflict : Error → Bool
  | .api _ _ _ why => why = Refusal.conflict
  | _ => false

def isNotFound : Error → Bool
  | .api _ _ _ why => why = Refusal.notFound
  | _ => false

end Error

/-- A course of action that may fail; a failure ends it. -/
abbrev Action : Type → Type := ExceptT Error Program

namespace Action

variable {α β : Type}

/-- Makes a request; `name` is reported when it is refused. -/
def request (r : Request) (name : String) : Action r.Reply :=
  ExceptT.mk (.call r (fun reply => .done (reply.mapError (fun why => .api r.verb r.kind name why))))

/-- Uses what was read from an annotation. -/
def ofParse (x : Except ParseError α) : Action α := ExceptT.mk (.done (x.mapError .parse))

/-- Does something with every element in turn. -/
def forEach (f : α → Action Unit) : List α → Action Unit
  | [] => pure ()
  | x :: xs => do
    f x
    forEach f xs

end Action
end ServiceExposure
