import ServiceExposure.Object.Kind
/-!
# Requests and programs

A reconciliation talks to the cluster through requests for single objects, and decides on each answer what to request
next.  A `Program` is such a course of action as a tree: it is done, or it makes a request and goes on with the answer.
Nothing else happens between two requests, so whatever other writers do, they do between the nodes of the tree.
-/
namespace ServiceExposure

/-- What can be requested of the cluster. -/
inductive Verb where
  | get
  | list
  | create
  | replace
  | delete
deriving DecidableEq, Inhabited

namespace Verb

def name : Verb → String
  | .get => "get"
  | .list => "list"
  | .create => "create"
  | .replace => "replace"
  | .delete => "delete"

def ofName? (n : String) : Option Verb := [Verb.get, .list, .create, .replace, .delete].find? (fun v => v.name = n)

def isWrite : Verb → Bool
  | .create | .replace | .delete => true
  | .get | .list => false

end Verb

abbrev Status := Nat

/-- Why a request comes to nothing. -/
inductive Refusal where
  /-- The cluster refuses it. -/
  | status (code : Status)
  /-- It has no address, so that nobody can serve it. -/
  | unaddressed
  /-- What the answer holds is no object of the kind. -/
  | unreadable
deriving DecidableEq

namespace Refusal

/-- There is no such object. -/
def notFound : Refusal := .status 404

/-- There is such an object already, or a newer version of it. -/
def conflict : Refusal := .status 409

def code? : Refusal → Option Status
  | .status code => some code
  | .unaddressed | .unreadable => none

def message : Refusal → String
  | .status code => "status " ++ toString code
  | .unaddressed => "no address"
  | .unreadable => "unreadable answer"

end Refusal

/-- A request for one object, or for the objects of a kind that a selector picks. -/
inductive Request : Type where
  | get (kind : Kind) (name : String)
  | list (kind : Kind) (selector : String)
  | create (kind : Kind) (object : kind.Object)
  /-- The object that is stored under the name is to be this one. -/
  | replace (kind : Kind) (name : String) (object : kind.Object)
  | delete (kind : Kind) (name : String)

namespace Request

/-- What a request is answered with, if it is not refused. -/
def Reply : Request → Type
  | .get kind _ => Option kind.Object
  | .list kind _ => List kind.Object
  | .create _ _ | .replace _ _ _ | .delete _ _ => Unit

def verb : Request → Verb
  | .get _ _ => .get
  | .list _ _ => .list
  | .create _ _ => .create
  | .replace _ _ _ => .replace
  | .delete _ _ => .delete

def kind : Request → Kind
  | .get k _ | .list k _ | .create k _ | .replace k _ _ | .delete k _ => k

def name? : Request → Option String
  | .get _ n | .replace _ n _ | .delete _ n => some n
  | .list _ _ => none
  | .create k o => some (k.nameOf o)

end Request

/-- A course of action that ends with an `α`. -/
inductive Program (α : Type) : Type where
  | done (a : α)
  | call (r : Request) (next : Except Refusal r.Reply → Program α)

namespace Program

variable {α β γ σ : Type}

/-- One program after the other. -/
def bind : Program α → (α → Program β) → Program β
  | .done a, f => f a
  | .call r next, f => .call r (fun reply => (next reply).bind f)

instance : Monad Program where
  pure := .done
  bind := bind

theorem bind_done : ∀ p : Program α, p.bind .done = p
  | .done _ => rfl
  | .call _ next => congrArg _ (funext fun reply => bind_done (next reply))

theorem bind_assoc : ∀ (p : Program α) (f : α → Program β) (g : β → Program γ),
    (p.bind f).bind g = p.bind (fun a => (f a).bind g)
  | .done _, _, _ => rfl
  | .call _ next, f, g => congrArg _ (funext fun reply => bind_assoc (next reply) f g)

instance : LawfulMonad Program := LawfulMonad.mk' _ (fun p => bind_done p) (fun _ _ => rfl) bind_assoc

def request (r : Request) : Program (Except Refusal r.Reply) := .call r .done

/-- Runs a program to its end, where `serve` answers each request and changes the state of the world. -/
def run (serve : (r : Request) → σ → Except Refusal r.Reply × σ) : Program α → σ → α × σ
  | .done a, s => (a, s)
  | .call r next, s => ((next (serve r s).1).run serve) (serve r s).2

theorem run_bind (serve : (r : Request) → σ → Except Refusal r.Reply × σ) :
    ∀ (p : Program α) (f : α → Program β) (s : σ),
      (p >>= f).run serve s = (f (p.run serve s).1).run serve (p.run serve s).2
  | .done _, _, _ => rfl
  | .call r next, f, s => run_bind serve (next (serve r s).1) f (serve r s).2

/-- Runs a program until it ends or a request stays without an answer, which gives `none`. -/
def runUntilSilence (serve : (r : Request) → σ → Option (Except Refusal r.Reply) × σ) : Program α → σ → Option α × σ
  | .done a, s => (some a, s)
  | .call r next, s =>
    match serve r s with
    | (some reply, s') => (next reply).runUntilSilence serve s'
    | (none, s') => (none, s')

end Program
end ServiceExposure
