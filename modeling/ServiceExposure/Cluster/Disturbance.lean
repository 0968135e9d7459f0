import ServiceExposure.Cluster.Storage
/-!
# A cluster with other writers and failures

Requests fail now and then, and other writers come in between.  A `Session` is the storage of a cluster together with
the faults and races that lie ahead.  Each waits for a request that it matches: before the request is served, the first
matching race takes place, then the first matching fault refuses the request, or leaves it without an answer for ever.
Lists are not raced.  A session also keeps a record of the writes that were requested and of the objects that were
touched.
-/
namespace ServiceExposure

/-- What another writer does to an object. -/
inductive Deed where
  /-- Stores an object, given in its JSON form. -/
  | put (form : Json)
  | delete
  /-- Changes an object by a merge patch. -/
  | patch (p : Json)

/-- Another writer that comes in just before a request. -/
structure Race where
  before : Verb
  kind : Kind
  /-- The name that the request is about; any name if none is said. -/
  name : Option String
  /-- How often this will happen. -/
  times : Nat
  deed : Deed

/-- What a fault befalls: requests about a kind of objects, or the reports of events. -/
inductive Subject where
  | objects (kind : Kind)
  | events
deriving DecidableEq

/-- A failure of a request. -/
structure Fault where
  verb : Verb
  subject : Subject
  name : Option String
  status : Status
  times : Nat
  /-- Whether the request stays without an answer. -/
  silent : Bool
deriving DecidableEq

/-- A write that was requested: refused with a code or not. -/
structure WriteRecord where
  verb : Verb
  kind : Kind
  name : String
  refusal : Option Refusal
deriving DecidableEq

/-- A cluster with the faults and races that lie ahead. -/
structure Session where
  storage : Storage := {}
  faults : List Fault := []
  races : List Race := []
  /-- The writes that were requested, the earliest first. -/
  writes : List WriteRecord := []
  /-- The objects that were written, taken out or raced. -/
  touched : List (Kind × String) := []

namespace Session

/-- Tests for the name that is asked for; any name will do if none is said. -/
def nameMatches (wanted name : Option String) : Bool :=
  match wanted with
  | none => true
  | some _ => wanted = name

/-- Takes the first race that matches a request off the list, once. -/
def nextRace? (verb : Verb) (kind : Kind) (name : Option String) : List Race → Option (Race × List Race)
  | [] => none
  | race :: races =>
    if race.before = verb ∧ race.kind = kind ∧ nameMatches race.name name ∧ 0 < race.times then
      some (race, if race.times = 1 then races else { race with times := race.times - 1 } :: races)
    else (nextRace? verb kind name races).map (fun r => (r.1, race :: r.2))

/-- Takes the first fault that matches a request off the list, once. -/
def nextFault? (verb : Verb) (subject : Subject) (name : Option String) : List Fault → Option (Fault × List Fault)
  | [] => none
  | fault :: faults =>
    if fault.verb = verb ∧ fault.subject = subject ∧ nameMatches fault.name name ∧ 0 < fault.times then
      some (fault, if fault.times = 1 then faults else { fault with times := fault.times - 1 } :: faults)
    else (nextFault? verb subject name faults).map (fun f => (f.1, fault :: f.2))

/-- Stores an object in the form that another writer gives it, whatever was there. -/
def put (s : Session) (kind : Kind) (name : String) (form : Json) : Session :=
  { s with storage := s.storage.putForm kind name form, touched := s.touched ++ [(kind, name)] }

def remove (s : Session) (kind : Kind) (name : String) : Session :=
  { s with storage := s.storage.remove kind name, touched := s.touched ++ [(kind, name)] }

/-- Changes an object by a merge patch; where there is none, nothing happens. -/
def patch (s : Session) (kind : Kind) (name : String) (p : Json) : Session :=
  match s.storage.form? kind name with
  | none => s
  | some form => s.put kind name (form.patched p)

/-- Lets the first race that matches a request take place. -/
def runRace (s : Session) (verb : Verb) (kind : Kind) (name : String) : Session :=
  match nextRace? verb kind (some name) s.races with
  | none => s
  | some (race, races) =>
    let s := { s with races }
    match race.deed with
    | .put form => s.put race.kind name form
    | .delete => s.remove race.kind name
    | .patch p => s.patch race.kind name p

/-- Lets races take place before a request. -/
def disturb (s : Session) (r : Request) : Session :=
  match r.name? with
  | some name => s.runRace r.verb r.kind name
  | none => s

/-- Records a request that was answered, if it is a write. -/
def record (s : Session) (r : Request) (refusal : Option Refusal) : Session :=
  match r.verb.isWrite, r.name? with
  | true, some name =>
    { s with
      writes := s.writes ++ [⟨r.verb, r.kind, name, refusal⟩]
      touched := if refusal = none then s.touched ++ [(r.kind, name)] else s.touched }
  | _, _ => s

def refusal? {α : Type} : Except Refusal α → Option Refusal
  | .ok _ => none
  | .error why => some why

/-- Answers a request, or leaves it without an answer. -/
def serve (r : Request) (s : Session) : Option (Except Refusal r.Reply) × Session :=
  let s := s.disturb r
  match nextFault? r.verb (.objects r.kind) r.name? s.faults with
  | some (fault, faults) =>
    let s := { s with faults }
    if fault.silent then (none, s) else (some (.error (.status fault.status)), s.record r (some (.status fault.status)))
  | none =>
    let (reply, storage) := s.storage.serve r
    (some reply, { s with storage }.record r (refusal? reply))

def afresh (s : Session) : Session := { s with writes := [], touched := [] }

end Session

namespace Program

/-- Runs a program until it ends or a request stays without an answer. -/
def runIn {α : Type} (p : Program α) (s : Session) : Option α × Session := p.runUntilSilence Session.serve s

end Program
end ServiceExposure
