import ServiceExposure.Cluster.Disturbance
/-!
# Addresses of objects

A request is sent to an address.  The namespace stands in it, and the name of the object where there has to be one
already, each as a segment of the path and written as it is.  So some names change their meaning on the way: a `/` ends
the segment, a `?` ends the path and begins a query, and a `#` ends both; what is left in the segment says which object is
meant.  A request whose address has a character in it that cannot stand there is never sent; one whose namespace is not a
segment is refused.
-/
namespace ServiceExposure
namespace Address

def isPathChar (c : Char) : Bool := ' ' < c && c ∉ ['<', '>', '\x60', '\x7f']

def isQueryChar (c : Char) : Bool := ' ' < c && c ∉ ['"', '<', '>', '\x7f']

/-- Tests for a character that does not end a path. -/
def staysInPath (c : Char) : Bool := c ∉ ['?', '#']

/-- Tests for a text that can stand in an address as it is.  What follows a `#` may be anything. -/
def fits (s : String) : Bool :=
  (s.toList.takeWhile staysInPath).all isPathChar &&
    match s.toList.dropWhile staysInPath with
    | '?' :: query => (query.takeWhile (· ≠ '#')).all isQueryChar
    | _ => true

/-- Tests for a character that does not end a segment. -/
def staysInSegment (c : Char) : Bool := c ∉ ['/', '?', '#']

/-- What is left of a text in the segment that it begins. -/
def segment (s : String) : String := String.ofList (s.toList.takeWhile staysInSegment)

/-- Tests for a text that is a segment as a whole. -/
def isSegment (s : String) : Bool := s.toList.all staysInSegment

theorem takeWhile_of_all {α : Type} {p : α → Bool} : ∀ {xs : List α}, xs.all p = true → xs.takeWhile p = xs
  | [], _ => rfl
  | x :: xs, h => by
    rw [List.all_cons, Bool.and_eq_true] at h
    rw [List.takeWhile_cons_of_pos h.1, takeWhile_of_all h.2]

theorem segment_of_isSegment {s : String} (h : isSegment s = true) : segment s = s := by
  rw [segment, takeWhile_of_all h, String.ofList_toList]

end Address

namespace Status

/-- Tests for a code that tells of a failure; with any other code a request counts as served. -/
def isFailure (status : Status) : Bool := 400 ≤ status && status < 600

end Status

namespace Request

/-- The name that stands in the address of a request: a list and a new object have none. -/
def addressedName? : Request → Option String
  | .get _ n | .replace _ n _ | .delete _ n => some n
  | .list _ _ | .create _ _ => none

def isSendable (ns : String) (r : Request) : Bool :=
  Address.fits ns && r.addressedName?.all (fun n => n ≠ "" && Address.fits n)

/-- What is made of an answer: an object that is not found is none, and a deletion needs no more than its code. -/
def understood : (r : Request) → Except Refusal r.Reply → Except Refusal r.Reply
  | .get _ _, .error why => if why = .notFound then .ok none else .error why
  | .delete _ _, .error (.status code) => if code.isFailure then .error (.status code) else .ok ()
  | _, reply => reply

end Request

namespace Session

/-- Serves a list where an object was asked for; a list is no object. -/
def serveListFor (kind : Kind) (name : String) (s : Session) :
    Option (Except Refusal (Request.get kind name).Reply) × Session :=
  let (reply, s) := serve (.list kind "") s
  (reply.map (fun reply => .error ((refusal? reply).getD .unreadable)), s)

/-- Answers a request at its address.  Where nothing is left of the name of an object to read, the address is that of a
list. -/
def serveAt (ns : String) (r : Request) (s : Session) : Option (Except Refusal r.Reply) × Session :=
  if !Address.isSegment ns then (some (.error .unaddressed), s)
  else match r with
    | .get kind name =>
      if Address.segment name = "" then serveListFor kind name s else serve (.get kind (Address.segment name)) s
    | .list kind selector => serve (.list kind selector) s
    | .create kind o => serve (.create kind o) s
    | .replace kind name o => serve (.replace kind (Address.segment name) o) s
    | .delete kind name => serve (.delete kind (Address.segment name)) s

/-- Where every name is a segment, the address makes no difference. -/
theorem serveAt_of_isSegment {ns : String} {r : Request} (s : Session) (hns : Address.isSegment ns = true)
    (hr : ∀ n ∈ r.addressedName?, n ≠ "" ∧ Address.isSegment n = true) : serveAt ns r s = serve r s := by
  cases r with
  | list | create => simp [serveAt, hns]
  | get kind name =>
    obtain ⟨hn, hw⟩ := hr name rfl
    have hp := Address.segment_of_isSegment hw
    simp only [serveAt, hns]
    generalize Address.segment name = n at hp
    subst hp
    simp [hn]
  | replace kind name | delete kind name =>
    have hp := Address.segment_of_isSegment (hr name rfl).2
    simp only [serveAt, hns]
    generalize Address.segment name = n at hp
    subst hp
    rfl

/-- Sends a request to its address and makes what there is to make of the answer. -/
def send (ns : String) (r : Request) (s : Session) : Option (Except Refusal r.Reply) × Session :=
  let (reply, s) := serveAt ns r s
  (reply.map r.understood, s)

end Session
end ServiceExposure
