import ServiceExposure.Cluster.Address
import ServiceExposure.Proofs.Cluster.Alone
import ServiceExposure.Proofs.Cluster.Conduct
/-!
# What is asked, and what becomes of it on the way

A program asks for one thing after the other, depending on the answers (`Program.Asks`).  In a session where nobody else
writes and nothing fails (`Session.Calm`), a request that has its names as segments is served as it is
(`Session.send_eq_serve`).  Any other one may reach another object, but never one of another kind
(`Session.send_beside`).
-/
namespace ServiceExposure

/-! ## The requests of a program -/

namespace Program

variable {α β : Type} {Fair : (r : Request) → Except Refusal r.Reply → Prop} {Q : Request → Prop}

/-- Every request of the program satisfies `Q`, as long as all answers are fair. -/
def Asks (Fair : (r : Request) → Except Refusal r.Reply → Prop) (Q : Request → Prop) : Program α → Prop
  | .done _ => True
  | .call r next => Q r ∧ ∀ reply, Fair r reply → (next reply).Asks Fair Q

theorem Asks.bind {f : α → Program β} (hf : ∀ a, (f a).Asks Fair Q) :
    ∀ {p : Program α}, p.Asks Fair Q → (p >>= f).Asks Fair Q
  | .done a, _ => hf a
  | .call _ _, ⟨hr, hn⟩ => ⟨hr, fun reply h => Asks.bind hf (hn reply h)⟩

theorem Asks.attempt {ε : Type} {op : Nat → Program (Except ε α)} (hop : ∀ n, (op n).Asks Fair Q)
    (isConflict : ε → Bool) : ∀ more n, (Retry.attempt isConflict op n more).Asks Fair Q
  | 0, n => hop n
  | more + 1, n => by
    refine Asks.bind (fun a => ?_) (hop n)
    match a with
    | .ok a => trivial
    | .error e =>
      dsimp only
      split
      · exact Asks.attempt hop isConflict more (n + 1)
      · trivial

end Program

namespace Action

variable {α β : Type} {Fair : (r : Request) → Except Refusal r.Reply → Prop} {Q : Request → Prop}

theorem call_bind {q : Request} (next : Except Refusal q.Reply → Action α) (f : α → Action β) :
    ((show Action α from .call q next) >>= f) = .call q (fun reply => (next reply >>= f : Action β)) := rfl

theorem asks_bind {x : Action α} {f : α → Action β} (hx : x.run.Asks Fair Q) (hf : ∀ a, (f a).run.Asks Fair Q) :
    (x >>= f).run.Asks Fair Q := by
  rw [ExceptT.run_bind]
  refine Program.Asks.bind (fun a => ?_) hx
  cases a with
  | ok a => exact hf a
  | error e => trivial

theorem asks_request {r : Request} (hr : Q r) (reported : String) : (request r reported).run.Asks Fair Q :=
  ⟨hr, fun _ _ => trivial⟩

theorem asks_ofParse (x : Except ParseError α) : (ofParse x).run.Asks Fair Q := trivial

theorem asks_forEach {f : α → Action Unit} (hf : ∀ a, (f a).run.Asks Fair Q) :
    ∀ xs : List α, (forEach f xs).run.Asks Fair Q
  | [] => trivial
  | x :: xs => asks_bind (hf x) (fun _ => asks_forEach hf xs)

end Action

/-! ## Requests that are served -/

namespace Request

/-- An object that was read has the name under which it was read. -/
def Named : (r : Request) → Except Refusal r.Reply → Prop
  | .get kind name, .ok (some o) => kind.nameOf o = name
  | _, _ => True

theorem understood_serve (c : Cluster) (r : Request) : r.understood (c.serve r).1 = (c.serve r).1 := by
  cases r with
  | get kind name | list kind selector | create kind o | replace kind name o => rfl
  | delete kind name =>
    cases h : c.get? kind name with
    | none =>
      simp only [Cluster.serve, h]
      rfl
    | some o =>
      simp only [Cluster.serve, h]
      rfl

end Request

namespace Cluster

/-- A request leaves the objects of other kinds as they are. -/
theorem get?_serve_kind (c : Cluster) (r : Request) {other : Kind} (h : other ≠ r.kind) (n : String) :
    (c.serve r).2.get? other n = c.get? other n := by
  cases hname : r.name? with
  | some name => exact c.beside_serve hname (.inl h)
  | none =>
    cases r with
    | list kind selector => rfl
    | get | create | replace | delete => cases hname

/-- What is deleted is gone, whether it was there or not. -/
theorem get?_serve_delete (c : Cluster) (kind : Kind) (name : String) :
    (c.serve (.delete kind name)).2.get? kind name = none := by
  cases h : c.get? kind name with
  | none => simp only [serve, h]
  | some o => simp only [serve, h, get?_remove_self]

end Cluster

namespace Session

/-- Nobody else writes, and nothing fails. -/
structure Calm (s : Session) : Prop where
  forms : s.storage.forms = []
  faults : s.faults = []
  races : s.races = []

variable {s : Session} {ns : String}

theorem serve_calm (h : s.Calm) (r : Request) : ∃ s' : Session,
    s.serve r = (some (s.storage.cluster.serve r).1, s') ∧ s'.Calm ∧
      s'.storage.cluster = (s.storage.cluster.serve r).2 := by
  have hdisturb : s.disturb r = s := by
    unfold disturb runRace
    cases r.name? with
    | none => rfl
    | some name => simp only [h.races, nextRace?]
  have hrecord : ∀ (s' : Session) (refusal : Option Refusal), s'.Calm →
      (s'.record r refusal).Calm ∧ (s'.record r refusal).storage = s'.storage := by
    intro s' refusal hs
    unfold record
    split
    · exact ⟨⟨hs.forms, hs.faults, hs.races⟩, rfl⟩
    · exact ⟨hs, rfl⟩
  have hstorage := Storage.serve_of_forms_eq_nil r h.forms
  obtain ⟨hc, hs⟩ := hrecord { s with storage := ⟨(s.storage.cluster.serve r).2, []⟩ }
    (refusal? (s.storage.cluster.serve r).1) ⟨rfl, h.faults, h.races⟩
  refine ⟨_, ?_, hc, congrArg Storage.cluster hs⟩
  unfold serve
  simp only [hdisturb, h.faults, nextFault?, hstorage]

/-- **A request at its address** is served as it is. -/
theorem send_eq_serve (h : s.Calm) (hns : Address.isSegment ns = true) {r : Request}
    (hr : ∀ n ∈ r.addressedName?, n ≠ "" ∧ Address.isSegment n = true) : ∃ s' : Session,
    send ns r s = (some (s.storage.cluster.serve r).1, s') ∧ s'.Calm ∧
      s'.storage.cluster = (s.storage.cluster.serve r).2 := by
  obtain ⟨s', hserve, hs'⟩ := serve_calm h r
  refine ⟨s', ?_, hs'⟩
  unfold send
  rw [serveAt_of_isSegment s hns hr, hserve]
  simp only [Option.map_some, Request.understood_serve]

/-- Wherever a request goes, it is answered, and at most one object is written, which is of its kind. -/
theorem send_cases (h : s.Calm) (ns : String) (r : Request) : ∃ reply, ∃ s' : Session,
    send ns r s = (some reply, s') ∧ s'.Calm ∧ (s'.storage.cluster = s.storage.cluster ∨
      r.verb.isWrite = true ∧ ∃ q : Request, q.kind = r.kind ∧ s'.storage.cluster = (s.storage.cluster.serve q).2) := by
  suffices hat : ∃ reply, ∃ s' : Session, serveAt ns r s = (some reply, s') ∧ s'.Calm ∧
      (s'.storage.cluster = s.storage.cluster ∨ r.verb.isWrite = true ∧
        ∃ q : Request, q.kind = r.kind ∧ s'.storage.cluster = (s.storage.cluster.serve q).2) by
    obtain ⟨reply, s', hat, hs'⟩ := hat
    refine ⟨r.understood reply, s', ?_, hs'⟩
    unfold send
    rw [hat]
    rfl
  unfold serveAt
  by_cases hns : Address.isSegment ns = true
  · simp only [hns, Bool.not_true, Bool.false_eq_true, if_false]
    cases r with
    | get kind name =>
      by_cases hn : Address.segment name = ""
      · obtain ⟨s', hserve, hc, hs'⟩ := serve_calm h (.list kind "")
        have hlist : ∃ reply, serveListFor kind name s = (some reply, s') := by
          unfold serveListFor
          rw [hserve]
          exact ⟨_, rfl⟩
        obtain ⟨reply, hlist⟩ := hlist
        exact ⟨reply, s', (if_pos hn).trans hlist, hc, .inl hs'⟩
      · obtain ⟨s', hserve, hc, hs'⟩ := serve_calm h (.get kind (Address.segment name))
        exact ⟨_, s', (if_neg hn).trans hserve, hc, .inl hs'⟩
    | list kind selector =>
      obtain ⟨s', hserve, hc, hs'⟩ := serve_calm h (.list kind selector)
      exact ⟨_, s', hserve, hc, .inl hs'⟩
    | create kind o =>
      obtain ⟨s', hserve, hc, hs'⟩ := serve_calm h (.create kind o)
      exact ⟨_, s', hserve, hc, .inr ⟨rfl, _, rfl, hs'⟩⟩
    | replace kind name o =>
      obtain ⟨s', hserve, hc, hs'⟩ := serve_calm h (.replace kind (Address.segment name) o)
      exact ⟨_, s', hserve, hc, .inr ⟨rfl, .replace kind (Address.segment name) o, rfl, hs'⟩⟩
    | delete kind name =>
      obtain ⟨s', hserve, hc, hs'⟩ := serve_calm h (.delete kind (Address.segment name))
      exact ⟨_, s', hserve, hc, .inr ⟨rfl, .delete kind (Address.segment name), rfl, hs'⟩⟩
  · rw [if_pos (by simpa using hns)]
    exact ⟨_, s, rfl, h, .inl rfl⟩

/-- **A request that reads, or that is about another kind**, leaves an object as it is, wherever it goes. -/
theorem send_beside (h : s.Calm) (ns : String) (r : Request) : ∃ reply, ∃ s' : Session,
    send ns r s = (some reply, s') ∧ s'.Calm ∧
      (s'.storage.cluster = s.storage.cluster ∨ s.storage.cluster.Write s'.storage.cluster) ∧
      ∀ {kind : Kind} (n : String), r.verb.isWrite = false ∨ kind ≠ r.kind →
        s'.storage.cluster.get? kind n = s.storage.cluster.get? kind n := by
  obtain ⟨reply, s', hsend, hc, hsame | ⟨hwrite, q, hq, hs'⟩⟩ := send_cases h ns r
  · exact ⟨reply, s', hsend, hc, .inl hsame, fun n _ => by rw [hsame]⟩
  · refine ⟨reply, s', hsend, hc, ?_, fun {kind} n hne => ?_⟩
    · rw [hs']
      exact s.storage.cluster.serve_eq_or_write q
    · have hkind : kind ≠ q.kind := by
        rw [hq]
        exact hne.resolve_left (fun hread => by rw [hwrite] at hread; cases hread)
      rw [hs', Cluster.get?_serve_kind _ _ hkind]

end Session
end ServiceExposure
