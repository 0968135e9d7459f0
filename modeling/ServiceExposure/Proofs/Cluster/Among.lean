import ServiceExposure.Proofs.Cluster.Conduct
/-!
# A program among others

Before each call of a program others write what they like, and the call may fail (`Occasion`).  What happens at its calls
decides which calls a program makes (`Program.callsAmong`) and what it ends with (`Program.endAmong?`).  A program that
keeps to a conduct keeps to it whatever happens (`Program.Keeps.among`).
-/
namespace ServiceExposure

namespace Cluster

/-- What somebody else writes. -/
inductive Edit where
  | put (kind : Kind) (name : String) (o : kind.Object)
  | remove (kind : Kind) (name : String)

def edited (c : Cluster) : Edit → Cluster
  | .put kind name o => c.put kind name o
  | .remove kind name => c.remove kind name

theorem write_edited (c : Cluster) : ∀ e : Edit, c.Write (c.edited e)
  | .put kind name o => .put c kind name o
  | .remove kind name => .remove c kind name

/-- What every write keeps is true after any number of them. -/
theorem holds_edited {I : Cluster → Prop} (hI : ∀ {c c' : Cluster}, c.Write c' → I c → I c') :
    ∀ (es : List Edit) {c : Cluster}, I c → I (es.foldl edited c)
  | [], _, h => h
  | e :: es, c, h => holds_edited hI es (hI (c.write_edited e) h)

end Cluster

/-- What happens at a call of a program. -/
structure Occasion where
  /-- What others write before. -/
  edits : List Cluster.Edit := []
  /-- Why the call fails, where it does not reach the cluster. -/
  failure : Option Refusal := none

/-- The request as it is made on an occasion. -/
def Occasion.call (x : Occasion) (r : Request) (c : Cluster) : Call := ⟨r, x.failure, x.edits.foldl Cluster.edited c⟩

namespace Program

variable {α : Type}

/-- The calls that a program makes among others, as far as there are occasions. -/
def callsAmong : List Occasion → Program α → Cluster → List Call
  | [], _, _ => []
  | _ :: _, .done _, _ => []
  | x :: xs, .call r next, c => x.call r c :: (next (x.call r c).reply).callsAmong xs (x.call r c).after

/-- What a program ends with among others, unless it has calls left when there are no more occasions. -/
def endAmong? : List Occasion → Program α → Cluster → Option α
  | _, .done a, _ => some a
  | [], .call _ _, _ => none
  | x :: xs, .call r next, c => (next (x.call r c).reply).endAmong? xs (x.call r c).after

/-- **A program that keeps to a conduct keeps to it among others**, to its end. -/
theorem Keeps.among {P : Conduct α} : ∀ (xs : List Occasion) {p : Program α} {φ : P.Phase} {K : Knowledge} {c : Cluster},
    p.Keeps P φ K → c.Versioned → K.Holds c →
      ∃ ψ, P.Path φ (p.callsAmong xs c) ψ ∧ ∀ a, p.endAmong? xs c = some a → P.End ψ a
  | [], .done a, φ, _, _, h, _, _ => ⟨φ, rfl, fun _ ha => Option.some.inj ha ▸ h⟩
  | [], .call _ _, φ, _, _, _, _, _ => ⟨φ, rfl, fun _ ha => nomatch ha⟩
  | _ :: _, .done a, φ, _, _, h, _, _ => ⟨φ, rfl, fun _ ha => Option.some.inj ha ▸ h⟩
  | x :: xs, .call r next, φ, K, c, h, hc, hK => by
    obtain ⟨ψ, K', hstep, hK', hnext⟩ := h x.failure (x.edits.foldl Cluster.edited c)
      (Cluster.holds_edited (fun w h => h.write w) x.edits hc) (Cluster.holds_edited K.lasts x.edits hK)
    have hafter : (x.call r c).after.Versioned :=
      Call.versioned_after (Cluster.holds_edited (fun w h => h.write w) x.edits hc)
    obtain ⟨χ, hpath, hend⟩ := Keeps.among xs hnext hafter hK'
    exact ⟨χ, ⟨ψ, hstep, hpath⟩, hend⟩

end Program
end ServiceExposure
