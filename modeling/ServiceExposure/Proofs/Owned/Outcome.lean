import ServiceExposure.Proofs.Cluster.Among
import ServiceExposure.Proofs.Owned.Conduct
/-!
# What comes of applying an object

Whatever others write between its calls, applying an object stores it at most once, by its last call (`Owned.conduct_atOnce`).
What is stored has everything that was not wanted from the object that stood there at that very moment, so nobody else's
update is lost (`Owned.Shaped`), and where nothing is stored the object was found in that shape or a call failed
(`Owned.apply_outcome`).
-/
namespace ServiceExposure

/-- The metadata that whoever applies an object has no say in, but for the version. -/
def Metadata.foreign (m : Metadata) : Metadata :=
  { m with labels := none, annotations := none, ownerReferences := none, resourceVersion := none }

namespace Owned

variable {kind : Kind} {desired : kind.Object}

/-! ## The shape of what is stored -/

/-- Two objects say the same, whatever their metadata are and, for ingresses, what is observed of them. -/
def SameSpec : (kind : Kind) → kind.Object → kind.Object → Prop
  | .ingress => fun (o o' : Ingress) => o.spec = o'.spec
  | .middleware => fun (o o' : Middleware) => o.spec = o'.spec
  | .tcpRoute | .udpRoute => fun (o o' : PortRoute) => o.entryPoints = o'.entryPoints ∧ o.rules = o'.rules
  | .service => fun (o o' : Service) => o.spec = o'.spec ∧ o.others = o'.others
  | .configMap => fun (o o' : ConfigMap) => o.data = o'.data ∧ o.others = o'.others
  | .networkPolicy => fun (o o' : NetworkPolicy) => o.spec = o'.spec
  | .deployment => fun (o o' : Deployment) => o.status = o'.status ∧ o.others = o'.others

/-- What is observed of an object, where others say so. -/
def observed : (kind : Kind) → kind.Object → Option Json
  | .ingress => fun (o : Ingress) => o.status
  | _ => fun _ => none

/-- An object has the desired spec, labels, annotations and owner references; the rest, but for the version, is that of
the object that stood there before, if there was one. -/
structure Shaped (kind : Kind) (desired : kind.Object) (before : Option kind.Object) (o : kind.Object) : Prop where
  spec : SameSpec kind o desired
  labels : (kind.metadata o).labels = (kind.metadata desired).labels
  annotations : (kind.metadata o).annotations = (kind.metadata desired).annotations
  ownerReferences : (kind.metadata o).ownerReferences = (kind.metadata desired).ownerReferences
  rest : ∀ b, before = some b → (kind.metadata o).foreign = (kind.metadata b).foreign
  observed : ∀ b, before = some b → observed kind o = observed kind b

theorem sameSpec_withForeign (o current : kind.Object) (m : Metadata) :
    SameSpec kind (withForeign kind (kind.withMetadata o m) current) o := by
  cases kind <;> first | rfl | exact ⟨rfl, rfl⟩

theorem shaped_form (kind : Kind) (desired current : kind.Object) :
    Shaped kind desired (some current) (form kind desired current) where
  spec := sameSpec_withForeign desired current _
  labels := by cases kind <;> rfl
  annotations := by cases kind <;> rfl
  ownerReferences := by cases kind <;> rfl
  rest := by
    rintro b ⟨⟩
    cases kind <;> rfl
  observed := by
    rintro b ⟨⟩
    cases kind <;> rfl

theorem shaped_new (kind : Kind) (desired : kind.Object) : Shaped kind desired none desired where
  spec := by cases kind <;> first | rfl | exact ⟨rfl, rfl⟩
  labels := rfl
  annotations := rfl
  ownerReferences := rfl
  rest := fun _ h => nomatch h
  observed := fun _ h => nomatch h

theorem shaped_wantedOver (kind : Kind) (desired : kind.Object) :
    ∀ before, Shaped kind desired before (wantedOver kind desired before)
  | none => shaped_new kind desired
  | some current => shaped_form kind desired current

/-- The version does not matter. -/
theorem Shaped.stamped {before : Option kind.Object} {o : kind.Object} (h : Shaped kind desired before o) (v : String) :
    Shaped kind desired before (Cluster.stamped kind o v) := by
  obtain ⟨hspec, hlabels, hannotations, hrefs, hrest, hobserved⟩ := h
  cases kind <;> exact ⟨hspec, hlabels, hannotations, hrefs, hrest, hobserved⟩

theorem shaped_of_form {o : kind.Object} (h : form kind desired o = o) : Shaped kind desired (some o) o := by
  have hshaped := shaped_form kind desired o
  rwa [h] at hshaped

/-! ## Nothing left to do -/

/-- Applying an object once more, with nobody else around, finds nothing to do. -/
def Settled (kind : Kind) (desired : kind.Object) (c : Cluster) : Prop :=
  ∀ retry, (apply retry kind desired).alone c = (.ok false, c)

theorem settled_of_form {c : Cluster} {o : kind.Object} (hget : c.get? kind (kind.nameOf desired) = some o)
    (hform : form kind desired o = o) : Settled kind desired c := fun retry => (onlyReads_apply retry hget hform).alone

theorem settled_put (c : Cluster) (before : Option kind.Object) :
    Settled kind desired (c.put kind (kind.nameOf desired) (wantedOver kind desired before)) := by
  obtain ⟨o, hget, hform⟩ := done_put c kind desired before
  exact settled_of_form hget hform

/-! ## The outcome -/

/-- The last call, and no other, has stored the object in a new version: it has replaced what stood there just then, or
created the object where there was none. -/
def LastStores (kind : Kind) (desired : kind.Object) (ks : List Call) : Prop :=
  ∃ xs k o, ks = xs ++ [k] ∧ (∀ x ∈ xs, x.Quiet) ∧ k.before.Beside kind (kind.nameOf desired) k.after ∧
    k.request.verb = (match k.before.get? kind (kind.nameOf desired) with | none => .create | some _ => .replace) ∧
    k.after.get? kind (kind.nameOf desired) = some o ∧
    (kind.metadata o).resourceVersion = some k.before.nextVersion ∧
    Shaped kind desired (k.before.get? kind (kind.nameOf desired)) o ∧ Settled kind desired k.after

/-- Nothing was stored, and the last call has read the object in its shape. -/
def LastFinds (kind : Kind) (desired : kind.Object) (ks : List Call) : Prop :=
  (∀ x ∈ ks, x.Quiet) ∧ ∃ xs k o, ks = xs ++ [k] ∧ k.request = .get kind (kind.nameOf desired) ∧ k.failure = none ∧
    k.before.get? kind (kind.nameOf desired) = some o ∧ Shaped kind desired (some o) o ∧ Settled kind desired k.after

theorem ApplyStep.verb {k : Call} (h : ApplyStep kind desired .pending k .stored) : k.request.verb =
    (match k.before.get? kind (kind.nameOf desired) with | none => .create | some _ => .replace) := by
  cases h with
  | create hget =>
    rw [hget]
    rfl
  | replace hget =>
    rw [hget]
    rfl

theorem lastStores_of_step {xs : List Call} {k : Call} (hxs : ∀ x ∈ xs, x.Quiet)
    (h : ApplyStep kind desired .pending k .stored) : LastStores kind desired (xs ++ [k]) := by
  refine ⟨xs, k, _, rfl, hxs, ?_, h.verb, ?_, Cluster.versionOf_stamped kind _ k.before.nextVersion,
    (shaped_wantedOver kind desired _).stamped _, ?_⟩
  · rw [h.after]
    exact Cluster.beside_put _ _ _ _
  · rw [h.after, Cluster.get?_put_self]
  · rw [h.after]
    exact settled_put k.before _

theorem lastFinds_of_step {xs : List Call} {k : Call} (hxs : ∀ x ∈ xs, x.Quiet)
    (h : ApplyStep kind desired .pending k .found) : LastFinds kind desired (xs ++ [k]) := by
  cases h with
  | find hget hform =>
    exact ⟨List.forall_mem_append.2 ⟨hxs, List.forall_mem_singleton.2 rfl⟩, xs, _, _, rfl, rfl, rfl, hget,
      shaped_of_form hform, settled_of_form hget hform⟩

/-- A row of calls that ends with a result has come as far as the result tells. -/
theorem calls_of_end {ks : List Call} {χ : Stage} (hpath : (conduct kind desired).Path Stage.pending ks χ)
    {result : Except Error Bool} (hend : χ.Ends result) :
    match result with
    | .ok true => LastStores kind desired ks
    | .ok false => LastFinds kind desired ks
    | .error _ => ∀ k ∈ ks, k.Quiet := by
  rcases conduct_atOnce.path_cases hpath with ⟨hquiet, rfl⟩ | ⟨xs, k, rfl, hxs, hlast, hne⟩
  · obtain ⟨e, rfl⟩ := hend
    exact hquiet
  · cases χ with
    | pending => exact absurd rfl hne
    | found =>
      obtain rfl : result = .ok false := hend
      exact lastFinds_of_step hxs hlast
    | stored =>
      obtain rfl : result = .ok true := hend
      exact lastStores_of_step hxs hlast

/-- **What comes of applying an object** among others.  If it tells that something was written, the last call has stored
the object in its shape over what stood there just then; if it tells that nothing was, the last call has read the object in
that shape; and if it fails nothing was stored.  With nobody else around it succeeds, and finds nothing to do the next
time. -/
theorem apply_outcome (retry : RetryPolicy) (kind : Kind) (desired : kind.Object) (c : Cluster) (hc : c.Versioned) :
    (∀ xs, (apply retry kind desired).run.endAmong? xs c = some (.ok true) →
      LastStores kind desired ((apply retry kind desired).run.callsAmong xs c)) ∧
    (∀ xs, (apply retry kind desired).run.endAmong? xs c = some (.ok false) →
      LastFinds kind desired ((apply retry kind desired).run.callsAmong xs c)) ∧
    (∀ xs e, (apply retry kind desired).run.endAmong? xs c = some (.error e) →
      ∀ k ∈ (apply retry kind desired).run.callsAmong xs c, k.Quiet) ∧
    (c.Named → ∃ b c', (apply retry kind desired).alone c = (.ok b, c') ∧ Settled kind desired c') := by
  have hrun : ∀ xs result, (apply retry kind desired).run.endAmong? xs c = some result → ∃ χ : Stage,
      (conduct kind desired).Path Stage.pending ((apply retry kind desired).run.callsAmong xs c) χ ∧ χ.Ends result :=
    fun xs result hend =>
      let ⟨χ, hpath, hends⟩ := Program.Keeps.among xs (keeps_stages retry kind desired) hc trivial
      ⟨χ, hpath, hends result hend⟩
  refine ⟨fun xs hend => ?_, fun xs hend => ?_, fun xs e hend => ?_, fun hnamed => ?_⟩
  · obtain ⟨χ, hpath, hends⟩ := hrun xs _ hend
    exact calls_of_end hpath hends
  · obtain ⟨χ, hpath, hends⟩ := hrun xs _ hend
    exact calls_of_end hpath hends
  · obtain ⟨χ, hpath, hends⟩ := hrun xs _ hend
    exact calls_of_end hpath hends
  · obtain ⟨b, c', halone, -, -, hsight⟩ := alone_apply retry desired hnamed
    obtain ⟨o, hget, ho⟩ := Option.map_eq_some_iff.1 hsight
    exact ⟨b, c', halone, settled_of_form hget (form_eq_self ho (form_wantedOver kind desired _))⟩

/-! ## A race that is lost -/

/-- An ingress as it is wanted. -/
def wantedIngress : Ingress where
  metadata := { Metadata.named "ecosystem" "web" with labels := some (.ofList [("app", "ces")]) }
  spec := some { ingressClassName := some "nginx" }

/-- The ingress as somebody else has changed it in the meantime. -/
def observedIngress : Ingress where
  metadata := { Metadata.named "ecosystem" "web" with
    uid := some "7c1e", labels := some (.ofList [("app", "old")]), others := .ofList [("finalizers", .arr [.str "keep"])] }
  status := some (.obj [("loadBalancer", .null)])

/-- Between the read and the write somebody else observes the ingress; the second attempt keeps what they wrote. -/
theorem apply_outcome_observedIngress :
    let c : Cluster := Cluster.put {} .ingress "web" { wantedIngress with spec := none }
    let xs : List Occasion := [{}, { edits := [.put .ingress "web" observedIngress] }, {}, {}]
    let p := (apply .standard .ingress wantedIngress).run
    p.endAmong? xs c = some (.ok true) ∧ (p.callsAmong xs c).length = 4 ∧
      LastStores .ingress wantedIngress (p.callsAmong xs c) ∧
      ∃ b c', (apply .standard .ingress wantedIngress).alone c = (.ok b, c') ∧ Settled .ingress wantedIngress c' := by
  intro c xs p
  have hc : c.Versioned := Cluster.versioned_empty.write (.put _ _ _ _)
  have hnamed : c.Named := Cluster.named_empty.put rfl
  have hend : p.endAmong? xs c = some (.ok true) := by decide +kernel
  obtain ⟨hstores, -, -, halone⟩ := apply_outcome .standard .ingress wantedIngress c hc
  exact ⟨hend, by decide +kernel, hstores xs hend, halone hnamed⟩

end Owned
end ServiceExposure
