import ServiceExposure.Owned.PortRoutes
import ServiceExposure.Proofs.Dict
import ServiceExposure.Proofs.Owned.Alone
import ServiceExposure.Proofs.Port.Targets
import ServiceExposure.Proofs.Shared.Holdings
/-!
# What the routes forward

Routes write the holdings of one protocol down, one object for each (`PortRoutes.Leads`).  They belong to whoever their
label names, which is whoever they lead to, so bringing a contributor's routes about takes one step of the holdings
(`PortRoutes.alone_converge`): those it gives up are deleted, those it has are written, and the others stay.
-/
namespace ServiceExposure

/-- The route without its version. -/
def PortRoute.unversioned (r : PortRoute) : PortRoute :=
  { r with metadata := { r.metadata with resourceVersion := none } }

namespace PortRoutes

/-- How the routes of a transport write down what services of a namespace hold. -/
def ledger (t : Transport) (ns : String) : Ledger RouteEntry String where
  key := RouteEntry.entryPoint
  entry id h := ⟨t.name ++ "-" ++ toString id.port, Contributor.forwardTarget ⟨ns, h.service⟩ h.target⟩
  covers id := id.protocol = t.protocol
  owns service e := Contributor.ownsForwardTarget ⟨ns, service⟩ e.target

theorem ledger_sound (t : Transport) (ns : String) : (ledger t ns).Sound where
  key_inj := by
    rintro ⟨p, n⟩ h ⟨p', n'⟩ h' ⟨hc, -⟩ ⟨hc', -⟩ hk
    have hport : toString n = toString n' := (String.append_right_inj _).1 hk
    obtain rfl := Decimal.toString_inj hport
    simp only [ledger, decide_eq_true_eq] at hc hc'
    rw [hc, hc']
  key_entry := fun _ _ => rfl
  owns_entry := fun service hf => Contributor.ownsForwardTarget_iff hf.2.2.2

/-- The route of a holding. -/
def routeOf (t : Transport) (ns : String) (id : PortId) (h : Holding) : PortRoute :=
  route t ⟨ns, h.service⟩ ⟨id.protocol, id.port, h.target⟩

/-- The route that stands under a name, without its version. -/
def routeIn (t : Transport) (c : Cluster) (name : String) : Option PortRoute :=
  (c.get? t.kind name).map (fun o => (t.ofObject o).unversioned)

/-- The routes are those of the holdings, each under its own name. -/
def Leads (t : Transport) (ns : String) (m : Holdings) (c : Cluster) : Prop :=
  ∀ name r, routeIn t c name = some r ↔
    ∃ id h, id.protocol = t.protocol ∧ m id = some h ∧ r = routeOf t ns id h ∧ name = r.metadata.anyName

theorem Leads.congr {t : Transport} {ns : String} {m : Holdings} {c c' : Cluster} (h : Leads t ns m c)
    (hsame : ∀ {n}, c'.get? t.kind n = c.get? t.kind n) : Leads t ns m c' := by
  intro name r
  rw [← h name r]
  unfold routeIn
  rw [hsame]

/-! ## What can be told from a route -/

theorem entry?_unversioned (r : PortRoute) : entry? r.unversioned = entry? r := rfl

theorem belongsTo_unversioned (service : String) (r : PortRoute) : belongsTo service r.unversioned = belongsTo service r :=
  rfl

theorem entry?_routeOf (t : Transport) (ns : String) (id : PortId) (h : Holding) :
    entry? (routeOf t ns id h) = some ((ledger t ns).entry id h) := rfl

theorem label_routeOf (t : Transport) (ns : String) (id : PortId) (h : Holding) :
    (routeOf t ns id h).metadata.labelSet.get? Label.exposedService = some h.service := by
  change (Dict.ofList [(Label.exposedService, h.service)]).get? Label.exposedService = some h.service
  exact (Dict.get?_ofList (by simp)).2 List.mem_cons_self

theorem belongsTo_routeOf (t : Transport) (ns : String) (id : PortId) (h : Holding) (service : String) :
    belongsTo service (routeOf t ns id h) = true ↔ h.service = service := by
  unfold belongsTo
  rw [label_routeOf, decide_eq_true_eq, Option.some.injEq]

/-- The name of the route of a service's port. -/
def routeName (t : Transport) (service : String) (port : Int) : String :=
  service ++ "-" ++ toString port ++ "-" ++ t.name

theorem anyName_routeOf (t : Transport) (ns : String) (id : PortId) (h : Holding) :
    (routeOf t ns id h).metadata.anyName = routeName t h.service id.port := rfl

/-- **A name tells whose route it is**, and for which port. -/
theorem routeName_inj {t : Transport} {service service' : String} {n n' : Int} (hn : isPortNumber n = true)
    (hn' : isPortNumber n' = true) (h : routeName t service n = routeName t service' n') : service = service' ∧ n = n' := by
  have hcut := congrArg String.toList ((String.append_left_inj _).1 ((String.append_left_inj _).1 h))
  have hd := Decimal.not_mem_of_readUnsigned? (Decimal.isSome_readUnsigned?_port hn) (c := '-') (by decide) (by decide)
  have hd' := Decimal.not_mem_of_readUnsigned? (Decimal.isSome_readUnsigned?_port hn') (c := '-') (by decide) (by decide)
  obtain ⟨hservice, hnumber⟩ := Text.cut_at_last hd hd' (by simpa using hcut)
  exact ⟨String.toList_inj.1 hservice, Decimal.toString_inj (String.toList_inj.1 hnumber)⟩

/-- A port of a transport is known by its number. -/
theorem eq_of_port {t : Transport} {id id' : PortId} (hp : id.protocol = t.protocol) (hp' : id'.protocol = t.protocol)
    (hn : id.port = id'.port) : id = id' := by
  cases id
  cases id'
  simp only at hp hp' hn
  rw [hp, hp', hn]

/-- A route is known by its name. -/
theorem routeOf_anyName_inj {t : Transport} {ns : String} {m : Holdings} (hm : m.Valid) {id id' : PortId}
    {h h' : Holding} (hp : id.protocol = t.protocol) (hp' : id'.protocol = t.protocol) (hid : m id = some h)
    (hid' : m id' = some h') (hn : (routeOf t ns id h).metadata.anyName = (routeOf t ns id' h').metadata.anyName) :
    id = id' := eq_of_port hp hp' (routeName_inj (hm hid).2.1 (hm hid').2.1 hn).2

/-! ## The routes that are listed -/

variable {t : Transport} {ns service : String} {m : Holdings} {c : Cluster} {desired : ExposedPorts}

/-- All routes of a transport. -/
def listed (t : Transport) (c : Cluster) : List PortRoute := (c.table t.kind).values.map t.ofObject

theorem metadata_ofObject (t : Transport) (o : t.kind.Object) : (t.ofObject o).metadata = t.kind.metadata o := by
  cases t <;> rfl

theorem mem_values_iff {α : Type} {d : Dict α} {a : α} : a ∈ d.values ↔ ∃ k, d.get? k = some a := by
  unfold Dict.values
  rw [List.mem_map]
  constructor
  · rintro ⟨p, hp, rfl⟩
    exact ⟨p.1, Dict.mem_toList_iff.1 hp⟩
  · rintro ⟨k, hk⟩
    exact ⟨(k, a), Dict.mem_toList_iff.2 hk, rfl⟩

theorem mem_listed_iff {r : PortRoute} : (∃ r' ∈ listed t c, r'.unversioned = r) ↔ ∃ name, routeIn t c name = some r := by
  unfold listed routeIn
  constructor
  · rintro ⟨r', hr, rfl⟩
    obtain ⟨o, ho, rfl⟩ := List.mem_map.1 hr
    obtain ⟨name, hname⟩ := mem_values_iff.1 ho
    have hget : c.get? t.kind name = some o := hname
    exact ⟨name, by rw [hget]; rfl⟩
  · rintro ⟨name, hname⟩
    obtain ⟨o, ho, rfl⟩ := Option.map_eq_some_iff.1 hname
    exact ⟨t.ofObject o, List.mem_map_of_mem (mem_values_iff.2 ⟨name, ho⟩), rfl⟩

theorem Leads.of_mem (h : Leads t ns m c) {r : PortRoute} (hr : r ∈ listed t c) :
    ∃ id holding, id.protocol = t.protocol ∧ m id = some holding ∧ r.unversioned = routeOf t ns id holding := by
  obtain ⟨name, hname⟩ := mem_listed_iff.1 ⟨r, hr, rfl⟩
  obtain ⟨id, holding, hp, hid, he, -⟩ := (h name _).1 hname
  exact ⟨id, holding, hp, hid, he⟩

/-- Every route has the label that is asked for. -/
theorem Leads.list_eq (h : Leads t ns m c) :
    ((c.table t.kind).values.filter (fun o => Selector.matchesLabels Label.exposedService
      (t.kind.metadata o).labelSet)).map t.ofObject = listed t c := by
  unfold listed
  congr 1
  refine List.filter_eq_self.2 (fun o ho => ?_)
  obtain ⟨id, holding, -, -, he⟩ := h.of_mem (List.mem_map_of_mem (f := t.ofObject) ho)
  have hlabel : (t.kind.metadata o).labelSet.get? Label.exposedService = some holding.service := by
    rw [← metadata_ofObject, ← label_routeOf t ns id holding, ← he]
    rfl
  have hfields : (Text.fields ',' Label.exposedService).filter (· ≠ "") = [Label.exposedService] := by decide
  have hcut : Text.cutAt '=' Label.exposedService = none := by decide
  unfold Selector.matchesLabels Selector.termMatches
  rw [hfields, List.all_cons, hcut]
  simp [Dict.contains, hlabel]

theorem filterMap_filter_of_forall {α β : Type} {f : α → Option β} {p : α → Bool} {q : β → Bool} : ∀ {xs : List α},
    (∀ x ∈ xs, ∃ y, f x = some y ∧ p x = q y) → (xs.filter p).filterMap f = (xs.filterMap f).filter q
  | [], _ => rfl
  | x :: xs, h => by
    obtain ⟨y, hy, hp⟩ := h x List.mem_cons_self
    have ih := filterMap_filter_of_forall (fun x' hx => h x' (List.mem_cons_of_mem x hx))
    rw [List.filterMap_cons_some hy, List.filter_cons, List.filter_cons, hp]
    split
    · rw [List.filterMap_cons_some hy, ih]
    · exact ih

/-- A route belongs to whoever it leads to. -/
theorem Leads.belongsTo_eq (h : Leads t ns m c) (hm : m.Valid) (service : String) {r : PortRoute} (hr : r ∈ listed t c) :
    ∃ e, entry? r = some e ∧ belongsTo service r = (ledger t ns).owns service e := by
  obtain ⟨id, holding, hp, hid, he⟩ := h.of_mem hr
  refine ⟨(ledger t ns).entry id holding, by rw [← entry?_unversioned, he, entry?_routeOf], ?_⟩
  have hf := Ledger.fits_of_valid (l := ledger t ns) hm (decide_eq_true hp) hid
  rw [← belongsTo_unversioned, he, Bool.eq_iff_iff, belongsTo_routeOf]
  exact ((ledger_sound t ns).owns_entry service hf).symm

theorem Leads.shows (h : Leads t ns m c) (hm : m.Valid) : (ledger t ns).Shows m ((listed t c).filterMap entry?) := by
  constructor
  · have hkeys := (c.table t.kind).increasing
    unfold listed Dict.values
    rw [List.map_map, List.filterMap_map]
    refine List.pairwise_map.2 (List.pairwise_filterMap.2 (hkeys.imp_of_mem ?_))
    intro p q hp hq hlt e he e' he' hkey
    have hroute : ∀ {p : String × t.kind.Object}, p ∈ (c.table t.kind).toList →
        routeIn t c p.1 = some (t.ofObject p.2).unversioned := fun {p} hp => by
      have hget : c.get? t.kind p.1 = some p.2 := Dict.mem_toList_iff.1 hp
      unfold routeIn
      rw [hget]
      rfl
    obtain ⟨id, holding, hpr, hid, hr, hn⟩ := (h p.1 _).1 (hroute hp)
    obtain ⟨id', holding', hpr', hid', hr', hn'⟩ := (h q.1 _).1 (hroute hq)
    have hentry : e = (ledger t ns).entry id holding := by
      have := entry?_routeOf t ns id holding
      rw [← hr, entry?_unversioned] at this
      exact Option.some.inj (he.symm.trans this)
    have hentry' : e' = (ledger t ns).entry id' holding' := by
      have := entry?_routeOf t ns id' holding'
      rw [← hr', entry?_unversioned] at this
      exact Option.some.inj (he'.symm.trans this)
    rw [hentry, hentry'] at hkey
    obtain rfl := (ledger_sound t ns).key_inj (Ledger.fits_of_valid (l := ledger t ns) hm (decide_eq_true hpr) hid)
      (Ledger.fits_of_valid (l := ledger t ns) hm (decide_eq_true hpr') hid') hkey
    rw [hid] at hid'
    cases hid'
    rw [hn, hn', hr, hr'] at hlt
    exact String.lt_irrefl _ hlt
  · intro e
    rw [List.mem_filterMap]
    constructor
    · rintro ⟨r, hr, he⟩
      obtain ⟨id, holding, hp, hid, hroute⟩ := h.of_mem hr
      rw [← entry?_unversioned, hroute, entry?_routeOf] at he
      exact ⟨id, holding, decide_eq_true hp, hid, (Option.some.inj he).symm⟩
    · rintro ⟨id, holding, hp, hid, rfl⟩
      have hname := (h _ _).2 ⟨id, holding, of_decide_eq_true hp, hid, rfl, rfl⟩
      obtain ⟨r, hr, hroute⟩ := mem_listed_iff.2 ⟨_, hname⟩
      exact ⟨r, hr, by rw [← entry?_unversioned, hroute, entry?_routeOf]⟩

/-! ## The routes that a contributor may have -/

theorem isForwardable_protocol (t : Transport) : t.protocol.isForwardable = true := by cases t <;> decide

theorem wanted_eq (t : Transport) (ns service : String) (desired : ExposedPorts) :
    wanted t ⟨ns, service⟩ desired =
      (desired.forwardable.toList.filter (fun p => (ledger t ns).covers p.id)).map
        (fun p => routeOf t ns p.id ⟨service, p.targetPort⟩) := by
  unfold wanted
  rw [desired.withProtocol_eq (isForwardable_protocol t)]
  rfl

theorem filterMap_entry?_wanted (t : Transport) (ns service : String) (desired : ExposedPorts) :
    (wanted t ⟨ns, service⟩ desired).filterMap entry? = (ledger t ns).wanted service desired := by
  rw [wanted_eq, List.filterMap_map]
  exact congrFun (List.filterMap_eq_map (f := fun p : ExposedPort => (ledger t ns).entry p.id ⟨service, p.targetPort⟩)) _

theorem mem_wanted_iff {r : PortRoute} : r ∈ wanted t ⟨ns, service⟩ desired ↔
    ∃ id h, id.protocol = t.protocol ∧ Holdings.claim service desired id = some h ∧ r = routeOf t ns id h := by
  rw [wanted_eq, List.mem_map]
  constructor
  · rintro ⟨p, hp, rfl⟩
    obtain ⟨hp, hc⟩ := List.mem_filter.1 hp
    exact ⟨p.id, _, of_decide_eq_true hc, Holdings.claim_eq_some.2 ⟨p, hp, rfl, rfl⟩, rfl⟩
  · rintro ⟨id, h, hc, hclaim, rfl⟩
    obtain ⟨p, hp, rfl, rfl⟩ := Holdings.claim_eq_some.1 hclaim
    exact ⟨p, List.mem_filter.2 ⟨hp, decide_eq_true hc⟩, rfl⟩

/-- **The routes that a contributor may have** are those of what it holds after the step. -/
theorem mem_granted_iff (h : Leads t ns m c) (hm : m.Valid) (hd : desired.Valid) {r : PortRoute} :
    r ∈ granted ⟨ns, service⟩ (listed t c) (wanted t ⟨ns, service⟩ desired) ↔
      ∃ id holding, id.protocol = t.protocol ∧ m.step service desired id = some holding ∧ holding.service = service ∧
        r = routeOf t ns id holding := by
  have hl := ledger_sound t ns
  have hshows := h.shows hm
  have hclaim := Ledger.shows_wanted hl service hd
  have hprior : ((listed t c).filter (belongsTo service)).filterMap entry? =
      ((listed t c).filterMap entry?).filter ((ledger t ns).owns service) :=
    filterMap_filter_of_forall (fun r hr => h.belongsTo_eq hm service hr)
  have hothers : ((listed t c).filter (fun r => !belongsTo service r)).filterMap entry? =
      ((listed t c).filterMap entry?).filter (fun e => !(ledger t ns).owns service e) := by
    refine filterMap_filter_of_forall (fun r hr => ?_)
    obtain ⟨e, he, ho⟩ := h.belongsTo_eq hm service hr
    exact ⟨e, he, by rw [ho]⟩
  have howned := Ledger.mem_owned_iff hl hm hd hshows hclaim
  unfold granted
  dsimp only
  rw [hprior, hothers, filterMap_entry?_wanted, List.mem_filter]
  constructor
  · rintro ⟨hr, he⟩
    obtain ⟨id, holding, hp, hc, rfl⟩ := mem_wanted_iff.1 hr
    rw [entry?_routeOf] at he
    obtain ⟨id', holding', hp', hstep, hs, hentry⟩ := (howned _).1 (of_decide_eq_true he)
    have hf := Ledger.fits_of_valid (l := ledger t ns) (Holdings.valid_claim hd) (decide_eq_true hp) hc
    have hf' := Ledger.fits_of_valid (l := ledger t ns) (hm.step hd) hp' hstep
    obtain rfl := hl.key_inj hf hf' (congrArg RouteEntry.entryPoint hentry)
    rcases Holdings.step_eq_some.1 hstep with ⟨-, hne⟩ | ⟨hc', -⟩
    · exact absurd hs hne
    · rw [hc] at hc'
      cases hc'
      exact ⟨id, holding, hp, hstep, hs, rfl⟩
  · rintro ⟨id, holding, hp, hstep, hs, rfl⟩
    rcases Holdings.step_eq_some.1 hstep with ⟨-, hne⟩ | ⟨hc, -⟩
    · exact absurd hs hne
    · refine ⟨mem_wanted_iff.2 ⟨id, holding, hp, hc, rfl⟩, ?_⟩
      rw [entry?_routeOf]
      exact decide_eq_true ((howned _).2 ⟨id, holding, decide_eq_true hp, hstep, hs, rfl⟩)

/-! ## Writing the routes -/

/-- A route may be written over another one: they differ in their labels and in what they do at most. -/
def Covers (r stored : PortRoute) : Prop := { stored.metadata with labels := r.metadata.labels } = r.metadata

theorem covers_routeOf {t : Transport} {ns : String} {id id' : PortId} {h h' : Holding}
    (hn : (routeOf t ns id h).metadata.anyName = (routeOf t ns id' h').metadata.anyName) :
    Covers (routeOf t ns id h) (routeOf t ns id' h') := by
  unfold Covers
  change { Metadata.named ns (routeOf t ns id' h').metadata.anyName with labels := (routeOf t ns id h).metadata.labels } =
    { Metadata.named ns (routeOf t ns id h).metadata.anyName with labels := (routeOf t ns id h).metadata.labels }
  rw [hn]

theorem unversioned_form {r : PortRoute} {current : t.kind.Object}
    (h : Covers r (t.ofObject current).unversioned) :
    (t.ofObject (Owned.form t.kind (t.toObject r) current)).unversioned = r := by
  have hform : (t.ofObject (Owned.form t.kind (t.toObject r) current)).unversioned =
      { r with metadata :=
        { (t.ofObject current).unversioned.metadata with
          labels := r.metadata.labels
          annotations := r.metadata.annotations
          ownerReferences := r.metadata.ownerReferences } } := by
    cases t <;> rfl
  rw [hform]
  have hmeta : { (t.ofObject current).unversioned.metadata with
      labels := r.metadata.labels
      annotations := r.metadata.annotations
      ownerReferences := r.metadata.ownerReferences } = r.metadata := by
    unfold Covers at h
    rw [← h]
  rw [hmeta]

theorem ofObject_unversioned (t : Transport) (o : t.kind.Object) :
    t.ofObject (t.kind.unversioned o) = (t.ofObject o).unversioned := by cases t <;> rfl

theorem routeIn_eq_sight (t : Transport) (c : Cluster) (name : String) :
    routeIn t c name = (c.sight t.kind name).map t.ofObject := by
  unfold routeIn Cluster.sight
  rw [Option.map_map]
  refine congrFun (congrArg _ (funext fun o => ?_)) _
  exact (ofObject_unversioned t o).symm

theorem nameOf_toObject (t : Transport) (r : PortRoute) : t.kind.nameOf (t.toObject r) = r.metadata.anyName := by
  cases t <;> rfl

/-- What is written for a route is the route. -/
theorem unversioned_wantedOver {r : PortRoute} (hu : r.unversioned = r)
    (hcov : ∀ stored, routeIn t c r.metadata.anyName = some stored → Covers r stored) :
    (t.ofObject (Owned.wantedOver t.kind (t.toObject r) (c.get? t.kind r.metadata.anyName))).unversioned = r := by
  cases hcur : c.get? t.kind r.metadata.anyName with
  | none =>
    refine Eq.trans ?_ hu
    cases t <;> rfl
  | some current =>
    refine unversioned_form (hcov _ ?_)
    unfold routeIn
    rw [hcur]
    rfl

theorem alone_applyAll (retry : RetryPolicy) (t : Transport) : ∀ (rs : List PortRoute) {c : Cluster}, c.Named →
    (rs.map (·.metadata.anyName)).Nodup →
    (∀ r ∈ rs, r.unversioned = r ∧ ∀ stored, routeIn t c r.metadata.anyName = some stored → Covers r stored) →
    ∃ c', (Action.forEach (fun r => do let _ ← Owned.apply retry t.kind (t.toObject r)) rs).alone c = (.ok (), c') ∧
      c'.Named ∧
      (∀ {other n}, other ≠ t.kind ∨ n ∉ rs.map (·.metadata.anyName) → c'.get? other n = c.get? other n) ∧
      ∀ r ∈ rs, routeIn t c' r.metadata.anyName = some r
  | [], c, hc, _, _ => ⟨c, rfl, hc, fun _ => rfl, fun _ h => nomatch h⟩
  | r :: rs, c, hc, hn, hfit => by
    obtain ⟨hr, hn⟩ := List.nodup_cons.1 hn
    obtain ⟨b, c₁, hrun, hc₁, hbeside, hsight⟩ := Owned.alone_apply retry (t.toObject r) hc
    rw [nameOf_toObject] at hbeside hsight
    have hkeep : ∀ {n}, n ≠ r.metadata.anyName → routeIn t c₁ n = routeIn t c n := fun hne => by
      unfold routeIn
      rw [hbeside (.inr hne)]
    have hself : routeIn t c₁ r.metadata.anyName = some r := by
      obtain ⟨hu, hcov⟩ := hfit r List.mem_cons_self
      rw [routeIn_eq_sight, hsight, Option.map_some, ofObject_unversioned, unversioned_wantedOver hu hcov]
    obtain ⟨c₂, hrun', hc₂, hrest, hall⟩ := alone_applyAll retry t rs hc₁ hn (fun r' hr' => by
      obtain ⟨hu, hcov⟩ := hfit r' (List.mem_cons_of_mem r hr')
      refine ⟨hu, fun stored hstored => hcov stored ?_⟩
      have hne : r'.metadata.anyName ≠ r.metadata.anyName := fun e =>
        hr (List.mem_map.2 ⟨r', hr', e⟩)
      rwa [← hkeep hne])
    refine ⟨c₂, ?_, hc₂, ?_, ?_⟩
    · exact (Action.alone_bind_ok (Action.alone_bind_ok hrun _) _).trans hrun'
    · intro other n hne
      have hnot : other ≠ t.kind ∨ n ≠ r.metadata.anyName ∧ n ∉ rs.map (·.metadata.anyName) :=
        hne.imp_right (fun h => not_or.1 (mt List.mem_cons.2 h))
      rw [hrest (hnot.imp_right And.right), hbeside (hnot.imp_right And.left)]
    · intro r' hr'
      rcases List.mem_cons.1 hr' with rfl | hr'
      · unfold routeIn
        rw [hrest (.inr hr)]
        exact hself
      · exact hall r' hr'

/-! ## Bringing a contributor's routes about -/

theorem nodup_names_wanted (hd : desired.Valid) :
    ((wanted t ⟨ns, service⟩ desired).map (·.metadata.anyName)).Nodup := by
  have hids := desired.forwardable.nodup
  rw [wanted_eq, List.map_map]
  refine List.pairwise_map.2 ((List.pairwise_map.1 hids).filter _ |>.imp_of_mem ?_)
  intro p q hp hq hne hname
  obtain ⟨hp, hcp⟩ := List.mem_filter.1 hp
  obtain ⟨hq, hcq⟩ := List.mem_filter.1 hq
  have hclaim : ∀ {p}, p ∈ desired.forwardable.toList →
      Holdings.claim service desired p.id = some ⟨service, p.targetPort⟩ := fun hp =>
    Holdings.claim_eq_some.2 ⟨_, hp, rfl, rfl⟩
  exact hne (routeOf_anyName_inj (Holdings.valid_claim hd) (of_decide_eq_true hcp) (of_decide_eq_true hcq) (hclaim hp)
    (hclaim hq) hname)

theorem mem_stale_iff (h : Leads t ns m c) (service : String) (kept : List PortRoute) (name : String) :
    name ∈ stale ⟨ns, service⟩ (listed t c) kept ↔
      (∃ id holding, id.protocol = t.protocol ∧ m id = some holding ∧ holding.service = service ∧
        name = (routeOf t ns id holding).metadata.anyName) ∧ name ∉ kept.map (·.metadata.anyName) := by
  unfold stale
  rw [List.mem_filter, decide_eq_true_eq]
  refine and_congr_left' ?_
  rw [List.mem_map]
  constructor
  · rintro ⟨r, hr, rfl⟩
    obtain ⟨hr, hb⟩ := List.mem_filter.1 hr
    obtain ⟨id, holding, hp, hid, he⟩ := h.of_mem hr
    rw [← belongsTo_unversioned, he, belongsTo_routeOf] at hb
    exact ⟨id, holding, hp, hid, hb, congrArg (·.metadata.anyName) he⟩
  · rintro ⟨id, holding, hp, hid, hs, rfl⟩
    obtain ⟨r, hr, he⟩ := mem_listed_iff.2 ⟨_, (h _ _).2 ⟨id, holding, hp, hid, rfl, rfl⟩⟩
    refine ⟨r, List.mem_filter.2 ⟨hr, ?_⟩, congrArg (·.metadata.anyName) he⟩
    rw [← belongsTo_unversioned, he, belongsTo_routeOf]
    exact hs

/-- Once the routes that a service holds are written and its others are gone, the routes are those after the step. -/
theorem leads_step {c' : Cluster} (h : Leads t ns m c) (hm : m.Valid) (hd : desired.Valid) {kept : List PortRoute}
    (hkept : ∀ {r}, r ∈ kept ↔ ∃ id holding, id.protocol = t.protocol ∧ m.step service desired id = some holding ∧
      holding.service = service ∧ r = routeOf t ns id holding)
    (hwritten : ∀ r ∈ kept, routeIn t c' r.metadata.anyName = some r)
    (hgone : ∀ {name}, name ∈ stale ⟨ns, service⟩ (listed t c) kept → routeIn t c' name = none)
    (hstays : ∀ {name}, name ∉ kept.map (·.metadata.anyName) → name ∉ stale ⟨ns, service⟩ (listed t c) kept →
      routeIn t c' name = routeIn t c name) : Leads t ns (m.step service desired) c' := by
  have hm' : (m.step service desired).Valid := hm.step hd
  have hstale := mem_stale_iff h service kept
  intro name r
  constructor
  · intro hr
    by_cases hn : name ∈ kept.map (·.metadata.anyName)
    · obtain ⟨r', hr', rfl⟩ := List.mem_map.1 hn
      rw [hwritten r' hr'] at hr
      cases hr
      obtain ⟨id, holding, hp, hstep, -, rfl⟩ := hkept.1 hr'
      exact ⟨id, holding, hp, hstep, rfl, rfl⟩
    · have hnot : name ∉ stale ⟨ns, service⟩ (listed t c) kept := fun hs => by
        rw [hgone hs] at hr
        cases hr
      rw [hstays hn hnot] at hr
      obtain ⟨id, holding, hp, hid, rfl, rfl⟩ := (h _ _).1 hr
      have hne : holding.service ≠ service := fun hs => hnot ((hstale _).2 ⟨⟨id, holding, hp, hid, hs, rfl⟩, hn⟩)
      exact ⟨id, holding, hp, Holdings.step_eq_some.2 (.inl ⟨hid, hne⟩), rfl, rfl⟩
  · rintro ⟨id, holding, hp, hstep, rfl, rfl⟩
    by_cases hs : holding.service = service
    · exact hwritten _ (hkept.2 ⟨id, holding, hp, hstep, hs, rfl⟩)
    · rcases Holdings.step_eq_some.1 hstep with ⟨hid, -⟩ | ⟨hclaim, -⟩
      · -- the name of another service's route is neither written nor given up
        rw [hstays]
        · exact (h _ _).2 ⟨id, holding, hp, hid, rfl, rfl⟩
        · intro hk
          obtain ⟨r, hr, hn⟩ := List.mem_map.1 hk
          obtain ⟨id', holding', hp', hstep', hs', rfl⟩ := hkept.1 hr
          obtain rfl := routeOf_anyName_inj hm' hp' hp hstep' hstep hn
          rw [hstep] at hstep'
          cases hstep'
          exact hs hs'
        · intro hst
          obtain ⟨⟨id', holding', hp', hid', hs', hn⟩, -⟩ := (hstale _).1 hst
          obtain rfl := routeOf_anyName_inj hm hp hp' hid hid' hn
          rw [hid] at hid'
          cases hid'
          exact hs hs'
      · obtain ⟨p, -, -, rfl⟩ := Holdings.claim_eq_some.1 hclaim
        exact absurd rfl hs

/-- **Bringing a contributor's routes about** takes one step of the holdings. -/
theorem alone_converge (h : Leads t ns m c) (hm : m.Valid) (hc : c.Named) (hd : desired.Valid) (reported : String)
    (retry : RetryPolicy) (service : String) :
    ∃ c', (converge reported retry t ⟨ns, service⟩ desired).alone c = (.ok (), c') ∧ c'.Named ∧
      (∀ {other n}, other ≠ t.kind → c'.get? other n = c.get? other n) ∧ Leads t ns (m.step service desired) c' := by
  obtain ⟨kept, hkept⟩ : ∃ kept, kept = granted ⟨ns, service⟩ (listed t c) (wanted t ⟨ns, service⟩ desired) := ⟨_, rfl⟩
  have hmem : ∀ {r}, r ∈ kept ↔ ∃ id holding, id.protocol = t.protocol ∧ m.step service desired id = some holding ∧
      holding.service = service ∧ r = routeOf t ns id holding := by
    rw [hkept]
    exact mem_granted_iff h hm hd
  have hnodup : (kept.map (·.metadata.anyName)).Nodup := by
    rw [hkept]
    exact (nodup_names_wanted hd).sublist (List.filter_sublist.map _)
  have hkeeps : ∀ {name}, name ∈ stale ⟨ns, service⟩ (listed t c) kept → name ∉ kept.map (·.metadata.anyName) :=
    fun hn => ((mem_stale_iff h service kept _).1 hn).2
  obtain ⟨c₁, hdelete, hc₁, hrest₁, hnone⟩ := Owned.alone_deleteAll t.kind (stale ⟨ns, service⟩ (listed t c) kept) hc
  have hstays : ∀ {name}, name ∉ stale ⟨ns, service⟩ (listed t c) kept → routeIn t c₁ name = routeIn t c name := fun hn => by
    unfold routeIn
    rw [hrest₁ (.inr hn)]
  obtain ⟨c₂, happly, hc₂, hrest₂, hwritten⟩ := alone_applyAll retry t kept hc₁ hnodup (fun r hr => by
    obtain ⟨id, holding, -, -, -, rfl⟩ := hmem.1 hr
    refine ⟨rfl, fun stored hstored => ?_⟩
    rw [hstays (fun hn => hkeeps hn (List.mem_map_of_mem hr))] at hstored
    obtain ⟨id', holding', -, -, rfl, hn⟩ := (h _ _).1 hstored
    exact covers_routeOf hn)
  have hother : ∀ {name}, name ∉ kept.map (·.metadata.anyName) → routeIn t c₂ name = routeIn t c₁ name := fun hn => by
    unfold routeIn
    rw [hrest₂ (.inr hn)]
  refine ⟨c₂, ?_, hc₂, fun hne => by rw [hrest₂ (.inl hne), hrest₁ (.inl hne)], ?_⟩
  · unfold converge
    refine (Action.alone_bind_ok (Action.alone_list t.kind Label.exposedService reported c) _).trans ?_
    dsimp only
    rw [h.list_eq, ← hkept]
    exact (Action.alone_bind_ok hdelete _).trans happly
  · refine leads_step h hm hd hmem hwritten (fun hn => ?_) (fun hn hn' => (hother hn).trans (hstays hn'))
    rw [hother (hkeeps hn), routeIn_eq_sight, hnone _ hn]
    rfl

end PortRoutes
end ServiceExposure
