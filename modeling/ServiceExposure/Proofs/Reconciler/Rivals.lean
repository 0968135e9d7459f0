import ServiceExposure.Proofs.Owned.Conduct
import ServiceExposure.Proofs.Owned.Cut
/-!
# Contributors that forward the same entry point

An entry point is to lead to one service.  A contributor leaves alone the entry points that others have, but it goes by
the routes as they were when it listed them, and stores its own later, each under a name that is nobody else's.  So no
conflict tells it of a rival that came in between.  Routes of different services share an entry point at some time exactly
if somebody stores a route beside such a rival (`Reconciler.exclusive_iff`).
-/
namespace ServiceExposure

/-- The service that a route leads to, by namespace and name. -/
def PortRoute.destination? (r : PortRoute) : Option (String × String) :=
  r.service?.map (fun s => (s.ns.getD (r.metadata.ns.getD ""), s.name))

namespace PortRoutes

/-- Two routes share an entry point and lead to different services. -/
def Rivals (r r' : PortRoute) : Prop := (∃ e ∈ r.entryPoints, e ∈ r'.entryPoints) ∧ r.destination? ≠ r'.destination?

/-- Routes that share an entry point lead to one service. -/
def Exclusive (c : Cluster) : Prop :=
  ∀ ⦃t t' name name' r r'⦄, routeIn t c name = some r → routeIn t' c name' = some r' → ¬ Rivals r r'

/-- A rival of a route stands under another name. -/
def Contested (t : Transport) (name : String) (r : PortRoute) (c : Cluster) : Prop :=
  ∃ name' ≠ name, ∃ r', routeIn t c name' = some r' ∧ Rivals r r'

/-- A call stores a route: it stands under the name, where none or another version stood before. -/
def Stores (t : Transport) (name : String) (r : PortRoute) (k : Call) : Prop :=
  k.after.get? t.kind name ≠ k.before.get? t.kind name ∧ routeIn t k.after name = some r

/-- Among the calls of a contributor, one stores a route beside a rival that was not there when an earlier one listed the
routes. -/
def Overtaken (ks : List Call) : Prop :=
  ∃ xs k₁ ys k₂ zs t name r, ks = xs ++ k₁ :: (ys ++ k₂ :: zs) ∧ k₁.request = .list t.kind Label.exposedService ∧
    k₁.failure = none ∧ Stores t name r k₂ ∧ Contested t name r k₂.before ∧ ¬ Contested t name r k₁.before

theorem Overtaken.append {ks : List Call} (h : Overtaken ks) (ks' : List Call) : Overtaken (ks ++ ks') := by
  obtain ⟨xs, k₁, ys, k₂, zs, t, name, r, rfl, h⟩ := h
  exact ⟨xs, k₁, ys, k₂, zs ++ ks', t, name, r, by simp, h⟩

/-! ## Rivals among the routes of holdings -/

variable {t : Transport} {ns service : String} {m : Holdings} {c : Cluster} {desired : ExposedPorts}

theorem destination?_routeOf (t : Transport) (ns : String) (id : PortId) (h : Holding) :
    (routeOf t ns id h).destination? = some (ns, h.service) := rfl

theorem entryPoints_routeOf (t : Transport) (ns : String) (id : PortId) (h : Holding) :
    (routeOf t ns id h).entryPoints = [t.name ++ "-" ++ toString id.port] := rfl

theorem entryPoint_inj {t t' : Transport} {n n' : Int}
    (h : t.name ++ "-" ++ toString n = t'.name ++ "-" ++ toString n') : t = t' ∧ n = n' := by
  have ht : t = t' := by
    have hchars := congrArg (·.toList.head?) h
    cases t <;> cases t'
    · rfl
    · simp [Transport.name] at hchars
    · simp [Transport.name] at hchars
    · rfl
  subst ht
  exact ⟨rfl, Decimal.toString_inj ((String.append_right_inj _).1 h)⟩

theorem rivals_routeOf {t t' : Transport} {id id' : PortId} {h h' : Holding} :
    Rivals (routeOf t ns id h) (routeOf t' ns id' h') ↔ t = t' ∧ id.port = id'.port ∧ h.service ≠ h'.service := by
  unfold Rivals
  rw [entryPoints_routeOf, entryPoints_routeOf, destination?_routeOf, destination?_routeOf]
  constructor
  · rintro ⟨⟨e, he, he'⟩, hne⟩
    obtain ⟨ht, hp⟩ := entryPoint_inj ((List.mem_singleton.1 he).symm.trans (List.mem_singleton.1 he'))
    exact ⟨ht, hp, fun hs => hne (by rw [hs])⟩
  · rintro ⟨rfl, hp, hne⟩
    exact ⟨⟨_, List.mem_singleton_self _, by rw [hp]; exact List.mem_singleton_self _⟩, fun he => hne (by simpa using he)⟩

/-- A route has a rival exactly if somebody else holds its port. -/
theorem Leads.contested_iff (h : Leads t ns m c) {id : PortId} {holding : Holding}
    (hp : id.protocol = t.protocol) (hn : isPortNumber id.port = true) :
    Contested t (routeName t holding.service id.port) (routeOf t ns id holding) c ↔
      ∃ h', m id = some h' ∧ h'.service ≠ holding.service := by
  constructor
  · rintro ⟨name', -, r', hr', hrivals⟩
    obtain ⟨id', h', hp', hid', rfl, -⟩ := (h _ _).1 hr'
    obtain ⟨-, hport, hne⟩ := rivals_routeOf.1 hrivals
    obtain rfl := eq_of_port hp hp' hport
    exact ⟨h', hid', hne.symm⟩
  · rintro ⟨h', hid', hne⟩
    refine ⟨routeName t h'.service id.port, fun hname => hne (routeName_inj hn hn hname).1, routeOf t ns id h',
      (h _ _).2 ⟨id, h', hp, hid', rfl, rfl⟩, rivals_routeOf.2 ⟨rfl, rfl, hne.symm⟩⟩

/-- The routes of every transport are those of some holdings. -/
def Coherent (ns : String) (c : Cluster) : Prop := ∀ t, ∃ m : Holdings, m.Valid ∧ Leads t ns m c

theorem Coherent.exclusive (h : Coherent ns c) : Exclusive c := by
  intro t t' name name' r r' hr hr' hrivals
  obtain ⟨m, hm, hleads⟩ := h t
  obtain ⟨id, holding, hp, hid, rfl, -⟩ := (hleads _ _).1 hr
  by_cases ht : t = t'
  · subst ht
    obtain ⟨id', holding', hp', hid', rfl, -⟩ := (hleads _ _).1 hr'
    obtain ⟨-, hport, hne⟩ := rivals_routeOf.1 hrivals
    obtain rfl := eq_of_port hp hp' hport
    rw [hid] at hid'
    cases hid'
    exact hne rfl
  · obtain ⟨m', hm', hleads'⟩ := h t'
    obtain ⟨id', holding', -, hid', rfl, -⟩ := (hleads' _ _).1 hr'
    exact ht (rivals_routeOf.1 hrivals).1

theorem coherent_of_none (hnone : ∀ (t : Transport) name, c.get? t.kind name = none) : Coherent ns c := by
  intro t
  refine ⟨.none, Holdings.valid_none, fun name r => ⟨fun hr => ?_, fun ⟨id, h, _, hid, _⟩ => nomatch hid⟩⟩
  rw [routeIn, hnone] at hr
  cases hr

theorem kind_injective {t t' : Transport} (h : t.kind = t'.kind) : t = t' := by
  cases t <;> cases t' <;> first | rfl | cases h

theorem Coherent.congr {c' : Cluster} (h : Coherent ns c)
    (hrest : ∀ {other n}, other ≠ t.kind → c'.get? other n = c.get? other n)
    (hself : ∃ m : Holdings, m.Valid ∧ Leads t ns m c') : Coherent ns c' := by
  intro t'
  by_cases ht : t' = t
  · rw [ht]
    exact hself
  · obtain ⟨m, hm, hleads⟩ := h t'
    exact ⟨m, hm, hleads.congr (hrest (fun hk => ht (kind_injective hk)))⟩

/-- A route that a contributor was granted had no rival when the routes were listed. -/
theorem not_contested_of_granted {id : PortId} {holding : Holding} (h : Leads t ns m c)
    (hp : id.protocol = t.protocol) (hn : isPortNumber id.port = true)
    (hstep : m.step holding.service desired id = some holding) :
    ¬ Contested t (routeName t holding.service id.port) (routeOf t ns id holding) c := by
  rw [h.contested_iff hp hn]
  rintro ⟨h', hid, hne⟩
  rcases Holdings.step_eq_some.1 hstep with ⟨-, hs⟩ | ⟨-, hmine⟩
  · exact hs rfl
  · exact hne (hmine h' hid)

/-- **A call of a contributor** keeps the routes those of some holdings, unless it stores one beside a rival that was not
there when the routes were listed. -/
theorem Coherent.step {φ ψ : Sight} {k : Call} (hd : desired.Valid) (hstep : Step ⟨ns, service⟩ desired φ k ψ)
    (hv : k.before.Versioned) (h : Coherent ns k.before) (hsight : ∀ {t c}, φ = .routes t c → Coherent ns c)
    (hfair : ∀ {t c name r}, φ = .routes t c → Stores t name r k → Contested t name r k.before → Contested t name r c) :
    Coherent ns k.after := by
  cases hstep with
  | quiet hq =>
    rw [hq]
    exact h
  | list t hr hs =>
    obtain ⟨r, failure, c⟩ := k
    cases hr
    cases hs
    exact h
  -- whatever was its own when it listed the routes still has a name of its own
  | remove hname hget ha =>
    rename_i t c name o
    obtain ⟨m₁, hm₁, hleads₁⟩ := hsight rfl t
    obtain ⟨m, hm, hleads⟩ := h t
    rw [show seen t c = listed t c from hleads₁.list_eq] at hname
    obtain ⟨⟨id, holding, hp, hid, rfl, rfl⟩, -⟩ := (mem_stale_iff hleads₁ _ _ name).1 hname
    obtain ⟨m', hm', -, hleads'⟩ := leads_remove hp (hm₁ hid).2.1 (.of hm hleads holding.service) hget
    rw [ha]
    exact h.congr (fun hne => Cluster.get?_remove_kind _ _ hne _) ⟨m', hm', hleads'⟩
  | put hr ha =>
    rename_i t c r
    obtain ⟨m₁, hm₁, hleads₁⟩ := hsight rfl t
    obtain ⟨m, hm, hleads⟩ := h t
    rw [show seen t c = listed t c from hleads₁.list_eq] at hr
    obtain ⟨id, holding, hp, hgranted, rfl, rfl⟩ := (mem_granted_iff hleads₁ hm₁ hd).1 hr
    have hvalid := hm₁.step hd hgranted
    rw [anyName_routeOf] at ha
    have hstores : Stores t (routeName t holding.service id.port) (routeOf t ns id holding) k := by
      unfold Stores
      rw [ha]
      exact ⟨hv.get?_put_ne_self, hleads.routeIn_put id holding⟩
    -- whoever else held the port would be a rival, one that was not there before
    have hfree : ∀ h', m id = some h' → h'.service = holding.service := by
      intro h' hid
      apply Classical.byContradiction
      intro hne
      have hcontested := (hleads.contested_iff hp hvalid.2.1).2 ⟨h', hid, hne⟩
      exact not_contested_of_granted hleads₁ hp hvalid.2.1 hgranted (hfair rfl hstores hcontested)
    obtain ⟨m', hm', -, hleads'⟩ := leads_apply hp hvalid rfl hfree (.of hm hleads holding.service)
    rw [ha]
    exact h.congr (fun hne => Cluster.get?_put_kind _ _ _ hne _) ⟨m', hm', hleads'⟩

/-! ## Whole runs -/

theorem listed_of_path {owner : Contributor} : ∀ {ks : List Call} {φ : Sight},
    (conduct owner desired).Path φ ks (Sight.routes t c) → φ = .routes t c ∨
      ∃ xs k ys, ks = xs ++ k :: ys ∧ k.request = .list t.kind Label.exposedService ∧ k.failure = none ∧ k.before = c
  | [], _, h => .inl h
  | k :: ks, φ, ⟨ψ, hstep, h⟩ => by
    rcases listed_of_path h with rfl | ⟨xs, k', ys, rfl, hk'⟩
    · generalize hψ : Sight.routes t c = ψ at hstep
      cases hstep with
      | quiet hq => exact .inl rfl
      | remove hname hget ha => exact .inl rfl
      | put hr ha => exact .inl rfl
      | list t' hr hs =>
        cases hψ
        exact .inr ⟨[], k, ks, rfl, hr, hs, rfl⟩
    · exact .inr ⟨k :: xs, k', ys, rfl, hk'⟩

/-- Who goes by the routes of a transport has listed them. -/
theorem listed_before {owner : Contributor} {ks : List Call}
    (h : (conduct owner desired).Path Sight.nothing ks (Sight.routes t c)) :
    ∃ xs k ys, ks = xs ++ k :: ys ∧ k.request = .list t.kind Label.exposedService ∧ k.failure = none ∧ k.before = c :=
  (listed_of_path h).resolve_left (fun hφ => nomatch hφ)

end PortRoutes

namespace Reconciler

open PortRoutes

variable {r : Reconciler} {ns : String} {c : Cluster}

/-- What can happen where contributors of a namespace bring their routes about: a run is started, or makes its next
request. -/
inductive Materializes (r : Reconciler) (ns : String) : Pool.Move → Prop where
  | start (service : String) (desired : ExposedPorts) (hd : desired.Valid) :
      Materializes r ns (.start (r.materialize ⟨ns, service⟩ desired))
  | turn (i : Nat) (failure : Option Refusal) : Materializes r ns (.turn i failure)

theorem materialize_keeps (hb : r.backend = .traefik) (owner : Contributor) (desired : ExposedPorts) :
    (r.materialize owner desired).run.Keeps (conduct owner desired.forwardable) Sight.nothing .nothing := by
  unfold materialize
  rw [hb]
  exact Action.keeps_bind (P := conduct owner desired.forwardable) id id (fun _ => converge_keeps _ _ .udp _)
    (fun _ => trivial) (converge_keeps _ _ .tcp _)

/-- The routes after a call, where they were in order after every move before. -/
theorem coherent_call (hb : r.backend = .traefik) (hv : c.Versioned) {ms : List Pool.Move} {i : Nat}
    {failure : Option Refusal} (hms : ∀ m ∈ ms ++ [.turn i failure], r.Materializes ns m)
    (hbefore : ∀ us, us <+: ms → Coherent ns (Pool.run ⟨c, []⟩ us).cluster) {k : Call}
    (hcall : (Pool.run ⟨c, []⟩ ms).call? (.turn i failure) = some k)
    (hfair : ¬ Overtaken (Pool.calls i ⟨c, []⟩ ms ++ [k])) : Coherent ns k.after := by
  obtain ⟨hbefore_k, hafter_k⟩ := Pool.cluster_step_of_call hcall
  have hstart : ∀ q, .start q ∈ ms ++ [.turn i failure] → ∃ x : { d : String × ExposedPorts // d.2.Valid },
      q.run.Keeps (conduct ⟨ns, x.1.1⟩ x.1.2.forwardable) Sight.nothing .nothing := by
    intro q hq
    cases hms _ hq with
    | start service desired hd => exact ⟨⟨(service, desired), hd⟩, materialize_keeps hb _ _⟩
  have hi : i < (Pool.run ⟨c, []⟩ (ms ++ [.turn i failure])).programs.length := by
    rw [Pool.run_append]
    exact Nat.lt_of_lt_of_le (Pool.lt_length_of_call hcall) (Pool.length_run _ _)
  obtain ⟨⟨⟨service, desired⟩, hd⟩, ψ, hpath, -⟩ := Pool.follows_all hv hstart hi
  rw [Pool.calls_append, Pool.calls_turn hcall] at hpath
  obtain ⟨φ, hφ, hstep⟩ := hpath.last
  refine Coherent.step hd.forwardable hstep (hbefore_k ▸ Pool.versioned_run hv ms)
    (hbefore_k ▸ hbefore ms (List.prefix_refl ms)) (fun {t c₁} hsight => ?_)
    (fun {t c₁ name r} hsight hstores hrival => ?_)
  -- what was listed is the cluster after some move before
  · subst hsight
    obtain ⟨xs, k₁, ys, hks, -, -, rfl⟩ := listed_before hφ
    obtain ⟨us, m, vs, rfl, hcall₁⟩ := Pool.mem_calls (hks ▸ List.mem_append_right xs List.mem_cons_self)
    rw [(Pool.cluster_step_of_call hcall₁).1]
    exact hbefore us (List.prefix_append us _)
  · subst hsight
    obtain ⟨xs, k₁, ys, hks, hr, hs, rfl⟩ := listed_before hφ
    apply Classical.byContradiction
    intro hnot
    refine hfair ⟨xs, k₁, ys, k, [], t, name, r, ?_, hr, hs, hstores, hrival, hnot⟩
    rw [hks, List.append_assoc, List.cons_append]

theorem coherent_run (hb : r.backend = .traefik) (hv : c.Versioned)
    (hnone : ∀ (t : Transport) name, c.get? t.kind name = none) {ms : List Pool.Move}
    (hms : ∀ m ∈ ms, r.Materializes ns m) (hfair : ∀ i, ¬ Overtaken (Pool.calls i ⟨c, []⟩ ms)) :
    ∀ us, us <+: ms → Coherent ns (Pool.run ⟨c, []⟩ us).cluster := by
  induction ms using List.reverseRecOn with
  | nil =>
    intro us hus
    rw [List.prefix_nil.1 hus]
    exact coherent_of_none hnone
  | append_singleton ms m ih =>
    have hbefore := ih (fun m' hm => hms m' (List.mem_append_left _ hm)) (fun i h => hfair i (by
      rw [Pool.calls_append]
      exact h.append _))
    intro us hus
    -- of all prefixes only the whole run is new
    rcases List.prefix_concat_iff.1 hus with rfl | hus
    · rw [Pool.run_append]
      cases hms m (List.mem_append_right ms List.mem_cons_self) with
      | start service desired hd => exact hbefore ms (List.prefix_refl ms)
      | turn i failure =>
        change Coherent ns ((Pool.run ⟨c, []⟩ ms).step (.turn i failure)).cluster
        cases hcall : (Pool.run ⟨c, []⟩ ms).call? (.turn i failure) with
        | none =>
          rw [Pool.step_of_no_call hcall]
          exact hbefore ms (List.prefix_refl ms)
        | some k =>
          rw [(Pool.cluster_step_of_call hcall).2]
          refine coherent_call hb hv hms hbefore hcall (fun h => hfair i ?_)
          rw [Pool.calls_append, Pool.calls_turn hcall]
          exact h
    · exact hbefore us hus

theorem not_exclusive_of_stores {t : Transport} {name : String} {route : PortRoute} {k : Call}
    (hs : Stores t name route k) (hc : Contested t name route k.before) : ¬ Exclusive k.after := by
  obtain ⟨name', hne, r', hr', hrivals⟩ := hc
  have hsame : k.after.get? t.kind name' = k.before.get? t.kind name' := by
    rcases k.quiet_or_write with hq | hw
    · rw [hq]
    · exact hw.get?_of_changed hs.1 (.inr hne)
  have hstays : routeIn t k.after name' = some r' := by
    unfold routeIn
    rw [hsame]
    exact hr'
  exact fun h => h hs.2 hstays hrivals

/-- **When an entry point leads to one service only.**  Contributors of a namespace bring their routes about, each as often
as it likes and with any ports, their calls in any order and any of them failing, where there were no routes at first and
nobody else writes.  After every move routes that share an entry point lead to one service, exactly if no contributor ever
stores a route beside a rival that was not there when it listed the routes. -/
theorem exclusive_iff (hb : r.backend = .traefik) (hv : c.Versioned)
    (hnone : ∀ (t : Transport) name, c.get? t.kind name = none) {ms : List Pool.Move} (hms : ∀ m ∈ ms, r.Materializes ns m) :
    (∀ us, us <+: ms → Exclusive (Pool.run ⟨c, []⟩ us).cluster) ↔ ∀ i, ¬ Overtaken (Pool.calls i ⟨c, []⟩ ms) := by
  constructor
  · rintro h i ⟨xs, k₁, ys, k₂, zs, t, name, route, hks, -, -, hstores, hrival, -⟩
    have hmem : k₂ ∈ Pool.calls i ⟨c, []⟩ ms := by
      rw [hks]
      simp
    obtain ⟨us, m, vs, rfl, hcall⟩ := Pool.mem_calls hmem
    refine not_exclusive_of_stores hstores hrival ?_
    have hafter := h (us ++ [m]) ⟨vs, List.append_assoc us [m] vs⟩
    rwa [Pool.run_append, Pool.run_cons, Pool.run_nil, (Pool.cluster_step_of_call hcall).2] at hafter
  · exact fun h us hus => (coherent_run hb hv hnone hms h us hus).exclusive

def contender (r : Reconciler) (service : String) : Pool.Move :=
  .start (r.materialize ⟨"ecosystem", service⟩ (.ofList [⟨.tcp, 22, 22⟩]))

theorem materializes_contender (r : Reconciler) (service : String) : r.Materializes "ecosystem" (r.contender service) :=
  .start service _ (by decide)

/-- The second contributor lists the routes when the first one has stored its own, and leaves the entry point alone. -/
theorem exclusive_one_by_one :
    let r : Reconciler := ⟨{}, .traefik, ⟨.done (.ok false), fun _ => .done (.ok true)⟩⟩
    let ms := [r.contender "scm", r.contender "ldap", .turn 0 none, .turn 0 none, .turn 0 none, .turn 0 none, .turn 1 none,
      .turn 1 none]
    (Pool.run {} ms).programs[0]? = some (.done (.ok ())) ∧ (Pool.run {} ms).programs[1]? = some (.done (.ok ())) ∧
      ∀ us, us <+: ms → Exclusive (Pool.run {} us).cluster := by
  intro r ms
  have hturn : ∀ i, r.Materializes "ecosystem" (.turn i none) := fun i => .turn i none
  have hms : ∀ m ∈ ms, r.Materializes "ecosystem" m := by
    simp [ms, materializes_contender, hturn]
  have hcalls : ∀ i < 2, ∀ k ∈ Pool.calls i {} ms, k.after = k.before ∨ k.before = {} := by decide +kernel
  have hnobody : ∀ i, 2 ≤ i → Pool.calls i {} ms = [] := fun i hi =>
    Pool.calls_eq_nil (Nat.le_trans (by decide +kernel) hi)
  refine ⟨by decide +kernel, by decide +kernel, (exclusive_iff rfl Cluster.versioned_empty (fun t name => ?_) hms).2 ?_⟩
  · cases t <;> rfl
  · rintro i ⟨xs, k₁, ys, k, zs, t, name, route, hks, -, -, hstores, ⟨name', -, r', hr', -⟩, -⟩
    have hmem : k ∈ Pool.calls i {} ms := by
      rw [hks]
      simp
    by_cases hi : i < 2
    · rcases hcalls i hi k hmem with hquiet | hbare
      · exact hstores.1 (by rw [hquiet])
      · rw [hbare] at hr'
        cases t <;> cases hr'
    · rw [hnobody i (Nat.le_of_not_lt hi)] at hmem
      cases hmem

/-- **Two contributors that list the routes before either has stored one** both succeed and share the entry point. -/
theorem rivals_side_by_side :
    let r : Reconciler := ⟨{}, .traefik, ⟨.done (.ok false), fun _ => .done (.ok true)⟩⟩
    let ms := [r.contender "scm", r.contender "ldap", .turn 0 none, .turn 1 none, .turn 0 none, .turn 0 none, .turn 0 none,
      .turn 1 none, .turn 1 none, .turn 1 none]
    (∀ m ∈ ms, r.Materializes "ecosystem" m) ∧ (Pool.run {} ms).programs[0]? = some (.done (.ok ())) ∧
      (Pool.run {} ms).programs[1]? = some (.done (.ok ())) ∧ ¬ Exclusive (Pool.run {} ms).cluster := by
  intro r ms
  have hturn : ∀ i, r.Materializes "ecosystem" (.turn i none) := fun i => .turn i none
  refine ⟨by simp [ms, materializes_contender, hturn], by decide +kernel, by decide +kernel, fun h => ?_⟩
  have hroute : ∀ service ∈ ["scm", "ldap"], routeIn .tcp (Pool.run {} ms).cluster (routeName .tcp service 22) =
      some (routeOf .tcp "ecosystem" ⟨.tcp, 22⟩ ⟨service, 22⟩) := by decide +kernel
  exact h (hroute "scm" (by decide)) (hroute "ldap" (by decide))
    (rivals_routeOf.2 ⟨rfl, rfl, by decide⟩)

end Reconciler
end ServiceExposure
