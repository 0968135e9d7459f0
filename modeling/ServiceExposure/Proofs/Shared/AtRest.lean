import Mathlib.Data.List.Nodup
import ServiceExposure.Proofs.Cluster.Reading
import ServiceExposure.Proofs.Merge.Laws
import ServiceExposure.Proofs.Shared.Admission
import ServiceExposure.Proofs.Shared.Alone
import ServiceExposure.Proofs.Shared.LoadBalancer
import ServiceExposure.Proofs.Shared.Tables
/-!
# Shared objects at rest

A shared object is at rest for a contributor when nothing is planned for it, and then converging only reads
(`SharedResource.AtRest.onlyReads`).  Right after a change that the contributor has planned the object is at rest,
whoever wrote the rest of it: the load balancer where its ports have different identities
(`LoadBalancer.atRest_commit`), a forwarding table always (`ForwardingTable.atRest_commit`), and the policy as long as
contributors alone have written it (`Admission.atRest_commit`).
-/
namespace ServiceExposure

open Latest (latest standing)

/-! ## Objects and their versions -/

/-- The object with another version, or none. -/
def Kind.atVersion (kind : Kind) (v : Option String) (o : kind.Object) : kind.Object :=
  kind.withMetadata o { kind.metadata o with resourceVersion := v }

theorem Kind.atVersion_self (kind : Kind) (o : kind.Object) :
    kind.atVersion (kind.metadata o).resourceVersion o = o := kind.withMetadata_metadata o

theorem Kind.exists_map_atVersion (kind : Kind) : ∀ o : Option kind.Object, ∃ v, o.map (kind.atVersion v) = o
  | none => ⟨none, rfl⟩
  | some o => ⟨_, congrArg some (kind.atVersion_self o)⟩

/-- **After a change the wanted object stands there**, in some version. -/
theorem Cluster.get?_commit_between {kind : Kind} (c : Cluster) (name : String) (next : Option kind.Object) :
    ∃ v, (c.commit kind name (.between (c.get? kind name) next)).get? kind name = next.map (kind.atVersion v) := by
  cases next with
  | none =>
    refine ⟨none, ?_⟩
    cases hc : c.get? kind name with
    | none => exact hc
    | some stored => exact c.get?_remove_self kind name
  | some o =>
    cases hc : c.get? kind name with
    | none => exact ⟨some c.nextVersion, c.get?_put_self kind name o⟩
    | some stored =>
      by_cases he : stored = o
      · refine ⟨(kind.metadata o).resourceVersion, ?_⟩
        have hb : Change.between (some stored) (some o) = .unchanged := if_pos he
        rw [hb, Option.map_some, kind.atVersion_self, ← he]
        exact hc
      · refine ⟨some c.nextVersion, ?_⟩
        have hb : Change.between (some stored) (some o) = .replace o := if_neg he
        rw [hb]
        exact c.get?_put_self kind name o

theorem Change.between_self {α : Type} [DecidableEq α] : ∀ current : Option α, between current current = .unchanged
  | none => rfl
  | some _ => if_pos rfl

namespace SharedResource

/-- Nothing is planned for the object. -/
def AtRest (s : SharedResource) (contributor : Contributor) (desired : ExposedPorts) (c : Cluster) : Prop :=
  s.plan (c.get? s.kind s.name) contributor desired = .ok .unchanged

/-- **An object at rest** is only read. -/
theorem AtRest.onlyReads {s : SharedResource} {contributor : Contributor} {desired : ExposedPorts} {c : Cluster}
    (h : s.AtRest contributor desired c) (retry : RetryPolicy) :
    (s.converge retry contributor desired).OnlyReads () c := by
  have hplan : (Action.ofParse (s.plan (c.get? s.kind s.name) contributor desired)).OnlyReads .unchanged c := by
    unfold AtRest at h
    rw [h]
    exact Action.onlyReads_done _ c
  have hcycle : (s.cycle contributor desired).OnlyReads () c :=
    (Action.onlyReads_get s.kind s.name s.name c).bind (hplan.bind (Action.onlyReads_done () c))
  exact hcycle.onConflict retry

theorem AtRest.congr {s : SharedResource} {contributor : Contributor} {desired : ExposedPorts} {c c' : Cluster}
    (h : s.AtRest contributor desired c) (hsame : c'.get? s.kind s.name = c.get? s.kind s.name) :
    s.AtRest contributor desired c' := by
  unfold AtRest
  rw [hsame]
  exact h

end SharedResource

/-! ## The load balancer -/

namespace LoadBalancer

variable {contributor : Contributor} {desired : ExposedPorts}

/-- A wanted port is that of a new holder, but for what was allocated for it. -/
theorem wantedPort_eq_portFor (service : String) (prior : List ServicePort) (p : ExposedPort) :
    wantedPort service prior p =
      match prior.find? (fun e => e.name = some (portName service p.id) ∧ e.id = p.id) with
      | some e => { portFor p.id service with nodePort := e.nodePort, appProtocol := e.appProtocol }
      | none => portFor p.id service := rfl

theorem id_wantedPort {p : ExposedPort} (h : p.protocol.isForwardable = true) (service : String)
    (prior : List ServicePort) : (wantedPort service prior p).id = p.id := by
  have hid : (portFor p.id service).id = p.id := id_portFor h service
  rw [wantedPort_eq_portFor]
  split <;> exact hid

/-- What was allocated for a port is what is taken over the next time. -/
theorem wantedPort_again {service : String} {prior prior' : List ServicePort} {p : ExposedPort}
    (hp : p.protocol.isForwardable = true) (hn : (prior'.map ServicePort.id).Nodup)
    (hmem : wantedPort service prior p ∈ prior') : wantedPort service prior' p = wantedPort service prior p := by
  have hname := name_wantedPort service prior p
  have hid := id_wantedPort hp service prior
  have hfind : prior'.find? (fun e => e.name = some (portName service p.id) ∧ e.id = p.id) =
      some (wantedPort service prior p) := by
    cases hf : prior'.find? (fun e => e.name = some (portName service p.id) ∧ e.id = p.id) with
    | none =>
      have hno := List.find?_eq_none.1 hf _ hmem
      simp [hname, hid] at hno
    | some e =>
      have he := List.find?_some hf
      simp only [decide_eq_true_eq] at he
      have hsame : standing ServicePort.id p.id prior' = some e := by
        rw [← he.2]
        exact Latest.standing_of_mem _ hn (List.mem_of_find?_eq_some hf)
      rw [← hid, Latest.standing_of_mem _ hn hmem] at hsame
      exact hsame.symm
  rw [wantedPort_eq_portFor service prior' p, hfind]
  dsimp only
  rw [wantedPort_eq_portFor service prior p]
  split <;> rfl

theorem map_id_wantedPort (service : String) (prior : List ServicePort) (desired : ExposedPorts) :
    (desired.forwardable.toList.map (wantedPort service prior)).map ServicePort.id = desired.forwardable.ids := by
  rw [List.map_map]
  exact List.map_congr_left (fun p hp => id_wantedPort (desired.allForwardable_forwardable p hp) service prior)

theorem nodup_wantedPort (service : String) (prior : List ServicePort) (desired : ExposedPorts) :
    ((desired.forwardable.toList.map (wantedPort service prior)).map ServicePort.id).Nodup := by
  rw [map_id_wantedPort]
  exact desired.forwardable.nodup

/-- **A contributor's ports are replaced once.** -/
theorem revise_revise {entries : List ServicePort} (hn : (entries.map ServicePort.id).Nodup)
    (hd : ∀ p ∈ desired.toList, isPortNumber p.port = true) :
    revise (revise entries contributor desired.forwardable) contributor desired.forwardable =
      revise entries contributor desired.forwardable := by
  have hforward := desired.allForwardable_forwardable
  have hport : ∀ p ∈ desired.forwardable.toList, isPortNumber p.port = true := fun p hp =>
    hd p (List.mem_filter.1 hp).1
  obtain ⟨ports, hports⟩ : ∃ ports, ports = revise entries contributor desired.forwardable := ⟨_, rfl⟩
  have horder : InOrder ServicePort.id (owns contributor.name) ports (desired.forwardable.toList.map
      (wantedPort contributor.name (entries.filter (owns contributor.name)))) := by
    rw [hports]
    refine inOrder_mergeOwn hn (fun d hd' => ?_)
    obtain ⟨p, hp, rfl⟩ := List.mem_map.1 hd'
    exact owns_wantedPort _ _ (hport p hp)
  -- the second time each wish is the port that stands there, with whatever was allocated for it
  have hagain : InOrder ServicePort.id (owns contributor.name) ports (desired.forwardable.toList.map
      (wantedPort contributor.name (ports.filter (owns contributor.name)))) := by
    refine ⟨horder.nodup, fun e he ho => ?_, fun d hd' hfree => ?_⟩
    · rw [map_id_wantedPort, ← map_id_wantedPort]
      exact horder.mine e he ho
    · rw [Latest.latest_of_nodup _ (nodup_wantedPort _ _ desired)] at hd'
      obtain ⟨p, hp, rfl⟩ := List.mem_map.1 hd'
      have hid : ∀ prior, (wantedPort contributor.name prior p).id = p.id := id_wantedPort (hforward p hp) _
      have hstands := horder.stands _ (by
        rw [Latest.latest_of_nodup _ (nodup_wantedPort _ _ desired)]
        exact List.mem_map_of_mem hp) (by rwa [hid, ← hid])
      have hmem := List.mem_filter.2 ⟨Latest.mem_of_standing _ hstands,
        owns_wantedPort contributor.name (entries.filter (owns contributor.name)) (hport p hp)⟩
      rw [wantedPort_again (hforward p hp) (horder.nodup.sublist (List.filter_sublist.map _)) hmem]
      exact hstands
  rw [← hports]
  exact hagain.mergeOwn_eq

theorem spec_of_withPorts {l : LoadBalancer} {current : Option Service} {ports : List ServicePort} {s : Service}
    (h : l.withPorts current ports = some s) :
    ports ≠ [] ∧ ∃ spec : ServiceSpec, s.spec = some { spec with ports := some ports } := by
  unfold withPorts at h
  split at h
  case isTrue => cases h
  case isFalse hne =>
    refine ⟨hne, ?_⟩
    cases current with
    | none =>
      cases h
      exact ⟨{ publishing := some "LoadBalancer", selector := some l.selector }, rfl⟩
    | some read =>
      cases h
      exact ⟨read.spec.getD {}, rfl⟩

/-- Where the ports are revised already, nothing is planned. -/
theorem plan_withPorts {l : LoadBalancer} {ports : List ServicePort}
    (h : revise ports contributor desired.forwardable = ports) (current : Option Service) (v : Option String) :
    l.plan ((l.withPorts current ports).map (Kind.service.atVersion v)) contributor desired = .unchanged := by
  cases hw : l.withPorts current ports with
  | none =>
    rw [withPorts_eq_none_iff.1 hw] at h
    change Change.between none (l.withPorts none (revise [] contributor desired.forwardable)) = .unchanged
    rw [h]
    rfl
  | some s =>
    obtain ⟨hne, spec, hspec⟩ := spec_of_withPorts hw
    obtain ⟨stored, hstored⟩ : ∃ stored : Service, stored = Kind.service.atVersion v s := ⟨_, rfl⟩
    have hspec' : stored.spec = some { spec with ports := some ports } := by
      rw [hstored]
      exact hspec
    have hports : stored.ports = ports := by
      unfold Service.ports
      rw [hspec']
      rfl
    have hsame : { stored with spec := some { stored.spec.getD {} with ports := some ports } } = stored := by
      rw [hspec', Option.getD_some, ← hspec']
    change l.plan (some (Kind.service.atVersion v s)) contributor desired = .unchanged
    rw [← hstored]
    unfold plan
    dsimp only
    rw [Option.map_some, Option.getD_some, hports, h]
    unfold withPorts
    rw [if_neg hne]
    dsimp only
    rw [hsame]
    exact Change.between_self _

/-- **After its plan the load balancer is at rest.** -/
theorem atRest_commit {l : LoadBalancer} {c : Cluster} (hn : ((l.portsIn c).map ServicePort.id).Nodup)
    (hd : desired.Valid) :
    l.resource.AtRest contributor desired
      (c.commit .service l.name (l.plan (c.get? .service l.name) contributor desired)) := by
  obtain ⟨v, hget⟩ := @Cluster.get?_commit_between .service c l.name
    (l.withPorts (c.get? .service l.name) (revise (l.portsIn c) contributor desired.forwardable))
  exact congrArg Except.ok ((congrArg (fun o => l.plan o contributor desired) hget).trans
    (plan_withPorts (revise_revise hn (fun p hp => (hd p hp).1)) _ v))

end LoadBalancer

/-! ## Forwarding tables -/

namespace ForwardingTable

variable {t : ForwardingTable} {contributor : Contributor} {desired : ExposedPorts}

theorem dataOf_entriesOf (data : Dict String) : dataOf (entriesOf data) = data := by
  refine Dict.ext_get? (fun k => Option.ext (fun v => ?_))
  have hpairs : (entriesOf data).map (fun e => (e.port, e.target)) = data.toList := by
    unfold entriesOf
    rw [List.map_map]
    exact List.map_id _
  unfold dataOf
  rw [hpairs, Dict.get?_ofList data.nodup_keys, Dict.mem_toList_iff]

/-- The entries of a contributor are in order, as far as it knows its own ones. -/
def Tidy (t : ForwardingTable) (contributor : Contributor) (desired : ExposedPorts) (entries : List TableEntry) : Prop :=
  InOrder TableEntry.port (fun e => contributor.ownsForwardTarget e.target) entries (t.wanted contributor desired)

theorem nodup_wanted (t : ForwardingTable) (contributor : Contributor) (desired : ExposedPorts) :
    ((t.wanted contributor desired).map TableEntry.port).Nodup := by
  unfold wanted
  rw [List.map_map]
  refine List.Nodup.map_on (fun p hp q hq hport => ?_) (List.Nodup.of_map _ (desired.withProtocol t.protocol).nodup)
  -- ports of one protocol that have the same number are the same port
  have hp' : p.protocol = t.protocol := of_decide_eq_true (List.mem_filter.1 hp).2
  have hq' : q.protocol = t.protocol := of_decide_eq_true (List.mem_filter.1 hq).2
  have hid : p.id = q.id := by
    unfold ExposedPort.id
    rw [hp', hq', Decimal.toString_inj hport]
  exact List.inj_on_of_nodup_map (desired.withProtocol t.protocol).nodup hp hq hid

theorem owns_wanted (hd : ∀ p ∈ desired.toList, isPortNumber p.targetPort = true) {e : TableEntry}
    (he : e ∈ t.wanted contributor desired) : contributor.ownsForwardTarget e.target = true := by
  obtain ⟨p, hp, rfl⟩ := List.mem_map.1 he
  exact (Contributor.ownsForwardTarget_iff (hd p (List.mem_filter.1 hp).1)).2 rfl

theorem tidy_wanted (t : ForwardingTable) (contributor : Contributor) (desired : ExposedPorts) :
    t.Tidy contributor desired (t.wanted contributor desired) := by
  have hn : ((t.wanted contributor desired).map TableEntry.port).Nodup := t.nodup_wanted contributor desired
  refine ⟨hn, fun e he _ => List.mem_map_of_mem he, fun e he _ => ?_⟩
  rw [Latest.latest_of_nodup _ hn] at he
  exact Latest.standing_of_mem _ hn he

theorem Tidy.stored {entries : List TableEntry} (h : t.Tidy contributor desired entries) :
    t.Tidy contributor desired (entriesOf (dataOf entries)) :=
  InOrder.of_mem_iff h (nodup_entriesOf _) (fun _ => mem_entriesOf_dataOf h.nodup)

theorem plan_of_tidy {c : ConfigMap} {data : Dict String} (hdata : c.data = some data)
    (h : t.Tidy contributor desired (entriesOf data)) : t.plan (some c) contributor desired = .unchanged := by
  have hsame : revise contributor (entriesOf data) (t.wanted contributor desired) = entriesOf data := h.mergeOwn_eq
  have hnext : t.next contributor desired (some c) = some c := by
    unfold next
    dsimp only
    rw [hdata, Option.getD_some, hsame, dataOf_entriesOf, Option.isSome_some, Bool.true_or, if_pos rfl, ← hdata]
  rw [plan_eq, hnext]
  exact Change.between_self _

/-- For the table that was wanted, in whatever version, nothing is planned. -/
theorem plan_next (hd : ∀ p ∈ desired.toList, isPortNumber p.targetPort = true) (current : Option ConfigMap)
    (v : Option String) :
    t.plan ((t.next contributor desired current).map (Kind.configMap.atVersion v)) contributor desired = .unchanged := by
  cases current with
  | none =>
    by_cases hw : t.wanted contributor desired = []
    · have hnext : t.next contributor desired none = none := if_pos hw
      rw [hnext]
      exact if_pos hw
    · have hnext : t.next contributor desired none =
          some { metadata := .named t.ns t.name, data := some (dataOf (t.wanted contributor desired)) } := if_neg hw
      rw [hnext]
      exact plan_of_tidy rfl (t.tidy_wanted contributor desired).stored
  | some c =>
    obtain ⟨entries, he⟩ : ∃ entries, entries =
        revise contributor (entriesOf (c.data.getD .empty)) (t.wanted contributor desired) := ⟨_, rfl⟩
    have hnext : t.next contributor desired (some c) =
        some (if c.data.isSome || !(dataOf entries).isEmpty then { c with data := some (dataOf entries) } else c) := by
      rw [he]
      rfl
    have htidy : t.Tidy contributor desired entries := by
      rw [he]
      exact inOrder_mergeOwn (nodup_entriesOf _) (fun e hw => owns_wanted hd hw)
    rw [hnext]
    split
    case isTrue => exact plan_of_tidy rfl htidy.stored
    case isFalse hdata =>
      -- the table has no data and gets none, this time and the next
      have hstays : t.next contributor desired (some (Kind.configMap.atVersion v c)) =
          some (Kind.configMap.atVersion v c) := by
        refine congrArg some (if_neg ?_)
        rw [he] at hdata
        exact hdata
      have hplan := t.plan_eq (some (Kind.configMap.atVersion v c)) contributor desired
      exact hplan.trans ((congrArg (Change.between _) hstays).trans (Change.between_self _))

/-- **After its plan a table is at rest**, whatever stands in it. -/
theorem atRest_commit (hd : desired.Valid) (c : Cluster) :
    t.resource.AtRest contributor desired
      (c.commit .configMap t.name (t.plan (c.get? .configMap t.name) contributor desired)) := by
  obtain ⟨v, hget⟩ := @Cluster.get?_commit_between .configMap c t.name
    (t.next contributor desired (c.get? .configMap t.name))
  have hplan := congrArg (fun change => (c.commit .configMap t.name change).get? .configMap t.name)
    (t.plan_eq (c.get? .configMap t.name) contributor desired)
  exact congrArg Except.ok ((congrArg (fun o => t.plan o contributor desired) (hplan.trans hget)).trans
    (plan_next (fun p hp => (hd p hp).2) _ v))

end ForwardingTable

/-! ## The policy -/

theorem ExposedPorts.filter_eq_of_mem_iff {ps : ExposedPorts} {f g : ExposedPort → Bool}
    (h : ∀ p ∈ ps.toList, p ∈ (ps.filter f).toList ↔ p ∈ (ps.filter g).toList) : ps.filter f = ps.filter g := by
  have hlists : ps.toList.filter f = ps.toList.filter g := by
    refine List.filter_congr (fun p hp => Bool.eq_iff_iff.2 ?_)
    constructor
    · exact fun hf => (List.mem_filter.1 ((h p hp).1 (List.mem_filter.2 ⟨hp, hf⟩))).2
    · exact fun hg => (List.mem_filter.1 ((h p hp).2 (List.mem_filter.2 ⟨hp, hg⟩))).2
  unfold ExposedPorts.filter
  congr 1

namespace Admission

open Merged (isGranted IsSettled)

section Ports

variable {entries : List PolicyPort} {wanted prior : ExposedPorts} {others : List PortId} {p : ExposedPort}

theorem mem_unrecorded {k : PortId} {prior : List PortId} :
    k ∈ unrecorded entries prior others ↔ k ∈ entries.map PolicyPort.id ∧ k ∉ prior ∧ k ∉ others := by
  unfold unrecorded
  rw [List.mem_filter, Bool.and_eq_true, decide_eq_true_eq, decide_eq_true_eq]

theorem latest_wanted (hw : wanted.AllForwardable) :
    latest PolicyPort.id (wanted.toList.map .ofExposed) = wanted.toList.map .ofExposed :=
  Latest.latest_of_nodup _ (by
    rw [map_id_ofExposed wanted hw]
    exact wanted.nodup)

theorem mem_latest_wanted (hw : wanted.AllForwardable) (hp : p ∈ wanted.toList) :
    PolicyPort.ofExposed p ∈ latest PolicyPort.id (wanted.toList.map .ofExposed) := by
  rw [latest_wanted hw]
  exact List.mem_map_of_mem hp

theorem standing_merged (hw : wanted.AllForwardable) (hp : p ∈ wanted.toList) :
    standing PolicyPort.id p.id (merged entries wanted prior others).entries =
      if p.id ∈ others ++ unrecorded entries prior.ids others then
        (standing PolicyPort.id p.id entries).or (some (.ofExposed p))
      else some (.ofExposed p) := by
  have hs : standing PolicyPort.id (PolicyPort.ofExposed p).id (merged entries wanted prior others).entries = _ :=
    standing_merge_of_mem PolicyPort.id (mem_latest_wanted hw hp)
  rwa [PolicyPort.id_ofExposed (hw p hp)] at hs

theorem mem_keys_merged (hw : wanted.AllForwardable) (hp : p ∈ wanted.toList) :
    p.id ∈ (merged entries wanted prior others).entries.map PolicyPort.id := by
  refine Classical.byContradiction (fun hn => ?_)
  have hs : standing PolicyPort.id p.id (merged entries wanted prior others).entries = _ := standing_merged hw hp
  rw [(Latest.standing_eq_none_iff _).2 hn] at hs
  split at hs <;> simp at hs

/-- A port goes on record unless somebody without a record has it, or others have another entry for it. -/
theorem mem_recorded_iff (hw : wanted.AllForwardable) (hp : p ∈ wanted.toList) :
    p ∈ (recorded entries wanted prior others).toList ↔ p.id ∉ unrecorded entries prior.ids others ∧
      (p.id ∈ others → (standing PolicyPort.id p.id entries).all (· = .ofExposed p) = true) := by
  have hid := PolicyPort.id_ofExposed (hw p hp)
  have howned : p.id ∈ (merged entries wanted prior others).owned.map PolicyPort.id ↔
      isGranted PolicyPort.id (others ++ unrecorded entries prior.ids others) entries (.ofExposed p) = true := by
    unfold merged
    rw [owned_merge, latest_wanted hw]
    constructor
    · intro h
      obtain ⟨e, he, hk⟩ := List.mem_map.1 h
      obtain ⟨he, hg⟩ := List.mem_filter.1 he
      obtain ⟨q, hq, rfl⟩ := List.mem_map.1 he
      rw [PolicyPort.id_ofExposed (hw q hq)] at hk
      have hstands := Latest.standing_of_mem ExposedPort.id wanted.nodup hq
      rw [hk, Latest.standing_of_mem ExposedPort.id wanted.nodup hp] at hstands
      rw [Option.some.inj hstands]
      exact hg
    · intro hg
      rw [← hid]
      exact List.mem_map_of_mem (List.mem_filter.2 ⟨List.mem_map_of_mem hp, hg⟩)
  have hkept : p ∈ (recorded entries wanted prior others).toList ↔
      p.id ∈ (merged entries wanted prior others).owned.map PolicyPort.id ∧ p.id ∉ unrecorded entries prior.ids others := by
    unfold recorded ExposedPorts.filter
    rw [List.mem_filter, decide_eq_true_eq, List.mem_filter, decide_eq_true_eq]
    exact ⟨fun h => h.2, fun h => ⟨hp, h⟩⟩
  rw [hkept, howned, and_comm]
  refine and_congr_right (fun hfree => ?_)
  unfold isGranted
  rw [hid]
  by_cases ho : p.id ∈ others
  · simp [ho]
  · simp [ho, hfree]

theorem unrecorded_again (hw : wanted.AllForwardable) (hp : p ∈ wanted.toList) :
    p.id ∉ unrecorded (merged entries wanted prior others).entries (recorded entries wanted prior others).ids others ↔
      p ∈ (recorded entries wanted prior others).toList ∨ p.id ∈ others := by
  have hids : p.id ∈ (recorded entries wanted prior others).ids ↔ p ∈ (recorded entries wanted prior others).toList := by
    constructor
    · intro h
      obtain ⟨q, hq, hk⟩ := List.mem_map.1 h
      have hstands := Latest.standing_of_mem ExposedPort.id wanted.nodup (List.mem_filter.1 hq).1
      rw [hk, Latest.standing_of_mem ExposedPort.id wanted.nodup hp] at hstands
      rw [Option.some.inj hstands]
      exact hq
    · exact List.mem_map_of_mem
  -- the port stands in the rule the second time, so only a record can say whose it is
  rw [mem_unrecorded, ← hids]
  have hkey : p.id ∈ (merged entries wanted prior others).entries.map PolicyPort.id := mem_keys_merged hw hp
  constructor
  · intro h
    exact Classical.byContradiction (fun hn => h ⟨hkey, not_or.1 hn⟩)
  · rintro (h | h) ⟨-, hn, hn'⟩
    · exact hn h
    · exact hn' h

/-- **The second time the same ports are on record.** -/
theorem recorded_again (hw : wanted.AllForwardable) :
    recorded (merged entries wanted prior others).entries wanted (recorded entries wanted prior others) others =
      recorded entries wanted prior others := by
  have hsame : ∀ p ∈ wanted.toList, p ∈ (recorded (merged entries wanted prior others).entries wanted
      (recorded entries wanted prior others) others).toList ↔ p ∈ (recorded entries wanted prior others).toList := by
    intro p hp
    rw [mem_recorded_iff hw hp, unrecorded_again hw hp, standing_merged hw hp]
    by_cases ho : p.id ∈ others
    · have hfree : p.id ∉ unrecorded entries prior.ids others := fun h => (mem_unrecorded.1 h).2.2 ho
      rw [mem_recorded_iff hw hp, if_pos (List.mem_append_left _ ho)]
      cases standing PolicyPort.id p.id entries <;> simp [ho, hfree]
    · simp [ho]
  exact ExposedPorts.filter_eq_of_mem_iff hsame

/-- **And the rule has the same ports.** -/
theorem merged_again (hw : wanted.AllForwardable) :
    (merged (merged entries wanted prior others).entries wanted (recorded entries wanted prior others) others).entries =
      (merged entries wanted prior others).entries := by
  refine merge_entries_eq_self _ _ _ _ _ (fun e _ => isStale_eq_false _ _ (fun h => ?_)) (fun d hd => ?_)
  · -- whatever is on record is wanted
    rw [List.map_map] at h ⊢
    exact List.map_subset _ (fun p hp => (List.mem_filter.1 hp).1) h
  · rw [latest_wanted hw] at hd
    obtain ⟨p, hp, rfl⟩ := List.mem_map.1 hd
    unfold IsSettled
    rw [PolicyPort.id_ofExposed (hw p hp)]
    split
    case isTrue => exact mem_keys_merged hw hp
    case isFalse hfree =>
      rw [List.mem_append, not_or] at hfree
      have hrecorded := ((unrecorded_again hw hp).1 hfree.2).resolve_right hfree.1
      rw [standing_merged hw hp, if_neg]
      rw [List.mem_append, not_or]
      exact ⟨hfree.1, ((mem_recorded_iff hw hp).1 hrecorded).1⟩

end Ports

variable {a : Admission} {contributor : Contributor} {desired : ExposedPorts}

theorem plain_closed (a : Admission) : Plain a.closed [] := ⟨rfl, fun _ h => nomatch h⟩

theorem plain_revise {next : NetworkPolicy} {entries : List PolicyPort} (h : Plain next entries)
    (contributor : Contributor) (wanted prior : ExposedPorts) (others : List PortId) :
    Plain (a.revise next contributor wanted prior others) (merged entries wanted prior others).entries := by
  refine ⟨by rw [revise_eq h]; rfl, fun e he => ?_⟩
  rcases mem_merge PolicyPort.id he with he | he
  · exact h.2 e he
  · obtain ⟨p, -, rfl⟩ := List.mem_map.1 he
    rfl

/-- **A contributor's part of the policy is replaced once.** -/
theorem revise_again (a : Admission) {next : NetworkPolicy} {entries : List PolicyPort} (h : Plain next entries)
    {wanted : ExposedPorts} (hw : wanted.AllForwardable) (contributor : Contributor) (prior : ExposedPorts)
    (others : List PortId) :
    a.revise (a.revise next contributor wanted prior others) contributor wanted (recorded entries wanted prior others)
      others = a.revise next contributor wanted prior others := by
  have hplain : Plain (a.revise next contributor wanted prior others) (merged entries wanted prior others).entries :=
    plain_revise h contributor wanted prior others
  rw [revise_eq hplain, recorded_again hw, merged_again hw, revise_eq h]
  dsimp only
  rw [annotationSet_nonEmpty, OwnershipRecords.write_write, Option.getD_some]

/-- For a policy that was revised, in whatever version, nothing is planned. -/
theorem plan_revise {next : NetworkPolicy} {entries : List PolicyPort} (h : Plain next entries) (hd : desired.Valid)
    {prior : ExposedPorts} {others : List ExposedPorts}
    (hothers : a.records.readOthers next.metadata.annotationSet contributor.name = .ok others) (v : Option String) :
    a.plan (some (Kind.networkPolicy.atVersion v (a.revise next contributor desired.forwardable prior
      (others.flatMap ExposedPorts.ids)))) contributor desired = .ok .unchanged := by
  have hforward := desired.allForwardable_forwardable
  obtain ⟨revised, hrevised⟩ : ∃ revised, revised = a.revise next contributor desired.forwardable prior
    (others.flatMap ExposedPorts.ids) := ⟨_, rfl⟩
  obtain ⟨record, hrecord⟩ : ∃ record, record = recorded entries desired.forwardable prior
    (others.flatMap ExposedPorts.ids) := ⟨_, rfl⟩
  obtain ⟨stored, hstored⟩ : ∃ stored : NetworkPolicy, stored = Kind.networkPolicy.atVersion v revised := ⟨_, rfl⟩
  have hset : stored.metadata.annotationSet =
      a.records.write next.metadata.annotationSet contributor.name record := by
    have hwritten : revised.metadata.annotationSet =
        a.records.write next.metadata.annotationSet contributor.name record := by
      rw [hrevised, revise_eq h, hrecord]
      exact annotationSet_nonEmpty next.metadata _
    rw [hstored]
    exact hwritten
  have hread : a.records.read stored.metadata.annotationSet contributor.name = .ok record := by
    rw [hset, hrecord]
    exact OwnershipRecords.read_write _ _ _ (hd.forwardable.filter _)
      (fun p hp => hforward p (List.mem_filter.1 hp).1)
  have hothers' : a.records.readOthers stored.metadata.annotationSet contributor.name = .ok others := by
    rw [hset, OwnershipRecords.readOthers_write, hothers]
  have hsame : a.revise stored contributor desired.forwardable record (others.flatMap ExposedPorts.ids) = stored := by
    have hagain := a.revise_again h hforward contributor prior (others.flatMap ExposedPorts.ids)
    rw [← hrevised, ← hrecord] at hagain
    rw [hstored]
    exact congrArg (Kind.networkPolicy.atVersion v) hagain
  rw [← hrevised]
  change a.plan (some (Kind.networkPolicy.atVersion v revised)) contributor desired = _
  rw [← hstored]
  unfold plan
  dsimp only
  rw [if_neg (fun hn => nomatch hn.1), Option.getD_some, hread, hothers']
  change Except.ok (Change.between (some stored) (some (a.revise stored contributor desired.forwardable record
    (others.flatMap ExposedPorts.ids)))) = _
  rw [hsame, Change.between_self]

/-- Contributors alone have written the policy, if there is one. -/
def Tidy (a : Admission) (c : Cluster) : Prop :=
  ∀ p, c.get? .networkPolicy a.name = some p → ∃ entries, Plain p entries

/-- **After its plan the policy is at rest**, and contributors alone have written it still. -/
theorem atRest_commit {c : Cluster} (ht : a.Tidy c) (hd : desired.Valid) {change : Change NetworkPolicy}
    (hp : a.plan (c.get? .networkPolicy a.name) contributor desired = .ok change) :
    a.resource.AtRest contributor desired (c.commit .networkPolicy a.name change) ∧
      a.Tidy (c.commit .networkPolicy a.name change) := by
  rcases plan_eq_ok hp with ⟨-, -, rfl⟩ | ⟨prior, others, -, hothers, rfl⟩
  · exact ⟨hp, ht⟩
  · obtain ⟨entries, hplain⟩ : ∃ entries, Plain ((c.get? .networkPolicy a.name).getD a.closed) entries := by
      cases hc : c.get? .networkPolicy a.name with
      | none => exact ⟨[], a.plain_closed⟩
      | some p => exact ht p hc
    obtain ⟨v, hget⟩ := @Cluster.get?_commit_between .networkPolicy c a.name
      (some (a.revise ((c.get? .networkPolicy a.name).getD a.closed) contributor desired.forwardable prior
        (others.flatMap ExposedPorts.ids)))
    refine ⟨(congrArg (fun o => a.plan o contributor desired) hget).trans (plan_revise hplain hd hothers v), ?_⟩
    intro p hstored
    rw [Option.some.inj (hstored.symm.trans hget)]
    have hrevised : Plain (a.revise ((c.get? .networkPolicy a.name).getD a.closed) contributor desired.forwardable prior
      (others.flatMap ExposedPorts.ids)) _ := plain_revise hplain contributor desired.forwardable prior _
    exact ⟨_, hrevised⟩

end Admission
end ServiceExposure
