import ServiceExposure.Proofs.Shared.AdmissionHistory
import ServiceExposure.Proofs.Shared.AtRest
/-!
# What a plan of the policy leaves alone

A policy may have been edited by hand in any way: it may have rules beside the first one, peers, ports that are named,
and ports that nobody has a record for.  `Admission.Reworked` says what a plan does to such a policy.  Only the numeric
ports of the first rule and the contributor's own annotation change, and of these ports only those that the contributor
had on record or desires (`Admission.reworked_plan`).
-/
namespace ServiceExposure

open Latest (standing latest)

namespace PolicyPort

theorem id_ofExposed_of_ofName {p : ExposedPort} (h : Protocol.ofName p.protocol.name = p.protocol) :
    (ofExposed p).id = p.id := by
  unfold PolicyPort.id ofExposed ExposedPort.id
  dsimp only
  rw [Option.getD_some, h]

theorem port_id_of_named {e : PolicyPort} (h : e.isNumeric = false) : e.id.port = 0 := by
  unfold isNumeric at h
  unfold PolicyPort.id
  split at h
  · cases h
  · rfl

end PolicyPort

namespace Admission

/-- The ports of the first rule that plans merge. -/
def numericPortsOf (p : NetworkPolicy) : List PolicyPort := (portsOf p).filter PolicyPort.isNumeric

/-- The ports of the first rule that are given by name, or not given. -/
def namedPortsOf (p : NetworkPolicy) : List PolicyPort := (portsOf p).filter (fun e => !e.isNumeric)

/-- The ports of the first rule after a plan. -/
def portsAfter (p : NetworkPolicy) (wanted prior : ExposedPorts) (others : List PortId) : List PolicyPort :=
  (merged (numericPortsOf p) wanted prior others).entries ++ namedPortsOf p

/-- A first rule with these ports instead of its own; it is dropped where neither ports nor peers remain. -/
theorem withPorts_eq (ports : List PolicyPort) (rules : List PolicyRule) :
    withPorts ports rules =
      if ports = [] ∧ (rules.headD {}).peers.getD [] = [] then rules.tail
      else { rules.headD {} with ports := if ports = [] then none else some ports } :: rules.tail := by
  cases rules with
  | nil => by_cases hp : ports = [] <;> simp [withPorts, hp]
  | cons rule rules =>
    by_cases hp : ports = []
    · by_cases hr : rule.peers.getD [] = [] <;> simp [withPorts, hp, hr]
    · simp [withPorts, hp]

theorem revise_parts (a : Admission) (p : NetworkPolicy) (contributor : Contributor) (wanted prior : ExposedPorts)
    (others : List PortId) : a.revise p contributor wanted prior others =
      { metadata := { p.metadata with
          annotations := (a.records.write p.metadata.annotationSet contributor.name
            (recorded (numericPortsOf p) wanted prior others)).nonEmpty? }
        spec := some { p.spec.getD {} with
          ingress := some (withPorts (portsAfter p wanted prior others) (rulesOf p)) } } := rfl

/-- What a plan does to a policy: from the ports that the contributor has on `prior` record to those it has on `record`
then, with the ports that `others` have on record, and the new `ports` of the first rule. -/
structure Reworked (r : OwnershipRecords) (name : String) (wanted prior record : ExposedPorts) (others : List PortId)
    (before next : NetworkPolicy) (ports : List PolicyPort) : Prop where
  /-- Numbered ports stay in their order where the contributor has no record of them or others have one. -/
  othersStay : ((numericPortsOf before).filter (fun e => e.id ∉ prior.ids ∨ e.id ∈ others)).Sublist ports
  namedStay : ports.filter (fun e => !e.isNumeric) = namedPortsOf before
  /-- The first rule keeps its peers and is dropped only where it has neither peers nor ports; the other rules stay. -/
  rules : rulesOf next =
    if ports = [] ∧ ((rulesOf before).headD {}).peers.getD [] = [] then (rulesOf before).tail
    else { (rulesOf before).headD {} with ports := if ports = [] then none else some ports } :: (rulesOf before).tail
  annotations : ∀ k ≠ r.key name, next.metadata.annotationSet.get? k = before.metadata.annotationSet.get? k
  metadata : next.metadata = { before.metadata with annotations := next.metadata.annotations }
  spec : next.spec = some { before.spec.getD {} with ingress := some (rulesOf next) }
  /-- What the contributor had on record and gives up is gone, unless others have it on record. -/
  gone : ∀ id ∈ prior.ids, id ∉ wanted.ids → id ∉ others → id ∉ ports.map PolicyPort.id
  /-- Nothing comes that is not wanted. -/
  only : ∀ e ∈ ports, e ∈ portsOf before ∨ ∃ p ∈ wanted.toList, e = .ofExposed p
  written : next.metadata.annotationSet.get? (r.key name) = if record.isEmpty then none else some record.render
  readBack : wanted.Valid → r.read next.metadata.annotationSet name = .ok record
  recordSublist : record.toList.Sublist wanted.toList
  materialized : ∀ p ∈ record.toList, .ofExposed p ∈ ports
  /-- A wanted port goes on record unless it stood there without any record, or others have another entry for it. -/
  recorded_iff : ∀ p ∈ wanted.toList, p ∈ record.toList ↔
    (p.id ∈ (numericPortsOf before).map PolicyPort.id → p.id ∈ prior.ids ∨ p.id ∈ others) ∧
    (p.id ∈ others → (standing PolicyPort.id p.id (numericPortsOf before)).all (· = .ofExposed p))
  /-- Every wanted port is admitted, on whosever record. -/
  wantedStand : ∀ p ∈ wanted.toList, p.id ∈ ports.map PolicyPort.id

section Parts

variable {p : NetworkPolicy} {wanted prior : ExposedPorts} {others : List PortId}

theorem map_id_of_ofName (hprior : ∀ q ∈ prior.toList, Protocol.ofName q.protocol.name = q.protocol) :
    (prior.toList.map PolicyPort.ofExposed).map PolicyPort.id = prior.ids := by
  rw [List.map_map]
  exact List.map_congr_left (fun q hq => PolicyPort.id_ofExposed_of_ofName (hprior q hq))

/-- Whoever has no record of a port of the rule may not touch it. -/
theorem othersStay_portsAfter :
    ((numericPortsOf p).filter (fun e => e.id ∉ prior.ids ∨ e.id ∈ others)).Sublist
      (portsAfter p wanted prior others) := by
  -- the merge leaves alone what others have on record and what nobody has on record
  have hclaimed : (numericPortsOf p).filter (fun e => e.id ∉ prior.ids ∨ e.id ∈ others) =
      (numericPortsOf p).filter (fun e => e.id ∈ others ++ unrecorded (numericPortsOf p) prior.ids others) := by
    refine List.filter_congr (fun e he => decide_eq_decide.2 ?_)
    have hmem : e.id ∈ (numericPortsOf p).map PolicyPort.id := List.mem_map_of_mem he
    rw [List.mem_append, mem_unrecorded]
    by_cases ho : e.id ∈ others <;> simp only [ho, hmem, or_true, not_true_eq_false, and_false, or_false,
      not_false_eq_true, and_true, false_or, true_and]
  rw [hclaimed]
  exact (sublist_merge PolicyPort.id).trans (List.sublist_append_left _ _)

theorem isNumeric_of_mem_merged {e : PolicyPort} (he : e ∈ (merged (numericPortsOf p) wanted prior others).entries) :
    e.isNumeric = true := by
  rcases mem_merge PolicyPort.id he with he | he
  · exact (List.mem_filter.1 he).2
  · obtain ⟨q, -, rfl⟩ := List.mem_map.1 he
    rfl

theorem filter_portsAfter :
    (portsAfter p wanted prior others).filter (fun e => !e.isNumeric) = namedPortsOf p := by
  have hmerged : (merged (numericPortsOf p) wanted prior others).entries.filter (fun e => !e.isNumeric) = [] :=
    List.filter_eq_nil_iff.2 (fun e he => by rw [isNumeric_of_mem_merged he]; decide)
  rw [portsAfter, List.filter_append, hmerged, List.nil_append, namedPortsOf, List.filter_filter]
  simp only [Bool.and_self]

theorem gone_portsAfter (hw : wanted.AllForwardable) (hvalid : prior.Valid)
    (hprior : ∀ q ∈ prior.toList, Protocol.ofName q.protocol.name = q.protocol) {id : PortId} (hid : id ∈ prior.ids)
    (hwanted : id ∉ wanted.ids) (hothers : id ∉ others) : id ∉ (portsAfter p wanted prior others).map PolicyPort.id := by
  rw [portsAfter, List.map_append, List.mem_append, not_or]
  constructor
  · have hlatest : standing PolicyPort.id id (latest PolicyPort.id (wanted.toList.map .ofExposed)) = none := by
      rw [latest_wanted hw, Latest.standing_eq_none_iff, map_id_ofExposed wanted hw]
      exact hwanted
    have hfree : id ∉ others ++ unrecorded (numericPortsOf p) prior.ids others := by
      rw [List.mem_append, mem_unrecorded]
      exact not_or.2 ⟨hothers, fun h => h.2.1 hid⟩
    rw [← Latest.standing_eq_none_iff, merged, standing_merge, hlatest]
    exact if_pos ⟨(map_id_of_ofName hprior).symm ▸ hid, hfree⟩
  · -- ports on record are positive
    intro hnamed
    obtain ⟨e, he, rfl⟩ := List.mem_map.1 hnamed
    obtain ⟨q, hq, hqid⟩ := List.mem_map.1 hid
    have hzero : q.port = 0 := by
      have hport : e.id.port = 0 := PolicyPort.port_id_of_named (by simpa using (List.mem_filter.1 he).2)
      exact (congrArg PortId.port hqid).trans hport
    have hpos := (hvalid q hq).1
    rw [hzero] at hpos
    exact absurd hpos (by decide)

theorem mem_portsAfter {e : PolicyPort} (he : e ∈ portsAfter p wanted prior others) :
    e ∈ portsOf p ∨ ∃ q ∈ wanted.toList, e = .ofExposed q := by
  rcases List.mem_append.1 he with he | he
  · rcases mem_merge PolicyPort.id he with he | he
    · exact .inl (List.mem_filter.1 he).1
    · obtain ⟨q, hq, rfl⟩ := List.mem_map.1 he
      exact .inr ⟨q, hq, rfl⟩
  · exact .inl (List.mem_filter.1 he).1

/-- What goes on record stands in the rule. -/
theorem ofExposed_mem_portsAfter (hw : wanted.AllForwardable) {q : ExposedPort}
    (hq : q ∈ (recorded (numericPortsOf p) wanted prior others).toList) :
    .ofExposed q ∈ portsAfter p wanted prior others := by
  have hwanted : q ∈ wanted.toList := (List.mem_filter.1 hq).1
  obtain ⟨hfree, hothers⟩ := (mem_recorded_iff hw hwanted).1 hq
  refine List.mem_append_left _ (Latest.mem_of_standing PolicyPort.id (k := q.id) ?_)
  rw [standing_merged hw hwanted]
  split
  case isFalse => rfl
  case isTrue hclaimed =>
    have ho := hothers ((List.mem_append.1 hclaimed).resolve_right hfree)
    cases hs : standing PolicyPort.id q.id (numericPortsOf p) with
    | none => rfl
    | some e =>
      rw [hs, Option.all_some, decide_eq_true_eq] at ho
      rw [ho]
      rfl

end Parts

/-- **Replacing a contributor's part** of whatever policy. -/
theorem reworked_revise (a : Admission) (p : NetworkPolicy) (contributor : Contributor) {wanted prior : ExposedPorts}
    (hw : wanted.AllForwardable) (hread : a.records.read p.metadata.annotationSet contributor.name = .ok prior)
    (others : List PortId) :
    Reworked a.records contributor.name wanted prior (recorded (numericPortsOf p) wanted prior others) others p
      (a.revise p contributor wanted prior others) (portsAfter p wanted prior others) := by
  obtain ⟨hvalid, hprior⟩ := OwnershipRecords.of_read hread
  have hset : (a.revise p contributor wanted prior others).metadata.annotationSet =
      a.records.write p.metadata.annotationSet contributor.name (recorded (numericPortsOf p) wanted prior others) :=
    annotationSet_nonEmpty p.metadata _
  exact {
    othersStay := othersStay_portsAfter
    namedStay := filter_portsAfter
    rules := withPorts_eq _ _
    annotations := fun k hk => by rw [hset, OwnershipRecords.get?_write, if_neg hk]
    metadata := rfl
    spec := rfl
    gone := fun id hid hwanted hothers => gone_portsAfter hw hvalid hprior hid hwanted hothers
    only := fun e he => mem_portsAfter he
    written := by rw [hset, OwnershipRecords.get?_write, if_pos rfl]
    readBack := fun hv => by
      rw [hset]
      exact OwnershipRecords.read_write _ _ _ (hv.filter _) (fun q hq => hw q (List.mem_filter.1 hq).1)
    recordSublist := List.filter_sublist
    materialized := fun q hq => ofExposed_mem_portsAfter hw hq
    recorded_iff := fun q hq => by
      rw [mem_recorded_iff hw hq, mem_unrecorded]
      refine and_congr_left (fun _ => ?_)
      rw [not_and, ← not_or, not_not]
    wantedStand := fun q hq => by
      rw [portsAfter, List.map_append]
      exact List.mem_append_left _ (mem_keys_merged hw hq) }

/-- **A plan that succeeds** reworks the policy that it found, or the one that admits nothing where there was none. -/
theorem reworked_plan (a : Admission) (current : Option NetworkPolicy) (contributor : Contributor)
    (desired : ExposedPorts) (change : Change NetworkPolicy) (next : NetworkPolicy)
    (hplan : a.plan current contributor desired = .ok change) (hnext : change.result current = some next) :
    ∃ prior others record ports,
      a.records.read (current.getD a.closed).metadata.annotationSet contributor.name = .ok prior ∧
      a.records.readOthers (current.getD a.closed).metadata.annotationSet contributor.name = .ok others ∧
      Reworked a.records contributor.name desired.forwardable prior record (others.flatMap ExposedPorts.ids)
        (current.getD a.closed) next ports := by
  rcases plan_eq_ok hplan with ⟨rfl, -, rfl⟩ | ⟨prior, others, hread, hothers, rfl⟩
  · cases hnext
  · rw [Change.result_between] at hnext
    cases hnext
    exact ⟨prior, others, _, _, hread, hothers,
      reworked_revise a _ contributor desired.allForwardable_forwardable hread _⟩

/-! ## Plans that ask for nothing -/

/-- A plan that asks for nothing only takes ports out. -/
theorem portsAfter_of_isEmpty {p : NetworkPolicy} {wanted prior : ExposedPorts} {others : List PortId}
    (hw : wanted.isEmpty = true) (hprior : ∀ q ∈ prior.toList, Protocol.ofName q.protocol.name = q.protocol) :
    portsAfter p wanted prior others =
      (numericPortsOf p).filter (fun e => e.id ∉ prior.ids ∨ e.id ∈ others) ++ namedPortsOf p := by
  have hmerged : (merged (numericPortsOf p) wanted prior others).entries =
      (numericPortsOf p).filter (fun e => e.id ∉ prior.ids ∨ e.id ∈ others) := by
    unfold merged merge
    rw [ExposedPorts.isEmpty_iff.1 hw]
    refine List.filter_congr (fun e he => ?_)
    have hmem : e.id ∈ (numericPortsOf p).map PolicyPort.id := List.mem_map_of_mem he
    unfold isStale
    rw [map_id_of_ofName hprior, List.map_nil]
    by_cases hp : e.id ∈ prior.ids <;> by_cases ho : e.id ∈ others <;> simp [hp, ho, mem_unrecorded]
  rw [portsAfter, hmerged]

/-- Where the records can be read, a policy is changed to the one with the contributor's part replaced. -/
theorem plan_of_reads (a : Admission) {p : NetworkPolicy} {contributor : Contributor} {desired prior : ExposedPorts}
    {others : List ExposedPorts} (hread : a.records.read p.metadata.annotationSet contributor.name = .ok prior)
    (hothers : a.records.readOthers p.metadata.annotationSet contributor.name = .ok others) :
    a.plan (some p) contributor desired = .ok (.between (some p) (some
      (a.revise p contributor desired.forwardable prior (others.flatMap ExposedPorts.ids)))) := by
  unfold plan
  dsimp only
  rw [if_neg (fun h => nomatch h.1), Option.getD_some, hread, hothers]
  rfl

/-- A policy that was edited by hand: it lets in port 22 and a named port, and it has peers and a second rule. -/
def editedPolicy : NetworkPolicy where
  metadata := { Metadata.named "ecosystem" "nginx-ingress-exposed" with
    annotations := some (.ofList
      [("k8s.cloudogu.com/ces-exposed-ports-ldap", (ExposedPorts.ofList [⟨.tcp, 389, 389⟩]).render),
        ("k8s.cloudogu.com/ces-exposed-ports-scm",
          (ExposedPorts.ofList [⟨.tcp, 389, 389⟩, ⟨.tcp, 2222, 22⟩]).render),
        ("owner", "ops")]) }
  spec := some { ingress := some [
    { peers := some [.obj [("ipBlock", .obj [("cidr", .str "10.0.0.0/8")])]]
      ports := some [.ofId ⟨.tcp, 389⟩, { port := some (.named "https") }, .ofId ⟨.tcp, 22⟩, .ofId ⟨.tcp, 2222⟩] },
    {}] }

/-- One port is given up, one is shared with somebody else, one is somebody's without a record, and one is new. -/
theorem reworked_editedPolicy :
    let a : Admission := ⟨"nginx-ingress-exposed", "ecosystem", .empty, .standard⟩
    let desired : ExposedPorts := .ofList [⟨.tcp, 22, 22⟩, ⟨.udp, 53, 53⟩]
    ∃ change next, a.plan (some editedPolicy) ⟨"ecosystem", "scm"⟩ desired = .ok change ∧
      change.result (some editedPolicy) = some next ∧
      portsOf next =
        [.ofId ⟨.tcp, 389⟩, .ofId ⟨.tcp, 22⟩, .ofId ⟨.udp, 53⟩, { port := some (.named "https") }] ∧
      ∃ prior others record ports,
        a.records.read editedPolicy.metadata.annotationSet "scm" = .ok prior ∧
        a.records.readOthers editedPolicy.metadata.annotationSet "scm" = .ok others ∧
        Reworked a.records "scm" desired.forwardable prior record (others.flatMap ExposedPorts.ids) editedPolicy next
          ports := by
  intro a desired
  have heval : ((a.plan (some editedPolicy) ⟨"ecosystem", "scm"⟩ desired).toOption.bind
      (fun change => change.result (some editedPolicy))).any (fun next => portsOf next =
        [.ofId ⟨.tcp, 389⟩, .ofId ⟨.tcp, 22⟩, .ofId ⟨.udp, 53⟩, { port := some (.named "https") }]) = true := by
    decide +kernel
  cases hplan : a.plan (some editedPolicy) ⟨"ecosystem", "scm"⟩ desired with
  | error e =>
    rw [hplan] at heval
    cases heval
  | ok change =>
    rw [hplan] at heval
    obtain ⟨next, hnext, hports⟩ := (Option.any_eq_true _ _).1 heval
    exact ⟨change, next, rfl, hnext, of_decide_eq_true hports,
      reworked_plan a (some editedPolicy) ⟨"ecosystem", "scm"⟩ desired change next hplan hnext⟩

end Admission
end ServiceExposure
