import ServiceExposure.Proofs.Cluster.Commit
import ServiceExposure.Proofs.Merge
import ServiceExposure.Proofs.Port.Wishes
import ServiceExposure.Proofs.Shared.Plans
/-!
# What the policy admits

The policy records what each contributor asked for last, and its first rule admits exactly the ports that somebody asked
for (`Admission.Follows`).  A plan by any contributor succeeds on such a policy and leaves one that follows the new wish
(`Admission.follows_plan`).
-/
namespace ServiceExposure

open Latest (standing)

namespace PolicyPort

/-- The entry that admits a port. -/
def ofId (id : PortId) : PolicyPort := { port := some (.number id.port), protocol := some id.protocol.name }

theorem ofExposed_eq (p : ExposedPort) : ofExposed p = ofId p.id := rfl

theorem id_ofId {id : PortId} (h : id.protocol.isForwardable = true) : (ofId id).id = id := by
  unfold PolicyPort.id ofId
  dsimp only
  rw [Option.getD_some, Protocol.ofName_name_of_isForwardable h]

theorem id_ofExposed {p : ExposedPort} (h : p.protocol.isForwardable = true) : (ofExposed p).id = p.id := by
  rw [ofExposed_eq]
  exact id_ofId h

end PolicyPort

namespace Admission

/-- The entries admit the ports that somebody asks for, each once. -/
structure Lists (w : Wishes) (entries : List PolicyPort) : Prop where
  nodup : (entries.map PolicyPort.id).Nodup
  mem_iff : ∀ e, e ∈ entries ↔ ∃ id, w.Wants id ∧ e = .ofId id

/-- A policy records every wish and admits the ports that somebody asks for. -/
structure Admits (r : OwnershipRecords) (w : Wishes) (p : NetworkPolicy) : Prop where
  records : r.Hold w p.metadata.annotationSet
  rules : ∃ entries, (p.spec.getD {}).ingress.getD [] = withPorts entries [] ∧ Lists w entries

/-- The policy follows the wishes; a missing one counts as one that admits nothing. -/
def Follows (a : Admission) (w : Wishes) (current : Option NetworkPolicy) : Prop :=
  Admits a.records w (current.getD a.closed)

theorem lists_none : Lists Wishes.none [] := by
  refine ⟨.nil, fun e => ⟨(fun h => nomatch h), ?_⟩⟩
  rintro ⟨id, ⟨n, hn⟩, -⟩
  cases hn

theorem follows_none (a : Admission) : a.Follows Wishes.none none := ⟨a.records.hold_none, [], rfl, lists_none⟩

/-! ## Merging a wish into the first rule -/

variable {w : Wishes} {members : String → Prop} {name : String} {desired : ExposedPorts}

theorem key_mem_iff (hw : w.Legal members) {entries : List PolicyPort} (h : Lists w entries) {id : PortId} :
    id ∈ entries.map PolicyPort.id ↔ w.Wants id := by
  rw [List.mem_map]
  constructor
  · rintro ⟨e, he, rfl⟩
    obtain ⟨id, hid, rfl⟩ := (h.mem_iff e).1 he
    rw [PolicyPort.id_ofId (hw.isForwardable hid)]
    exact hid
  · intro hid
    exact ⟨.ofId id, (h.mem_iff _).2 ⟨id, hid, rfl⟩, PolicyPort.id_ofId (hw.isForwardable hid)⟩

theorem standing_of_lists (hw : w.Legal members) {entries : List PolicyPort} (h : Lists w entries) {id : PortId}
    (hid : w.Wants id) : standing PolicyPort.id id entries = some (.ofId id) := by
  have hs := Latest.standing_of_mem PolicyPort.id h.nodup ((h.mem_iff _).2 ⟨id, hid, rfl⟩)
  rwa [PolicyPort.id_ofId (hw.isForwardable hid)] at hs

theorem map_id_ofExposed (ports : ExposedPorts) (h : ports.AllForwardable) :
    (ports.toList.map PolicyPort.ofExposed).map PolicyPort.id = ports.ids := by
  rw [List.map_map]
  refine List.map_congr_left (fun p hp => ?_)
  exact PolicyPort.id_ofExposed (h p hp)

/-- What stands under a key that is desired. -/
theorem standing_desired {ports : ExposedPorts} (h : ports.AllForwardable) (id : PortId) :
    standing PolicyPort.id id (ports.toList.map PolicyPort.ofExposed) =
      if id ∈ ports.ids then some (.ofId id) else none := by
  have hkeys := map_id_ofExposed ports h
  split
  case isTrue hid =>
    obtain ⟨p, hp, rfl⟩ := List.mem_map.1 hid
    have hs := Latest.standing_of_mem PolicyPort.id (by rw [hkeys]; exact ports.nodup)
      (List.mem_map_of_mem (f := PolicyPort.ofExposed) hp)
    rwa [PolicyPort.ofExposed_eq, PolicyPort.id_ofId (h p hp)] at hs
  case isFalse hid =>
    rw [Latest.standing_eq_none_iff, hkeys]
    exact hid

/-- What stands under a key after a wish is replaced. -/
theorem standing_replaced (hw : w.Legal members) {entries : List PolicyPort} (h : Lists w entries) {others : List PortId}
    (ho : ∀ id, id ∈ others ↔ ∃ n, n ≠ name ∧ id ∈ (w n).ids) (id : PortId) :
    standing PolicyPort.id id (merge PolicyPort.id entries ((w name).toList.map .ofExposed)
      (desired.forwardable.toList.map .ofExposed) others).entries =
        if id ∈ desired.forwardable.ids ∨ id ∈ others then some (.ofId id) else none := by
  have hforward := desired.allForwardable_forwardable
  have hothers : id ∈ others → standing PolicyPort.id id entries = some (.ofId id) := fun hid => by
    obtain ⟨n, -, hn⟩ := (ho _).1 hid
    exact standing_of_lists hw h ⟨n, hn⟩
  rw [standing_merge, Latest.latest_of_nodup PolicyPort.id (by
    rw [map_id_ofExposed desired.forwardable hforward]
    exact desired.forwardable.nodup), standing_desired hforward, map_id_ofExposed (w name) (hw.forwardable name)]
  by_cases hd : id ∈ desired.forwardable.ids
  · by_cases hc : id ∈ others
    · simp only [hd, hc, hothers hc, if_true, true_or, Option.some_or]
    · simp only [hd, hc, if_true, if_false, true_or]
  · by_cases hc : id ∈ others
    · simp only [hd, hc, hothers hc, if_true, if_false, or_true, not_true_eq_false, and_false]
    · -- nobody asks for the port any more: either it stood there for the wish that is replaced, or not at all
      simp only [hd, hc, if_false, or_false, not_false_eq_true, and_true]
      split
      case isTrue => rfl
      case isFalse hprior =>
        rw [Latest.standing_eq_none_iff, key_mem_iff hw h]
        rintro ⟨n, hn⟩
        by_cases hne : n = name
        · exact hprior (hne ▸ hn)
        · exact hc ((ho id).2 ⟨n, hne, hn⟩)

/-- **Replacing a wish in the list** of the ports that somebody asks for. -/
theorem lists_merge (hw : w.Legal members) {entries : List PolicyPort} (h : Lists w entries) {others : List PortId}
    (ho : ∀ id, id ∈ others ↔ ∃ n, n ≠ name ∧ id ∈ (w n).ids) :
    Lists (w.set name desired) (merge PolicyPort.id entries ((w name).toList.map .ofExposed)
      (desired.forwardable.toList.map .ofExposed) others).entries := by
  have hnodup := nodup_merge PolicyPort.id ((w name).toList.map .ofExposed) (desired.forwardable.toList.map .ofExposed)
    others h.nodup
  have hwants : ∀ id, (w.set name desired).Wants id ↔ id ∈ desired.forwardable.ids ∨ id ∈ others := fun id => by
    rw [Wishes.wants_set, ho]
  refine ⟨hnodup, fun e => ?_⟩
  rw [Latest.mem_iff_standing PolicyPort.id hnodup, standing_replaced hw h ho]
  constructor
  · intro he
    split at he
    case isTrue hid => exact ⟨e.id, (hwants _).2 hid, (Option.some.inj he).symm⟩
    case isFalse => cases he
  · rintro ⟨id, hid, rfl⟩
    have hforwards : id.protocol.isForwardable = true := by
      rcases Wishes.wants_set.1 hid with hd | ⟨n, -, hn⟩
      · obtain ⟨p, hp, rfl⟩ := List.mem_map.1 hd
        exact desired.allForwardable_forwardable p hp
      · exact hw.isForwardable ⟨n, hn⟩
    rw [PolicyPort.id_ofId hforwards, if_pos ((hwants id).1 hid)]

/-- **Whatever is desired counts as owned**, also where others have claimed it. -/
theorem mem_owned (hw : w.Legal members) {entries : List PolicyPort} (h : Lists w entries) {others : List PortId}
    (ho : ∀ id, id ∈ others ↔ ∃ n, n ≠ name ∧ id ∈ (w n).ids) {p : ExposedPort} (hp : p ∈ desired.forwardable.toList) :
    p.id ∈ (merge PolicyPort.id entries ((w name).toList.map .ofExposed)
      (desired.forwardable.toList.map .ofExposed) others).owned.map PolicyPort.id := by
  have hforward := desired.allForwardable_forwardable
  have hid : (PolicyPort.ofExposed p).id = p.id := PolicyPort.id_ofExposed (hforward p hp)
  rw [← hid]
  refine List.mem_map_of_mem ?_
  rw [owned_merge, Latest.latest_of_nodup PolicyPort.id (by
    rw [map_id_ofExposed desired.forwardable hforward]
    exact desired.forwardable.nodup)]
  refine List.mem_filter.2 ⟨List.mem_map_of_mem hp, ?_⟩
  unfold Merged.isGranted
  rw [hid]
  by_cases hc : p.id ∈ others
  · obtain ⟨n, -, hn⟩ := (ho _).1 hc
    rw [standing_of_lists hw h ⟨n, hn⟩]
    simp [PolicyPort.ofExposed_eq]
  · simp [hc]

/-! ## A plan -/

theorem ports_withPorts (ports : List PolicyPort) : ((withPorts ports []).head?.bind (·.ports)).getD [] = ports := by
  by_cases h : ports = []
  · rw [h]
    rfl
  · have hrule : withPorts ports [] = [{ ports := some ports }] := if_neg h
    rw [hrule]
    rfl

theorem withPorts_withPorts (ps qs : List PolicyPort) : withPorts ps (withPorts qs []) = withPorts ps [] := by
  by_cases hq : qs = []
  · rw [hq]
    rfl
  · have hrule : withPorts qs [] = [{ ports := some qs }] := if_neg hq
    rw [hrule]
    rfl

theorem annotationSet_nonEmpty (m : Metadata) (d : Dict String) :
    ({ m with annotations := d.nonEmpty? } : Metadata).annotationSet = d := by
  unfold Metadata.annotationSet Dict.nonEmpty?
  dsimp only
  split
  case isTrue h => exact (Dict.isEmpty_iff.1 h).symm
  case isFalse => rfl

/-- A policy has the one rule that admits these numbered ports, or none if there are no ports. -/
def Plain (p : NetworkPolicy) (entries : List PolicyPort) : Prop :=
  (p.spec.getD {}).ingress.getD [] = withPorts entries [] ∧ ∀ e ∈ entries, e.isNumeric = true

/-- What comes of the ports of a rule when a contributor replaces its own. -/
def merged (entries : List PolicyPort) (wanted prior : ExposedPorts) (others : List PortId) : Merged PolicyPort :=
  merge PolicyPort.id entries (prior.toList.map .ofExposed) (wanted.toList.map .ofExposed)
    (others ++ unrecorded entries prior.ids others)

/-- What the contributor has on record then. -/
def recorded (entries : List PolicyPort) (wanted prior : ExposedPorts) (others : List PortId) : ExposedPorts :=
  wanted.filter (fun p => p.id ∈ ((merged entries wanted prior others).owned.map PolicyPort.id).filter
    (· ∉ unrecorded entries prior.ids others))

theorem revise_eq {a : Admission} {next : NetworkPolicy} {entries : List PolicyPort} (h : Plain next entries)
    (contributor : Contributor) (wanted prior : ExposedPorts) (others : List PortId) :
    a.revise next contributor wanted prior others =
      { metadata := { next.metadata with
          annotations := (a.records.write next.metadata.annotationSet contributor.name
            (recorded entries wanted prior others)).nonEmpty? }
        spec := some { next.spec.getD {} with
          ingress := some (withPorts (merged entries wanted prior others).entries []) } } := by
  have hports : (((next.spec.getD {}).ingress.getD []).head?.bind (·.ports)).getD [] = entries := by
    rw [h.1, ports_withPorts]
  have hentries : entries.filter PolicyPort.isNumeric = entries := List.filter_eq_self.2 h.2
  have hnamed : entries.filter (fun p => !p.isNumeric) = [] := by
    refine List.filter_eq_nil_iff.2 (fun e he => ?_)
    rw [h.2 e he]
    decide
  unfold revise
  dsimp only
  rw [hports, hentries, hnamed, List.append_nil, h.1, withPorts_withPorts]
  rfl

/-- **Replacing a contributor's part of the policy** is asking for other ports. -/
theorem admits_revise {a : Admission} (hs : a.records.Separates members) (hw : w.Legal members) (hn : members name)
    {next : NetworkPolicy} (h : Admits a.records w next) {others : List PortId}
    (ho : ∀ id, id ∈ others ↔ ∃ n, n ≠ name ∧ id ∈ (w n).ids) (ns : String) :
    Admits a.records (w.set name desired) (a.revise next ⟨ns, name⟩ desired.forwardable (w name) others) := by
  obtain ⟨entries, hrules, hlists⟩ := h.rules
  have hplain : Plain next entries := ⟨hrules, fun e he => by
    obtain ⟨id, -, rfl⟩ := (hlists.mem_iff e).1 he
    rfl⟩
  -- every port of the rule has a record, so none of them is somebody else's
  have hforeign : unrecorded entries (w name).ids others = [] := by
    refine List.filter_eq_nil_iff.2 (fun id hid => ?_)
    obtain ⟨n, hw'⟩ := (key_mem_iff hw hlists).1 hid
    by_cases hne : n = name
    · rw [hne] at hw'
      simp [hw']
    · simp [(ho id).2 ⟨n, hne, hw'⟩]
  have hmerged : merged entries desired.forwardable (w name) others = merge PolicyPort.id entries
      ((w name).toList.map .ofExposed) (desired.forwardable.toList.map .ofExposed) others := by
    unfold merged
    rw [hforeign, List.append_nil]
  have hrecorded : recorded entries desired.forwardable (w name) others = desired.forwardable := by
    unfold recorded ExposedPorts.filter
    congr 1
    refine List.filter_eq_self.2 (fun p hp => ?_)
    rw [hmerged, hforeign]
    simpa using List.mem_map.1 (mem_owned hw hlists ho hp)
  rw [revise_eq hplain, hrecorded, hmerged]
  constructor
  · rw [annotationSet_nonEmpty]
    exact OwnershipRecords.hold_write hs hw hn h.records desired
  · exact ⟨_, rfl, lists_merge hw hlists ho⟩

/-- Nobody who asks for nothing changes a policy that is missing. -/
theorem follows_missing {a : Admission} (h : a.Follows w none) (hd : desired.forwardable.isEmpty = true) :
    a.Follows (w.set name desired) none := by
  have hnone : ∀ n, (w n).toList = [] := by
    intro n
    apply Classical.byContradiction
    intro hn
    exact nomatch (h.records (a.records.key n) (w n).render).2 ⟨n, hn, rfl, rfl⟩
  have hsame : w.set name desired = w := by
    funext n
    unfold Wishes.set
    split
    · rw [ExposedPorts.eq_empty_iff.2 (hnone n), ExposedPorts.eq_empty_iff.2 (ExposedPorts.isEmpty_iff.1 hd)]
    · rfl
  rwa [hsame]

/-- **A plan succeeds and leads to a policy that follows the new wish.** -/
theorem follows_plan {a : Admission} (hs : a.records.Separates members) (hw : w.Legal members) (hn : members name)
    {current : Option NetworkPolicy} (h : a.Follows w current) (ns : String) (desired : ExposedPorts) :
    ∃ next, a.plan current ⟨ns, name⟩ desired = .ok (.between current next) ∧ a.Follows (w.set name desired) next := by
  unfold plan
  dsimp only
  by_cases hmissing : current = none ∧ desired.forwardable.isEmpty = true
  · rw [if_pos hmissing]
    rw [hmissing.1] at h ⊢
    exact ⟨none, rfl, follows_missing h hmissing.2⟩
  · obtain ⟨others, hothers, ho⟩ := OwnershipRecords.readOthers_of_hold hs hw hn h.records
    rw [if_neg hmissing, OwnershipRecords.read_of_hold hs hw hn h.records, hothers]
    exact ⟨_, rfl, admits_revise hs hw hn h ho ns⟩

def portsOf (p : NetworkPolicy) : List PolicyPort :=
  ((((p.spec.getD {}).ingress.getD []).head?).bind (·.ports)).getD []

/-- The ports that the policy's first rule has in a cluster. -/
def portsIn (a : Admission) (c : Cluster) : List PolicyPort :=
  ((c.get? .networkPolicy a.name).map portsOf).getD []

/-- **The first rule admits whatever somebody asks for**, and nothing else. -/
theorem Follows.mem_portsIn {a : Admission} {c : Cluster} (h : a.Follows w (c.get? .networkPolicy a.name))
    (e : PolicyPort) : e ∈ a.portsIn c ↔ ∃ id, w.Wants id ∧ e = .ofId id := by
  obtain ⟨entries, hrules, hlists⟩ := h.rules
  have hports : a.portsIn c = entries := by
    rw [← ports_withPorts entries, ← hrules]
    unfold portsIn
    cases c.get? .networkPolicy a.name with
    | none => rfl
    | some p => rfl
  rw [hports]
  exact hlists.mem_iff e

/-- The annotations that the policy has in a cluster. -/
def annotationsIn (a : Admission) (c : Cluster) : Dict String :=
  ((c.get? .networkPolicy a.name).map (·.metadata.annotationSet)).getD .empty

/-- **The annotations are the records of what everybody asks for.** -/
theorem Follows.hold_annotationsIn {a : Admission} {c : Cluster} (h : a.Follows w (c.get? .networkPolicy a.name)) :
    a.records.Hold w (a.annotationsIn c) := by
  have hrecords := h.records
  unfold annotationsIn
  cases hp : c.get? .networkPolicy a.name with
  | none =>
    rw [hp] at hrecords
    exact hrecords
  | some p =>
    rw [hp] at hrecords
    exact hrecords

theorem follows_stamped (a : Admission) (w : Wishes) (p : NetworkPolicy) (v : String) :
    a.Follows w (some (Cluster.stamped .networkPolicy p v)) = a.Follows w (some p) :=
  propext ⟨fun h => ⟨h.records, h.rules⟩, fun h => ⟨h.records, h.rules⟩⟩

theorem follows_commit {a : Admission} (hs : a.records.Separates members) (hw : w.Legal members) (hn : members name)
    {c : Cluster} (h : a.Follows w (c.get? .networkPolicy a.name)) (ns : String) (desired : ExposedPorts) :
    ∃ change, a.plan (c.get? .networkPolicy a.name) ⟨ns, name⟩ desired = .ok change ∧
      a.Follows (w.set name desired) ((c.commit .networkPolicy a.name change).get? .networkPolicy a.name) := by
  obtain ⟨next, hplan, hnext⟩ := follows_plan hs hw hn h ns desired
  refine ⟨_, hplan, ?_⟩
  have hseen := @Cluster.view_commit .networkPolicy _ (fun o => a.Follows (w.set name desired) o) (a.follows_stamped _) c
    a.name next
  exact hseen.mpr hnext

end Admission
end ServiceExposure
