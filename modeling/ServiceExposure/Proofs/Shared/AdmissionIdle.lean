import ServiceExposure.Proofs.Shared.AdmissionFrame
/-!
# Plans of those who have nothing to do with the policy

Most services expose nothing, and still each of them plans the policy whenever it is reconciled.  Such a plan puts the
first rule together again from its ports.  It leaves a policy alone exactly if the policy is written as plans write it
(`Admission.unchanged_iff`): where somebody wrote it in another way, the first rule is put into order, and a first rule
that names neither peers nor ports, which lets everybody in, is taken out (`Admission.openRule_dropped`).
-/
namespace ServiceExposure

/-- A first rule as plans write it: numbered ports come before the others, and where there are no ports there are
peers. -/
def PolicyRule.AsWritten (rule : PolicyRule) : Prop :=
  match rule.ports with
  | none => rule.peers.getD [] ≠ []
  | some ports => ports ≠ [] ∧ ports.Pairwise (fun e e' => e'.isNumeric → e.isNumeric)

theorem Change.between_some_eq_unchanged_iff {α : Type} [DecidableEq α] {c d : α} :
    between (some c) (some d) = .unchanged ↔ c = d := by
  by_cases h : c = d <;> simp [between, h]

namespace Admission

/-- A policy as plans write it. -/
structure AsWritten (p : NetworkPolicy) : Prop where
  annotations : p.metadata.annotations ≠ some .empty
  ingress : ∃ spec rules, p.spec = some spec ∧ spec.ingress = some rules ∧ ∀ rule ∈ rules.head?, rule.AsWritten

/-- Taking the items that pass a test first changes nothing where they come first anyway. -/
theorem filter_append_filter_not_eq_self_iff {α : Type} (f : α → Bool) : ∀ xs : List α,
    xs.filter f ++ xs.filter (fun x => !f x) = xs ↔ xs.Pairwise (fun x y => f y → f x)
  | [] => by simp
  | x :: xs => by
    rw [List.pairwise_cons, ← filter_append_filter_not_eq_self_iff f xs]
    cases hx : f x with
    | true => simp [hx]
    | false =>
      simp only [List.filter_cons, hx, Bool.not_false, if_true, Bool.false_eq_true, if_false, imp_false]
      constructor
      · intro h
        -- the first item fails the test, so no item passes it
        have hnone : xs.filter f = [] := by
          cases hys : xs.filter f with
          | nil => rfl
          | cons y ys =>
            rw [hys, List.cons_append, List.cons.injEq] at h
            have hy : f y = true := (List.mem_filter.1 (hys ▸ List.mem_cons_self : y ∈ xs.filter f)).2
            rw [h.1, hx] at hy
            cases hy
        rw [hnone, List.nil_append, List.cons.injEq] at h
        refine ⟨fun y hy hfy => ?_, ?_⟩
        · have hmem : y ∈ xs.filter f := List.mem_filter.2 ⟨hy, hfy⟩
          rw [hnone] at hmem
          cases hmem
        · rw [hnone, List.nil_append, h.2]
      · rintro ⟨hall, h⟩
        have hnone : xs.filter f = [] := List.filter_eq_nil_iff.2 (fun y hy => hall y hy)
        rw [hnone, List.nil_append] at h ⊢
        rw [h]

/-- **Putting the first rule together again** changes nothing if it is as plans write it. -/
theorem withPorts_eq_self_iff (rules : List PolicyRule) :
    let ports := (rules.head?.bind (·.ports)).getD []
    withPorts (ports.filter PolicyPort.isNumeric ++ ports.filter (fun e => !e.isNumeric)) rules = rules ↔
      ∀ rule ∈ rules.head?, rule.AsWritten := by
  cases rules with
  | nil => simp [withPorts]
  | cons rule rest =>
    simp only [List.head?_cons, Option.bind_some, Option.mem_def, Option.some.injEq, forall_eq']
    obtain ⟨peers, ports⟩ := rule
    have hlonger : rest ≠ ⟨peers, ports⟩ :: rest := fun h => by simpa using congrArg List.length h
    cases ports with
    | none => by_cases hp : peers.getD [] = [] <;> simp [withPorts, PolicyRule.AsWritten, hp]
    | some ports =>
      have hempty : ports.filter PolicyPort.isNumeric ++ ports.filter (fun e => !e.isNumeric) = [] ↔ ports = [] := by
        rw [← List.length_eq_zero_iff, (List.filter_append_perm _ ports).length_eq, List.length_eq_zero_iff]
      have horder := filter_append_filter_not_eq_self_iff PolicyPort.isNumeric ports
      simp only [Option.getD_some, PolicyRule.AsWritten, withPorts, hempty]
      by_cases hp : ports = []
      · by_cases hpeers : peers.getD [] = [] <;> simp [hp, hpeers]
      · simp [hp, horder]

variable {a : Admission} {p : NetworkPolicy} {contributor : Contributor} {desired : ExposedPorts}

theorem nonEmpty?_annotationSet (m : Metadata) :
    m.annotationSet.nonEmpty? = m.annotations ↔ m.annotations ≠ some .empty := by
  unfold Metadata.annotationSet Dict.nonEmpty?
  cases h : m.annotations with
  | none => simp [Dict.isEmpty_iff]
  | some d =>
    rw [Option.getD_some]
    by_cases hd : d = .empty
    · simp [hd, Dict.isEmpty_iff]
    · simp [hd, Dict.isEmpty_iff]

/-- What an idle plan would write. -/
theorem revise_idle (hw : desired.forwardable.isEmpty = true)
    (hnone : p.metadata.annotationSet.get? (a.records.key contributor.name) = none) (others : List PortId) :
    a.revise p contributor desired.forwardable .empty others =
      { metadata := { p.metadata with annotations := p.metadata.annotationSet.nonEmpty? }
        spec := some { p.spec.getD {} with
          ingress := some (withPorts (numericPortsOf p ++ namedPortsOf p) (rulesOf p)) } } := by
  have hports : portsAfter p desired.forwardable .empty others = numericPortsOf p ++ namedPortsOf p := by
    rw [portsAfter_of_isEmpty hw (fun _ hq => absurd hq List.not_mem_nil), List.filter_eq_self.2 (fun e _ => ?_)]
    exact decide_eq_true (.inl List.not_mem_nil)
  have hrecorded : (recorded (numericPortsOf p) desired.forwardable .empty others).isEmpty = true := by
    rw [ExposedPorts.isEmpty_iff] at hw ⊢
    exact List.sublist_nil.1 (hw ▸ List.filter_sublist)
  have hwrite : a.records.write p.metadata.annotationSet contributor.name
      (recorded (numericPortsOf p) desired.forwardable .empty others) = p.metadata.annotationSet := by
    refine Dict.ext_get? (fun k => ?_)
    rw [OwnershipRecords.get?_write, if_pos hrecorded]
    split
    case isTrue hk => rw [hk, hnone]
    case isFalse => rfl
  rw [revise_parts, hports, hwrite]

/-- A policy is as it would be written exactly if it is as plans write it. -/
theorem eq_rewritten_iff (p : NetworkPolicy) :
    p = { metadata := { p.metadata with annotations := p.metadata.annotationSet.nonEmpty? }
          spec := some { p.spec.getD {} with
            ingress := some (withPorts (numericPortsOf p ++ namedPortsOf p) (rulesOf p)) } } ↔ AsWritten p := by
  obtain ⟨metadata, spec⟩ := p
  have hmetadata : metadata = { metadata with annotations := metadata.annotationSet.nonEmpty? } ↔
      metadata.annotations ≠ some .empty := by
    rw [← nonEmpty?_annotationSet]
    constructor
    · exact fun h => (congrArg Metadata.annotations h).symm
    · intro h
      rw [h]
  have hspec : spec = some { spec.getD {} with
        ingress := some (withPorts (numericPortsOf ⟨metadata, spec⟩ ++ namedPortsOf ⟨metadata, spec⟩)
          (rulesOf ⟨metadata, spec⟩)) } ↔
      ∃ spec' rules, spec = some spec' ∧ spec'.ingress = some rules ∧ ∀ rule ∈ rules.head?, rule.AsWritten := by
    constructor
    · intro h
      have hrules : rulesOf ⟨metadata, spec⟩ = withPorts (numericPortsOf ⟨metadata, spec⟩ ++
          namedPortsOf ⟨metadata, spec⟩) (rulesOf ⟨metadata, spec⟩) := congrArg (fun s => rulesOf ⟨metadata, s⟩) h
      refine ⟨_, _, h, rfl, ?_⟩
      rw [← hrules]
      exact (withPorts_eq_self_iff _).1 hrules.symm
    · rintro ⟨spec, rules, rfl, hingress, hfirst⟩
      have hrules : rulesOf ⟨metadata, some spec⟩ = rules := by
        rw [rulesOf, Option.getD_some, hingress, Option.getD_some]
      rw [← hrules] at hfirst
      have hself : withPorts (numericPortsOf ⟨metadata, some spec⟩ ++ namedPortsOf ⟨metadata, some spec⟩)
          (rulesOf ⟨metadata, some spec⟩) = rulesOf ⟨metadata, some spec⟩ :=
        (withPorts_eq_self_iff _).2 hfirst
      rw [hself, hrules, ← hingress]
      rfl
  rw [NetworkPolicy.mk.injEq, hmetadata, hspec]
  exact ⟨fun h => ⟨h.1, h.2⟩, fun h => ⟨h.annotations, h.ingress⟩⟩

/-- **Whoever has nothing to do with a policy** leaves it alone exactly if it is written as plans write it. -/
theorem unchanged_iff (a : Admission) (p : NetworkPolicy) (contributor : Contributor) (desired : ExposedPorts)
    (hothers : ∃ others, a.records.readOthers p.metadata.annotationSet contributor.name = .ok others)
    (hnone : p.metadata.annotationSet.get? (a.records.key contributor.name) = none)
    (hdesired : desired.forwardable.isEmpty = true) :
    a.plan (some p) contributor desired = .ok .unchanged ↔ AsWritten p := by
  obtain ⟨others, hothers⟩ := hothers
  have hread : a.records.read p.metadata.annotationSet contributor.name = .ok .empty := by
    unfold OwnershipRecords.read
    rw [hnone]
  rw [a.plan_of_reads hread hothers, revise_idle hdesired hnone, Except.ok.injEq, Change.between_some_eq_unchanged_iff,
    eq_rewritten_iff]

/-- The policy with these rules, in which nobody has a record. -/
def ruledPolicy (rules : List PolicyRule) : NetworkPolicy where
  metadata := .named "ecosystem" "nginx-ingress-exposed"
  spec := some { policyTypes := some ["Ingress"], ingress := some rules }

/-- A rule without ports is left alone where it has peers. -/
theorem unchanged_iff_peers :
    let a : Admission := ⟨"nginx-ingress-exposed", "ecosystem", .empty, .standard⟩
    let p := ruledPolicy [{ peers := some [.obj [("podSelector", .obj [])]] }, {}]
    (∃ others, a.records.readOthers p.metadata.annotationSet "ldap" = .ok others) ∧
      p.metadata.annotationSet.get? (a.records.key "ldap") = none ∧
      ExposedPorts.empty.forwardable.isEmpty = true ∧ AsWritten p ∧
      a.plan (some p) ⟨"ecosystem", "ldap"⟩ .empty = .ok .unchanged := by
  intro a p
  have hothers : ∃ others, a.records.readOthers p.metadata.annotationSet "ldap" = .ok others := ⟨[], rfl⟩
  have hwritten : AsWritten p := by
    refine ⟨nofun, _, _, rfl, rfl, fun rule hrule => ?_⟩
    cases hrule
    exact nofun
  exact ⟨hothers, rfl, rfl, hwritten,
    (unchanged_iff a p ⟨"ecosystem", "ldap"⟩ .empty hothers rfl rfl).2 hwritten⟩

/-- **A rule that lets everybody in is taken out** by a service that never had a port. -/
theorem openRule_dropped :
    let a : Admission := ⟨"nginx-ingress-exposed", "ecosystem", .empty, .standard⟩
    (∃ others, a.records.readOthers (ruledPolicy [{}]).metadata.annotationSet "ldap" = .ok others) ∧
      (ruledPolicy [{}]).metadata.annotationSet.get? (a.records.key "ldap") = none ∧
      ExposedPorts.empty.forwardable.isEmpty = true ∧
      a.plan (some (ruledPolicy [{}])) ⟨"ecosystem", "ldap"⟩ .empty = .ok (.replace (ruledPolicy [])) :=
  ⟨⟨[], rfl⟩, rfl, rfl, by decide +kernel⟩

end Admission
end ServiceExposure
