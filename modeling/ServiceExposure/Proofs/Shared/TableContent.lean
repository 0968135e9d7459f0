import ServiceExposure.Proofs.Shared.AtRest
/-!
# What a plan leaves in a forwarding table

A table is a map that many services write into, and some people by hand.  A plan keeps whatever leads elsewhere, takes out
what leads to the contributor, and brings in the desired ports that nothing stands in the way of (`ForwardingTable.Replaces`).
That determines the data (`Replaces.unique`), so a table that is missing is created with what an empty one would be given
(`ForwardingTable.plan_content`).
-/
namespace ServiceExposure

namespace ForwardingTable

variable {t : ForwardingTable} {contributor : Contributor} {desired : ExposedPorts}

/-- Something that does not lead to the contributor stands under a key. -/
def Taken (contributor : Contributor) (data : Dict String) (key : String) : Prop :=
  ∃ target, data.get? key = some target ∧ contributor.ownsForwardTarget target = false

/-- The data `new` has what leads elsewhere in `old`, the desired ports whose keys are not taken there, and nothing
else. -/
def Replaces (t : ForwardingTable) (contributor : Contributor) (desired : ExposedPorts) (old new : Dict String) : Prop :=
  ∀ key target, new.get? key = some target ↔
    old.get? key = some target ∧ contributor.ownsForwardTarget target = false ∨
    ¬ Taken contributor old key ∧ ∃ p ∈ desired.toList,
      p.protocol = t.protocol ∧ key = toString p.port ∧ target = contributor.forwardTarget p.targetPort

/-- There is one such map. -/
theorem Replaces.unique {old new new' : Dict String} (h : t.Replaces contributor desired old new)
    (h' : t.Replaces contributor desired old new') : new = new' :=
  Dict.ext_get? (fun key => Option.ext (fun target => (h key target).trans (h' key target).symm))

theorem mem_entriesOf_iff {data : Dict String} {key target : String} :
    ⟨key, target⟩ ∈ entriesOf data ↔ data.get? key = some target := by
  unfold entriesOf
  rw [← Dict.mem_toList_iff, List.mem_map]
  constructor
  · rintro ⟨p, hp, ⟨⟩⟩
    exact hp
  · exact fun h => ⟨_, h, rfl⟩

theorem get?_dataOf {entries : List TableEntry} (h : (entries.map TableEntry.port).Nodup) {key target : String} :
    (dataOf entries).get? key = some target ↔ ⟨key, target⟩ ∈ entries := by
  rw [← mem_entriesOf_iff, mem_entriesOf_dataOf h]

theorem mem_wanted_iff {key target : String} : ⟨key, target⟩ ∈ t.wanted contributor desired ↔
    ∃ p ∈ desired.toList,
      p.protocol = t.protocol ∧ key = toString p.port ∧ target = contributor.forwardTarget p.targetPort := by
  simp only [wanted, ExposedPorts.withProtocol, ExposedPorts.filter, List.mem_map, List.mem_filter, decide_eq_true_eq,
    TableEntry.mk.injEq, and_assoc, eq_comm (a := key), eq_comm (a := target)]

theorem wanted_eq_nil_iff : t.wanted contributor desired = [] ↔ ∀ p ∈ desired.toList, p.protocol ≠ t.protocol := by
  simp [wanted, ExposedPorts.withProtocol, ExposedPorts.filter, List.filter_eq_nil_iff]

theorem taken_iff {data : Dict String} {key : String} : Taken contributor data key ↔
    key ∈ othersKeys TableEntry.port (fun e => contributor.ownsForwardTarget e.target) (entriesOf data) := by
  rw [mem_othersKeys]
  constructor
  · rintro ⟨target, hget, ho⟩
    exact ⟨⟨key, target⟩, mem_entriesOf_iff.2 hget, ho, rfl⟩
  · rintro ⟨⟨key, target⟩, he, ho, rfl⟩
    exact ⟨target, mem_entriesOf_iff.1 he, ho⟩

/-- **What comes of a contributor's merge.** -/
theorem replaces_revise (t : ForwardingTable) (contributor : Contributor) (desired : ExposedPorts) (old : Dict String) :
    t.Replaces contributor desired old
      (dataOf (revise contributor (entriesOf old) (t.wanted contributor desired))) := by
  intro key target
  have hnodup : ((revise contributor (entriesOf old) (t.wanted contributor desired)).map TableEntry.port).Nodup :=
    nodup_merge TableEntry.port _ _ _ (nodup_entriesOf old)
  have hmem : ⟨key, target⟩ ∈ revise contributor (entriesOf old) (t.wanted contributor desired) ↔ _ :=
    mem_mergeOwn_iff (nodup_entriesOf old) (t.nodup_wanted contributor desired)
  rw [get?_dataOf hnodup, hmem, mem_entriesOf_iff, mem_wanted_iff, ← taken_iff, and_comm (a := ∃ _, _)]

theorem replaces_wanted (t : ForwardingTable) (contributor : Contributor) (desired : ExposedPorts) :
    t.Replaces contributor desired .empty (dataOf (t.wanted contributor desired)) := by
  intro key target
  rw [get?_dataOf (t.nodup_wanted contributor desired), mem_wanted_iff]
  simp [Taken]

/-- A table that has no data is given none that is empty. -/
theorem next_some (c : ConfigMap) : ∃ data, t.next contributor desired (some c) = some { c with data := data } ∧
    (c.data.isSome → data.isSome) ∧
    data.getD .empty = dataOf (revise contributor (entriesOf (c.data.getD .empty)) (t.wanted contributor desired)) := by
  obtain ⟨data, hdata⟩ : ∃ data, data =
    dataOf (revise contributor (entriesOf (c.data.getD .empty)) (t.wanted contributor desired)) := ⟨_, rfl⟩
  have hnext : t.next contributor desired (some c) =
      some (if c.data.isSome || !data.isEmpty then { c with data := some data } else c) := by
    rw [hdata]
    rfl
  rw [hnext, ← hdata]
  split
  case isTrue => exact ⟨some data, rfl, fun _ => rfl, rfl⟩
  case isFalse hnone =>
    simp only [Bool.or_eq_true, Bool.not_eq_true', not_or, Bool.not_eq_true, Bool.not_eq_false] at hnone
    refine ⟨c.data, rfl, id, ?_⟩
    rw [Option.isNone_iff_eq_none.1 (Option.isSome_eq_false_iff.1 hnone.1), Dict.isEmpty_iff.1 hnone.2]
    rfl

/-- **What a plan leaves in a table**: what leads elsewhere, and the desired ports whose keys that leaves free.  A missing
table is created with what an empty one would be given, if it is given anything, and planning once more changes
nothing. -/
theorem plan_content (t : ForwardingTable) (contributor : Contributor) (desired : ExposedPorts)
    (hd : ∀ p ∈ desired.toList, isPortNumber p.targetPort = true) :
    (∀ c : ConfigMap, ∃ data,
      t.plan (some c) contributor desired = .between (some c) (some { c with data := data }) ∧
      (c.data.isSome → data.isSome) ∧
      t.Replaces contributor desired (c.data.getD .empty) (data.getD .empty)) ∧
    ((∀ p ∈ desired.toList, p.protocol ≠ t.protocol) → t.plan none contributor desired = .unchanged) ∧
    ((∃ p ∈ desired.toList, p.protocol = t.protocol) → ∃ data,
      t.plan none contributor desired = .create { metadata := .named t.ns t.name, data := some data } ∧
      ∀ c : ConfigMap, c.data.getD .empty = .empty →
        (t.plan (some c) contributor desired).result (some c) = some { c with data := some data }) ∧
    ∀ current, t.plan ((t.plan current contributor desired).result current) contributor desired = .unchanged := by
  refine ⟨fun c => ?_, fun hnone => ?_, fun hsome => ?_, fun current => ?_⟩
  · obtain ⟨data, hnext, hkept, hdata⟩ := @next_some t contributor desired c
    refine ⟨data, ?_, hkept, ?_⟩
    · rw [plan_eq, hnext]
    · rw [hdata]
      exact t.replaces_revise contributor desired _
  · exact if_pos (wanted_eq_nil_iff.2 hnone)
  · have hwanted : t.wanted contributor desired ≠ [] := fun h => by
      obtain ⟨p, hp, hprotocol⟩ := hsome
      exact wanted_eq_nil_iff.1 h p hp hprotocol
    refine ⟨dataOf (t.wanted contributor desired), if_neg hwanted, fun c hc => ?_⟩
    obtain ⟨data, hnext, -, hdata⟩ := @next_some t contributor desired c
    rw [hc, (t.replaces_revise contributor desired .empty).unique (t.replaces_wanted contributor desired)] at hdata
    -- no data at all would be none of the wishes
    have hentries : data.getD .empty ≠ .empty := fun h => by
      rw [hdata, ← Dict.isEmpty_iff, isEmpty_dataOf (t.nodup_wanted contributor desired)] at h
      exact hwanted h
    cases data with
    | none => exact absurd rfl hentries
    | some data =>
      rw [plan_eq, Change.result_between, hnext, ← hdata]
      rfl
  · rw [plan_eq t current, Change.result_between]
    obtain ⟨v, hv⟩ := Kind.configMap.exists_map_atVersion (t.next contributor desired current)
    exact (congrArg (fun o => t.plan o contributor desired) hv).symm.trans (plan_next hd current v)

/-- A table that several services and a person have written into. -/
def mixedTable : ConfigMap where
  metadata := .named "ecosystem" "tcp-services"
  data := some (.ofList [("22", "other/git:22"), ("80", "ecosystem/scm:+0080"), ("2222", "ecosystem/scm:1"),
    ("readme", "ask ops")])

/-- One port is somebody else's, one is given up, one leads to another target, and one is of another protocol. -/
theorem plan_content_mixedTable :
    let t : ForwardingTable := ⟨"tcp-services", "ecosystem", .tcp⟩
    let scm : Contributor := ⟨"ecosystem", "scm"⟩
    let desired : ExposedPorts := .ofList [⟨.tcp, 22, 2222⟩, ⟨.tcp, 2222, 2222⟩, ⟨.udp, 53, 53⟩]
    let data : Dict String := .ofList [("22", "other/git:22"), ("2222", "ecosystem/scm:2222"), ("readme", "ask ops")]
    t.plan (some mixedTable) scm desired = .replace { mixedTable with data := some data } ∧
      t.Replaces scm desired (mixedTable.data.getD .empty) data ∧
      t.plan (some { mixedTable with data := some data }) scm desired = .unchanged := by
  intro t scm desired data
  have hplan : t.plan (some mixedTable) scm desired = .replace { mixedTable with data := some data } := by decide +kernel
  obtain ⟨hcontent, -, -, hagain⟩ := plan_content t scm desired (by decide)
  obtain ⟨data', hdata', -, hreplaces⟩ := hcontent mixedTable
  have hresult := congrArg (Change.result (some mixedTable)) (hplan.symm.trans hdata')
  rw [Change.result_between] at hresult
  obtain rfl : some data = data' := congrArg ConfigMap.data (Option.some.inj hresult)
  have hunchanged := hagain (some mixedTable)
  rw [hplan] at hunchanged
  exact ⟨hplan, hreplaces, hunchanged⟩

end ForwardingTable
end ServiceExposure
