import ServiceExposure.Proofs.Dict
import ServiceExposure.Proofs.Cluster.Commit
import ServiceExposure.Proofs.Port.Targets
import ServiceExposure.Proofs.Shared.Holdings
import ServiceExposure.Proofs.Shared.Plans
/-!
# What forwarding tables hold

A table writes the holdings of its protocol down as pairs of a port and a target.  The pairs belong to whoever their
target leads to, and a plan takes one step of the holdings (`ForwardingTable.shows_commit`).
-/
namespace ServiceExposure

namespace ForwardingTable

/-! ## The data of a table -/

theorem nodup_entriesOf (data : Dict String) : ((entriesOf data).map TableEntry.port).Nodup := by
  unfold entriesOf
  rw [List.map_map]
  exact data.nodup_keys

theorem nodup_pairs {entries : List TableEntry} (h : (entries.map TableEntry.port).Nodup) :
    ((entries.map (fun e => (e.port, e.target))).map Prod.fst).Nodup := by
  rw [List.map_map]
  exact h

theorem isEmpty_dataOf {entries : List TableEntry} (h : (entries.map TableEntry.port).Nodup) :
    (dataOf entries).isEmpty = true ↔ entries = [] :=
  (Dict.isEmpty_ofList (nodup_pairs h)).trans List.map_eq_nil_iff

theorem mem_entriesOf_dataOf {entries : List TableEntry} (h : (entries.map TableEntry.port).Nodup) {e : TableEntry} :
    e ∈ entriesOf (dataOf entries) ↔ e ∈ entries := by
  have hn := nodup_pairs h
  unfold entriesOf dataOf
  simp only [List.mem_map]
  constructor
  · rintro ⟨p, hp, rfl⟩
    obtain ⟨e, he, rfl⟩ := List.mem_map.1 ((Dict.mem_ofList_iff hn).1 hp)
    exact he
  · intro he
    exact ⟨(e.port, e.target), (Dict.mem_ofList_iff hn).2 (List.mem_map_of_mem he), rfl⟩

/-! ## Tables as ledgers -/

/-- How a table writes down what services of a namespace hold. -/
def ledger (t : ForwardingTable) (ns : String) : Ledger TableEntry String where
  key := TableEntry.port
  entry id h := ⟨toString id.port, Contributor.forwardTarget ⟨ns, h.service⟩ h.target⟩
  covers id := id.protocol = t.protocol
  owns service e := Contributor.ownsForwardTarget ⟨ns, service⟩ e.target

theorem ledger_sound (t : ForwardingTable) (ns : String) : (t.ledger ns).Sound where
  key_inj := by
    rintro ⟨p, n⟩ h ⟨p', n'⟩ h' ⟨hc, -⟩ ⟨hc', -⟩ hk
    obtain rfl := Decimal.toString_inj hk
    simp only [ledger, decide_eq_true_eq] at hc hc'
    rw [hc, hc']
  key_entry := fun _ _ => rfl
  owns_entry := fun service hf => Contributor.ownsForwardTarget_iff hf.2.2.2

theorem wanted_eq_ledger {t : ForwardingTable} (ht : t.protocol.isForwardable = true) (ns service : String)
    (desired : ExposedPorts) : t.wanted ⟨ns, service⟩ desired = (t.ledger ns).wanted service desired := by
  unfold wanted Ledger.wanted
  rw [desired.withProtocol_eq ht]
  refine List.map_congr_left (fun p hp => ?_)
  simp [ledger, ExposedPort.id]

/-- The entries of a table in a cluster. -/
def entriesIn (t : ForwardingTable) (c : Cluster) : List TableEntry :=
  entriesOf (((c.get? .configMap t.name).bind ConfigMap.data).getD .empty)

theorem entriesIn_congr {t : ForwardingTable} {c c' : Cluster}
    (h : c'.get? .configMap t.name = c.get? .configMap t.name) : t.entriesIn c' = t.entriesIn c :=
  congrArg (fun o : Option ConfigMap => entriesOf ((o.bind ConfigMap.data).getD .empty)) h

/-- The table that is wanted has the entries of the holdings after the step. -/
theorem shows_next {t : ForwardingTable} (ht : t.protocol.isForwardable = true) {ns service : String}
    {desired : ExposedPorts} (hd : desired.Valid) {m : Holdings} (hm : m.Valid) {current : Option ConfigMap}
    (h : (t.ledger ns).Shows m (entriesOf ((current.bind ConfigMap.data).getD .empty))) :
    (t.ledger ns).Shows (m.step service desired)
      (entriesOf (((t.next ⟨ns, service⟩ desired current).bind ConfigMap.data).getD .empty)) := by
  have hl := t.ledger_sound ns
  have hclaim := Ledger.shows_wanted hl service hd
  cases current with
  | none =>
    have hstep := Ledger.shows_step_of_nil h hclaim
    unfold next
    rw [wanted_eq_ledger ht]
    by_cases hw : (t.ledger ns).wanted service desired = []
    · rw [if_pos hw]
      rw [hw] at hstep
      exact hstep
    · rw [if_neg hw]
      exact hstep.of_mem_iff (nodup_entriesOf _) (fun e => mem_entriesOf_dataOf hstep.nodup)
  | some c =>
    obtain ⟨entries, he⟩ : ∃ entries, entries =
        revise ⟨ns, service⟩ (entriesOf (c.data.getD .empty)) (t.wanted ⟨ns, service⟩ desired) := ⟨_, rfl⟩
    have hnext : t.next ⟨ns, service⟩ desired (some c) =
        some (if c.data.isSome || !(dataOf entries).isEmpty then { c with data := some (dataOf entries) } else c) := by
      rw [he]
      rfl
    have hstep : (t.ledger ns).Shows (m.step service desired) entries := by
      rw [he, wanted_eq_ledger ht]
      exact Ledger.merge_shows hl hm hd h hclaim
    rw [hnext]
    split
    case isTrue => exact hstep.of_mem_iff (nodup_entriesOf _) (fun e => mem_entriesOf_dataOf hstep.nodup)
    case isFalse hdata =>
      -- the table has no data, and gets none
      simp only [Bool.or_eq_true, Bool.not_eq_true', not_or, Bool.not_eq_true, Option.isSome_eq_false_iff,
        Option.isNone_iff_eq_none, Bool.not_eq_false] at hdata
      rw [(isEmpty_dataOf hstep.nodup).1 hdata.2] at hstep
      change (t.ledger ns).Shows _ (entriesOf (c.data.getD .empty))
      rw [hdata.1]
      exact hstep

/-- **A plan takes one step of the holdings.** -/
theorem shows_commit {t : ForwardingTable} (ht : t.protocol.isForwardable = true) {ns service : String}
    {desired : ExposedPorts} (hd : desired.Valid) {m : Holdings} (hm : m.Valid) {c : Cluster}
    (h : (t.ledger ns).Shows m (t.entriesIn c)) :
    (t.ledger ns).Shows (m.step service desired)
      (t.entriesIn (c.commit .configMap t.name (t.plan (c.get? .configMap t.name) ⟨ns, service⟩ desired))) := by
  have hplan := congrArg (fun change => t.entriesIn (c.commit .configMap t.name change))
    (t.plan_eq (c.get? .configMap t.name) ⟨ns, service⟩ desired)
  have hseen := @Cluster.view_commit .configMap _ (fun o => entriesOf ((o.bind ConfigMap.data).getD .empty))
    (fun _ _ => rfl) c t.name (t.next ⟨ns, service⟩ desired (c.get? .configMap t.name))
  exact (hplan.trans hseen) ▸ shows_next ht hd hm h

end ForwardingTable
end ServiceExposure
