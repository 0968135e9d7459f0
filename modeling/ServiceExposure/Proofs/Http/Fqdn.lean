import Mathlib.Data.List.Nodup
import ServiceExposure.Proofs.Dict
import ServiceExposure.Proofs.Http.Listing
import ServiceExposure.Proofs.Merge.Laws
import ServiceExposure.Proofs.Text.Bytes
/-!
# The hosts of a list of alternatives

The hosts that are read from a list have no blanks around them (`AlternativeFqdn.trim_fqdn_of_mem`).  A host is empty
exactly where an item of the list names a secret and no host (`AlternativeFqdn.empty_fqdn_iff`).  The groups of a list
hold each of its pairs of host and certificate once (`AlternativeFqdn.perm_groups`).
-/
namespace ServiceExposure
namespace AlternativeFqdn

variable {item list : String} {a : AlternativeFqdn} {alternatives : List AlternativeFqdn} {host : String}

/-- The first character of an item, blanks apart, is a colon. -/
def LacksHost (item : String) : Prop :=
  ∃ blanks rest, item.toList = blanks ++ ':' :: rest ∧ ∀ c ∈ blanks, Text.isBlank c = true

theorem lacksHost_append_iff (hcolon : ':' ∉ host.toList) (rest : String) :
    LacksHost (host ++ ":" ++ rest) ↔ Text.Blank host := by
  have hcut : Text.cutChars ':' (host ++ ":" ++ rest).toList = some (host.toList, rest.toList) :=
    Text.cutChars_eq_some_iff.2 ⟨by simp, hcolon⟩
  constructor
  · rintro ⟨blanks, rest', hitem, hblanks⟩
    have hnot : ':' ∉ blanks := fun hmem => absurd (hblanks _ hmem) (by decide)
    have hcut' := Text.cutChars_eq_some_iff.2 ⟨hitem, hnot⟩
    obtain ⟨rfl, -⟩ := Prod.mk.inj (Option.some.inj (hcut.symm.trans hcut'))
    exact hblanks
  · exact fun hblank => ⟨host.toList, rest.toList, by simp, hblank⟩

/-- **An item without a host** begins with a colon. -/
theorem fqdn_eq_empty_iff (h : item? item = some a) : a.fqdn = "" ↔ LacksHost item := by
  rcases item?_cases h with ⟨hcolon, hne, rfl⟩ | ⟨host, rest, rfl, hcolon, rfl⟩
  · refine iff_of_false hne ?_
    rintro ⟨blanks, rest, hitem, -⟩
    exact hcolon (by rw [hitem]; simp)
  · rw [lacksHost_append_iff hcolon, Text.blank_iff]

theorem mem_parseList : a ∈ parseList list ↔ ∃ item ∈ Text.fields ',' list, item? item = some a := by
  rw [parseList_eq_filterMap, List.mem_filterMap]

/-- **The hosts of a list** have no blanks around them. -/
theorem trim_fqdn_of_mem (h : a ∈ parseList list) : Text.trim a.fqdn = a.fqdn := by
  obtain ⟨item, -, hitem⟩ := mem_parseList.1 h
  rcases item?_cases hitem with ⟨-, -, rfl⟩ | ⟨host, rest, -, -, rfl⟩ <;> exact Text.trim_trim _

/-- **A host of a list is empty** exactly where an item of the list has none. -/
theorem empty_fqdn_iff : (∃ a ∈ parseList list, a.fqdn = "") ↔ ∃ item ∈ Text.fields ',' list, LacksHost item := by
  constructor
  · rintro ⟨a, ha, hempty⟩
    obtain ⟨item, hitem, hread⟩ := mem_parseList.1 ha
    exact ⟨item, hitem, (fqdn_eq_empty_iff hread).1 hempty⟩
  · rintro ⟨item, hitem, hlacks⟩
    have hcolon : ':' ∈ item.toList := by
      obtain ⟨blanks, rest, hitem, -⟩ := hlacks
      rw [hitem]
      simp
    obtain ⟨a, hread⟩ := Option.ne_none_iff_exists'.1
      (fun hnone => (item?_eq_none_iff.1 hnone).not_mem (by decide) hcolon)
    exact ⟨a, mem_parseList.2 ⟨item, hitem, hread⟩, (fqdn_eq_empty_iff hread).2 hlacks⟩

theorem mem_hosts : host ∈ hosts alternatives ↔ ∃ a ∈ alternatives, a.fqdn = host := by
  have h : host ∈ (Latest.latest id (alternatives.map fqdn)).map id ↔ host ∈ (alternatives.map fqdn).map id :=
    Latest.mem_keys_latest id
  rw [List.map_id, List.map_id] at h
  exact h.trans List.mem_map

/-! ## Hosts and certificates -/

theorem hosts_eq_eraseDups (alternatives : List AlternativeFqdn) :
    hosts alternatives = (alternatives.map fqdn).eraseDups := (Latest.eraseDups_eq_latest _).symm

theorem nodup_hosts (alternatives : List AlternativeFqdn) : (hosts alternatives).Nodup := by
  rw [hosts_eq_eraseDups]
  exact Latest.nodup_eraseDups _

/-- The default certificate comes before all others, and these are in the order of the bytes of their names. -/
def CertificateBefore : Option String → Option String → Prop := Option.lt (fun s t => Text.bytes s < Text.bytes t)

theorem mem_certificates {c : Option String} : c ∈ certificates alternatives ↔ c ∈ alternatives.map certificate := by
  unfold certificates
  cases c with
  | none =>
    by_cases h : ∃ a ∈ alternatives, a.certificate = none <;> simp [h]
  | some secret =>
    have hkeys : secret ∈ (Dict.ofList (alternatives.filterMap (fun a => a.certificate.map (fun s => (s, ()))))).keys ↔
        ∃ a ∈ alternatives, a.certificate = some secret := by
      rw [Dict.mem_keys_ofList]
      simp
    have hnone : some secret ∉ (if alternatives.any (fun a => a.certificate = none) then [none] else []) := by
      split <;> simp
    rw [List.mem_append, or_iff_right hnone, List.mem_map]
    simp only [Option.some.injEq, exists_eq_right, hkeys, List.mem_map]

theorem ordered_certificates (alternatives : List AlternativeFqdn) :
    (certificates alternatives).Pairwise CertificateBefore := by
  unfold certificates
  refine List.pairwise_append.2 ⟨?_, ?_, ?_⟩
  · split
    · exact List.pairwise_singleton _ _
    · exact .nil
  · exact List.pairwise_map.2 ((Dict.increasing_keys _).imp Text.bytes_lt_bytes)
  · intro c hc d hd
    obtain ⟨secret, -, rfl⟩ := List.mem_map.1 hd
    split at hc
    · rw [List.mem_singleton.1 hc]
      trivial
    · cases hc

theorem nodup_certificates (alternatives : List AlternativeFqdn) : (certificates alternatives).Nodup := by
  refine (ordered_certificates alternatives).imp (fun {c d} h => ?_)
  rintro rfl
  cases c with
  | none => exact h
  | some secret => exact List.lt_irrefl _ h

/-- The alternatives that a group serves: each of its hosts with the certificate. -/
def pairs (group : Option String × List String) : List AlternativeFqdn := group.2.map (fun host => ⟨host, group.1⟩)

theorem mem_group {c : Option String} : host ∈ hosts (alternatives.filter (fun a => a.certificate = c)) ↔
    ⟨host, c⟩ ∈ alternatives := by
  rw [mem_hosts]
  constructor
  · rintro ⟨⟨_, _⟩, ha, rfl⟩
    obtain ⟨ha, hc⟩ := List.mem_filter.1 ha
    rwa [← of_decide_eq_true hc]
  · intro h
    exact ⟨⟨host, c⟩, List.mem_filter.2 ⟨h, decide_eq_true rfl⟩, rfl⟩

/-- **The groups hold every alternative once.** -/
theorem perm_groups (alternatives : List AlternativeFqdn) :
    ((groups alternatives).flatMap pairs).Perm alternatives.eraseDups := by
  have hnodup : ((groups alternatives).flatMap pairs).Nodup := by
    refine List.nodup_flatMap.2 ⟨fun g hg => ?_, ?_⟩
    · obtain ⟨c, -, rfl⟩ := List.mem_map.1 hg
      exact (nodup_hosts _).map (fun _ _ h => congrArg fqdn h)
    · -- two groups have different certificates, and so have their pairs
      refine List.pairwise_map.2 ((nodup_certificates alternatives).imp (fun hne a ha ha' => hne ?_))
      obtain ⟨_, -, rfl⟩ := List.mem_map.1 ha
      obtain ⟨_, -, h⟩ := List.mem_map.1 ha'
      exact congrArg certificate h.symm
  refine (List.perm_ext_iff_of_nodup hnodup (Latest.nodup_eraseDups alternatives)).2 (fun a => ?_)
  rw [List.mem_eraseDups, List.mem_flatMap]
  constructor
  · rintro ⟨_, hg, ha⟩
    obtain ⟨c, -, rfl⟩ := List.mem_map.1 hg
    obtain ⟨host, hhost, rfl⟩ := List.mem_map.1 ha
    exact mem_group.1 hhost
  · intro ha
    refine ⟨_, List.mem_map_of_mem (mem_certificates.2 (List.mem_map_of_mem ha)), ?_⟩
    exact List.mem_map.2 ⟨a.fqdn, mem_group.2 ha, rfl⟩
end AlternativeFqdn
end ServiceExposure
