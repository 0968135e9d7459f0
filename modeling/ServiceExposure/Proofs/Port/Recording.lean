import Mathlib.Data.List.DropRight
import ServiceExposure.Proofs.Dict
import ServiceExposure.Proofs.Port.Records
/-!
# Recording ports

The name part of a key is cut and trimmed, recognised by its beginning, and holds JSON; the three agree for every name that
begins with a letter or a digit.  Whatever annotations there are, writing a record changes what is read of its contributor
and nothing else (`OwnershipRecords.write_lawful`): other contributors find the record at the place of its key, among those
that they have found before.
-/
namespace ServiceExposure
namespace OwnershipRecords

variable {r : OwnershipRecords} {annotations : Dict String} {name name' : String} {found : List ExposedPorts}

/-! ## Keys -/

/-- A name ends in a letter or a digit. -/
def EndsAlphanum (name : String) : Prop := ∃ cs c, name.toList = cs ++ [c] ∧ c.isAlphanum = true

theorem toList_nameOf (r : OwnershipRecords) (name : String) : (r.nameOf name).toList =
    ((r.stem ++ name).toList.take maxNameLength).rdropWhile (fun c => !c.isAlphanum) := String.toList_ofList

theorem length_nameOf_le (r : OwnershipRecords) (name : String) : (r.nameOf name).length ≤ maxNameLength := by
  rw [← String.length_toList, toList_nameOf]
  exact (List.rdropWhile_prefix _ _).length_le.trans (List.length_take_le _ _)

/-- **The name part of a key ends in a letter or a digit**, where there is room for that of the contributor. -/
theorem endsAlphanum_nameOf (hs : r.stem.length < maxNameLength) (hn : BeginsAlphanum name) :
    EndsAlphanum (r.nameOf name) := by
  obtain ⟨c, cs, hname, hc⟩ := hn
  have hmem : c ∈ (r.stem ++ name).toList.take maxNameLength := by
    rw [String.toList_append, hname, List.take_append, String.length_toList]
    refine List.mem_append_right _ ?_
    obtain ⟨k, hk⟩ : ∃ k, maxNameLength - r.stem.length = k + 1 := ⟨maxNameLength - r.stem.length - 1, by omega⟩
    rw [hk]
    exact List.mem_cons_self
  have hne : ((r.stem ++ name).toList.take maxNameLength).rdropWhile (fun c => !c.isAlphanum) ≠ [] := fun h => by
    have hall := List.rdropWhile_eq_nil_iff.1 h c hmem
    rw [hc] at hall
    cases hall
  refine ⟨_, _, (toList_nameOf r name).trans (List.dropLast_concat_getLast hne).symm, ?_⟩
  simpa using List.rdropWhile_last_not _ _ hne

/-- A name that fits is not cut. -/
theorem nameOf_of_fits (hfits : r.stem.length + name.length ≤ maxNameLength) (he : EndsAlphanum name) :
    r.nameOf name = r.stem ++ name := by
  obtain ⟨cs, c, hname, hc⟩ := he
  refine String.toList_inj.1 ?_
  rw [toList_nameOf, List.take_of_length_le (by rw [String.length_toList, String.length_append]; exact hfits),
    String.toList_append, hname, ← List.append_assoc, List.rdropWhile_concat_neg _ _ _ (by simp [hc])]

/-- **Names that fit have different keys.** -/
theorem key_ne_of_fits (hfits : r.stem.length + name.length ≤ maxNameLength) (he : EndsAlphanum name)
    (hfits' : r.stem.length + name'.length ≤ maxNameLength) (he' : EndsAlphanum name') (hne : name ≠ name') :
    r.key name ≠ r.key name' := by
  intro h
  unfold key at h
  rw [nameOf_of_fits hfits he, nameOf_of_fits hfits' he', String.append_right_inj, String.append_right_inj] at h
  exact hne h

/-! ## What others find -/

theorem mapM_append_eq_ok_iff {α β ε : Type} {f : α → Except ε β} {xs ys : List α} {zs : List β} :
    (xs ++ ys).mapM f = .ok zs ↔ ∃ us vs, xs.mapM f = .ok us ∧ ys.mapM f = .ok vs ∧ zs = us ++ vs := by
  rw [List.mapM_append]
  constructor
  · intro h
    cases hx : xs.mapM f with
    | error e =>
      rw [hx] at h
      cases h
    | ok us =>
      cases hy : ys.mapM f with
      | error e =>
        rw [hx, hy] at h
        cases h
      | ok vs =>
        rw [hx, hy] at h
        cases h
        exact ⟨us, vs, rfl, rfl, rfl⟩
  · rintro ⟨us, vs, hx, hy, rfl⟩
    rw [hx, hy]
    rfl

/-- A contributor's record, if there is one. -/
def record? (r : OwnershipRecords) (annotations : Dict String) (name : String) : Except ParseError (Option ExposedPorts) :=
  match annotations.get? (r.key name) with
  | some text => (ExposedPorts.parse (r.key name) text).map some
  | none => .ok none

/-- The annotations before the contributor's. -/
def before (r : OwnershipRecords) (annotations : Dict String) (name : String) : Dict String :=
  annotations.filter (fun k _ => k < r.key name)

/-- The annotations after the contributor's. -/
def after (r : OwnershipRecords) (annotations : Dict String) (name : String) : Dict String :=
  annotations.filter (fun k _ => r.key name < k)

/-- The annotation that holds a contributor's record, if there is one. -/
def own (r : OwnershipRecords) (annotations : Dict String) (name : String) : List (String × String) :=
  ((annotations.get? (r.key name)).map (fun text => (r.key name, text))).toList

theorem mapM_own_eq_ok_iff : (r.own annotations name).mapM (fun p => ExposedPorts.parse p.1 p.2) = .ok found ↔
    ∃ record, r.record? annotations name = .ok record ∧ found = record.toList := by
  unfold own record?
  cases annotations.get? (r.key name) with
  | none =>
    constructor
    · rintro ⟨⟩
      exact ⟨none, rfl, rfl⟩
    · rintro ⟨_, ⟨⟩, rfl⟩
      rfl
  | some text =>
    cases hparse : ExposedPorts.parse (r.key name) text with
    | error e =>
      simp [hparse, Except.map, bind, Except.bind]
    | ok ports =>
      simp [hparse, Except.map, bind, Except.bind, pure, Except.pure, eq_comm]

/-- **Among the records that somebody finds of others**, that of a contributor is at the place of its key. -/
theorem readOthers_eq_ok_iff (hkey : r.isKey (r.key name) = true) (hne : r.key name ≠ r.key name') :
    r.readOthers annotations name' = .ok found ↔
      ∃ earlier record later, r.readOthers (r.before annotations name) name' = .ok earlier ∧
        r.record? annotations name = .ok record ∧ r.readOthers (r.after annotations name) name' = .ok later ∧
        found = earlier ++ record.toList ++ later := by
  have hown : (r.own annotations name).filter (fun p => p.1 ≠ r.key name' && r.isKey p.1) = r.own annotations name := by
    refine List.filter_eq_self.2 (fun p hp => ?_)
    unfold own at hp
    rw [Option.mem_toList, Option.map_eq_some_iff] at hp
    obtain ⟨text, -, rfl⟩ := hp
    simp [hkey, hne]
  have hparts : annotations.toList =
      (r.before annotations name).toList ++ r.own annotations name ++ (r.after annotations name).toList :=
    annotations.toList_eq_parts (r.key name)
  unfold readOthers
  rw [hparts, List.filter_append, List.filter_append, hown, mapM_append_eq_ok_iff]
  simp only [mapM_append_eq_ok_iff, mapM_own_eq_ok_iff]
  constructor
  · rintro ⟨_, later, ⟨earlier, _, hearlier, ⟨record, hrecord, rfl⟩, rfl⟩, hlater, rfl⟩
    exact ⟨earlier, record, later, hearlier, hrecord, hlater, rfl⟩
  · rintro ⟨earlier, record, later, hearlier, hrecord, hlater, rfl⟩
    exact ⟨_, later, ⟨earlier, _, hearlier, ⟨record, hrecord, rfl⟩, rfl⟩, hlater, rfl⟩

/-! ## Writing a record -/

theorem before_write (r : OwnershipRecords) (annotations : Dict String) (name : String) (ports : ExposedPorts) :
    r.before (r.write annotations name ports) name = r.before annotations name :=
  r.filter_write annotations name ports _ (decide_eq_false (String.lt_irrefl _))

theorem after_write (r : OwnershipRecords) (annotations : Dict String) (name : String) (ports : ExposedPorts) :
    r.after (r.write annotations name ports) name = r.after annotations name :=
  r.filter_write annotations name ports _ (decide_eq_false (String.lt_irrefl _))

theorem record?_write (r : OwnershipRecords) (annotations : Dict String) (name : String) {ports : ExposedPorts}
    (hv : ports.Valid) (hp : ∀ p ∈ ports.toList, Protocol.ofName p.protocol.name = p.protocol) :
    r.record? (r.write annotations name ports) name = .ok (if ports.isEmpty then none else some ports) := by
  unfold record?
  rw [get?_write, if_pos rfl]
  by_cases he : ports.isEmpty = true
  · rw [if_pos he, if_pos he]
  · rw [if_neg he, if_neg he]
    dsimp only
    rw [ExposedPorts.parse_render hv hp]
    rfl

theorem read_write_of_ne (annotations : Dict String) (ports : ExposedPorts) (hne : r.key name ≠ r.key name') :
    r.read (r.write annotations name ports) name' = r.read annotations name' := by
  unfold read
  rw [get?_write, if_neg hne.symm]

/-- What recording ports for a contributor changes and what it leaves, also as another contributor finds it. -/
structure Lawful (r : OwnershipRecords) (annotations : Dict String) (name other : String) (ports : ExposedPorts) :
    Prop where
  /-- The key can be the name of an annotation. -/
  keyed : ∃ part, r.key name = r.domain ++ "/" ++ part ∧ part.length ≤ 63 ∧ EndsAlphanum part
  /-- Names that fit beside the common beginning are told apart by their keys. -/
  separates : name ≠ other → r.stem.length + name.length ≤ 63 → EndsAlphanum name →
    r.stem.length + other.length ≤ 63 → EndsAlphanum other → r.key name ≠ r.key other
  reads : r.read (r.write annotations name ports) name = .ok ports
  /-- All other annotations stay, whatever they are. -/
  frame : ∀ k, k ≠ r.key name → (r.write annotations name ports).get? k = annotations.get? k
  other_reads : r.key name ≠ r.key other → r.read (r.write annotations name ports) other = r.read annotations other
  /-- The other finds the new record in the place of the old one, or neither where there is none. -/
  other_finds : r.key name ≠ r.key other → ∀ found, r.readOthers annotations other = .ok found →
    ∃ earlier record later, r.readOthers (r.before annotations name) other = .ok earlier ∧
      r.record? annotations name = .ok record ∧ r.readOthers (r.after annotations name) other = .ok later ∧
      found = earlier ++ record.toList ++ later ∧
      r.readOthers (r.write annotations name ports) other =
        .ok (earlier ++ (if ports.isEmpty then [] else [ports]) ++ later)

/-- **Recording is lawful**, whatever annotations there are and whatever texts name the protocols. -/
theorem write_lawful (r : OwnershipRecords) (hs : r.stem.length < 63) (annotations : Dict String) {name : String}
    (hn : BeginsAlphanum name) (other : String) {records : List PortRecord} (hr : ∀ q ∈ records, q.InRange) :
    r.Lawful annotations name other (PortRecord.collect records) := by
  have hv := ExposedPorts.valid_collect hr
  have hp : ∀ p ∈ (PortRecord.collect records).toList, Protocol.ofName p.protocol.name = p.protocol := fun p hp =>
    ExposedPorts.ofName_name_of_mem_collect hp
  constructor
  case keyed => exact ⟨r.nameOf name, rfl, length_nameOf_le r name, endsAlphanum_nameOf hs hn⟩
  case separates => exact fun hne hfits he hfits' he' => key_ne_of_fits hfits he hfits' he' hne
  case reads => exact read_write_of_named r annotations name hv hp
  case frame =>
    intro k hk
    rw [get?_write, if_neg hk]
  case other_reads => exact fun hne => read_write_of_ne annotations _ hne
  case other_finds =>
    intro hne found hfound
    have hkey := isKey_key hs hn
    obtain ⟨earlier, record, later, hearlier, hrecord, hlater, rfl⟩ := (readOthers_eq_ok_iff hkey hne).1 hfound
    refine ⟨earlier, record, later, hearlier, hrecord, hlater, rfl, (readOthers_eq_ok_iff hkey hne).2 ?_⟩
    refine ⟨earlier, _, later, ?_, record?_write r annotations name hv hp, ?_, ?_⟩
    · rw [before_write]
      exact hearlier
    · rw [after_write]
      exact hlater
    · split <;> rfl

/-- A record that takes the place of another, between those of two other contributors. -/
theorem write_lawful_ldap :
    let annotations : Dict String := .ofList
      [("k8s.cloudogu.com/ces-exposed-ports-cas", "[]"), ("k8s.cloudogu.com/ces-exposed-ports-ldap", "[[\"TCP\",389,389]]"),
       ("k8s.cloudogu.com/ces-exposed-ports-scm", "[[\"tcp\",22,2222]]")]
    let records : List PortRecord := [⟨"Tcp", 636, 636⟩, ⟨"udp", 389, 389⟩]
    let found (annotations : Dict String) :=
      (standard.readOthers annotations "cas").toOption.map (·.map ExposedPorts.toList)
    standard.stem.length < 63 ∧ BeginsAlphanum "ldap" ∧ (∀ q ∈ records, q.InRange) ∧
      standard.Lawful annotations "ldap" "cas" (PortRecord.collect records) ∧ standard.key "ldap" ≠ standard.key "cas" ∧
      found annotations = some [[⟨.tcp, 389, 389⟩], [⟨.tcp, 22, 2222⟩]] ∧
      found (standard.write annotations "ldap" (PortRecord.collect records)) =
        some [[⟨.tcp, 636, 636⟩, ⟨.udp, 389, 389⟩], [⟨.tcp, 22, 2222⟩]] := by
  intro annotations records found
  have hs : standard.stem.length < 63 := by decide
  have hn : BeginsAlphanum "ldap" := by decide
  have hr : ∀ q ∈ records, q.InRange := by decide
  refine ⟨hs, hn, hr, write_lawful standard hs annotations hn "cas" hr, by decide, ?_, ?_⟩
  · decide +kernel
  · decide +kernel

end OwnershipRecords
end ServiceExposure
