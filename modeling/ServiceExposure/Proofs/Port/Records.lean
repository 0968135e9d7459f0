import ServiceExposure.Port.Ownership
import ServiceExposure.Proofs.Json.RoundTrip
import ServiceExposure.Proofs.Port.Reading
/-!
# Ownership records

A record that was written is read back (`ExposedPorts.parse_render`), whatever texts name the protocols in it
(`ExposedPorts.recorded_reads_back`).  The annotation that holds it is known for one (`OwnershipRecords.isKey_key`) where the
common beginning leaves room for a letter or digit of the contributor's name.
-/
namespace ServiceExposure

/-! ## Reading back what was recorded -/

namespace Protocol

theorem ofName_name_of_isForwardable {p : Protocol} (h : p.isForwardable = true) : ofName p.name = p := by
  cases p with
  | tcp => decide
  | udp => decide
  | other n => cases h

theorem ofName_name_ofName (s : String) : ofName (ofName s).name = ofName s := by
  by_cases htcp : Text.sameIgnoringCase s "tcp" = true
  · have h : ofName s = .tcp := if_pos htcp
    rw [h]
    exact ofName_name_of_isForwardable rfl
  · by_cases hudp : Text.sameIgnoringCase s "udp" = true
    · have h : ofName s = .udp := (if_neg htcp).trans (if_pos hudp)
      rw [h]
      exact ofName_name_of_isForwardable rfl
    · have h : ofName s = .other s := (if_neg htcp).trans (if_neg hudp)
      rw [h]
      exact h

end Protocol

namespace ExposedPort

/-- The record that is written for a port. -/
def toRecord (p : ExposedPort) : PortRecord := ⟨p.protocol.name, p.port, p.targetPort⟩

variable {p : ExposedPort}

theorem toPort_toRecord (hp : Protocol.ofName p.protocol.name = p.protocol) : p.toRecord.toPort = p := by
  unfold toRecord PortRecord.toPort
  rw [hp]

theorem inRange_toRecord (hv : p.Valid) : p.toRecord.InRange :=
  ⟨PortRecord.isPortNumber_iff.1 hv.1, PortRecord.isPortNumber_iff.1 hv.2⟩

theorem spells_toJson (hv : p.Valid) : PortRecord.Spells p.toJson p.toRecord := by
  have hfits : ∀ {n : Int}, isPortNumber n = true → PortRecord.Fits n := fun hn => by
    have hrange := PortRecord.isPortNumber_iff.1 hn
    exact ⟨by omega, by omega⟩
  exact .members rfl rfl rfl (hfits hv.1) (hfits hv.2)

end ExposedPort

namespace ExposedPorts

open PortRecord (collect)

theorem ofName_name_of_mem_collect {records : List PortRecord} {p : ExposedPort} (hp : p ∈ (collect records).toList) :
    Protocol.ofName p.protocol.name = p.protocol := by
  obtain ⟨r, -, rfl⟩ := List.mem_map.1 (Latest.mem_of_mem_latest _ hp)
  exact Protocol.ofName_name_ofName r.protocol

/-- **Protocols are read as they would be recorded again.** -/
theorem ofName_name_of_parse {origin text : String} {ps : ExposedPorts} (h : parse origin text = .ok ps) :
    ∀ p ∈ ps.toList, Protocol.ofName p.protocol.name = p.protocol := by
  obtain ⟨records, -, -, rfl⟩ := exists_collect_of_parse h
  exact fun p hp => ofName_name_of_mem_collect hp

theorem isReadable_toJson (ps : ExposedPorts) : ps.toJson.isReadable = true := by
  have hall : ∀ qs : List ExposedPort, Json.areReadable (qs.map ExposedPort.toJson) = true := by
    intro qs
    induction qs with
    | nil => rfl
    | cons q qs ih => simp [Json.areReadable, Json.isReadable, Json.haveReadable, ExposedPort.toJson, ih]
  exact hall ps.toList

theorem decodes_render {ps : ExposedPorts} (hv : ps.Valid) :
    PortRecord.Decodes ps.render (ps.toList.map ExposedPort.toRecord) := by
  refine ⟨ps.toList.map ExposedPort.toJson, Json.parse?_render ps.isReadable_toJson, ?_⟩
  rw [List.forall₂_map_left_iff, List.forall₂_map_right_iff, List.forall₂_same]
  exact fun p hp => ExposedPort.spells_toJson (hv p hp)

theorem collect_map_toRecord {ps : ExposedPorts}
    (hp : ∀ p ∈ ps.toList, Protocol.ofName p.protocol.name = p.protocol) :
    collect (ps.toList.map ExposedPort.toRecord) = ps := by
  have hports : (ps.toList.map ExposedPort.toRecord).map PortRecord.toPort = ps.toList := by
    rw [List.map_map]
    exact (List.map_congr_left (fun p hmem => ExposedPort.toPort_toRecord (hp p hmem))).trans (List.map_id _)
  unfold collect ofList
  congr 1
  rw [hports]
  exact Latest.latest_of_nodup _ ps.nodup

/-- **Recorded ports are read back**, whatever annotation they are recorded in. -/
theorem parse_render {ps : ExposedPorts} (hv : ps.Valid)
    (hp : ∀ p ∈ ps.toList, Protocol.ofName p.protocol.name = p.protocol) (origin : String) :
    parse origin ps.render = .ok ps := by
  have hrange : ∀ r ∈ ps.toList.map ExposedPort.toRecord, r.InRange := fun r hr => by
    obtain ⟨p, hmem, rfl⟩ := List.mem_map.1 hr
    exact ExposedPort.inRange_toRecord (hv p hmem)
  rw [parse_of_inRange (decodes_render hv) hrange, collect_map_toRecord hp]

theorem parse_render_collect {records : List PortRecord} (hr : ∀ r ∈ records, r.InRange) (origin : String) :
    parse origin (collect records).render = .ok (collect records) :=
  parse_render (valid_collect hr) (fun _ hp => ofName_name_of_mem_collect hp) origin

/-- **Ports are recorded without loss.**  Whatever texts name their protocols, ports in range are read back from their
record; so what is read from any annotation is read again from the record of it. -/
theorem recorded_reads_back :
    (∀ records : List PortRecord, (∀ r ∈ records, r.InRange) →
      ∀ origin, parse origin (collect records).render = .ok (collect records)) ∧
    ∀ origin text ps, parse origin text = .ok ps → ∀ origin', parse origin' ps.render = .ok ps := by
  refine ⟨fun records hr origin => parse_render_collect hr origin, fun origin text ps h origin' => ?_⟩
  obtain ⟨records, -, hr, rfl⟩ := exists_collect_of_parse h
  exact parse_render_collect hr origin'

/-- A protocol that is written with quotes, a backslash, a control character and letters beyond ASCII. -/
theorem recorded_reads_back_odd_names :
    let records : List PortRecord := [⟨"tCp", 22, 2222⟩, ⟨"\"\\\u0001ß😀", 65535, 1⟩, ⟨"TCP", 22, 3333⟩]
    (∀ r ∈ records, r.InRange) ∧
      parse "ces-exposed-ports" (collect records).render = .ok (collect records) ∧
      parse "k8s.cloudogu.com/ces-exposed-ports-ldap" (collect records).render = .ok (collect records) := by
  intro records
  have hr : ∀ r ∈ records, r.InRange := by decide
  have hread := recorded_reads_back.1 records hr "ces-exposed-ports"
  exact ⟨hr, hread, recorded_reads_back.2 _ _ _ hread "k8s.cloudogu.com/ces-exposed-ports-ldap"⟩

/-- All ports can be forwarded. -/
def AllForwardable (ps : ExposedPorts) : Prop := ∀ p ∈ ps.toList, p.protocol.isForwardable = true

theorem allForwardable_forwardable (ps : ExposedPorts) : ps.forwardable.AllForwardable :=
  fun _ hp => (List.mem_filter.1 hp).2

theorem AllForwardable.forwardable_eq {ps : ExposedPorts} (h : ps.AllForwardable) : ps.forwardable = ps := by
  unfold forwardable filter
  congr 1
  exact List.filter_eq_self.2 h

theorem forwardable_forwardable (ps : ExposedPorts) : ps.forwardable.forwardable = ps.forwardable :=
  ps.allForwardable_forwardable.forwardable_eq

/-- The ports of a protocol that can be forwarded are among those that can be. -/
theorem withProtocol_eq (ps : ExposedPorts) {protocol : Protocol} (h : protocol.isForwardable = true) :
    (ps.withProtocol protocol).toList = ps.forwardable.toList.filter (fun p => p.protocol = protocol) := by
  unfold withProtocol forwardable filter
  rw [List.filter_filter]
  refine List.filter_congr (fun p _ => ?_)
  by_cases hp : p.protocol = protocol <;> simp [hp, h]

theorem parse_render_of_forwardable {ps : ExposedPorts} (hv : ps.Valid) (hf : ps.AllForwardable) (origin : String) :
    parse origin ps.render = .ok ps :=
  parse_render hv (fun p hp => Protocol.ofName_name_of_isForwardable (hf p hp)) origin

end ExposedPorts

/-! ## Annotations that hold records -/

namespace OwnershipRecords

/-- A name begins with a letter or a digit. -/
def BeginsAlphanum (name : String) : Prop := ∃ c cs, name.toList = c :: cs ∧ c.isAlphanum = true

instance : DecidablePred BeginsAlphanum := fun name =>
  decidable_of_iff (name.toList.head?.any Char.isAlphanum = true) (by
    unfold BeginsAlphanum
    cases name.toList with
    | nil => simp
    | cons c cs => simp)

theorem trimmed_append (xs ys : List Char) {c : Char} (hc : c.isAlphanum = true) :
    ∃ zs, ((xs ++ c :: ys).reverse.dropWhile (fun c => !c.isAlphanum)).reverse = xs ++ c :: zs := by
  have hsplit : (xs ++ c :: ys).reverse = ys.reverse ++ c :: xs.reverse := by simp
  have hstop : (c :: xs.reverse).dropWhile (fun c => !c.isAlphanum) = c :: xs.reverse :=
    List.dropWhile_cons_of_neg (by simp [hc])
  rw [hsplit, List.dropWhile_append, hstop]
  split
  · exact ⟨[], by simp⟩
  · exact ⟨(ys.reverse.dropWhile (fun c => !c.isAlphanum)).reverse, by simp⟩

/-- Where the common beginning leaves no room, all contributors share one annotation. -/
theorem key_eq_of_le_length {r : OwnershipRecords} (h : maxNameLength ≤ r.stem.length) (n n' : String) :
    r.key n = r.key n' := by
  have htake : ∀ name : String, (r.stem ++ name).toList.take maxNameLength = r.stem.toList.take maxNameLength := by
    intro name
    rw [String.toList_append]
    exact List.take_append_of_le_length (by rwa [String.length_toList])
  unfold key nameOf
  rw [htake, htake]

/-- **A contributor's annotation is known for a record.** -/
theorem isKey_key {r : OwnershipRecords} (hs : r.stem.length < maxNameLength) {name : String}
    (hn : BeginsAlphanum name) : r.isKey (r.key name) = true := by
  obtain ⟨c, cs, hname, hc⟩ := hn
  have htake : (r.stem ++ name).toList.take maxNameLength =
      r.stem.toList ++ c :: cs.take (maxNameLength - r.stem.length - 1) := by
    rw [String.toList_append, hname, List.take_append]
    have hlen : r.stem.toList.length = r.stem.length := String.length_toList
    rw [List.take_of_length_le (by omega), hlen]
    obtain ⟨k, hk⟩ : ∃ k, maxNameLength - r.stem.length = k + 1 := ⟨maxNameLength - r.stem.length - 1, by omega⟩
    rw [hk]
    rfl
  obtain ⟨zs, hz⟩ := trimmed_append r.stem.toList (cs.take (maxNameLength - r.stem.length - 1)) hc
  have hkey : r.key name = r.domain ++ "/" ++ r.stem ++ String.ofList (c :: zs) := by
    unfold key nameOf
    rw [htake, hz]
    apply String.toList_inj.1
    simp
  unfold isKey
  rw [hkey, Text.dropStem_eq_some_iff.2 rfl]
  rfl

/-- A record is written in one annotation only. -/
theorem get?_write (r : OwnershipRecords) (annotations : Dict String) (name : String) (ports : ExposedPorts) (k : String) :
    (r.write annotations name ports).get? k =
      if k = r.key name then (if ports.isEmpty then none else some ports.render) else annotations.get? k := by
  unfold write
  by_cases hk : k = r.key name
  · rw [if_pos hk, hk]
    split
    · exact Dict.get?_erase_self _ _
    · exact Dict.get?_insert_self _ _ _
  · rw [if_neg hk]
    split
    · exact Dict.get?_erase_ne _ hk
    · exact Dict.get?_insert_ne _ _ hk

/-- Annotations that leave out the contributor's are the same after it was written. -/
theorem filter_write (r : OwnershipRecords) (annotations : Dict String) (name : String) (ports : ExposedPorts)
    (keep : String → Bool) (hkeep : keep (r.key name) = false) :
    (r.write annotations name ports).filter (fun k _ => keep k) = annotations.filter (fun k _ => keep k) := by
  refine Dict.ext_get? (fun k => ?_)
  rw [Dict.get?_filter, Dict.get?_filter, get?_write]
  by_cases hk : k = r.key name
  · have hnone : ∀ o : Option String, o.filter (fun _ => keep k) = none := fun o => by
      cases o <;> simp [hk, hkeep]
    rw [hnone, hnone]
  · rw [if_neg hk]

theorem write_write (r : OwnershipRecords) (annotations : Dict String) (name : String) (ports : ExposedPorts) :
    r.write (r.write annotations name ports) name ports = r.write annotations name ports := by
  refine Dict.ext_get? (fun k => ?_)
  rw [get?_write r (r.write annotations name ports), get?_write]
  split <;> rfl

/-- **A contributor reads what it has written**, if its protocols are written as they would be read. -/
theorem read_write_of_named (r : OwnershipRecords) (annotations : Dict String) (name : String) {ports : ExposedPorts}
    (hv : ports.Valid) (hp : ∀ p ∈ ports.toList, Protocol.ofName p.protocol.name = p.protocol) :
    r.read (r.write annotations name ports) name = .ok ports := by
  unfold read
  rw [get?_write, if_pos rfl]
  by_cases he : ports.isEmpty = true
  · rw [if_pos he, ExposedPorts.eq_empty_iff.2 (ExposedPorts.isEmpty_iff.1 he)]
  · rw [if_neg he]
    exact ExposedPorts.parse_render hv hp _

theorem read_write (r : OwnershipRecords) (annotations : Dict String) (name : String) {ports : ExposedPorts}
    (hv : ports.Valid) (hf : ports.AllForwardable) : r.read (r.write annotations name ports) name = .ok ports :=
  r.read_write_of_named annotations name hv (fun p hp => Protocol.ofName_name_of_isForwardable (hf p hp))

/-- Whatever is on record is in range, and its protocols are written as they would be recorded again. -/
theorem of_read {r : OwnershipRecords} {annotations : Dict String} {name : String} {ports : ExposedPorts}
    (h : r.read annotations name = .ok ports) :
    ports.Valid ∧ ∀ p ∈ ports.toList, Protocol.ofName p.protocol.name = p.protocol := by
  unfold read at h
  split at h
  · exact ⟨ExposedPorts.parse_valid h, ExposedPorts.ofName_name_of_parse h⟩
  · cases h
    exact ⟨ExposedPorts.valid_empty, nofun⟩

/-- What a contributor writes does not matter to what it finds of the others. -/
theorem readOthers_write (r : OwnershipRecords) (annotations : Dict String) (name : String) (ports : ExposedPorts) :
    r.readOthers (r.write annotations name ports) name = r.readOthers annotations name := by
  have hothers : (r.write annotations name ports).filter (fun k _ => k ≠ r.key name && r.isKey k) =
      annotations.filter (fun k _ => k ≠ r.key name && r.isKey k) :=
    r.filter_write annotations name ports (fun k => k ≠ r.key name && r.isKey k) (by simp)
  have hpairs : (r.write annotations name ports).toList.filter (fun p => p.1 ≠ r.key name && r.isKey p.1) =
      annotations.toList.filter (fun p => p.1 ≠ r.key name && r.isKey p.1) := congrArg Dict.toList hothers
  unfold readOthers
  rw [hpairs]

end OwnershipRecords
end ServiceExposure
