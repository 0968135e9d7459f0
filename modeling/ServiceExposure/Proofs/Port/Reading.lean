import Mathlib.Data.List.Forall2
import ServiceExposure.Proofs.Json.RoundTrip
import ServiceExposure.Proofs.Merge.Laws
import ServiceExposure.Proofs.Port.Valid
/-!
# Records as they are written

A record names its protocol by any text and has two numbers (`PortRecord`); an annotation is a list of them, each an object
or a list of three values (`PortRecord.Decodes`).  One record out of range spoils the annotation, and the first of them is
reported.  Otherwise there is one port for each number and protocol, where it is recorded first and as it is recorded last
(`ExposedPorts.parse_reading`).
-/
namespace ServiceExposure

/-! ## Spellings of protocols -/

namespace Protocol

/-- Both name TCP, or both name UDP, in any case; other protocols are named in one way only. -/
def SameName (s t : String) : Prop :=
  s = t ∨ ∃ name ∈ ["tcp", "udp"], Text.sameIgnoringCase s name = true ∧ Text.sameIgnoringCase t name = true

theorem not_both {s : String} (htcp : Text.sameIgnoringCase s "tcp" = true) : Text.sameIgnoringCase s "udp" = false := by
  have hlower : s.toList.map Char.toLower = "tcp".toList.map Char.toLower := of_decide_eq_true htcp
  unfold Text.sameIgnoringCase
  rw [hlower]
  decide

theorem ofName_eq_tcp_iff {s : String} : ofName s = .tcp ↔ Text.sameIgnoringCase s "tcp" = true := by
  unfold ofName
  split
  · simp [*]
  · split <;> simp [*]

theorem ofName_eq_udp_iff {s : String} : ofName s = .udp ↔ Text.sameIgnoringCase s "udp" = true := by
  unfold ofName
  split
  case isTrue htcp => simp [not_both htcp]
  case isFalse => split <;> simp [*]

theorem ofName_eq_other_iff {s n : String} : ofName s = .other n ↔
    s = n ∧ Text.sameIgnoringCase s "tcp" = false ∧ Text.sameIgnoringCase s "udp" = false := by
  unfold ofName
  split
  case isTrue htcp => simp [htcp]
  case isFalse => split <;> simp [*]

/-- **Protocols are compared by their names**, where the case counts for others than TCP and UDP only. -/
theorem ofName_eq_iff {s t : String} : ofName s = ofName t ↔ SameName s t := by
  constructor
  · intro h
    cases ht : ofName t with
    | tcp =>
      rw [ht] at h
      exact .inr ⟨"tcp", by simp, ofName_eq_tcp_iff.1 h, ofName_eq_tcp_iff.1 ht⟩
    | udp =>
      rw [ht] at h
      exact .inr ⟨"udp", by simp, ofName_eq_udp_iff.1 h, ofName_eq_udp_iff.1 ht⟩
    | other n =>
      rw [ht] at h
      exact .inl ((ofName_eq_other_iff.1 h).1.trans (ofName_eq_other_iff.1 ht).1.symm)
  · rintro (rfl | ⟨name, hname, hs, ht⟩)
    · rfl
    · simp only [List.mem_cons, List.not_mem_nil, or_false] at hname
      rcases hname with rfl | rfl
      · rw [ofName_eq_tcp_iff.2 hs, ofName_eq_tcp_iff.2 ht]
      · rw [ofName_eq_udp_iff.2 hs, ofName_eq_udp_iff.2 ht]

end Protocol

/-! ## Records as they are written -/

/-- A record as it is written, whose protocol is any text. -/
structure PortRecord where
  protocol : String
  port : Int
  targetPort : Int
deriving DecidableEq

namespace PortRecord

variable {r q : PortRecord} {records : List PortRecord} {text : String}

/-- The number fits 32 bits with a sign. -/
def Fits (n : Int) : Prop := -2147483648 ≤ n ∧ n ≤ 2147483647

instance : DecidablePred Fits := fun _ => inferInstanceAs (Decidable (_ ∧ _))

/-- A value that is written for a record. -/
inductive Spells : Json → PortRecord → Prop
  /-- An object with each of the three members once; others may stand beside them. -/
  | members {members : List (String × Json)} {protocol : String} {port targetPort : Int} :
    members.filter (fun m => m.1 = "protocol") = [("protocol", .str protocol)] →
    members.filter (fun m => m.1 = "port") = [("port", .int port)] →
    members.filter (fun m => m.1 = "targetPort") = [("targetPort", .int targetPort)] →
    Fits port → Fits targetPort → Spells (.obj members) ⟨protocol, port, targetPort⟩
  /-- A list of the three values. -/
  | values {protocol : String} {port targetPort : Int} : Fits port → Fits targetPort →
    Spells (.arr [.str protocol, .int port, .int targetPort]) ⟨protocol, port, targetPort⟩

/-- A text that is a JSON list of records. -/
def Decodes (text : String) (records : List PortRecord) : Prop :=
  ∃ items, Json.parse? text = some (.arr items) ∧ List.Forall₂ Spells items records

/-- The port that a record is for. -/
def toPort (r : PortRecord) : ExposedPort := ⟨.ofName r.protocol, r.port, r.targetPort⟩

/-- The port and its target are in 1..=65535. -/
def InRange (r : PortRecord) : Prop := (1 ≤ r.port ∧ r.port ≤ 65535) ∧ 1 ≤ r.targetPort ∧ r.targetPort ≤ 65535

instance : DecidablePred InRange := fun _ => inferInstanceAs (Decidable (_ ∧ _))

/-- The number that is out of range: that of the port, or else that of its target. -/
def culprit (r : PortRecord) : Int := if 1 ≤ r.port ∧ r.port ≤ 65535 then r.targetPort else r.port

/-- Two records are for the same port. -/
def SamePort (r q : PortRecord) : Prop := r.port = q.port ∧ Protocol.SameName r.protocol q.protocol

/-- The ports that are recorded. -/
def collect (records : List PortRecord) : ExposedPorts := .ofList (records.map toPort)

theorem id_toPort_eq_iff : r.toPort.id = q.toPort.id ↔ r.SamePort q := by
  unfold SamePort
  rw [← Protocol.ofName_eq_iff, and_comm]
  exact PortId.mk.injEq .. ▸ Iff.rfl

theorem isPortNumber_iff {n : Int} : isPortNumber n = true ↔ 1 ≤ n ∧ n ≤ 65535 := by simp [isPortNumber]

theorem valid_toPort_iff : r.toPort.Valid ↔ r.InRange := and_congr isPortNumber_iff isPortNumber_iff

theorem outOfRange?_toPort (r : PortRecord) : r.toPort.outOfRange? = if r.InRange then none else some r.culprit := by
  have hport : isPortNumber r.toPort.port = true ↔ 1 ≤ r.port ∧ r.port ≤ 65535 := isPortNumber_iff
  by_cases h : r.InRange
  · rw [if_pos h]
    exact ExposedPort.valid_iff.1 (valid_toPort_iff.2 h)
  · rw [if_neg h]
    unfold ExposedPort.outOfRange? culprit
    by_cases hp : 1 ≤ r.port ∧ r.port ≤ 65535
    · have ht : isPortNumber r.toPort.targetPort = false :=
        Bool.eq_false_iff.2 (fun ht => h ⟨hp, isPortNumber_iff.1 ht⟩)
      rw [hport.2 hp, ht, if_pos hp]
      rfl
    · rw [Bool.eq_false_iff.2 (fun h' => hp (hport.1 h')), if_neg hp]
      rfl

/-! ## Reading a record -/

theorem int32?_eq_some_iff {j : Json} {n : Int} : j.int32? = some n ↔ j = .int n ∧ Fits n := by
  unfold Json.int32? Json.intIn? Fits
  cases j with
  | int m =>
    dsimp only
    split
    case isTrue h =>
      constructor
      · rintro ⟨⟩
        exact ⟨rfl, h⟩
      · rintro ⟨⟨⟩, -⟩
        rfl
    case isFalse h =>
      refine ⟨nofun, ?_⟩
      rintro ⟨⟨⟩, h'⟩
      exact absurd h' h
  | _ => simp

theorem text?_eq_some_iff {j : Json} {s : String} : j.text? = some s ↔ j = .str s := by
  cases j <;> simp [Json.text?]

theorem sole?_eq_some_iff {name : String} {members : List (String × Json)} {j : Json} :
    Json.sole? name members = some j ↔ members.filter (fun m => m.1 = name) = [(name, j)] := by
  unfold Json.sole?
  constructor
  · intro h
    split at h
    case h_1 m hm =>
      cases h
      have hname : m.1 = name := by
        have hmem : m ∈ members.filter (fun m => m.1 = name) := by
          rw [hm]
          exact List.mem_singleton_self m
        exact of_decide_eq_true (List.mem_filter.1 hmem).2
      rw [hm, ← hname]
    case h_2 => cases h
  · intro h
    rw [h]

theorem ofJson?_eq_some_iff {j : Json} {p : ExposedPort} :
    ExposedPort.ofJson? j = some p ↔ ∃ r, Spells j r ∧ r.toPort = p := by
  constructor
  · intro h
    unfold ExposedPort.ofJson? at h
    split at h
    · simp only [Option.bind_eq_bind, Option.bind_eq_some_iff, Option.pure_def, Option.some.injEq, sole?_eq_some_iff,
        text?_eq_some_iff, int32?_eq_some_iff] at h
      obtain ⟨_, hprotocol, _, rfl, _, hport, _, ⟨rfl, hfits⟩, _, htarget, _, ⟨rfl, hfits'⟩, rfl⟩ := h
      exact ⟨_, .members hprotocol hport htarget hfits hfits', rfl⟩
    · simp only [Option.bind_eq_bind, Option.bind_eq_some_iff, Option.pure_def, Option.some.injEq, text?_eq_some_iff,
        int32?_eq_some_iff] at h
      obtain ⟨_, rfl, _, ⟨rfl, hfits⟩, _, ⟨rfl, hfits'⟩, rfl⟩ := h
      exact ⟨_, .values hfits hfits', rfl⟩
    · cases h
  · rintro ⟨r, hspells, rfl⟩
    cases hspells with
    | members hprotocol hport htarget hfits hfits' =>
      simp [ExposedPort.ofJson?, sole?_eq_some_iff.2 hprotocol, sole?_eq_some_iff.2 hport, sole?_eq_some_iff.2 htarget,
        text?_eq_some_iff.2 rfl, int32?_eq_some_iff.2 ⟨rfl, hfits⟩, int32?_eq_some_iff.2 ⟨rfl, hfits'⟩, toPort]
    | values hfits hfits' =>
      simp [ExposedPort.ofJson?, text?_eq_some_iff.2 rfl, int32?_eq_some_iff.2 ⟨rfl, hfits⟩,
        int32?_eq_some_iff.2 ⟨rfl, hfits'⟩, toPort]

theorem mapM_ofJson?_eq_some_iff : ∀ {items : List Json} {ports : List ExposedPort},
    items.mapM ExposedPort.ofJson? = some ports ↔ ∃ records, List.Forall₂ Spells items records ∧ ports = records.map toPort
  | [], ports => by
    constructor
    · rintro ⟨⟩
      exact ⟨[], .nil, rfl⟩
    · rintro ⟨_, ⟨⟩, rfl⟩
      rfl
  | j :: items, ports => by
    simp only [List.mapM_cons, Option.bind_eq_bind, Option.bind_eq_some_iff, Option.pure_def, Option.some.injEq,
      mapM_ofJson?_eq_some_iff, ofJson?_eq_some_iff]
    constructor
    · rintro ⟨_, ⟨r, hr, rfl⟩, _, ⟨records, hrecords, rfl⟩, rfl⟩
      exact ⟨r :: records, .cons hr hrecords, rfl⟩
    · rintro ⟨_, hall, rfl⟩
      cases hall with
      | cons hr hrecords => exact ⟨_, ⟨_, hr, rfl⟩, _, ⟨_, hrecords, rfl⟩, rfl⟩

theorem records?_eq_some_iff {ports : List ExposedPort} :
    ExposedPorts.records? text = some ports ↔ ∃ records, Decodes text records ∧ ports = records.map toPort := by
  unfold ExposedPorts.records? Decodes
  split
  case h_1 items hparse => simp [hparse, mapM_ofJson?_eq_some_iff]
  case h_2 hnone =>
    refine ⟨nofun, ?_⟩
    rintro ⟨_, ⟨items, hparse, -⟩, -⟩
    exact absurd hparse (hnone items)

theorem exists_first_not {P : PortRecord → Prop} [DecidablePred P] (h : ∃ r ∈ records, ¬ P r) :
    ∃ before r after, records = before ++ r :: after ∧ (∀ q ∈ before, P q) ∧ ¬ P r := by
  obtain ⟨r, hr, hn⟩ := h
  cases hfind : records.find? (fun r => ¬ P r) with
  | none => exact absurd hn (by simpa using List.find?_eq_none.1 hfind r hr)
  | some first =>
    obtain ⟨hfirst, before, after, hsplit, hbefore⟩ := List.find?_eq_some_iff_append.1 hfind
    exact ⟨before, first, after, hsplit, fun q hq => by simpa using hbefore q hq, by simpa using hfirst⟩

end PortRecord

/-! ## What is read -/

namespace ExposedPorts

open PortRecord (Decodes collect toPort)

variable {origin text : String} {records : List PortRecord} {ps : ExposedPorts}

/-- Records that are all in range are read. -/
theorem parse_of_inRange (h : Decodes text records) (hr : ∀ r ∈ records, r.InRange) (origin : String) :
    parse origin text = .ok (collect records) := by
  have hrange : (records.map toPort).findSome? ExposedPort.outOfRange? = none := by
    refine List.findSome?_eq_none_iff.2 (fun p hp => ?_)
    obtain ⟨r, hmem, rfl⟩ := List.mem_map.1 hp
    rw [PortRecord.outOfRange?_toPort, if_pos (hr r hmem)]
  unfold parse
  rw [PortRecord.records?_eq_some_iff.2 ⟨records, h, rfl⟩]
  simp only [hrange]
  rfl

/-- The first record that is out of range is reported, whatever comes after it. -/
theorem parse_of_not_inRange {before after : List PortRecord} {r : PortRecord} (h : Decodes text (before ++ r :: after))
    (hbefore : ∀ q ∈ before, q.InRange) (hr : ¬ r.InRange) (origin : String) :
    parse origin text = .error (.portRange origin r.culprit) := by
  have hrange : ((before ++ r :: after).map toPort).findSome? ExposedPort.outOfRange? = some r.culprit := by
    rw [List.map_append, List.map_cons]
    refine List.findSome?_eq_some_iff.2 ⟨_, _, _, rfl, ?_, fun p hp => ?_⟩
    · rw [PortRecord.outOfRange?_toPort, if_neg hr]
    · obtain ⟨q, hq, rfl⟩ := List.mem_map.1 hp
      rw [PortRecord.outOfRange?_toPort, if_pos (hbefore q hq)]
  unfold parse
  rw [PortRecord.records?_eq_some_iff.2 ⟨_, h, rfl⟩]
  simp only [hrange]

/-- Whatever is read was recorded, in range. -/
theorem exists_collect_of_parse (h : parse origin text = .ok ps) :
    ∃ records, Decodes text records ∧ (∀ r ∈ records, r.InRange) ∧ ps = collect records := by
  cases hrecords : records? text with
  | none =>
    unfold parse at h
    rw [hrecords] at h
    cases h
  | some ports =>
    obtain ⟨records, hdecodes, -⟩ := PortRecord.records?_eq_some_iff.1 hrecords
    have hall : ∀ r ∈ records, r.InRange := by
      refine Classical.byContradiction (fun hn => ?_)
      simp only [not_forall, exists_prop] at hn
      obtain ⟨before, r, after, rfl, hbefore, hr⟩ := PortRecord.exists_first_not hn
      rw [parse_of_not_inRange hdecodes hbefore hr] at h
      cases h
    rw [parse_of_inRange hdecodes hall] at h
    cases h
    exact ⟨records, hdecodes, hall, rfl⟩

theorem valid_collect (hr : ∀ r ∈ records, r.InRange) : (collect records).Valid := by
  intro p hp
  obtain ⟨r, hmem, rfl⟩ := List.mem_map.1 (Latest.mem_of_mem_latest _ hp)
  exact PortRecord.valid_toPort_iff.2 (hr r hmem)

/-! ## One port for each identity -/

/-- The ports are those of the records: each is where it is recorded first, and as it is recorded last. -/
structure Collects (ps : ExposedPorts) (records : List PortRecord) : Prop where
  ids : ps.ids = (records.map (fun r => r.toPort.id)).eraseDups
  /-- Records are told apart by the port and the name of the protocol. -/
  same : ∀ r ∈ records, ∀ q ∈ records, r.toPort.id = q.toPort.id ↔ r.SamePort q
  last : ∀ p, p ∈ ps.toList ↔
    ∃ before r after, records = before ++ r :: after ∧ (∀ q ∈ after, ¬ q.SamePort r) ∧ p = r.toPort

theorem collects_collect (records : List PortRecord) : (collect records).Collects records := by
  constructor
  case ids =>
    have hids := Latest.map_key_latest ExposedPort.id (records.map toPort)
    rw [List.map_map] at hids
    exact hids
  case same => exact fun r _ q _ => PortRecord.id_toPort_eq_iff
  case last =>
    intro p
    have hlast : p ∈ (collect records).toList ↔ ∃ before after, records.map toPort = before ++ p :: after ∧
        ∀ y ∈ after, y.id ≠ p.id := Latest.mem_latest_iff ExposedPort.id
    refine hlast.trans ?_
    constructor
    · rintro ⟨_, _, hsplit, hafter⟩
      obtain ⟨before, rest, rfl, rfl, hrest⟩ := List.map_eq_append_iff.1 hsplit
      obtain ⟨r, after, rfl, rfl, rfl⟩ := List.map_eq_cons_iff.1 hrest
      exact ⟨before, r, after, rfl, fun q hq hsame =>
        hafter _ (List.mem_map_of_mem hq) (PortRecord.id_toPort_eq_iff.2 hsame), rfl⟩
    · rintro ⟨before, r, after, rfl, hafter, rfl⟩
      refine ⟨before.map toPort, after.map toPort, by rw [List.map_append, List.map_cons], fun p hp he => ?_⟩
      obtain ⟨q, hq, rfl⟩ := List.mem_map.1 hp
      exact hafter q hq (PortRecord.id_toPort_eq_iff.1 he)

example : (collect [⟨"tcp", 22, 2222⟩, ⟨"UDP", 22, 22⟩, ⟨"TCP", 22, 3333⟩]).toList = [⟨.tcp, 22, 3333⟩, ⟨.udp, 22, 22⟩] := by
  decide

/-! ## Ports that can be forwarded -/

/-- The ports of a list that can be forwarded and the others, and among the former those of either protocol. -/
structure Parted (ps : ExposedPorts) : Prop where
  forwardable : ∀ p ∈ ps.forwardable.toList, p.protocol = .tcp ∨ p.protocol = .udp
  ignored : ∀ p ∈ ps.ignored, p.protocol ≠ .tcp ∧ p.protocol ≠ .udp
  /-- Both parts keep their order. -/
  forwardable_sublist : ps.forwardable.toList.Sublist ps.toList
  ignored_sublist : ps.ignored.Sublist ps.toList
  /-- Nothing is lost. -/
  parted : (ps.forwardable.toList ++ ps.ignored).Perm ps.toList
  tcp : ∀ p ∈ (ps.forwardable.withProtocol .tcp).toList, p.protocol = .tcp
  udp : ∀ p ∈ (ps.forwardable.withProtocol .udp).toList, p.protocol = .udp
  tcp_sublist : (ps.forwardable.withProtocol .tcp).toList.Sublist ps.forwardable.toList
  udp_sublist : (ps.forwardable.withProtocol .udp).toList.Sublist ps.forwardable.toList
  disjoint : List.Disjoint (ps.forwardable.withProtocol .tcp).toList (ps.forwardable.withProtocol .udp).toList
  cover : ((ps.forwardable.withProtocol .tcp).toList ++ (ps.forwardable.withProtocol .udp).toList).Perm
    ps.forwardable.toList

theorem isForwardable_iff {protocol : Protocol} : protocol.isForwardable = true ↔ protocol = .tcp ∨ protocol = .udp := by
  cases protocol <;> simp [Protocol.isForwardable]

theorem protocol_of_mem_withProtocol {protocol : Protocol} {p : ExposedPort} (h : p ∈ (ps.withProtocol protocol).toList) :
    p.protocol = protocol := of_decide_eq_true (List.mem_filter.1 h).2

/-- **Every list of ports is parted**, without loss and in its order. -/
theorem parted (ps : ExposedPorts) : ps.Parted := by
  constructor
  case forwardable => exact fun p hp => isForwardable_iff.1 (List.mem_filter.1 hp).2
  case ignored =>
    intro p hp
    have hnot := (List.mem_filter.1 hp).2
    rw [Bool.not_eq_true', ← Bool.not_eq_true, isForwardable_iff] at hnot
    exact not_or.1 hnot
  case forwardable_sublist => exact List.filter_sublist
  case ignored_sublist => exact List.filter_sublist
  case parted => exact List.filter_append_perm _ _
  case tcp => exact fun p hp => protocol_of_mem_withProtocol hp
  case udp => exact fun p hp => protocol_of_mem_withProtocol hp
  case tcp_sublist => exact List.filter_sublist
  case udp_sublist => exact List.filter_sublist
  case disjoint =>
    intro p htcp hudp
    exact absurd ((protocol_of_mem_withProtocol htcp).symm.trans (protocol_of_mem_withProtocol hudp)) (by decide)
  case cover =>
    have hudp : (ps.forwardable.withProtocol .udp).toList =
        ps.forwardable.toList.filter (fun p => !decide (p.protocol = .tcp)) := by
      refine List.filter_congr (fun p hp => ?_)
      rcases isForwardable_iff.1 (List.mem_filter.1 hp).2 with h | h <;> simp [h]
    rw [hudp]
    exact List.filter_append_perm _ _

/-! ## What comes of records -/

/-- What comes of reading records from an annotation. -/
structure Reading (origin : String) (records : List PortRecord) (result : Except ParseError ExposedPorts) : Prop where
  /-- One record out of range is enough, also if a later one replaces it. -/
  fails_iff : (∃ named port, result = .error (.portRange named port)) ↔ ∃ r ∈ records, ¬ r.InRange
  /-- The first of them is reported. -/
  reports : ∀ before r after, records = before ++ r :: after → (∀ q ∈ before, q.InRange) → ¬ r.InRange →
    result = .error (.portRange origin r.culprit)
  reads : (∀ r ∈ records, r.InRange) → ∃ ps, result = .ok ps ∧ ps.Collects records ∧ ps.Parted

/-- **What comes of an annotation that lists records.** -/
theorem parse_reading (h : Decodes text records) (origin : String) : Reading origin records (parse origin text) := by
  constructor
  case fails_iff =>
    constructor
    · rintro ⟨_, _, hfails⟩
      refine Classical.byContradiction (fun hn => ?_)
      simp only [not_exists, not_and, not_not] at hn
      rw [parse_of_inRange h hn] at hfails
      cases hfails
    · intro hn
      obtain ⟨before, r, after, rfl, hbefore, hr⟩ := PortRecord.exists_first_not hn
      exact ⟨_, _, parse_of_not_inRange h hbefore hr origin⟩
  case reports =>
    rintro before r after rfl hbefore hr
    exact parse_of_not_inRange h hbefore hr origin
  case reads =>
    intro hr
    exact ⟨_, parse_of_inRange h hr origin, collects_collect records, parted _⟩

/-- A target out of range is reported, although a later record for the port replaces it. -/
theorem parse_reading_replaced :
    let items : List Json := [.arr [.str "udp", .int 53, .int 53], .arr [.str "tcp", .int 22, .int 70000],
      .obj [("protocol", .str "TCP"), ("note", .null), ("port", .int 22), ("targetPort", .int 2222)]]
    let records : List PortRecord := [⟨"udp", 53, 53⟩, ⟨"tcp", 22, 70000⟩, ⟨"TCP", 22, 2222⟩]
    Decodes (Json.arr items).render records ∧
      Reading "ces-exposed-ports" records (parse "ces-exposed-ports" (Json.arr items).render) ∧
      parse "ces-exposed-ports" (Json.arr items).render = .error (.portRange "ces-exposed-ports" 70000) := by
  intro items records
  have hdecodes : Decodes (Json.arr items).render records :=
    ⟨items, Json.parse?_render rfl, .cons (.values (by decide) (by decide))
      (.cons (.values (by decide) (by decide)) (.cons (.members rfl rfl rfl (by decide) (by decide)) .nil))⟩
  have hreading := parse_reading hdecodes "ces-exposed-ports"
  exact ⟨hdecodes, hreading, hreading.reports [_] _ [_] rfl (by decide) (by decide)⟩

end ExposedPorts
end ServiceExposure
