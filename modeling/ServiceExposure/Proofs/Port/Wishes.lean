import ServiceExposure.Proofs.Port.Records
/-!
# What contributors ask for

The annotations of a shared object record what each contributor asked for last (`Wishes`).  While they do
(`OwnershipRecords.Hold`), a contributor finds its own wish and those of the others, and writing a record is asking for
the ports in it.
-/
namespace ServiceExposure

/-- What each contributor asked for last. -/
abbrev Wishes := String → ExposedPorts

namespace Wishes

def none : Wishes := fun _ => .empty

/-- A contributor asks for other ports; what cannot be forwarded does not count. -/
def set (w : Wishes) (name : String) (desired : ExposedPorts) : Wishes :=
  fun n => if n = name then desired.forwardable else w n

/-- Somebody asks for a port. -/
def Wants (w : Wishes) (id : PortId) : Prop := ∃ n, id ∈ (w n).ids

/-- Contributors of a group ask for ports that are in range and can be forwarded; others ask for nothing. -/
structure Legal (w : Wishes) (members : String → Prop) : Prop where
  valid : ∀ n, (w n).Valid
  forwardable : ∀ n, (w n).AllForwardable
  members : ∀ n, (w n).toList ≠ [] → members n

theorem legal_none (members : String → Prop) : none.Legal members :=
  ⟨fun _ => ExposedPorts.valid_empty, (fun _ _ h => nomatch h), fun _ h => absurd rfl h⟩

theorem Legal.set {w : Wishes} {members : String → Prop} (h : w.Legal members) {name : String} (hn : members name)
    {desired : ExposedPorts} (hd : desired.Valid) : (w.set name desired).Legal members := by
  constructor
  · intro n
    unfold Wishes.set
    split
    · exact hd.forwardable
    · exact h.valid n
  · intro n
    unfold Wishes.set
    split
    · exact desired.allForwardable_forwardable
    · exact h.forwardable n
  · intro n hne
    unfold Wishes.set at hne
    split at hne
    · rename_i e
      exact e ▸ hn
    · exact h.members n hne

theorem wants_set {w : Wishes} {name : String} {desired : ExposedPorts} {id : PortId} :
    (w.set name desired).Wants id ↔ id ∈ desired.forwardable.ids ∨ ∃ n, n ≠ name ∧ id ∈ (w n).ids := by
  unfold Wants Wishes.set
  constructor
  · rintro ⟨n, hn⟩
    split at hn
    · exact .inl hn
    · rename_i hne
      exact .inr ⟨n, hne, hn⟩
  · rintro (h | ⟨n, hne, hn⟩)
    · exact ⟨name, by rw [if_pos rfl]; exact h⟩
    · exact ⟨n, by rw [if_neg hne]; exact hn⟩

/-- What the others ask for is the same. -/
def Beside (name : String) (w w' : Wishes) : Prop := ∀ ⦃n⦄, n ≠ name → w' n = w n

theorem beside_refl (name : String) (w : Wishes) : w.Beside name w := fun _ _ => rfl

theorem beside_set (w : Wishes) (name : String) (desired : ExposedPorts) : w.Beside name (w.set name desired) :=
  fun _ hne => if_neg hne

theorem Beside.trans {name : String} {w w' w'' : Wishes} (h : w.Beside name w') (h' : w'.Beside name w'') :
    w.Beside name w'' := fun _ hne => (h' hne).trans (h hne)

/-- Whoever asks anew leaves nothing of what it asked for before. -/
theorem Beside.set_eq {name : String} {w w' : Wishes} (h : w.Beside name w') (desired : ExposedPorts) :
    w'.set name desired = w.set name desired := by
  funext n
  unfold Wishes.set
  split
  · rfl
  · exact h ‹_›

theorem Legal.isForwardable {w : Wishes} {members : String → Prop} (h : w.Legal members) {id : PortId}
    (hw : w.Wants id) : id.protocol.isForwardable = true := by
  obtain ⟨n, hn⟩ := hw
  obtain ⟨p, hp, rfl⟩ := List.mem_map.1 hn
  exact h.forwardable n p hp

end Wishes

namespace OwnershipRecords

/-- The records tell the contributors of a group apart. -/
structure Separates (r : OwnershipRecords) (members : String → Prop) : Prop where
  begins : ∀ {n}, members n → BeginsAlphanum n
  keys : ∀ {n n'}, members n → members n' → r.key n = r.key n' → n = n'

/-- Two contributors that are told apart have room for their names. -/
theorem Separates.room {r : OwnershipRecords} {members : String → Prop} (h : r.Separates members) {n n' : String}
    (hn : members n) (hn' : members n') (hne : n ≠ n') : r.stem.length < maxNameLength := by
  apply Classical.byContradiction
  intro hlong
  exact hne (h.keys hn hn' (key_eq_of_le_length (Nat.le_of_not_lt hlong) n n'))

/-- The annotations are the records of what everybody asked for. -/
def Hold (r : OwnershipRecords) (w : Wishes) (annotations : Dict String) : Prop :=
  ∀ k text, annotations.get? k = some text ↔ ∃ n, (w n).toList ≠ [] ∧ k = r.key n ∧ text = (w n).render

variable {r : OwnershipRecords} {members : String → Prop} {w : Wishes} {annotations : Dict String} {name : String}

theorem hold_none (r : OwnershipRecords) : r.Hold Wishes.none .empty := by
  intro k text
  constructor
  · exact fun h => nomatch h
  · rintro ⟨n, hn, -⟩
    exact absurd rfl hn

/-- The annotations that are records are no others. -/
theorem eq_of_hold {annotations' : Dict String} (h : r.Hold w annotations) (h' : r.Hold w annotations') :
    annotations = annotations' :=
  Dict.ext_get? (fun k => Option.ext (fun text => (h k text).trans (h' k text).symm))

/-- **A contributor finds what it asked for last.** -/
theorem read_of_hold (hs : r.Separates members) (hw : w.Legal members) (hn : members name) (h : r.Hold w annotations) :
    r.read annotations name = .ok (w name) := by
  unfold read
  cases hg : annotations.get? (r.key name) with
  | none =>
    have hnil : (w name).toList = [] := by
      apply Classical.byContradiction
      intro hne
      rw [(h _ _).2 ⟨name, hne, rfl, rfl⟩] at hg
      cases hg
    rw [ExposedPorts.eq_empty_iff.2 hnil]
  | some text =>
    obtain ⟨n, hne, hk, rfl⟩ := (h _ _).1 hg
    obtain rfl := hs.keys hn (hw.members n hne) hk
    exact ExposedPorts.parse_render_of_forwardable (hw.valid name) (hw.forwardable name) _

theorem mapM_ok_of_forall {α β ε : Type} {f : α → Except ε β} : ∀ (xs : List α), (∀ x ∈ xs, ∃ y, f x = .ok y) →
    ∃ ys, xs.mapM f = .ok ys ∧ ∀ y, y ∈ ys ↔ ∃ x ∈ xs, f x = .ok y
  | [], _ => ⟨[], rfl, by simp⟩
  | x :: xs, h => by
    obtain ⟨y, hy⟩ := h x List.mem_cons_self
    obtain ⟨ys, hys, hmem⟩ := mapM_ok_of_forall xs (fun x' hx => h x' (List.mem_cons_of_mem x hx))
    refine ⟨y :: ys, by rw [List.mapM_cons, hy, hys]; rfl, fun z => ?_⟩
    rw [List.mem_cons, hmem]
    constructor
    · rintro (rfl | ⟨x', hx, hz⟩)
      · exact ⟨x, List.mem_cons_self, hy⟩
      · exact ⟨x', List.mem_cons_of_mem x hx, hz⟩
    · rintro ⟨x', hx, hz⟩
      rcases List.mem_cons.1 hx with rfl | hx
      · rw [hy] at hz
        cases hz
        exact .inl rfl
      · exact .inr ⟨x', hx, hz⟩

/-- **And it finds what the others asked for.** -/
theorem readOthers_of_hold (hs : r.Separates members) (hw : w.Legal members) (hn : members name)
    (h : r.Hold w annotations) : ∃ others, r.readOthers annotations name = .ok others ∧
      ∀ id, id ∈ others.flatMap ExposedPorts.ids ↔ ∃ n, n ≠ name ∧ id ∈ (w n).ids := by
  have hparse : ∀ {p : String × String} {n : String}, (w n).toList ≠ [] → p.1 = r.key n → p.2 = (w n).render →
      ExposedPorts.parse p.1 p.2 = .ok (w n) := fun {p n} _ _ hp => by
    rw [hp]
    exact ExposedPorts.parse_render_of_forwardable (hw.valid n) (hw.forwardable n) _
  obtain ⟨others, hok, hmem⟩ := mapM_ok_of_forall (f := fun p : String × String => ExposedPorts.parse p.1 p.2)
    (annotations.toList.filter (fun p => p.1 ≠ r.key name && r.isKey p.1)) (fun p hp => by
      obtain ⟨n, hne, hk, ht⟩ := (h p.1 p.2).1 (Dict.mem_toList_iff.1 (List.mem_filter.1 hp).1)
      exact ⟨w n, hparse hne hk ht⟩)
  refine ⟨others, hok, fun id => ?_⟩
  rw [List.mem_flatMap]
  constructor
  · rintro ⟨ports, hports, hid⟩
    obtain ⟨p, hp, hpok⟩ := (hmem ports).1 hports
    obtain ⟨hp, hkeep⟩ := List.mem_filter.1 hp
    obtain ⟨n, hne, hk, ht⟩ := (h p.1 p.2).1 (Dict.mem_toList_iff.1 hp)
    rw [hparse hne hk ht] at hpok
    cases hpok
    refine ⟨n, ?_, hid⟩
    rintro rfl
    simp [hk] at hkeep
  · rintro ⟨n, hne, hid⟩
    have hnil : (w n).toList ≠ [] := fun e => by
      unfold ExposedPorts.ids at hid
      rw [e] at hid
      cases hid
    have hmember := hw.members n hnil
    refine ⟨w n, (hmem _).2 ⟨(r.key n, (w n).render), List.mem_filter.2 ⟨?_, ?_⟩, hparse hnil rfl rfl⟩, hid⟩
    · exact Dict.mem_toList_iff.2 ((h _ _).2 ⟨n, hnil, rfl, rfl⟩)
    · have hkey : r.key n ≠ r.key name := fun e => hne (hs.keys hmember hn e)
      simp [hkey, isKey_key (hs.room hmember hn hne) (hs.begins hmember)]

/-- Writing a record is asking for the ports in it. -/
theorem hold_write (hs : r.Separates members) (hw : w.Legal members) (hn : members name) (h : r.Hold w annotations)
    (desired : ExposedPorts) : r.Hold (w.set name desired) (r.write annotations name desired.forwardable) := by
  intro k text
  have hother : ∀ {n}, n ≠ name → (w n).toList ≠ [] → r.key n ≠ r.key name := fun hne hnil e =>
    hne (hs.keys (hw.members _ hnil) hn e)
  have hself : (w.set name desired) name = desired.forwardable := if_pos rfl
  have hrest : ∀ {n}, n ≠ name → (w.set name desired) n = w n := fun hne => if_neg hne
  rw [get?_write]
  by_cases hk : k = r.key name
  · subst hk
    rw [if_pos rfl]
    constructor
    · intro hg
      split at hg
      · cases hg
      · rename_i hne
        cases hg
        refine ⟨name, ?_, rfl, by rw [hself]⟩
        rw [hself]
        exact fun e => hne (ExposedPorts.isEmpty_iff.2 e)
    · rintro ⟨n, hnil, hk, rfl⟩
      by_cases hne : n = name
      · subst hne
        rw [hself] at hnil ⊢
        rw [if_neg (fun e => hnil (ExposedPorts.isEmpty_iff.1 e))]
      · rw [hrest hne] at hnil
        exact absurd hk.symm (hother hne hnil)
  · rw [if_neg hk, h k text]
    constructor
    · rintro ⟨n, hnil, rfl, rfl⟩
      have hne : n ≠ name := fun e => hk (by rw [e])
      exact ⟨n, by rw [hrest hne]; exact hnil, rfl, by rw [hrest hne]⟩
    · rintro ⟨n, hnil, rfl, rfl⟩
      have hne : n ≠ name := fun e => hk (by rw [e])
      rw [hrest hne] at hnil ⊢
      exact ⟨n, hnil, rfl, rfl⟩

end OwnershipRecords
end ServiceExposure
