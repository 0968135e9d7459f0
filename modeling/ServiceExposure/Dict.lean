/-!
# Dict: maps ordered by key

Labels, annotations and the data of a ConfigMap are maps from texts.  A `Dict` holds its pairs in strictly increasing
order of the keys (by code point, which is the order of their UTF-8 bytes), so every map has one representation and
equal maps are equal as values: `Dict.ext_get?` says that a `Dict` is determined by its look-ups.
-/
namespace ServiceExposure

/-- A finite map from texts, as its pairs in strictly increasing order of the keys. -/
structure Dict (α : Type) where
  /-- The pairs in order. -/
  toList : List (String × α)
  /-- No key occurs twice, and the keys increase. -/
  increasing : toList.Pairwise (fun a b => a.1 < b.1)
deriving DecidableEq

namespace Dict

variable {α β : Type}

/-- Puts a pair into its place, in the place of the pair that has the same key. -/
def insertPair (k : String) (v : α) : List (String × α) → List (String × α)
  | [] => [(k, v)]
  | (k', v') :: ps =>
    if k < k' then (k, v) :: (k', v') :: ps
    else if k' < k then (k', v') :: insertPair k v ps
    else (k, v) :: ps

/-- The value under a key. -/
def lookup (k : String) : List (String × α) → Option α
  | [] => none
  | (k', v') :: ps => if k' = k then some v' else lookup k ps

theorem eq_of_not_lt {k k' : String} (h : ¬ k < k') (h' : ¬ k' < k) : k = k' :=
  String.le_antisymm (String.not_lt.1 h') (String.not_lt.1 h)

theorem mem_insertPair {k : String} {v : α} {p : String × α} : ∀ {ps : List (String × α)},
    p ∈ insertPair k v ps → p = (k, v) ∨ p ∈ ps
  | [], h => by simpa [insertPair] using h
  | (k', v') :: ps, h => by
    simp only [insertPair] at h
    split at h
    · simpa using h
    · split at h
      · rcases List.mem_cons.1 h with h | h
        · exact .inr (by simp [h])
        · rcases mem_insertPair h with h | h
          · exact .inl h
          · exact .inr (by simp [h])
      · rcases List.mem_cons.1 h with h | h
        · exact .inl h
        · exact .inr (by simp [h])

theorem insertPair_increasing {k : String} {v : α} : ∀ {ps : List (String × α)},
    ps.Pairwise (fun a b => a.1 < b.1) → (insertPair k v ps).Pairwise (fun a b => a.1 < b.1)
  | [], _ => by simp [insertPair]
  | (k', v') :: ps, h => by
    have ⟨hall, htail⟩ := List.pairwise_cons.1 h
    simp only [insertPair]
    split
    · rename_i hlt
      exact List.pairwise_cons.2 ⟨fun q hq => (List.mem_cons.1 hq).elim (fun e => e ▸ hlt)
        (fun hq => String.lt_trans hlt (hall q hq)), h⟩
    · rename_i hnlt
      split
      · rename_i hlt
        exact List.pairwise_cons.2 ⟨fun q hq => (mem_insertPair hq).elim (fun e => e ▸ hlt) (hall q),
          insertPair_increasing htail⟩
      · rename_i hngt
        have := eq_of_not_lt hnlt hngt
        subst this
        exact List.pairwise_cons.2 ⟨hall, htail⟩

theorem lookup_insertPair_self {k : String} {v : α} : ∀ {ps : List (String × α)}, lookup k (insertPair k v ps) = some v
  | [] => by simp [insertPair, lookup]
  | (k', v') :: ps => by
    simp only [insertPair]
    split
    · simp [lookup]
    · split
      · rename_i h
        have hne : k' ≠ k := fun e => String.lt_irrefl k (e ▸ h)
        simp [lookup, hne, lookup_insertPair_self]
      · simp [lookup]

theorem lookup_insertPair_ne {k j : String} {v : α} (hj : j ≠ k) : ∀ {ps : List (String × α)},
    lookup j (insertPair k v ps) = lookup j ps
  | [] => by simp [insertPair, lookup, Ne.symm hj]
  | (k', v') :: ps => by
    simp only [insertPair]
    split
    · simp [lookup, Ne.symm hj]
    · rename_i hnlt
      split
      · simp [lookup, lookup_insertPair_ne hj]
      · rename_i hngt
        have := eq_of_not_lt hnlt hngt
        subst this
        simp [lookup, Ne.symm hj]

theorem mem_of_lookup {k : String} {v : α} : ∀ {ps : List (String × α)}, lookup k ps = some v → (k, v) ∈ ps
  | (k', v') :: ps, h => by
    simp only [lookup] at h
    split at h
    · rename_i e
      subst e
      exact List.mem_cons.2 (.inl (by simpa using h.symm))
    · exact List.mem_cons.2 (.inr (mem_of_lookup h))

theorem lookup_of_mem {k : String} {v : α} : ∀ {ps : List (String × α)}, ps.Pairwise (fun a b => a.1 < b.1) →
    (k, v) ∈ ps → lookup k ps = some v
  | (k', v') :: ps, hp, h => by
    have ⟨hall, htail⟩ := List.pairwise_cons.1 hp
    rcases List.mem_cons.1 h with h | h
    · cases h; simp [lookup]
    · have hne : k' ≠ k := fun e => String.lt_irrefl k (e ▸ hall _ h)
      simp [lookup, hne, lookup_of_mem htail h]

theorem lookup_eq_none_iff {k : String} : ∀ {ps : List (String × α)}, lookup k ps = none ↔ ∀ v, (k, v) ∉ ps
  | [] => by simp [lookup]
  | (k', v') :: ps => by
    simp only [lookup]
    split
    · rename_i e
      subst e
      simp only [reduceCtorEq, false_iff, Classical.not_forall]
      exact ⟨v', by simp⟩
    · rename_i hne
      rw [lookup_eq_none_iff]
      simp [Ne.symm hne]

theorem eq_of_lookup_eq : ∀ {ps qs : List (String × α)}, ps.Pairwise (fun a b => a.1 < b.1) →
    qs.Pairwise (fun a b => a.1 < b.1) → (∀ k, lookup k ps = lookup k qs) → ps = qs
  | [], [], _, _, _ => rfl
  | [], (k, v) :: qs, _, _, h => by have := h k; simp [lookup] at this
  | (k, v) :: ps, [], _, _, h => by have := h k; simp [lookup] at this
  | (k, v) :: ps, (k', v') :: qs, hp, hq, h => by
    have ⟨hpa, hpt⟩ := List.pairwise_cons.1 hp
    have ⟨hqa, hqt⟩ := List.pairwise_cons.1 hq
    have hk : k = k' := by
      refine eq_of_not_lt (fun hlt => ?_) (fun hlt => ?_)
      · have hm : (k, v) ∈ (k', v') :: qs := mem_of_lookup (by rw [← h k]; simp [lookup])
        rcases List.mem_cons.1 hm with e | hm
        · cases e; exact String.lt_irrefl _ hlt
        · exact String.lt_asymm hlt (hqa _ hm)
      · have hm : (k', v') ∈ (k, v) :: ps := mem_of_lookup (by rw [h k']; simp [lookup])
        rcases List.mem_cons.1 hm with e | hm
        · cases e; exact String.lt_irrefl _ hlt
        · exact String.lt_asymm hlt (hpa _ hm)
    subst hk
    have hv : v = v' := by have := h k; simpa [lookup] using this
    subst hv
    congr 1
    refine eq_of_lookup_eq hpt hqt (fun j => ?_)
    by_cases hj : k = j
    · subst hj
      have h1 : lookup k ps = none := lookup_eq_none_iff.2 (fun w hw => String.lt_irrefl k (hpa (k, w) hw))
      have h2 : lookup k qs = none := lookup_eq_none_iff.2 (fun w hw => String.lt_irrefl k (hqa (k, w) hw))
      rw [h1, h2]
    · have := h j
      simpa [lookup, hj] using this

def empty : Dict α := ⟨[], .nil⟩

instance : Inhabited (Dict α) := ⟨empty⟩

instance : EmptyCollection (Dict α) := ⟨empty⟩

def isEmpty (d : Dict α) : Bool := d.toList.isEmpty

/-- The value under a key. -/
def get? (d : Dict α) (k : String) : Option α := lookup k d.toList

def contains (d : Dict α) (k : String) : Bool := (d.get? k).isSome

/-- Gives a key a value, in place of the one it had. -/
def insert (d : Dict α) (k : String) (v : α) : Dict α := ⟨insertPair k v d.toList, insertPair_increasing d.increasing⟩

/-- Takes a key and its value out. -/
def erase (d : Dict α) (k : String) : Dict α :=
  ⟨d.toList.filter (fun p => p.1 ≠ k), d.increasing.sublist List.filter_sublist⟩

def filter (d : Dict α) (keep : String → α → Bool) : Dict α :=
  ⟨d.toList.filter (fun p => keep p.1 p.2), d.increasing.sublist List.filter_sublist⟩

/-- The map of some pairs; of two pairs with one key the later counts. -/
def ofList (ps : List (String × α)) : Dict α := ps.foldl (fun d p => d.insert p.1 p.2) empty

/-- Adds all pairs of `e` to `d`; where both have a key, `e` wins. -/
def union (d e : Dict α) : Dict α := e.toList.foldl (fun d p => d.insert p.1 p.2) d

def keys (d : Dict α) : List String := d.toList.map Prod.fst

def values (d : Dict α) : List α := d.toList.map Prod.snd

theorem ext_get? {d e : Dict α} (h : ∀ k, d.get? k = e.get? k) : d = e := by
  obtain ⟨ps, hp⟩ := d
  obtain ⟨qs, hq⟩ := e
  have : ps = qs := eq_of_lookup_eq hp hq h
  subst this
  rfl

@[simp] theorem get?_empty (k : String) : (empty : Dict α).get? k = none := rfl

theorem mem_toList_iff {d : Dict α} {k : String} {v : α} : (k, v) ∈ d.toList ↔ d.get? k = some v :=
  ⟨lookup_of_mem d.increasing, mem_of_lookup⟩

@[simp] theorem get?_insert_self (d : Dict α) (k : String) (v : α) : (d.insert k v).get? k = some v :=
  lookup_insertPair_self

theorem get?_insert_ne (d : Dict α) {k j : String} (v : α) (h : j ≠ k) : (d.insert k v).get? j = d.get? j :=
  lookup_insertPair_ne h

theorem get?_insert (d : Dict α) (k j : String) (v : α) :
    (d.insert k v).get? j = if j = k then some v else d.get? j := by
  by_cases h : j = k
  · subst h; simp
  · simp [h, get?_insert_ne d v h]

theorem get?_filter (d : Dict α) (keep : String → α → Bool) (k : String) :
    (d.filter keep).get? k = (d.get? k).filter (keep k) := by
  cases h : d.get? k with
  | none =>
    refine lookup_eq_none_iff.2 (fun v hv => ?_)
    exact lookup_eq_none_iff.1 h v (List.mem_filter.1 hv).1
  | some v =>
    have hm := mem_toList_iff.2 h
    cases hk : keep k v with
    | true =>
      have hf : (k, v) ∈ (d.filter keep).toList := List.mem_filter.2 ⟨hm, hk⟩
      rw [mem_toList_iff.1 hf, Option.filter_some, if_pos hk]
    | false =>
      rw [Option.filter_some, hk, if_neg (by decide)]
      refine lookup_eq_none_iff.2 (fun w hw => ?_)
      obtain ⟨hw, hkw⟩ := List.mem_filter.1 hw
      have : w = v := by have := mem_toList_iff.1 hw; simpa [h] using this.symm
      subst this
      simp [hk] at hkw

theorem erase_eq_filter (d : Dict α) (k : String) : d.erase k = d.filter (fun j _ => j ≠ k) := rfl

theorem get?_erase (d : Dict α) (k j : String) : (d.erase k).get? j = if j = k then none else d.get? j := by
  rw [erase_eq_filter, get?_filter]
  by_cases h : j = k
  · subst h; cases d.get? j <;> simp [Option.filter]
  · cases d.get? j <;> simp [Option.filter, h]

@[simp] theorem get?_erase_self (d : Dict α) (k : String) : (d.erase k).get? k = none := by simp [get?_erase]

theorem get?_erase_ne (d : Dict α) {k j : String} (h : j ≠ k) : (d.erase k).get? j = d.get? j := by
  simp [get?_erase, h]

theorem isEmpty_iff {d : Dict α} : d.isEmpty = true ↔ d = empty := by
  constructor
  · intro h
    obtain ⟨ps, hp⟩ := d
    have : ps = [] := List.isEmpty_iff.1 h
    subst this
    rfl
  · rintro rfl; rfl

theorem mem_keys_iff {d : Dict α} {k : String} : k ∈ d.keys ↔ d.contains k = true := by
  simp only [keys, List.mem_map, Prod.exists, exists_and_right, exists_eq_right, contains, Option.isSome_iff_exists,
    mem_toList_iff]

end Dict
end ServiceExposure
