import ServiceExposure.Dict
/-!
# Maps made of pairs

The pairs of a map have different keys (`Dict.nodup_keys`), and a map made of pairs with different keys holds exactly
these (`Dict.mem_ofList_iff`).  Each key parts a map into what is before it and what is after it (`Dict.toList_eq_parts`).
-/
namespace ServiceExposure
namespace Dict

variable {α : Type}

theorem nodup_keys (d : Dict α) : (d.toList.map Prod.fst).Nodup := by
  refine List.pairwise_map.2 (d.increasing.imp ?_)
  rintro a b hlt rfl'
  exact String.lt_irrefl a.1 (by rw [rfl'] at hlt ⊢; exact hlt)

theorem get?_foldl_insert {k : String} : ∀ {ps : List (String × α)} {d : Dict α}, k ∉ ps.map Prod.fst →
    (ps.foldl (fun d p => d.insert p.1 p.2) d).get? k = d.get? k
  | [], _, _ => rfl
  | p :: ps, d, h => by
    rw [List.map_cons, List.mem_cons, not_or] at h
    rw [List.foldl_cons, get?_foldl_insert h.2, get?_insert_ne d p.2 h.1]

theorem get?_foldl_insert_of_mem {k : String} {v : α} : ∀ {ps : List (String × α)} {d : Dict α},
    (ps.map Prod.fst).Nodup → (k, v) ∈ ps → (ps.foldl (fun d p => d.insert p.1 p.2) d).get? k = some v
  | p :: ps, d, hn, hm => by
    rw [List.map_cons, List.nodup_cons] at hn
    rw [List.foldl_cons]
    rcases List.mem_cons.1 hm with rfl | hm
    · rw [get?_foldl_insert hn.1, get?_insert_self]
    · exact get?_foldl_insert_of_mem hn.2 hm

theorem get?_ofList {ps : List (String × α)} (hn : (ps.map Prod.fst).Nodup) {k : String} {v : α} :
    (ofList ps).get? k = some v ↔ (k, v) ∈ ps := by
  constructor
  · intro h
    by_cases hk : k ∈ ps.map Prod.fst
    · obtain ⟨⟨k', w⟩, hm, rfl⟩ := List.mem_map.1 hk
      rw [ofList, get?_foldl_insert_of_mem hn hm] at h
      cases h
      exact hm
    · rw [ofList, get?_foldl_insert hk] at h
      cases h
  · exact get?_foldl_insert_of_mem hn

theorem mem_ofList_iff {ps : List (String × α)} (hn : (ps.map Prod.fst).Nodup) {p : String × α} :
    p ∈ (ofList ps).toList ↔ p ∈ ps := by
  rw [← get?_ofList hn, ← mem_toList_iff]

/-- Where both maps have a key, the second one counts. -/
theorem get?_union (d e : Dict α) (k : String) : (d.union e).get? k = (e.get? k).or (d.get? k) := by
  unfold union
  cases h : e.get? k with
  | none =>
    refine get?_foldl_insert (fun hmem => ?_)
    obtain ⟨⟨key, v⟩, hp, rfl⟩ := List.mem_map.1 hmem
    cases h.symm.trans (mem_toList_iff.1 hp)
  | some v => exact get?_foldl_insert_of_mem e.nodup_keys (mem_toList_iff.2 h)

theorem isEmpty_ofList {ps : List (String × α)} (hn : (ps.map Prod.fst).Nodup) :
    (ofList ps).isEmpty = true ↔ ps = [] := by
  unfold isEmpty
  rw [List.isEmpty_iff]
  constructor
  · intro h
    apply List.eq_nil_iff_forall_not_mem.2
    intro p hp
    have := (mem_ofList_iff hn).2 hp
    rw [h] at this
    cases this
  · rintro rfl
    rfl

theorem mem_keys_foldl_insert {k : String} : ∀ {ps : List (String × α)} {d : Dict α},
    k ∈ (ps.foldl (fun d p => d.insert p.1 p.2) d).keys ↔ k ∈ ps.map Prod.fst ∨ k ∈ d.keys
  | [], d => by simp
  | p :: ps, d => by
    have hinsert : k ∈ (d.insert p.1 p.2).keys ↔ k = p.1 ∨ k ∈ d.keys := by
      rw [mem_keys_iff, mem_keys_iff, contains, contains, get?_insert]
      by_cases hk : k = p.1 <;> simp [hk]
    rw [List.foldl_cons, mem_keys_foldl_insert, hinsert, List.map_cons, List.mem_cons, or_assoc, or_left_comm]

/-- The keys of a map are those of the pairs that it is made of, however often they occur there. -/
theorem mem_keys_ofList {ps : List (String × α)} {k : String} : k ∈ (ofList ps).keys ↔ k ∈ ps.map Prod.fst := by
  rw [ofList, mem_keys_foldl_insert]
  exact or_iff_left (List.not_mem_nil)

theorem increasing_keys (d : Dict α) : d.keys.Pairwise (· < ·) := List.pairwise_map.2 d.increasing

theorem eq_parts (k : String) : ∀ {ps : List (String × α)}, ps.Pairwise (fun a b => a.1 < b.1) →
    ps = ps.filter (fun p => p.1 < k) ++ ((lookup k ps).map (fun v => (k, v))).toList ++ ps.filter (fun p => k < p.1)
  | [], _ => rfl
  | (k', v) :: ps, h => by
    obtain ⟨hall, htail⟩ := List.pairwise_cons.1 h
    by_cases hlt : k' < k
    · have hne : k' ≠ k := fun e => String.lt_irrefl k (e ▸ hlt)
      rw [List.filter_cons_of_pos (by simpa using hlt), lookup, if_neg hne,
        List.filter_cons_of_neg (by simpa using String.lt_asymm hlt), List.cons_append, List.cons_append,
        ← eq_parts k htail]
    · have hlater : ∀ p ∈ ps, k < p.1 := fun p hp => Std.lt_of_le_of_lt (String.not_lt.1 hlt) (hall p hp)
      have hnone : ps.filter (fun p => p.1 < k) = [] := List.filter_eq_nil_iff.2 (fun p hp => by
        simpa using String.lt_asymm (hlater p hp))
      have hrest : ps.filter (fun p => k < p.1) = ps := List.filter_eq_self.2 (fun p hp => decide_eq_true (hlater p hp))
      rw [List.filter_cons_of_neg (by simpa using hlt), hnone, lookup]
      by_cases hk : k' = k
      · subst hk
        rw [if_pos rfl, List.filter_cons_of_neg (by simp), hrest]
        rfl
      · have hgone : lookup k ps = none := lookup_eq_none_iff.2 (fun w hw => String.lt_irrefl k (hlater _ hw))
        have hgreater : k < k' := Classical.byContradiction (fun hn => hk (eq_of_not_lt hlt hn))
        rw [if_neg hk, hgone, List.filter_cons_of_pos (by simpa using hgreater), hrest]
        rfl

/-- **The pairs of a map** are those before a key, that of the key, and those after it. -/
theorem toList_eq_parts (d : Dict α) (k : String) : d.toList =
    (d.filter (fun j _ => j < k)).toList ++ ((d.get? k).map (fun v => (k, v))).toList ++
      (d.filter (fun j _ => k < j)).toList := eq_parts k d.increasing

end Dict
end ServiceExposure
