import ServiceExposure.Merge
/-!
# What merging leaves under each key

A collection is seen through what stands under each key (`standing`).  Merging leaves there, in this order of precedence:
the entry that stood under a claimed key, the wanted entry, nothing where the contributor gives its entry up, and else
what stood there (`standing_merge`).  The entries of others stay as they are and in their order (`filter_merge`).
-/
namespace ServiceExposure

open Latest (put latest)

namespace Latest

variable {α κ : Type} [DecidableEq κ] (key : α → κ)

/-- The entry that stands under a key: the first with that key. -/
def standing (k : κ) (xs : List α) : Option α := xs.find? (fun x => key x = k)

theorem key_of_standing {k : κ} {xs : List α} {x : α} (h : standing key k xs = some x) : key x = k := by
  simpa using List.find?_some h

theorem mem_of_standing {k : κ} {xs : List α} {x : α} (h : standing key k xs = some x) : x ∈ xs :=
  List.mem_of_find?_eq_some h

theorem standing_eq_none_iff {k : κ} {xs : List α} : standing key k xs = none ↔ k ∉ xs.map key := by
  simp [standing, List.find?_eq_none]

theorem standing_cons (k : κ) (x : α) (xs : List α) :
    standing key k (x :: xs) = if key x = k then some x else standing key k xs := by
  unfold standing
  rw [List.find?_cons]
  by_cases h : key x = k <;> simp [h]

theorem standing_of_mem {x : α} : ∀ {xs : List α}, (xs.map key).Nodup → x ∈ xs → standing key (key x) xs = some x
  | y :: ys, hn, hm => by
    obtain ⟨hy, hn⟩ := List.nodup_cons.1 hn
    rw [standing_cons]
    rcases List.mem_cons.1 hm with rfl | hm
    · rw [if_pos rfl]
    · have hne : key y ≠ key x := fun e => hy (e.symm ▸ List.mem_map_of_mem hm)
      rw [if_neg hne, standing_of_mem hn hm]

theorem mem_iff_standing {xs : List α} (hn : (xs.map key).Nodup) {x : α} : x ∈ xs ↔ standing key (key x) xs = some x :=
  ⟨standing_of_mem key hn, mem_of_standing key⟩

theorem standing_append (k : κ) (xs ys : List α) :
    standing key k (xs ++ ys) = (standing key k xs).or (standing key k ys) := List.find?_append

theorem standing_put (k : κ) (x : α) : ∀ xs : List α,
    standing key k (put key x xs) = if key x = k then some x else standing key k xs
  | [] => by rw [put, standing_cons]
  | y :: ys => by
    rw [put, standing_cons key k y]
    by_cases hy : key y = key x
    · rw [if_pos hy, standing_cons, hy]
      by_cases hx : key x = k <;> simp [hx]
    · rw [if_neg hy, standing_cons, standing_put k x ys]
      by_cases hk : key y = k
      · rw [if_pos hk, if_pos hk, if_neg (fun e => hy (hk.trans e.symm))]
      · rw [if_neg hk, if_neg hk]

/-- Entries whose key passes a test stand where they stood among those that are left. -/
theorem standing_filter (keep : κ → Bool) (k : κ) (xs : List α) :
    standing key k (xs.filter (fun x => keep (key x))) = if keep k then standing key k xs else none := by
  induction xs with
  | nil => simp [standing]
  | cons x xs ih =>
    rw [standing_cons, List.filter_cons]
    by_cases hx : key x = k
    · by_cases hk : keep k
      · rw [if_pos (by rw [hx]; exact hk), standing_cons, if_pos hx, if_pos hk, if_pos hx]
      · rw [if_neg (by rw [hx]; exact hk), ih, if_neg hk, if_neg hk]
    · rw [if_neg hx, ← ih]
      split
      · rw [standing_cons, if_neg hx]
      · rfl

/-- Putting an entry in keeps the others, unless one of them has its key. -/
theorem filter_put {keep : α → Bool} {x : α} (hx : keep x = false) : ∀ {xs : List α},
    (∀ y ∈ xs, key y = key x → keep y = false) → (put key x xs).filter keep = xs.filter keep
  | [], _ => by simp [put, hx]
  | y :: ys, h => by
    rw [put]
    by_cases hy : key y = key x
    · rw [if_pos hy]
      simp [hx, h y List.mem_cons_self hy]
    · rw [if_neg hy, List.filter_cons, List.filter_cons,
        filter_put hx (fun z hz => h z (List.mem_cons_of_mem y hz))]

theorem mem_foldl_put {y : α} : ∀ (xs : List α) {acc : List α}, y ∈ xs.foldl (fun acc x => put key x acc) acc →
    y ∈ acc ∨ y ∈ xs
  | [], _, h => .inl h
  | x :: xs, acc, h => by
    rcases mem_foldl_put xs h with h | h
    · rcases mem_put key h with rfl | h
      · exact .inr List.mem_cons_self
      · exact .inl h
    · exact .inr (List.mem_cons_of_mem x h)

theorem mem_of_mem_latest {y : α} {xs : List α} (h : y ∈ latest key xs) : y ∈ xs := by
  rcases mem_foldl_put key xs h with h | h
  · cases h
  · exact h

theorem put_of_not_mem {x : α} : ∀ {xs : List α}, key x ∉ xs.map key → put key x xs = xs ++ [x]
  | [], _ => rfl
  | y :: ys, h => by
    rw [List.map_cons, List.mem_cons, not_or] at h
    rw [put, if_neg (Ne.symm h.1), put_of_not_mem h.2, List.cons_append]

theorem foldl_put_of_nodup : ∀ {xs acc : List α}, ((acc ++ xs).map key).Nodup →
    xs.foldl (fun acc x => put key x acc) acc = acc ++ xs
  | [], acc, _ => (List.append_nil acc).symm
  | x :: xs, acc, h => by
    have hx : key x ∉ acc.map key := by
      rw [List.map_append, List.map_cons] at h
      intro hm
      exact (List.nodup_append.1 h).2.2 _ hm _ List.mem_cons_self rfl
    rw [List.foldl_cons, put_of_not_mem key hx, foldl_put_of_nodup (by simpa using h), List.append_assoc]
    rfl

/-- Nothing changes where no key occurs twice. -/
theorem latest_of_nodup {xs : List α} (h : (xs.map key).Nodup) : latest key xs = xs := foldl_put_of_nodup key h

theorem mem_keys_foldl_put {k : κ} : ∀ {xs acc : List α},
    k ∈ (xs.foldl (fun acc x => put key x acc) acc).map key ↔ k ∈ acc.map key ∨ k ∈ xs.map key
  | [], acc => by simp
  | x :: xs, acc => by
    rw [List.foldl_cons, mem_keys_foldl_put, map_key_put]
    split
    · rename_i hx
      rw [List.map_cons, List.mem_cons]
      constructor
      · rintro (h | h)
        · exact .inl h
        · exact .inr (.inr h)
      · rintro (h | rfl | h)
        · exact .inl h
        · exact .inl hx
        · exact .inr h
    · rw [List.map_cons, List.mem_cons, List.mem_append, List.mem_singleton, or_assoc]

theorem mem_keys_latest {k : κ} {xs : List α} : k ∈ (latest key xs).map key ↔ k ∈ xs.map key := by
  rw [latest, mem_keys_foldl_put]
  simp

end Latest

open Latest (standing)

namespace Merged

variable {ε κ : Type} [DecidableEq ε] [DecidableEq κ] (key : ε → κ) (claimed : List κ)

/-- A wanted entry counts as owned unless a different one stands under its claimed key. -/
def isGranted (entries : List ε) (e : ε) : Bool :=
  key e ∉ claimed || (standing key (key e) entries).all (· = e)

theorem settle_eq (m : Merged ε) (e : ε) :
    settle key claimed m e =
      { entries :=
          if key e ∉ claimed then put key e m.entries
          else if standing key (key e) m.entries = none then m.entries ++ [e] else m.entries
        owned := if isGranted key claimed m.entries e then m.owned ++ [e] else m.owned
        collisions := if isGranted key claimed m.entries e then m.collisions else m.collisions ++ [e] } := by
  unfold settle isGranted standing
  by_cases hc : key e ∈ claimed
  · cases hs : m.entries.find? (fun x => key x = key e) with
    | none => simp [hc]
    | some x => by_cases hx : x = e <;> simp [hc, hx]
  · simp [hc]

theorem standing_settle (m : Merged ε) (e : ε) (k : κ) :
    standing key k (settle key claimed m e).entries =
      if key e = k then (if k ∈ claimed then (standing key k m.entries).or (some e) else some e)
      else standing key k m.entries := by
  rw [settle_eq]
  dsimp only
  by_cases hc : key e ∈ claimed
  · rw [if_neg (not_not_intro hc)]
    by_cases hk : key e = k
    · subst hk
      rw [if_pos rfl, if_pos hc]
      cases hs : standing key (key e) m.entries with
      | none =>
        rw [if_pos rfl, Latest.standing_append, hs, Latest.standing_cons, if_pos rfl]
      | some x => rw [if_neg (by simp), hs]; rfl
    · rw [if_neg hk]
      split
      · rw [Latest.standing_append, Latest.standing_cons, if_neg hk]
        exact Option.or_none
      · rfl
  · rw [if_pos hc, Latest.standing_put]
    by_cases hk : key e = k
    · subst hk
      rw [if_pos rfl, if_pos rfl, if_neg hc]
    · rw [if_neg hk, if_neg hk]

/-- What stands after several entries with different keys are brought in. -/
theorem standing_foldl_settle (k : κ) : ∀ (ds : List ε) (m : Merged ε), (ds.map key).Nodup →
    standing key k (ds.foldl (settle key claimed) m).entries =
      match standing key k ds with
      | some d => if k ∈ claimed then (standing key k m.entries).or (some d) else some d
      | none => standing key k m.entries
  | [], _, _ => rfl
  | d :: ds, m, hn => by
    obtain ⟨hd, hn⟩ := List.nodup_cons.1 hn
    rw [List.foldl_cons, standing_foldl_settle k ds _ hn, standing_settle, Latest.standing_cons]
    by_cases hk : key d = k
    · subst hk
      rw [(Latest.standing_eq_none_iff key).2 hd, if_pos rfl, if_pos rfl]
    · rw [if_neg hk, if_neg hk]

/-- Bringing one entry in does not matter to entries with other keys. -/
theorem isGranted_settle (m : Merged ε) {d e : ε} (h : key d ≠ key e) :
    isGranted key claimed (settle key claimed m d).entries e = isGranted key claimed m.entries e := by
  unfold isGranted
  rw [standing_settle, if_neg h]

/-- Whether an entry is granted depends only on what stood under its key in the beginning. -/
theorem owned_foldl_settle : ∀ (ds : List ε) (m : Merged ε), (ds.map key).Nodup →
    (ds.foldl (settle key claimed) m).owned = m.owned ++ ds.filter (isGranted key claimed m.entries)
  | [], m, _ => (List.append_nil _).symm
  | d :: ds, m, hn => by
    obtain ⟨hd, hn⟩ := List.nodup_cons.1 hn
    have hrest : ds.filter (isGranted key claimed (settle key claimed m d).entries) =
        ds.filter (isGranted key claimed m.entries) :=
      List.filter_congr (fun e he => isGranted_settle key claimed m (fun h => hd (h ▸ List.mem_map_of_mem he)))
    rw [List.foldl_cons, owned_foldl_settle ds _ hn, hrest, List.filter_cons]
    rw [settle_eq]
    dsimp only
    split <;> simp

theorem nodup_settle {m : Merged ε} {e : ε} (h : (m.entries.map key).Nodup) :
    ((settle key claimed m e).entries.map key).Nodup := by
  rw [settle_eq]
  dsimp only
  split
  · exact Latest.nodup_put key h
  · split
    · rename_i hn
      rw [← Latest.put_of_not_mem key ((Latest.standing_eq_none_iff key).1 hn)]
      exact Latest.nodup_put key h
    · exact h

theorem nodup_foldl_settle : ∀ (ds : List ε) {m : Merged ε}, (m.entries.map key).Nodup →
    ((ds.foldl (settle key claimed) m).entries.map key).Nodup
  | [], _, h => h
  | _ :: ds, _, h => nodup_foldl_settle ds (nodup_settle key claimed h)

theorem filter_settle {keep : ε → Bool} {m : Merged ε} {e : ε} (he : keep e = false)
    (h : ∀ x ∈ m.entries, keep x = true → key x ∈ claimed) :
    (settle key claimed m e).entries.filter keep = m.entries.filter keep := by
  rw [settle_eq]
  dsimp only
  split
  · rename_i hc
    refine Latest.filter_put key he (fun y hy hk => ?_)
    cases hy' : keep y with
    | false => rfl
    | true => exact absurd (hk ▸ h y hy hy') hc
  · split
    · rw [List.filter_append, List.filter_cons, if_neg (by simp [he]), List.filter_nil, List.append_nil]
    · rfl

theorem filter_foldl_settle {keep : ε → Bool} : ∀ (ds : List ε) {m : Merged ε}, (∀ e ∈ ds, keep e = false) →
    (∀ x ∈ m.entries, keep x = true → key x ∈ claimed) →
    (ds.foldl (settle key claimed) m).entries.filter keep = m.entries.filter keep
  | [], _, _, _ => rfl
  | d :: ds, m, hd, h => by
    have hstep := filter_settle key claimed (hd d List.mem_cons_self) h
    rw [List.foldl_cons, filter_foldl_settle ds (fun e he => hd e (List.mem_cons_of_mem d he)) ?_, hstep]
    intro x hx hk
    have hmem : x ∈ m.entries.filter keep := by
      rw [← hstep]
      exact List.mem_filter.2 ⟨hx, hk⟩
    exact h x (List.mem_filter.1 hmem).1 hk

end Merged

section Merge

variable {ε κ : Type} [DecidableEq ε] [DecidableEq κ] (key : ε → κ) (current prior desired : List ε) (claimed : List κ)

/-- **What stands under each key after merging.** -/
theorem standing_merge (k : κ) :
    standing key k (merge key current prior desired claimed).entries =
      match standing key k (latest key desired) with
      | some d => if k ∈ claimed then (standing key k current).or (some d) else some d
      | none => if k ∈ prior.map key ∧ k ∉ claimed then none else standing key k current := by
  have hstale : standing key k (current.filter (fun e => !isStale key prior desired claimed (key e))) =
      if !isStale key prior desired claimed k then standing key k current else none :=
    Latest.standing_filter key (fun k => !isStale key prior desired claimed k) k current
  rw [merge, Merged.standing_foldl_settle key claimed k _ _ (Latest.nodup_latest key desired), hstale]
  cases hd : standing key k (latest key desired) with
  | some d =>
    by_cases hc : k ∈ claimed <;> simp [isStale, hc]
  | none =>
    have hnot : k ∉ desired.map key := fun h =>
      (Latest.standing_eq_none_iff key).1 hd ((Latest.mem_keys_latest key).2 h)
    by_cases hp : k ∈ prior.map key ∧ k ∉ claimed
    · rw [if_pos hp]
      simp [isStale, hp, hnot]
    · rw [if_neg hp]
      simp only [isStale, hnot]
      by_cases h1 : k ∈ prior.map key <;> by_cases h2 : k ∈ claimed <;> simp_all

/-- Stale entries do not matter to what is granted. -/
theorem isGranted_unstale (e : ε) :
    Merged.isGranted key claimed (current.filter (fun e => !isStale key prior desired claimed (key e))) e =
      Merged.isGranted key claimed current e := by
  unfold Merged.isGranted
  by_cases hc : key e ∈ claimed
  · have hs : standing key (key e) (current.filter (fun e => !isStale key prior desired claimed (key e))) =
        standing key (key e) current := by
      rw [Latest.standing_filter key (fun k => !isStale key prior desired claimed k)]
      simp [isStale, hc]
    rw [hs]
  · simp [hc]

/-- The entries that count as owned are the wanted ones that are granted. -/
theorem owned_merge : (merge key current prior desired claimed).owned =
    (latest key desired).filter (Merged.isGranted key claimed current) := by
  rw [merge, Merged.owned_foldl_settle key claimed _ _ (Latest.nodup_latest key desired), List.nil_append]
  exact List.filter_congr (fun e _ => isGranted_unstale key current prior desired claimed e)

theorem nodup_merge {current : List ε} (h : (current.map key).Nodup) :
    ((merge key current prior desired claimed).entries.map key).Nodup :=
  Merged.nodup_foldl_settle key claimed _ (h.sublist (List.filter_sublist.map key))

/-- **The entries of others stay**: those under claimed keys, where none of them is wanted. -/
theorem filter_merge {current desired : List ε} {keep : ε → Bool} (hc : ∀ e ∈ current, keep e = true → key e ∈ claimed)
    (hd : ∀ e ∈ desired, keep e = false) :
    (merge key current prior desired claimed).entries.filter keep = current.filter keep := by
  rw [merge, Merged.filter_foldl_settle key claimed _ (fun e he => hd e (Latest.mem_of_mem_latest key he))
    (fun x hx => hc x (List.mem_filter.1 hx).1), List.filter_filter]
  refine List.filter_congr (fun e he => ?_)
  cases hk : keep e with
  | false => rfl
  | true => simp [isStale, hc e he hk]

end Merge
end ServiceExposure
