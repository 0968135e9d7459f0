import Mathlib.Data.List.Induction
import Mathlib.Data.List.Perm.Basic
import ServiceExposure.Proofs.Merge
/-!
# The laws of merging

What a merge may do to a collection, whatever stands in it, however often a key occurs and whoever claims it
(`merge_lawful`).  Entries that are nobody's business stay in their order, stale ones are gone, and every wanted entry
either stands in the collection or collides.  Merging the same wish again changes nothing: a collection in which every
wish is settled is a fixed point of merging (`merge_entries_eq_self`).
-/
namespace ServiceExposure

open Latest (put latest standing)

/-! ## The last of each key -/

namespace Latest

variable {α κ : Type} [DecidableEq κ] (key : α → κ)

/-- The keys in the order in which they come first, each with the element that has it last. -/
def lastOfEach (xs : List α) : List α := (xs.map key).eraseDups.filterMap (fun k => standing key k xs.reverse)

theorem latest_append (xs : List α) (x : α) : latest key (xs ++ [x]) = put key x (latest key xs) := by
  unfold latest
  rw [List.foldl_append, List.foldl_cons, List.foldl_nil]

theorem map_key_latest (xs : List α) : (latest key xs).map key = (xs.map key).eraseDups := by
  induction xs using List.reverseRecOn with
  | nil => rfl
  | append_singleton xs x ih =>
    rw [latest_append, map_key_put, List.map_append, List.eraseDups_append, ih]
    by_cases hx : key x ∈ xs.map key
    · have hseen : [key x].removeAll (xs.map key) = [] := by simp [List.removeAll, List.mem_map.1 hx]
      rw [if_pos (List.mem_eraseDups.2 hx), List.map_singleton, hseen]
      simp
    · have hnew : [key x].removeAll (xs.map key) = [key x] := by
        simp only [List.mem_map, not_exists, not_and] at hx
        simpa [List.removeAll] using hx
      rw [if_neg (fun h => hx (List.mem_eraseDups.1 h)), List.map_singleton, hnew]
      rfl

theorem eraseDups_eq_latest (xs : List κ) : xs.eraseDups = latest id xs := by
  have h := map_key_latest id xs
  rw [List.map_id, List.map_id] at h
  exact h.symm

theorem nodup_eraseDups (xs : List κ) : xs.eraseDups.Nodup := by
  have h := nodup_latest id xs
  rwa [List.map_id, ← eraseDups_eq_latest] at h

theorem standing_latest (k : κ) (xs : List α) : standing key k (latest key xs) = standing key k xs.reverse := by
  induction xs using List.reverseRecOn with
  | nil => rfl
  | append_singleton xs x ih =>
    rw [latest_append, standing_put, ih, List.reverse_append, List.reverse_singleton, List.singleton_append, standing_cons]

theorem filterMap_standing {xs : List α} (h : (xs.map key).Nodup) :
    (xs.map key).filterMap (fun k => standing key k xs) = xs := by
  have hsome : ∀ x ∈ xs, standing key (key x) xs = some x := fun x hx => standing_of_mem key h hx
  rw [List.filterMap_map]
  calc xs.filterMap ((fun k => standing key k xs) ∘ key) = xs.filterMap some := List.filterMap_congr hsome
    _ = xs := List.filterMap_some

theorem latest_eq_lastOfEach (xs : List α) : latest key xs = lastOfEach key xs := by
  have h := filterMap_standing key (nodup_latest key xs)
  rw [map_key_latest] at h
  unfold lastOfEach
  simp only [← standing_latest]
  exact h.symm

/-- **Whatever is kept of a list** is the last with its key. -/
theorem mem_latest_iff {x : α} {xs : List α} :
    x ∈ latest key xs ↔ ∃ before after, xs = before ++ x :: after ∧ ∀ y ∈ after, key y ≠ key x := by
  rw [mem_iff_standing key (nodup_latest key xs), standing_latest, standing, List.find?_eq_some_iff_append]
  constructor
  · rintro ⟨-, after, before, hsplit, hafter⟩
    refine ⟨before.reverse, after.reverse, ?_, fun y hy => ?_⟩
    · have := congrArg List.reverse hsplit
      simpa using this
    · simpa using hafter y (List.mem_reverse.1 hy)
  · rintro ⟨before, after, rfl, hafter⟩
    refine ⟨decide_eq_true rfl, after.reverse, before.reverse, by simp, fun y hy => ?_⟩
    simpa using hafter y (List.mem_reverse.1 hy)

/-! ## Putting entries into a collection -/

theorem put_of_standing {x : α} : ∀ {xs : List α}, standing key (key x) xs = some x → put key x xs = xs
  | y :: ys, h => by
    rw [standing_cons] at h
    rw [put]
    by_cases hy : key y = key x
    · rw [if_pos hy] at h ⊢
      rw [Option.some.inj h]
    · rw [if_neg hy] at h ⊢
      rw [put_of_standing h]

theorem sublist_put {s ys : List α} {x : α} (h : s.Sublist ys) (hne : ∀ y ∈ s, key y ≠ key x) :
    s.Sublist (put key x ys) := by
  induction h with
  | slnil => exact List.nil_sublist _
  | cons y h ih =>
    rw [put]
    split
    · exact h.cons x
    · exact (ih hne).cons y
  | cons_cons y h ih =>
    rw [put, if_neg (hne y List.mem_cons_self)]
    exact (ih (fun z hz => hne z (List.mem_cons_of_mem y hz))).cons_cons y

end Latest

/-! ## Settling one wish after the other -/

namespace Merged

variable {ε κ : Type} [DecidableEq ε] [DecidableEq κ] (key : ε → κ) (claimed : List κ)

/-- Whoever is not in the way of a wish stays. -/
theorem sublist_settle {s : List ε} {m : Merged ε} {e : ε} (h : s.Sublist m.entries)
    (hs : ∀ x ∈ s, key x ∈ claimed ∨ key x ≠ key e) : s.Sublist (settle key claimed m e).entries := by
  rw [settle_eq]
  dsimp only
  split
  · rename_i hfree
    refine Latest.sublist_put key h (fun x hx hk => ?_)
    exact (hs x hx).elim (fun hc => hfree (hk ▸ hc)) (fun hne => hne hk)
  · split
    · exact h.trans (List.sublist_append_left _ _)
    · exact h

theorem sublist_foldl_settle {s : List ε} : ∀ (ds : List ε) {m : Merged ε}, s.Sublist m.entries →
    (∀ x ∈ s, key x ∈ claimed ∨ key x ∉ ds.map key) → s.Sublist (ds.foldl (settle key claimed) m).entries
  | [], _, h, _ => h
  | d :: ds, m, h, hs => by
    have hd : ∀ x ∈ s, key x ∈ claimed ∨ key x ≠ key d := fun x hx =>
      (hs x hx).imp_right (fun hn hk => hn (hk ▸ List.mem_cons_self))
    have hrest : ∀ x ∈ s, key x ∈ claimed ∨ key x ∉ ds.map key := fun x hx =>
      (hs x hx).imp_right (fun hn hk => hn (List.mem_cons_of_mem _ hk))
    exact sublist_foldl_settle ds (sublist_settle key claimed h hd) hrest

theorem mem_settle {m : Merged ε} {d e : ε} (h : e ∈ (settle key claimed m d).entries) : e = d ∨ e ∈ m.entries := by
  rw [settle_eq] at h
  dsimp only at h
  split at h
  · exact Latest.mem_put key h
  · split at h
    · exact (List.mem_append.1 h).elim .inr (fun h => .inl (List.mem_singleton.1 h))
    · exact .inr h

theorem mem_foldl_settle {e : ε} : ∀ (ds : List ε) {m : Merged ε}, e ∈ (ds.foldl (settle key claimed) m).entries →
    e ∈ ds ∨ e ∈ m.entries
  | [], _, h => .inr h
  | d :: ds, m, h => by
    rcases mem_foldl_settle ds h with h | h
    · exact .inl (List.mem_cons_of_mem d h)
    · rcases mem_settle key claimed h with rfl | h
      · exact .inl List.mem_cons_self
      · exact .inr h

/-- Which wishes collide depends only on what stood under their keys in the beginning. -/
theorem collisions_foldl_settle : ∀ (ds : List ε) (m : Merged ε), (ds.map key).Nodup →
    (ds.foldl (settle key claimed) m).collisions =
      m.collisions ++ ds.filter (fun e => !isGranted key claimed m.entries e)
  | [], m, _ => (List.append_nil _).symm
  | d :: ds, m, hn => by
    obtain ⟨hd, hn⟩ := List.nodup_cons.1 hn
    have hrest : ds.filter (fun e => !isGranted key claimed (settle key claimed m d).entries e) =
        ds.filter (fun e => !isGranted key claimed m.entries e) :=
      List.filter_congr (fun e he => congrArg not (isGranted_settle key claimed m (fun h =>
        hd (h ▸ List.mem_map_of_mem he))))
    rw [List.foldl_cons, collisions_foldl_settle ds _ hn, hrest, List.filter_cons, settle_eq]
    dsimp only
    cases isGranted key claimed m.entries d <;> simp

/-- A wish is settled where it stands, or where its key is claimed and something stands. -/
def IsSettled (entries : List ε) (d : ε) : Prop :=
  if key d ∈ claimed then key d ∈ entries.map key else standing key (key d) entries = some d

theorem entries_settle_of_isSettled {m : Merged ε} {d : ε} (h : IsSettled key claimed m.entries d) :
    (settle key claimed m d).entries = m.entries := by
  unfold IsSettled at h
  rw [settle_eq]
  dsimp only
  by_cases hc : key d ∈ claimed
  · rw [if_pos hc] at h
    rw [if_neg (not_not_intro hc), if_neg (fun hn => (Latest.standing_eq_none_iff key).1 hn h)]
  · rw [if_neg hc] at h
    rw [if_pos hc, Latest.put_of_standing key h]

theorem entries_foldl_settle_of_isSettled : ∀ (ds : List ε) {m : Merged ε},
    (∀ d ∈ ds, IsSettled key claimed m.entries d) → (ds.foldl (settle key claimed) m).entries = m.entries
  | [], _, _ => rfl
  | d :: ds, m, h => by
    have hstep := entries_settle_of_isSettled key claimed (h d List.mem_cons_self)
    rw [List.foldl_cons, entries_foldl_settle_of_isSettled ds (fun e he => ?_), hstep]
    rw [hstep]
    exact h e (List.mem_cons_of_mem d he)

end Merged

theorem isStale_eq_false {ε κ : Type} [DecidableEq κ] (key : ε → κ) {prior desired : List ε} (claimed : List κ) {k : κ}
    (h : k ∈ prior.map key → k ∈ desired.map key) : isStale key prior desired claimed k = false := by
  unfold isStale
  by_cases hk : k ∈ prior.map key
  · rw [decide_eq_true (h hk), Bool.not_true, Bool.and_false, Bool.false_and]
  · rw [decide_eq_false hk, Bool.false_and, Bool.false_and]

section Merge

open Merged (isGranted IsSettled)

variable {ε κ : Type} [DecidableEq ε] [DecidableEq κ] (key : ε → κ) (current prior desired : List ε) (claimed : List κ)

theorem collisions_merge : (merge key current prior desired claimed).collisions =
    (latest key desired).filter (fun e => !isGranted key claimed current e) := by
  rw [merge, Merged.collisions_foldl_settle key claimed _ _ (Latest.nodup_latest key desired), List.nil_append]
  exact List.filter_congr (fun e _ => congrArg not (isGranted_unstale key current prior desired claimed e))

/-- **Where every wish is settled and nothing is stale**, merging changes nothing. -/
theorem merge_entries_eq_self (hstale : ∀ e ∈ current, isStale key prior desired claimed (key e) = false)
    (hsettled : ∀ d ∈ latest key desired, IsSettled key claimed current d) :
    (merge key current prior desired claimed).entries = current := by
  have hstay : current.filter (fun e => !isStale key prior desired claimed (key e)) = current :=
    List.filter_eq_self.2 (fun e he => by rw [hstale e he]; rfl)
  rw [merge, hstay]
  exact Merged.entries_foldl_settle_of_isSettled key claimed _ hsettled

variable {current prior desired claimed}

theorem standing_merge_of_mem {d : ε} (h : d ∈ latest key desired) :
    standing key (key d) (merge key current prior desired claimed).entries =
      if key d ∈ claimed then (standing key (key d) current).or (some d) else some d := by
  rw [standing_merge, Latest.standing_of_mem key (Latest.nodup_latest key desired) h]

/-- **What stands under claimed keys** stays, in its order. -/
theorem sublist_merge :
    (current.filter (fun e => key e ∈ claimed)).Sublist (merge key current prior desired claimed).entries := by
  have hunstale : ∀ e : ε, decide (key e ∈ claimed) = true →
      (!isStale key prior desired claimed (key e)) = true := by
    intro e he
    simp only [isStale, he, Bool.not_true, Bool.and_false, Bool.not_false]
  refine Merged.sublist_foldl_settle key claimed _ (List.monotone_filter_right current hunstale) (fun e he => .inl ?_)
  exact of_decide_eq_true (List.mem_filter.1 he).2

/-- Whatever comes of a merge stood there or was wanted. -/
theorem mem_merge {e : ε} (h : e ∈ (merge key current prior desired claimed).entries) : e ∈ current ∨ e ∈ desired := by
  rcases Merged.mem_foldl_settle key claimed _ h with h | h
  · exact .inr (Latest.mem_of_mem_latest key h)
  · exact .inl (List.mem_filter.1 h).1

theorem isGranted_merge {d : ε} (h : d ∈ latest key desired) :
    isGranted key claimed (merge key current prior desired claimed).entries d = isGranted key claimed current d := by
  unfold isGranted
  rw [standing_merge_of_mem key h]
  by_cases hc : key d ∈ claimed
  · rw [if_pos hc]
    cases standing key (key d) current <;> simp
  · simp [hc]

theorem isSettled_merge {d : ε} (h : d ∈ latest key desired) :
    IsSettled key claimed (merge key current prior desired claimed).entries d := by
  have hs : standing key (key d) (merge key current prior desired claimed).entries =
      if key d ∈ claimed then (standing key (key d) current).or (some d) else some d := standing_merge_of_mem key h
  unfold IsSettled
  by_cases hc : key d ∈ claimed
  · rw [if_pos hc] at hs ⊢
    refine Classical.byContradiction (fun hn => ?_)
    rw [(Latest.standing_eq_none_iff key).2 hn] at hs
    exact absurd hs.symm (by simp)
  · rw [if_neg hc] at hs ⊢
    exact hs

theorem mem_owned_merge {d : ε} : d ∈ (merge key current prior desired claimed).owned ↔
    d ∈ latest key desired ∧ isGranted key claimed current d = true := by
  rw [owned_merge, List.mem_filter]

theorem mem_collisions_merge {d : ε} : d ∈ (merge key current prior desired claimed).collisions ↔
    d ∈ latest key desired ∧ isGranted key claimed current d = false := by
  rw [collisions_merge, List.mem_filter, Bool.not_eq_true']

theorem standing_of_isGranted {d : ε} (h : d ∈ latest key desired) (hg : isGranted key claimed current d = true) :
    standing key (key d) (merge key current prior desired claimed).entries = some d := by
  rw [standing_merge_of_mem key h]
  by_cases hc : key d ∈ claimed
  · rw [if_pos hc]
    unfold isGranted at hg
    cases hs : standing key (key d) current with
    | none => rfl
    | some x =>
      rw [hs] at hg
      have hx : x = d := by simpa [hc] using hg
      rw [hx]
      rfl
  · rw [if_neg hc]

/-- A wish that is not granted finds something else under its key, which is claimed. -/
theorem standing_of_not_isGranted {d : ε} (h : d ∈ latest key desired) (hg : isGranted key claimed current d = false) :
    key d ∈ claimed ∧
      ∃ x, standing key (key d) (merge key current prior desired claimed).entries = some x ∧ x ≠ d := by
  unfold isGranted at hg
  rw [Bool.or_eq_false_iff, decide_eq_false_iff_not, not_not] at hg
  obtain ⟨hc, hx⟩ := hg
  rw [standing_merge_of_mem key h, if_pos hc]
  cases hs : standing key (key d) current with
  | none =>
    rw [hs] at hx
    cases hx
  | some x =>
    rw [hs, Option.all_some, decide_eq_false_iff_not] at hx
    exact ⟨hc, x, rfl, hx⟩

/-- Merging a wish again, on behalf of whoever owns what came of it. -/
theorem merge_again : merge key (merge key current prior desired claimed).entries
    (merge key current prior desired claimed).owned desired claimed = merge key current prior desired claimed := by
  obtain ⟨m, hm⟩ : ∃ m, m = merge key current prior desired claimed := ⟨_, rfl⟩
  have hgrants : ∀ d ∈ latest key desired, isGranted key claimed m.entries d = isGranted key claimed current d :=
    fun d hd => by
      rw [hm]
      exact isGranted_merge key hd
  have hstale : ∀ e ∈ m.entries, isStale key m.owned desired claimed (key e) = false := by
    intro e _
    refine isStale_eq_false key claimed (fun h => ?_)
    obtain ⟨d, hd, hk⟩ := List.mem_map.1 h
    rw [hm] at hd
    rw [← hk]
    exact List.mem_map_of_mem (Latest.mem_of_mem_latest key ((mem_owned_merge key).1 hd).1)
  have hentries : (merge key m.entries m.owned desired claimed).entries = m.entries :=
    merge_entries_eq_self key _ _ _ _ hstale (fun d hd => by
      rw [hm]
      exact isSettled_merge key hd)
  have howned : (merge key m.entries m.owned desired claimed).owned = m.owned := by
    rw [owned_merge, hm, owned_merge, ← hm]
    exact List.filter_congr hgrants
  have hcollisions : (merge key m.entries m.owned desired claimed).collisions = m.collisions := by
    rw [collisions_merge, hm, collisions_merge, ← hm]
    exact List.filter_congr (fun d hd => congrArg not (hgrants d hd))
  rw [← hm]
  calc merge key m.entries m.owned desired claimed
      = ⟨(merge key m.entries m.owned desired claimed).entries, (merge key m.entries m.owned desired claimed).owned,
          (merge key m.entries m.owned desired claimed).collisions⟩ := rfl
    _ = m := by rw [hentries, howned, hcollisions]

end Merge

/-! ## Contributors that know their own entries -/

section Own

variable {ε κ : Type} {key : ε → κ} {owns : ε → Bool} {xs ys ds : List ε}

/-- The keys under which somebody else has an entry. -/
def othersKeys (key : ε → κ) (owns : ε → Bool) (xs : List ε) : List κ := (xs.filter (fun e => !owns e)).map key

theorem mem_othersKeys {k : κ} : k ∈ othersKeys key owns xs ↔ ∃ e ∈ xs, owns e = false ∧ key e = k := by
  simp [othersKeys, and_assoc]

variable [DecidableEq κ]

/-- The contributor has nothing beside its wishes, and every wish stands unless somebody else has its key. -/
structure InOrder (key : ε → κ) (owns : ε → Bool) (xs ds : List ε) : Prop where
  nodup : (xs.map key).Nodup
  mine : ∀ e ∈ xs, owns e = true → key e ∈ ds.map key
  stands : ∀ d ∈ latest key ds, key d ∉ othersKeys key owns xs → standing key (key d) xs = some d

/-- The order of the entries does not matter. -/
theorem InOrder.of_mem_iff (h : InOrder key owns xs ds) (hn : (ys.map key).Nodup) (he : ∀ e, e ∈ ys ↔ e ∈ xs) :
    InOrder key owns ys ds := by
  refine ⟨hn, fun e hm => h.mine e ((he e).1 hm), fun d hd hfree => ?_⟩
  have hstands := h.stands d hd (fun hc => hfree (by
    obtain ⟨e, hm, ho, hk⟩ := mem_othersKeys.1 hc
    exact mem_othersKeys.2 ⟨e, (he e).2 hm, ho, hk⟩))
  exact Latest.standing_of_mem key hn ((he d).2 (Latest.mem_of_standing key hstands))

variable [DecidableEq ε]

/-- The entries after a contributor, which knows its own ones when it sees them, has replaced these. -/
def mergeOwn (key : ε → κ) (owns : ε → Bool) (xs ds : List ε) : List ε :=
  (merge key xs (xs.filter owns) ds (othersKeys key owns xs)).entries

/-- **Entries in order stay as they are.** -/
theorem InOrder.mergeOwn_eq (h : InOrder key owns xs ds) : mergeOwn key owns xs ds = xs := by
  refine merge_entries_eq_self key _ _ _ _ (fun e _ => isStale_eq_false key _ (fun hk => ?_)) (fun d hd => ?_)
  · obtain ⟨x, hx, hk⟩ := List.mem_map.1 hk
    obtain ⟨hx, ho⟩ := List.mem_filter.1 hx
    rw [← hk]
    exact h.mine x hx ho
  · unfold Merged.IsSettled
    split
    case isTrue hc =>
      obtain ⟨e, he, -, hk⟩ := mem_othersKeys.1 hc
      rw [← hk]
      exact List.mem_map_of_mem he
    case isFalse hc => exact h.stands d hd hc

/-- **Merging brings order**, if the contributor will know the wanted entries for its own. -/
theorem inOrder_mergeOwn (hn : (xs.map key).Nodup) (ho : ∀ d ∈ ds, owns d = true) :
    InOrder key owns (mergeOwn key owns xs ds) ds := by
  have hothers : othersKeys key owns (mergeOwn key owns xs ds) = othersKeys key owns xs := by
    unfold othersKeys
    congr 1
    refine filter_merge key _ _ (fun e he hk => ?_) (fun d hd => by rw [ho d hd]; rfl)
    exact List.mem_map_of_mem (List.mem_filter.2 ⟨he, hk⟩)
  have hnodup : ((mergeOwn key owns xs ds).map key).Nodup := nodup_merge key _ _ _ hn
  refine ⟨hnodup, fun e he howned => ?_, fun d hd hfree => ?_⟩
  · have hstands := Latest.standing_of_mem key hnodup he
    unfold mergeOwn at hstands
    rw [standing_merge] at hstands
    cases hd : standing key (key e) (latest key ds) with
    | some d =>
      rw [← Latest.mem_keys_latest, ← Latest.key_of_standing key hd]
      exact List.mem_map_of_mem (Latest.mem_of_standing key hd)
    | none =>
      rw [hd] at hstands
      dsimp only at hstands
      split at hstands
      case isTrue => cases hstands
      case isFalse hkept =>
        -- the entry stood there before, so it was given up, unless somebody else had its key as well
        have hmem := Latest.mem_of_standing key hstands
        refine absurd ⟨List.mem_map_of_mem (List.mem_filter.2 ⟨hmem, howned⟩), fun hc => ?_⟩ hkept
        obtain ⟨x, hx, hother, hk⟩ := mem_othersKeys.1 hc
        have hsame : some x = some e := by rw [← Latest.standing_of_mem key hn hx, hk, hstands]
        rw [Option.some.inj hsame, howned] at hother
        cases hother
  · rw [hothers] at hfree
    unfold mergeOwn
    rw [standing_merge_of_mem key hd, if_neg hfree]

/-- **What comes of a contributor's merge**: the entries of others, and every wish whose key no other has. -/
theorem mem_mergeOwn_iff (hn : (xs.map key).Nodup) (hd : (ds.map key).Nodup) {e : ε} :
    e ∈ mergeOwn key owns xs ds ↔ e ∈ xs ∧ owns e = false ∨ e ∈ ds ∧ key e ∉ othersKeys key owns xs := by
  have hother : e ∈ xs → owns e = false → key e ∈ othersKeys key owns xs := fun he ho =>
    mem_othersKeys.2 ⟨e, he, ho, rfl⟩
  have hnodup : ((mergeOwn key owns xs ds).map key).Nodup := nodup_merge key _ _ _ hn
  rw [Latest.mem_iff_standing key hnodup, mergeOwn, standing_merge, Latest.latest_of_nodup key hd]
  by_cases hc : key e ∈ othersKeys key owns xs
  · -- one entry of another has the key, and it stands there before and after
    obtain ⟨x, hx, ho, hk⟩ := mem_othersKeys.1 hc
    have hx' : standing key (key e) xs = some x := by rw [← hk, Latest.standing_of_mem key hn hx]
    have hstays : some x = some e ↔ e ∈ xs ∧ owns e = false := by
      constructor
      · rintro ⟨⟩
        exact ⟨hx, ho⟩
      · rintro ⟨he, -⟩
        rw [← hx', Latest.standing_of_mem key hn he]
    rw [hx']
    cases standing key (key e) ds <;> simp [hc, hstays]
  · have hnone : ¬ (e ∈ xs ∧ owns e = false) := fun h => hc (hother h.1 h.2)
    rw [Latest.mem_iff_standing key hd]
    cases hwish : standing key (key e) ds with
    | some d => simp [hc, hnone]
    | none =>
      dsimp only
      split
      case isTrue => simp [hnone]
      case isFalse hkept =>
        refine iff_of_false (fun hs => ?_) (by simp [hnone])
        have he := Latest.mem_of_standing key hs
        cases ho : owns e with
        | false => exact hnone ⟨he, ho⟩
        | true => exact hkept ⟨List.mem_map_of_mem (List.mem_filter.2 ⟨he, ho⟩), hc⟩

end Own

/-! ## All laws -/

/-- What merging guarantees of its result. -/
structure Merged.Lawful {ε κ : Type} [DecidableEq ε] [DecidableEq κ] (key : ε → κ) (current prior desired : List ε)
    (claimed : List κ) (m : Merged ε) : Prop where
  /-- What is claimed, and what is nobody's business, stays as it is and in its order. -/
  stays : (current.filter (fun e => key e ∈ claimed ∨ key e ∉ prior.map key ∧ key e ∉ desired.map key)).Sublist m.entries
  /-- What was given up is gone. -/
  gone : ∀ k ∈ prior.map key, k ∉ desired.map key → k ∉ claimed → k ∉ m.entries.map key
  owned_sublist : m.owned.Sublist (Latest.lastOfEach key desired)
  collisions_sublist : m.collisions.Sublist (Latest.lastOfEach key desired)
  /-- Every wish is either owned or collides, and nothing else is. -/
  parted : (m.owned ++ m.collisions).Perm (Latest.lastOfEach key desired)
  owned_stands : ∀ e ∈ m.owned, e ∈ m.entries
  /-- A collision is with something else that stands first under a claimed key. -/
  collides : ∀ e ∈ m.collisions, key e ∈ claimed ∧ ∃ x, standing key (key e) m.entries = some x ∧ x ≠ e
  keys : ∀ k ∈ m.entries.map key, k ∈ current.map key ∨ k ∈ desired.map key
  nodup : (current.map key).Nodup → (m.entries.map key).Nodup
  /-- Merging the same wish again changes nothing. -/
  again : merge key m.entries m.owned desired claimed = m

/-- **Merging is lawful**, whatever the lists and the claims are. -/
theorem merge_lawful {ε κ : Type} [DecidableEq ε] [DecidableEq κ] (key : ε → κ) (current prior desired : List ε)
    (claimed : List κ) :
    (merge key current prior desired claimed).Lawful key current prior desired claimed := by
  have hlast := Latest.latest_eq_lastOfEach key desired
  have hmem : ∀ {e}, e ∈ latest key desired → key e ∈ desired.map key := fun he =>
    List.mem_map_of_mem (Latest.mem_of_mem_latest key he)
  have hunwanted : ∀ {k}, k ∉ desired.map key → standing key k (latest key desired) = none := fun hk =>
    (Latest.standing_eq_none_iff key).2 (fun h => hk ((Latest.mem_keys_latest key).1 h))
  constructor
  case stays =>
    rw [merge]
    refine Merged.sublist_foldl_settle key claimed _ (List.monotone_filter_right current (fun x hx => ?_))
      (fun x hx => ?_)
    · -- whatever stays is not stale
      unfold isStale
      rcases of_decide_eq_true hx with hc | ⟨hp, -⟩
      · simp [hc]
      · simp [hp]
    · refine (of_decide_eq_true (List.mem_filter.1 hx).2).imp_right (fun hn hk => hn.2 ?_)
      exact (Latest.mem_keys_latest key).1 hk
  case gone =>
    intro k hp hd hc
    rw [← Latest.standing_eq_none_iff, standing_merge, hunwanted hd]
    exact if_pos ⟨hp, hc⟩
  case owned_sublist =>
    rw [owned_merge, ← hlast]
    exact List.filter_sublist
  case collisions_sublist =>
    rw [collisions_merge, ← hlast]
    exact List.filter_sublist
  case parted =>
    rw [owned_merge, collisions_merge, ← hlast]
    exact List.filter_append_perm _ _
  case owned_stands =>
    intro e he
    obtain ⟨he, hg⟩ := (mem_owned_merge key).1 he
    exact Latest.mem_of_standing key (standing_of_isGranted key he hg)
  case collides =>
    intro e he
    obtain ⟨he, hg⟩ := (mem_collisions_merge key).1 he
    exact standing_of_not_isGranted key he hg
  case keys =>
    intro k hk
    refine Classical.byContradiction (fun hn => ?_)
    obtain ⟨hc, hd⟩ := not_or.1 hn
    refine (Latest.standing_eq_none_iff key).1 ?_ hk
    rw [standing_merge, hunwanted hd, (Latest.standing_eq_none_iff key).2 hc]
    exact ite_self none
  case nodup => exact nodup_merge key prior desired claimed
  case again => exact merge_again key

end ServiceExposure
