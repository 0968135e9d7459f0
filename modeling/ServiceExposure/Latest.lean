/-!
# Lists with one element per key

Several collections hold at most one element of each key and keep the order in which the keys came first.  `put` gives
a key its element, in place of the one it had or else at the end; `latest` puts the elements of a list one after the
other, so of several elements with one key the last stays, at the place of the first.
-/
namespace ServiceExposure
namespace Latest

variable {α κ : Type} [DecidableEq κ] (key : α → κ)

/-- Gives the key of `x` the element `x`: in the place of the first element with that key, or at the end. -/
def put (x : α) : List α → List α
  | [] => [x]
  | y :: ys => if key y = key x then x :: ys else y :: put x ys

/-- Keeps the last of several elements with one key, at the place of the first. -/
def latest (xs : List α) : List α := xs.foldl (fun acc x => put key x acc) []

theorem mem_put {x y : α} : ∀ {xs : List α}, y ∈ put key x xs → y = x ∨ y ∈ xs
  | [], h => by simpa [put] using h
  | z :: xs, h => by
    simp only [put] at h
    split at h
    · rcases List.mem_cons.1 h with h | h
      · exact .inl h
      · exact .inr (List.mem_cons.2 (.inr h))
    · rcases List.mem_cons.1 h with h | h
      · exact .inr (List.mem_cons.2 (.inl h))
      · rcases mem_put h with h | h
        · exact .inl h
        · exact .inr (List.mem_cons.2 (.inr h))

/-- The keys of a list after `put`: one more at the end if the key is new. -/
theorem map_key_put {x : α} : ∀ {xs : List α},
    (put key x xs).map key = if key x ∈ xs.map key then xs.map key else xs.map key ++ [key x]
  | [] => by simp [put]
  | z :: xs => by
    simp only [put]
    split
    · rename_i h
      simp [h]
    · rename_i h
      rw [List.map_cons, map_key_put]
      simp only [List.map_cons, List.mem_cons, Ne.symm h, false_or]
      split <;> simp

theorem nodup_put {x : α} {xs : List α} (h : (xs.map key).Nodup) : ((put key x xs).map key).Nodup := by
  rw [map_key_put]
  split
  · exact h
  · rename_i hx
    exact List.nodup_append.2 ⟨h, List.nodup_cons.2 ⟨by simp, .nil⟩, fun a ha b hb e => by
      rw [List.mem_singleton] at hb
      exact hx (hb ▸ e ▸ ha)⟩

theorem nodup_foldl_put : ∀ (xs : List α) {acc : List α}, (acc.map key).Nodup →
    ((xs.foldl (fun acc x => put key x acc) acc).map key).Nodup
  | [], _, h => h
  | x :: xs, _, h => nodup_foldl_put xs (nodup_put key (x := x) h)

theorem nodup_latest (xs : List α) : ((latest key xs).map key).Nodup := nodup_foldl_put key xs .nil

end Latest
end ServiceExposure
