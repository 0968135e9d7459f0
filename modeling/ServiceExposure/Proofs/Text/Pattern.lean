import ServiceExposure.Text.Pattern
/-!
# The match that is preferred

A backtracking matcher takes an earlier alternative before a later one, whatever follows (`Pattern.head?_captures_oneOf`),
and the rest of a line as a whole (`Pattern.head?_captures_rest`).
-/
namespace ServiceExposure
namespace Pattern

theorem head?_splits : ∀ cs : List Char, (splits cs).head? = some (cs, [])
  | [] => rfl
  | c :: cs => by
    rw [splits, List.head?_append, List.head?_map, head?_splits cs]
    rfl

/-- **As much as possible** is taken of a line. -/
theorem head?_captures_rest (cs : List Char) :
    (captures [.rest] cs).head? = some [String.ofList (cs.takeWhile (· ≠ '\n'))] := by
  rw [captures, List.head?_flatMap, takes]
  obtain ⟨others, hsplits⟩ := List.head?_eq_some_iff.1 (head?_splits (cs.takeWhile (· ≠ '\n')))
  rw [hsplits]
  rfl

/-- **The first alternative** with which the pattern matches is taken. -/
theorem head?_captures_oneOf (texts : List String) (p : Pattern) (cs : List Char) :
    (captures (.oneOf texts :: p) cs).head? =
      texts.findSome? (fun t => (t.toList.isPrefixOf? cs).bind (fun left => ((captures p left).head?).map (t :: ·))) := by
  induction texts with
  | nil => rfl
  | cons t texts ih =>
    rw [captures, takes] at ih ⊢
    rw [List.filterMap_cons, List.findSome?_cons, ← ih]
    cases ht : t.toList.isPrefixOf? cs with
    | none => rfl
    | some left =>
      dsimp only [Option.map_some]
      rw [List.flatMap_cons, List.head?_append, List.head?_map, Option.bind_some]
      cases (captures p left).head? <;> rfl

end Pattern
end ServiceExposure
