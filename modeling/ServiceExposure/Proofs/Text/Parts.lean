import ServiceExposure.Text.Basic
/-!
# Parts of a text

Joining the parts of a text that was split gives the text again, and splitting what was joined gives the parts as long
as no separator is in them (`Text.join_fields`, `Text.fields_join`).  A text is cut at its first separator
(`Text.cutAt_eq_some_iff`), and there is only one way to cut it at the last (`Text.cut_at_last`).
-/
namespace ServiceExposure
namespace Text

variable {sep : Char} {s front back : String}

theorem toList_join (sep : String) : ∀ parts : List String,
    (join sep parts).toList = sep.toList.intercalate (parts.map String.toList)
  | [] => rfl
  | [s] => by rw [join, List.map_singleton, List.intercalate_singleton]
  | s :: t :: parts => by
    rw [join, String.toList_append, String.toList_append, toList_join sep (t :: parts), List.map_cons, List.map_cons,
      List.map_cons, List.intercalate_cons_cons]

theorem join_fields (sep : Char) (s : String) : join (String.singleton sep) (fields sep s) = s := by
  have hmap : (fields sep s).map String.toList = s.toList.splitOn sep := by simp [fields, Function.comp_def]
  refine String.toList_inj.1 ?_
  rw [toList_join, hmap, String.toList_singleton, List.intercalate_splitOn]

theorem fields_join {parts : List String} (hne : parts ≠ []) (h : ∀ part ∈ parts, sep ∉ part.toList) :
    fields sep (join (String.singleton sep) parts) = parts := by
  have hsep : ∀ cs ∈ parts.map String.toList, sep ∉ cs := fun cs hcs => by
    obtain ⟨part, hpart, rfl⟩ := List.mem_map.1 hcs
    exact h part hpart
  rw [fields, toList_join, String.toList_singleton, List.splitOn_intercalate sep hsep (by simpa using hne)]
  simp [Function.comp_def]

theorem cutAt_eq_none_iff : cutAt sep s = none ↔ sep ∉ s.toList := by
  rw [cutAt, Option.map_eq_none_iff, cutChars_eq_none_iff]

theorem cutAt_eq_some_iff :
    cutAt sep s = some (front, back) ↔ s = front ++ String.singleton sep ++ back ∧ sep ∉ front.toList := by
  have hs : s = front ++ String.singleton sep ++ back ↔ s.toList = front.toList ++ sep :: back.toList := by
    rw [← String.toList_inj]
    simp
  rw [hs, ← cutChars_eq_some_iff, cutAt, Option.map_eq_some_iff]
  constructor
  · rintro ⟨⟨cs, ds⟩, hcut, hp⟩
    obtain ⟨rfl, rfl⟩ := Prod.mk.inj hp
    rw [hcut, String.toList_ofList, String.toList_ofList]
  · intro hcut
    exact ⟨_, hcut, by rw [String.ofList_toList, String.ofList_toList]⟩

/-- A text with a separator in it is cut. -/
theorem exists_cutAt (h : sep ∈ s.toList) : ∃ front back, cutAt sep s = some (front, back) := by
  obtain ⟨⟨front, back⟩, hcut⟩ := Option.ne_none_iff_exists'.1 (fun hnone => cutAt_eq_none_iff.1 hnone h)
  exact ⟨front, back, hcut⟩

/-- There is only one last separator. -/
theorem cut_at_last {sep : Char} {a a' b b' : List Char} (hb : sep ∉ b) (hb' : sep ∉ b')
    (h : a ++ sep :: b = a' ++ sep :: b') : a = a' ∧ b = b' := by
  have hr : b.reverse ++ sep :: a.reverse = b'.reverse ++ sep :: a'.reverse := by
    have := congrArg List.reverse h
    simpa using this
  have hc : cutChars sep (b.reverse ++ sep :: a.reverse) = some (b.reverse, a.reverse) :=
    cutChars_eq_some_iff.2 ⟨rfl, fun hm => hb (List.mem_reverse.1 hm)⟩
  have hc' : cutChars sep (b.reverse ++ sep :: a.reverse) = some (b'.reverse, a'.reverse) :=
    cutChars_eq_some_iff.2 ⟨hr, fun hm => hb' (List.mem_reverse.1 hm)⟩
  rw [hc] at hc'
  simp only [Option.some.injEq, Prod.mk.injEq, List.reverse_inj] at hc'
  exact ⟨hc'.2, hc'.1⟩

end Text
end ServiceExposure
