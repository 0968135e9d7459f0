/-!
# Text: trimming, splitting and comparing

Configuration values and annotations are read as text.  Everything here works on the characters of a string, so
that a statement about a reader is a statement about a list: `trim` takes the blanks off both ends, `cutAt` parts a
text at its first separator, `dropStem` takes a known beginning off, `dropTail` a known end.  Blank means the Unicode
class White_Space; letters are compared without case for ASCII only.
-/
namespace ServiceExposure
namespace Text

/-- The characters of the Unicode class White_Space, as inclusive ranges of code points. -/
def blankRanges : List (Nat × Nat) :=
  [(0x09, 0x0D), (0x20, 0x20), (0x85, 0x85), (0xA0, 0xA0), (0x1680, 0x1680), (0x2000, 0x200A), (0x2028, 0x2029),
   (0x202F, 0x202F), (0x205F, 0x205F), (0x3000, 0x3000)]

def isBlank (c : Char) : Bool := blankRanges.any (fun r => r.1 ≤ c.toNat && c.toNat ≤ r.2)

/-- The characters that are left when the blanks at the end are taken off. -/
def trimEnd (cs : List Char) : List Char := (cs.reverse.dropWhile isBlank).reverse

/-- The characters that are left when the blanks at both ends are taken off. -/
def trimChars (cs : List Char) : List Char := trimEnd (cs.dropWhile isBlank)

/-- The text that is left when the blanks at both ends are taken off. -/
def trim (s : String) : String := String.ofList (trimChars s.toList)

@[simp] theorem toList_trim (s : String) : (trim s).toList = trimChars s.toList := String.toList_ofList

/-- Parts a list at the first `sep`, which is in neither part. -/
def cutChars (sep : Char) : List Char → Option (List Char × List Char)
  | [] => none
  | c :: cs => if c = sep then some ([], cs) else (cutChars sep cs).map (fun p => (c :: p.1, p.2))

/-- Parts a text at the first `sep`. -/
def cutAt (sep : Char) (s : String) : Option (String × String) :=
  (cutChars sep s.toList).map (fun p => (String.ofList p.1, String.ofList p.2))

theorem cutChars_eq_some_iff {sep : Char} : ∀ {cs a b : List Char},
    cutChars sep cs = some (a, b) ↔ cs = a ++ sep :: b ∧ sep ∉ a
  | [], a, b => by simp [cutChars]
  | c :: cs, a, b => by
    by_cases hc : c = sep
    · subst hc
      cases a with
      | nil => simp [cutChars]
      | cons x a => simp only [cutChars, if_true, Option.some.injEq, Prod.mk.injEq, List.nil_eq, reduceCtorEq,
          false_and, List.cons_append, List.cons.injEq, List.mem_cons, false_iff]; rintro ⟨⟨rfl, -⟩, h⟩; simp at h
    · cases a with
      | nil => simp [cutChars, hc]
      | cons x a =>
        simp only [cutChars, hc, if_false, Option.map_eq_some_iff, Prod.exists, Prod.mk.injEq, List.cons.injEq,
          List.cons_append, List.mem_cons, not_or]
        constructor
        · rintro ⟨p, q, h, ⟨rfl, rfl⟩, rfl⟩
          obtain ⟨rfl, hn⟩ := cutChars_eq_some_iff.1 h
          exact ⟨⟨rfl, rfl⟩, fun h => hc h.symm, hn⟩
        · rintro ⟨⟨rfl, rfl⟩, -, hn⟩
          exact ⟨a, b, cutChars_eq_some_iff.2 ⟨rfl, hn⟩, ⟨rfl, rfl⟩, rfl⟩

theorem cutChars_eq_none_iff {sep : Char} : ∀ {cs : List Char}, cutChars sep cs = none ↔ sep ∉ cs
  | [] => by simp [cutChars]
  | c :: cs => by
    by_cases hc : c = sep
    · simp [cutChars, hc]
    · simp [cutChars, hc, @cutChars_eq_none_iff sep cs, Ne.symm hc]

/-- What follows `stem` in a text that begins with it. -/
def dropStem (stem s : String) : Option String := (stem.toList.isPrefixOf? s.toList).map String.ofList

/-- What precedes `tail` in a text that ends with it. -/
def dropTail (tail s : String) : Option String :=
  (tail.toList.reverse.isPrefixOf? s.toList.reverse).map (fun cs => String.ofList cs.reverse)

theorem isPrefixOf?_eq_some_iff {α : Type} [BEq α] [LawfulBEq α] : ∀ {l xs r : List α},
    l.isPrefixOf? xs = some r ↔ xs = l ++ r
  | [], xs, r => by
    change some xs = some r ↔ xs = r
    exact Option.some_inj
  | x :: l, [], r => ⟨nofun, nofun⟩
  | x :: l, y :: ys, r => by
    change (if x == y then l.isPrefixOf? ys else none) = some r ↔ y :: ys = x :: l ++ r
    by_cases h : x = y
    · simp [h, @isPrefixOf?_eq_some_iff _ _ _ l ys]
    · simp [h, Ne.symm h]

theorem dropStem_eq_some_iff {stem s r : String} : dropStem stem s = some r ↔ s = stem ++ r := by
  simp only [dropStem, Option.map_eq_some_iff, isPrefixOf?_eq_some_iff]
  constructor
  · rintro ⟨cs, h, rfl⟩
    exact String.toList_inj.1 (by simp [h])
  · rintro rfl
    exact ⟨r.toList, by simp, String.ofList_toList⟩

theorem dropTail_eq_some_iff {tail s r : String} : dropTail tail s = some r ↔ s = r ++ tail := by
  simp only [dropTail, Option.map_eq_some_iff, isPrefixOf?_eq_some_iff]
  constructor
  · rintro ⟨cs, h, rfl⟩
    refine String.toList_inj.1 ?_
    have := congrArg List.reverse h
    simpa using this
  · rintro rfl
    exact ⟨r.toList.reverse, by simp, by simp⟩

/-- Small ASCII letters for capital ones; every other character stays as it is. -/
def lower (s : String) : String := String.ofList (s.toList.map Char.toLower)

/-- Compares two texts without regard to the case of ASCII letters. -/
def sameIgnoringCase (s t : String) : Bool := s.toList.map Char.toLower = t.toList.map Char.toLower

/-- The value of a hexadecimal digit. -/
def hexDigit? (c : Char) : Option Nat :=
  if '0' ≤ c ∧ c ≤ '9' then some (c.toNat - '0'.toNat)
  else if 'a' ≤ c ∧ c ≤ 'f' then some (c.toNat - 'a'.toNat + 10)
  else if 'A' ≤ c ∧ c ≤ 'F' then some (c.toNat - 'A'.toNat + 10)
  else none

/-- The texts between the occurrences of `sep`, one more than there are occurrences. -/
def fields (sep : Char) (s : String) : List String := (s.toList.splitOn sep).map String.ofList

/-- Joins texts with `sep` between them. -/
def join (sep : String) : List String → String
  | [] => ""
  | [s] => s
  | s :: t :: ss => s ++ sep ++ join sep (t :: ss)

end Text
end ServiceExposure
