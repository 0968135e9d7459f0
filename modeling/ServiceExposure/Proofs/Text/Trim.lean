import Mathlib.Data.List.TakeWhile
import ServiceExposure.Text.Basic
/-!
# What trimming leaves

Every text is what trimming leaves of it, with blanks around that (`Text.padded_trim`).  So trimming again changes nothing
(`Text.trim_trim`), and nothing is left of a text exactly when it is blank (`Text.blank_iff`).  What trims to a text
without blanks at its ends is that text with blanks around it (`Text.trim_eq_iff`).
-/
namespace ServiceExposure
namespace Text

variable {c : Char} {s t : String}

/-- A text of nothing but blanks. -/
def Blank (s : String) : Prop := ∀ c ∈ s.toList, isBlank c = true

instance (s : String) : Decidable (Blank s) := decidable_of_iff (s.toList.all isBlank = true) List.all_eq_true

/-- A text that is not empty and has a blank at neither end. -/
structure Bare (s : String) : Prop where
  ne_empty : s ≠ ""
  first : ∀ c ∈ s.toList.head?, isBlank c = false
  last : ∀ c ∈ s.toList.getLast?, isBlank c = false

instance (s : String) : Decidable (Bare s) :=
  decidable_of_iff (s ≠ "" ∧ s.toList.head?.all (!isBlank ·) = true ∧ s.toList.getLast?.all (!isBlank ·) = true) <| by
    simp only [Option.all_eq_true, Bool.not_eq_true']
    exact ⟨fun h => ⟨h.1, h.2.1, h.2.2⟩, fun h => ⟨h.ne_empty, h.first, h.last⟩⟩

/-- The second text is the first with any blanks around it. -/
def Padded (s padded : String) : Prop := ∃ before after, Blank before ∧ Blank after ∧ padded = before ++ s ++ after

theorem blank_empty : Blank "" := fun _ h => nomatch h

theorem Blank.append (hs : Blank s) (ht : Blank t) : Blank (s ++ t) := by
  intro c hc
  rw [String.toList_append] at hc
  exact (List.mem_append.1 hc).elim (hs c) (ht c)

theorem Blank.not_mem (h : Blank s) (hc : isBlank c = false) : c ∉ s.toList := fun hmem => by
  rw [h c hmem] at hc
  cases hc

/-- The blanks around a text hold nothing that is no blank. -/
theorem Padded.mem_iff (h : Padded s t) (hc : isBlank c = false) : c ∈ t.toList ↔ c ∈ s.toList := by
  obtain ⟨before, after, hbefore, hafter, rfl⟩ := h
  simp [hbefore.not_mem hc, hafter.not_mem hc]

/-- Blanks around a text are trimmed off. -/
theorem Padded.trim_eq (h : Padded s t) : trim t = trim s := by
  obtain ⟨before, after, hbefore, hafter, rfl⟩ := h
  have hend : ∀ cs : List Char, trimEnd (cs ++ after.toList) = trimEnd cs := fun cs => by
    unfold trimEnd
    rw [List.reverse_append, List.dropWhile_append_of_pos (fun c hc => hafter c (List.mem_reverse.1 hc))]
  refine String.toList_inj.1 ?_
  rw [toList_trim, toList_trim, trimChars, trimChars, String.append_assoc, String.toList_append, String.toList_append,
    List.dropWhile_append_of_pos hbefore, List.dropWhile_append]
  split
  case isTrue hs =>
    have hnone : after.toList.dropWhile isBlank = [] := List.dropWhile_eq_nil_iff.2 hafter
    rw [hnone, List.isEmpty_iff.1 hs]
  case isFalse => exact hend _

/-- Every text is what is left of it, with blanks around that. -/
theorem padded_trim (s : String) : Padded (trim s) s := by
  have hfront : s.toList = s.toList.takeWhile isBlank ++ s.toList.dropWhile isBlank :=
    List.takeWhile_append_dropWhile.symm
  have hend : ∀ cs : List Char, cs = trimEnd cs ++ (cs.reverse.takeWhile isBlank).reverse := fun cs => by
    unfold trimEnd
    rw [← List.reverse_append, List.takeWhile_append_dropWhile, List.reverse_reverse]
  refine ⟨String.ofList (s.toList.takeWhile isBlank),
    String.ofList ((s.toList.dropWhile isBlank).reverse.takeWhile isBlank).reverse, fun c hc => ?_, fun c hc => ?_, ?_⟩
  · rw [String.toList_ofList] at hc
    exact List.mem_takeWhile_imp hc
  · rw [String.toList_ofList] at hc
    exact List.mem_takeWhile_imp (List.mem_reverse.1 hc)
  · refine String.toList_inj.1 ?_
    rw [String.toList_append, String.toList_append, String.toList_ofList, String.toList_ofList, toList_trim, trimChars,
      List.append_assoc, ← hend, ← hfront]

theorem Bare.trim_eq (h : Bare s) : trim s = s := by
  have hdrop : ∀ {cs : List Char}, (∀ c ∈ cs.head?, isBlank c = false) → cs.dropWhile isBlank = cs := fun {cs} hcs => by
    cases cs with
    | nil => rfl
    | cons c cs => exact List.dropWhile_cons_of_neg (by simp [hcs c rfl])
  refine String.toList_inj.1 ?_
  rw [toList_trim, trimChars, trimEnd, hdrop h.first, hdrop (by rw [List.head?_reverse]; exact h.last),
    List.reverse_reverse]

/-- **Trimming again** changes nothing. -/
theorem trim_trim (s : String) : trim (trim s) = trim s := (padded_trim s).trim_eq.symm

/-- **What trims to a text** is the text with blanks around it. -/
theorem trim_eq_iff (hs : Bare s) : trim t = s ↔ Padded s t :=
  ⟨fun h => h ▸ padded_trim t, fun h => h.trim_eq.trans hs.trim_eq⟩

theorem blank_iff : Blank s ↔ trim s = "" := by
  constructor
  · intro h
    have hpadded : Padded "" s := ⟨s, "", h, blank_empty, by simp⟩
    exact hpadded.trim_eq
  · intro h
    obtain ⟨before, after, hbefore, hafter, hs⟩ := padded_trim s
    rw [hs, h, String.append_empty]
    exact hbefore.append hafter

end Text
end ServiceExposure
