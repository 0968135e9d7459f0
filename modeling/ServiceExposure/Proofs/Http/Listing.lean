import Mathlib.Data.List.Basic
import ServiceExposure.Http.Fqdn
import ServiceExposure.Proofs.Text.Parts
import ServiceExposure.Proofs.Text.Trim
/-!
# How a list of alternatives is written

A list is written as items with commas between them, each with any blanks around its parts, and blank items wherever one
likes (`AlternativeFqdn.Lists`).  Whatever is read from a text, the text is written that way
(`AlternativeFqdn.Lists.of_filterMap`); and a list without separators in its hosts and secrets is read from every text
that it can be written as (`AlternativeFqdn.parseList_eq_iff_lists`).
-/
namespace ServiceExposure
namespace AlternativeFqdn

variable {item list : String} {items : List String} {a : AlternativeFqdn} {alternatives : List AlternativeFqdn}

/-- A host and a secret that can be told from the text of a list: neither is empty or has blanks at its ends, no comma
is in them, and no colon in the host. -/
structure Listable (a : AlternativeFqdn) : Prop where
  fqdn : Text.Bare a.fqdn
  comma : ',' ∉ a.fqdn.toList
  colon : ':' ∉ a.fqdn.toList
  certificate : ∀ secret ∈ a.certificate, Text.Bare secret ∧ ',' ∉ secret.toList

instance (a : AlternativeFqdn) : Decidable a.Listable :=
  decidable_of_iff (Text.Bare a.fqdn ∧ ',' ∉ a.fqdn.toList ∧ ':' ∉ a.fqdn.toList ∧
      ∀ secret ∈ a.certificate, Text.Bare secret ∧ ',' ∉ secret.toList)
    ⟨fun h => ⟨h.1, h.2.1, h.2.2.1, h.2.2.2⟩, fun h => ⟨h.fqdn, h.comma, h.colon, h.certificate⟩⟩

/-- How an item is written: the host and, after a colon, the secret, with any blanks around them.  A colon with nothing
but blanks behind it names no secret. -/
inductive Spells : String → AlternativeFqdn → Prop
  | host {fqdn item : String} (hhost : Text.Padded fqdn item) : Spells item ⟨fqdn, none⟩
  | unnamed {fqdn host rest : String} (hhost : Text.Padded fqdn host) (hrest : Text.Blank rest) :
      Spells (host ++ ":" ++ rest) ⟨fqdn, none⟩
  | named {fqdn secret host rest : String} (hhost : Text.Padded fqdn host) (hrest : Text.Padded secret rest) :
      Spells (host ++ ":" ++ rest) ⟨fqdn, some secret⟩

/-- How a list is written: an item for each alternative in order, and any blank items between and around them. -/
inductive Lists : List String → List AlternativeFqdn → Prop
  | nil : Lists [] []
  | blank {item : String} {items : List String} {alternatives : List AlternativeFqdn} (hitem : Text.Blank item)
      (hitems : Lists items alternatives) : Lists (item :: items) alternatives
  | written {item : String} {items : List String} {a : AlternativeFqdn} {alternatives : List AlternativeFqdn}
      (hitem : Spells item a) (hitems : Lists items alternatives) : Lists (item :: items) (a :: alternatives)

/-! ## One item -/

/-- What an item is read as; a blank one is passed over. -/
def item? (item : String) : Option AlternativeFqdn :=
  if Text.trim item = "" then none else some (ofItem (Text.trim item))

theorem item?_eq_none_iff : item? item = none ↔ Text.Blank item := by
  rw [Text.blank_iff, item?]
  split <;> simp [*]

theorem item?_of_not_mem (hcolon : ':' ∉ item.toList) (hne : Text.trim item ≠ "") :
    item? item = some ⟨Text.trim item, none⟩ := by
  have htrim : ':' ∉ (Text.trim item).toList := mt ((Text.padded_trim item).mem_iff (by decide)).2 hcolon
  rw [item?, if_neg hne, ofItem, Text.cutAt_eq_none_iff.2 htrim]

/-- An item is parted at its first colon; what is trimmed off before is trimmed off its parts as well. -/
theorem item?_append {host : String} (hcolon : ':' ∉ host.toList) (rest : String) :
    item? (host ++ ":" ++ rest) =
      some ⟨Text.trim host, if Text.trim rest = "" then none else some (Text.trim rest)⟩ := by
  have hcut : Text.cutAt ':' (host ++ ":" ++ rest) = some (host, rest) := Text.cutAt_eq_some_iff.2 ⟨rfl, hcolon⟩
  have hpadded := Text.padded_trim (host ++ ":" ++ rest)
  have hmem : ':' ∈ (Text.trim (host ++ ":" ++ rest)).toList := (hpadded.mem_iff (by decide)).1 (by simp)
  have hne : Text.trim (host ++ ":" ++ rest) ≠ "" := fun h => by
    rw [h] at hmem
    cases hmem
  obtain ⟨front, back, htrim⟩ := Text.exists_cutAt hmem
  obtain ⟨hfront, hmemFront⟩ := Text.cutAt_eq_some_iff.1 htrim
  obtain ⟨before, after, hbefore, hafter, hitem⟩ := hpadded
  -- the blanks in front of the item are in front of its host, those behind it are behind the rest
  have hcut' : Text.cutAt ':' (host ++ ":" ++ rest) = some (before ++ front, back ++ after) := by
    refine Text.cutAt_eq_some_iff.2 ⟨?_, ?_⟩
    · refine hitem.trans ?_
      rw [hfront]
      simp only [String.append_assoc]
    · rw [String.toList_append, List.mem_append, not_or]
      exact ⟨hbefore.not_mem (by decide), hmemFront⟩
  obtain ⟨rfl, rfl⟩ := Prod.mk.inj (Option.some.inj (hcut.symm.trans hcut'))
  have hhost : Text.Padded front (before ++ front) := ⟨before, "", hbefore, Text.blank_empty, by simp⟩
  have hrest : Text.Padded back (back ++ after) := ⟨"", after, Text.blank_empty, hafter, by simp⟩
  rw [item?, if_neg hne, ofItem, htrim, hhost.trim_eq, hrest.trim_eq]

/-- What is read from an item is its host alone, or what stands before and behind its first colon. -/
theorem item?_cases (h : item? item = some a) :
    (':' ∉ item.toList ∧ Text.trim item ≠ "" ∧ a = ⟨Text.trim item, none⟩) ∨
      ∃ host rest, item = host ++ ":" ++ rest ∧ ':' ∉ host.toList ∧
        a = ⟨Text.trim host, if Text.trim rest = "" then none else some (Text.trim rest)⟩ := by
  by_cases hcolon : ':' ∈ item.toList
  · obtain ⟨host, rest, hcut⟩ := Text.exists_cutAt hcolon
    obtain ⟨rfl, hhost⟩ := Text.cutAt_eq_some_iff.1 hcut
    exact .inr ⟨host, rest, rfl, hhost, Option.some.inj (h.symm.trans (item?_append hhost rest))⟩
  · have hne : Text.trim item ≠ "" := fun hblank => by
      rw [item?_eq_none_iff.2 (Text.blank_iff.2 hblank)] at h
      cases h
    exact .inl ⟨hcolon, hne, Option.some.inj (h.symm.trans (item?_of_not_mem hcolon hne))⟩

/-- **Whatever an item is read as**, the item spells it. -/
theorem spells_of_item? (h : item? item = some a) : Spells item a := by
  rcases item?_cases h with ⟨-, -, rfl⟩ | ⟨host, rest, rfl, -, rfl⟩
  · exact .host (Text.padded_trim item)
  · by_cases hrest : Text.trim rest = ""
    · rw [if_pos hrest]
      exact .unnamed (Text.padded_trim host) (Text.blank_iff.2 hrest)
    · rw [if_neg hrest]
      exact .named (Text.padded_trim host) (Text.padded_trim rest)

/-- **An item is read as what it spells**, where that can be told from it. -/
theorem item?_of_spells (h : Spells item a) (ha : a.Listable) : item? item = some a := by
  have hcolon : Text.isBlank ':' = false := by decide
  cases h with
  | host hhost =>
    have htrim := (Text.trim_eq_iff ha.fqdn).2 hhost
    rw [item?_of_not_mem (mt (hhost.mem_iff hcolon).1 ha.colon) (by rw [htrim]; exact ha.fqdn.ne_empty), htrim]
  | unnamed hhost hrest =>
    rw [item?_append (mt (hhost.mem_iff hcolon).1 ha.colon), (Text.trim_eq_iff ha.fqdn).2 hhost,
      if_pos (Text.blank_iff.1 hrest)]
  | named hhost hrest =>
    obtain ⟨hsecret, -⟩ := ha.certificate _ rfl
    rw [item?_append (mt (hhost.mem_iff hcolon).1 ha.colon), (Text.trim_eq_iff ha.fqdn).2 hhost,
      (Text.trim_eq_iff hsecret).2 hrest, if_neg hsecret.ne_empty]

theorem Spells.comma_not_mem (h : Spells item a) (ha : a.Listable) : ',' ∉ item.toList := by
  have hcomma : Text.isBlank ',' = false := by decide
  cases h with
  | host hhost => exact mt (hhost.mem_iff hcomma).1 ha.comma
  | unnamed hhost hrest => simp [mt (hhost.mem_iff hcomma).1 ha.comma, hrest.not_mem hcomma]
  | named hhost hrest =>
    simp [mt (hhost.mem_iff hcomma).1 ha.comma, mt (hrest.mem_iff hcomma).1 (ha.certificate _ rfl).2]

/-! ## The whole list -/

theorem parseList_eq_filterMap (list : String) : parseList list = (Text.fields ',' list).filterMap item? := by
  unfold parseList
  rw [List.filter_map, List.map_map, ← List.filterMap_eq_map, List.filterMap_filter]
  refine List.filterMap_congr (fun item _ => ?_)
  by_cases h : Text.trim item = "" <;> simp [item?, h]

theorem Lists.of_filterMap : ∀ {items : List String} {alternatives : List AlternativeFqdn},
    items.filterMap item? = alternatives → Lists items alternatives
  | [], _, rfl => .nil
  | item :: items, _, rfl => by
    rw [List.filterMap_cons]
    cases h : item? item with
    | none => exact .blank (item?_eq_none_iff.1 h) (Lists.of_filterMap rfl)
    | some a => exact .written (spells_of_item? h) (Lists.of_filterMap rfl)

theorem Lists.filterMap_eq (h : Lists items alternatives) (hall : ∀ a ∈ alternatives, a.Listable) :
    items.filterMap item? = alternatives := by
  induction h with
  | nil => rfl
  | blank hitem _ ih => rw [List.filterMap_cons_none (item?_eq_none_iff.2 hitem), ih hall]
  | written hitem _ ih =>
    obtain ⟨ha, hrest⟩ := List.forall_mem_cons.1 hall
    rw [List.filterMap_cons_some (item?_of_spells hitem ha), ih hrest]

theorem Lists.comma_not_mem (h : Lists items alternatives) (hall : ∀ a ∈ alternatives, a.Listable) :
    ∀ item ∈ items, ',' ∉ item.toList := by
  induction h with
  | nil => exact fun _ hmem => nomatch hmem
  | blank hitem _ ih => exact List.forall_mem_cons.2 ⟨hitem.not_mem (by decide), ih hall⟩
  | written hitem _ ih =>
    obtain ⟨ha, hrest⟩ := List.forall_mem_cons.1 hall
    exact List.forall_mem_cons.2 ⟨hitem.comma_not_mem ha, ih hrest⟩

/-- **A text is read as a list** exactly if it is one of the ways in which the list can be written. -/
theorem parseList_eq_iff_lists (hall : ∀ a ∈ alternatives, a.Listable) :
    parseList list = alternatives ↔ ∃ items, list = Text.join "," items ∧ Lists items alternatives := by
  have hsep : String.singleton ',' = "," := rfl
  rw [parseList_eq_filterMap]
  constructor
  · intro h
    exact ⟨Text.fields ',' list, by rw [← hsep, Text.join_fields], .of_filterMap h⟩
  · rintro ⟨items, rfl, hitems⟩
    by_cases hne : items = []
    · subst hne
      cases hitems
      rfl
    · rw [← hsep, Text.fields_join hne (hitems.comma_not_mem hall)]
      exact hitems.filterMap_eq hall

/-- Blank items, blanks of several kinds, a colon without a secret, and a secret with a colon and a blank in it. -/
theorem parseList_eq_iff_lists_padded :
    let alternatives : List AlternativeFqdn :=
      [⟨"alt1.example.com", some "cert-a"⟩, ⟨"alt2.example.com", none⟩, ⟨"alt3.example.com", some "ns:cert b"⟩]
    (∀ a ∈ alternatives, a.Listable) ∧
      parseList " ,alt1.example.com :\tcert-a,\n, alt2.example.com: ,,alt3.example.com:ns:cert b " = alternatives := by
  intro alternatives
  have hall : ∀ a ∈ alternatives, a.Listable := by decide
  have hfirst : Spells ("alt1.example.com " ++ ":" ++ "\tcert-a") ⟨"alt1.example.com", some "cert-a"⟩ :=
    .named ⟨"", " ", by decide, by decide, rfl⟩ ⟨"\t", "", by decide, by decide, rfl⟩
  have hsecond : Spells (" alt2.example.com" ++ ":" ++ " ") ⟨"alt2.example.com", none⟩ :=
    .unnamed ⟨" ", "", by decide, by decide, rfl⟩ (by decide)
  have hthird : Spells ("alt3.example.com" ++ ":" ++ "ns:cert b ") ⟨"alt3.example.com", some "ns:cert b"⟩ :=
    .named ⟨"", "", by decide, by decide, rfl⟩ ⟨"", " ", by decide, by decide, rfl⟩
  have hlists : Lists [" ", "alt1.example.com :\tcert-a", "\n", " alt2.example.com: ", "",
      "alt3.example.com:ns:cert b "] alternatives :=
    .blank (by decide) (.written hfirst (.blank (by decide) (.written hsecond (.blank (by decide)
      (.written hthird .nil)))))
  exact ⟨hall, (parseList_eq_iff_lists hall).2 ⟨_, by decide, hlists⟩⟩

end AlternativeFqdn
end ServiceExposure
