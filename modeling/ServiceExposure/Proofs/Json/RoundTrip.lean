import ServiceExposure.Json.Reader
import ServiceExposure.Json.Writer
/-!
# What is written is read back

A value in compact form reads as that value (`Json.parse?_render`), unless something that nobody reads is part of it.
The readers are followed along the writers: strings, numbers, and then values with whatever stands behind them, as long
as it does not go on with a number.
-/
namespace ServiceExposure
namespace Json

/-! ## Strings -/

/-- The unit that a written character reads as. -/
def unitOf (c : Char) : Unit16 :=
  if c.toNat < 0x20 ∧ c ∉ ['\x08', '\x0c', '\n', '\r', '\t'] then .code c.toNat else .char c

theorem hexDigit?_digitChar : ∀ n < 16, Text.hexDigit? (Nat.digitChar n) = some n := by decide

theorem hexCode?_control {n : Nat} (h : n < 0x20) :
    hexCode? '0' '0' (Nat.digitChar (n / 16)) (Nat.digitChar (n % 16)) = some n := by
  have h0 : Text.hexDigit? '0' = some 0 := by decide
  simp only [hexCode?, h0, hexDigit?_digitChar (n / 16) (by omega), hexDigit?_digitChar (n % 16) (by omega),
    Option.bind_eq_bind, Option.bind_some, Option.pure_def]
  congr 1
  omega

/-- A backslash and a letter. -/
theorem units?_letter {e c : Char} (h : escaped? e = some c) (rest : List Char) :
    units? ('\\' :: e :: rest) = (units? rest).map (fun r => (.char c :: r.1, r.2)) := by
  have hu : e ≠ 'u' := by
    rintro rfl
    cases h
  rw [units?, h]
  · cases units? rest <;> rfl
  · intro a b c d cs he
    exact absurd he hu

theorem units?_plain {c : Char} (hq : c ≠ '"') (hb : c ≠ '\\') (h : ¬ c.toNat < 0x20) (rest : List Char) :
    units? (c :: rest) = (units? rest).map (fun r => (.char c :: r.1, r.2)) := by
  rw [units?, if_neg h]
  · exact hq
  · intro a b c d cs he
    exact absurd he hb
  · intro e cs he
    exact absurd he hb

theorem units?_escape (c : Char) (rest : List Char) :
    units? (escape c ++ rest) = (units? rest).map (fun r => (unitOf c :: r.1, r.2)) := by
  unfold escape
  by_cases hq : c = '"'
  · subst hq
    exact units?_letter (by decide) rest
  by_cases hb : c = '\\'
  · subst hb
    exact units?_letter (by decide) rest
  by_cases h8 : c = '\x08'
  · subst h8
    exact units?_letter (by decide) rest
  by_cases hf : c = '\x0c'
  · subst hf
    exact units?_letter (by decide) rest
  by_cases hn : c = '\n'
  · subst hn
    exact units?_letter (by decide) rest
  by_cases hr : c = '\r'
  · subst hr
    exact units?_letter (by decide) rest
  by_cases ht : c = '\t'
  · subst ht
    exact units?_letter (by decide) rest
  simp only [hq, hb, h8, hf, hn, hr, ht, if_false, unitOf, List.mem_cons, List.not_mem_nil, or_self, not_false_eq_true,
    and_true]
  by_cases hc : c.toNat < 0x20
  · rw [if_pos hc, if_pos hc]
    simp only [List.cons_append, List.nil_append, units?, hexCode?_control hc]
    cases units? rest <;> rfl
  · rw [if_neg hc, if_neg hc]
    exact units?_plain hq hb hc rest

theorem units?_escapes (cs rest : List Char) :
    units? (cs.flatMap escape ++ '"' :: rest) = some (cs.map unitOf, rest) := by
  induction cs with
  | nil => simp [units?]
  | cons c cs ih =>
    rw [List.flatMap_cons, List.append_assoc, units?_escape, ih]
    rfl

theorem text16?_unitOf (c : Char) (us : List Unit16) : text16? (unitOf c :: us) = (text16? us).map (c :: ·) := by
  unfold unitOf
  split
  case isTrue h =>
    have hh : isHighHalf c.toNat = false := by simp [isHighHalf]; omega
    have hl : isLowHalf c.toNat = false := by simp [isLowHalf]; omega
    cases us with
    | nil => simp [text16?, hh, hl, Char.ofNat_toNat]
    | cons u us => cases u <;> simp [text16?, hh, hl, Char.ofNat_toNat]
  case isFalse => rfl

theorem text16?_map_unitOf (cs : List Char) : text16? (cs.map unitOf) = some cs := by
  induction cs with
  | nil => rfl
  | cons c cs ih =>
    rw [List.map_cons, text16?_unitOf, ih]
    rfl

/-- **A written string is read back.** -/
theorem string?_writeString (s : String) (rest : List Char) :
    string? (s.toList.flatMap escape ++ '"' :: rest) = some (some s, rest) := by
  unfold string?
  rw [units?_escapes, Option.map_some, text16?_map_unitOf, Option.map_some, String.ofList_toList]

/-! ## Numbers -/

/-- Something stands here that does not go on with a number. -/
def endsNumber : List Char → Bool
  | [] => true
  | c :: _ => !c.isDigit && c ∉ ['.', 'e', 'E']

theorem head_toDigits : ∀ n : Nat, 0 < n → ∃ c cs, Nat.toDigits 10 n = c :: cs ∧ c ≠ '0' := by
  intro n
  induction n using Nat.strongRecOn with
  | ind n ih =>
    intro hn
    by_cases hlt : n < 10
    · exact ⟨_, [], Nat.toDigits_of_lt_base hlt, by simp; omega⟩
    · obtain ⟨c, cs, hc, h0⟩ := ih (n / 10) (by omega) (by omega)
      exact ⟨c, _, by rw [Nat.toDigits_of_base_le (by omega) (by omega), hc]; rfl, h0⟩

theorem digits?_append {ds rest : List Char} (hne : ds ≠ []) (hd : ∀ c ∈ ds, c.isDigit = true)
    (hr : endsNumber rest = true) : digits? (ds ++ rest) = some (ds, rest) := by
  have htake : rest.takeWhile Char.isDigit = [] ∧ rest.dropWhile Char.isDigit = rest := by
    cases rest with
    | nil => exact ⟨rfl, rfl⟩
    | cons c cs =>
      simp only [endsNumber, Bool.and_eq_true, Bool.not_eq_true'] at hr
      exact ⟨List.takeWhile_cons_of_neg (by simp [hr.1]), List.dropWhile_cons_of_neg (by simp [hr.1])⟩
  unfold digits?
  rw [List.takeWhile_append_of_pos hd, List.dropWhile_append_of_pos hd, htake.1, htake.2, List.append_nil]
  simp [hne]

theorem whole?_toDigits (n : Nat) {rest : List Char} (hr : endsNumber rest = true) :
    whole? (Nat.toDigits 10 n ++ rest) = some (n, rest) := by
  have hdigits : digits? (Nat.toDigits 10 n ++ rest) = some (Nat.toDigits 10 n, rest) :=
    digits?_append Nat.toDigits_ne_nil (fun c hc => Nat.isDigit_of_mem_toDigits (by decide) (by decide) hc) hr
  by_cases hn : n = 0
  · subst hn
    rfl
  · obtain ⟨c, cs, hc, h0⟩ := head_toDigits n (by omega)
    rw [hc, List.cons_append] at hdigits ⊢
    rw [whole?, hdigits, Option.map_some, ← hc, Nat.ofDigitChars_ten_toDigits]
    intro cs' he
    exact absurd (List.cons.inj he).1 h0

theorem fraction?_of_ends : ∀ {rest : List Char}, endsNumber rest = true → fraction? rest = some (false, rest)
  | [], _ => rfl
  | c :: cs, h => by
    rw [fraction?]
    rintro cs' he
    cases he
    cases h

theorem exponent?_of_ends : ∀ {rest : List Char}, endsNumber rest = true → exponent? rest = some (false, rest)
  | [], _ => rfl
  | c :: cs, h => by
    rw [exponent?]
    · rintro cs' he
      cases he
      cases h
    · rintro cs' he
      cases he
      cases h

/-- **A written number is read back.** -/
theorem number?_writeInt (n : Int) {rest : List Char} (hr : endsNumber rest = true) :
    number? (writeInt n ++ rest) = some (.int n, rest) := by
  cases n with
  | ofNat n =>
    obtain ⟨c, cs, hc⟩ := List.exists_cons_of_ne_nil (Nat.toDigits_ne_nil (n := n) (b := 10))
    have hcd : c.isDigit = true := Nat.isDigit_of_mem_toDigits (b := 10) (n := n) (by decide) (by decide)
      (by rw [hc]; exact List.mem_cons_self)
    have hsign : c ≠ '-' := by
      rintro rfl
      exact absurd hcd (by decide)
    have hw := whole?_toDigits n hr
    simp only [writeInt]
    rw [hc, List.cons_append] at hw ⊢
    unfold number?
    split
    rename_i heq
    split at heq
    · rename_i h
      exact absurd (List.cons.inj h).1 hsign
    · cases heq
      simp [hw, fraction?_of_ends hr, exponent?_of_ends hr]
  | negSucc n =>
    simp [writeInt, number?, whole?_toDigits (n + 1) hr, fraction?_of_ends hr, exponent?_of_ends hr]
    omega

/-! ## Values -/

mutual

/-- Nothing that nobody reads is part of a value. -/
def isReadable : Json → Bool
  | .other => false
  | .arr items => areReadable items
  | .obj members => haveReadable members
  | .null | .bool _ | .int _ | .str _ => true

def areReadable : List Json → Bool
  | [] => true
  | v :: vs => isReadable v && areReadable vs

def haveReadable : List (String × Json) → Bool
  | [] => true
  | (_, v) :: ms => isReadable v && haveReadable ms

end

/-- Something that a list or an object may begin with: no blank and no closing bracket. -/
def Begins (cs : List Char) : Prop :=
  ∃ c rest, cs = c :: rest ∧ isGap c = false ∧ c ≠ ']' ∧ c ≠ '\x7d'

theorem Begins.append {cs : List Char} (h : Begins cs) (ds : List Char) : Begins (cs ++ ds) := by
  obtain ⟨c, rest, rfl, hg, ha, ho⟩ := h
  exact ⟨c, rest ++ ds, rfl, hg, ha, ho⟩

theorem skipGap_of_begins {cs : List Char} (h : Begins cs) : skipGap cs = cs := by
  obtain ⟨c, rest, rfl, hg, -, -⟩ := h
  exact List.dropWhile_cons_of_neg (by simp [hg])

theorem begins_write (j : Json) : Begins j.write := by
  cases j with
  | int n =>
    cases n with
    | ofNat n =>
      obtain ⟨c, cs, hc⟩ := List.exists_cons_of_ne_nil (Nat.toDigits_ne_nil (n := n) (b := 10))
      have hcd : c.isDigit = true := Nat.isDigit_of_mem_toDigits (b := 10) (n := n) (by decide) (by decide)
        (by rw [hc]; exact List.mem_cons_self)
      refine ⟨c, cs, by simp only [write, writeInt, hc], ?_, ?_, ?_⟩
      · cases hg : isGap c with
        | false => rfl
        | true =>
          simp only [isGap, Bool.or_eq_true, decide_eq_true_eq] at hg
          rcases hg with ((rfl | rfl) | rfl) | rfl <;> exact absurd hcd (by decide)
      · rintro rfl
        exact absurd hcd (by decide)
      · rintro rfl
        exact absurd hcd (by decide)
    | negSucc n => exact ⟨'-', _, rfl, by decide, by decide, by decide⟩
  | bool b => cases b <;> exact ⟨_, _, rfl, by decide, by decide, by decide⟩
  | null | str s | arr items | obj members | other => exact ⟨_, _, rfl, by decide, by decide, by decide⟩

theorem value?_of_number {c : Char} (hc : c = '-' ∨ c.isDigit = true) (cs : List Char) (depth : Nat) :
    value? (depth + 1) (c :: cs) = number? (c :: cs) := by
  have hne : ∀ d ∈ ['"', '[', '\x7b', 'n', 't', 'f'], c ≠ d := by
    rintro d hd rfl
    simp only [List.mem_cons, List.not_mem_nil, or_false] at hd
    rcases hc with rfl | hc
    · exact absurd hd (by decide)
    · rcases hd with rfl | rfl | rfl | rfl | rfl | rfl <;> exact absurd hc (by decide)
  rw [value?]
  all_goals
    intros
    rename_i he
    exact hne _ (by decide) (List.cons.inj he).1

theorem begins_writeItems (v : Json) (vs : List Json) : Begins (writeItems (v :: vs)) := by
  cases vs with
  | nil => exact begins_write v
  | cons w vs => exact (begins_write v).append _

theorem begins_writeMembers (m : String × Json) (ms : List (String × Json)) : Begins (writeMembers (m :: ms)) := by
  cases ms <;> exact ⟨'"', _, rfl, by decide, by decide, by decide⟩

theorem skipGap_cons {c : Char} (h : isGap c = false) (cs : List Char) : skipGap (c :: cs) = c :: cs :=
  List.dropWhile_cons_of_neg (by simp [h])

theorem object_map_some (ms : List (String × Json)) : object (ms.map (fun m => (some m.1, m.2))) = .obj ms := by
  unfold object
  rw [if_pos (by simp)]
  congr 1
  induction ms with
  | nil => rfl
  | cons m ms ih => simp [ih]

/-- A member and what stands behind it. -/
theorem members?_member {k : String} {v : Json} {depth : Nat} {tail : List Char}
    {result : Option (List (Option String × Json) × List Char)}
    (hresult : (match tail with
      | '\x7d' :: cs => some ([(some k, v)], cs)
      | ',' :: cs => (members? depth cs).map (fun r => ((some k, v) :: r.1, r.2))
      | _ => none) = result)
    (hv : value? depth (v.write ++ tail) = some (v, tail)) (ht : skipGap tail = tail) :
    members? (depth + 1) (writeString k ++ ':' :: (v.write ++ tail)) = result := by
  simp only [writeString, members?, List.append_assoc, List.cons_append, List.nil_append]
  rw [skipGap_cons (by decide)]
  simp only [string?_writeString]
  rw [skipGap_cons (by decide)]
  simp only [skipGap_of_begins ((begins_write v).append tail), hv, ht]
  exact hresult

mutual

/-- **A written value is read back**, whatever stands behind it, at any depth that its text does not exceed. -/
theorem value?_write : ∀ (j : Json), isReadable j = true → ∀ {depth : Nat} {rest : List Char},
    j.write.length < depth → endsNumber rest = true → value? depth (j.write ++ rest) = some (j, rest)
  | .null, _, depth + 1, rest, _, _ => rfl
  | .bool true, _, depth + 1, rest, _, _ => rfl
  | .bool false, _, depth + 1, rest, _, _ => rfl
  | .int n, _, depth + 1, rest, _, hr => by
    have hn := number?_writeInt n hr
    obtain ⟨c, cs, hc, hd⟩ : ∃ c cs, writeInt n = c :: cs ∧ (c = '-' ∨ c.isDigit = true) := by
      cases n with
      | ofNat n =>
        obtain ⟨c, cs, hc⟩ := List.exists_cons_of_ne_nil (Nat.toDigits_ne_nil (n := n) (b := 10))
        exact ⟨c, cs, hc, .inr (Nat.isDigit_of_mem_toDigits (b := 10) (n := n) (by decide) (by decide)
          (by rw [hc]; exact List.mem_cons_self))⟩
      | negSucc n => exact ⟨'-', _, rfl, .inl rfl⟩
    simp only [write]
    rw [hc, List.cons_append] at hn ⊢
    rw [value?_of_number hd, hn]
  | .str s, _, depth + 1, rest, _, _ => by
    simp only [write, writeString, List.cons_append, List.append_assoc, List.nil_append, value?]
    rw [string?_writeString]
    rfl
  | .arr [], _, depth + 1, rest, _, _ => by
    simp [write, writeItems, value?, skipGap, isGap]
  | .arr (v :: vs), hj, depth + 1, rest, hd, _ => by
    simp only [write, List.length_cons, List.length_append] at hd
    have hb := (begins_writeItems v vs).append (']' :: rest)
    have hi := items?_write v vs hj depth rest (by simpa using hd)
    simp only [write, List.cons_append, List.append_assoc, List.nil_append, value?]
    rw [skipGap_of_begins hb]
    obtain ⟨c, cs, hc, -, hne, -⟩ := hb
    rw [hc] at hi ⊢
    simp [hne, hi]
  | .obj [], _, depth + 1, rest, _, _ => by
    simp [write, writeMembers, value?, skipGap, isGap]
  | .obj (m :: ms), hj, depth + 1, rest, hd, _ => by
    simp only [write, List.length_cons, List.length_append] at hd
    have hb := (begins_writeMembers m ms).append ('\x7d' :: rest)
    have hi := members?_write m ms hj depth rest (by simpa using hd)
    simp only [write, List.cons_append, List.append_assoc, List.nil_append, value?]
    rw [skipGap_of_begins hb]
    obtain ⟨c, cs, hc, -, -, hne⟩ := hb
    rw [hc] at hi ⊢
    split
    · rename_i he
      exact absurd (List.cons.inj he).1 hne
    · simp only [hi, Option.map_some, object_map_some]

theorem items?_write : ∀ (v : Json) (vs : List Json), areReadable (v :: vs) = true →
    ∀ (depth : Nat) (rest : List Char), (writeItems (v :: vs)).length + 1 < depth →
      items? depth (writeItems (v :: vs) ++ ']' :: rest) = some (v :: vs, rest)
  | v, [], hv, depth + 1, rest, hd => by
    have hread : value? depth (v.write ++ ']' :: rest) = some (v, ']' :: rest) :=
      value?_write v (by simpa [areReadable] using hv) (by simp only [writeItems] at hd; omega) rfl
    simp only [writeItems, items?]
    rw [skipGap_of_begins ((begins_write v).append _), hread]
    simp [skipGap, isGap]
  | v, w :: vs, hv, depth + 1, rest, hd => by
    simp only [areReadable, Bool.and_eq_true] at hv
    simp only [writeItems, List.length_append, List.length_cons] at hd
    have hread : value? depth (v.write ++ ',' :: (writeItems (w :: vs) ++ ']' :: rest)) =
        some (v, ',' :: (writeItems (w :: vs) ++ ']' :: rest)) := value?_write v hv.1 (by omega) rfl
    have hrest := items?_write w vs (by simpa [areReadable] using hv.2) depth rest (by omega)
    simp only [writeItems, items?, List.append_assoc, List.cons_append]
    rw [skipGap_of_begins ((begins_write v).append _), hread]
    simp [skipGap, isGap, hrest]

theorem members?_write : ∀ (m : String × Json) (ms : List (String × Json)), haveReadable (m :: ms) = true →
    ∀ (depth : Nat) (rest : List Char), (writeMembers (m :: ms)).length + 1 < depth →
      members? depth (writeMembers (m :: ms) ++ '\x7d' :: rest) = some ((m :: ms).map (fun m => (some m.1, m.2)), rest)
  | (k, v), [], hv, depth + 1, rest, hd => by
    simp only [writeMembers, List.length_append, List.length_cons] at hd
    have hread : value? depth (v.write ++ '\x7d' :: rest) = some (v, '\x7d' :: rest) :=
      value?_write v (by simpa [haveReadable] using hv) (by omega) rfl
    simp only [writeMembers, List.append_assoc, List.cons_append]
    exact members?_member rfl hread (skipGap_cons (by decide) _)
  | (k, v), m :: ms, hv, depth + 1, rest, hd => by
    rw [haveReadable, Bool.and_eq_true] at hv
    simp only [writeMembers, List.length_append, List.length_cons] at hd
    have hread : value? depth (v.write ++ ',' :: (writeMembers (m :: ms) ++ '\x7d' :: rest)) =
        some (v, ',' :: (writeMembers (m :: ms) ++ '\x7d' :: rest)) := value?_write v hv.1 (by omega) rfl
    have hrest := members?_write m ms hv.2 depth rest (by omega)
    simp only [writeMembers, List.append_assoc, List.cons_append]
    refine members?_member ?_ hread (skipGap_cons (by decide) _)
    simp only [hrest, Option.map_some, List.map_cons]

end

/-- **What is written is read back.** -/
theorem parse?_render {j : Json} (hj : isReadable j = true) : parse? j.render = some j := by
  have hread : value? (j.write.length + 1) (j.write ++ []) = some (j, []) := value?_write j hj (Nat.lt_succ_self _) rfl
  rw [List.append_nil] at hread
  unfold parse? render
  rw [String.toList_ofList, skipGap_of_begins (begins_write j), hread]
  rfl

end Json
end ServiceExposure
