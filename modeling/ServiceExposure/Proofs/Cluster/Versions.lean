import ServiceExposure.Cluster.Store
/-!
# Versions: what a reader can rely on later

Whoever reads an object has no hold on it: others store and remove what they like before the reader's next request.  But
every version number is given out once (`Versioned`), so an object that still has the version that was read is still the
object that was read (`Recalls`).  Both survive any write (`Write`), and a request is never more than one write
(`serve_eq_or_write`).
-/
namespace ServiceExposure

theorem toString_nat_inj {m n : Nat} (h : toString m = toString n) : m = n := by
  have hd : Nat.toDigits 10 m = Nat.toDigits 10 n := by
    have := congrArg String.toList h
    simpa [toString, Nat.repr_eq_ofList_toDigits] using this
  rw [← Nat.ofDigitChars_ten_toDigits (n := m), hd, Nat.ofDigitChars_ten_toDigits]

namespace Cluster

/-- The version of an object. -/
def versionOf (kind : Kind) (o : kind.Object) : Option String := (kind.metadata o).resourceVersion

/-- One write, whoever makes it. -/
inductive Write : Cluster → Cluster → Prop where
  | put (c : Cluster) (kind : Kind) (name : String) (o : kind.Object) : Write c (c.put kind name o)
  | remove (c : Cluster) (kind : Kind) (name : String) : Write c (c.remove kind name)

/-- Every object has a version that was given out, and no two objects of a kind have the same. -/
structure Versioned (c : Cluster) : Prop where
  given : ∀ {kind name o}, c.get? kind name = some o → ∃ v ≤ c.version, versionOf kind o = some (toString v)
  unique : ∀ {kind name o name' o'}, c.get? kind name = some o → c.get? kind name' = some o' →
    versionOf kind o = versionOf kind o' → name = name'

/-- The object was stored under the name at some time; whatever has its version now is that object. -/
structure Recalls (kind : Kind) (name : String) (o : kind.Object) (c : Cluster) : Prop where
  given : ∃ v ≤ c.version, versionOf kind o = some (toString v)
  same : ∀ {name' o'}, c.get? kind name' = some o' → versionOf kind o' = versionOf kind o → name' = name ∧ o' = o

/-! ## Looking an object up after a write -/

@[simp] theorem version_remove (c : Cluster) (kind : Kind) (name : String) :
    (c.remove kind name).version = c.version := version_withTable c kind _

@[simp] theorem versionOf_stamped (kind : Kind) (o : kind.Object) (v : String) :
    versionOf kind (stamped kind o v) = some v := by simp [versionOf, stamped]

theorem get?_put_kind (c : Cluster) {kind other : Kind} (name : String) (o : kind.Object) (h : other ≠ kind)
    (n : String) : (c.put kind name o).get? other n = c.get? other n := by
  have ht : ((c.put kind name o).table other) = c.table other := by
    rw [← table_withTable_ne c ((c.table kind).insert name (stamped kind o c.nextVersion)) h]
    cases other <;> rfl
  rw [get?, ht, get?]

theorem get?_remove_kind (c : Cluster) {kind other : Kind} (name : String) (h : other ≠ kind) (n : String) :
    (c.remove kind name).get? other n = c.get? other n := by
  rw [get?, remove, table_withTable_ne _ _ h, get?]

/-- After an object is stored, whatever stands in the cluster is that object, with the new version, or stood there
before. -/
theorem get?_put_cases {c : Cluster} {kind other : Kind} {name n : String} {o : kind.Object} {x : other.Object}
    (h : (c.put kind name o).get? other n = some x) :
    versionOf other x = some c.nextVersion ∧ n = name ∨ c.get? other n = some x := by
  by_cases hk : other = kind
  · subst hk
    by_cases hn : n = name
    · subst hn
      rw [get?_put_self] at h
      cases h
      exact .inl ⟨versionOf_stamped _ _ _, rfl⟩
    · rw [get?_put_ne c other o hn] at h
      exact .inr h
  · rw [get?_put_kind c name o hk] at h
    exact .inr h

theorem get?_of_get?_remove {c : Cluster} {kind other : Kind} {name n : String} {x : other.Object}
    (h : (c.remove kind name).get? other n = some x) : c.get? other n = some x := by
  by_cases hk : other = kind
  · subst hk
    by_cases hn : n = name
    · subst hn
      rw [get?_remove_self] at h
      cases h
    · rwa [get?_remove_ne c other hn] at h
  · rwa [get?_remove_kind c name hk] at h

theorem nextVersion_ne {c : Cluster} {v : Nat} (h : v ≤ c.version) : some (toString v) ≠ some c.nextVersion := by
  intro e
  have := toString_nat_inj (Option.some.inj e)
  omega

/-! ## What survives a write -/

theorem versioned_empty : Versioned {} where
  given := fun {kind name o} h => by cases kind <;> cases h
  unique := fun {kind name o name' o'} h => by cases kind <;> cases h

theorem Versioned.write {c c' : Cluster} (h : c.Versioned) (w : Write c c') : c'.Versioned := by
  cases w with
  | put kind name o =>
    constructor
    · intro other n x hx
      rcases get?_put_cases hx with ⟨hv, -⟩ | hx
      · exact ⟨c.version + 1, Nat.le_refl _, hv⟩
      · obtain ⟨v, hv, e⟩ := h.given hx
        exact ⟨v, Nat.le_succ_of_le hv, e⟩
    · intro other n x n' x' hx hx' e
      rcases get?_put_cases hx with ⟨hv, hn⟩ | hx <;> rcases get?_put_cases hx' with ⟨hv', hn'⟩ | hx'
      · rw [hn, hn']
      · obtain ⟨v, hle, ev⟩ := h.given hx'
        exact absurd (by rw [← ev, ← e, hv]) (nextVersion_ne hle)
      · obtain ⟨v, hle, ev⟩ := h.given hx
        exact absurd (by rw [← ev, e, hv']) (nextVersion_ne hle)
      · exact h.unique hx hx' e
  | remove kind name =>
    constructor
    · intro other n x hx
      obtain ⟨v, hv, e⟩ := h.given (get?_of_get?_remove hx)
      exact ⟨v, by rw [version_remove]; exact hv, e⟩
    · intro other n x n' x' hx hx' e
      exact h.unique (get?_of_get?_remove hx) (get?_of_get?_remove hx') e

/-- An object that is stored is another one than the one that stood there. -/
theorem Versioned.get?_put_ne_self {c : Cluster} (h : c.Versioned) {kind : Kind} {name : String} {o : kind.Object} :
    (c.put kind name o).get? kind name ≠ c.get? kind name := by
  rw [get?_put_self]
  intro he
  obtain ⟨v, hle, hv⟩ := h.given he.symm
  rw [versionOf_stamped] at hv
  exact nextVersion_ne hle hv.symm

/-- An object that is read now is recalled. -/
theorem Versioned.recalls {c : Cluster} (h : c.Versioned) {kind : Kind} {name : String} {o : kind.Object}
    (hg : c.get? kind name = some o) : Recalls kind name o c where
  given := h.given hg
  same := fun {name' o'} hg' e => by
    obtain rfl := h.unique hg' hg e
    rw [hg] at hg'
    exact ⟨rfl, (Option.some.inj hg').symm⟩

theorem Recalls.write {kind : Kind} {name : String} {o : kind.Object} {c c' : Cluster} (h : Recalls kind name o c)
    (w : Write c c') : Recalls kind name o c' := by
  obtain ⟨v, hv, e⟩ := h.given
  cases w with
  | put kind' name' o' =>
    refine ⟨⟨v, Nat.le_succ_of_le hv, e⟩, fun {n x} hx ex => ?_⟩
    rcases get?_put_cases hx with ⟨hx, -⟩ | hx
    · exact absurd (by rw [← e, ← ex, hx]) (nextVersion_ne hv)
    · exact h.same hx ex
  | remove kind' name' =>
    exact ⟨⟨v, by rw [version_remove]; exact hv, e⟩, fun hx ex => h.same (get?_of_get?_remove hx) ex⟩

/-- **A request is at most one write.** -/
theorem serve_eq_or_write (c : Cluster) (r : Request) : (c.serve r).2 = c ∨ Write c (c.serve r).2 := by
  cases r with
  | get kind name => exact .inl rfl
  | list kind selector => exact .inl rfl
  | create kind o =>
    simp only [serve]
    split
    · exact .inl rfl
    · exact .inr (.put c kind _ o)
  | replace kind name o =>
    simp only [serve]
    split
    · exact .inl rfl
    · split
      · exact .inr (.put c kind name o)
      · exact .inl rfl
  | delete kind name =>
    simp only [serve]
    split
    · exact .inl rfl
    · exact .inr (.remove c kind name)

/-- A request that is refused changes nothing. -/
theorem serve_of_error (c : Cluster) {r : Request} {why : Refusal} (h : (c.serve r).1 = .error why) : (c.serve r).2 = c := by
  cases r with
  | get kind name => rfl
  | list kind selector => rfl
  | create kind o =>
    simp only [serve] at h ⊢
    split at h
    · rfl
    · cases h
  | replace kind name o =>
    simp only [serve] at h ⊢
    split at h
    · rfl
    · split at h
      · cases h
      · rw [if_neg ‹_›]
  | delete kind name =>
    simp only [serve] at h ⊢
    split at h
    · rfl
    · cases h

theorem Versioned.serve {c : Cluster} (h : c.Versioned) (r : Request) : (c.serve r).2.Versioned := by
  rcases c.serve_eq_or_write r with e | w
  · rw [e]
    exact h
  · exact h.write w

end Cluster
end ServiceExposure
