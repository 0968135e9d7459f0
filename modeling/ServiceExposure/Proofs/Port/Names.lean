import ServiceExposure.Proofs.Port.Valid
import ServiceExposure.Proofs.Text.Parts
import ServiceExposure.Shared.LoadBalancer
/-!
# Names of load balancer ports

A port is named after its contributor, its number and, for UDP, its protocol.  The contributor can be told from the name
(`isNamedAfter_unique`), because what follows it has no hyphen but the one before `udp`.
-/
namespace ServiceExposure

namespace Decimal

/-- An unsigned number is written in digits, perhaps after a plus. -/
theorem isDigit_or_plus_of_readUnsigned? {max : Nat} {s : String} (h : (readUnsigned? max s).isSome = true) :
    s ≠ "" ∧ ∀ c ∈ s.toList, c.isDigit = true ∨ c = '+' := by
  obtain ⟨n, hn⟩ := Option.isSome_iff_exists.1 h
  unfold readUnsigned? at hn
  dsimp only at hn
  obtain ⟨hn, -⟩ := Option.filter_eq_some_iff.1 hn
  have hdigits : ∀ {cs : List Char}, ofDigits? cs = some n → cs ≠ [] ∧ ∀ c ∈ cs, c.isDigit = true := fun {cs} h => by
    unfold ofDigits? at h
    split at h
    case isTrue hd => exact ⟨hd.1, List.all_eq_true.1 hd.2⟩
    case isFalse => cases h
  split at hn
  · rename_i cs hs
    refine ⟨(fun e => by rw [e] at hs; cases hs), fun c hc => ?_⟩
    rw [hs] at hc
    rcases List.mem_cons.1 hc with rfl | hc
    · exact .inr rfl
    · exact .inl ((hdigits hn).2 c hc)
  · exact ⟨fun e => (hdigits hn).1 (by rw [e]; rfl), fun c hc => .inl ((hdigits hn).2 c hc)⟩

theorem not_mem_of_readUnsigned? {max : Nat} {s : String} (h : (readUnsigned? max s).isSome = true) {c : Char}
    (hd : c.isDigit = false) (hp : c ≠ '+') : c ∉ s.toList := by
  intro hc
  rcases (isDigit_or_plus_of_readUnsigned? h).2 c hc with h | h
  · rw [h] at hd
    cases hd
  · exact hp h

theorem readUnsigned?_toString {max : Nat} {n : Int} (h0 : 0 ≤ n) (h : n ≤ max) :
    readUnsigned? max (toString n) = some n.toNat := by
  obtain ⟨m, rfl⟩ := Int.eq_ofNat_of_zero_le h0
  exact readUnsigned?_repr (by omega)

theorem isSome_readUnsigned?_port {n : Int} (h : isPortNumber n = true) :
    (readUnsigned? 65535 (toString n)).isSome = true := by
  simp only [isPortNumber, Bool.and_eq_true, decide_eq_true_eq] at h
  rw [readUnsigned?_toString (by omega) (by omega)]
  rfl

end Decimal

namespace LoadBalancer

theorem isNamedAfter_iff {service name : String} : isNamedAfter service name = true ↔
    ∃ number, (Decimal.readUnsigned? 65535 number).isSome = true ∧
      (name = service ++ "-" ++ number ∨ name = service ++ "-" ++ (number ++ "-udp")) := by
  unfold isNamedAfter
  constructor
  · intro h
    split at h
    case h_2 => cases h
    case h_1 rest hrest =>
      rw [Text.dropStem_eq_some_iff] at hrest
      cases ht : Text.dropTail "-udp" rest with
      | none =>
        rw [ht] at h
        exact ⟨rest, h, .inl hrest⟩
      | some number =>
        rw [ht] at h
        rw [Text.dropTail_eq_some_iff] at ht
        rw [ht] at hrest
        exact ⟨number, h, .inr hrest⟩
  · rintro ⟨number, hn, rfl | rfl⟩
    · rw [Text.dropStem_eq_some_iff.2 rfl]
      have ht : Text.dropTail "-udp" number = none := by
        cases ht : Text.dropTail "-udp" number with
        | none => rfl
        | some r =>
          rw [Text.dropTail_eq_some_iff] at ht
          refine absurd ?_ (Decimal.not_mem_of_readUnsigned? hn (c := '-') (by decide) (by decide))
          rw [ht]
          simp
      simp only [ht]
      exact hn
    · have ht : Text.dropTail "-udp" (number ++ "-udp") = some number := Text.dropTail_eq_some_iff.2 rfl
      rw [Text.dropStem_eq_some_iff.2 rfl]
      simp only [ht]
      exact hn

/-- **A port is named after one service only.** -/
theorem isNamedAfter_unique {service service' name : String} (h : isNamedAfter service name = true)
    (h' : isNamedAfter service' name = true) : service = service' := by
  obtain ⟨number, hn, hname⟩ := isNamedAfter_iff.1 h
  obtain ⟨number', hn', hname'⟩ := isNamedAfter_iff.1 h'
  have hd := Decimal.not_mem_of_readUnsigned? hn (c := '-') (by decide) (by decide)
  have hd' := Decimal.not_mem_of_readUnsigned? hn' (c := '-') (by decide) (by decide)
  have hu := Decimal.not_mem_of_readUnsigned? hn (c := 'u') (by decide) (by decide)
  have hu' := Decimal.not_mem_of_readUnsigned? hn' (c := 'u') (by decide) (by decide)
  have hcut : ∀ (s s' : String) {b b' : List Char}, '-' ∉ b → '-' ∉ b' → s.toList ++ '-' :: b = s'.toList ++ '-' :: b' →
      s = s' ∧ b = b' := fun s s' _ _ hb hb' e => by
    obtain ⟨ha, hb⟩ := Text.cut_at_last hb hb' e
    exact ⟨String.toList_inj.1 ha, hb⟩
  have htail : '-' ∉ ['u', 'd', 'p'] := by decide
  rcases hname with rfl | rfl <;> rcases hname' with e | e
  · exact (hcut service service' hd hd' (by simpa using congrArg String.toList e)).1
  · have e := congrArg String.toList e
    have := (hcut service (service' ++ "-" ++ number') hd htail (by simpa using e)).2
    exact absurd (by rw [this]; decide) hu
  · have e := congrArg String.toList e
    have := (hcut (service ++ "-" ++ number) service' htail hd' (by simpa using e)).2
    exact absurd (by rw [← this]; decide) hu'
  · have e := congrArg String.toList e
    have := (hcut (service ++ "-" ++ number) (service' ++ "-" ++ number') htail htail (by simpa using e)).1
    exact (hcut service service' hd hd' (by simpa using congrArg String.toList this)).1

theorem isNamedAfter_portName (service : String) {id : PortId} (h : isPortNumber id.port = true) :
    isNamedAfter service (portName service id) = true := by
  have hn := Decimal.isSome_readUnsigned?_port h
  rw [isNamedAfter_iff]
  unfold portName
  split
  · exact ⟨toString id.port, hn, .inr (by rw [String.append_assoc])⟩
  · exact ⟨toString id.port, hn, .inl rfl⟩

/-- **A port belongs to one service only.** -/
theorem owns_unique {service service' : String} {p : ServicePort} (h : owns service p = true)
    (h' : owns service' p = true) : service = service' := by
  unfold owns at h h'
  cases hn : p.name with
  | none =>
    rw [hn] at h
    cases h
  | some name =>
    rw [hn] at h h'
    exact isNamedAfter_unique h h'

theorem name_wantedPort (service : String) (prior : List ServicePort) (p : ExposedPort) :
    (wantedPort service prior p).name = some (portName service p.id) := by
  unfold wantedPort
  dsimp only
  split <;> rfl

/-- A contributor's port is its own. -/
theorem owns_wantedPort (service : String) (prior : List ServicePort) {p : ExposedPort}
    (h : isPortNumber p.port = true) : owns service (wantedPort service prior p) = true := by
  unfold owns
  rw [name_wantedPort]
  exact isNamedAfter_portName service h

end LoadBalancer
end ServiceExposure
