import ServiceExposure.Proofs.Merge
import ServiceExposure.Reconciler.Ports
/-!
# Valid ports

Ports that were read from an annotation are in 1..=65535 (`ExposedPorts.parse_valid`), and so are those that are taken
from them.
-/
namespace ServiceExposure

namespace ExposedPort

/-- The port and its target are in 1..=65535. -/
def Valid (p : ExposedPort) : Prop := isPortNumber p.port = true ∧ isPortNumber p.targetPort = true

instance (p : ExposedPort) : Decidable p.Valid := inferInstanceAs (Decidable (_ ∧ _))

theorem valid_iff {p : ExposedPort} : p.Valid ↔ p.outOfRange? = none := by
  unfold Valid outOfRange?
  cases isPortNumber p.port <;> cases isPortNumber p.targetPort <;> simp

end ExposedPort

namespace ExposedPorts

def Valid (ps : ExposedPorts) : Prop := ∀ p ∈ ps.toList, p.Valid

instance (ps : ExposedPorts) : Decidable ps.Valid := inferInstanceAs (Decidable (∀ p ∈ ps.toList, p.Valid))

theorem valid_empty : empty.Valid := fun _ h => nomatch h

theorem isEmpty_iff {ps : ExposedPorts} : ps.isEmpty = true ↔ ps.toList = [] := List.isEmpty_iff

theorem eq_empty_iff {ps : ExposedPorts} : ps = empty ↔ ps.toList = [] := by
  obtain ⟨ports, hn⟩ := ps
  constructor
  · exact fun h => congrArg toList h
  · rintro rfl
    rfl

theorem Valid.filter {ps : ExposedPorts} (h : ps.Valid) (keep : ExposedPort → Bool) : (ps.filter keep).Valid :=
  fun p hp => h p (List.mem_filter.1 hp).1

theorem Valid.forwardable {ps : ExposedPorts} (h : ps.Valid) : ps.forwardable.Valid := h.filter _

/-- **Whatever is read is valid.** -/
theorem parse_valid {origin text : String} {ps : ExposedPorts} (h : parse origin text = .ok ps) : ps.Valid := by
  unfold parse at h
  cases hr : records? text with
  | none =>
    rw [hr] at h
    cases h
  | some records =>
    rw [hr] at h
    dsimp only at h
    cases ho : records.findSome? ExposedPort.outOfRange? with
    | some port =>
      rw [ho] at h
      cases h
    | none =>
      rw [ho] at h
      cases h
      intro p hp
      exact ExposedPort.valid_iff.2 (List.findSome?_eq_none_iff.1 ho p (Latest.mem_of_mem_latest _ hp))

end ExposedPorts
/-- Whatever a service wants exposed is in range. -/
theorem Service.valid_of_exposedPorts {s : Service} {ports : ExposedPorts} (h : s.exposedPorts = .ok ports) : ports.Valid := by
  unfold exposedPorts at h
  split at h
  · cases h
    exact ExposedPorts.valid_empty
  · split at h
    · cases h
    · rename_i hparse
      split at h
      · cases h
      · cases h
        exact ExposedPorts.parse_valid hparse

/-- A service with ports that it wants exposed. -/
def Service.wanting (name : String) (ports : List ExposedPort) : Service where
  metadata :=
    { Metadata.named "ecosystem" name with
      annotations := some (Dict.empty.insert Annotation.exposedPorts (ExposedPorts.ofList ports).render) }
  spec := some { ports := some (ports.map (fun p => { port := p.port })) }

end ServiceExposure
