import ServiceExposure.Proofs.Cluster.Cut
import ServiceExposure.Proofs.Owned.Alone
import ServiceExposure.Proofs.Shared.Plans
/-!
# Converging with nobody else around

Alone, a guarded resource makes exactly the change that is planned for the object as it stands
(`SharedResource.alone_converge`).  Where it is cut off, either nothing has happened or just that change, so converging
maintains whatever the planned changes keep (`SharedResource.maintains_converge`).
-/
namespace ServiceExposure
namespace SharedResource

variable {s : SharedResource} {contributor : Contributor} {desired : ExposedPorts} {c : Cluster}
  {change : Change s.kind.Object}

theorem alone_write (hg : s.Guarded) (hc : c.Named)
    (hp : s.plan (c.get? s.kind s.name) contributor desired = .ok change) :
    (s.write change).alone c = (.ok (), c.commit s.kind s.name change) := by
  cases change with
  | unchanged => rfl
  | create o =>
    obtain ⟨hnone, hname⟩ := hg.create hp
    rw [← hname] at hnone
    have hcreate := Action.alone_create hnone s.name
    rw [hname] at hcreate
    exact hcreate
  | replace o =>
    obtain ⟨read, hread, hv, hname⟩ := hg.replace hp
    rw [hc hread] at hname
    have hstored : c.get? s.kind (s.kind.nameOf o) = some read := by rw [hname, hread]
    have hput : c.put s.kind (s.kind.nameOf o) o = c.commit s.kind s.name (.replace o) := by
      rw [hname]
      rfl
    exact (Action.alone_replace hstored hv s.name).trans (congrArg _ hput)
  | delete =>
    obtain ⟨read, hread⟩ := hg.delete hp
    exact Action.alone_bind_ok (Owned.delete_present hread) _

/-- **Converging alone** makes the planned change. -/
theorem alone_converge (hg : s.Guarded) (retry : RetryPolicy) (hc : c.Named)
    (hp : s.plan (c.get? s.kind s.name) contributor desired = .ok change) :
    (s.converge retry contributor desired).alone c = (.ok (), c.commit s.kind s.name change) := by
  have hcycle : (s.cycle contributor desired).alone c = (.ok (), c.commit s.kind s.name change) := by
    unfold cycle
    rw [Action.alone_bind_ok (Action.alone_get s.kind s.name s.name c), hp]
    exact (Action.alone_bind_ok (Action.alone_done (.ok change) c) _).trans (alone_write hg hc hp)
  exact Action.alone_onConflict retry hcycle (fun e he => by cases he)

/-- What cannot be planned leaves everything as it is. -/
theorem alone_converge_error (retry : RetryPolicy) {e : ParseError}
    (hp : s.plan (c.get? s.kind s.name) contributor desired = .error e) :
    (s.converge retry contributor desired).alone c = (.error (.parse e), c) := by
  have hcycle : (s.cycle contributor desired).alone c = (.error (.parse e), c) := by
    unfold cycle
    rw [Action.alone_bind_ok (Action.alone_get s.kind s.name s.name c), hp]
    rfl
  refine Action.alone_onConflict retry hcycle (fun e' he => ?_)
  cases he
  rfl

theorem named_commit (hg : s.Guarded) (hc : c.Named)
    (hp : s.plan (c.get? s.kind s.name) contributor desired = .ok change) :
    (c.commit s.kind s.name change).Named := by
  cases change with
  | unchanged => exact hc
  | create o => exact hc.put (hg.create hp).2
  | replace o =>
    obtain ⟨read, hread, -, hname⟩ := hg.replace hp
    exact hc.put (hname.trans (hc hread))
  | delete => exact hc.remove s.kind s.name

variable {I : Cluster → Prop}

theorem maintains_write (hg : s.Guarded) (hc : c.Named)
    (hp : s.plan (c.get? s.kind s.name) contributor desired = .ok change) (h : I c)
    (hcommit : I (c.commit s.kind s.name change)) : (s.write change).run.Maintains I c := by
  have hafter : ((s.write change).alone c).2 = c.commit s.kind s.name change := congrArg Prod.snd (alone_write hg hc hp)
  rw [← hafter] at hcommit
  cases change with
  | unchanged => trivial
  | create o => exact Program.maintains_call h hcommit
  | replace o => exact Program.maintains_call h hcommit
  | delete =>
    refine Action.maintains_bind (Program.maintains_call h ?_) (fun _ _ _ => trivial) h
    obtain ⟨read, hread⟩ := hg.delete hp
    have hserve : (c.serve (.delete s.kind s.name)).2 = c.commit s.kind s.name .delete := by
      simp only [Cluster.serve, hread]
      rfl
    rw [hafter] at hcommit
    rw [hserve]
    exact hcommit

/-- **Converging maintains what the planned changes keep.** -/
theorem maintains_converge (hg : s.Guarded) (retry : RetryPolicy) (hnamed : ∀ c, I c → c.Named)
    (hkeep : ∀ c change, I c → s.plan (c.get? s.kind s.name) contributor desired = .ok change →
      I (c.commit s.kind s.name change)) {c : Cluster} (h : I c) :
    (s.converge retry contributor desired).run.Maintains I c := by
  refine Action.maintains_onConflict retry (fun c h => ?_) h
  refine Action.maintains_get ?_ h
  cases hp : s.plan (c.get? s.kind s.name) contributor desired with
  | error e => trivial
  | ok change => exact maintains_write hg (hnamed c h) hp h (hkeep c change h hp)

end SharedResource
end ServiceExposure
