import ServiceExposure.Proofs.Controller.Journal
/-!
# When the cluster is in line with the index

Once nothing waits and every task is done, the latest look-up of each service found what the index says.  The cluster need
not be in line with the index even so: a task that looked up an older version may be the last one to make its change, and
whoever deletes the load balancer takes the ports of others along.  `Trace.inLine_iff` says that nothing else goes wrong:
the cluster is in line exactly if every object was told last what was found last.

The invariant (`Trace.Sound`) pairs every task with the ports that it found.  What a place shows of a service is what it
was told last, except while a task of that service visits the place.
-/
namespace ServiceExposure

/-! ## Tasks with what they found -/

section Lists

variable {α : Type} {l : List α} {i : Nat} {x y : α}

theorem eq_or_mem_set (hx : x ∈ l) (hi : l[i]? = some y) (z : α) : x = y ∨ x ∈ l.set i z := by
  obtain ⟨j, hj⟩ := List.mem_iff_getElem?.1 hx
  by_cases hij : i = j
  · subst hij
    rw [hi] at hj
    exact .inl (Option.some.inj hj).symm
  · exact .inr (List.mem_iff_getElem?.2 ⟨j, (List.getElem?_set_ne hij).trans hj⟩)

theorem eq_or_mem_eraseIdx (hx : x ∈ l) (hi : l[i]? = some y) : x = y ∨ x ∈ l.eraseIdx i := by
  obtain ⟨j, hj⟩ := List.mem_iff_getElem?.1 hx
  by_cases hij : j = i
  · subst hij
    rw [hi] at hj
    exact .inl (Option.some.inj hj).symm
  · exact .inr (List.mem_eraseIdx_iff_getElem?.2 ⟨j, hij, hj⟩)

end Lists

/-- A task, and the ports that it found. -/
abbrev Worker := Task × ExposedPorts

namespace Worker

/-- The worker is about to look its service up. -/
def Seeks (x : Worker) (name : String) : Prop := x.1.update = .exposure name ∧ x.1.stage = .taken

def Visits (r : Reconciler) (ns : String) (place : Place) (name : String) (c : Cluster) (x : Worker) : Prop :=
  x.1.update = .exposure name ∧ ∃ rest, x.1.stage = .working rest ∧ r.Visits ⟨ns, name⟩ x.2 place rest c

/-- The worker has yet to look its service up, or it does what is to be done for the ports that it found. -/
def Sound (r : Reconciler) (ns : String) (seen : Service → Prop) (c : Cluster) (x : Worker) : Prop :=
  ∃ name, x.1.update = .exposure name ∧ (∃ s, seen s ∧ s.name = name) ∧
    (x.1.stage = .taken ∨ ∃ rest, x.1.stage = .working rest ∧ Asked seen name x.2 ∧ r.Leaves ⟨ns, name⟩ x.2 rest c)

variable {r : Reconciler} {ns name : String} {seen : Service → Prop} {place : Place} {c c' : Cluster} {x : Worker}

theorem Visits.write (h : x.Visits r ns place name c) (hw : c' = c ∨ c.Write c') : x.Visits r ns place name c' := by
  obtain ⟨hu, rest, hs, hv⟩ := h
  rcases hw with rfl | w
  · exact ⟨hu, rest, hs, hv⟩
  · exact ⟨hu, rest, hs, hv.write w⟩

theorem Sound.write (h : x.Sound r ns seen c) (hw : c' = c ∨ c.Write c') : x.Sound r ns seen c' := by
  obtain ⟨name, hu, hn, hstage⟩ := h
  refine ⟨name, hu, hn, hstage.imp id ?_⟩
  rintro ⟨rest, hs, ha, hl⟩
  refine ⟨rest, hs, ha, hl.imp id ?_⟩
  rintro ⟨place, hv⟩
  rcases hw with rfl | w
  · exact ⟨place, hv⟩
  · exact ⟨place, hv.write w⟩

theorem Visits.ne_seeks {y : Worker} {name' : String} (h : x.Visits r ns place name c) (hy : y.Seeks name') : x ≠ y := by
  rintro rfl
  obtain ⟨-, rest, hs, -⟩ := h
  rw [hy.2] at hs
  cases hs

end Worker

/-! ## The invariant -/

namespace Trace

/-- What holds between smooth moves, from an index on. -/
structure Sound (c : Controller) (start : Index) (seen : Service → Prop) (told : Place → Wishes) (crew : List Worker)
    (t : Trace) : Prop where
  tasks : t.system.tasks = crew.map Prod.fst
  found : t.found = crew.map Prod.snd
  calm : t.system.session.Calm
  standing : c.reconciler.Standing start.ns (Asked seen) told t.system.session.storage.cluster
  home : t.system.index.ns = start.ns ∧ t.system.index.exposedService = start.exposedService
  index : t.system.index.Holds seen
  waiting : ∀ u ∈ t.system.queue.waiting, ∃ name, u = .exposure name ∧ ∃ s, seen s ∧ s.name = name
  workers : ∀ x ∈ crew, Worker.Sound c.reconciler start.ns seen t.system.session.storage.cluster x
  heard : ∀ place name, told place name = (t.lastTold (c.reconciler.objectAt place) name).forwardable ∨
    ∃ x ∈ crew, Worker.Visits c.reconciler start.ns place name t.system.session.storage.cluster x
  sought : ∀ name, t.lastFound name = t.system.index.portsOf name ∨ .exposure name ∈ t.system.queue.waiting ∨
    ∃ x ∈ crew, Worker.Seeks x name

variable {c : Controller} {start : Index} {seen : Service → Prop} {told : Place → Wishes} {crew : List Worker}
  {t t' : Trace}

theorem step_eq_some {m : Move} : t.step c m = some t' ↔ t.system.isSmooth m = true ∧
    ∃ s, t.system.step c m = some s ∧ t' = ⟨s, (t.note m).1, (t.note m).2⟩ := by
  unfold step
  split
  case isTrue h =>
    rw [Option.map_eq_some_iff]
    constructor
    · rintro ⟨s, hs, rfl⟩
      exact ⟨h, s, hs, rfl⟩
    · rintro ⟨-, s, hs, rfl⟩
      exact ⟨s, hs, rfl⟩
  case isFalse h => exact ⟨nofun, fun h' => absurd h'.1 h⟩

theorem Sound.worker (h : t.Sound c start seen told crew) {i : Nat} {task : Task} (hi : t.system.tasks[i]? = some task) :
    ∃ ports, crew[i]? = some (task, ports) ∧ t.found[i]? = some ports := by
  rw [h.tasks, List.getElem?_map, Option.map_eq_some_iff] at hi
  obtain ⟨⟨_, ports⟩, hi, rfl⟩ := hi
  refine ⟨ports, hi, ?_⟩
  rw [h.found, List.getElem?_map, hi]
  rfl

/-! ## Events -/

/-- An event calls for an update of every service that wants other ports. -/
theorem Sound.observe (h : t.Sound c start seen told crew) {index : Index} {queue : UpdateQueue} {us : List Update}
    (hhome : index.ns = t.system.index.ns ∧ index.exposedService = t.system.index.exposedService)
    (hindex : index.Holds seen) (hqueue : queue.waiting = t.system.queue.waiting ++ us)
    (hus : ∀ u ∈ us, ∃ name, u = .exposure name ∧ ∃ s, seen s ∧ s.name = name)
    (hports : ∀ name, index.portsOf name = t.system.index.portsOf name ∨ .exposure name ∈ us) :
    Sound c start seen told crew ⟨{ t.system with index, queue }, t.found, t.journal⟩ where
  tasks := h.tasks
  found := h.found
  calm := h.calm
  standing := h.standing
  home := ⟨hhome.1.trans h.home.1, hhome.2.trans h.home.2⟩
  index := hindex
  waiting := by
    intro u hu
    rw [hqueue] at hu
    rcases List.mem_append.1 hu with hu | hu
    · exact h.waiting u hu
    · exact hus u hu
  workers := h.workers
  heard := h.heard
  sought := by
    intro name
    rw [hqueue, List.mem_append]
    rcases hports name with hsame | hnew
    · rw [hsame]
      rcases h.sought name with hf | hw | hx
      · exact .inl hf
      · exact .inr (.inl (.inl hw))
      · exact .inr (.inr hx)
    · exact .inr (.inl (.inr hnew))

theorem Sound.observeService (h : t.Sound c start seen told crew) {s : Service}
    (hs : s.name ≠ start.exposedService → seen s) (hstep : t.step c (.observe (.service s)) = some t') :
    t'.Sound c start seen told crew := by
  obtain ⟨hsmooth, s', hs', rfl⟩ := step_eq_some.1 hstep
  cases hs'
  have hhome : (t.system.index.observeService s).1.ns = t.system.index.ns ∧
      (t.system.index.observeService s).1.exposedService = t.system.index.exposedService := by
    unfold Index.observeService
    split <;> exact ⟨rfl, rfl⟩
  have hseen : s.name ≠ t.system.index.exposedService → seen s := fun hne => hs (h.home.2 ▸ hne)
  refine h.observe hhome (Index.holds_observeService h.index hseen) (of_decide_eq_true hsmooth) ?_
    (Index.portsOf_observeService h.index s)
  intro u hu
  obtain ⟨rfl, hne⟩ := Index.mem_observeService hu
  exact ⟨s.name, rfl, s, hseen hne, rfl⟩

theorem Sound.forgetService (h : t.Sound c start seen told crew) {gone : String}
    (hstep : t.step c (.observe (.serviceGone gone)) = some t') : t'.Sound c start seen told crew := by
  obtain ⟨hsmooth, s', hs', rfl⟩ := step_eq_some.1 hstep
  cases hs'
  refine h.observe ⟨rfl, rfl⟩ (Index.holds_forgetService h.index gone) (of_decide_eq_true hsmooth) ?_
    (Index.portsOf_forgetService t.system.index gone)
  intro u hu
  obtain ⟨rfl, s, hs⟩ := Index.mem_forgetService hu
  exact ⟨gone, rfl, s, (h.index hs).2, (h.index hs).1⟩

/-! ## Tasks -/

/-- An update that is taken gets a task of its own. -/
theorem Sound.receive (h : t.Sound c start seen told crew) (hstep : t.step c .receive = some t') :
    ∃ crew', t'.Sound c start seen told crew' := by
  obtain ⟨-, s', hs', rfl⟩ := step_eq_some.1 hstep
  cases hw : t.system.queue.waiting with
  | nil =>
    simp only [System.step, hw] at hs'
    cases hs'
  | cons u us =>
    simp only [System.step, hw] at hs'
    cases hs'
    obtain ⟨name, rfl, hname⟩ := h.waiting u (hw ▸ List.mem_cons_self)
    refine ⟨crew ++ [(⟨.exposure name, t.system.clock, .taken⟩, .empty)], ?_⟩
    constructor
    · simp only [h.tasks, List.map_append, List.map_cons, List.map_nil]
    · simp only [note, h.found, List.map_append, List.map_cons, List.map_nil]
    · exact h.calm
    · exact h.standing
    · exact h.home
    · exact h.index
    · exact fun u' hu' => h.waiting u' (hw ▸ List.mem_cons_of_mem _ hu')
    · intro x hx
      rcases List.mem_append.1 hx with hx | hx
      · exact h.workers x hx
      · rw [List.mem_singleton.1 hx]
        exact ⟨name, rfl, hname, .inl rfl⟩
    · intro place name'
      rcases h.heard place name' with ht | ⟨x, hx, hv⟩
      · exact .inl ht
      · exact .inr ⟨x, List.mem_append_left _ hx, hv⟩
    · intro name'
      rcases h.sought name' with hf | hw' | ⟨x, hx, hs⟩
      · exact .inl hf
      · rw [hw] at hw'
        rcases List.mem_cons.1 hw' with he | hw'
        · cases he
          exact .inr (.inr ⟨_, List.mem_append_right _ List.mem_cons_self, rfl, rfl⟩)
        · exact .inr (.inl hw')
      · exact .inr (.inr ⟨x, List.mem_append_left _ hx, hs⟩)

/-- **A look-up** finds what the index says. -/
theorem Sound.lookUp (hc : c.Suits start.ns seen) (h : t.Sound c start seen told crew) {i : Nat}
    (hstep : t.step c (.lookUp i) = some t') : ∃ crew', t'.Sound c start seen told crew' := by
  obtain ⟨-, s', hs', rfl⟩ := step_eq_some.1 hstep
  cases hi : t.system.tasks[i]? with
  | none =>
    simp only [System.step, hi] at hs'
    cases hs'
  | some task =>
    obtain ⟨ports, hcrew, -⟩ := h.worker hi
    have hmem := List.mem_of_getElem? hcrew
    obtain ⟨name, hupdate, hname, -⟩ := h.workers _ hmem
    obtain ⟨u, since, stage⟩ := task
    obtain rfl : u = .exposure name := hupdate
    cases stage with
    | working | silent | reporting | resting =>
      simp only [System.step, hi] at hs'
      cases hs'
    | taken =>
      simp only [System.step, hi] at hs'
      cases hs'
      have hnote : t.note (.lookUp i) = (t.found.set i (t.system.index.portsOf name),
          .found name (t.system.index.portsOf name) :: t.journal) := by simp only [note, hi]
      rw [hnote]
      have hstays : ∀ x ∈ crew, ¬ x.Seeks name → ∀ y, x ∈ crew.set i y := by
        intro x hx hne y
        rcases eq_or_mem_set hx hcrew y with rfl | hx
        · exact absurd ⟨rfl, rfl⟩ hne
        · exact hx
      refine ⟨crew.set i (⟨.exposure name, since, .working (c.actionFor t.system.index (.exposure name))⟩,
        t.system.index.portsOf name), ?_, ?_, h.calm, h.standing, h.home, h.index, h.waiting, ?_, ?_, ?_⟩
      · simp only [System.setStage, h.tasks, List.map_set]
      · simp only [h.found, List.map_set]
      · intro x hx
        rcases List.mem_or_eq_of_mem_set hx with hx | rfl
        · exact h.workers x hx
        · exact ⟨name, rfl, hname, .inr ⟨_, rfl, Controller.asked_portsOf h.index hname,
            Controller.visits_actionFor hc h.index h.home.1 name _⟩⟩
      · intro place name'
        rw [lastTold_cons]
        rcases h.heard place name' with ht | ⟨x, hx, hv⟩
        · exact .inl ht
        · exact .inr ⟨x, hstays x hx (fun hs => hv.ne_seeks hs rfl) _, hv⟩
      · intro name'
        rw [lastFound_cons]
        by_cases hn : name' = name
        · subst hn
          have hself : (Entry.found name' (t.system.index.portsOf name')).found? name' =
              some (t.system.index.portsOf name') := if_pos rfl
          rw [hself]
          exact .inl rfl
        · have hother : (Entry.found name (t.system.index.portsOf name)).found? name' = none := if_neg hn
          rw [hother]
          rcases h.sought name' with hf | hw | ⟨x, hx, hs⟩
          · exact .inl hf
          · exact .inr (.inl hw)
          · refine .inr (.inr ⟨x, hstays x hx (fun hs' => hn ?_) _, hs⟩)
            exact Update.exposure.inj (hs.1.symm.trans hs'.1)

theorem Sound.endTask (h : t.Sound c start seen told crew) {i : Nat} {u : Update} {since : Nat}
    (hi : t.system.tasks[i]? = some ⟨u, since, .working (.done (.ok ()))⟩) :
    Sound c start seen told (crew.eraseIdx i) ⟨t.system.endTask i, t.found.eraseIdx i, t.journal⟩ := by
  obtain ⟨ports, hcrew, -⟩ := h.worker hi
  refine ⟨?_, ?_, h.calm, h.standing, h.home, h.index, h.waiting, ?_, ?_, ?_⟩
  · simp only [System.endTask, h.tasks, List.eraseIdx_eq_take_drop_succ, List.map_append, List.map_take, List.map_drop]
  · simp only [h.found, List.eraseIdx_eq_take_drop_succ, List.map_append, List.map_take, List.map_drop]
  · exact fun x hx => h.workers x (List.mem_of_mem_eraseIdx hx)
  · intro place name
    rcases h.heard place name with ht | ⟨x, hx, hv⟩
    · exact .inl ht
    · rcases eq_or_mem_eraseIdx hx hcrew with rfl | hx
      · obtain ⟨-, rest, hrest, hv⟩ := hv
        cases hrest
        exact absurd rfl hv.ne_done
      · exact .inr ⟨x, hx, hv⟩
  · intro name
    rcases h.sought name with hf | hw | ⟨x, hx, hs⟩
    · exact .inl hf
    · exact .inr (.inl hw)
    · rcases eq_or_mem_eraseIdx hx hcrew with rfl | hx
      · cases hs.2
      · exact .inr (.inr ⟨x, hx, hs⟩)

/-- What a task does with its request. -/
theorem work_call (s : System) (i : Nat) (task : Task) {q : Request} {next : Except Refusal q.Reply → Action Unit}
    {reply : Except Refusal q.Reply} {session : Session}
    (h : c.reconciler.answer q s.session = (some reply, session)) :
    s.work c i task (.call q next) = { s with session }.setStage i task (.working (next reply)) := by
  unfold Reconciler.answer at h
  unfold System.work
  split at h
  case isTrue hq =>
    cases h
    exact if_pos hq
  case isFalse hq =>
    refine (if_neg hq).trans ?_
    rw [h]

/-- **A request** tells its place something, or its task is still there. -/
theorem Sound.request (hc : c.Suits start.ns seen) (h : t.Sound c start seen told crew) {i : Nat} {u : Update}
    {since : Nat} {q : Request} {next : Except Refusal q.Reply → Action Unit}
    (hi : t.system.tasks[i]? = some ⟨u, since, .working (.call q next)⟩) :
    ∃ told' crew', Sound c start seen told' crew'
      ⟨t.system.work c i ⟨u, since, .working (.call q next)⟩ (.call q next), (t.note (.work i)).1, (t.note (.work i)).2⟩ := by
  obtain ⟨ports, hcrew, hfound⟩ := h.worker hi
  obtain ⟨name, hupdate, hname, hstage⟩ := h.workers _ (List.mem_of_getElem? hcrew)
  obtain rfl : u = .exposure name := hupdate
  obtain ⟨rest, hrest, ha, hl⟩ := hstage.resolve_left nofun
  cases hrest
  obtain ⟨reply, session, told', hanswer, hcalm, hwrite, hstanding, hleaves, hheard⟩ :=
    h.standing.answer hc.tables hc.lawful hc.separates hc.addressed h.calm ha hl
  have hnote : t.note (.work i) = (t.found, .requested name ports q :: t.journal) := by simp only [note, hi, hfound]
  obtain ⟨hlt, -⟩ := List.getElem?_eq_some_iff.1 hcrew
  obtain ⟨hlt', hfound⟩ := List.getElem?_eq_some_iff.1 hfound
  rw [work_call _ _ _ hanswer, hnote]
  refine ⟨told', crew.set i (⟨.exposure name, since, .working (next reply)⟩, ports), ?_, ?_, hcalm, hstanding, h.home,
    h.index, h.waiting, ?_, ?_, ?_⟩
  · simp only [System.setStage, h.tasks, List.map_set]
  · dsimp only
    rw [List.map_set, ← h.found, ← hfound, List.set_getElem_self]
  · intro x hx
    rcases List.mem_or_eq_of_mem_set hx with hx | rfl
    · exact (h.workers x hx).write hwrite
    · exact ⟨name, rfl, hname, .inr ⟨_, rfl, ha, hleaves⟩⟩
  · intro place name'
    have htold : (Entry.requested name ports q).told? (c.reconciler.objectAt place) name' =
        (c.reconciler.objectAt place).tells q name ports name' := rfl
    rw [lastTold_cons, htold]
    rcases hheard place name' with he | ⟨rfl, hv⟩
    · rw [he]
      cases htells : (c.reconciler.objectAt place).tells q name ports name' with
      | some told => exact .inl rfl
      | none =>
        rcases h.heard place name' with ht | ⟨x, hx, hv⟩
        · exact .inl ht
        · rcases eq_or_mem_set hx hcrew _ with rfl | hx
          · -- the task itself is at the place, so its request told the place something
            obtain ⟨hu, rest, hrest, hv⟩ := hv
            cases hu
            cases hrest
            obtain ⟨hq, -⟩ := hv.call h.standing.versioned (h.standing.named place)
            exact absurd htells (SharedResource.tells_self hq name ports)
          · exact .inr ⟨x, hx, hv.write hwrite⟩
    · exact .inr ⟨_, List.mem_set hlt _, rfl, _, rfl, hv⟩
  · intro name'
    rw [lastFound_cons]
    rcases h.sought name' with hf | hw | ⟨x, hx, hs⟩
    · exact .inl hf
    · exact .inr (.inl hw)
    · rcases eq_or_mem_set hx hcrew _ with rfl | hx
      · cases hs.2
      · exact .inr (.inr ⟨x, hx, hs⟩)

theorem Sound.work (hc : c.Suits start.ns seen) (h : t.Sound c start seen told crew) {i : Nat}
    (hstep : t.step c (.work i) = some t') : ∃ told' crew', t'.Sound c start seen told' crew' := by
  obtain ⟨hsmooth, s', hs', rfl⟩ := step_eq_some.1 hstep
  match hi : t.system.tasks[i]? with
  | none | some ⟨u, since, .taken⟩ | some ⟨u, since, .silent⟩ | some ⟨u, since, .reporting⟩ |
    some ⟨u, since, .resting due⟩ =>
    simp only [System.step, hi] at hs'
    cases hs'
  | some ⟨u, since, .working (.done (.error e))⟩ =>
    simp only [System.isSmooth, hi] at hsmooth
    cases hsmooth
  | some ⟨u, since, .working (.done (.ok ()))⟩ =>
    simp only [System.step, hi] at hs'
    cases hs'
    have hnote : t.note (.work i) = (t.found.eraseIdx i, t.journal) := by simp only [note, hi]
    rw [hnote]
    exact ⟨told, _, h.endTask hi⟩
  | some ⟨u, since, .working (.call q next)⟩ =>
    simp only [System.step, hi] at hs'
    cases hs'
    exact h.request hc hi

/-- **One smooth move** keeps the invariant. -/
theorem Sound.step (hc : c.Suits start.ns seen) (h : t.Sound c start seen told crew) {m : Move}
    (hm : ∀ {s : Service}, m = .observe (.service s) → s.name ≠ start.exposedService → seen s)
    (hstep : t.step c m = some t') : ∃ told' crew', t'.Sound c start seen told' crew' := by
  have hsmooth := (step_eq_some.1 hstep).1
  cases m with
  | observe o =>
    cases o with
    | service s => exact ⟨told, crew, h.observeService (hm rfl) hstep⟩
    | serviceGone gone => exact ⟨told, crew, h.forgetService hstep⟩
    | deployment | deploymentGone | configMap | configMapGone => cases hsmooth
  | receive => exact ⟨told, h.receive hstep⟩
  | lookUp i => exact ⟨told, h.lookUp hc hstep⟩
  | work i => exact h.work hc hstep
  | expire i | putBack i => cases hsmooth
  | tick ms =>
    obtain ⟨-, s', hs', rfl⟩ := step_eq_some.1 hstep
    cases hs'
    exact ⟨told, crew, h.tasks, h.found, h.calm, h.standing, h.home, h.index, h.waiting, h.workers, h.heard, h.sought⟩

theorem Sound.run (hc : c.Suits start.ns seen) : ∀ {ms : List Move} {told : Place → Wishes} {crew : List Worker}
    {t : Trace}, t.Sound c start seen told crew →
    (∀ s : Service, .observe (.service s) ∈ ms → s.name ≠ start.exposedService → seen s) →
    Trace.run c t ms = some t' → ∃ told' crew', t'.Sound c start seen told' crew'
  | [], told, crew, _, h, _, hrun => by
    cases hrun
    exact ⟨told, crew, h⟩
  | m :: ms, _, _, t, h, hms, hrun => by
    obtain ⟨t₁, hstep, hrun⟩ := Option.bind_eq_some_iff.1 hrun
    obtain ⟨told₁, crew₁, h₁⟩ := h.step hc (fun {s} hm => hms s (hm ▸ List.mem_cons_self)) hstep
    exact h₁.run hc (fun s hs => hms s (List.mem_cons_of_mem m hs)) hrun

end Trace

/-! ## When everything is done -/

namespace System

/-- Nothing has happened yet: no service is known, nothing waits or works, and none of the shared objects exists. -/
structure Fresh (c : Controller) (s : System) : Prop where
  services : ∀ name, s.index.service? name = none
  waiting : s.queue.waiting = []
  tasks : s.tasks = []
  calm : s.session.Calm
  versioned : s.session.storage.cluster.Versioned
  places : ∀ place, s.session.storage.cluster.get? (c.reconciler.objectAt place).kind (c.reconciler.objectAt place).name =
    none

/-- Nothing waits, and every task is done. -/
def Quiescent (s : System) : Prop := s.queue.waiting = [] ∧ s.tasks = []

/-- The cluster is in line with the index.  At every place the part of every service that was seen is exactly what it
wants by the index, and the policy's first rule admits what the services want and nothing else. -/
structure InLine (c : Controller) (seen : Service → Prop) (s : System) : Prop where
  parts : ∀ place {x : Service}, seen x → c.reconciler.Carries s.index.ns place x.name (s.index.portsOf x.name)
    s.session.storage.cluster
  admitted : ∀ e, e ∈ c.reconciler.admission.portsIn s.session.storage.cluster ↔
    ∃ name, ∃ p ∈ (s.index.portsOf name).forwardable.toList, e = .ofExposed p

/-- The services that are seen in a run. -/
def Sees (s : System) (ms : List Move) (x : Service) : Prop :=
  .observe (.service x) ∈ ms ∧ x.name ≠ s.index.exposedService

end System

namespace Trace

variable {c : Controller} {s : System} {ms : List Move} {t : Trace} {start : Index} {seen : Service → Prop}
  {told : Place → Wishes} {crew : List Worker}

theorem sound_fresh (hs : s.Fresh c) (seen : Service → Prop) :
    Sound c s.index seen (fun _ => .none) [] ⟨s, [], []⟩ where
  tasks := hs.tasks
  found := rfl
  calm := hs.calm
  standing :=
    { versioned := hs.versioned
      named := fun place o ho => by
        rw [hs.places] at ho
        cases ho
      within := fun _ => Wishes.within_none _
      shows := fun place => Reconciler.shows_absent (hs.places place) }
  home := ⟨rfl, rfl⟩
  index := fun name x hx => by
    rw [hs.services] at hx
    cases hx
  waiting := fun u hu => by
    rw [hs.waiting] at hu
    cases hu
  workers := nofun
  heard := fun _ _ => .inl rfl
  sought := fun name => .inl (Index.portsOf_of_none (hs.services name)).symm

theorem Sound.found_eq (h : t.Sound c start seen told []) (hw : t.system.queue.waiting = []) (name : String) :
    t.lastFound name = t.system.index.portsOf name := by
  rcases h.sought name with hf | hw' | ⟨x, hx, -⟩
  · exact hf
  · rw [hw] at hw'
    cases hw'
  · cases hx

theorem Sound.told_eq (h : t.Sound c start seen told []) (place : Place) (name : String) :
    told place name = (t.lastTold (c.reconciler.objectAt place) name).forwardable := by
  rcases h.heard place name with ht | ⟨x, hx, -⟩
  · exact ht
  · cases hx

/-- Once every task is done, a place has what it was told last. -/
theorem Sound.carries_iff (hc : c.Suits start.ns seen) (h : t.Sound c start seen told []) (place : Place) {x : Service}
    (hx : seen x) (ports : ExposedPorts) :
    c.reconciler.Carries start.ns place x.name ports t.system.session.storage.cluster ↔
      c.reconciler.Agree start.ns place x.name (t.lastTold (c.reconciler.objectAt place) x.name) ports := by
  have hmember : ∃ ports, Asked seen x.name ports := ⟨.empty, ⟨x, hx, rfl⟩, .inl rfl⟩
  rw [(h.standing.shows place).carries_iff hc.separates ((h.standing.within place).legal hc.lawful) hmember, h.told_eq,
    Reconciler.agree_forwardable]

/-- The policy admits what the services want by the index, if that is what it was told. -/
theorem Sound.admitted (h : t.Sound c start seen told crew)
    (hrecord : ∀ {x : Service}, seen x → ∀ p, p ∈ (told .policy x.name).toList ↔
      p ∈ (t.system.index.portsOf x.name).forwardable.toList) (e : PolicyPort) :
    e ∈ c.reconciler.admission.portsIn t.system.session.storage.cluster ↔
      ∃ name, ∃ p ∈ (t.system.index.portsOf name).forwardable.toList, e = .ofExposed p := by
  have hfollows : c.reconciler.admission.Follows (told .policy)
      (t.system.session.storage.cluster.get? .networkPolicy c.reconciler.admission.name) := h.standing.shows .policy
  rw [hfollows.mem_portsIn]
  constructor
  · rintro ⟨id, ⟨name, hid⟩, rfl⟩
    obtain ⟨p, hp, rfl⟩ := List.mem_map.1 hid
    rcases h.standing.within .policy name with he | ⟨ports, ⟨⟨x, hx, rfl⟩, -⟩, -⟩
    · rw [he] at hp
      cases hp
    · exact ⟨x.name, p, (hrecord hx p).1 hp, rfl⟩
  · rintro ⟨name, p, hp, rfl⟩
    rcases t.system.index.portsOf_cases name with he | ⟨x, ports, hx, -, -⟩
    · rw [he] at hp
      cases hp
    · obtain ⟨rfl, hseen⟩ := h.index hx
      exact ⟨p.id, ⟨x.name, List.mem_map_of_mem ((hrecord hseen p).2 hp)⟩, rfl⟩

/-- **When the cluster is in line with the index.**  Services come and go, and tasks look them up and make their requests,
in any order, until nothing waits and every task is done.  Then the latest look-up of each service found what the index
says, and the cluster is in line with the index exactly if, at every place, what was told last about each service comes to
what was found last. -/
theorem inLine_iff (hc : c.Suits s.index.ns (s.Sees ms)) (hs : s.Fresh c) (hrun : run c ⟨s, [], []⟩ ms = some t)
    (hq : t.system.Quiescent) :
    (∀ name, t.lastFound name = t.system.index.portsOf name) ∧
    (t.system.InLine c (s.Sees ms) ↔ ∀ place {x : Service}, s.Sees ms x →
      c.reconciler.Agree s.index.ns place x.name (t.lastTold (c.reconciler.objectAt place) x.name)
        (t.lastFound x.name)) := by
  obtain ⟨told, crew, h⟩ := (sound_fresh hs (s.Sees ms)).run hc (fun x hx hne => ⟨hx, hne⟩) hrun
  have hcrew : crew = [] := List.map_eq_nil_iff.1 (h.tasks.symm.trans hq.2)
  subst hcrew
  have hfound := h.found_eq hq.1
  have hparts : ∀ place {x : Service}, s.Sees ms x →
      (c.reconciler.Carries t.system.index.ns place x.name (t.system.index.portsOf x.name)
        t.system.session.storage.cluster ↔ c.reconciler.Agree s.index.ns place x.name
        (t.lastTold (c.reconciler.objectAt place) x.name) (t.lastFound x.name)) := by
    intro place x hx
    rw [h.home.1, h.carries_iff hc place hx, hfound]
  refine ⟨hfound, fun hline place x hx => (hparts place hx).1 (hline.parts place hx), fun hagree => ?_⟩
  refine ⟨fun place x hx => (hparts place hx).2 (hagree place hx), h.admitted (fun hx => ?_)⟩
  rw [h.told_eq, ← hfound]
  exact hagree .policy hx

/-! ## Three runs -/

/-- A controller to try things on. -/
def sampleController : Controller := ⟨⟨{}, .nginx, .ofCluster "global-config"⟩, 10000, 5000⟩

/-- A system in which nothing has happened. -/
def sampleSystem : System where
  index := { ns := "ecosystem", globalConfig := "global-config", exposedService := "nginx-ingress-exposed" }
  queue := { capacity := 100 }

/-- A service comes or changes, and the task for it starts at position `i`. -/
def arrive (i : Nat) (s : Service) : List Move := [.observe (.service s), .receive, .lookUp i]

/-- A task goes on for some moves. -/
def advance (i n : Nat) : List Move := List.replicate n (.work i)

def scm : Service := .wanting "scm" [⟨.tcp, 2222, 22⟩]

def scmMoved : Service := .wanting "scm" [⟨.tcp, 2022, 22⟩]

def ldap : Service := .wanting "ldap" [⟨.tcp, 389, 389⟩]

/-- The services that come or change by a move. -/
def observed : Move → List Service
  | .observe (.service s) => [s]
  | _ => []

theorem mem_observed {s : System} {ms : List Move} {x : Service} (hx : s.Sees ms x) : x ∈ ms.flatMap observed :=
  List.mem_flatMap.2 ⟨_, hx.1, List.mem_singleton.2 rfl⟩

theorem suits_sample {ms : List Move} (h : ∀ x ∈ ms.flatMap observed, x ∈ [scm, scmMoved, ldap]) :
    sampleController.Suits sampleSystem.index.ns (sampleSystem.Sees ms) := by
  have hmem : ∀ {x}, sampleSystem.Sees ms x → x ∈ [scm, scmMoved, ldap] := fun hx => h _ (mem_observed hx)
  have hhome : ∀ s ∈ [scm, scmMoved, ldap], (sampleController.reconciler.contributorOf s).ns = "ecosystem" := by
    decide +kernel
  have hbegins : ∀ s ∈ [scm, scmMoved, ldap], OwnershipRecords.BeginsAlphanum s.name := by decide +kernel
  have hkeys : ∀ s ∈ [scm, scmMoved, ldap], ∀ s' ∈ [scm, scmMoved, ldap],
      sampleController.reconciler.settings.ownership.key s.name =
        sampleController.reconciler.settings.ownership.key s'.name → s.name = s'.name := by decide +kernel
  have hapart : ∀ s ∈ [scm, scmMoved, ldap], ∀ s' ∈ [scm, scmMoved, ldap], s.name ≠ s'.name →
      ∀ id ∈ (s.exposedPorts.toOption.map (·.forwardable.ids)).getD [],
        id ∉ (s'.exposedPorts.toOption.map (·.forwardable.ids)).getD [] := by decide +kernel
  constructor
  · rfl
  · exact ⟨"global-config", rfl, by decide, by decide⟩
  · decide
  · exact ⟨by decide, fun place => by cases place <;> decide⟩
  · exact fun hs => hhome _ (hmem hs)
  · exact fun hs => hbegins _ (hmem hs)
  · exact fun hs hs' => hkeys _ (hmem hs) _ (hmem hs')
  · intro s s' ports ports' id hs hs' hp hp' hid hid'
    apply Classical.byContradiction
    intro hne
    have hnone := hapart s (hmem hs) s' (hmem hs') hne
    rw [hp, hp'] at hnone
    exact hnone id hid hid'

theorem fresh_sample : sampleSystem.Fresh sampleController where
  services := fun _ => rfl
  waiting := rfl
  tasks := rfl
  calm := ⟨rfl, rfl, rfl⟩
  versioned := Cluster.versioned_empty
  places := fun place => by cases place <;> rfl

/-- Two services come at the same time, and their tasks take turns. -/
def neighbours : List Move :=
  [.observe (.service scm), .observe (.service ldap), .receive, .receive, .lookUp 0, .lookUp 1] ++
    (List.replicate 8 [.work 0, .work 1]).flatten ++ advance 0 4

theorem inLine_neighbours : ∃ t, run sampleController ⟨sampleSystem, [], []⟩ neighbours = some t ∧ t.system.Quiescent ∧
    t.system.InLine sampleController (sampleSystem.Sees neighbours) := by
  have hseen : ∀ x ∈ neighbours.flatMap observed, x ∈ [scm, scmMoved, ldap] := by decide +kernel
  have hrun : (run sampleController ⟨sampleSystem, [], []⟩ neighbours).any (fun t =>
      decide (t.system.queue.waiting = []) && t.system.tasks.isEmpty &&
        (neighbours.flatMap observed).all (fun x => [Place.policy, .balancer, .tcp, .udp].all (fun place =>
          t.lastTold (sampleController.reconciler.objectAt place) x.name = t.lastFound x.name))) = true := by
    decide +kernel
  obtain ⟨t, hrun, ht⟩ := Option.any_eq_true _ _ |>.1 hrun
  simp only [Bool.and_eq_true, decide_eq_true_eq, List.isEmpty_iff, List.all_eq_true] at ht
  obtain ⟨hq, htold⟩ := ht
  refine ⟨t, hrun, hq, (inLine_iff (suits_sample hseen) fresh_sample hrun hq).2.2 (fun place x hx => ?_)⟩
  rw [htold x (mem_observed hx) place (by cases place <;> decide)]
  exact Reconciler.agree_refl _ _ _ _ _

/-- Where a port that a service wants is missing on the load balancer, the cluster is not in line. -/
theorem not_inLine_sample {ms : List Move} (x : Service) (id : PortId)
    (hx : sampleSystem.Sees ms x) (hseen : ∀ x ∈ ms.flatMap observed, x ∈ [scm, scmMoved, ldap])
    (hrun : (run sampleController ⟨sampleSystem, [], []⟩ ms).any (fun t =>
      decide (t.system.queue.waiting = []) && t.system.tasks.isEmpty && decide (
        LoadBalancer.portFor id x.name ∉
          sampleController.reconciler.loadBalancer.portsIn t.system.session.storage.cluster ∧
        LoadBalancer.portFor id x.name ∈ LoadBalancer.ledger.wanted x.name (t.system.index.portsOf x.name))) = true) :
    sampleController.Suits sampleSystem.index.ns (sampleSystem.Sees ms) ∧ sampleSystem.Fresh sampleController ∧
      ∃ t, run sampleController ⟨sampleSystem, [], []⟩ ms = some t ∧ t.system.Quiescent ∧
        ¬ t.system.InLine sampleController (sampleSystem.Sees ms) := by
  obtain ⟨t, hrun, ht⟩ := Option.any_eq_true _ _ |>.1 hrun
  simp only [Bool.and_eq_true, decide_eq_true_eq, List.isEmpty_iff] at ht
  obtain ⟨hq, hmissing, hwanted⟩ := ht
  refine ⟨suits_sample hseen, fresh_sample, t, hrun, hq, fun h => hmissing ?_⟩
  exact ((h.parts .balancer hx _).2 hwanted).1

/-- While one task is about to make its first request, another one for a newer version of the service does all its work. -/
def overtaken : List Move := arrive 0 scm ++ arrive 1 scmMoved ++ advance 1 9 ++ advance 0 9

/-- **A task that is overtaken** brings the older version back. -/
theorem overtaken_not_inLine :
    sampleController.Suits sampleSystem.index.ns (sampleSystem.Sees overtaken) ∧ sampleSystem.Fresh sampleController ∧
      ∃ t, run sampleController ⟨sampleSystem, [], []⟩ overtaken = some t ∧ t.system.Quiescent ∧
        ¬ t.system.InLine sampleController (sampleSystem.Sees overtaken) :=
  not_inLine_sample scmMoved ⟨.tcp, 2022⟩ ⟨by simp [overtaken, arrive], by decide⟩ (by decide +kernel)
    (by decide +kernel)

/-- A service goes; its task finds no other port on the load balancer, and before it deletes it another service comes. -/
def lateDeletion : List Move :=
  arrive 0 scm ++ advance 0 9 ++ [.observe (.serviceGone "scm"), .receive, .lookUp 0] ++ advance 0 3 ++
    arrive 1 ldap ++ advance 1 9 ++ advance 0 5

/-- **A deletion that comes late** takes the port of the other service along. -/
theorem lateDeletion_not_inLine :
    sampleController.Suits sampleSystem.index.ns (sampleSystem.Sees lateDeletion) ∧ sampleSystem.Fresh sampleController ∧
      ∃ t, run sampleController ⟨sampleSystem, [], []⟩ lateDeletion = some t ∧ t.system.Quiescent ∧
        ¬ t.system.InLine sampleController (sampleSystem.Sees lateDeletion) :=
  not_inLine_sample ldap ⟨.tcp, 389⟩ ⟨by simp [lateDeletion, arrive], by decide⟩ (by decide +kernel)
    (by decide +kernel)

end Trace
end ServiceExposure
