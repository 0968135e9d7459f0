import ServiceExposure.Proofs.Reconciler.Tour
/-!
# What the places were told

Programs of many services visit the places at the same time.  The places stand (`Reconciler.Standing`) as long as each of
them shows what every service told it last.  A request tells its place what the service wants, if it is the one that makes
the change there; one that deletes the object tells on behalf of every service that it wants nothing
(`SharedResource.tells`).  So whatever a program asks, the places stand, and the program goes on (`Reconciler.Standing.answer`).
-/
namespace ServiceExposure

/-! ## What may be asked for -/

/-- Services ask for ports in range, and no two of them for one port. -/
structure Wishes.Lawful (asks : String → ExposedPorts → Prop) : Prop where
  valid : ∀ {n ports}, asks n ports → ports.Valid
  apart : ∀ {n ports n' ports' id}, asks n ports → asks n' ports' → id ∈ ports.forwardable.ids →
    id ∈ ports'.forwardable.ids → n = n'

namespace Wishes

/-- Everybody asked for something that it may ask for, if for anything. -/
def Within (w : Wishes) (asks : String → ExposedPorts → Prop) : Prop :=
  ∀ n, w n = .empty ∨ ∃ ports, asks n ports ∧ w n = ports.forwardable

variable {asks : String → ExposedPorts → Prop} {w : Wishes} {name : String} {ports : ExposedPorts}

theorem within_none (asks : String → ExposedPorts → Prop) : none.Within asks := fun _ => .inl rfl

theorem Within.set (h : w.Within asks) (ha : asks name ports) : (w.set name ports).Within asks := by
  intro n
  unfold Wishes.set
  split
  case isTrue e => exact .inr ⟨ports, e ▸ ha, rfl⟩
  case isFalse => exact h n

theorem Within.legal (h : w.Within asks) (hl : Lawful asks) : w.Legal (fun n => ∃ ports, asks n ports) := by
  constructor
  · intro n
    rcases h n with e | ⟨ports, ha, e⟩
    · rw [e]
      exact ExposedPorts.valid_empty
    · rw [e]
      exact (hl.valid ha).forwardable
  · intro n
    rcases h n with e | ⟨ports, -, e⟩
    · rw [e]
      exact fun p hp => nomatch hp
    · rw [e]
      exact ports.allForwardable_forwardable
  · intro n hne
    rcases h n with e | ⟨ports, ha, -⟩
    · rw [e] at hne
      exact absurd rfl hne
    · exact ⟨ports, ha⟩

theorem Within.apart (h : w.Within asks) (hl : Lawful asks) : w.Apart := by
  intro n n' id hid hid'
  rcases h n with e | ⟨ports, ha, e⟩
  · rw [e] at hid
    cases hid
  · rcases h n' with e' | ⟨ports', ha', e'⟩
    · rw [e'] at hid'
      cases hid'
    · rw [e] at hid
      rw [e'] at hid'
      exact hl.apart ha ha' hid hid'

end Wishes

/-! ## The places among requests -/

/-- What a request on behalf of a service that wants `ports` tells the object about a service. -/
def SharedResource.tells (s : SharedResource) (q : Request) (name : String) (ports : ExposedPorts) (service : String) :
    Option ExposedPorts :=
  if ¬ s.Concerns q then none
  else if q.verb = .delete then some .empty
  else if service = name then some ports
  else none

theorem SharedResource.tells_of_not_concerns {s : SharedResource} {q : Request} (h : ¬ s.Concerns q) (name : String)
    (ports : ExposedPorts) (service : String) : s.tells q name ports service = none := if_pos h

theorem SharedResource.tells_of_delete {s : SharedResource} {q : Request} (hq : s.Concerns q) (hd : q.verb = .delete)
    (name : String) (ports : ExposedPorts) (service : String) : s.tells q name ports service = some .empty := by
  unfold tells
  rw [if_neg (not_not_intro hq), if_pos hd]

theorem SharedResource.tells_of_ne_delete {s : SharedResource} {q : Request} (hq : s.Concerns q) (hd : q.verb ≠ .delete)
    (name : String) (ports : ExposedPorts) (service : String) :
    s.tells q name ports service = if service = name then some ports else none := by
  unfold tells
  rw [if_neg (not_not_intro hq), if_neg hd]

/-- What concerns an object tells it something about the service that asks. -/
theorem SharedResource.tells_self {s : SharedResource} {q : Request} (hq : s.Concerns q) (name : String)
    (ports : ExposedPorts) : s.tells q name ports name ≠ none := by
  by_cases hd : q.verb = .delete
  · rw [tells_of_delete hq hd]
    exact nofun
  · rw [tells_of_ne_delete hq hd, if_pos rfl]
    exact nofun

theorem SharedResource.gone_of_delete {s : SharedResource} {q : Request} (hq : s.Concerns q) (hd : q.verb = .delete)
    (c : Cluster) : (c.serve q).2.get? s.kind s.name = none := by
  cases q with
  | get | list | create | replace => cases hd
  | delete kind name =>
    obtain ⟨hkind, hname⟩ : kind = s.kind ∧ some name = some s.name := hq
    cases hkind
    cases hname
    exact c.get?_serve_delete s.kind s.name

/-- What is planned for an object under its name has that name again. -/
theorem SharedResource.named_effect {s : SharedResource} (hg : s.Guarded) {contributor : Contributor}
    {desired : ExposedPorts} {c c' : Cluster}
    (hnamed : ∀ o, c.get? s.kind s.name = some o → s.kind.nameOf o = s.name)
    (he : s.Effect contributor desired c c') :
    ∀ o, c'.get? s.kind s.name = some o → s.kind.nameOf o = s.name := by
  obtain ⟨change, hp, rfl⟩ := he
  have hput : ∀ new, s.kind.nameOf new = s.name →
      ∀ o, (c.put s.kind s.name new).get? s.kind s.name = some o → s.kind.nameOf o = s.name := by
    intro new hnew o ho
    rw [Cluster.get?_put_self] at ho
    cases ho
    rw [Cluster.nameOf_stamped, hnew]
  cases change with
  | unchanged => exact hnamed
  | create new => exact hput new (hg.create hp).2
  | replace new =>
    obtain ⟨read, hread, -, hname⟩ := hg.replace hp
    exact hput new (hname.trans (hnamed read hread))
  | delete =>
    intro o ho
    change (c.remove s.kind s.name).get? s.kind s.name = some o at ho
    rw [Cluster.get?_remove_self] at ho
    cases ho

namespace Reconciler

/-- Every place shows what the services told it last. -/
structure Standing (r : Reconciler) (ns : String) (asks : String → ExposedPorts → Prop) (told : Place → Wishes)
    (c : Cluster) : Prop where
  versioned : c.Versioned
  /-- The objects are stored under their names. -/
  named : ∀ place o, c.get? (r.objectAt place).kind (r.objectAt place).name = some o →
    (r.objectAt place).kind.nameOf o = (r.objectAt place).name
  within : ∀ place, (told place).Within asks
  shows : ∀ place, r.Shows ns place (told place) c

/-- What the places were told, after one of them was told something else. -/
def retold (told : Place → Wishes) (place : Place) (w : Wishes) : Place → Wishes :=
  fun p => if p = place then w else told p

variable {r : Reconciler} {ns name : String} {asks : String → ExposedPorts → Prop} {told : Place → Wishes}
  {c c' : Cluster} {ports : ExposedPorts} {place : Place}

theorem objectAt_ne (htables : r.settings.tcpServices ≠ r.settings.udpServices) {place place' : Place}
    (h : place ≠ place') : (r.objectAt place).kind ≠ (r.objectAt place').kind ∨
      (r.objectAt place).name ≠ (r.objectAt place').name := by
  cases place <;> cases place' <;> first | exact absurd rfl h | exact .inr htables | exact .inr htables.symm |
    exact .inl nofun

theorem eq_of_concerns (htables : r.settings.tcpServices ≠ r.settings.udpServices) {place place' : Place} {q : Request}
    (h : (r.objectAt place).Concerns q) (h' : (r.objectAt place').Concerns q) : place = place' := by
  apply Classical.byContradiction
  intro hne
  rcases objectAt_ne htables hne with hk | hn
  · exact hk (h.1.symm.trans h'.1)
  · exact hn (Option.some.inj (h.2.symm.trans h'.2))

/-- A request that concerns one place is beside the others. -/
theorem beside_place (htables : r.settings.tcpServices ≠ r.settings.udpServices) {place place' : Place} {q : Request}
    (hq : (r.objectAt place).Concerns q) (hne : place' ≠ place) (c : Cluster) :
    (c.serve q).2.get? (r.objectAt place').kind (r.objectAt place').name =
      c.get? (r.objectAt place').kind (r.objectAt place').name := by
  refine c.beside_serve hq.2 ?_
  rw [hq.1]
  exact objectAt_ne htables hne

theorem Standing.congr (h : r.Standing ns asks told c) (hv : c'.Versioned)
    (hsame : ∀ place, c'.get? (r.objectAt place).kind (r.objectAt place).name =
      c.get? (r.objectAt place).kind (r.objectAt place).name) : r.Standing ns asks told c' where
  versioned := hv
  named := fun place o ho => h.named place o ((hsame place).symm.trans ho)
  within := h.within
  shows := fun place => (h.shows place).congr (hsame place)

/-- One place changes and the others do not. -/
theorem Standing.change (h : r.Standing ns asks told c) (hv : c'.Versioned) {w : Wishes} (hw : w.Within asks)
    (hothers : ∀ place', place' ≠ place → c'.get? (r.objectAt place').kind (r.objectAt place').name =
      c.get? (r.objectAt place').kind (r.objectAt place').name)
    (hnamed : ∀ o, c'.get? (r.objectAt place).kind (r.objectAt place).name = some o →
      (r.objectAt place).kind.nameOf o = (r.objectAt place).name)
    (hshows : r.Shows ns place w c') : r.Standing ns asks (retold told place w) c' := by
  have hself : retold told place w place = w := if_pos rfl
  have hrest : ∀ {p}, p ≠ place → retold told place w p = told p := fun hne => if_neg hne
  constructor
  · exact hv
  · intro p o ho
    by_cases hp : p = place
    · subst hp
      exact hnamed o ho
    · exact h.named p o ((hothers p hp).symm.trans ho)
  · intro p
    by_cases hp : p = place
    · subst hp
      rw [hself]
      exact hw
    · rw [hrest hp]
      exact h.within p
  · intro p
    by_cases hp : p = place
    · subst hp
      rw [hself]
      exact hshows
    · rw [hrest hp]
      exact (h.shows p).congr (hothers p hp)

/-- What the places were told after a request: what the request tells them, except where the program still visits. -/
def Heard (r : Reconciler) (ns : String) (told told' : Place → Wishes) (q : Request) (name : String)
    (ports : ExposedPorts) (rest : Action Unit) (c : Cluster) : Prop :=
  ∀ place service,
    told' place service =
      (((r.objectAt place).tells q name ports service).map ExposedPorts.forwardable).getD (told place service) ∨
    service = name ∧ r.Visits ⟨ns, name⟩ ports place rest c

/-- A request tells its own place something and the others nothing. -/
theorem heard_retold (htables : r.settings.tcpServices ≠ r.settings.udpServices) {q : Request}
    (hq : (r.objectAt place).Concerns q) {w : Wishes}
    (hw : ∀ service, w service =
      (((r.objectAt place).tells q name ports service).map ExposedPorts.forwardable).getD (told place service))
    (rest : Action Unit) (c : Cluster) : r.Heard ns told (retold told place w) q name ports rest c := by
  intro place' service
  refine .inl ?_
  unfold retold
  split
  case isTrue e =>
    subst e
    exact hw service
  case isFalse hne =>
    rw [SharedResource.tells_of_not_concerns (fun h' => hne (eq_of_concerns htables h' hq))]
    rfl

/-- A request that changes nothing tells its place what the program is still about to do there. -/
theorem heard_of_visits (htables : r.settings.tcpServices ≠ r.settings.udpServices) {q : Request}
    (hq : (r.objectAt place).Concerns q) (hd : q.verb ≠ .delete) {rest : Action Unit} {c : Cluster}
    (hv : r.Visits ⟨ns, name⟩ ports place rest c) : r.Heard ns told told q name ports rest c := by
  intro place' service
  by_cases hp : place' = place
  · subst hp
    by_cases hn : service = name
    · exact .inr ⟨hn, hv⟩
    · rw [SharedResource.tells_of_ne_delete hq hd, if_neg hn]
      exact .inl rfl
  · rw [SharedResource.tells_of_not_concerns (fun h' => hp (eq_of_concerns htables h' hq))]
    exact .inl rfl

/-- A request that spares the places tells them nothing. -/
theorem heard_of_spares {q : Request} (hq : r.Spares q) (rest : Action Unit) (c : Cluster) :
    r.Heard ns told told q name ports rest c := by
  intro place service
  rw [SharedResource.tells_of_not_concerns (hq.2 place)]
  exact .inl rfl

/-- A request was answered, and `rest` is what its program goes on with: the places stand for what they are told now. -/
structure Answered (r : Reconciler) (ns : String) (asks : String → ExposedPorts → Prop) (told told' : Place → Wishes)
    (q : Request) (name : String) (ports : ExposedPorts) (rest : Action Unit) (c c' : Cluster) : Prop where
  write : c' = c ∨ c.Write c'
  standing : r.Standing ns asks told' c'
  leaves : r.Leaves ⟨ns, name⟩ ports rest c'
  heard : r.Heard ns told told' q name ports rest c'

/-- A place whose object is deleted shows nothing any more. -/
theorem Standing.delete (htables : r.settings.tcpServices ≠ r.settings.udpServices) (h : r.Standing ns asks told c)
    {q : Request} (hq : (r.objectAt place).Concerns q) (hd : q.verb = .delete) :
    r.Standing ns asks (retold told place .none) (c.serve q).2 := by
  have hgone := SharedResource.gone_of_delete hq hd c
  refine h.change (h.versioned.serve q) (Wishes.within_none asks) (fun place' hne => beside_place htables hq hne c) ?_
    (shows_absent hgone)
  intro o ho
  rw [hgone] at ho
  cases ho

/-- **A request of a program that visits a place**: the places stand, and the program goes on. -/
theorem Standing.visit (htables : r.settings.tcpServices ≠ r.settings.udpServices) (hl : Wishes.Lawful asks)
    (hs : r.settings.ownership.Separates (fun n => ∃ ports, asks n ports)) (h : r.Standing ns asks told c)
    (ha : asks name ports) {q : Request} {next : Except Refusal q.Reply → Action Unit}
    (hv : r.Visits ⟨ns, name⟩ ports place (.call q next) c) :
    ∃ told', r.Answered ns asks told told' q name ports (next (c.serve q).1) c (c.serve q).2 := by
  obtain ⟨hq, ψ, hstep, hnext⟩ := hv.call h.versioned (h.named place)
  have hversioned := h.versioned.serve q
  have hwrite := c.serve_eq_or_write q
  have hleaves : r.Leaves ⟨ns, name⟩ ports (next (c.serve q).1) (c.serve q).2 := by
    cases ψ with
    | pending => exact .inr ⟨place, hnext⟩
    | committed => exact hnext
  by_cases hdelete : q.verb = .delete
  · refine ⟨_, hwrite, h.delete htables hq hdelete, hleaves, heard_retold htables hq (fun service => ?_) _ _⟩
    rw [SharedResource.tells_of_delete hq hdelete]
    rfl
  · cases hstep with
    | quiet hquiet =>
      have hquiet : (c.serve q).2 = c := hquiet
      exact ⟨told, hwrite, h.congr hversioned (fun place => by rw [hquiet]), hleaves,
        heard_of_visits htables hq hdelete hnext⟩
    | effect he =>
      have he : (r.objectAt place).Effect ⟨ns, name⟩ (place.wants ports) c (c.serve q).2 := he
      have hw := (h.within place).set ha
      have hstanding : r.Standing ns asks (retold told place ((told place).set name ports)) (c.serve q).2 := by
        refine h.change hversioned hw (fun place' hne => beside_place htables hq hne c) ?_ ?_
        · exact SharedResource.named_effect (r.guarded_objectAt place) (h.named place) he
        · exact shows_effect hs ((h.within place).legal hl) ⟨ports, ha⟩ (hl.valid ha) (hw.apart hl) (h.shows place) he
      refine ⟨_, hwrite, hstanding, hleaves, heard_retold htables hq (fun service => ?_) _ _⟩
      rw [SharedResource.tells_of_ne_delete hq hdelete]
      unfold Wishes.set
      split <;> rfl
    | delete read hp hr =>
      have hr : q = .delete (r.objectAt place).kind (r.objectAt place).name := hr
      rw [hr] at hdelete
      exact absurd rfl hdelete

/-- What becomes of a request: one that has no address fails at once. -/
def answer (r : Reconciler) (q : Request) (s : Session) : Option (Except Refusal q.Reply) × Session :=
  if !q.isSendable r.settings.ns then (some (.error .unaddressed), s) else Session.send r.settings.ns q s

/-- The namespace and the names of the objects stand in an address as they are. -/
structure Addressed (r : Reconciler) : Prop where
  ns : Address.isSegment r.settings.ns = true ∧ Address.fits r.settings.ns = true
  names : ∀ place, (r.objectAt place).name ≠ "" ∧ Address.isSegment (r.objectAt place).name = true ∧
    Address.fits (r.objectAt place).name = true

theorem answer_of_concerns (hr : r.Addressed) {q : Request} (hq : (r.objectAt place).Concerns q) (s : Session) :
    r.answer q s = Session.send r.settings.ns q s ∧
      ∀ n ∈ q.addressedName?, n ≠ "" ∧ Address.isSegment n = true := by
  obtain ⟨hempty, hsegment, hfits⟩ := hr.names place
  have hname : ∀ n ∈ q.addressedName?, n = (r.objectAt place).name := by
    intro n hn
    have hq := hq.2
    cases q with
    | list | create => cases hn
    | get | replace | delete =>
      cases hn
      exact Option.some.inj hq
  have hsendable : q.isSendable r.settings.ns = true := by
    unfold Request.isSendable
    rw [hr.ns.2, Bool.true_and]
    cases ha : q.addressedName? with
    | none => rfl
    | some n =>
      rw [hname n ha]
      simp [hempty, hfits]
  constructor
  · unfold answer
    rw [hsendable]
    rfl
  · intro n hn
    rw [hname n hn]
    exact ⟨hempty, hsegment⟩

/-- **A request among those of others**: it is answered, the places stand, and the program goes on. -/
theorem Standing.answer (htables : r.settings.tcpServices ≠ r.settings.udpServices) (hl : Wishes.Lawful asks)
    (hs : r.settings.ownership.Separates (fun n => ∃ ports, asks n ports)) (hr : r.Addressed) {s : Session}
    (hcalm : s.Calm) (h : r.Standing ns asks told s.storage.cluster) (ha : asks name ports) {q : Request}
    {next : Except Refusal q.Reply → Action Unit} (hv : r.Leaves ⟨ns, name⟩ ports (.call q next) s.storage.cluster) :
    ∃ reply, ∃ s' : Session, ∃ told', r.answer q s = (some reply, s') ∧ s'.Calm ∧
      r.Answered ns asks told told' q name ports (next reply) s.storage.cluster s'.storage.cluster := by
  rcases hv with haside | ⟨place, hv⟩
  · obtain ⟨hspares, hnext⟩ : r.Spares q ∧ ∀ reply, True → r.Aside (next reply) := haside
    unfold Reconciler.answer
    split
    · exact ⟨_, s, told, rfl, hcalm, .inl rfl, h, .inl (hnext _ trivial), heard_of_spares hspares _ _⟩
    · obtain ⟨reply, s', hsend, hcalm', hwrite, hsame⟩ := Session.send_beside hcalm r.settings.ns q
      have hversioned : s'.storage.cluster.Versioned := by
        rcases hwrite with e | w
        · rw [e]
          exact h.versioned
        · exact h.versioned.write w
      have hplaces : ∀ place, s'.storage.cluster.get? (r.objectAt place).kind (r.objectAt place).name =
          s.storage.cluster.get? (r.objectAt place).kind (r.objectAt place).name := by
        intro place
        refine hsame _ (hspares.1.imp id (fun hkind => ?_))
        rw [hkind]
        cases place <;> exact nofun
      exact ⟨reply, s', told, hsend, hcalm', hwrite, h.congr hversioned hplaces, .inl (hnext reply trivial),
        heard_of_spares hspares _ _⟩
  · obtain ⟨hq, -⟩ := hv.call h.versioned (h.named place)
    obtain ⟨hanswer, haddress⟩ := answer_of_concerns hr hq s
    obtain ⟨s', hsend, hcalm', hcluster⟩ := Session.send_eq_serve hcalm hr.ns.1 haddress
    obtain ⟨told', hanswered⟩ := h.visit htables hl hs ha hv
    rw [← hcluster] at hanswered
    exact ⟨_, s', told', hanswer.trans hsend, hcalm', hanswered⟩

end Reconciler
end ServiceExposure
