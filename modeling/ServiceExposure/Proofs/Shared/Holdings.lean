import ServiceExposure.Port.Contributor
import ServiceExposure.Proofs.Port.Records
/-!
# Who holds which port

The first service that asks for a port holds it until it gives it up (`Holdings.step`).  Forwarding tables, load
balancer and routes write holdings down in forms of their own (`Ledger`); `Ledger.merge_shows` says of each of them at
once that merging a contributor's entries takes one step of the holdings.
-/
namespace ServiceExposure

open Latest (standing)

/-- A service and the port of it that an exposed port leads to. -/
structure Holding where
  service : String
  target : Int
deriving DecidableEq

/-- Which service holds which port. -/
abbrev Holdings := PortId → Option Holding

namespace Holdings

def none : Holdings := fun _ => .none

/-- What a service gets that nobody else holds. -/
def claim (service : String) (desired : ExposedPorts) : Holdings :=
  fun id => (standing ExposedPort.id id desired.forwardable.toList).map (fun p => ⟨service, p.targetPort⟩)

/-- A service gives up what it no longer desires and gets what it desires, unless another one holds it. -/
def step (m : Holdings) (service : String) (desired : ExposedPorts) : Holdings := fun id =>
  match m id with
  | some h => if h.service = service then claim service desired id else some h
  | .none => claim service desired id

/-- Only ports that can be forwarded are held, and all of them are in range. -/
def Valid (m : Holdings) : Prop :=
  ∀ ⦃id h⦄, m id = some h → id.protocol.isForwardable = true ∧ isPortNumber id.port = true ∧ isPortNumber h.target = true

theorem valid_none : none.Valid := fun _ _ h => nomatch h

theorem claim_eq_some {service : String} {desired : ExposedPorts} {id : PortId} {h : Holding} :
    claim service desired id = some h ↔
      ∃ p ∈ desired.forwardable.toList, p.id = id ∧ h = ⟨service, p.targetPort⟩ := by
  unfold claim
  rw [Option.map_eq_some_iff]
  constructor
  · rintro ⟨p, hp, rfl⟩
    exact ⟨p, Latest.mem_of_standing _ hp, Latest.key_of_standing _ hp, rfl⟩
  · rintro ⟨p, hp, rfl, rfl⟩
    exact ⟨p, Latest.standing_of_mem _ desired.forwardable.nodup hp, rfl⟩

theorem valid_claim {service : String} {desired : ExposedPorts} (hd : desired.Valid) : (claim service desired).Valid := by
  intro id h hc
  obtain ⟨p, hp, rfl, rfl⟩ := claim_eq_some.1 hc
  exact ⟨desired.allForwardable_forwardable p hp, (hd.forwardable p hp).1, (hd.forwardable p hp).2⟩

theorem Valid.step {m : Holdings} (hm : m.Valid) {service : String} {desired : ExposedPorts} (hd : desired.Valid) :
    (m.step service desired).Valid := by
  intro id h hs
  unfold Holdings.step at hs
  cases hid : m id with
  | none =>
    rw [hid] at hs
    exact valid_claim hd hs
  | some h' =>
    rw [hid] at hs
    dsimp only at hs
    split at hs
    · exact valid_claim hd hs
    · cases hs
      exact hm hid

theorem claim_forwardable (service : String) (desired : ExposedPorts) :
    claim service desired.forwardable = claim service desired := by
  unfold claim
  rw [desired.forwardable_forwardable]

theorem step_forwardable (m : Holdings) (service : String) (desired : ExposedPorts) :
    m.step service desired.forwardable = m.step service desired := by
  unfold step
  rw [claim_forwardable]

/-- What a step leaves to a port: either somebody else's holding or the claim. -/
theorem step_eq_some {m : Holdings} {service : String} {desired : ExposedPorts} {id : PortId} {h : Holding} :
    m.step service desired id = some h ↔
      m id = some h ∧ h.service ≠ service ∨
      claim service desired id = some h ∧ ∀ h', m id = some h' → h'.service = service := by
  unfold step
  cases hid : m id with
  | none => simp
  | some h' =>
    by_cases hs : h'.service = service
    · simp only [if_pos hs, Option.some.injEq]
      constructor
      · exact fun hc => .inr ⟨hc, fun h'' e => e ▸ hs⟩
      · rintro (⟨rfl, hne⟩ | ⟨hc, -⟩)
        · exact absurd hs hne
        · exact hc
    · simp only [if_neg hs, Option.some.injEq]
      constructor
      · rintro rfl
        exact .inl ⟨rfl, hs⟩
      · rintro (⟨rfl, -⟩ | ⟨-, hall⟩)
        · rfl
        · exact absurd (hall h' rfl) hs

/-- What the others hold is the same. -/
def Beside (service : String) (m m' : Holdings) : Prop :=
  ∀ ⦃id h⦄, h.service ≠ service → (m' id = some h ↔ m id = some h)

theorem beside_refl (service : String) (m : Holdings) : m.Beside service m := fun _ _ _ => Iff.rfl

theorem Beside.trans {service : String} {m m' m'' : Holdings} (h : m.Beside service m') (h' : m'.Beside service m'') :
    m.Beside service m'' := fun _ _ hne => (h' hne).trans (h hne)

theorem beside_step (m : Holdings) (service : String) (desired : ExposedPorts) :
    m.Beside service (m.step service desired) := by
  intro id h hne
  rw [step_eq_some]
  constructor
  · rintro (⟨hid, -⟩ | ⟨hclaim, -⟩)
    · exact hid
    · obtain ⟨p, -, -, rfl⟩ := claim_eq_some.1 hclaim
      exact absurd rfl hne
  · exact fun hid => .inl ⟨hid, hne⟩

/-- Nobody else holds a port in the one if nobody else does in the other. -/
theorem Beside.mine_iff {service : String} {m m' : Holdings} (h : m.Beside service m') (id : PortId) :
    (∀ h', m' id = some h' → h'.service = service) ↔ ∀ h', m id = some h' → h'.service = service := by
  constructor
  · exact fun hm h' hid => Classical.byContradiction (fun hne => hne (hm h' ((h hne).2 hid)))
  · exact fun hm h' hid => Classical.byContradiction (fun hne => hne (hm h' ((h hne).1 hid)))

/-- **A step depends on what the others hold only.** -/
theorem Beside.step_eq {service : String} {m m' : Holdings} (h : m.Beside service m') (desired : ExposedPorts) :
    m'.step service desired = m.step service desired := by
  funext id
  refine Option.ext (fun x => ?_)
  rw [step_eq_some, step_eq_some, h.mine_iff]
  exact or_congr_left (and_congr_left (fun hne => h hne))

/-- Holdings with another holding of one port, or none. -/
def put (m : Holdings) (id : PortId) (x : Option Holding) : Holdings := fun i => if i = id then x else m i

theorem put_self (m : Holdings) (id : PortId) (x : Option Holding) : m.put id x id = x := if_pos rfl

theorem put_ne (m : Holdings) {id i : PortId} (x : Option Holding) (h : i ≠ id) : m.put id x i = m i := if_neg h

theorem Valid.put {m : Holdings} (hm : m.Valid) {id : PortId} {x : Option Holding}
    (hx : ∀ h, x = some h → id.protocol.isForwardable = true ∧ isPortNumber id.port = true ∧ isPortNumber h.target = true) :
    (m.put id x).Valid := by
  intro i h hi
  by_cases he : i = id
  · subst he
    rw [put_self] at hi
    exact hx h hi
  · rw [put_ne m x he] at hi
    exact hm hi

theorem beside_put {m : Holdings} {service : String} {id : PortId} {x : Option Holding}
    (hmine : ∀ h, m id = some h → h.service = service) (hx : ∀ h, x = some h → h.service = service) :
    m.Beside service (m.put id x) := by
  intro i h hne
  by_cases he : i = id
  · subst he
    rw [put_self]
    exact ⟨fun hi => absurd (hx h hi) hne, fun hi => absurd (hmine h hi) hne⟩
  · rw [put_ne m x he]

/-- Something is true of holdings, but for what one service holds. -/
def ButFor (m : Holdings) (service : String) (P : Holdings → Prop) : Prop :=
  ∃ m' : Holdings, m'.Valid ∧ m.Beside service m' ∧ P m'

theorem ButFor.of {m : Holdings} {P : Holdings → Prop} (hm : m.Valid) (h : P m) (service : String) :
    m.ButFor service P := ⟨m, hm, m.beside_refl service, h⟩

theorem ButFor.imp {m : Holdings} {service : String} {P Q : Holdings → Prop} (h : m.ButFor service P)
    (hi : ∀ m', P m' → Q m') : m.ButFor service Q :=
  let ⟨m', hm, hb, hp⟩ := h
  ⟨m', hm, hb, hi m' hp⟩

/-- A step of the service leaves it true but for the service. -/
theorem ButFor.keep {m : Holdings} {service : String} {P Q : Holdings → Prop} (h : m.ButFor service P)
    {desired : ExposedPorts} (hd : desired.Valid) (hstep : ∀ m', m'.Valid → P m' → Q (m'.step service desired)) :
    m.ButFor service Q := by
  obtain ⟨m', hm, hb, hp⟩ := h
  exact ⟨_, hm.step hd, hb.trans (m'.beside_step service desired), hstep m' hm hp⟩

end Holdings

/-- How holdings are written down as entries of a collection. -/
structure Ledger (ε κ : Type) where
  key : ε → κ
  entry : PortId → Holding → ε
  /-- Which ports are written down. -/
  covers : PortId → Bool
  /-- Tests whether an entry belongs to a service. -/
  owns : String → ε → Bool

namespace Ledger

variable {ε κ : Type} (l : Ledger ε κ)

/-- A holding that may be written down. -/
def Fits (id : PortId) (h : Holding) : Prop :=
  l.covers id = true ∧ id.protocol.isForwardable = true ∧ isPortNumber id.port = true ∧ isPortNumber h.target = true

/-- Ports have keys of their own, and an entry belongs to its holder only. -/
structure Sound : Prop where
  key_inj : ∀ {id h id' h'}, l.Fits id h → l.Fits id' h' → l.key (l.entry id h) = l.key (l.entry id' h') → id = id'
  key_entry : ∀ {id h h'}, l.Fits id h → l.Fits id h' → l.key (l.entry id h) = l.key (l.entry id h')
  owns_entry : ∀ {id h} (service : String), l.Fits id h → (l.owns service (l.entry id h) = true ↔ h.service = service)

/-- The entries are the holdings, one for each port that is covered. -/
structure Shows (m : Holdings) (entries : List ε) : Prop where
  nodup : (entries.map l.key).Nodup
  mem_iff : ∀ e, e ∈ entries ↔ ∃ id h, l.covers id = true ∧ m id = some h ∧ e = l.entry id h

variable {l} {m : Holdings} {service : String} {desired : ExposedPorts} {xs ds : List ε}

theorem fits_of_valid (hm : m.Valid) {id : PortId} {h : Holding} (hc : l.covers id = true) (hid : m id = some h) :
    l.Fits id h := ⟨hc, hm hid⟩

/-- The keys that others have claimed. -/
def claimed (l : Ledger ε κ) (service : String) (xs : List ε) : List κ :=
  (xs.filter (fun e => !l.owns service e)).map l.key

/-- A key is claimed exactly if somebody else holds its port. -/
theorem mem_claimed_iff (hl : l.Sound) (hm : m.Valid) (hw : l.Shows m xs) {id : PortId} {h : Holding}
    (hf : l.Fits id h) (service : String) :
    l.key (l.entry id h) ∈ l.claimed service xs ↔ ∃ h', m id = some h' ∧ h'.service ≠ service := by
  unfold claimed
  simp only [List.mem_map, List.mem_filter, Bool.not_eq_true']
  constructor
  · rintro ⟨x, ⟨hx, ho⟩, hk⟩
    obtain ⟨id', h', hc, hid, rfl⟩ := (hw.mem_iff x).1 hx
    have hf' := fits_of_valid hm hc hid
    obtain rfl := hl.key_inj hf' hf hk
    refine ⟨h', hid, fun hs => ?_⟩
    rw [(hl.owns_entry service hf').2 hs] at ho
    cases ho
  · rintro ⟨h', hid, hs⟩
    have hf' := fits_of_valid hm hf.1 hid
    refine ⟨l.entry id h', ⟨(hw.mem_iff _).2 ⟨id, h', hf.1, hid, rfl⟩, ?_⟩, hl.key_entry hf' hf⟩
    cases ho : l.owns service (l.entry id h') with
    | false => rfl
    | true => exact absurd ((hl.owns_entry service hf').1 ho) hs

/-- The keys that a service has entries under. -/
theorem mem_prior_iff (hl : l.Sound) (hm : m.Valid) (hw : l.Shows m xs) {id : PortId} {h : Holding} (hf : l.Fits id h)
    (service : String) :
    l.key (l.entry id h) ∈ (xs.filter (l.owns service)).map l.key ↔ ∃ h', m id = some h' ∧ h'.service = service := by
  simp only [List.mem_map, List.mem_filter]
  constructor
  · rintro ⟨x, ⟨hx, ho⟩, hk⟩
    obtain ⟨id', h', hc, hid, rfl⟩ := (hw.mem_iff x).1 hx
    have hf' := fits_of_valid hm hc hid
    obtain rfl := hl.key_inj hf' hf hk
    exact ⟨h', hid, (hl.owns_entry service hf').1 ho⟩
  · rintro ⟨h', hid, hs⟩
    have hf' := fits_of_valid hm hf.1 hid
    exact ⟨l.entry id h', ⟨(hw.mem_iff _).2 ⟨id, h', hf.1, hid, rfl⟩, (hl.owns_entry service hf').2 hs⟩,
      hl.key_entry hf' hf⟩

/-- The entries for what a service desires. -/
def wanted (l : Ledger ε κ) (service : String) (desired : ExposedPorts) : List ε :=
  (desired.forwardable.toList.filter (fun p => l.covers p.id)).map (fun p => l.entry p.id ⟨service, p.targetPort⟩)

theorem shows_wanted (hl : l.Sound) (service : String) (hd : desired.Valid) :
    l.Shows (Holdings.claim service desired) (l.wanted service desired) := by
  constructor
  · unfold wanted
    rw [List.map_map]
    have hids := desired.forwardable.nodup
    refine List.pairwise_map.2 ((List.pairwise_map.1 hids).filter _ |>.imp_of_mem ?_)
    intro p q hp hq hne hk
    have hfits : ∀ {p}, p ∈ desired.forwardable.toList.filter (fun p => l.covers p.id) →
        l.Fits p.id ⟨service, p.targetPort⟩ := fun {p} hp => by
      obtain ⟨hp, hc⟩ := List.mem_filter.1 hp
      exact ⟨hc, desired.allForwardable_forwardable p hp, hd.forwardable p hp⟩
    exact hne (hl.key_inj (hfits hp) (hfits hq) hk)
  · intro e
    unfold wanted
    simp only [List.mem_map, List.mem_filter]
    constructor
    · rintro ⟨p, ⟨hp, hc⟩, rfl⟩
      exact ⟨p.id, _, hc, Holdings.claim_eq_some.2 ⟨p, hp, rfl, rfl⟩, rfl⟩
    · rintro ⟨id, h, hc, hclaim, rfl⟩
      obtain ⟨p, hp, rfl, rfl⟩ := Holdings.claim_eq_some.1 hclaim
      exact ⟨p, ⟨hp, hc⟩, rfl⟩

/-- Where nothing is written down, a claim is what the service holds after the step. -/
theorem shows_step_of_nil (hn : l.Shows m []) (hc : l.Shows (Holdings.claim service desired) ds) :
    l.Shows (m.step service desired) ds := by
  have hnone : ∀ id h, l.covers id = true → m id = some h → False := fun id h hc hid =>
    nomatch (hn.mem_iff (l.entry id h)).2 ⟨id, h, hc, hid, rfl⟩
  refine ⟨hc.nodup, fun e => (hc.mem_iff e).trans ?_⟩
  constructor
  · rintro ⟨id, h, hcov, hclaim, rfl⟩
    exact ⟨id, h, hcov, Holdings.step_eq_some.2 (.inr ⟨hclaim, fun h' hid => (hnone id h' hcov hid).elim⟩), rfl⟩
  · rintro ⟨id, h, hcov, hstep, rfl⟩
    rcases Holdings.step_eq_some.1 hstep with ⟨hid, -⟩ | ⟨hclaim, -⟩
    · exact (hnone id h hcov hid).elim
    · exact ⟨id, h, hcov, hclaim, rfl⟩

variable [DecidableEq κ]

/-- What stands under the key of a port is the entry of whoever holds it. -/
theorem Shows.standing_eq (hl : l.Sound) (hm : m.Valid) (hw : l.Shows m xs) {id : PortId} {h : Holding}
    (hf : l.Fits id h) : standing l.key (l.key (l.entry id h)) xs = (m id).map (l.entry id) := by
  cases hid : m id with
  | none =>
    rw [Option.map_none, Latest.standing_eq_none_iff]
    intro hk
    obtain ⟨x, hx, hk⟩ := List.mem_map.1 hk
    obtain ⟨id', h', hc, hid', rfl⟩ := (hw.mem_iff x).1 hx
    obtain rfl := hl.key_inj (fits_of_valid hm hc hid') hf hk
    rw [hid] at hid'
    cases hid'
  | some h' =>
    rw [hl.key_entry hf (fits_of_valid hm hf.1 hid)]
    exact Latest.standing_of_mem l.key hw.nodup ((hw.mem_iff _).2 ⟨id, h', hf.1, hid, rfl⟩)

/-- Entries that stand under the keys of ports, each the entry of whoever holds the port, are the holdings. -/
theorem shows_of_standing (hm : m.Valid) (hn : (xs.map l.key).Nodup)
    (hkeys : ∀ e ∈ xs, ∃ id h, l.Fits id h ∧ l.key e = l.key (l.entry id h))
    (hs : ∀ {id h}, l.Fits id h → standing l.key (l.key (l.entry id h)) xs = (m id).map (l.entry id)) :
    l.Shows m xs := by
  refine ⟨hn, fun e => ?_⟩
  constructor
  · intro he
    obtain ⟨id, h, hf, hk⟩ := hkeys e he
    have hstands := Latest.standing_of_mem l.key hn he
    rw [hk, hs hf, Option.map_eq_some_iff] at hstands
    obtain ⟨h', hid, rfl⟩ := hstands
    exact ⟨id, h', hf.1, hid, rfl⟩
  · rintro ⟨id, h, hc, hid, rfl⟩
    have hstands := hs (fits_of_valid hm hc hid)
    rw [hid] at hstands
    exact Latest.mem_of_standing _ hstands

variable [DecidableEq ε]

/-- **Merging takes one step of the holdings.** -/
theorem merge_shows (hl : l.Sound) (hm : m.Valid) (hd : desired.Valid) (hw : l.Shows m xs)
    (hc : l.Shows (Holdings.claim service desired) ds) :
    l.Shows (m.step service desired) (merge l.key xs (xs.filter (l.owns service)) ds (l.claimed service xs)).entries := by
  have hnodup := nodup_merge l.key (xs.filter (l.owns service)) ds (l.claimed service xs) hw.nodup
  have hmerge := fun k => standing_merge l.key xs (xs.filter (l.owns service)) ds (l.claimed service xs) k
  simp only [Latest.latest_of_nodup l.key hc.nodup] at hmerge
  refine shows_of_standing (hm.step hd) hnodup (fun e he => ?_) (fun {id h} hf => ?_)
  · have hstands := Latest.standing_of_mem l.key hnodup he
    rw [hmerge] at hstands
    cases hds : standing l.key (l.key e) ds with
    | some d =>
      obtain ⟨id, h, hcov, hclaim, rfl⟩ := (hc.mem_iff d).1 (Latest.mem_of_standing _ hds)
      exact ⟨id, h, fits_of_valid (Holdings.valid_claim hd) hcov hclaim, (Latest.key_of_standing _ hds).symm⟩
    | none =>
      simp only [hds] at hstands
      split at hstands
      case isTrue => cases hstands
      case isFalse =>
        obtain ⟨id, h, hcov, hid, rfl⟩ := (hw.mem_iff e).1 (Latest.mem_of_standing _ hstands)
        exact ⟨id, h, fits_of_valid hm hcov hid, rfl⟩
  · have hclaimed := mem_claimed_iff hl hm hw hf service
    have hprior := mem_prior_iff hl hm hw hf service
    rw [hmerge, hc.standing_eq hl (Holdings.valid_claim hd) hf, hw.standing_eq hl hm hf]
    unfold Holdings.step
    cases hid : m id with
    | none =>
      have hfree : l.key (l.entry id h) ∉ l.claimed service xs := by simp [hclaimed, hid]
      cases Holdings.claim service desired id <;> simp [hfree]
    | some h' =>
      by_cases hs : h'.service = service
      · have hfree : l.key (l.entry id h) ∉ l.claimed service xs := by simp [hclaimed, hid, hs]
        have hown : l.key (l.entry id h) ∈ (xs.filter (l.owns service)).map l.key := by simp [hprior, hid, hs]
        cases Holdings.claim service desired id <;> simp only [Option.map_some, Option.map_none, hfree, hown, hs,
          if_true, if_false, not_false_eq_true, and_self]
      · have htaken : l.key (l.entry id h) ∈ l.claimed service xs := by simp [hclaimed, hid, hs]
        cases Holdings.claim service desired id <;> simp [htaken, hs]

/-- The entries that count as owned are what the service holds after the step. -/
theorem mem_owned_iff (hl : l.Sound) (hm : m.Valid) (hd : desired.Valid) (hw : l.Shows m xs)
    (hc : l.Shows (Holdings.claim service desired) ds) (e : ε) :
    e ∈ (merge l.key xs (xs.filter (l.owns service)) ds (l.claimed service xs)).owned ↔
      ∃ id h, l.covers id = true ∧ m.step service desired id = some h ∧ h.service = service ∧ e = l.entry id h := by
  have hservice : ∀ {id h}, Holdings.claim service desired id = some h → h.service = service := by
    intro id h hclaim
    obtain ⟨p, -, -, rfl⟩ := Holdings.claim_eq_some.1 hclaim
    rfl
  rw [owned_merge, Latest.latest_of_nodup l.key hc.nodup, List.mem_filter]
  constructor
  · rintro ⟨he, hgrant⟩
    obtain ⟨id, h, hcov, hclaim, rfl⟩ := (hc.mem_iff e).1 he
    refine ⟨id, h, hcov, Holdings.step_eq_some.2 (.inr ⟨hclaim, fun h' hid => ?_⟩), hservice hclaim, rfl⟩
    apply Classical.byContradiction
    intro hs
    have hf := fits_of_valid (Holdings.valid_claim hd) hcov hclaim
    have hf' := fits_of_valid hm hcov hid
    have hcl := (mem_claimed_iff hl hm hw hf service).2 ⟨h', hid, hs⟩
    unfold Merged.isGranted at hgrant
    rw [hw.standing_eq hl hm hf, hid] at hgrant
    simp only [hcl, not_true_eq_false, decide_false, Bool.false_or, Option.map_some, Option.all_some,
      decide_eq_true_eq] at hgrant
    have hmine := (hl.owns_entry service hf).2 (hservice hclaim)
    rw [← hgrant] at hmine
    exact hs ((hl.owns_entry service hf').1 hmine)
  · rintro ⟨id, h, hcov, hstep, hs, rfl⟩
    rcases Holdings.step_eq_some.1 hstep with ⟨-, hne⟩ | ⟨hclaim, hmine⟩
    · exact absurd hs hne
    · have hf := fits_of_valid (Holdings.valid_claim hd) hcov hclaim
      refine ⟨(hc.mem_iff _).2 ⟨id, h, hcov, hclaim, rfl⟩, ?_⟩
      have hcl : l.key (l.entry id h) ∉ l.claimed service xs := fun hcl => by
        obtain ⟨h', hid, hs'⟩ := (mem_claimed_iff hl hm hw hf service).1 hcl
        exact hs' (hmine h' hid)
      simp [Merged.isGranted, hcl]

omit [DecidableEq ε] [DecidableEq κ] in
/-- The same entries in another order show the same. -/
theorem Shows.of_mem_iff (h : l.Shows m xs) (hn : (ds.map l.key).Nodup) (he : ∀ e, e ∈ ds ↔ e ∈ xs) : l.Shows m ds :=
  ⟨hn, fun e => (he e).trans (h.mem_iff e)⟩

end Ledger
end ServiceExposure
