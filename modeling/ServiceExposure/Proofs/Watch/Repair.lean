import Mathlib.Data.List.Induction
import ServiceExposure.Proofs.Watch.History
/-!
# What a resynchronisation makes up for

A change whose update was dropped is lost until an update of the service is queued again (`Watcher.LosesChange`).  A
resynchronisation queues an update for every service that is in the index, so it makes up for the lost changes of these.
It misses a lost change exactly where the service was removed and that was lost (`Watcher.resync_misses_iff`): the index no
longer knows the name.
-/
namespace ServiceExposure

theorem Index.exposure_mem_everything {i : Index} {name : String} :
    .exposure name ∈ i.everything ↔ i.service? name ≠ none := by
  unfold everything
  rw [List.mem_append, Option.ne_none_iff_isSome]
  simp only [List.mem_map, Update.exposure.injEq, exists_eq_right, List.mem_singleton, reduceCtorEq, or_false]
  exact Dict.mem_keys_iff

/-- Only a removal takes a service out of the index. -/
theorem Index.eq_serviceGone_of_service? {i : Index} {name : String} {o : Observation} (hthere : i.service? name ≠ none)
    (hgone : (i.observe o).1.service? name = none) : o = .serviceGone name := by
  have hservice := (i.service?_observe name o).symm.trans hgone
  cases o with
  | serviceGone gone =>
    dsimp only at hservice
    split at hservice
    case isTrue hname => rw [hname]
    case isFalse => exact absurd hservice hthere
  | service s =>
    dsimp only at hservice
    split at hservice
    · cases hservice
    · exact absurd hservice hthere
  | deployment | deploymentGone | configMap | configMapGone => exact absurd hservice hthere

namespace Watcher

variable {w : Watcher} {name : String} {events post : List Event}

/-- What drives the reconciliation of a service has changed, the update was dropped, and no update of the service has been
queued since. -/
def LosesChange (w : Watcher) (events : List Event) (name : String) : Prop :=
  ∃ pre o post, events = pre ++ .observed o :: post ∧
    ((w.run pre).index.observe o).1.relevant? name ≠ (w.run pre).index.relevant? name ∧
    .exposure name ∉ (w.run pre).queued (.observed o :: post)

/-- A service that was known has gone and has not come back, the update was dropped, and no update of the service has been
queued since. -/
def LosesRemoval (w : Watcher) (events : List Event) (name : String) : Prop :=
  ∃ pre post, events = pre ++ .observed (.serviceGone name) :: post ∧ (w.run pre).index.service? name ≠ none ∧
    (∀ s, .observed (.service s) ∈ post → s.name ≠ name) ∧
    .exposure name ∉ (w.run pre).queued (.observed (.serviceGone name) :: post)

theorem service?_run_of_gone : ∀ {events : List Event} {w : Watcher}, w.index.service? name = none →
    (∀ s, .observed (.service s) ∈ events → s.name ≠ name) → (w.run events).index.service? name = none
  | [], _, h, _ => h
  | e :: events, w, h, hnot => by
    refine service?_run_of_gone (w := w.step e) ?_ (fun s hs => hnot s (List.mem_cons_of_mem e hs))
    cases e with
    | worked waiting => exact h
    | observed o =>
      refine (w.index.service?_observe name o).trans ?_
      cases o with
      | service s => exact (if_neg (fun hs => hnot s List.mem_cons_self hs.2.symm)).trans h
      | serviceGone gone =>
        dsimp only
        split
        · rfl
        · exact h
      | deployment | deploymentGone | configMap | configMapGone => exact h

/-- **A service that is no longer there** was removed at some point, and has not come back. -/
theorem exists_removal (events : List Event) (hw : w.index.Orderly) (hthere : w.index.service? name ≠ none)
    (hgone : (w.run events).index.service? name = none) : ∃ pre post,
      events = pre ++ .observed (.serviceGone name) :: post ∧ (w.run pre).index.service? name ≠ none ∧
        ∀ s, .observed (.service s) ∈ post → s.name ≠ name := by
  -- by what happened last
  induction events using List.reverseRecOn with
  | nil => exact absurd hgone hthere
  | append_singleton events e ih =>
    have hlast : (w.run (events ++ [e])).index = ((w.run events).step e).index := by rw [run_append]; rfl
    rw [hlast] at hgone
    by_cases hbefore : (w.run events).index.service? name = none
    · obtain ⟨pre, post, hevents, hpre, hpost⟩ := ih hbefore
      refine ⟨pre, post ++ [e], by rw [hevents, List.append_assoc, List.cons_append], hpre, fun s hs hname => ?_⟩
      rcases List.mem_append.1 hs with hs | hs
      · exact hpost s hs hname
      · cases List.mem_singleton.1 hs
        -- a service that was in the index is not the shared load balancer, so it would be there again
        obtain ⟨old, hold⟩ := Option.ne_none_iff_exists'.1 hthere
        have hne : s.name ≠ (w.run events).index.exposedService := by
          rw [exposedService_run, hname]
          exact hw.ne_of_service? hold
        have hback := (Index.service?_observe (w.run events).index name (.service s)).trans (if_pos ⟨hne, hname.symm⟩)
        cases hback.symm.trans hgone
    · refine ⟨events, [], ?_, hbefore, fun s hs => nomatch hs⟩
      cases e with
      | worked waiting => exact absurd hgone hbefore
      | observed o => rw [Index.eq_serviceGone_of_service? hbefore hgone]

theorem LosesRemoval.losesChange (h : w.LosesRemoval events name) : w.LosesChange events name := by
  obtain ⟨pre, post, hevents, hthere, -, hnot⟩ := h
  refine ⟨pre, .serviceGone name, post, hevents, fun hsame => hthere ?_, hnot⟩
  have hgone : ((w.run pre).index.observe (.serviceGone name)).1.service? name = none :=
    (Index.service?_observe _ name (.serviceGone name)).trans (if_pos rfl)
  exact Index.relevant?_eq_none_iff.1 (hsame.symm.trans (Index.relevant?_eq_none_iff.2 hgone))

theorem LosesRemoval.service?_eq_none (h : w.LosesRemoval events name) : (w.run events).index.service? name = none := by
  obtain ⟨pre, post, rfl, -, hback, -⟩ := h
  have hgone : ((w.run pre).step (.observed (.serviceGone name))).index.service? name = none :=
    (Index.service?_observe _ name (.serviceGone name)).trans (if_pos rfl)
  have hrest := service?_run_of_gone hgone hback
  rw [run_append]
  exact hrest

/-- A lost change of a service that is no longer there is followed by a removal that was lost. -/
theorem LosesChange.losesRemoval (hw : w.index.Orderly) (h : w.LosesChange events name)
    (hgone : (w.run events).index.service? name = none) : w.LosesRemoval events name := by
  obtain ⟨pre, o, post, rfl, hchanged, hnot⟩ := h
  rw [run_append] at hgone
  have hlater : ∃ before rest, (.observed o :: post : List Event) = before ++ .observed (.serviceGone name) :: rest ∧
      ((w.run pre).run before).index.service? name ≠ none ∧ ∀ s, .observed (.service s) ∈ rest → s.name ≠ name := by
    by_cases hthere : (w.run pre).index.service? name = none
    · -- the service came with the change
      have hcame : ((w.run pre).step (.observed o)).index.service? name ≠ none := fun hnone => hchanged
        ((Index.relevant?_eq_none_iff.2 hnone).trans (Index.relevant?_eq_none_iff.2 hthere).symm)
      obtain ⟨before, rest, rfl, hbefore, hrest⟩ :=
        exists_removal post (orderly_step (orderly_run pre hw) (.observed o)) hcame hgone
      exact ⟨.observed o :: before, rest, rfl, hbefore, hrest⟩
    · exact exists_removal _ (orderly_run pre hw) hthere hgone
  obtain ⟨before, rest, hsplit, hbefore, hrest⟩ := hlater
  refine ⟨pre ++ before, rest, by rw [hsplit, List.append_assoc], by rwa [run_append], hrest, fun hqueued => hnot ?_⟩
  rw [hsplit, queued_append, List.mem_append]
  rw [run_append] at hqueued
  exact .inr hqueued

/-- **What a resynchronisation misses.**  Where its own updates fit, it queues the redirect, and it queues an update for
every service with a lost change but for those whose removal was lost. -/
theorem resync_misses_iff (ns globalConfig exposedService : String) (queue : UpdateQueue) (events : List Event)
    (hroom : ((start ns globalConfig exposedService queue).run events).index.everything.length ≤
      ((start ns globalConfig exposedService queue).run events).queue.room) :
    let w := start ns globalConfig exposedService queue
    ∃ pass, ((w.run events).index.resync (w.run events).queue).waiting = (w.run events).queue.waiting ++ pass ∧
      .redirect ∈ pass ∧
      ∀ name, w.LosesChange events name ∧ .exposure name ∉ pass ↔ w.LosesRemoval events name := by
  intro w
  refine ⟨(w.run events).index.everything, ?_, List.mem_append_right _ List.mem_cons_self, fun name => ?_⟩
  · unfold Index.resync
    rw [UpdateQueue.offerAll_eq, UpdateQueue.taken_of_le hroom]
  · rw [Index.exposure_mem_everything, Classical.not_not]
    exact ⟨fun ⟨hlost, hgone⟩ => hlost.losesRemoval (orderly_start _ _ _ _) hgone,
      fun hlost => ⟨hlost.losesChange, hlost.service?_eq_none⟩⟩

/-! ## A crowded queue -/

def sample (name : String) (port : Int) : Service where
  metadata := .named "ecosystem" name
  spec := some { ports := some [{ port }] }

/-- The queue takes three updates. -/
def narrow : Watcher := start "ecosystem" "global-config" "nginx-ingress-exposed" { capacity := 3 }

/-- The update of one service has been processed, and changes of another one have filled the queue. -/
def crowding : List Event :=
  [.observed (.service (sample "ldap" 389)), .worked [], .observed (.service (sample "scm" 1)),
   .observed (.service (sample "scm" 2)), .observed (.service (sample "scm" 3))]

/-- The second service changes once more before the queue is emptied. -/
def clearing : List Event := [.observed (.service (sample "scm" 4)), .worked []]

/-- Of two changes that are dropped, one is made up for: the one of the service that is still there. -/
theorem resync_misses_iff_crowded :
    let events := crowding ++ .observed (.serviceGone "ldap") :: clearing
    let i := (narrow.run events).index
    let q := (narrow.run events).queue
    i.everything.length ≤ q.room ∧ ∃ pass, (i.resync q).waiting = q.waiting ++ pass ∧ .redirect ∈ pass ∧
      narrow.LosesChange events "scm" ∧ .exposure "scm" ∈ pass ∧
      narrow.LosesRemoval events "ldap" ∧ .exposure "ldap" ∉ pass := by
  intro events i q
  have hroom : i.everything.length ≤ q.room := by decide +kernel
  have hchange : narrow.LosesChange events "scm" :=
    ⟨crowding ++ [.observed (.serviceGone "ldap")], .service (sample "scm" 4), [.worked []], rfl, by decide +kernel,
      by decide +kernel⟩
  have hremoval : narrow.LosesRemoval events "ldap" := by
    refine ⟨crowding, clearing, rfl, by decide +kernel, fun s hs => ?_, by decide +kernel⟩
    have hscm : s = sample "scm" 4 := by simpa [clearing] using hs
    rw [hscm]
    decide +kernel
  have hscm : i.service? "scm" ≠ none := by decide +kernel
  obtain ⟨pass, hpass, hredirect, hmisses⟩ := resync_misses_iff "ecosystem" "global-config" "nginx-ingress-exposed" _ events hroom
  refine ⟨hroom, pass, hpass, hredirect, hchange, ?_, hremoval, ((hmisses "ldap").2 hremoval).2⟩
  exact Classical.byContradiction (fun hnot => hscm ((hmisses "scm").1 ⟨hchange, hnot⟩).service?_eq_none)

/-- A service is removed while the queue is full, and the resynchronisation that follows has room and is silent about it. -/
theorem lost_removal_not_resynced :
    let events := crowding ++ [.observed (.serviceGone "ldap"), .worked []]
    let i := (narrow.run events).index
    let q := (narrow.run events).queue
    narrow.LosesChange events "ldap" ∧ i.everything.length ≤ q.room ∧ (i.resync q).waiting = [.exposure "scm", .redirect] := by
  intro events i q
  exact ⟨⟨crowding, .serviceGone "ldap", [.worked []], rfl, by decide +kernel, by decide +kernel⟩, by decide +kernel,
    by decide +kernel⟩

end Watcher
end ServiceExposure
