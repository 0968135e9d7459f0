import ServiceExposure.Proofs.Watch.Calls
import ServiceExposure.Watch.Resync
/-!
# A namespace that is watched

A `Watcher` is an index together with the queue that its updates go to.  Changes are observed one after the other, and in
between others work on the queue.  `Watcher.queued` are the updates that the queue has taken on the way; those that it had
no room for are dropped.  Where the queue never fills up, the index has changed since any moment only in what the updates
that were queued since then are for (`Watcher.nothing_overlooked`).
-/
namespace ServiceExposure

namespace UpdateQueue

/-- How many further updates are taken. -/
def room (q : UpdateQueue) : Nat := if q.isOpen then q.capacity - q.waiting.length else 0

/-- Those of some updates that are taken when they are offered in a row. -/
def taken (q : UpdateQueue) (us : List Update) : List Update := us.take q.room

theorem taken_of_le {q : UpdateQueue} {us : List Update} (h : us.length ≤ q.room) : q.taken us = us :=
  List.take_of_length_le h

theorem offer_of_room_eq_zero {q : UpdateQueue} (u : Update) (h : q.room = 0) : q.offer u = q := by
  have hfull : ¬ q.hasRoom = true := by
    unfold room at h
    unfold hasRoom
    cases hopen : q.isOpen with
    | false => simp
    | true =>
      rw [hopen, if_pos rfl] at h
      simp only [Bool.true_and, decide_eq_true_eq]
      omega
  exact if_neg hfull

theorem offer_of_room_eq_succ {q : UpdateQueue} (u : Update) {n : Nat} (h : q.room = n + 1) :
    q.offer u = { q with waiting := q.waiting ++ [u] } ∧ (q.offer u).room = n := by
  obtain ⟨capacity, waiting, isOpen⟩ := q
  cases isOpen with
  | false => cases h
  | true =>
    have hlt : waiting.length < capacity := by
      have hroom : capacity - waiting.length = n + 1 := h
      omega
    have hoffer : offer ⟨capacity, waiting, true⟩ u = ⟨capacity, waiting ++ [u], true⟩ :=
      if_pos (decide_eq_true hlt)
    refine ⟨hoffer, ?_⟩
    have hroom : capacity - waiting.length = n + 1 := h
    have hleft : capacity - (waiting ++ [u]).length = n := by
      rw [List.length_append, List.length_singleton]
      omega
    exact hoffer ▸ hleft

/-- **What is offered** is taken as far as there is room. -/
theorem offerAll_eq : ∀ (us : List Update) (q : UpdateQueue), q.offerAll us = { q with waiting := q.waiting ++ q.taken us }
  | [], q => by simp [offerAll, taken]
  | u :: us, q => by
    have hrest : q.offerAll (u :: us) = (q.offer u).offerAll us := rfl
    rw [hrest, offerAll_eq us, taken, taken]
    cases hroom : q.room with
    | zero => simp [offer_of_room_eq_zero u hroom, hroom]
    | succ n =>
      obtain ⟨hoffer, hleft⟩ := offer_of_room_eq_succ u hroom
      rw [hleft, hoffer]
      simp

end UpdateQueue

/-- An index, and the queue that its updates go to. -/
structure Watcher where
  index : Index
  queue : UpdateQueue
deriving DecidableEq

namespace Watcher

/-- What happens around a watcher. -/
inductive Event where
  /-- A change is observed. -/
  | observed (o : Observation)
  /-- Others work on the queue: they take updates off and put some back, and leave these waiting. -/
  | worked (waiting : List Update)
deriving DecidableEq

/-- Nothing has been observed yet. -/
def start (ns globalConfig exposedService : String) (queue : UpdateQueue) : Watcher :=
  ⟨{ ns, globalConfig, exposedService }, queue⟩

/-- The updates that an event calls for. -/
def called (w : Watcher) : Event → List Update
  | .observed o => (w.index.observe o).2
  | .worked _ => []

def step (w : Watcher) : Event → Watcher
  | .observed o => ⟨(w.index.observe o).1, w.queue.offerAll (w.index.observe o).2⟩
  | .worked waiting => { w with queue := { w.queue with waiting } }

def run (w : Watcher) (events : List Event) : Watcher := events.foldl step w

/-- The updates that the queue takes while events happen, in order. -/
def queued (w : Watcher) : List Event → List Update
  | [] => []
  | e :: events => w.queue.taken (w.called e) ++ queued (w.step e) events

/-- The queue has room for every update that the events call for. -/
def NeverFull (w : Watcher) : List Event → Prop
  | [] => True
  | e :: events => (w.called e).length ≤ w.queue.room ∧ NeverFull (w.step e) events

instance decidableNeverFull : ∀ (w : Watcher) (events : List Event), Decidable (w.NeverFull events)
  | _, [] => .isTrue trivial
  | w, e :: events =>
    have := decidableNeverFull (w.step e) events
    inferInstanceAs (Decidable ((w.called e).length ≤ w.queue.room ∧ NeverFull (w.step e) events))

variable {w : Watcher} {post : List Event} {name : String} {u : Update}

theorem run_append (w : Watcher) (pre post : List Event) : w.run (pre ++ post) = (w.run pre).run post :=
  List.foldl_append

theorem queued_append : ∀ (pre : List Event) (w : Watcher) (post : List Event),
    w.queued (pre ++ post) = w.queued pre ++ (w.run pre).queued post
  | [], _, _ => rfl
  | e :: pre, w, post => by
    rw [List.cons_append, queued, queued, queued_append pre, List.append_assoc]
    rfl

theorem neverFull_of_append : ∀ (pre : List Event) {w : Watcher}, w.NeverFull (pre ++ post) → (w.run pre).NeverFull post
  | [], _, h => h
  | _ :: pre, _, h => neverFull_of_append pre h.2

/-! ## What the index never has -/

theorem orderly_start (ns globalConfig exposedService : String) (queue : UpdateQueue) :
    (start ns globalConfig exposedService queue).index.Orderly := by
  intro name s hs
  cases hs

theorem orderly_step (h : w.index.Orderly) : ∀ e, (w.step e).index.Orderly
  | .observed o => h.observe o
  | .worked _ => h

theorem orderly_run : ∀ (events : List Event) {w : Watcher}, w.index.Orderly → (w.run events).index.Orderly
  | [], _, h => h
  | e :: events, _, h => orderly_run events (orderly_step h e)

theorem exposedService_run : ∀ (events : List Event) (w : Watcher),
    (w.run events).index.exposedService = w.index.exposedService
  | [], _ => rfl
  | .observed o :: events, w => (exposedService_run events _).trans (w.index.exposedService_observe o)
  | .worked _ :: events, _ => exposedService_run events _

/-- **No update that is queued names the shared load balancer.** -/
theorem service?_ne_of_mem_queued : ∀ {events : List Event} {w : Watcher}, w.index.Orderly → u ∈ w.queued events →
    u.service? ≠ some w.index.exposedService
  | [], _, _, hu => nomatch hu
  | e :: events, w, h, hu => by
    have hsame : (w.step e).index.exposedService = w.index.exposedService := exposedService_run [e] w
    rcases List.mem_append.1 hu with hu | hu
    · cases e with
      | observed o => exact Index.service?_ne_of_mem_observe h o (List.mem_of_mem_take hu)
      | worked waiting => simp [UpdateQueue.taken, called] at hu
    · exact hsame ▸ service?_ne_of_mem_queued (orderly_step h e) hu

/-! ## What the index has changed in -/

/-- **What a run changes** is covered by the updates that are queued, if the queue never fills up. -/
theorem covers_run (name : String) : ∀ {events : List Event} {w : Watcher}, w.NeverFull events →
    w.index.Covers (w.run events).index (w.queued events) name
  | [], w, _ => .refl w.index name
  | e :: events, w, ⟨hroom, hrest⟩ => by
    -- there is room, so what is called for is what is queued
    have hstep : w.index.Covers (w.step e).index (w.queue.taken (w.called e)) name := by
      rw [UpdateQueue.taken_of_le hroom]
      cases e with
      | observed o => exact w.index.covers_observe o name
      | worked waiting => exact .refl w.index name
    exact hstep.trans (covers_run name hrest)

/-- **Nothing is overlooked.**  Where the queue never fills up, the index now differs from what it was at any moment only
in what the updates queued since then are for, and no update is for the shared load balancer. -/
theorem nothing_overlooked (ns globalConfig exposedService : String) (queue : UpdateQueue) {events : List Event}
    (hroom : (start ns globalConfig exposedService queue).NeverFull events) (name : String) :
    let w := start ns globalConfig exposedService queue
    (∀ pre post, events = pre ++ post →
        (w.run pre).index.Covers (w.run events).index ((w.run pre).queued post) name) ∧
      ∀ u ∈ w.queued events, u.service? ≠ some exposedService := by
  intro w
  refine ⟨?_, fun u hu => service?_ne_of_mem_queued (orderly_start _ _ _ _) hu⟩
  rintro pre post rfl
  rw [run_append]
  exact covers_run name (neverFull_of_append pre hroom)

/-- The deployment of a service with a path gets ready, and the service a label: the one update that is queued is for the
readiness. -/
theorem nothing_overlooked_relabelled :
    let annotations := Dict.empty.insert Annotation.cesServices "[[\"scm\",8080,\"/scm\",\"/scm\"]]"
    let scm : Service := { metadata := { Metadata.named "ecosystem" "scm" with annotations := some annotations } }
    let labelled : Service := { scm with metadata := { scm.metadata with labels := some (.ofList [("app", "ces")]) } }
    let ready : Deployment := { metadata := .named "ecosystem" "scm", status := some { readyReplicas := some 1 } }
    let w := start "ecosystem" "global-config" "nginx-ingress-exposed" { capacity := 1 }
    let pre := [.observed (.service scm), .worked []]
    let post := [.observed (.deployment ready), .observed (.service labelled)]
    w.NeverFull (pre ++ post) ∧ (w.run pre).queued post = [.ingresses "scm"] ∧
      (w.run (pre ++ post)).index.relevant? "scm" = (w.run pre).index.relevant? "scm" ∧
      (w.run (pre ++ post)).index.redirect = (w.run pre).index.redirect ∧
      ∀ u ∈ w.queued (pre ++ post), u.service? ≠ some "nginx-ingress-exposed" := by
  intro annotations scm labelled ready w pre post
  have hroom : w.NeverFull (pre ++ post) := by decide +kernel
  have hqueued : (w.run pre).queued post = [.ingresses "scm"] := by decide +kernel
  obtain ⟨hcovers, hnames⟩ := nothing_overlooked _ _ _ _ hroom "scm"
  have hpost := hcovers pre post rfl
  rw [hqueued] at hpost
  exact ⟨hroom, hqueued, hpost.exposure (by decide), hpost.redirect (by decide), hnames⟩

end Watcher
end ServiceExposure
