import ServiceExposure.Proofs.Controller.Books
/-!
# What becomes of a task

`Fate` lists what the notes on one task can say, and where the task then is.  No task has more than one of the ends, and
none ends without a note.  One step leads every task on towards one of them (`Books.Numbered.turn`): what happens to a
task is noted under its own number, so it leaves the fates of the others alone.
-/
namespace ServiceExposure

/-- What the notes on a task can say, the latest first, and where the task then is. -/
inductive Fate (crew : List (Nat × Task)) (n : Nat) (u : Update) : List Note → Prop where
  | running (t : Task) : (n, t) ∈ crew → t.update = u → t.stage.isRunning → Fate crew n u [.started n u]
  /-- The failure is being reported, or the update waits to be sent back. -/
  | failing (t : Task) (f : Failure) : (n, t) ∈ crew → t.update = u →
      (t.stage = .reporting ∨ t.stage.isResting ∧ f.isRetryable) → Fate crew n u [.failed n u f, .started n u]
  | succeeded : n ∉ crew.map Prod.fst → Fate crew n u [.succeeded n u, .started n u]
  | gaveUp (f : Failure) : n ∉ crew.map Prod.fst → f.isRetryable = false →
      Fate crew n u [.gaveUp n u, .failed n u f, .started n u]
  | resent (f : Failure) : n ∉ crew.map Prod.fst → f.isRetryable →
      Fate crew n u [.resent n u, .failed n u f, .started n u]

theorem Fate.congr {crew crew' : List (Nat × Task)} {n : Nat} {u : Update} {notes : List Note}
    (h : Fate crew n u notes) (hcrew : ∀ t, (n, t) ∈ crew ↔ (n, t) ∈ crew') : Fate crew' n u notes := by
  have hgone : n ∉ crew.map Prod.fst → n ∉ crew'.map Prod.fst := by
    intro hn hn'
    obtain ⟨⟨_, t⟩, ht, rfl⟩ := List.mem_map.1 hn'
    exact hn (List.mem_map.2 ⟨_, (hcrew t).2 ht, rfl⟩)
  cases h with
  | running t ht hu hs => exact .running t ((hcrew t).1 ht) hu hs
  | failing t f ht hu hs => exact .failing t f ((hcrew t).1 ht) hu hs
  | succeeded hn => exact .succeeded (hgone hn)
  | gaveUp f hn hf => exact .gaveUp f (hgone hn) hf
  | resent f hn hf => exact .resent f (hgone hn) hf

namespace Books

variable {c : Controller} {b b' : Books} {crew : List (Nat × Task)} {i n : Nat} {t : Task}

/-- The tasks are numbered, and each number that was given out has a fate. -/
structure Numbered (crew : List (Nat × Task)) (b : Books) : Prop where
  tasks : b.system.tasks = crew.map Prod.snd
  numbers : b.numbers = crew.map Prod.fst
  nodup : b.numbers.Nodup
  below : ∀ n ∈ b.numbers, n < b.next
  fates : ∀ n < b.next, ∃ u, Fate crew n u (b.notesOn n)
  unused : ∀ n, b.next ≤ n → b.notesOn n = []

theorem notesOn_append (notes : List Note) (hlog : b'.log = notes ++ b.log) (n : Nat) :
    b'.notesOn n = Note.about n notes ++ b.notesOn n := by
  rw [notesOn, hlog, Note.about, List.filter_append]
  rfl

theorem notesOn_of_ne (notes : List Note) (hlog : b'.log = notes ++ b.log)
    (hnotes : ∀ note ∈ notes, note.number? ≠ some n) :
    b'.notesOn n = b.notesOn n := by
  have hnone : Note.about n notes = [] :=
    List.filter_eq_nil_iff.2 fun note hnote => by simpa only [decide_eq_true_eq] using hnotes note hnote
  rw [notesOn_append notes hlog, hnone, List.nil_append]

theorem perm_of_getElem? (h : crew[i]? = some (n, t)) : crew.Perm ((n, t) :: crew.eraseIdx i) := by
  obtain ⟨hi, he⟩ := List.getElem?_eq_some_iff.1 h
  exact he ▸ (List.getElem_cons_eraseIdx_perm hi).symm

theorem set_perm (h : crew[i]? = some (n, t)) (t' : Task) :
    (crew.set i (n, t')).Perm ((n, t') :: crew.eraseIdx i) :=
  List.set_perm_cons_eraseIdx (List.getElem?_eq_some_iff.1 h).1 _

theorem Numbered.worker (h : b.Numbered crew) (ht : b.system.tasks[i]? = some t) (hn : b.numbers[i]? = some n) :
    crew[i]? = some (n, t) := by
  rw [h.tasks, List.getElem?_map, Option.map_eq_some_iff] at ht
  rw [h.numbers, List.getElem?_map, Option.map_eq_some_iff] at hn
  obtain ⟨⟨n, t⟩, hx, rfl⟩ := ht
  obtain ⟨y, hy, rfl⟩ := hn
  cases hx.symm.trans hy
  exact hx

theorem Numbered.lt_next (h : b.Numbered crew) (hx : crew[i]? = some (n, t)) : n < b.next :=
  h.below n (h.numbers ▸ List.mem_map_of_mem (List.mem_of_getElem? hx))

/-- The notes on a task that is there. -/
theorem Numbered.notesOn (h : b.Numbered crew) (hx : crew[i]? = some (n, t)) :
    t.stage.isRunning ∧ b.notesOn n = [.started n t.update] ∨
    ∃ f, (t.stage = .reporting ∨ t.stage.isResting ∧ f.isRetryable) ∧
      b.notesOn n = [.failed n t.update f, .started n t.update] := by
  have hmem := List.mem_of_getElem? hx
  have hthere : n ∈ crew.map Prod.fst := List.mem_map_of_mem hmem
  have hsame : ∀ t', (n, t') ∈ crew → t' = t := fun t' ht' =>
    congrArg Prod.snd (List.inj_on_of_nodup_map (h.numbers ▸ h.nodup) ht' hmem rfl)
  obtain ⟨u, hfate⟩ := h.fates n (h.lt_next hx)
  generalize b.notesOn n = notes at hfate
  cases hfate with
  | running t' ht' hu hs =>
    obtain rfl := hsame t' ht'
    exact .inl ⟨hs, hu ▸ rfl⟩
  | failing t' f ht' hu hs =>
    obtain rfl := hsame t' ht'
    exact .inr ⟨f, hs, hu ▸ rfl⟩
  -- the other fates are those of tasks that are gone
  | succeeded hn | gaveUp _ hn | resent _ hn => exact absurd hthere hn

theorem Numbered.notesOn_running (h : b.Numbered crew) (hx : crew[i]? = some (n, t)) (ht : t.stage.isRunning) :
    b.notesOn n = [.started n t.update] := by
  obtain ⟨u, since, stage⟩ := t
  rcases h.notesOn hx with ⟨-, hnotes⟩ | ⟨f, hs, -⟩
  · exact hnotes
  · cases stage <;> simp [Stage.isRunning, Stage.isResting] at ht hs

theorem Numbered.notesOn_resting (h : b.Numbered crew) (hx : crew[i]? = some (n, t)) (ht : t.stage.isResting) :
    ∃ f, f.isRetryable ∧ b.notesOn n = [.failed n t.update f, .started n t.update] := by
  obtain ⟨u, since, stage⟩ := t
  rcases h.notesOn hx with ⟨hs, -⟩ | ⟨f, hs | ⟨-, hf⟩, hnotes⟩
  · cases stage <;> simp [Stage.isRunning, Stage.isResting] at ht hs
  · obtain rfl : stage = .reporting := hs
    cases ht
  · exact ⟨f, hf, hnotes⟩

/-- What happens to one task leaves the fates of the others alone. -/
theorem Numbered.fates_of_ne (h : b.Numbered crew) {crew' : List (Nat × Task)} (hn : n < b.next)
    (hcrew : ∀ n' ≠ n, ∀ t', (n', t') ∈ crew ↔ (n', t') ∈ crew') (notes : List Note)
    (hlog : b'.log = notes ++ b.log) (hnotes : ∀ note ∈ notes, note.number? = none ∨ note.number? = some n)
    {u : Update} (hfate : Fate crew' n u (Note.about n notes ++ b.notesOn n)) :
    (∀ n' < b.next, ∃ u, Fate crew' n' u (b'.notesOn n')) ∧ ∀ n', b.next ≤ n' → b'.notesOn n' = [] := by
  have hsame : ∀ n' ≠ n, b'.notesOn n' = b.notesOn n' := by
    intro n' hne
    refine notesOn_of_ne notes hlog fun note hnote he => ?_
    rcases hnotes note hnote with he' | he'
    · cases he'.symm.trans he
    · exact hne (Option.some.inj (he.symm.trans he'))
  constructor
  · intro n' hn'
    by_cases hne : n' = n
    · subst hne
      exact ⟨u, notesOn_append notes hlog n' ▸ hfate⟩
    · obtain ⟨u, hu⟩ := h.fates n' hn'
      exact ⟨u, hsame n' hne ▸ hu.congr (hcrew n' hne)⟩
  · intro n' hn'
    rw [hsame n' (by omega)]
    exact h.unused n' hn'

theorem Numbered.restage (h : b.Numbered crew) (hx : crew[i]? = some (n, t)) {stage : Stage}
    (htasks : b'.system.tasks = b.system.tasks.set i { t with stage }) (hnumbers : b'.numbers = b.numbers)
    (hnext : b'.next = b.next) (notes : List Note) (hlog : b'.log = notes ++ b.log)
    (hnotes : ∀ note ∈ notes, note.number? = none ∨ note.number? = some n)
    (hfate : ∀ crew', (n, { t with stage }) ∈ crew' → Fate crew' n t.update (Note.about n notes ++ b.notesOn n)) :
    b'.Numbered (crew.set i (n, { t with stage })) := by
  have hcrew : ∀ n' ≠ n, ∀ t', (n', t') ∈ crew ↔ (n', t') ∈ crew.set i (n, { t with stage }) := by
    intro n' hn' t'
    rw [(perm_of_getElem? hx).mem_iff, (set_perm hx _).mem_iff]
    simp only [List.mem_cons, Prod.mk.injEq, hn', false_and, false_or]
  have hnow : (n, { t with stage }) ∈ crew.set i (n, { t with stage }) :=
    (set_perm hx _).mem_iff.2 List.mem_cons_self
  obtain ⟨hfates, hunused⟩ := h.fates_of_ne (h.lt_next hx) hcrew notes hlog hnotes (hfate _ hnow)
  refine ⟨?_, ?_, hnumbers ▸ h.nodup, hnumbers ▸ hnext ▸ h.below, hnext ▸ hfates, hnext ▸ hunused⟩
  · rw [htasks, h.tasks, List.map_set]
  · have hn : (crew.map Prod.fst)[i]? = some n := by rw [List.getElem?_map, hx]; rfl
    obtain ⟨hi, he⟩ := List.getElem?_eq_some_iff.1 hn
    rw [hnumbers, h.numbers, List.map_set]
    dsimp only
    rw [← he, List.set_getElem_self]

theorem Numbered.finish (h : b.Numbered crew) (hx : crew[i]? = some (n, t))
    (htasks : b'.system.tasks = b.system.tasks.eraseIdx i) (hnumbers : b'.numbers = b.numbers.eraseIdx i)
    (hnext : b'.next = b.next) (notes : List Note) (hlog : b'.log = notes ++ b.log)
    (hnotes : ∀ note ∈ notes, note.number? = none ∨ note.number? = some n)
    (hfate : ∀ crew', n ∉ crew'.map Prod.fst → Fate crew' n t.update (Note.about n notes ++ b.notesOn n)) :
    b'.Numbered (crew.eraseIdx i) := by
  have hcrew : ∀ n' ≠ n, ∀ t', (n', t') ∈ crew ↔ (n', t') ∈ crew.eraseIdx i := by
    intro n' hn' t'
    rw [(perm_of_getElem? hx).mem_iff]
    simp only [List.mem_cons, Prod.mk.injEq, hn', false_and, false_or]
  have hgone : n ∉ (crew.eraseIdx i).map Prod.fst := by
    have hnodup := h.nodup
    rw [h.numbers, ((perm_of_getElem? hx).map Prod.fst).nodup_iff] at hnodup
    exact (List.nodup_cons.1 hnodup).1
  obtain ⟨hfates, hunused⟩ := h.fates_of_ne (h.lt_next hx) hcrew notes hlog hnotes (hfate _ hgone)
  refine ⟨?_, ?_, hnumbers ▸ h.nodup.eraseIdx i, ?_, hnext ▸ hfates, hnext ▸ hunused⟩
  · simp only [htasks, h.tasks, List.eraseIdx_eq_take_drop_succ, List.map_append, List.map_take, List.map_drop]
  · simp only [hnumbers, h.numbers, List.eraseIdx_eq_take_drop_succ, List.map_append, List.map_take, List.map_drop]
  · intro n' hn'
    rw [hnumbers] at hn'
    exact hnext ▸ h.below n' (List.mem_of_mem_eraseIdx hn')

theorem Numbered.add (h : b.Numbered crew) (u : Update) (ht : t.update = u ∧ t.stage.isRunning)
    (htasks : b'.system.tasks = b.system.tasks ++ [t]) (hnumbers : b'.numbers = b.numbers ++ [b.next])
    (hnext : b'.next = b.next + 1) (hlog : b'.log = .started b.next u :: b.log) :
    b'.Numbered (crew ++ [(b.next, t)]) := by
  have hother : ∀ n ≠ b.next, b'.notesOn n = b.notesOn n := by
    intro n hn
    refine notesOn_of_ne [.started b.next u] hlog fun note hnote he => ?_
    rw [List.mem_singleton.1 hnote] at he
    exact hn (Option.some.inj he).symm
  have hnew : b'.notesOn b.next = [.started b.next u] := by
    rw [notesOn_append [.started b.next u] hlog, h.unused _ (Nat.le_refl _)]
    simp only [Note.about, Note.number?, decide_true, List.filter_cons_of_pos, List.filter_nil, List.append_nil]
  refine ⟨?_, ?_, ?_, ?_, ?_, ?_⟩
  · simp only [htasks, h.tasks, List.map_append, List.map_cons, List.map_nil]
  · simp only [hnumbers, h.numbers, List.map_append, List.map_cons, List.map_nil]
  · rw [hnumbers]
    refine List.Nodup.append h.nodup (List.nodup_singleton _) fun n hn hn' => ?_
    have hlt := h.below n hn
    rw [List.mem_singleton.1 hn'] at hlt
    exact Nat.lt_irrefl _ hlt
  · intro n hn
    rw [hnumbers] at hn
    rw [hnext]
    rcases List.mem_append.1 hn with hn | hn
    · exact Nat.lt_succ_of_lt (h.below n hn)
    · exact List.mem_singleton.1 hn ▸ Nat.lt_succ_self _
  · intro n hn
    by_cases hne : n = b.next
    · subst hne
      exact ⟨u, hnew ▸ .running t (List.mem_append_right _ List.mem_cons_self) ht.1 ht.2⟩
    · obtain ⟨u', hu'⟩ := h.fates n (by omega)
      refine ⟨u', hother n hne ▸ hu'.congr fun t' => ?_⟩
      simp only [List.mem_append, List.mem_singleton, Prod.mk.injEq, hne, false_and, or_false]
  · intro n hn
    rw [hother n (by omega)]
    exact h.unused n (by omega)

/-- **One step** leads every task on towards one fate. -/
theorem Numbered.turn (h : b.Numbered crew) (hturn : Turn c b b') : ∃ crew', b'.Numbered crew' := by
  cases hturn with
  | aside s us htasks hmetrics hclock hqueue =>
    -- what the queue takes is noted under no number
    have hsame : ∀ n, Books.notesOn ⟨s, b.numbers, b.next, us.map .put ++ b.log⟩ n = b.notesOn n := by
      intro n
      refine notesOn_of_ne (us.map .put) rfl fun note hnote => ?_
      obtain ⟨u, -, rfl⟩ := List.mem_map.1 hnote
      exact nofun
    refine ⟨crew, htasks.trans h.tasks, h.numbers, h.nodup, h.below, fun n hn => ?_, fun n hn => ?_⟩
    · exact hsame n ▸ h.fates n hn
    · exact (hsame n).trans (h.unused n hn)
  | starts u us hw => exact ⟨_, h.add u ⟨rfl, rfl⟩ rfl rfl rfl rfl⟩
  | works i n t stage session ht hn hrunning hstage =>
    have hx := h.worker ht hn
    refine ⟨_, h.restage hx rfl rfl rfl [] rfl nofun fun crew' hmem => ?_⟩
    rw [h.notesOn_running hx hrunning]
    exact .running _ hmem rfl hstage
  | succeeds i n t ht hn hrunning =>
    have hx := h.worker ht hn
    refine ⟨_, h.finish hx rfl rfl rfl [.succeeded n t.update] rfl (by simp [Note.number?]) fun crew' hgone => ?_⟩
    rw [h.notesOn_running hx hrunning]
    simpa [Note.about, Note.number?] using .succeeded hgone
  | fails i n t f stage s ht hn hrunning hstage htasks hmetrics hclock hqueue =>
    have hx := h.worker ht hn
    refine ⟨_, h.restage hx htasks rfl rfl [.failed n t.update f] rfl (by simp [Note.number?]) fun crew' hmem => ?_⟩
    rw [h.notesOn_running hx hrunning]
    have hfate : stage = .reporting ∨ stage.isResting ∧ f.isRetryable := by
      refine hstage.imp id ?_
      rintro ⟨rfl, hf⟩
      exact ⟨rfl, hf⟩
    simpa [Note.about, Note.number?] using .failing _ f hmem rfl hfate
  | givesUp i n t f s ht hn hrunning hf htasks hmetrics hclock hqueue =>
    have hx := h.worker ht hn
    refine ⟨_, h.finish hx htasks rfl rfl [.gaveUp n t.update, .failed n t.update f] rfl (by simp [Note.number?])
      fun crew' hgone => ?_⟩
    rw [h.notesOn_running hx hrunning]
    simpa [Note.about, Note.number?] using .gaveUp f hgone hf
  | resends i n t ht hn hresting =>
    have hx := h.worker ht hn
    refine ⟨_, h.finish hx rfl rfl rfl [.put t.update, .resent n t.update] rfl (by simp [Note.number?])
      fun crew' hgone => ?_⟩
    obtain ⟨f, hf, hnotes⟩ := h.notesOn_resting hx hresting
    rw [hnotes]
    simpa [Note.about, Note.number?] using .resent f hgone hf

/-! ## What a note tells -/

theorem mem_notesOn {note : Note} : note ∈ b.notesOn n ↔ note ∈ b.log ∧ note.number? = some n := by
  rw [notesOn, Note.about, List.mem_filter, decide_eq_true_eq]

/-- What is noted of a task is noted of one that was started. -/
theorem Numbered.fate (h : b.Numbered crew) {note : Note} (hnote : note ∈ b.log) (hn : note.number? = some n) :
    ∃ u, Fate crew n u (b.notesOn n) := by
  refine h.fates n (Nat.lt_of_not_le fun hle => ?_)
  have hmem : note ∈ b.notesOn n := mem_notesOn.2 ⟨hnote, hn⟩
  rw [h.unused n hle] at hmem
  cases hmem

theorem Numbered.resentOnce (h : b.Numbered crew) {u : Update} {f : Failure} (hnote : .failed n u f ∈ b.log)
    (hf : f.isRetryable) : b.log.count (.resent n u) = if n ∈ b.numbers then 0 else 1 := by
  have hmem : Note.failed n u f ∈ b.notesOn n := mem_notesOn.2 ⟨hnote, rfl⟩
  have hcount : b.log.count (.resent n u) = (b.notesOn n).count (.resent n u) :=
    (List.count_filter (by simp only [Note.number?, decide_true])).symm
  rw [hcount, h.numbers]
  obtain ⟨u', hfate⟩ := h.fate hnote rfl
  generalize b.notesOn n = notes at hfate hmem
  -- one failure at most is noted of a task, so the one that is noted here is the one of its fate
  cases hfate with
  | running | succeeded => simp at hmem
  | failing t f' ht hu hs =>
    have hthere : n ∈ crew.map Prod.fst := List.mem_map_of_mem ht
    simp [hthere]
  | gaveUp f' hn hf' =>
    simp only [List.mem_cons, reduceCtorEq, Note.failed.injEq, List.not_mem_nil, or_false, false_or, true_and] at hmem
    obtain ⟨rfl, rfl⟩ := hmem
    rw [hf] at hf'
    cases hf'
  | resent f' hn hf' =>
    simp only [List.mem_cons, reduceCtorEq, Note.failed.injEq, List.not_mem_nil, or_false, false_or, true_and] at hmem
    obtain ⟨rfl, rfl⟩ := hmem
    simp [hn]

theorem Numbered.resentOnly (h : b.Numbered crew) {u : Update} (hnote : .resent n u ∈ b.log) :
    ∃ f, .failed n u f ∈ b.log ∧ f.isRetryable := by
  have hmem : Note.resent n u ∈ b.notesOn n := mem_notesOn.2 ⟨hnote, rfl⟩
  have hback : ∀ f, Note.failed n u f ∈ b.notesOn n → Note.failed n u f ∈ b.log := fun f hf => (mem_notesOn.1 hf).1
  obtain ⟨u', hfate⟩ := h.fate hnote rfl
  generalize b.notesOn n = notes at hfate hmem hback
  cases hfate with
  | running | failing | succeeded | gaveUp => simp at hmem
  | resent f hn hf =>
    simp only [List.mem_cons, reduceCtorEq, Note.resent.injEq, List.not_mem_nil, or_false, true_and] at hmem
    subst hmem
    exact ⟨f, hback f (List.mem_cons_of_mem _ List.mem_cons_self), hf⟩

end Books

end ServiceExposure
