import Troupe.Proofs.World.Finality
import Troupe.Proofs.World.Phases

/-!
# Deadlines

Whoever waits for a close does nothing until one of its waits is over: the run loop has ended, or
the deadline has passed. Then it completes that close. So a run loop is aborted only by someone who
waits for it, and only when the deadline has passed.

## Main definitions

* `World.EndsWait` — the move of someone who waits
* `World.Aborts` — the end of a run loop that has been waited for past the deadline

## Main results

* `World.endsWait_of_waits` — whoever waits can only end one of its waits
* `World.due_of_aborted` — an abort comes when it is due
* `World.wait_of_closes`, `World.limit_of_aborts` — the deadline is the limit of the close
-/

namespace Troupe

namespace World

variable {w : World} {a : ActorId} {m : Mover} {act : Act}

/-! ### Ending a wait -/

/-- The move of someone who waits, if it has one. -/
inductive EndsWait (w : World) (m : Mover) : Option World → Prop where
  /-- No wait is over. -/
  | stuck (h : ∀ y ∈ w.waits m, w.isOver y = false) : EndsWait w m none
  /-- A run loop ends its wait. -/
  | loop {b : ActorId} {y : Wait} {l : Loop} (hm : m = .runLoop b) (hy : y ∈ w.waits m)
    (hover : w.isOver y = true) : EndsWait w m (some ((w.endWait y).setLoop b l).release)
  /-- A task ends one of its waits. -/
  | task {t : TaskId} {y : Wait} {task : Task} (hm : m = .task t) (hy : y ∈ w.waits m)
    (hover : w.isOver y = true) : EndsWait w m (some ((w.endWait y).setTask t task).release)

/-- A course that waits goes on waiting, or completes the close. -/
theorem stepCourse_of_wait {r : Runner} {c : Course} {x : Wait} (hwait : c.wait = some x) :
    w.isOver x = false ∧ w.stepCourse r c = none ∨ w.isOver x = true ∧
      w.stepCourse r c = some (.goesOn { c with wait := none }, w.endWait x) := by
  simp only [stepCourse, hwait]
  split
  · rename_i hover
    exact .inr ⟨hover, rfl⟩
  · rename_i hover
    exact .inl ⟨by simpa using hover, rfl⟩

/-- A termination goes on waiting, or completes a close that is over. -/
theorem endsWait_of_termination {t : TaskId} {h : HandleId} {s : SystemId} {pending : List Wait}
    {x : Wait} (ht : w.task? t = some (.termination h s (.closing pending))) (hx : x ∈ pending) :
    w.EndsWait (.task t) (w.step (.task t)) := by
  have hwaits : w.waits (.task t) = pending := by
    rw [waits, ht]
    rfl
  obtain ⟨first, rest, rfl⟩ := List.exists_cons_of_ne_nil (List.ne_nil_of_mem hx)
  cases hfind : (first :: rest).find? w.isOver with
  | none =>
    have hnone : w.step (.task t) = none := by
      simp [step, stepTask, ht, stepTermination, hfind]
    rw [hnone]
    refine .stuck fun y hy => ?_
    rw [hwaits] at hy
    simpa using List.find?_eq_none.mp hfind y hy
  | some y =>
    have hsome : w.step (.task t) = some ((w.endWait y).setTask t (.termination h s
        (.closing ((first :: rest).filter (·.order != y.order))))).release := by
      simp [step, stepTask, ht, stepTermination, hfind]
    rw [hsome]
    exact .task rfl (hwaits ▸ List.mem_of_find?_eq_some hfind) (List.find?_some hfind)

/-- **Whoever waits** can only end one of its waits, and can do so as soon as one is over. -/
theorem endsWait_of_waits {x : Wait} (hx : x ∈ w.waits m) : w.EndsWait m (w.step m) := by
  rcases waiter_cases hx with ⟨r, c, hm, hwait⟩ | ⟨t, h, s, pending, rfl, ht, hx⟩
  · rcases stepCourse_of_wait (w := w) (r := r) hwait with ⟨hover, hstep⟩ | ⟨hover, hstep⟩
    · rw [step_of_stuck hm hstep]
      refine .stuck fun y hy => ?_
      rw [waits_of_course? hm, hwait] at hy
      rwa [List.mem_singleton.mp hy]
    · rcases step_of_goesOn hm hstep with ⟨b, _, rfl, -, hsome⟩ | ⟨t, _, _, rfl, -, hsome⟩
      · rw [hsome]
        exact .loop rfl hx hover
      · rw [hsome]
        exact .task rfl hx hover
  · exact endsWait_of_termination ht hx

/-! ### Aborts -/

/-- The end of a wait touches a run loop only if it aborts it. -/
theorem loop_endWait_cases (y : Wait) (a : ActorId) (w : World) :
    ((w.endWait y).actor a).loop = (w.actor a).loop ∨ y.actor = a ∧ w.loopEnded a = false := by
  rw [endWait, loop_finishClose]
  split
  · exact .inl rfl
  · rename_i hlives
    by_cases heq : y.actor = a
    · subst heq
      exact .inr ⟨rfl, by simpa using hlives⟩
    · rw [actor, actors_abortLoop, ← actor, actor_onActor_ne (Ne.symm heq)]
      exact .inl rfl

/-- Someone who has waited for a run loop ends it, since the deadline has passed. -/
def Aborts (w : World) (act : Act) (a : ActorId) : Prop :=
  ∃ m, act = .move m ∧ (∃ x ∈ w.waits m, x.actor = a ∧ x.deadline < w.clock) ∧
    ((w.next act).actor a).loop = .ended

/-- **A run loop is aborted when it is due**, and nobody else touches it in between. -/
theorem due_of_aborted (hs : w.scene.Sound) (hact : act ≠ .move (.runLoop a))
    (hne : ((w.next act).actor a).loop ≠ (w.actor a).loop) : w.Aborts act a := by
  obtain ⟨ms, d, hms⟩ := fits_next hs act
  -- Only an abort can have changed the run loop.
  obtain ⟨k, hk, hka⟩ : ∃ k ∈ ms, k.loop? = some a := by
    by_contra hnone
    refine hne ?_
    have := d.loop_eq (a := a) fun k hk hka => hnone ⟨k, hk, hka⟩
    rwa [lane_scene, lane_scene] at this
  obtain rfl := (hms k hk).loop? hact hka
  obtain ⟨m, x, rfl, hx, rfl⟩ := hms _ hk
  refine ⟨m, rfl, ?_⟩
  have ended : ∀ {y : Wait}, y ∈ w.waits m → w.isOver y = true →
      ((w.next (.move m)).actor x.actor).loop = ((w.endWait y).actor x.actor).loop →
      (∃ z ∈ w.waits m, z.actor = x.actor ∧ z.deadline < w.clock) ∧
        ((w.next (.move m)).actor x.actor).loop = .ended := by
    intro y hy hover heq
    obtain ⟨hclosed, -⟩ := closed_of_waits hs hy
    rcases loop_endWait_cases y x.actor w with hsame | ⟨hactor, hlives⟩
    · exact absurd (heq.trans hsame) hne
    · refine ⟨⟨y, hy, hactor, ?_⟩, heq.trans (hactor ▸ loop_endWait hclosed)⟩
      simpa [isOver, hactor, hlives] using hover
  have hends := endsWait_of_waits hx
  rw [next] at ended hne ⊢
  generalize w.step m = w' at hends ended hne
  cases hends with
  | stuck _ => exact absurd rfl hne
  | loop hm hy hover =>
    refine ended hy hover ?_
    rw [Option.getD_some, loop_release, loop_setLoop_ne fun heq => hact (by rw [heq, hm])]
  | task _ hy hover => exact ended hy hover (loop_release ..)

/-! ### Limits -/

/-- **A wait** has been there before, or its mover closes an actor now and waits up to the limit. -/
theorem origin_of_wait (hs : w.scene.Sound) (act : Act) {x : Wait}
    (hx : x ∈ (w.next act).waits m) : x ∈ w.waits m ∨
      act = .move m ∧ (w.actor x.actor).closed = false ∧ x.deadline = w.limit x.actor := by
  obtain ⟨ts, hconduct, -⟩ := conduct_next hs act
  cases hconduct with
  | quiet _ hwaits | own _ _ _ _ hwaits => exact .inl (hwaits m ▸ hx)
  | @begins _ _ m' _ hact _ hopens hothers =>
    by_cases hm : m = m'
    · subst hm
      exact .inr ⟨hact, (hopens.opened x hx).2, hopens.due x hx⟩
    · exact .inl (hothers m hm ▸ hx)
  | completes _ _ hy hwaits hothers hended hown =>
    exact .inl ((Completion.sublist ⟨hy, hwaits, hothers, hended, hown⟩ m).subset hx)

/-- **Whoever waits for an actor** has closed it, and waits up to the limit of that close. -/
theorem wait_of_closes (before later : List Act) {x : Wait}
    (h : (run before).Closes act x.actor) (hx : x ∈ (run (before ++ act :: later)).waits m) :
    act = .move m ∧ x ∈ (run (before ++ [act])).waits m ∧
      x.deadline = (run before).limit x.actor := by
  induction later using List.reverseRecOn with
  | nil =>
    have hnew : x ∉ (run before).waits m := fun hold => by
      cases h.1.symm.trans (closed_of_waits (sound_run before) hold).1
    obtain ⟨hact, -, hdue⟩ :=
      (origin_of_wait (sound_run before) act (run_concat before act ▸ hx)).resolve_left hnew
    exact ⟨hact, hx, hdue⟩
  | append_singleton later act' ih =>
    rw [← List.cons_append, ← List.append_assoc, run_concat] at hx
    refine ih ((origin_of_wait (sound_run _) act' hx).resolve_right fun ⟨_, hlater, _⟩ => ?_)
    cases hlater.symm.trans (closed_of_closes before later h)

/-- A run loop is not aborted up to the limit. -/
theorem limit_of_aborts (before later : List Act) {act' : Act} (h : (run before).Closes act a)
    (haborts : (run (before ++ act :: later)).Aborts act' a) :
    (run before).limit a < (run (before ++ act :: later)).clock := by
  obtain ⟨m, rfl, ⟨x, hx, rfl, hdue⟩, -⟩ := haborts
  rwa [(wait_of_closes before later h hx).2.2] at hdue

/-- Nobody waits for an actor that was closed on its own run loop. -/
theorem unattended_of_own (before later : List Act) {x : Wait}
    (h : (run before).Closes (.move (.runLoop x.actor)) x.actor) :
    x ∉ (run (before ++ .move (.runLoop x.actor) :: later)).waits m := by
  intro hx
  obtain ⟨hact, -, -⟩ := wait_of_closes before later h hx
  exact (closed_of_waits (sound_run _) hx).2 (Act.move.inj hact).symm

end World

end Troupe
