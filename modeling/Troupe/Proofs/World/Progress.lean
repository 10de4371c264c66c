import Troupe.Proofs.World.Commission
import Troupe.Proofs.World.OrderedPath
import Troupe.Proofs.World.Reach

/-!
# How far operations get

An operation that is sent through the mailbox or past it is in one place at a time: its envelope
waits, or a mover works on it, or its handle is resolved. This module follows it from place to
place and says along the way what its history is, so that at the end the outcome of the handle can
be compared with what has been done.

Everything that can happen falls in two parts. Its own mover takes the operation one step further,
which is looked at step by step; all others leave it alone or lose it, which is known already.

## Main definitions

* `Commission.Told` — an outcome that says what has been done
* `World.Whereabouts` — where an operation is, with its history

## Main results

* `World.operation?_goesOn`, `operation?_ends` — the next move of the mover of an operation
* `World.whereabouts_next` — an operation gets further
-/

namespace Troupe

namespace World

variable {w w' : World} {a : ActorId} {m : Mover} {r : Runner} {h : HandleId} {c : Course}
  {act : Act}

/-! ### What is there -/

theorem lt_of_loop (hl : (w.actor a).loop ≠ .starting) : a < w.actors.length := by
  by_contra hge
  rw [actor, List.getElem?_eq_none (Nat.le_of_not_lt hge)] at hl
  exact hl rfl

theorem lt_of_inside {i : Inside} (hl : (w.actor a).loop = .inside i) : a < w.actors.length :=
  lt_of_loop (by simp [hl])

theorem lt_of_closed (hc : (w.actor a).closed = true) : a < w.actors.length := by
  by_contra hge
  rw [actor, List.getElem?_eq_none (Nat.le_of_not_lt hge)] at hc
  cases hc

/-! ### Letting go, and small changes -/

theorem actor_release (w : World) (a : ActorId) :
    w.release.actor a = { w.actor a with stopping := (w.release.actor a).stopping } := by
  have hsame : w.releaseSystems.actor a = w.actor a := rfl
  rw [← hsame, release, releaseActors, actor, actor, List.getElem?_mapIdx]
  cases w.releaseSystems.actors[a]? with
  | none => rfl
  | some actor =>
    simp only [Option.map_some, Option.getD_some]
    split <;> rfl

@[simp] theorem loop_release (w : World) (a : ActorId) :
    (w.release.actor a).loop = (w.actor a).loop := by
  rw [actor_release]

@[simp] theorem mailbox_release (w : World) (a : ActorId) :
    (w.release.actor a).mailbox = (w.actor a).mailbox := by
  rw [actor_release]

@[simp] theorem task?_release (w : World) (t : TaskId) : w.release.task? t = w.task? t := rfl

@[simp] theorem channel_release (w : World) (h : HandleId) :
    w.release.channel h = w.channel h := rfl

@[simp] theorem pool_release (w : World) (p : PoolId) : w.release.pool p = w.pool p := rfl

theorem loop_setLoop (ha : a < w.actors.length) (l : Loop) :
    ((w.setLoop a l).actor a).loop = l := by
  rw [setLoop, actor_onActor_self w ha]

theorem mailbox_setLoop (w : World) (a b : ActorId) (l : Loop) :
    ((w.setLoop a l).actor b).mailbox = (w.actor b).mailbox := by
  rw [setLoop, onActor, actor, actor, List.getElem?_modify]
  cases w.actors[b]? with
  | none => rfl
  | some actor => by_cases hb : a = b <;> simp [hb]

theorem closed_setLoop (w : World) (a b : ActorId) (l : Loop) :
    ((w.setLoop a l).actor b).closed = (w.actor b).closed := by
  rw [setLoop, onActor, actor, actor, List.getElem?_modify]
  cases w.actors[b]? with
  | none => rfl
  | some actor => by_cases hb : a = b <;> simp [hb]

theorem dropEnvelopes_frame (es : List Envelope) (w : World) :
    ∃ channels pools, w.dropEnvelopes es = { w with channels, pools } := by
  induction es generalizing w with
  | nil => exact ⟨_, _, rfl⟩
  | cons e es ih =>
    obtain ⟨channels, pools, h⟩ := ih (w.dropEnvelope e)
    exact ⟨channels, pools, h.trans (by cases e <;> rfl)⟩

theorem actors_dropEnvelopes (es : List Envelope) (w : World) :
    (w.dropEnvelopes es).actors = w.actors := by
  obtain ⟨_, _, h⟩ := dropEnvelopes_frame es w
  rw [h]

theorem cancelJobs_frame (owner : String) (p : PoolId) (w : World) :
    ∃ pools notices, (w.cancelJobs owner p).2 = { w with pools, notices } := by
  simp only [cancelJobs]
  split <;> exact ⟨_, _, rfl⟩

theorem cancelJobsIn_frame (owner : String) (ps : List PoolId) (w : World) :
    ∃ pools notices, (w.cancelJobsIn owner ps).2 = { w with pools, notices } := by
  induction ps generalizing w with
  | nil => exact ⟨_, _, rfl⟩
  | cons p ps ih =>
    obtain ⟨_, _, hone⟩ := cancelJobs_frame owner p w
    obtain ⟨pools, notices, h⟩ := ih (w.cancelJobs owner p).2
    exact ⟨pools, notices, h.trans (by rw [hone])⟩

theorem task?_setTask {t : TaskId} {old : Task} (ht : w.task? t = some old) (new : Task) :
    (w.setTask t new).task? t = some new := by
  obtain ⟨l, rest, hsplit, hl⟩ := List.lookup_eq_some_iff.mp ht
  refine List.lookup_eq_some_iff.mpr ⟨l.map fun x => (x.1, if x.1 = t then new else x.2),
    rest.map fun x => (x.1, if x.1 = t then new else x.2), ?_, fun x hx => ?_⟩
  · show w.tasks.map _ = _
    rw [hsplit, List.map_append, List.map_cons]
    simp
  · obtain ⟨y, hy, rfl⟩ := List.mem_map.mp hx
    exact hl y hy

theorem task?_endTask (w : World) (t : TaskId) : (w.endTask t).task? t = none := by
  refine List.lookup_eq_none_iff.mpr fun x hx => ?_
  obtain ⟨_, hne⟩ := List.mem_filter.mp hx
  exact bne_iff_ne.mpr (bne_iff_ne.mp hne).symm

theorem actors_resolve (h : HandleId) (o : Except ActorError Json) (w : World) :
    (w.resolve h o).actors = w.actors := by
  rw [resolve]
  split <;> rfl

theorem actors_finishOperation (b : ActorId) (h : HandleId) (answer : Answer) (ending : Ending)
    (w : World) : (w.finishOperation b h answer ending).actors = w.actors := by
  cases ending <;> exact actors_resolve ..

/-! ### The next world -/

theorem next_of_stepLoop (hstep : w.stepLoop a = some w') :
    w.next (.move (.runLoop a)) = w'.release := by
  simp [next, step, hstep]

theorem next_of_stepTask {t : TaskId} (hstep : w.stepTask t = some w') :
    w.next (.move (.task t)) = w'.release := by
  simp [next, step, hstep]

theorem next_of_loop_goesOn {c' : Course} (hloop : (w.actor a).loop = .inside (.operation h c))
    (hstep : w.stepCourse (.runLoop a) c = some (.goesOn c', w')) :
    w.next (.move (.runLoop a)) = (w'.setLoop a (.inside (.operation h c'))).release :=
  next_of_stepLoop (by simp [stepLoop, hloop, stepInside, hstep])

theorem next_of_loop_ends {ending : Ending}
    (hloop : (w.actor a).loop = .inside (.operation h c))
    (hstep : w.stepCourse (.runLoop a) c = some (.ends ending, w')) :
    w.next (.move (.runLoop a)) =
      ((w'.finishOperation a h c.answer ending).setLoop a .idle).release :=
  next_of_stepLoop (by simp [stepLoop, hloop, stepInside, hstep])

theorem next_of_bypass_goesOn {t : TaskId} {c' : Course} (ht : w.task? t = some (.bypass a h c))
    (hstep : w.stepCourse (.bypass a) c = some (.goesOn c', w')) :
    w.next (.move (.task t)) = (w'.setTask t (.bypass a h c')).release :=
  next_of_stepTask (by simp [stepTask, ht, hstep])

theorem next_of_bypass_ends {t : TaskId} {ending : Ending}
    (ht : w.task? t = some (.bypass a h c))
    (hstep : w.stepCourse (.bypass a) c = some (.ends ending, w')) :
    w.next (.move (.task t)) = ((w'.finishOperation a h c.answer ending).endTask t).release :=
  next_of_stepTask (by simp [stepTask, ht, hstep])

theorem next_of_errand_goesOn {t : TaskId} {c' : Course} (ht : w.task? t = some (.errand h c))
    (hstep : w.stepCourse .client c = some (.goesOn c', w')) :
    w.next (.move (.task t)) = (w'.setTask t (.errand h c')).release :=
  next_of_stepTask (by simp [stepTask, ht, hstep])

theorem next_of_errand_ends {t : TaskId} {ending : Ending} (ht : w.task? t = some (.errand h c))
    (hstep : w.stepCourse .client c = some (.ends ending, w')) :
    w.next (.move (.task t)) = ((w'.resolve h (c.answer.outcome ending)).endTask t).release :=
  next_of_stepTask (by simp [stepTask, ht, hstep])

/-! ### The mover of an operation -/

theorem loop_of_operation? (h' : w.operation? (.runLoop a) = some (r, h, c)) :
    r = .runLoop a ∧ (w.actor a).loop = .inside (.operation h c) := by
  rw [operation?] at h'
  split at h'
  · rename_i hloop
    cases h'
    exact ⟨rfl, hloop⟩
  · cases h'

theorem task?_of_operation? {t : TaskId} (h' : w.operation? (.task t) = some (r, h, c)) :
    ∃ a, r = .bypass a ∧ w.task? t = some (.bypass a h c) := by
  rw [operation?] at h'
  split at h'
  · rename_i a _ _ ht
    cases h'
    exact ⟨a, rfl, ht⟩
  · cases h'

theorem operation?_of_inside (hloop : (w.actor a).loop = .inside (.operation h c)) :
    w.operation? (.runLoop a) = some (.runLoop a, h, c) := by
  rw [operation?, hloop]

theorem operation?_of_bypass {t : TaskId} (ht : w.task? t = some (.bypass a h c)) :
    w.operation? (.task t) = some (.bypass a, h, c) := by
  rw [operation?, ht]

/-- What a run loop is inside of is unresolved. -/
theorem content_of_inside (hs : w.scene.Sound) {i : Inside} (hloop : (w.actor a).loop = .inside i) :
    w.scene.content i.handle = .empty := by
  refine hs.content_of_handles (a := a) (Lane.mem_handles_of_inside ?_)
  rw [lane_scene]
  exact hloop

/-- What a mover works on is unresolved. -/
theorem content_of_operation? (hs : w.scene.Sound) (hm : w.operation? m = some (r, h, c)) :
    w.scene.content h = .empty := by
  cases m with
  | runLoop a => exact content_of_inside hs (loop_of_operation? hm).2
  | task t =>
    obtain ⟨a, _, ht⟩ := task?_of_operation? hm
    have hmem : (t, .bypass a h c) ∈ w.scene.tasks := Scene.mem_of_lookup ht
    exact hs.accounts.mem_holders.mp (Scene.mem_holders_of_task hmem)
  | worker _ _ | grace _ => cases hm

/-- What waits in a mailbox is worked on by nobody. -/
theorem operation?_of_waiting (hs : w.scene.Sound) {body : List Action} {kind : Answer}
    (hmem : .operation h body kind ∈ (w.actor a).mailbox.queue) :
    w.operation? m ≠ some (r, h, c) := by
  intro hm
  have hh : h ∈ (w.scene.lane a).waiting := handle_mem_waiting hmem
  have hlane : h ∈ (w.scene.lane a).handles := List.mem_append_right _ hh
  cases m with
  | runLoop b =>
    obtain ⟨_, hloop⟩ := loop_of_operation? hm
    have hinside : (w.scene.lane b).loop = .inside (.operation h c) := by
      rw [lane_scene]
      exact hloop
    obtain rfl := hs.lane_eq hlane (Lane.mem_handles_of_inside hinside)
    -- It would be in two places of one lane.
    have hsorted := hs.sorted a
    rw [Lane.handles, Lane.current_of_inside hinside, List.singleton_append] at hsorted
    exact Nat.lt_irrefl _ (List.rel_of_pairwise_cons hsorted hh)
  | task t =>
    obtain ⟨b, _, ht⟩ := task?_of_operation? hm
    exact hs.ne_of_task hlane (x := (t, _)) (Scene.mem_of_lookup ht) rfl
  | worker _ _ | grace _ => cases hm

/-- An operation has one mover. -/
theorem operation?_unique (hs : w.scene.Sound) {m' : Mover} {r' : Runner} {c' : Course}
    (hm : w.operation? m = some (r, h, c)) (hm' : w.operation? m' = some (r', h, c')) :
    m = m' := by
  have inLane : ∀ {a r c}, w.operation? (.runLoop a) = some (r, h, c) →
      h ∈ (w.scene.lane a).handles := by
    intro a r c hm
    obtain ⟨_, hloop⟩ := loop_of_operation? hm
    refine Lane.mem_handles_of_inside (i := .operation h c) ?_
    rw [lane_scene]
    exact hloop
  have isTask : ∀ {t r c}, w.operation? (.task t) = some (r, h, c) →
      ∃ task, (t, task) ∈ w.scene.tasks ∧ task.handle = h := by
    intro t r c hm
    obtain ⟨a, _, ht⟩ := task?_of_operation? hm
    exact ⟨_, Scene.mem_of_lookup ht, rfl⟩
  cases m with
  | runLoop a =>
    cases m' with
    | runLoop b => rw [hs.lane_eq (inLane hm) (inLane hm')]
    | task t =>
      obtain ⟨task, hmem, hh⟩ := isTask hm'
      exact absurd hh (hs.ne_of_task (inLane hm) hmem)
    | worker _ _ | grace _ => cases hm'
  | task t =>
    obtain ⟨task, hmem, hh⟩ := isTask hm
    cases m' with
    | runLoop b => exact absurd hh (hs.ne_of_task (inLane hm') hmem)
    | task t' =>
      obtain ⟨task', hmem', hh'⟩ := isTask hm'
      have hnodup := (List.nodup_append.mp hs.nodup_holders).2.1
      have hsame := List.inj_on_of_nodup_map hnodup hmem hmem' (hh.trans hh'.symm)
      rw [(Prod.mk.inj hsame).1]
    | worker _ _ | grace _ => cases hm'
  | worker _ _ | grace _ => cases hm

/-- A move of the course of an operation leaves it where it is. -/
theorem operation?_stepCourse (hs : w.scene.Sound) (hm : w.operation? m = some (r, h, c))
    {progress : Progress} (hstep : w.stepCourse r c = some (progress, w')) :
    w'.scene.Sound ∧ w'.operation? m = some (r, h, c) := by
  cases m with
  | runLoop a =>
    obtain ⟨rfl, hloop⟩ := loop_of_operation? hm
    have hwaits : ∀ wait, c.wait = some wait →
        (w.actor wait.actor).closed = true ∧ wait.actor ≠ a := by
      intro wait hwait
      have hwait' : (w.scene.lane a).wait? = some wait := by
        rw [Lane.wait?, lane_scene]
        show (w.actor a).loop.course?.bind _ = _
        rw [hloop]
        exact hwait
      have := hs.waits a wait hwait'
      rwa [lane_scene] at this
    obtain ⟨ms, d, _, hms⟩ := deeds_stepCourse hs (fun wait hw => (hwaits wait hw).1) hstep
    have hsame := d.loop_eq (a := a) fun x hx heq => by
      obtain ⟨wait, hwait, hwa⟩ := (loop?_of_course hms x hx).1 a heq
      exact (hwaits wait hwait).2 hwa
    rw [lane_scene, lane_scene] at hsame
    refine ⟨hs.deeds d, ?_⟩
    rw [operation?, show (w'.actor a).loop = (w.actor a).loop from hsame, hloop]
  | task t =>
    obtain ⟨a, rfl, ht⟩ := task?_of_operation? hm
    have hwaits : ∀ wait, c.wait = some wait → (w.actor wait.actor).closed = true := by
      intro wait hwait
      have := hs.taskWaits (t, .bypass a h c) (Scene.mem_of_lookup ht) wait
        (by simp [Task.waits, hwait])
      rwa [lane_scene] at this
    obtain ⟨ms, d, _, hms⟩ := deeds_stepCourse hs hwaits hstep
    have hsame := d.lookup_eq (fun hx => (loop?_of_course hms _ hx).2 t rfl) ht
    refine ⟨hs.deeds d, ?_⟩
    rw [operation?, show w'.task? t = _ from hsame]
  | worker _ _ | grace _ => cases hm

/-- A mover whose operation waits does nothing. -/
theorem operation?_stuck (hm : w.operation? m = some (r, h, c)) :
    w.step m = none ↔ w.stepCourse r c = none := by
  cases m with
  | runLoop a =>
    obtain ⟨rfl, hloop⟩ := loop_of_operation? hm
    simp [step, stepLoop, hloop, stepInside]
  | task t =>
    obtain ⟨a, rfl, ht⟩ := task?_of_operation? hm
    simp [step, stepTask, ht]
  | worker _ _ | grace _ => cases hm

/-- **An operation that goes on** stays with its mover. -/
theorem operation?_goesOn (hs : w.scene.Sound) (hm : w.operation? m = some (r, h, c))
    {c' : Course} (hstep : w.stepCourse r c = some (.goesOn c', w')) :
    (w.next (.move m)).operation? m = some (r, h, c') := by
  obtain ⟨_, hm'⟩ := operation?_stepCourse hs hm hstep
  cases m with
  | runLoop a =>
    obtain ⟨rfl, hloop⟩ := loop_of_operation? hm
    obtain ⟨_, hloop'⟩ := loop_of_operation? hm'
    rw [next_of_loop_goesOn hloop hstep, operation?, loop_release,
      loop_setLoop (lt_of_inside hloop')]
  | task t =>
    obtain ⟨a, rfl, ht⟩ := task?_of_operation? hm
    obtain ⟨b, hb, ht'⟩ := task?_of_operation? hm'
    rw [next_of_bypass_goesOn ht hstep, operation?, task?_release, task?_setTask ht']
  | worker _ _ | grace _ => cases hm

/-- **An operation that ends** hands its result to its handle, and its mover is free: a run loop is
between two envelopes, and a task is gone. -/
theorem operation?_ends (hs : w.scene.Sound) (hm : w.operation? m = some (r, h, c))
    {ending : Ending} (hstep : w.stepCourse r c = some (.ends ending, w')) :
    (w.next (.move m)).scene.content h = .full (c.answer.outcome ending) ∧
      (∀ a, m = .runLoop a → ((w.next (.move m)).actor a).loop = .idle) ∧
      ∀ t, m = .task t → (w.next (.move m)).task? t = none := by
  obtain ⟨hs', hm'⟩ := operation?_stepCourse hs hm hstep
  have hempty := content_of_operation? hs' hm'
  have hfull : ∀ b, (w'.finishOperation b h c.answer ending).scene.content h =
      .full (c.answer.outcome ending) := by
    intro b
    rw [scene_finishOperation, Scene.content_settleAll, if_pos (List.mem_singleton_self _), hempty]
    rfl
  cases m with
  | runLoop a =>
    obtain ⟨rfl, hloop⟩ := loop_of_operation? hm
    obtain ⟨_, hloop'⟩ := loop_of_operation? hm'
    have hlt : a < (w'.finishOperation a h c.answer ending).actors.length := by
      rw [actors_finishOperation]
      exact lt_of_inside hloop'
    rw [next_of_loop_ends hloop hstep]
    refine ⟨?_, ?_, by simp⟩
    · rw [content_scene, channel_release, ← content_scene]
      exact hfull a
    · rintro b hb
      cases hb
      rw [loop_release, loop_setLoop hlt]
  | task t =>
    obtain ⟨a, rfl, ht⟩ := task?_of_operation? hm
    rw [next_of_bypass_ends ht hstep]
    refine ⟨?_, by simp, ?_⟩
    · rw [content_scene, channel_release, ← content_scene]
      exact hfull a
    · rintro k hk
      cases hk
      exact task?_endTask _ t
  | worker _ _ | grace _ => cases hm

/-! ### Histories of operations -/

theorem doing?_eq_some {ds : List Doing} : w.doing? m = some (.operation h, ds) ↔
    ∃ r c, w.operation? m = some (r, h, c) ∧ ds = w.courseDoings r c := by
  cases m with
  | worker _ _ | grace _ => simp [doing?, operation?]
  | runLoop _ | task _ =>
    constructor
    · intro hd
      obtain ⟨⟨r, k, c⟩, hop, heq⟩ := Option.map_eq_some_iff.mp hd
      cases heq
      exact ⟨r, c, hop, rfl⟩
    · rintro ⟨r, c, hop, rfl⟩
      exact Option.map_eq_some_iff.mpr ⟨_, hop, rfl⟩

theorem doings_of_operation? (hm : w.operation? m = some (r, h, c)) :
    doings (.operation h) w (.move m) = w.courseDoings r c := by
  simp [doings, doing?_eq_some.mpr ⟨r, c, hm, rfl⟩]

theorem doings_of_ne (hne : ∀ m, act = .move m → ∀ r c, w.operation? m ≠ some (r, h, c)) :
    doings (.operation h) w act = [] := by
  cases act with
  | call _ | observe => rfl
  | move m =>
    simp only [doings]
    split
    · rename_i site ds hd
      refine if_neg ?_
      rintro rfl
      obtain ⟨r, c, hop, _⟩ := doing?_eq_some.mp hd
      exact hne m rfl r c hop
    · rfl

/-- Nothing is done for what is resolved. -/
theorem doings_of_resolved (hs : w.scene.Sound) (hne : w.scene.content h ≠ .empty) :
    doings (.operation h) w act = [] :=
  doings_of_ne fun _ _ _ _ hm => hne (content_of_operation? hs hm)

/-- A task past a mailbox stays as it is until it moves. It has no grace period. -/
theorem bypass_next (hs : w.scene.Sound) {t : TaskId} (ht : w.task? t = some (.bypass a h c))
    (hact : act ≠ .move (.task t)) : (w.next act).task? t = some (.bypass a h c) := by
  by_cases hgrace : act = .move (.grace t)
  · rwa [hgrace, next_of_stuck (by simp [step, expireGrace, ht])]
  · exact task_next hs ht ⟨hact, hgrace⟩

/-- An operation whose mover does not move stays with it, or it is lost. -/
theorem operation?_next (hs : w.scene.Sound) (hm : w.operation? m = some (r, h, c))
    (hact : act ≠ .move m) :
    (w.next act).operation? m = some (r, h, c) ∨ (w.next act).scene.content h = .lost := by
  cases m with
  | runLoop a =>
    obtain ⟨rfl, hloop⟩ := loop_of_operation? hm
    exact (inside_next hs hact hloop).imp_left operation?_of_inside
  | task t =>
    obtain ⟨a, rfl, ht⟩ := task?_of_operation? hm
    exact .inl (operation?_of_bypass (bypass_next hs ht fun h => hact h))
  | worker _ _ | grace _ => cases hm

end World

namespace Commission

/-- On whose behalf the body runs, unless it runs in a pool. -/
def runner? (x : Commission) : Option Runner :=
  match x.route with
  | .ordered => some (.runLoop x.actor)
  | .bypass => some (.bypass x.actor)
  | .offloaded _ _ => none

/-- An outcome says that the operation was refused at once, or how its body has ended. -/
def Told (x : Commission) (o : Except ActorError Json) (ds : List Doing) : Prop :=
  (x.answer = some o ∧ ∃ name, o = .error (.closed name)) ∨
    ∃ ending, .ends ending ∈ ds ∧ o = x.outcomeOf ending

end Commission

namespace World

variable {w : World} {x : Commission} {ds : List Doing}

/-- Where an operation is, with its history. -/
inductive Whereabouts (w : World) (x : Commission) : List Doing → Prop where
  /-- Its envelope waits, and nothing has been done. -/
  | waits (hr : x.route = .ordered)
    (hmem : .operation x.handle x.body x.kind ∈ (w.actor x.actor).mailbox.queue) :
    Whereabouts w x []
  /-- A mover works on it. -/
  | runs {m : Mover} {r : Runner} {done : List Action} {c : Course} (hr : x.runner? = some r)
    (hm : w.operation? m = some (r, x.handle, c)) (hbody : x.body = done ++ c.rest)
    (hkind : c.answer = x.kind) : Whereabouts w x (done.map .performs)
  /-- Its handle is resolved. -/
  | resolved {ds : List Doing} (hlt : x.handle < w.channels.length)
    (hne : w.scene.content x.handle ≠ .empty) (hran : Ran x.body ds)
    (htold : ∀ o, w.scene.content x.handle = .full o → x.Told o ds) : Whereabouts w x ds

theorem Whereabouts.ran (h : w.Whereabouts x ds) : Ran x.body ds := by
  cases h with
  | waits _ _ => exact .nil
  | runs _ _ hbody _ => exact .partly hbody
  | resolved _ _ hran _ => exact hran

theorem Whereabouts.lt (hs : w.scene.Sound) (h : w.Whereabouts x ds) :
    x.handle < w.channels.length := by
  rw [← length_contents_scene]
  cases h with
  | waits _ hmem =>
    exact hs.lt_of_handles (a := x.actor) (List.mem_append_right _ (handle_mem_waiting hmem))
  | runs _ hm _ _ => exact Scene.lt_of_content_empty (content_of_operation? hs hm)
  | resolved hlt _ _ _ => rwa [length_contents_scene]

/-- A mover begins with nothing done. -/
theorem Whereabouts.begun {m : Mover} {r : Runner} (hr : x.runner? = some r)
    (hm : w.operation? m = some (r, x.handle, { rest := x.body, answer := x.kind })) :
    w.Whereabouts x [] :=
  @Whereabouts.runs w x m r [] _ hr hm rfl rfl

/-- What is lost says nothing. -/
theorem Whereabouts.of_lost (hlt : x.handle < w.channels.length)
    (hl : w.scene.content x.handle = .lost) (hran : Ran x.body ds) : w.Whereabouts x ds :=
  .resolved hlt (by rw [hl]; simp) hran fun o ho => by rw [hl] at ho; cases ho

variable {act : Act}

theorem length_channels_next (hs : w.scene.Sound) (act : Act) :
    w.channels.length ≤ (w.next act).channels.length := by
  obtain ⟨ms, d, _⟩ := fits_next hs act
  simpa using (Scene.Grows.of_deeds d).contents

/-- What waits goes on waiting, or its run loop begins with it, or it is lost. -/
theorem waiting_next (hs : w.scene.Sound) {e : Envelope}
    (hmem : e ∈ (w.actor a).mailbox.queue) (act : Act) :
    e ∈ ((w.next act).actor a).mailbox.queue ∨ ((w.next act).actor a).loop = .inside e.inside ∨
      (w.next act).scene.content e.handle = .lost := by
  obtain ⟨ms, ns, d, hms, hns⟩ := deeds_next hs act
  have hqueue : e ∈ (w.scene.lane a).queue := by
    rw [lane_scene]
    exact hmem
  have kept : e ∈ ((w.next act).scene.lane a).queue →
      e ∈ ((w.next act).actor a).mailbox.queue := by
    rw [lane_scene]
    exact fun h => h
  by_cases hent : ∃ e', .entered a e' ∈ ms
  · obtain ⟨e', he⟩ := hent
    cases hms with
    | sends _ hms => cases hms <;> simp [Mark.mem_ofAdmission] at he
    | clears _ _ | takes _ _ _ | submits _ _ | fails _ | quits _ _ _ _ => simp at he
    | closes _ hms =>
      obtain ⟨_, _, hm⟩ := hms _ he
      cases hm
    | enters _ hact hloop _ hnext =>
      obtain ⟨rfl, rfl⟩ := Mark.entered.inj (List.mem_singleton.mp he)
      subst hact
      rw [lane_scene] at hloop
      obtain rfl : ns = [] := hns.2 hloop
      rw [hnext] at hqueue
      rcases List.mem_cons.mp hqueue with rfl | hrest
      · have hinside := d.loop_of_entered rfl
        rw [lane_scene] at hinside
        exact .inr (.inl hinside)
      · refine .inl (kept ?_)
        rw [d.queue_eq, hnext]
        simpa [Mark.onQueue] using hrest
  · have hne : ∀ e', .entered a e' ∉ ms ++ ns := fun e' he =>
      (List.mem_append.mp he).elim (fun he => hent ⟨e', he⟩) (hns.not_mem (by simp))
    exact (d.lost_of_dropped hs hne hqueue).imp kept .inr

/-- An operation that waits goes on waiting, is begun with, or is lost. -/
theorem whereabouts_waits (hs : w.scene.Sound) (hr : x.route = .ordered)
    (hmem : .operation x.handle x.body x.kind ∈ (w.actor x.actor).mailbox.queue) (act : Act) :
    (w.next act).Whereabouts x [] := by
  rcases waiting_next hs hmem act with hstays | hloop | hlost
  · exact .waits hr hstays
  · have hrunner : x.runner? = some (.runLoop x.actor) := by simp [Commission.runner?, hr]
    exact .begun hrunner (operation?_of_inside hloop)
  · have hlt := Nat.lt_of_lt_of_le ((Whereabouts.waits hr hmem).lt hs) (length_channels_next hs act)
    exact .of_lost hlt hlost .nil

/-- The mover of an operation takes it one step further. -/
theorem whereabouts_runs (hs : w.scene.Sound) {m : Mover} {r : Runner} {done : List Action}
    {c : Course} (hr : x.runner? = some r) (hm : w.operation? m = some (r, x.handle, c))
    (hbody : x.body = done ++ c.rest) (hkind : c.answer = x.kind) :
    (w.next (.move m)).Whereabouts x (done.map .performs ++ w.courseDoings r c) := by
  rw [courseDoings]
  cases hstep : w.stepCourse r c with
  | none =>
    rw [next_of_stuck ((operation?_stuck hm).mpr hstep), List.append_nil]
    exact .runs hr hm hbody hkind
  | some y =>
    obtain ⟨progress, w'⟩ := y
    cases progress with
    | goesOn c' =>
      rcases stepCourse_cases hstep with ⟨c₁, hc, hrest, hanswer⟩ | ⟨_, _, _, hc, _⟩ | ⟨hc, _⟩
      · obtain rfl : c' = c₁ := by simpa using hc
        simp only [← List.map_append]
        refine .runs hr (operation?_goesOn hs hm hstep) ?_ (hanswer.trans hkind)
        rw [hbody, hrest, List.append_assoc]
      · cases hc
      · cases hc
    | ends ending =>
      have hfull := (operation?_ends hs hm hstep).1
      have hlt : x.handle < (w.next (.move m)).channels.length :=
        Nat.lt_of_lt_of_le ((Whereabouts.runs hr hm hbody hkind).lt hs) (length_channels_next hs _)
      have hroute : x.outcomeOf ending = x.kind.outcome ending := by
        rw [Commission.runner?] at hr
        rw [Commission.outcomeOf]
        split at hr <;> simp_all
      refine .resolved hlt (by rw [hfull]; simp) ?_ fun o ho => .inr ⟨ending, by simp, ?_⟩
      · rcases stepCourse_cases hstep with
          ⟨_, hc, _⟩ | ⟨action, rest, e, hc, hact, hrest, hcut, -⟩ | ⟨hc, hact, hrest, -⟩
        · cases hc
        · obtain rfl : ending = e := by simpa using hc
          have hran : Ran x.body ((done ++ [action]).map .performs ++ [.ends ending]) :=
            .cut (by rw [hbody, hrest]) hcut
          simpa [hact] using hran
        · obtain rfl : ending = .returned c.value := by simpa using hc
          have hran : Ran x.body (x.body.map .performs ++ [.ends (.returned c.value)]) :=
            .returned c.value
          simpa [hact, hbody, hrest] using hran
      · rw [hfull] at ho
        rw [hroute, ← hkind]
        exact (Content.full.inj ho).symm

/-- **An operation gets further**, and its history with it. -/
theorem whereabouts_next (hs : w.scene.Sound) (h : w.Whereabouts x ds) (act : Act) :
    (w.next act).Whereabouts x (ds ++ doings (.operation x.handle) w act) := by
  have hlt := Nat.lt_of_lt_of_le (h.lt hs) (length_channels_next hs act)
  cases h with
  | waits hr hmem =>
    rw [doings_of_ne fun _ _ _ _ => operation?_of_waiting hs hmem]
    exact whereabouts_waits hs hr hmem act
  | runs hr hm hbody hkind =>
    rename_i m r done c
    by_cases hact : act = .move m
    · subst hact
      rw [doings_of_operation? hm]
      exact whereabouts_runs hs hr hm hbody hkind
    · rw [doings_of_ne fun m' hm' _ _ hop => hact (hm'.trans (operation?_unique hs hop hm ▸ rfl)),
        List.append_nil]
      rcases operation?_next hs hm hact with hm' | hl
      · exact .runs hr hm' hbody hkind
      · exact .of_lost hlt hl (.partly hbody)
  | resolved hold hne hran htold =>
    rw [doings_of_resolved hs hne, List.append_nil]
    obtain ⟨ms, d, _⟩ := fits_next hs act
    refine .resolved hlt ?_ hran fun o ho => htold o (full_next hs act hold hne ho)
    exact (Scene.Grows.of_deeds d).resolved x.handle (by rwa [length_contents_scene]) hne

end World

end Troupe
