import Troupe.Proofs.World.Book
import Troupe.Proofs.World.Progress

/-!
# Waits

A close that takes its time is known by its wait, which some mover has until the close is completed
or until the mover, being a run loop, is aborted itself. What a mover waits for depends on nobody
else's moves but the one that aborts it; and a mover that works on a course waits for what the last
move of its course has left to wait for.

## Main definitions

* `World.course?` — the course that a mover works on
* `Progress.waits` — what a course is to wait for after a move
* `World.GoesOn` — what shows after a mover has gone on

## Main results

* `World.waits_next` — whoever does not move waits on, unless his run loop is aborted
* `World.waiter_cases` — whoever waits works on a course, or terminates a system
* `World.step_of_stuck`, `step_of_goesOn` — a mover gets as far as its course
* `World.next_of_course` — the move of a mover that works on a course
-/

namespace Troupe

/-! ### Waits -/

/-- What a course is to wait for after a move. -/
def Progress.waits : Progress → List Wait
  | .goesOn c => c.wait.toList
  | .ends _ => []

/-- What a task waits for. -/
def Scene.taskWaits (s : Scene) (i : TaskId) : List Wait := (s.tasks.lookup i).elim [] Task.waits

variable {s t : Scene} {ms : List Mark}

theorem Deed.taskWaits_eq {i : TaskId} (d : Deed ms s t) (h : .stepped i ∉ ms) :
    t.taskWaits i = s.taskWaits i := by
  cases d with
  | roster _ _ | enroll _ | found _ | pool _ _ | stop _ | settled _ | drain _ | remember _ _ => rfl
  | accept _ _ _ _ _ | start _ | enter _ _ _ | proceed _ _ => rfl
  | @begin _ task _ hw _ =>
    show ((s.tasks ++ [(s.taskCount, task)]).lookup i).elim [] Task.waits = _
    rw [List.lookup_append, Scene.taskWaits]
    cases s.tasks.lookup i with
    | some old => rfl
    | none =>
      by_cases hi : i = s.taskCount
      · simp [hi, hw]
      · simp [List.lookup_cons, beq_false_of_ne hi]
  | setTask _ _ _ _ =>
    exact congrArg (Option.elim · [] Task.waits) (Scene.lookup_setTask (by simpa using h))
  | endTask _ _ =>
    refine congrArg (Option.elim · [] Task.waits)
      ((Scene.lookup_endTask (by simpa using h)).trans ?_)
    rw [(Scene.settleAll_frame _ _).2.1]
  | clear _ | shut _ _ _ | abort _ | quit _ _ =>
    rw [Scene.taskWaits, (Scene.settleAll_frame _ _).2.1]
    rfl
  | finish _ _ _ =>
    show ((Scene.settleAll _ _ s).tasks.lookup i).elim [] Task.waits = _
    rw [(Scene.settleAll_frame _ _).2.1]
    rfl

theorem Deeds.taskWaits_eq {i : TaskId} (d : Deeds ms s t) (h : .stepped i ∉ ms) :
    t.taskWaits i = s.taskWaits i := by
  induction d with
  | refl s => rfl
  | cons d _ ih =>
    rw [List.mem_append, not_or] at h
    rw [ih h.2, d.taskWaits_eq h.1]

namespace World

variable {w w' : World} {a : ActorId} {m : Mover} {act : Act}

theorem waits_runLoop (w : World) (a : ActorId) :
    w.waits (.runLoop a) = (w.scene.lane a).wait?.toList := by
  rw [lane_scene]
  rfl

theorem waits_task (w : World) (t : TaskId) : w.waits (.task t) = w.scene.taskWaits t := rfl

/-- Whoever leaves no mark waits on. -/
theorem waits_of_deeds (d : Deeds ms w.scene w'.scene) (hloop : ∀ x ∈ ms, ∀ a, m = .runLoop a →
    x.loop? ≠ some a) (htask : ∀ t, m = .task t → .stepped t ∉ ms) : w'.waits m = w.waits m := by
  cases m with
  | runLoop a =>
    rw [waits_runLoop, waits_runLoop, Lane.wait?, Lane.wait?,
      d.loop_eq fun x hx => hloop x hx a rfl]
  | task t => exact d.taskWaits_eq (htask t rfl)
  | worker _ _ | grace _ => rfl

/-- **Whoever does not move waits on**, unless his run loop is aborted. -/
theorem waits_next (hs : w.scene.Sound) (hmove : act ≠ .move m)
    (hgrace : ∀ t, m = .task t → act ≠ .move (.grace t))
    (habort : ∀ a m' wait, m = .runLoop a → act = .move m' → wait ∈ w.waits m' → wait.actor ≠ a) :
    (w.next act).waits m = w.waits m := by
  obtain ⟨ms, d, hms⟩ := fits_next hs act
  refine waits_of_deeds d (fun x hx a ha hloop => ?_) fun t ht hstep => ?_
  · subst ha
    obtain rfl := (hms x hx).loop? hmove hloop
    obtain ⟨m', wait, hact, hwait, hwa⟩ := hms _ hx
    exact habort a m' wait rfl hact hwait hwa
  · subst ht
    exact (hms _ hstep).elim hmove (hgrace t rfl)

@[simp] theorem waits_release (w : World) (m : Mover) : w.release.waits m = w.waits m := by
  cases m with
  | runLoop a => rw [waits, waits, loop_release]
  | task _ | worker _ _ | grace _ => rfl

theorem task?_of_mem (hs : w.scene.Sound) {t : TaskId} {task : Task} (h : (t, task) ∈ w.tasks) :
    w.task? t = some task := by
  obtain ⟨l, r, hsplit⟩ := List.append_of_mem h
  have hnodup := hs.tasks_nodup
  refine List.lookup_eq_some_iff.mpr ⟨l, r, hsplit, fun y hy => ?_⟩
  rw [show w.scene.tasks = _ from hsplit, List.map_append, List.map_cons,
    List.nodup_append] at hnodup
  have := hnodup.2.2 y.1 (List.mem_map_of_mem hy) t List.mem_cons_self
  simpa [bne_iff_ne] using Ne.symm this

theorem mem_waiting_iff (hs : w.scene.Sound) {wait : Wait} :
    (wait, m) ∈ w.waiting ↔ wait ∈ w.waits m := by
  rw [waiting, List.mem_append, List.mem_flatMap, List.mem_flatMap]
  constructor
  · rintro (⟨⟨actor, a⟩, hmem, hw⟩ | ⟨⟨t, task⟩, hmem, hw⟩)
    · obtain ⟨x, hx, heq⟩ := List.mem_map.mp hw
      obtain ⟨rfl, rfl⟩ := Prod.mk.inj heq
      rw [List.mk_mem_zipIdx_iff_getElem?] at hmem
      rw [waits, World.actor, hmem]
      exact hx
    · obtain ⟨x, hx, heq⟩ := List.mem_map.mp hw
      obtain ⟨rfl, rfl⟩ := Prod.mk.inj heq
      rw [waits, task?_of_mem hs hmem]
      exact hx
  · intro hwait
    cases m with
    | runLoop a =>
      have ha : a < w.actors.length := by
        by_contra hge
        rw [waits, World.actor, List.getElem?_eq_none (Nat.le_of_not_lt hge)] at hwait
        cases hwait
      refine .inl ⟨(w.actor a, a), ?_, List.mem_map.mpr ⟨wait, hwait, rfl⟩⟩
      rw [List.mk_mem_zipIdx_iff_getElem?, World.actor, List.getElem?_eq_getElem ha]
      rfl
    | task t =>
      rw [waits] at hwait
      cases ht : w.task? t with
      | none =>
        rw [ht] at hwait
        cases hwait
      | some task =>
        rw [ht] at hwait
        exact .inr ⟨(t, task), Scene.mem_of_lookup ht, List.mem_map_of_mem hwait⟩
    | worker _ _ | grace _ => cases hwait

/-! ### Moves of a course -/

/-- The course that a mover works on, and on whose behalf. -/
def course? (w : World) : Mover → Option (Runner × Course)
  | .runLoop a => (w.actor a).loop.course?.map fun c => (.runLoop a, c)
  | .task t =>
    match w.task? t with
    | some (.bypass a _ c) => some (.bypass a, c)
    | some (.errand _ c) => some (.client, c)
    | _ => none
  | _ => none

variable {r : Runner} {c : Course} {progress : Progress} {w₁ : World}

theorem loop_of_course? (hm : w.course? (.runLoop a) = some (r, c)) :
    r = .runLoop a ∧ ∃ h, (w.actor a).loop = .inside (.operation h c) := by
  obtain ⟨c', hc, heq⟩ := Option.map_eq_some_iff.mp hm
  cases heq
  cases hloop : (w.actor a).loop with
  | inside i =>
    cases i with
    | operation h course =>
      obtain rfl : course = c := by simpa [hloop, Loop.course?] using hc
      exact ⟨rfl, h, rfl⟩
    | relay _ _ _ => simp [hloop, Loop.course?] at hc
  | starting | idle | ended => simp [hloop, Loop.course?] at hc

theorem task_of_course? {t : TaskId} (hm : w.course? (.task t) = some (r, c)) :
    ∃ task, w.task? t = some task ∧ task.course? = some c ∧ r.runLoop? = none ∧
      ((∃ a h, task = .bypass a h c ∧ r = .bypass a) ∨ ∃ h, task = .errand h c ∧ r = .client) := by
  rw [course?] at hm
  split at hm
  · rename_i a h _ ht
    cases hm
    exact ⟨_, ht, rfl, rfl, .inl ⟨a, h, rfl, rfl⟩⟩
  · rename_i h _ ht
    cases hm
    exact ⟨_, ht, rfl, rfl, .inr ⟨h, rfl, rfl⟩⟩
  · cases hm

theorem course?_of_operation? {h : HandleId} (hm : w.operation? m = some (r, h, c)) :
    w.course? m = some (r, c) := by
  cases m with
  | runLoop a =>
    obtain ⟨rfl, hloop⟩ := loop_of_operation? hm
    simp [course?, hloop, Loop.course?]
  | task t =>
    obtain ⟨a, rfl, ht⟩ := task?_of_operation? hm
    simp [course?, ht]
  | worker _ _ | grace _ => cases hm

/-- A mover waits for what its course waits for. -/
theorem waits_of_course? (hm : w.course? m = some (r, c)) : w.waits m = c.wait.toList := by
  cases m with
  | runLoop a =>
    obtain ⟨_, _, hloop⟩ := loop_of_course? hm
    simp [waits, hloop, Loop.course?]
  | task t =>
    obtain ⟨task, ht, _, _, ⟨_, _, rfl, _⟩ | ⟨_, rfl, _⟩⟩ := task_of_course? hm <;>
      simp [waits, ht, Task.waits]
  | worker _ _ | grace _ => cases hm

theorem action?_of_course? (hm : w.course? m = some (r, c)) : w.action? m = c.action? := by
  cases m with
  | runLoop a =>
    obtain ⟨_, _, hloop⟩ := loop_of_course? hm
    simp [action?, hloop, Loop.course?]
  | task t =>
    obtain ⟨task, ht, hc, _⟩ := task_of_course? hm
    simp [action?, ht, hc]
  | worker _ _ | grace _ => cases hm

/-- What is waited for is closed, and never the own run loop. -/
theorem closed_of_waits (hs : w.scene.Sound) {x : Wait} (hx : x ∈ w.waits m) :
    (w.actor x.actor).closed = true ∧ m ≠ .runLoop x.actor := by
  have hclosed : (w.scene.lane x.actor).closed = true ∧ m ≠ .runLoop x.actor := by
    cases m with
    | runLoop a =>
      rw [waits_runLoop, Option.mem_toList] at hx
      obtain ⟨hclosed, hne⟩ := hs.waits a x hx
      exact ⟨hclosed, fun heq => hne (Mover.runLoop.inj heq).symm⟩
    | task t =>
      rw [waits_task, Scene.taskWaits] at hx
      cases ht : w.scene.tasks.lookup t with
      | none =>
        rw [ht] at hx
        cases hx
      | some task =>
        rw [ht] at hx
        exact ⟨hs.taskWaits _ (Scene.mem_of_lookup ht) x hx, by simp⟩
    | worker _ _ | grace _ => cases hx
  rwa [lane_scene] at hclosed

/-- Who is about to perform an action works on a course. -/
theorem course?_of_action? {action : Action} (h : w.action? m = some action) :
    ∃ r c, w.course? m = some (r, c) ∧ c.action? = some action := by
  cases m with
  | runLoop a =>
    obtain ⟨c, hc, haction⟩ := Option.bind_eq_some_iff.mp h
    exact ⟨.runLoop a, c, Option.map_eq_some_iff.mpr ⟨c, hc, rfl⟩, haction⟩
  | task t =>
    obtain ⟨c, hc, haction⟩ := Option.bind_eq_some_iff.mp h
    obtain ⟨task, ht, hc⟩ := Option.bind_eq_some_iff.mp hc
    cases task with
    | bypass a _ _ | errand _ _ =>
      cases hc
      exact ⟨_, c, by rw [course?, ht], haction⟩
    | invocation _ _ _ _ | termination _ _ _ => cases hc
  | worker _ _ | grace _ => cases h

/-- Who waits for something works on a course that does, or terminates a system. -/
theorem waiter_cases {x : Wait} (hx : x ∈ w.waits m) :
    (∃ r c, w.course? m = some (r, c) ∧ c.wait = some x) ∨ ∃ t h s pending, m = .task t ∧
      w.task? t = some (.termination h s (.closing pending)) ∧ x ∈ pending := by
  cases m with
  | runLoop a =>
    obtain ⟨c, hc, hwait⟩ := Option.bind_eq_some_iff.mp (Option.mem_toList.mp hx)
    exact .inl ⟨.runLoop a, c, by rw [course?, hc]; rfl, hwait⟩
  | task t =>
    rw [waits] at hx
    cases ht : w.task? t with
    | none => simp [ht] at hx
    | some task =>
      rw [ht] at hx
      cases task with
      | bypass b h c | errand h c =>
        exact .inl ⟨_, c, by rw [course?, ht], Option.mem_toList.mp hx⟩
      | invocation _ _ _ _ => cases hx
      | termination h s stage =>
        cases stage with
        | starting | draining _ => cases hx
        | closing pending => exact .inr ⟨t, h, s, pending, rfl, ht, hx⟩
  | worker _ _ | grace _ => cases hx

/-- A mover whose course is stuck is stuck. -/
theorem step_of_stuck (hm : w.course? m = some (r, c)) (hstep : w.stepCourse r c = none) :
    w.step m = none := by
  cases m with
  | runLoop a =>
    obtain ⟨rfl, h, hloop⟩ := loop_of_course? hm
    simp [step, stepLoop, hloop, stepInside, hstep]
  | task t =>
    obtain ⟨task, ht, _, _, ⟨b, k, rfl, rfl⟩ | ⟨k, rfl, rfl⟩⟩ := task_of_course? hm <;>
      simp [step, stepTask, ht, hstep]
  | worker _ _ | grace _ => cases hm

/-- A mover whose course goes on keeps its place. -/
theorem step_of_goesOn {c' : Course} (hm : w.course? m = some (r, c))
    (hstep : w.stepCourse r c = some (.goesOn c', w₁)) :
    (∃ a h, m = .runLoop a ∧ (w.actor a).loop = .inside (.operation h c) ∧
      w.step m = some (w₁.setLoop a (.inside (.operation h c'))).release) ∨
    ∃ t old new, m = .task t ∧ w.task? t = some old ∧
      w.step m = some (w₁.setTask t new).release := by
  cases m with
  | runLoop a =>
    obtain ⟨rfl, h, hloop⟩ := loop_of_course? hm
    exact .inl ⟨a, h, rfl, hloop, by simp [step, stepLoop, hloop, stepInside, hstep]⟩
  | task t =>
    obtain ⟨task, ht, _, _, ⟨b, k, rfl, rfl⟩ | ⟨k, rfl, rfl⟩⟩ := task_of_course? hm
    · exact .inr ⟨t, _, .bypass b k c', rfl, ht, by simp [step, stepTask, ht, hstep]⟩
    · exact .inr ⟨t, _, .errand k c', rfl, ht, by simp [step, stepTask, ht, hstep]⟩
  | worker _ _ | grace _ => cases hm

theorem next_of_goesOn {c' : Course} (hm : w.course? m = some (r, c))
    (hstep : w.stepCourse r c = some (.goesOn c', w₁)) :
    (∃ a h, (w.actor a).loop = .inside (.operation h c) ∧
      w.next (.move m) = (w₁.setLoop a (.inside (.operation h c'))).release) ∨
    ∃ t old new, w.task? t = some old ∧ w.next (.move m) = (w₁.setTask t new).release := by
  rcases step_of_goesOn hm hstep with ⟨a, h, -, hloop, hsome⟩ | ⟨t, old, new, -, ht, hsome⟩
  · exact .inl ⟨a, h, hloop, next_of_step hsome⟩
  · exact .inr ⟨t, old, new, ht, next_of_step hsome⟩

/-- The move of a course leaves the mover where it is. -/
theorem mover_of_stepCourse (hs : w.scene.Sound) (hm : w.course? m = some (r, c))
    (hstep : w.stepCourse r c = some (progress, w₁)) :
    (∀ a, m = .runLoop a → (w₁.actor a).loop = (w.actor a).loop ∧ a < w₁.actors.length) ∧
      ∀ t task, m = .task t → w.task? t = some task → w₁.task? t = some task := by
  have hwaits : ∀ x, c.wait = some x → x ∈ w.waits m := fun x hx => by
    rw [waits_of_course? hm, hx]
    exact List.mem_singleton_self x
  obtain ⟨ms, d, _, hms⟩ :=
    deeds_stepCourse hs (fun x hx => (closed_of_waits hs (hwaits x hx)).1) hstep
  refine ⟨?_, ?_⟩
  · rintro a rfl
    have hsame := d.loop_eq (a := a) fun x hx heq => by
      obtain ⟨wait, hwait, hwa⟩ := (loop?_of_course hms x hx).1 a heq
      exact (closed_of_waits hs (hwaits wait hwait)).2 (by rw [hwa])
    have hloop : (w₁.actor a).loop = (w.actor a).loop := by
      rwa [lane_scene, lane_scene] at hsame
    obtain ⟨_, _, hinside⟩ := loop_of_course? hm
    exact ⟨hloop, lt_of_inside (hloop.trans hinside)⟩
  · rintro t task rfl ht
    exact d.lookup_eq (fun hx => (loop?_of_course hms _ hx).2 t rfl) ht

/-- A course that goes on is the one that its mover works on then. -/
theorem course?_of_goesOn (hs : w.scene.Sound) {c' : Course} (hm : w.course? m = some (r, c))
    (hstep : w.stepCourse r c = some (.goesOn c', w₁)) :
    (w.next (.move m)).course? m = some (r, c') := by
  obtain ⟨hloop, htask⟩ := mover_of_stepCourse hs hm hstep
  cases m with
  | runLoop a =>
    obtain ⟨rfl, h, hin⟩ := loop_of_course? hm
    rw [next_of_loop_goesOn hin hstep, course?, loop_release, loop_setLoop (hloop a rfl).2]
    rfl
  | task t =>
    obtain ⟨task, ht, _, _, ⟨b, k, rfl, rfl⟩ | ⟨k, rfl, rfl⟩⟩ := task_of_course? hm
    · rw [next_of_bypass_goesOn ht hstep, course?, task?_release, task?_setTask (htask t _ rfl ht)]
    · rw [next_of_errand_goesOn ht hstep, course?, task?_release, task?_setTask (htask t _ rfl ht)]
  | worker _ _ | grace _ => cases hm

theorem loop_setLoop_ne {b : ActorId} (hne : b ≠ a) (l : Loop) (w : World) :
    ((w.setLoop a l).actor b).loop = (w.actor b).loop := by
  rw [setLoop, onActor, actor, actor, List.getElem?_modify]
  cases w.actors[b]? <;> simp [Ne.symm hne]

/-- World `w₂` is `w₁` after mover `m` has gone on: what shows has at most been let go, `m` waits
for `waits` and has not ended, and the loops of the other actors are where they were. -/
structure GoesOn (w₁ w₂ : World) (m : Mover) (waits : List Wait) : Prop where
  letsGo : w₁.book.LetsGo w₂.book
  waits : w₂.waits m = waits
  lives : ∀ b, m = .runLoop b → (w₂.actor b).loop ≠ .ended
  others : ∀ b, m ≠ .runLoop b → (w₂.actor b).loop = (w₁.actor b).loop

variable {w₂ : World} {waits : List Wait}

theorem goesOn_setLoop {l : Loop} (hlt : a < w₁.actors.length) (hquiet : w₁.Discreet w₂)
    (hactors : w₂.actors = w₁.actors) (hl : l ≠ .ended)
    (hwaits : (l.course?.bind (·.wait)).toList = waits) :
    GoesOn w₁ (w₂.setLoop a l).release (.runLoop a) waits := by
  have hlt : a < w₂.actors.length := hactors ▸ hlt
  refine ⟨letsGo_of_release (hquiet.trans (discreet_setLoop ..)).book, ?_, ?_, ?_⟩
  · rw [waits_release, World.waits, loop_setLoop hlt, hwaits]
  · rintro b ⟨⟩
    rwa [loop_release, loop_setLoop hlt]
  · intro b hb
    rw [loop_release, loop_setLoop_ne (fun heq => hb (by rw [heq])), actor, actor, hactors]

theorem goesOn_task {t : TaskId} (hquiet : w₁.Discreet w₂) (hactors : w₂.actors = w₁.actors)
    (hwaits : w₂.waits (.task t) = waits) : GoesOn w₁ w₂.release (.task t) waits := by
  refine ⟨letsGo_of_release hquiet.book, (waits_release ..).trans hwaits, by simp, fun b _ => ?_⟩
  rw [loop_release, actor, actor, hactors]

theorem waits_setTask {t : TaskId} {old : Task} (ht : w.task? t = some old) (new : Task) :
    (w.setTask t new).waits (.task t) = new.waits := by
  rw [World.waits, task?_setTask ht]
  rfl

theorem waits_endTask (t : TaskId) (w : World) : (w.endTask t).waits (.task t) = [] := by
  rw [World.waits, task?_endTask]
  rfl

theorem goesOn_setTask {t : TaskId} {task new : Task} (ht : w₂.task? t = some task)
    (hquiet : w₁.Discreet w₂) (hactors : w₂.actors = w₁.actors) (hwaits : new.waits = waits) :
    GoesOn w₁ (w₂.setTask t new).release (.task t) waits :=
  goesOn_task (hquiet.trans (discreet_setTask ..)) hactors ((waits_setTask ht new).trans hwaits)

theorem goesOn_endTask (t : TaskId) (hquiet : w₁.Discreet w₂) (hactors : w₂.actors = w₁.actors) :
    GoesOn w₁ (w₂.endTask t).release (.task t) [] :=
  goesOn_task (hquiet.trans (discreet_endTask ..)) hactors (waits_endTask t w₂)

/-- **The move of a mover that works on a course**: what shows is what the move of the course shows,
and what the mover waits for is what the course is to wait for. -/
theorem next_of_course (hs : w.scene.Sound) (hm : w.course? m = some (r, c))
    (hstep : w.stepCourse r c = some (progress, w₁)) :
    GoesOn w₁ (w.next (.move m)) m progress.waits := by
  obtain ⟨hloops, htasks⟩ := mover_of_stepCourse hs hm hstep
  cases m with
  | runLoop a =>
    obtain ⟨rfl, h, hloop⟩ := loop_of_course? hm
    obtain ⟨_, hlt⟩ := hloops a rfl
    cases progress with
    | goesOn c' =>
      rw [next_of_loop_goesOn hloop hstep]
      exact goesOn_setLoop hlt (.refl _) rfl (by simp) (by simp [Loop.course?, Progress.waits])
    | ends ending =>
      rw [next_of_loop_ends hloop hstep]
      exact goesOn_setLoop hlt (discreet_finishOperation ..) (actors_finishOperation ..) (by simp)
        rfl
  | task t =>
    obtain ⟨task, ht, hc, -, hkind⟩ := task_of_course? hm
    have hold := htasks t task rfl ht
    rcases hkind with ⟨a, h, rfl, rfl⟩ | ⟨h, rfl, rfl⟩
    · cases progress with
      | goesOn c' =>
        rw [next_of_bypass_goesOn ht hstep]
        exact goesOn_setTask hold (.refl _) rfl rfl
      | ends ending =>
        rw [next_of_bypass_ends ht hstep]
        exact goesOn_endTask t (discreet_finishOperation ..) (actors_finishOperation ..)
    · cases progress with
      | goesOn c' =>
        rw [next_of_errand_goesOn ht hstep]
        exact goesOn_setTask hold (.refl _) rfl rfl
      | ends ending =>
        rw [next_of_errand_ends ht hstep]
        exact goesOn_endTask t (discreet_resolve ..) (actors_resolve ..)
  | worker _ _ | grace _ => cases hm

/-! ### The end of a wait -/

theorem actors_abortLoop (a : ActorId) (w : World) :
    (w.abortLoop a).actors = (w.onActor a fun actor => { actor with loop := .ended }).actors := by
  simp only [abortLoop, report]
  split <;> rfl

@[simp] theorem loop_finishClose (a b : ActorId) (w : World) :
    ((w.finishClose a).actor b).loop = (w.actor b).loop := by
  have := (deeds_finishClose a w).loop_eq (a := b) (by simp)
  rwa [lane_scene, lane_scene] at this

/-- A run loop that is no longer waited for has ended. -/
theorem loop_endWait {x : Wait} (hclosed : (w.actor x.actor).closed = true) :
    ((w.endWait x).actor x.actor).loop = .ended := by
  rw [endWait, loop_finishClose]
  split
  · rename_i hended
    cases hloop : (w.actor x.actor).loop with
    | ended => rfl
    | starting | idle | inside _ =>
      rw [loopEnded, hloop] at hended
      cases hended
  · rw [actor, actors_abortLoop, ← actor, actor_onActor_self w (lt_of_closed hclosed)]

end World

end Troupe
