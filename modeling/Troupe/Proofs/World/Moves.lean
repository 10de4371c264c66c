import Troupe.Proofs.World.Course
import Troupe.Proofs.World.Marks

/-!
# Moves, deed by deed

A move of a run loop or of a task ends with that run loop or task getting further; what comes
before it is done by the action that is performed. So the marks of a move fall in two parts, and
only the first one concerns anybody else.

## Main definitions

* `World.Concludes` — the marks of closes
* `World.Explains` — the marks that an act leaves on others
* `World.Turns` — the marks that a mover leaves on itself

## Main results

* `World.deeds_stepLoop`, `deeds_stepTask`, `deeds_expireGrace` — the moves
-/

namespace Troupe

namespace World

variable {w w' : World}

/-! ### Marks of acts -/

/-- The marks of closes: a mover shuts an actor, or completes a close that it waits for. -/
inductive Concludes (w : World) (m : Mover) : Mark → Prop where
  /-- An actor is shut. -/
  | shut (a : ActorId) : Concludes w m (.shut a)
  /-- The run loop of an actor is aborted. -/
  | aborted {wait : Wait} (h : wait ∈ w.waits m) : Concludes w m (.aborted wait.actor)

/-- The marks that an act leaves on others. -/
inductive Explains (w : World) (act : Act) : List Mark → Prop where
  /-- It sends something to an actor. -/
  | sends {a : ActorId} {h : HandleId} {r : Route} {ms : List Mark}
    (ht : w.target? act = some (a, h, r)) (hms : w.scene.Answers a h r ms) : Explains w act ms
  /-- A run loop begins with the next envelope. -/
  | enters {a : ActorId} {e : Envelope} {queue : List Envelope} (ht : w.target? act = none)
    (hact : act = .move (.runLoop a)) (hloop : (w.scene.lane a).loop = .idle)
    (hstop : (w.scene.lane a).stopping = false) (hqueue : (w.scene.lane a).queue = e :: queue) :
    Explains w act [.entered a e]
  /-- A run loop ends by itself. -/
  | quits {a : ActorId} (ht : w.target? act = none) (hact : act = .move (.runLoop a))
    (hloop : (w.scene.lane a).loop = .idle) (hstop : (w.scene.lane a).stopping = true) :
    Explains w act [.quit a]
  /-- It clears an actor. -/
  | clears {a : ActorId} (ht : w.target? act = none) (h : w.Clears act a) :
    Explains w act [.cleared a]
  /-- It closes actors, or completes a close. -/
  | closes {ms : List Mark} (ht : w.target? act = none)
    (hms : ∀ m ∈ ms, ∃ mover, act = .move mover ∧ w.Concludes mover m) : Explains w act ms
  /-- It takes the outcome of a handle that clients keep. -/
  | takes {name : String} {r : HandleRef} (ht : w.target? act = none)
    (hact : act = .call (.take name)) (hr : w.handleNamed name = .ok r) :
    Explains w act [Mark.ofTake r]
  /-- It submits a job of its own to a pool. -/
  | submits {p : PoolId} {owner : String} (ht : w.target? act = none)
    (howner : w.jobOwner? act = some owner) : Explains w act [.submitted p owner]
  /-- It makes a handle that is resolved from the beginning. -/
  | fails {h : HandleId} {o : Except ActorError Json} (ht : w.target? act = none) :
    Explains w act [.settled h o]

/-- The marks that a mover leaves on itself. A run loop between two envelopes leaves none, since all
that it does is explained. -/
def Turns (w : World) (m : Mover) (ms : List Mark) : Prop :=
  match m with
  | .runLoop a => (∀ x ∈ ms, x = .turned a) ∧ ((w.actor a).loop = .idle → ms = [])
  | .task t | .grace t => ∀ x ∈ ms, x = .stepped t
  | .worker p _ => ∀ x ∈ ms, x = .worked p

theorem Concludes.cases {m : Mover} {x : Mark} (h : w.Concludes m x) :
    (∃ a, x = .shut a) ∨ ∃ a, x = .aborted a := by
  cases h with
  | shut a => exact .inl ⟨a, rfl⟩
  | aborted _ => exact .inr ⟨_, rfl⟩

theorem Explains.quiet {act : Act} (ht : w.target? act = none) : w.Explains act [] :=
  .closes ht fun m hm => by cases hm

/-- An act that sends something to an actor does nothing else to others. -/
theorem Explains.answers {act : Act} {ms : List Mark} {a : ActorId} {h : HandleId} {r : Route}
    (hms : w.Explains act ms) (ht : w.target? act = some (a, h, r)) :
    w.scene.Answers a h r ms := by
  cases hms with
  | sends ht' hms =>
    cases ht.symm.trans ht'
    exact hms
  | enters ht' _ _ _ _ | quits ht' _ _ _ | clears ht' _ | closes ht' _ | takes ht' _ _
  | submits ht' _ | fails ht' => cases ht.symm.trans ht'

/-- An act that sends what is given. -/
theorem Explains.send {act : Act} {s : Send} {ms : List Mark}
    (ht : w.target? act = (w.destination s).map fun x => (x.1, w.channels.length, x.2))
    (hj : w.jobOwner? act = s.jobOwner?) (hd : w.Does ms (.send s)) : w.Explains act ms := by
  cases hdest : w.destination s with
  | none =>
    simp only [Does, hdest] at hd
    rw [hdest] at ht
    rcases hd with rfl | ⟨p, owner, howner, rfl⟩
    · exact .quiet ht
    · exact .submits ht (hj.trans howner)
  | some x =>
    simp only [Does, hdest] at hd
    rw [hdest] at ht
    exact .sends ht hd

/-- A course performs its next action. -/
theorem explains_of_does {m : Mover} {action : Action} {ms : List Mark}
    (ha : w.action? m = some action) (hd : w.Does ms action) : w.Explains (.move m) ms := by
  have closes : w.target? (.move m) = none → (∀ x ∈ ms, ∃ a, x = .shut a) →
      w.Explains (.move m) ms := fun ht hms => .closes ht fun x hx => by
      obtain ⟨a, rfl⟩ := hms x hx
      exact ⟨m, rfl, .shut a⟩
  cases action with
  | send s => exact .send (by simp only [target?, ha]) (by simp only [jobOwner?, ha]) hd
  | clear name =>
    have ht : w.target? (.move m) = none := by simp only [target?, ha]
    rcases hd with rfl | ⟨a, hname, rfl⟩
    · exact .quiet ht
    · exact .clears ht ⟨name, hname, .inr ⟨m, rfl, ha⟩⟩
  | effect _ | close _ | pending _ | alive _ | remove _ _ =>
    exact closes (by simp only [target?, ha]) hd

/-- A course waits, or performs its next action. -/
theorem explains_of_course {m : Mover} {c : Course} {ms : List Mark}
    (hc : w.action? m = c.action?) (hwaits : ∀ wait, c.wait = some wait → wait ∈ w.waits m)
    (hms : match c.action? with
      | some action => w.Does ms action
      | none => ∀ x ∈ ms, ∃ wait, c.wait = some wait ∧ x = .aborted wait.actor) :
    w.Explains (.move m) ms := by
  cases hact : c.action? with
  | some action =>
    rw [hact] at hms hc
    exact explains_of_does hc hms
  | none =>
    rw [hact] at hms hc
    refine .closes (by simp only [target?, hc]) fun x hx => ?_
    obtain ⟨wait, hwait, rfl⟩ := hms x hx
    exact ⟨m, rfl, .aborted (hwaits wait hwait)⟩

/-- An action concerns neither run loops nor tasks. -/
theorem loop?_of_does {ms : List Mark} {action : Action} (h : w.Does ms action) :
    ∀ m ∈ ms, m.loop? = none ∧ ∀ t, m ≠ .stepped t := by
  intro m hm
  cases action with
  | send s =>
    simp only [Does] at h
    cases hdest : w.destination s with
    | none =>
      rw [hdest] at h
      rcases h with rfl | ⟨p, owner, _, rfl⟩
      · cases hm
      · simp at hm
        simp [hm, Mark.loop?]
    | some x =>
      rw [hdest] at h
      cases h with
      | refused =>
        simp at hm
        simp [hm, Mark.loop?]
      | past _ _ => cases hm
      | admitted _ _ _ =>
        rcases Mark.mem_ofAdmission.mp hm with rfl | ⟨_, _, _, _, rfl⟩ <;> simp [Mark.loop?]
  | clear name =>
    rcases h with rfl | ⟨a, _, rfl⟩
    · cases hm
    · simp at hm
      simp [hm, Mark.loop?]
  | effect _ | close _ | pending _ | alive _ | remove _ _ =>
    obtain ⟨a, rfl⟩ := h m hm
    simp [Mark.loop?]

/-- A move of a course concerns no run loop but that of an actor it waits for, and no task. -/
theorem loop?_of_course {c : Course} {ms : List Mark}
    (hms : match c.action? with
      | some action => w.Does ms action
      | none => ∀ x ∈ ms, ∃ wait, c.wait = some wait ∧ x = .aborted wait.actor) :
    ∀ m ∈ ms, (∀ a, m.loop? = some a → ∃ wait, c.wait = some wait ∧ wait.actor = a) ∧
      ∀ t, m ≠ .stepped t := by
  intro m hm
  cases hact : c.action? with
  | some action =>
    rw [hact] at hms
    obtain ⟨hnone, hne⟩ := loop?_of_does hms m hm
    refine ⟨fun a ha => ?_, hne⟩
    rw [hnone] at ha
    cases ha
  | none =>
    rw [hact] at hms
    obtain ⟨wait, hwait, rfl⟩ := hms m hm
    refine ⟨fun a ha => ⟨wait, hwait, ?_⟩, fun t => by simp⟩
    simpa [Mark.loop?] using ha

/-! ### Run loops -/

theorem scene_setLoop (a : ActorId) (l : Loop) :
    (w.setLoop a l).scene = w.scene.onLane a fun lane => { lane with loop := l } :=
  scene_onActor fun _ => rfl

theorem scene_finishOperation (a : ActorId) (h : HandleId) (answer : Answer) (ending : Ending)
    (w : World) : (w.finishOperation a h answer ending).scene =
      w.scene.settleAll [h] (.full (answer.outcome ending)) := by
  cases ending <;> exact scene_resolve _ _

/-- A job whose outcome can be seen does not wait. -/
theorem not_queued_of_outcome (hs : w.scene.Sound) {p : PoolId} {j : JobId}
    {o : Except PoolError Json} (h : (w.pool p).outcome? j = some o) :
    j ∉ (w.scene.pool p).queuedIds := by
  intro hj
  rw [pool_scene] at hj
  by_cases hp : p < w.pools.length
  · have := Pool.outcome?_eq_none_iff.mpr ((reachable_pool hs hp).content_of_queued hj)
    rw [h] at this
    cases this
  · have hnone : w.pools[p]? = none := List.getElem?_eq_none (Nat.le_of_not_lt hp)
    simp only [pool, hnone, Option.getD_none] at hj
    cases hj

/-- The run loop of an actor begins with the next envelope. -/
theorem scene_enterNext {a : ActorId} {e : Envelope} {queue : List Envelope}
    (hqueue : (w.actor a).mailbox.queue = e :: queue) (h : w.enterNext a = some w') :
    w'.scene = w.scene.onLane a fun l => { l with queue, loop := .inside e.inside } := by
  have hscene : (w.onActor a fun actor => { actor with
      mailbox := { (w.actor a).mailbox with queue },
      loop := .inside e.inside }).scene = w'.scene := by
    simp only [enterNext, Mailbox.next, hqueue, Option.map_some, Option.some.injEq] at h
    subst h
    cases e <;> rfl
  rw [← hscene, scene_onActor (g := fun l => { l with
    queue, shut := (w.actor a).mailbox.closed, loop := .inside e.inside }) fun _ => rfl]
  refine Scene.onLane_congr ?_
  rw [lane_scene]
  rfl

/-- A run loop that is inside no operation sends nothing. -/
theorem target?_of_course?_eq_none {a : ActorId} (h : (w.actor a).loop.course? = none) :
    w.target? (.move (.runLoop a)) = none := by
  simp only [target?, action?, h, Option.bind_none]

/-- A run loop inside an operation performs what comes next, and is still inside of it then. -/
theorem deeds_operation (hs : w.scene.Sound) {a : ActorId} {h : HandleId} {c : Course}
    {progress : Progress} (hloop : (w.actor a).loop = .inside (.operation h c))
    (hstep : w.stepCourse (.runLoop a) c = some (progress, w')) :
    ∃ ms, Deeds ms w.scene w'.scene ∧ Sensible (.runLoop a) w' progress ∧
      w.Explains (.move (.runLoop a)) ms ∧
      (w'.scene.lane a).loop = .inside (.operation h c) := by
  have hinside : (w.scene.lane a).loop = .inside (.operation h c) := by
    rw [lane_scene]
    exact hloop
  have hwaits : ∀ wait, c.wait = some wait →
      (w.actor wait.actor).closed = true ∧ wait.actor ≠ a := by
    intro wait hwait
    have := hs.waits a wait (by simp only [Lane.wait?, hinside]; exact hwait)
    rwa [lane_scene] at this
  obtain ⟨ms, hdeeds, hsensible, hms⟩ :=
    deeds_stepCourse hs (fun wait hwait => (hwaits wait hwait).1) hstep
  refine ⟨ms, hdeeds, hsensible, explains_of_course (by simp only [action?, hloop]; rfl)
    (fun wait hwait => by simp [waits, hloop, Loop.course?, hwait]) hms, ?_⟩
  -- Nothing that the action does touches the run loop that it is on.
  rw [hdeeds.loop_eq fun m hm hm' => ?_, hinside]
  obtain ⟨wait, hwait, hwa⟩ := (loop?_of_course hms m hm).1 a hm'
  exact (hwaits wait hwait).2 hwa

/-- A relay that is done. -/
theorem deeds_relay (hs : w.scene.Sound) {a : ActorId} {h : HandleId} {p : PoolId} {j : JobId}
    (hloop : (w.actor a).loop = .inside (.relay h p j)) (hr : w.RelaySteps a h p j w') :
    Deeds [.turned a] w.scene w'.scene := by
  have hinside : (w.scene.lane a).loop = .inside (.relay h p j) := by
    rw [lane_scene]
    exact hloop
  cases hr with
  | passesOn ho =>
    rw [scene_setLoop, scene_resolve]
    refine (Deed.finish hinside (fun h' p' j' hi => ?_) _).deeds
    cases hi
    exact .inl (not_queued_of_outcome hs ho)
  | givesUp _ hstop =>
    rw [scene_setLoop, scene_deafen_job, scene_resolve]
    refine (Deed.pool p (.deafen j)).deeds.after (Deed.finish (s := w.scene.onPool p _)
      hinside (fun _ _ _ _ => .inr ?_) _).deeds
    show (w.scene.lane a).stopping = true
    rw [lane_scene]
    exact hstop

/-- **A run loop.** -/
theorem deeds_stepLoop (hs : w.scene.Sound) {a : ActorId} (h : w.stepLoop a = some w') :
    ∃ ms ns, Deeds (ms ++ ns) w.scene w'.scene ∧ w.Explains (.move (.runLoop a)) ms ∧
      w.Turns (.runLoop a) ns := by
  have turned : (w.actor a).loop ≠ .idle → w.Turns (.runLoop a) [.turned a] :=
    fun hne => ⟨by simp, fun hidle => absurd hidle hne⟩
  cases steps_of_stepLoop h with
  | starts hl =>
    refine ⟨[], [.turned a], ?_, .quiet (target?_of_course?_eq_none (by rw [hl]; rfl)),
      turned (by simp [hl])⟩
    rw [scene_setLoop, scene_report]
    exact (Deed.start (by rw [lane_scene]; exact hl)).deeds
  | quits hl hstop =>
    have ht := target?_of_course?_eq_none (w := w) (a := a) (by rw [hl]; rfl)
    exact ⟨[.quit a], [], by simpa using deeds_endLoop hl hstop,
      .quits ht rfl (by rw [lane_scene]; exact hl) (by rw [lane_scene]; exact hstop),
      by simp [Turns]⟩
  | enters hl hstop henter =>
    have ht := target?_of_course?_eq_none (w := w) (a := a) (by rw [hl]; rfl)
    have hidle : (w.scene.lane a).loop = .idle := by rw [lane_scene]; exact hl
    have hgoes : (w.scene.lane a).stopping = false := by rw [lane_scene]; exact hstop
    cases hqueue : (w.actor a).mailbox.queue with
    | nil => simp [enterNext, Mailbox.next, hqueue] at henter
    | cons e queue =>
      have hq : (w.scene.lane a).queue = e :: queue := by rw [lane_scene]; exact hqueue
      refine ⟨[.entered a e], [], ?_, .enters ht rfl hidle hgoes hq, by simp [Turns]⟩
      rw [scene_enterNext hqueue henter]
      simpa using (Deed.enter hidle hgoes hq).deeds
  | goesOn hl hc =>
    obtain ⟨ms, hdeeds, hsensible, hms, hsame⟩ := deeds_operation hs hl hc
    refine ⟨ms, [.turned a], hdeeds.trans ?_, hms, turned (by simp [hl])⟩
    rw [scene_setLoop]
    refine (Deed.proceed hsame fun wait hwait => ?_).deeds
    obtain ⟨hclosed, hne⟩ := hsensible wait hwait
    rw [lane_scene]
    exact ⟨hclosed, fun heq => hne (by rw [heq]; rfl)⟩
  | ends hl hc =>
    obtain ⟨ms, hdeeds, -, hms, hsame⟩ := deeds_operation hs hl hc
    refine ⟨ms, [.turned a], hdeeds.trans ?_, hms, turned (by simp [hl])⟩
    rw [scene_setLoop, scene_finishOperation]
    exact (Deed.finish hsame (fun h p j hi => by cases hi) _).deeds
  | relays hl hr =>
    exact ⟨[], [.turned a], deeds_relay hs hl hr,
      .quiet (target?_of_course?_eq_none (by rw [hl]; rfl)), turned (by simp [hl])⟩

/-! ### Tasks -/

theorem closed_of_deeds {ms : List Mark} (d : Deeds ms w.scene w'.scene) {a : ActorId}
    (h : (w.actor a).closed = true) : (w'.actor a).closed = true := by
  have := (Scene.Grows.of_deeds d).closed (a := a) (by rw [lane_scene]; exact h)
  rwa [lane_scene] at this

theorem lt_of_deeds {ms : List Mark} (d : Deeds ms w.scene w'.scene) {a : ActorId}
    (h : a < w.actors.length) : a < w'.actors.length := by
  have := (Scene.Grows.of_deeds d).lanes
  rw [length_lanes_scene, length_lanes_scene] at this
  exact Nat.lt_of_lt_of_le h this

theorem deeds_setTask {t : TaskId} {old new : Task} (ht : w.scene.tasks.lookup t = some old)
    (hh : new.handle = old.handle) (hw : ∀ wait ∈ new.waits, (w.actor wait.actor).closed = true)
    (hk : ∀ a, new.holdsActor a = true → old.holdsActor a = true) :
    Deeds [.stepped t] w.scene (w.setTask t new).scene := by
  refine (Deed.setTask ht hh (fun wait hwait => ?_) hk).deeds
  rw [lane_scene]
  exact hw wait hwait

theorem deeds_endTask {t : TaskId} {task : Task} (ht : w.scene.tasks.lookup t = some task)
    (o : Except ActorError Json) :
    Deeds [.stepped t] w.scene ((w.resolve task.handle o).endTask t).scene := by
  rw [scene_endTask, scene_resolve]
  exact (Deed.endTask ht o).deeds

/-- Closing several actors, up to the waits. -/
theorem deeds_beginCloses (actors : List ActorId) (hs : w.scene.Sound)
    (ha : ∀ a ∈ actors, a < w.actors.length) :
    ∃ ms, Deeds ms w.scene (w.beginCloses actors).2.scene ∧ (∀ m ∈ ms, ∃ a, m = .shut a) ∧
      (∀ wait ∈ (w.beginCloses actors).1,
        ((w.beginCloses actors).2.actor wait.actor).closed = true) ∧
      ∀ a ∈ actors, ((w.beginCloses actors).2.actor a).closed = true := by
  induction actors generalizing w with
  | nil => exact ⟨[], .refl _, by simp, (fun wait hw => by cases hw), fun a ha => by cases ha⟩
  | cons a actors ih =>
    have hlt := ha a List.mem_cons_self
    obtain ⟨ms, hfirst, hms, hwait⟩ := deeds_beginClose hs hlt none none
    obtain ⟨ns, hrest, hns, hwaits, hclosed⟩ := ih (hs.deeds hfirst) fun b hb =>
      lt_of_deeds hfirst (ha b (List.mem_cons_of_mem _ hb))
    refine ⟨ms ++ ns, hfirst.trans hrest, fun m hm => ?_, fun wait hw => ?_, fun b hb => ?_⟩
    · exact (List.mem_append.mp hm).elim (fun hm => ⟨a, hms m hm⟩) (hns m)
    · rcases List.mem_append.mp hw with hw | hw
      · exact closed_of_deeds hrest (hwait wait (Option.mem_toList.mp hw)).1
      · exact hwaits wait hw
    · rcases List.mem_cons.mp hb with rfl | hb
      · exact closed_of_deeds hrest (closed_beginClose hs hlt none none)
      · exact hclosed b hb

/-- A termination begins. -/
theorem deeds_beginTermination (hs : w.scene.Sound) (s : SystemId) :
    ∃ ms, Deeds ms w.scene (w.beginTermination s).2.scene ∧ (∀ m ∈ ms, ∃ a, m = .shut a) ∧
      (∀ wait ∈ (w.beginTermination s).1,
        ((w.beginTermination s).2.actor wait.actor).closed = true) ∧
      ∀ x ∈ (w.system s).registry.entries,
        ((w.beginTermination s).2.actor x.2.actor).closed = true := by
  set w₁ := (w.report (.terminating (w.system s).name)).onSystem s fun system =>
    { system with terminated := true, registry := {} } with hw₁
  have hforget : Deeds [] w.scene w₁.scene :=
    deeds_onSystem_forget (fun _ => List.nil_subset _) (fun _ => rfl) fun _ => rfl
  have hlt : ∀ a ∈ (w.system s).registry.entries.map (·.2.actor), a < w₁.actors.length :=
    lt_of_entries hs s
  obtain ⟨ms, hdeeds, hms, hwaits, hclosed⟩ := deeds_beginCloses
    (w := w₁.report (.closingActors (w.system s).registry.entries.length)) _
    (hs.deeds hforget) hlt
  exact ⟨ms, hforget.after hdeeds, hms, hwaits, fun x hx => hclosed _ (List.mem_map_of_mem hx)⟩

theorem deeds_stopPools (pools : List PoolId) (w : World) :
    Deeds [] w.scene (w.stopPools pools).scene := by
  induction pools generalizing w with
  | nil => exact .refl _
  | cons p pools ih =>
    have hfirst : Deeds [] w.scene (w.stopPool p).scene := by
      rw [scene_stopPool]
      exact (Deed.pool p .shutdown).deeds
    exact hfirst.after (ih _)

/-- A termination gets further. -/
theorem deeds_stepTermination (hs : w.scene.Sound) {t : TaskId} {h : HandleId} {s : SystemId}
    {stage : Stage} (ht : w.task? t = some (.termination h s stage))
    (hstep : w.TerminationSteps t h s stage w') :
    ∃ ms, Deeds (ms ++ [.stepped t]) w.scene w'.scene ∧ ∀ m ∈ ms, w.Concludes (.task t) m := by
  -- The task gets further, or it ends.
  have goesOn : ∀ {w₁ : World} {ms : List Mark} {stage' : Stage}, Deeds ms w.scene w₁.scene →
      .stepped t ∉ ms → (∀ wait ∈ (Task.termination h s stage').waits,
        (w₁.actor wait.actor).closed = true) →
      Deeds (ms ++ [.stepped t]) w.scene (w₁.setTask t (.termination h s stage')).scene := by
    intro w₁ ms stage' d hne hwaits
    exact d.trans (deeds_setTask (d.lookup_eq hne ht) rfl hwaits fun a ha => ha)
  have ends : ∀ {w₁ : World}, Deeds [] w.scene w₁.scene →
      Deeds [.stepped t] w.scene ((w₁.resolve h (.ok .null)).endTask t).scene := by
    intro w₁ d
    exact d.trans (deeds_endTask (d.lookup_eq (by simp) ht) (.ok .null))
  have hwaits : ∀ wait ∈ (Task.termination h s stage).waits,
      (w.actor wait.actor).closed = true := by
    intro wait hw
    have := hs.taskWaits _ (Scene.mem_of_lookup ht) wait hw
    rwa [lane_scene] at this
  cases hstep with
  | tooLate _ | ends => exact ⟨[], ends (.refl _), by simp⟩
  | begins _ =>
    obtain ⟨ms, hdeeds, hms, hwaits, _⟩ := deeds_beginTermination hs s
    refine ⟨ms, goesOn hdeeds (fun hm => ?_) hwaits, fun m hm => ?_⟩
    · obtain ⟨a, ha⟩ := hms _ hm
      cases ha
    · obtain ⟨a, rfl⟩ := hms m hm
      exact .shut a
  | stopsPools =>
    exact ⟨[], goesOn (deeds_stopPools _ w) (by simp) (fun wait hw => by cases hw), by simp⟩
  | @completes pending x hx =>
    have hmem := List.mem_of_find?_eq_some hx
    obtain ⟨ms, hdeeds, hms⟩ := deeds_endWait (hwaits x hmem)
    refine ⟨ms, goesOn hdeeds (fun hm => ?_) (fun wait hw => ?_), fun m hm => ?_⟩
    · cases hms _ hm
    · exact closed_of_deeds hdeeds (hwaits wait (List.mem_filter.mp hw).1)
    · rw [hms m hm]
      refine .aborted ?_
      rw [World.waits, ht]
      exact hmem
  | drains _ =>
    exact ⟨[], goesOn (.refl _) (by simp) (fun wait hw => by cases hw), by simp⟩

/-- A course on behalf of a task leaves the task where it is. -/
theorem deeds_errand (hs : w.scene.Sound) {t : TaskId} {task : Task} {r : Runner} {c : Course}
    {progress : Progress} (ht : w.task? t = some task) (hc : task.course? = some c)
    (hwait : ∀ wait, c.wait = some wait → wait ∈ task.waits)
    (hstep : w.stepCourse r c = some (progress, w')) :
    ∃ ms, Deeds ms w.scene w'.scene ∧ Sensible r w' progress ∧
      w.Explains (.move (.task t)) ms ∧ w'.scene.tasks.lookup t = some task := by
  have taskWaits : ∀ wait ∈ task.waits, (w.actor wait.actor).closed = true := by
    intro wait hw
    have := hs.taskWaits _ (Scene.mem_of_lookup ht) wait hw
    rwa [lane_scene] at this
  obtain ⟨ms, hdeeds, hsensible, hms⟩ :=
    deeds_stepCourse hs (fun wait hw => taskWaits wait (hwait wait hw)) hstep
  refine ⟨ms, hdeeds, hsensible, explains_of_course ?_ (fun wait hw => ?_) hms,
    hdeeds.lookup_eq (fun hm => ?_) ht⟩
  · simp only [action?, ht, Option.bind_some, hc]
  · rw [waits, ht]
    exact hwait wait hw
  · exact (loop?_of_course hms _ hm).2 t rfl

/-- **A task.** -/
theorem deeds_stepTask (hs : w.scene.Sound) {t : TaskId} (h : w.stepTask t = some w') :
    ∃ ms ns, Deeds (ms ++ ns) w.scene w'.scene ∧ w.Explains (.move (.task t)) ms ∧
      w.Turns (.task t) ns := by
  have noCourse : ∀ {task}, w.task? t = some task → task.course? = none →
      w.target? (.move (.task t)) = none := by
    intro task ht hc
    simp only [target?, action?, ht, Option.bind_some, hc, Option.bind_none]
  have hturns : w.Turns (.task t) [.stepped t] := by simp [Turns]
  cases steps_of_stepTask h with
  | bypassGoesOn ht hc | errandGoesOn ht hc =>
    obtain ⟨ms, hdeeds, hsensible, hms, hlookup⟩ :=
      deeds_errand hs ht rfl (fun wait hw => by simp [Task.waits, hw]) hc
    refine ⟨ms, [.stepped t], hdeeds.trans ?_, hms, hturns⟩
    exact deeds_setTask hlookup rfl
      (fun wait hw => (hsensible wait (by simpa [Task.waits] using hw)).1) fun a ha => ha
  | bypassEnds ht hc =>
    obtain ⟨ms, hdeeds, -, hms, hlookup⟩ :=
      deeds_errand hs ht rfl (fun wait hw => by simp [Task.waits, hw]) hc
    refine ⟨ms, [.stepped t], hdeeds.trans ?_, hms, hturns⟩
    rw [scene_endTask, scene_finishOperation]
    exact (Deed.endTask hlookup _).deeds
  | errandEnds ht hc =>
    obtain ⟨ms, hdeeds, -, hms, hlookup⟩ :=
      deeds_errand hs ht rfl (fun wait hw => by simp [Task.waits, hw]) hc
    refine ⟨ms, [.stepped t], hdeeds.trans ?_, hms, hturns⟩
    rw [scene_endTask, scene_resolve]
    exact (Deed.endTask hlookup _).deeds
  | replies ht _ => exact ⟨[], [.stepped t], deeds_endTask ht _, .quiet (noCourse ht rfl), hturns⟩
  | terminates ht hw =>
    obtain ⟨ms, hdeeds, hms⟩ := deeds_stepTermination hs ht hw
    exact ⟨ms, _, hdeeds, .closes (noCourse ht rfl) fun m hm => ⟨_, rfl, hms m hm⟩, hturns⟩

/-- **The end of a grace period.** -/
theorem deeds_expireGrace {t : TaskId} (h : w.expireGrace t = some w') :
    Deeds [.stepped t] w.scene w'.scene := by
  rw [expireGrace] at h
  split at h
  · rename_i hd s p pools ht
    split at h
    · cases h
    · cases h
      have hempty : Deeds [] w.scene (w.emptyPool p).2.scene := by
        rw [scene_emptyPool]
        exact (Deed.pool p .shutdownNow).deeds
      have hset : Deeds [.stepped t] (w.emptyPool p).2.scene
          ((w.emptyPool p).2.setTask t (.termination hd s (.draining pools))).scene :=
        deeds_setTask (hempty.lookup_eq (by simp) ht) rfl (fun wait hw => by cases hw)
          fun a ha => ha
      exact hempty.trans hset
  · cases h

end World

end Troupe
