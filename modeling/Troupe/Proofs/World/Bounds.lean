import Troupe.Proofs.World.Resolutions
import Troupe.Proofs.World.Terminations

/-!
# How long closes last

A close waits for nothing but the ordered operation that its actor was inside of when it was closed.
Whatever else the run loop may be doing gives way: a run loop that is to stop does not wait for the
job of a relay, and begins with nothing. And a close waits up to its limit only, where it aborts the
run loop. So nobody is held up by a close beyond that, whatever operations do, be it that they close
their own actors, or that several of them wait for each other in a cycle.

The limit comes with the close timeout, and a close lasts until the clock has moved past it. Time
passes in whole milliseconds, so a timeout counts in whole milliseconds, too, and a close without
any still waits for the next one.

## Main definitions

* `World.IsEarly` — no more than the close timeout has passed
* `World.InProgress` — a close that somebody waits for
* `Task.Shuts`, `World.Serves` — the tasks of clients who close something, and what becomes of them
* `World.Requests` — what such clients ask for
* `World.Expired` — it is not early for any close of a mover
* `World.Bounded` — whom a close holds up, and how long

## Main results

* `World.running_of_closes`, `World.origin_of_inside` — what a closed actor is inside of, it was
  inside of when it was closed
* `World.inProgress_of_waits` — where nothing moves, every close that is waited for is in progress
* `World.serves_run` — the task of a client goes on until its handle is resolved
* `World.closes_bounded` — no close holds up anybody beyond its close timeout
-/

namespace Troupe

namespace World

variable {w w' : World} {act : Act} {a : ActorId} {m : Mover} {k : HandleId}

/-! ### Time -/

/-- From a world up to some time, at most the close timeout of an actor passes, the last millisecond
of which counts in full. -/
def IsEarly (w : World) (a : ActorId) (time : Nat) : Prop :=
  time - w.clock ≤ (w.actor a).settings.closeTimeout.ceilMillis

/-- It is early up to the limit. -/
theorem isEarly_iff {time : Nat} : w.IsEarly a time ↔ time ≤ w.limit a := by
  rw [IsEarly, limit, Nat.sub_le_iff_le_add']

/-! ### Waits where nothing moves -/

theorem Quiet.step_eq_none_of_waits (hq : w.Quiet) {x : Wait} (hx : x ∈ w.waits m) :
    w.step m = none := by
  cases m with
  | runLoop a =>
    have hloop : (w.actor a).loop ≠ .starting := by
      intro hloop
      rw [waits, hloop] at hx
      cases hx
    rw [step, hq.loop a (lt_of_loop hloop)]
    rfl
  | task t =>
    cases ht : w.task? t with
    | none =>
      rw [waits, ht] at hx
      cases hx
    | some task =>
      rw [step, hq.task t task ht]
      rfl
  | worker _ _ | grace _ => cases hx

/-- Where nothing moves, no wait is over. -/
theorem Quiet.isOver_eq_false (hq : w.Quiet) {x : Wait} (hx : x ∈ w.waits m) :
    w.isOver x = false := by
  have hends := endsWait_of_waits hx
  rw [hq.step_eq_none_of_waits hx] at hends
  cases hends with
  | stuck h => exact h x hx

/-- **Whoever waits where nothing moves** waits for an ordered operation, and not for long. -/
theorem Quiet.operation_of_waits {acts : List Act} (hq : (run acts).Quiet) {x : Wait}
    (hx : x ∈ (run acts).waits m) : (run acts).clock ≤ x.deadline ∧
      ∃ h c, ((run acts).actor x.actor).loop = .inside (.operation h c) := by
  have hs := sound_run acts
  have hclosed := (closed_of_waits hs hx).1
  have hstop := stopping_run acts (.inl hclosed)
  obtain ⟨hlives, hearly⟩ :
      (run acts).loopEnded x.actor = false ∧ (run acts).clock ≤ x.deadline := by
    simpa [isOver] using hq.isOver_eq_false hx
  have hstuck := hq.loop x.actor (lt_of_closed hclosed)
  refine ⟨hearly, ?_⟩
  rw [stepLoop] at hstuck
  cases hloop : ((run acts).actor x.actor).loop with
  | starting => simp [hloop] at hstuck
  | idle => simp [hloop, hstop] at hstuck
  | inside i =>
    cases i with
    | operation h c => exact ⟨h, c, rfl⟩
    | relay h p j =>
      obtain ⟨hgoes, -⟩ := hq.detained hs hloop
      cases hstop.symm.trans hgoes
  | ended => simp [loopEnded, hloop, Loop.hasEnded] at hlives

/-! ### What a close finds -/

/-- Every actor that is closed was closed by some act. -/
theorem closes_of_closed (acts : List Act) (hclosed : ((run acts).actor a).closed = true) :
    ∃ before act later, acts = before ++ act :: later ∧ (run before).Closes act a := by
  induction acts using List.reverseRecOn with
  | nil => cases hclosed
  | append_singleton acts act ih =>
    by_cases hold : ((run acts).actor a).closed = true
    · obtain ⟨before, act', later, rfl, h⟩ := ih hold
      exact ⟨before, act', later ++ [act], by simp, h⟩
    · exact ⟨acts, act, [], rfl, by simpa using hold, by rwa [← run_concat]⟩

/-- Nothing is begun any more. -/
theorem started_of_closes (before later : List Act) (h : (run before).Closes act a) :
    started a (before ++ act :: later) = started a before := by
  induction later using List.reverseRecOn with
  | nil =>
    rw [started, record_concat, starts_of_closes (sound_run before) h, List.append_nil]
    rfl
  | append_singleton later act' ih =>
    rw [← List.cons_append, ← List.append_assoc, started, record_concat,
      starts_of_closed (sound_run _) (closed_of_closes before later h), List.append_nil]
    exact ih

/-- **What a closed actor is inside of**, it was inside of when it was closed. -/
theorem running_of_closes (before later : List Act) (h : (run before).Closes act a)
    (hk : (run (before ++ act :: later)).running? a = some k) :
    (run before).running? a = some k := by
  have hstarted : k ∈ started a (before ++ act :: later) := by
    rw [(log_run a _).current, hk]
    simp
  rw [started_of_closes before later h] at hstarted
  have hempty : (run (before ++ act :: later)).scene.content k = .empty := by
    obtain ⟨i, hloop, rfl⟩ := running?_eq_some.mp hk
    exact content_of_inside (sound_run _) hloop
  have hmade := (log_run a before).made k
    ((log_run a before).order.subset (List.mem_append_left _ hstarted))
  exact (log_run a before).running hstarted (empty_before before (act :: later) hmade hempty)

/-- A relay that was entered before is not an operation afterwards. -/
theorem origin_of_inside (before later : List Act) (h : (run before).Closes act a) {c : Course}
    (hloop : ((run (before ++ act :: later)).actor a).loop = .inside (.operation k c)) :
    ∃ c', ((run before).actor a).loop = .inside (.operation k c') := by
  have hs := sound_run (before ++ act :: later)
  have hk : (run (before ++ act :: later)).running? a = some k := by rw [running?, hloop]; rfl
  obtain ⟨i, hold, hi⟩ := running?_eq_some.mp (running_of_closes before later h hk)
  cases i with
  | operation k' c' =>
    obtain rfl : k' = k := hi
    exact ⟨c', hold⟩
  | relay k' p j =>
    obtain rfl : k' = k := hi
    have hempty : (run (before ++ act :: later)).scene.content k' = .empty :=
      content_of_inside hs hloop
    have hescorted := (tagged_run before).2 a k' p j (.inl (by rw [lane_scene]; exact hold))
    have hlater := keep_run (P := fun s => s.Escorted a k' p j) (fun _ d he => he.deed d) before
      (act :: later) hescorted
    have hplaced := hlater.placed hempty
    rw [lane_scene] at hplaced
    rcases hplaced with hinside | hqueue
    · cases hloop.symm.trans hinside
    · have hnil : ((run (before ++ act :: later)).actor a).lane.queue = [] :=
        queue_of_closed hs (closed_of_closes before later h)
      rw [hnil] at hqueue
      cases hqueue

/-- A close that somebody waits for: the run loop is inside of the ordered operation that it was
inside of before, and it is early. -/
structure InProgress (before acts : List Act) (a : ActorId) : Prop where
  /-- The operation was running when the actor was closed, and still is. -/
  running : ∃ h c c', ((run before).actor a).loop = .inside (.operation h c) ∧
    ((run acts).actor a).loop = .inside (.operation h c')
  /-- No more than the close timeout has passed. -/
  early : (run before).IsEarly a (run acts).clock

/-- **Whoever waits for an actor** has closed it, and the close is in progress. -/
theorem inProgress_of_waits (acts : List Act) (hq : (run acts).Quiet) {x : Wait}
    (hx : x ∈ (run acts).waits m) : ∃ before later, acts = before ++ .move m :: later ∧
      (run before).Closes (.move m) x.actor ∧ InProgress before acts x.actor := by
  obtain ⟨hearly, h, c, hloop⟩ := hq.operation_of_waits hx
  obtain ⟨before, act, later, rfl, hcloses⟩ :=
    closes_of_closed acts (closed_of_waits (sound_run acts) hx).1
  obtain ⟨rfl, -, hdue⟩ := wait_of_closes before later hcloses hx
  obtain ⟨c', hold⟩ := origin_of_inside before later hcloses hloop
  exact ⟨before, later, rfl, hcloses, ⟨h, c', c, hold, hloop⟩, isEarly_iff.mpr (hdue ▸ hearly)⟩

/-! ### The tasks of clients -/

/-- An operation that something is told to is resolved, then or before. -/
theorem outcome?_resolve_ne_none (h : HandleId) (o : Except ActorError Json) (w : World) :
    (w.resolve h o).outcome? h ≠ none := by
  rw [ne_eq, outcome?_eq_none_iff, scene_resolve, Scene.content_settleAll,
    if_pos (List.mem_singleton_self h)]
  cases w.scene.content h <;> simp [Content.settle]

end World

/-- The task of a client who closes something, with its handle, and the system that is terminated if
it is a termination. Any other has one action to do at most, which can be done at once. -/
inductive Task.Shuts (h : HandleId) : Option SystemId → Task → Prop where
  /-- A close or a removal. -/
  | errand {c : Course} (hc : c.rest = [] ∨ c.wait = none ∧ ∃ action, c.rest = [action] ∧
      ∀ e, action ≠ .effect e) : Shuts h none (.errand h c)
  /-- A termination. -/
  | termination {s : SystemId} {stage : Stage} : Shuts h (some s) (.termination h s stage)

namespace World

variable {w : World} {act : Act} {a : ActorId} {m : Mover} {h : HandleId} {t : TaskId}
  {system? : Option SystemId}

/-- The task of a client goes on, or its handle is resolved. -/
def Serves (w : World) (t : TaskId) (h : HandleId) (system? : Option SystemId) : Prop :=
  (∃ task, w.task? t = some task ∧ task.Shuts h system?) ∨ w.outcome? h ≠ none

theorem serves_errand (hs : w.scene.Sound) {c : Course} (ht : w.task? t = some (.errand h c))
    (hc : c.rest = [] ∨ c.wait = none ∧ ∃ action, c.rest = [action] ∧ ∀ e, action ≠ .effect e) :
    (w.next (.move (.task t))).Serves t h none := by
  have hm : w.course? (.task t) = some (.client, c) := by rw [course?, ht]
  cases hstep : w.stepCourse .client c with
  | none =>
    rw [next_of_stuck (by simp [step, stepTask, ht, hstep])]
    exact .inl ⟨_, ht, .errand hc⟩
  | some x =>
    obtain ⟨progress, w₁⟩ := x
    have ht₁ := (mover_of_stepCourse hs hm hstep).2 t _ rfl ht
    cases progress with
    | goesOn c' =>
      rw [next_of_errand_goesOn ht hstep]
      refine .inl ⟨.errand h c', by rw [task?_release, task?_setTask ht₁], .errand (.inl ?_)⟩
      rcases stepCourse_cases hstep with ⟨_, hgo, hrest, -⟩ | ⟨_, _, _, hend, -⟩ | ⟨hend, -⟩
      · cases hgo
        rcases hc with hnil | ⟨hwait, action, hone, -⟩
        · rw [hnil] at hrest
          exact (List.append_eq_nil_iff.mp hrest.symm).2
        · have haction : c.action? = some action := Course.action?_of_cons hwait hone
          rw [hone, haction] at hrest
          simpa using hrest
      · cases hend
      · cases hend
    | ends ending =>
      have hsame : (w.next (.move (.task t))).channels =
          (w₁.resolve h (c.answer.outcome ending)).channels := by
        rw [next_of_errand_ends ht hstep]; rfl
      rw [Serves, outcome?_of_channels hsame]
      exact .inr (outcome?_resolve_ne_none h _ w₁)

theorem serves_termination (hs : w.scene.Sound) {s : SystemId} {stage : Stage}
    (ht : w.task? t = some (.termination h s stage)) :
    (w.next (.move (.task t))).Serves t h (some s) := by
  have goes : ∀ {w₁ : World} {stage' : Stage},
      w.next (.move (.task t)) = (w₁.setTask t (.termination h s stage')).release →
      w₁.task? t = some (.termination h s stage) →
      (w.next (.move (.task t))).Serves t h (some s) := by
    intro w₁ stage' hnext ht₁
    rw [hnext]
    exact .inl ⟨_, by rw [task?_release, task?_setTask ht₁], .termination⟩
  have ends : ∀ {w₁ : World} {o : Except ActorError Json},
      w.next (.move (.task t)) = ((w₁.resolve h o).endTask t).release →
      (w.next (.move (.task t))).Serves t h (some s) := by
    intro w₁ o hnext
    have hsame : (w.next (.move (.task t))).channels = (w₁.resolve h o).channels := by
      rw [hnext]; rfl
    rw [Serves, outcome?_of_channels hsame]
    exact .inr (outcome?_resolve_ne_none h o w₁)
  cases hstep : w.stepTermination t h s stage with
  | none =>
    rw [next_of_stuck (by simp [step, stepTask, ht, hstep])]
    exact .inl ⟨_, ht, .termination⟩
  | some w' =>
    have hnext : w.next (.move (.task t)) = w'.release :=
      next_of_stepTask (by simp [stepTask, ht, hstep])
    cases steps_of_stepTermination hstep with
    | tooLate _ | ends => exact ends hnext
    | begins _ =>
      obtain ⟨_, d, hms, -⟩ := deeds_beginTermination hs s
      exact goes hnext (d.lookup_eq (fun hm => by obtain ⟨_, ha⟩ := hms _ hm; cases ha) ht)
    | stopsPools => exact goes hnext (by rw [task?, tasks_stopPools]; exact ht)
    | completes _ => exact goes hnext (by rw [task?, tasks_endWait]; exact ht)
    | drains _ => exact goes hnext ht

/-- The end of a grace period ends no task. -/
theorem serves_grace {task : Task} (ht : w.task? t = some task) (hshuts : task.Shuts h system?) :
    (w.next (.move (.grace t))).Serves t h system? := by
  have stuck : w.expireGrace t = none → (w.next (.move (.grace t))).Serves t h system? := by
    intro hnone
    rw [next_of_stuck (by simp [step, hnone])]
    exact .inl ⟨task, ht, hshuts⟩
  cases hshuts with
  | errand _ => exact stuck (by simp [expireGrace, ht])
  | @termination s stage =>
    cases stage with
    | starting | closing _ => exact stuck (by simp [expireGrace, ht])
    | draining pools =>
      cases pools with
      | nil => exact stuck (by simp [expireGrace, ht])
      | cons p pools =>
        cases hterm : (w.pool p).isTerminated with
        | true => exact stuck (by simp [expireGrace, ht, hterm])
        | false => exact .inl ⟨_, (next_of_expires ht hterm).2, .termination⟩

/-- **The task of a client** goes on until its handle is resolved. -/
theorem serves_next (hs : w.scene.Sound) (hlt : h < w.channels.length)
    (hserves : w.Serves t h system?) (act : Act) : (w.next act).Serves t h system? := by
  rcases hserves with ⟨task, ht, hshuts⟩ | hresolved
  · by_cases htask : act = .move (.task t)
    · subst htask
      cases hshuts with
      | errand hc => exact serves_errand hs ht hc
      | termination => exact serves_termination hs ht
    by_cases hgrace : act = .move (.grace t)
    · exact hgrace ▸ serves_grace ht hshuts
    · exact .inl ⟨task, task_next hs ht ⟨htask, hgrace⟩, hshuts⟩
  · obtain ⟨_, d, _⟩ := fits_next hs act
    refine .inr fun hnone => hresolved (outcome?_eq_none_iff.mpr ?_)
    rw [outcome?_eq_none_iff] at hnone
    by_contra hne
    exact (Scene.Grows.of_deeds d).resolved h (by simpa using hlt) hne hnone

theorem serves_run (before later : List Act) (hlt : h < (run before).channels.length)
    (hserves : (run before).Serves t h system?) : (run (before ++ later)).Serves t h system? := by
  induction later using List.reverseRecOn with
  | nil => rwa [List.append_nil]
  | append_singleton later act ih =>
    have hmade := (grows_run before later).contents
    simp only [length_contents_scene] at hmade
    rw [← List.append_assoc, run_concat]
    exact serves_next (sound_run _) (Nat.lt_of_lt_of_le hlt hmade) ih act

/-- **Where nothing moves**, the task of a client that waits for nobody is over, or it is a
termination that drains pools. -/
theorem Serves.settled (hq : w.Quiet) (hserves : w.Serves t h system?)
    (hidle : w.waits (.task t) = []) : w.outcome? h ≠ none ∨ ∃ s pools,
      system? = some s ∧ w.task? t = some (.termination h s (.draining pools)) := by
  rcases hserves with ⟨task, ht, hshuts⟩ | hresolved
  · have hstuck := hq.task t task ht
    rw [waits, ht] at hidle
    simp only [stepTask, ht, Option.bind_some] at hstuck
    cases hshuts with
    | @errand c hc =>
      replace hstuck := Option.map_eq_none_iff.mp hstuck
      rcases stepCourse_eq_none hstuck with ⟨x, hwait, -⟩ | ⟨g, hgate, -⟩
      · simp [Task.waits, hwait] at hidle
      · -- The action that is left would not be held up.
        rcases hc with hnil | ⟨hwait, action, hone, heffect⟩
        · simp [Course.action?, hnil] at hgate
          split at hgate <;> cases hgate
        · simp only [Course.action?, hwait, hone, List.head?_cons, Option.some.injEq] at hgate
          exact absurd hgate (heffect _)
    | @termination s stage =>
      cases stage with
      | starting =>
        simp only [stepTermination] at hstuck
        split at hstuck <;> cases hstuck
      | closing pending =>
        cases pending with
        | nil => cases hstuck
        | cons x pending => cases hidle
      | draining pools => exact .inr ⟨s, pools, rfl, ht⟩
  · exact .inl hresolved

/-- What a client may ask for that closes something, and the system that is terminated if it is a
termination. -/
inductive Requests (w : World) : Call → Option SystemId → Prop where
  /-- That an actor is closed. -/
  | close {a : ActorId} {actor handle : String} (h : w.actorNamed actor = .ok a) :
    Requests w (.close actor handle) none
  /-- That an actor is removed from a system. -/
  | remove {s : SystemId} {system handle name : String} (h : w.systemNamed system = .ok s) :
    Requests w (.remove system handle name) none
  /-- That a system is terminated. -/
  | terminate {s : SystemId} {system handle : String} (h : w.systemNamed system = .ok s) :
    Requests w (.terminate system handle) (some s)

/-- A request gets a task and a handle of its own. -/
theorem next_of_requests {c : Call} (hrequests : w.Requests c system?) : ∃ handle task,
    w.next (.call c) = ((w.expecting handle).spawn task).release ∧
      task.Shuts w.channels.length system? := by
  cases hrequests with
  | @close a actor handle ha =>
    refine ⟨handle, .errand w.channels.length { rest := [.close actor], answer := .unit }, ?_,
      .errand (.inr ⟨rfl, _, rfl, by simp⟩)⟩
    simp [next, call, answer, ha, bind, Except.bind, pure, Except.pure, inBackground, expecting,
      newHandle]
  | @remove s system handle name hs =>
    refine ⟨handle, .errand w.channels.length { rest := [.remove system name], answer := .value },
      ?_, .errand (.inr ⟨rfl, _, rfl, by simp⟩)⟩
    simp [next, call, answer, hs, bind, Except.bind, pure, Except.pure, inBackground, expecting,
      newHandle]
  | @terminate s system handle hs =>
    refine ⟨handle, .termination w.channels.length s .starting, ?_, .termination⟩
    simp [next, call, answer, hs, bind, Except.bind, pure, Except.pure, inBackground, expecting,
      newHandle]

theorem serves_of_requests (before later : List Act) {c : Call}
    (hrequests : (run before).Requests c system?) :
    (run (before ++ .call c :: later)).Serves (run before).taskCount (run before).channels.length
      system? := by
  obtain ⟨handle, task, hnext, hshuts⟩ := next_of_requests hrequests
  have hnew : (run before).task? (run before).taskCount = none := task?_taskCount (sound_run before)
  have hlen : ((run before).expecting handle).channels.length =
      (run before).channels.length + 1 := by
    simp [expecting, hand, newHandle]
  rw [List.append_cons]
  refine serves_run (before ++ [.call c]) later ?_ (.inl ⟨task, ?_, hshuts⟩)
  · rw [run_concat, hnext]
    exact Nat.lt_of_lt_of_eq (Nat.lt_succ_self _) hlen.symm
  · rw [run_concat, hnext]
    exact task?_spawn (w := (run before).expecting handle) hnew task

/-! ### No close lasts longer -/

/-- Where nothing moves, nobody waits for an actor when it is not early any more. -/
theorem Quiet.not_attends {before later : List Act} (hq : (run (before ++ act :: later)).Quiet)
    (h : (run before).Closes act a)
    (hlate : ¬(run before).IsEarly a (run (before ++ act :: later)).clock) :
    ¬(run (before ++ act :: later)).Attends m a := by
  rintro ⟨x, hx, rfl⟩
  obtain ⟨-, -, hdue⟩ := wait_of_closes before later h hx
  exact hlate (isEarly_iff.mpr (hdue ▸ (hq.operation_of_waits hx).1))

/-- It is not early any more for any close that a mover has begun. -/
def Expired (acts : List Act) (m : Mover) : Prop :=
  ∀ before later a, acts = before ++ .move m :: later → (run before).Closes (.move m) a →
    ¬(run before).IsEarly a (run acts).clock

/-- **How long closes last** where nothing moves. -/
structure Bounded (acts : List Act) : Prop where
  /-- Whoever waits for an actor has closed it, and the close is in progress: the actor was inside
  of an ordered operation then, and still is, and it is early. -/
  waits : ∀ m, ∀ x ∈ (run acts).waits m, ∃ before later, acts = before ++ .move m :: later ∧
    (run before).Closes (.move m) x.actor ∧ InProgress before acts x.actor
  /-- When it is not early any more, nobody waits for the actor. -/
  unattended : ∀ before m later a, acts = before ++ .move m :: later →
    (run before).Closes (.move m) a → ¬(run before).IsEarly a (run acts).clock →
    ¬(run acts).Attends m a
  /-- A client who has asked for a close or a removal has been told by then. -/
  told : ∀ before c later, acts = before ++ .call c :: later → (run before).Requests c none →
    Expired acts (.task (run before).taskCount) →
    (run acts).outcome? (run before).channels.length ≠ none
  /-- A client who has asked for a termination has been told, unless the pools are being drained. -/
  drains : ∀ before c later s, acts = before ++ .call c :: later →
    (run before).Requests c (some s) → Expired acts (.task (run before).taskCount) →
    (run acts).outcome? (run before).channels.length ≠ none ∨ ∃ pools,
      (run acts).task? (run before).taskCount =
        some (.termination (run before).channels.length s (.draining pools))

/-- **No close holds up anybody beyond its close timeout.** -/
theorem closes_bounded (acts : List Act) (hquiet : (run acts).isQuiet = true) : Bounded acts := by
  have hq := quiet_of_isQuiet hquiet
  -- A mover whose closes are all over waits for nobody.
  have idle : ∀ m, Expired acts m → (run acts).waits m = [] := by
    intro m hexpired
    refine List.eq_nil_iff_forall_not_mem.mpr fun x hx => ?_
    obtain ⟨before, later, rfl, hcloses, hprogress⟩ := inProgress_of_waits acts hq hx
    exact hexpired before later x.actor rfl hcloses hprogress.early
  refine ⟨fun m x hx => inProgress_of_waits acts hq hx, ?_, ?_, ?_⟩
  · rintro before m later a rfl hcloses hlate
    exact hq.not_attends hcloses hlate
  · rintro before c later rfl hrequests hexpired
    have hsettled := (serves_of_requests before later hrequests).settled hq (idle _ hexpired)
    refine hsettled.resolve_right ?_
    rintro ⟨s, _, hnone, -⟩
    cases hnone
  · rintro before c later s rfl hrequests hexpired
    refine ((serves_of_requests before later hrequests).settled hq (idle _ hexpired)).imp_right ?_
    rintro ⟨s', pools, hsome, htask⟩
    obtain rfl := Option.some.inj hsome
    exact ⟨pools, htask⟩

/-- Two operations close each other's actors, and a client closes a third one. -/
def mutualRun : List Act :=
  [.call (.createActor "a" "a" "log" {}), .call (.createActor "b" "b" "log" {}),
    .call (.createActor "c" "c" "log" { closeTimeout := .ofMillis 50 }),
    .call (.send (.operation .ordered "a" [.close "b"] .unit (.watched "x"))),
    .call (.send (.operation .ordered "b" [.close "a"] .unit (.watched "y"))),
    .call (.send (.operation .ordered "c" [.effect (.gate "g")] .unit (.watched "z"))),
    .move (.runLoop 0), .move (.runLoop 0), .move (.runLoop 1), .move (.runLoop 1),
    .move (.runLoop 2), .move (.runLoop 2), .move (.runLoop 0), .move (.runLoop 1),
    .call (.close "c" "v"), .move (.task 0)]

/-- The longest close timeout passes. -/
def mutualLater : List Act :=
  [.call (.advance 10001), .move (.runLoop 0), .move (.runLoop 0), .move (.runLoop 0),
    .move (.task 0), .move (.task 0)]

/-- Everybody waits at first, the two operations for each other. In the end nobody does. -/
theorem closes_bounded_mutualRun :
    let acts := mutualRun ++ mutualLater
    ((run mutualRun).isQuiet = true ∧ Bounded mutualRun ∧
      ((run mutualRun).waits (.runLoop 0)).map (·.actor) = [1] ∧
      ((run mutualRun).waits (.runLoop 1)).map (·.actor) = [0] ∧
      ((run mutualRun).waits (.task 0)).map (·.actor) = [2]) ∧
    ((run acts).isQuiet = true ∧ Bounded acts ∧ (run acts).waiting = [] ∧
      (run acts).outcome? 0 = some (.ok .null) ∧
      (run acts).outcome? 1 = some (.error .discarded) ∧
      (run acts).outcome? 3 = some (.ok .null)) := by
  have hbefore : (run mutualRun).isQuiet = true := by decide +kernel
  have hafter : (run (mutualRun ++ mutualLater)).isQuiet = true := by decide +kernel
  refine ⟨⟨hbefore, closes_bounded mutualRun hbefore, ?_, ?_, ?_⟩, hafter,
    closes_bounded _ hafter, ?_, ?_, ?_, ?_⟩
  · decide +kernel
  · decide +kernel
  · decide +kernel
  · exact List.isEmpty_iff.mp (by decide +kernel)
  · decide +kernel
  · decide +kernel
  · decide +kernel

/-- An actor is inside of an operation when a client asks to close it. -/
def promptRun (timeout : Duration) : List Act :=
  [.call (.createActor "a" "a" "log" { closeTimeout := timeout }),
    .call (.send (.operation .ordered "a" [.effect (.gate "g")] .unit (.watched "x"))),
    .move (.runLoop 0), .move (.runLoop 0), .call (.close "a" "y")]

/-- The client begins to wait, and the clock moves. -/
def promptLater (millis : Nat) : List Act := [.move (.task 0), .call (.advance millis)]

/-- **A close outlasts its timeout**: when exactly the timeout has passed, nothing moves, and the
client waits on. Part of a millisecond counts as a whole one. -/
theorem waits_at_timeout :
    let before := promptRun (.ofMillis 50)
    let acts := before ++ promptLater 50
    let finer := promptRun ⟨0, 500000⟩
    ((run acts).isQuiet = true ∧ (run before).Closes (.move (.task 0)) 0 ∧
      ((run acts).waits (.task 0)).map (·.actor) = [0] ∧ (run acts).outcome? 1 = none ∧
      ((run acts).clock - (run before).clock) * 1000000 =
        ((run before).actor 0).settings.closeTimeout.totalNanos) ∧
    ((run (finer ++ promptLater 1)).isQuiet = true ∧
      ((run (finer ++ promptLater 1)).waits (.task 0)).map (·.actor) = [0] ∧
      ((run finer).actor 0).settings.closeTimeout.totalNanos <
        ((run (finer ++ promptLater 1)).clock - (run finer).clock) * 1000000) := by
  refine ⟨⟨?_, ⟨?_, ?_⟩, ?_, ?_, ?_⟩, ?_, ?_, ?_⟩
  case refine_4 => rfl
  all_goals decide +kernel

end World

end Troupe
