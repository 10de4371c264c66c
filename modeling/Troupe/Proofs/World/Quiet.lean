import Troupe.Proofs.Pool.Attention
import Troupe.Proofs.World.Delivery

/-!
# Quiet worlds

Where nobody can move, something may still be unresolved, but never without a reason: it waits at a
closed gate, or for the end of a close, or for a job that waits or runs. A run loop that has ended
leaves nothing in its mailbox, one that is between two envelopes takes the next one, and a worker
that could take a job does so. In this module they do so of themselves; that they are always woken
is shown in `Troupe.Proofs.World.Bells` and in `Troupe.Proofs.Pool.Wakeups`.

The reasons are found by looking at what cannot move. A course that cannot move waits at a gate or
for a close; a relay that cannot move has an open actor and an unresolved job; and where a job
waits in a pool that cannot move, all workers are busy, so that each of them waits at a gate.

## Main definitions

* `Scene.Halts` — what holds of run loops that are to stop or have ended
* `Completer`, `World.Completes`, `World.Suits` — who is to resolve a handle
* `World.AtGate`, `World.Awaits`, `World.Detained` — the reasons not to move
* `World.Quiet` — nobody can move

## Main results

* `World.halts_run`, `World.stopping_run` — the mailbox of a run loop that has ended is empty, and
  only a run loop that is to stop has ended
* `World.stepCourse_eq_none` — a course that cannot move waits at a gate or for a close
* `World.nothing_stuck` — all reasons why something is unresolved in a quiet world
-/

namespace Troupe

/-! ### Run loops that stop -/

/-- What holds of a run loop that is to stop or has ended. -/
structure Lane.Halts (l : Lane) : Prop where
  /-- It ends only after it was told to stop, and a close tells it so. -/
  stops : l.closed = true ∨ l.loop = .ended → l.stopping = true
  /-- It leaves nothing behind. -/
  emptied : l.loop = .ended → l.queue = []

theorem Lane.Halts.blank : (default : Lane).Halts :=
  ⟨fun h => (by rcases h with h | h <;> cases h), fun h => by cases h⟩

namespace Scene

variable {s t : Scene} {ms : List Mark}

/-- What holds of all run loops. -/
def Halts (s : Scene) : Prop := ∀ a, (s.lane a).Halts

theorem Halts.onLane (h : s.Halts) {a : ActorId} {f : Lane → Lane} (hf : (f (s.lane a)).Halts) :
    (s.onLane a f).Halts := by
  intro b
  rw [lane_onLane]
  split
  · exact hf
  · exact h b

theorem Halts.settleAll (h : s.Halts) (hs : List HandleId) (c : Content (Except ActorError Json)) :
    (s.settleAll hs c).Halts := by
  intro a
  rw [lane_settleAll]
  exact h a

/-- Every deed keeps what holds of run loops. -/
theorem Halts.deed (hs : s.Sound) (d : Deed ms s t) (h : s.Halts) : t.Halts := by
  -- A run loop that goes on.
  have goesOn : ∀ {s : Scene} {a : ActorId} {f : Lane → Lane}, s.Halts →
      (f (s.lane a)).closed = (s.lane a).closed → (f (s.lane a)).stopping = (s.lane a).stopping →
      (f (s.lane a)).loop ≠ .ended → (s.onLane a f).Halts := by
    intro s a f h hclosed hstop hloop
    refine h.onLane ⟨fun hc => ?_, fun hended => absurd hended hloop⟩
    rw [hstop]
    exact (h a).stops (.inl (hclosed ▸ hc.resolve_right hloop))
  cases d with
  | roster _ _ | found _ | pool _ _ | settled _ | drain _ | begin _ _ _ | setTask _ _ _ _ => exact h
  | enroll hl =>
    intro a
    rcases Nat.lt_trichotomy a s.lanes.length with hlt | rfl | hgt
    · rw [lane, List.getElem?_append_left hlt]
      exact h a
    · rw [lane, List.getElem?_concat_length]
      exact ⟨by simp [hl.closed, hl.loop], by simp [hl.loop]⟩
    · rw [lane_of_le (by simpa using Nat.succ_le_of_lt hgt)]
      exact .blank
  | stop _ =>
    intro a
    rw [lane_stopAll]
    split
    · exact ⟨fun _ => rfl, (h a).emptied⟩
    · exact h a
  | endTask _ _ => exact h.settleAll _ _
  | @remember _ a p _ _ =>
    refine h.onLane ?_
    rw [Lane.remember_eq]
    exact ⟨(h a).stops, (h a).emptied⟩
  | @accept _ a e _ hheld hopen _ _ =>
    refine Halts.onLane (s := s.grow .empty) h ⟨(h a).stops, fun hended => ?_⟩
    -- Nobody holds an actor whose run loop has ended unless it is closed.
    exact absurd (.inl hheld) (hs.letGo a ((h a).stops (.inr hended)) hopen)
  | clear a =>
    refine (h.onLane ⟨(h a).stops, fun hended => ?_⟩).settleAll _ _
    show (s.lane a).queue.filter _ = []
    rw [(h a).emptied hended, List.filter_nil]
  | shut _ _ _ => exact (h.onLane ⟨fun _ => rfl, fun _ => rfl⟩).settleAll _ _
  | @abort _ a hclosed =>
    have hl : ({ s.lane a with loop := .ended } : Lane).Halts :=
      ⟨fun _ => (h a).stops (.inl hclosed), fun _ => hs.emptied a hclosed⟩
    exact (h.onLane hl).settleAll _ _
  | quit _ hstop => exact (h.onLane ⟨fun _ => hstop, fun _ => rfl⟩).settleAll _ _
  | start _ | enter _ _ _ | proceed _ _ => exact goesOn h rfl rfl (by simp)
  | finish _ _ _ =>
    refine goesOn (h.settleAll _ _) rfl rfl (by simp)

end Scene

/-- What is to resolve a handle. -/
inductive Completer where
  /-- An envelope that waits for an actor, by its place in the mailbox. -/
  | queued (actor : ActorId) (place : Nat)
  /-- The envelope that the run loop of an actor is inside of. -/
  | inside (actor : ActorId)
  /-- A task. -/
  | task (task : TaskId)

namespace World

variable {w : World} {a : ActorId} {k : HandleId}

/-- **In a run** a run loop that has ended was told to stop, and leaves nothing behind. -/
theorem halts_run (acts : List Act) : (run acts).scene.Halts :=
  keep_run (fun hs d h => h.deed hs d) [] acts fun _ => .blank

/-- A closed actor is to stop, and so is one whose run loop has ended. -/
theorem stopping_run (acts : List Act)
    (h : ((run acts).actor a).closed = true ∨ ((run acts).actor a).loop = .ended) :
    ((run acts).actor a).stopping = true := by
  have := (halts_run acts a).stops
  rw [lane_scene] at this
  exact this h

/-! ### Who is to resolve a handle -/

/-- What is there to resolve a handle. -/
inductive Completes (w : World) (k : HandleId) : Completer → Prop where
  /-- An envelope waits. -/
  | queued {a : ActorId} {place : Nat} {e : Envelope}
    (he : (w.actor a).mailbox.queue[place]? = some e) (hk : e.handle = k) :
    Completes w k (.queued a place)
  /-- A run loop is inside of the envelope. -/
  | inside {a : ActorId} {i : Inside} (hi : (w.actor a).loop = .inside i) (hk : i.handle = k) :
    Completes w k (.inside a)
  /-- A task is in progress. -/
  | task {t : TaskId} {task : Task} (ht : w.task? t = some task) (hk : task.handle = k) :
    Completes w k (.task t)

/-- The completer that something that was sent is to have: its envelope, which waits until the run
loop is done with another one or which the run loop is inside of, or else its own task. -/
def Suits (w : World) (x : Sending) : Completer → Prop
  | .queued a _ => a = x.actor ∧ x.route ≠ .bypass ∧ w.running? a ≠ none
  | .inside a => a = x.actor ∧ x.route ≠ .bypass
  | .task t =>
    x.route = .bypass ∧ ∃ course, w.task? t = some (.bypass x.actor x.handle course)

theorem waiting_of_getElem? {place : Nat} {e : Envelope}
    (he : (w.actor a).mailbox.queue[place]? = some e) :
    (w.scene.lane a).waiting[place]? = some e.handle := by
  rw [lane_scene, Lane.waiting, List.getElem?_map]
  exact congrArg (Option.map Envelope.handle) he

theorem current_of_inside {i : Inside} (hi : (w.actor a).loop = .inside i) :
    (w.scene.lane a).current = [i.handle] := by
  rw [lane_scene]
  exact Lane.current_of_inside hi

namespace Completes

variable {b : ActorId} {place : Nat} {t : TaskId}

theorem getElem?_waiting (h : w.Completes k (.queued a place)) :
    (w.scene.lane a).waiting[place]? = some k := by
  cases h with
  | queued he hk => rw [waiting_of_getElem? he, hk]

theorem current_eq (h : w.Completes k (.inside a)) : (w.scene.lane a).current = [k] := by
  cases h with
  | inside hi hk => rw [current_of_inside hi, hk]

/-- Envelopes are in lanes. -/
theorem mem_of_queued (h : w.Completes k (.queued a place)) : k ∈ (w.scene.lane a).handles :=
  List.mem_append_right _ (List.mem_of_getElem? h.getElem?_waiting)

theorem mem_of_inside (h : w.Completes k (.inside a)) : k ∈ (w.scene.lane a).handles :=
  List.mem_append_left _ (by simp [h.current_eq])

theorem mem_tasks (h : w.Completes k (.task t)) :
    ∃ task, (t, task) ∈ w.scene.tasks ∧ task.handle = k := by
  cases h with
  | task ht hk => exact ⟨_, Scene.mem_of_lookup ht, hk⟩

/-- What is in a lane is in no task. -/
theorem not_task (hs : w.scene.Sound) (h : k ∈ (w.scene.lane a).handles) :
    ¬w.Completes k (.task t) := by
  intro ht
  obtain ⟨task, htask, hk⟩ := ht.mem_tasks
  exact hs.ne_of_task h htask hk

/-- A lane has each handle once. -/
theorem not_queued (hs : w.scene.Sound) (h : w.Completes k (.inside a)) :
    ¬w.Completes k (.queued b place) := by
  intro hq
  obtain rfl := hs.lane_eq h.mem_of_inside hq.mem_of_queued
  have hsorted := hs.sorted a
  rw [Lane.handles, h.current_eq, List.singleton_append] at hsorted
  exact Nat.lt_irrefl _
    (List.rel_of_pairwise_cons hsorted (List.mem_of_getElem? hq.getElem?_waiting))

/-- **A handle has one completer.** -/
theorem unique (hs : w.scene.Sound) {c c' : Completer} (h : w.Completes k c)
    (h' : w.Completes k c') : c = c' := by
  cases c with
  | queued a place =>
    cases c' with
    | queued b place' =>
      obtain rfl := hs.lane_eq h.mem_of_queued h'.mem_of_queued
      have hnodup : (w.scene.lane a).waiting.Nodup :=
        ((List.pairwise_append.mp (hs.sorted a)).2.1).imp Nat.ne_of_lt
      have hlt := (List.getElem?_eq_some_iff.mp h.getElem?_waiting).1
      rw [(List.getElem?_inj hlt hnodup).mp (h.getElem?_waiting.trans h'.getElem?_waiting.symm)]
    | inside b => exact absurd h (not_queued hs h')
    | task t => exact absurd h' (not_task hs h.mem_of_queued)
  | inside a =>
    cases c' with
    | queued b place => exact absurd h' (not_queued hs h)
    | inside b => rw [hs.lane_eq h.mem_of_inside h'.mem_of_inside]
    | task t => exact absurd h' (not_task hs h.mem_of_inside)
  | task t =>
    cases c' with
    | queued b place => exact absurd h (not_task hs h'.mem_of_queued)
    | inside b => exact absurd h (not_task hs h'.mem_of_inside)
    | task t' =>
      obtain ⟨task, hmem, hk⟩ := h.mem_tasks
      obtain ⟨task', hmem', hk'⟩ := h'.mem_tasks
      have hnodup := (List.nodup_append.mp hs.nodup_holders).2.1
      have hsame := List.inj_on_of_nodup_map hnodup hmem hmem' (hk.trans hk'.symm)
      rw [(Prod.mk.inj hsame).1]

end Completes

/-- **An operation past a mailbox** has a task as long as it is unresolved, which works through its
body. -/
theorem course_of_bypass {acts : List Act} {x : Commission} (hx : x ∈ commissions acts)
    (hroute : x.route = .bypass) (he : (run acts).outcome? x.handle = none) :
    ∃ t course done, (run acts).task? t = some (.bypass x.actor x.handle course) ∧
      x.body = done ++ course.rest ∧ history x.site acts = done.map .performs := by
  have hsite : x.site = .operation x.handle := by simp [Commission.site, hroute]
  have hwhere := whereabouts_run acts x hx hsite
  rw [hsite]
  generalize history (.operation x.handle) acts = ds at hwhere ⊢
  cases hwhere with
  | waits hr _ =>
    rw [hroute] at hr
    cases hr
  | resolved _ hne _ _ => exact absurd (outcome?_eq_none_iff.mp he) hne
  | @runs m r done c hr hm hbody _ =>
    obtain rfl : r = .bypass x.actor := by simpa [Commission.runner?, hroute] using hr.symm
    cases m with
    | task t =>
      obtain ⟨a, ha, ht⟩ := task?_of_operation? hm
      obtain rfl := Runner.bypass.inj ha
      exact ⟨t, c, done, ht, hbody, rfl⟩
    | runLoop b => cases (loop_of_operation? hm).1
    | worker _ _ | grace _ => cases hm

theorem task_of_bypass {acts : List Act} {x : Sending} (hx : x ∈ sendings acts)
    (hroute : x.route = .bypass) (he : (run acts).outcome? x.handle = none) :
    ∃ t course, (run acts).task? t = some (.bypass x.actor x.handle course) := by
  rw [← map_commissions] at hx
  obtain ⟨y, hy, rfl⟩ := List.mem_map.mp hx
  obtain ⟨t, course, _, ht, -⟩ := course_of_bypass hy hroute he
  exact ⟨t, course, ht⟩

/-! ### Reasons not to move -/

/-- The effect that a mover is about to have. -/
def effect? (w : World) : Mover → Option Effect
  | .worker p place => ((w.pool p).jobAt place).bind fun job => job.body.rest.head?
  | m => (w.action? m).bind fun
    | .effect e => some e
    | _ => none

/-- A mover waits at a gate that is closed. -/
def AtGate (w : World) (m : Mover) : Prop := ∃ g, w.effect? m = some (.gate g) ∧ g ∉ w.gates

/-- A mover awaits a close that is still in progress. -/
def Awaits (w : World) (m : Mover) : Prop :=
  ∃ wait, (wait, m) ∈ w.waiting ∧ w.isOver wait = false

/-- Why a run loop gets no further inside of an envelope: its operation waits at a closed gate or
for a close, or the job of its relay waits or runs while the actor is not to stop. -/
def Detained (w : World) (a : ActorId) : Inside → Prop
  | .operation _ _ => w.AtGate (.runLoop a) ∨ w.Awaits (.runLoop a)
  | .relay _ p j =>
    (w.actor a).stopping = false ∧ (j ∈ (w.pool p).queuedIds ∨ j ∈ (w.pool p).runningIds)

/-- Only a closed gate holds up an effect. -/
theorem run_eq_waits {e : Effect} {gates : List String} {lines : Lines} {value : Json}
    (h : e.run gates lines value = .waits) : ∃ g, e = .gate g ∧ g ∉ gates := by
  cases e with
  | gate g =>
    rw [Effect.run] at h
    split at h
    · cases h
    · rename_i hg
      exact ⟨g, rfl, by simpa using hg⟩
  | push _ | give _ | giveCount | giveAll | giveJoined | panic _ | fail _ => cases h

/-- **A course that cannot move** waits for a close or at a gate. -/
theorem stepCourse_eq_none {r : Runner} {c : Course} (h : w.stepCourse r c = none) :
    (∃ wait, c.wait = some wait ∧ w.isOver wait = false) ∨
      ∃ g, c.action? = some (.effect (.gate g)) ∧ g ∉ w.gates := by
  rw [stepCourse] at h
  cases hwait : c.wait with
  | some wait =>
    rw [hwait] at h
    cases hover : w.isOver wait with
    | true => simp [hover] at h
    | false => exact .inl ⟨wait, rfl, hover⟩
  | none =>
    rw [hwait] at h
    cases hrest : c.rest with
    | nil => simp [hrest] at h
    | cons action rest =>
      simp only [hrest] at h
      cases action with
      | effect e =>
        rw [perform] at h
        split at h
        · cases h
        · cases h
        · rename_i hrun
          obtain ⟨g, rfl, hg⟩ := run_eq_waits hrun
          exact .inr ⟨g, Course.action?_of_cons hwait hrest, hg⟩
      | close _ | clear _ | pending _ | alive _ | remove _ _ | send _ => cases h

/-- **A mover that cannot take its operation further** waits at a gate, or for a close that the
operation has asked for. -/
theorem held_up (hs : w.scene.Sound) {m : Mover} {r : Runner} {h : HandleId} {c : Course}
    (hm : w.operation? m = some (r, h, c)) (hstuck : w.step m = none) :
    w.AtGate m ∨ c.wait ≠ none ∧ w.Awaits m := by
  have hcourse := course?_of_operation? hm
  rcases stepCourse_eq_none ((operation?_stuck hm).mp hstuck) with ⟨wait, hc, hover⟩ | ⟨g, hact, hg⟩
  · refine .inr ⟨by simp [hc], wait, (mem_waiting_iff hs).mpr ?_, hover⟩
    rw [waits_of_course? hcourse, hc]
    exact List.mem_singleton_self wait
  · have haction := action?_of_course? hcourse
    rw [hact] at haction
    refine .inl ⟨g, ?_, hg⟩
    cases m with
    | runLoop _ | task _ | grace _ => simp [effect?, haction]
    | worker _ _ => cases hm

/-! ### Quiet worlds -/

/-- Nobody can move. -/
structure Quiet (w : World) : Prop where
  /-- No run loop can. -/
  loop : ∀ a < w.actors.length, w.stepLoop a = none
  /-- No task can. -/
  task : ∀ t task, w.task? t = some task → w.stepTask t = none
  /-- No worker can. -/
  worker : ∀ p place, w.stepWorker p place = none

theorem quiet_of_isQuiet (h : w.isQuiet = true) : w.Quiet := by
  rw [isQuiet, List.all_append, Bool.and_eq_true, List.all_eq_true, List.all_eq_true] at h
  obtain ⟨hrunners, hworkers⟩ := h
  have stuck : ∀ {m : Mover}, (w.step m).isNone = true → w.step m = none := fun h =>
    Option.isNone_iff_eq_none.mp h
  refine ⟨fun a ha => ?_, fun t task ht => ?_, fun p place => ?_⟩
  · refine Option.map_eq_none_iff.mp (stuck (m := .runLoop a) (hrunners _ ?_))
    exact List.mem_append_left _ (List.mem_map_of_mem (List.mem_range.mpr ha))
  · refine Option.map_eq_none_iff.mp (stuck (m := .task t) (hrunners _ ?_))
    exact List.mem_append_right _ (List.mem_map.mpr ⟨(t, task), Scene.mem_of_lookup ht, rfl⟩)
  · by_cases hplace : place < (w.pool p).crew.length
    · have hp : p < w.pools.length := by
        by_contra hge
        rw [pool, List.getElem?_eq_none (Nat.le_of_not_lt hge)] at hplace
        exact absurd hplace (Nat.not_lt_zero _)
      refine Option.map_eq_none_iff.mp (stuck (m := .worker p place) (hworkers _ ?_))
      refine List.mem_flatMap.mpr ⟨(w.pools[p], p), ?_, ?_⟩
      · rw [List.mk_mem_zipIdx_iff_getElem?, List.getElem?_eq_getElem hp]
      · rw [pool, List.getElem?_eq_getElem hp] at hplace
        exact List.mem_map_of_mem (List.mem_range.mpr hplace)
    · -- There is no such worker.
      have hnone := List.getElem?_eq_none (Nat.le_of_not_lt hplace)
      simp [stepWorker, Pool.jobAt, Pool.look, hnone]

namespace Quiet

variable (hq : w.Quiet)

include hq

/-- A run loop that is inside of nothing has nothing to do. -/
theorem queue_eq_nil (hh : w.scene.Halts) (hrun : w.running? a = none) :
    (w.actor a).mailbox.queue = [] := by
  by_cases ha : a < w.actors.length
  · have hstuck := hq.loop a ha
    rw [stepLoop] at hstuck
    cases hloop : (w.actor a).loop with
    | starting => simp [hloop] at hstuck
    | idle =>
      rw [hloop] at hstuck
      cases hstop : (w.actor a).stopping with
      | true => simp [hstop] at hstuck
      | false =>
        cases hqueue : (w.actor a).mailbox.queue with
        | nil => rfl
        | cons e queue => simp [hstop, enterNext, Mailbox.next, hqueue] at hstuck
    | inside i => simp [running?, hloop] at hrun
    | ended =>
      have hended : (w.scene.lane a).loop = .ended := by
        rw [lane_scene]
        exact hloop
      have := (hh a).emptied hended
      rw [lane_scene] at this
      exact this
  · rw [actor, List.getElem?_eq_none (Nat.le_of_not_lt ha)]
    rfl

/-- Who works on an operation cannot move. -/
theorem step_eq_none {m : Mover} {r : Runner} {h : HandleId} {c : Course}
    (hm : w.operation? m = some (r, h, c)) : w.step m = none := by
  cases m with
  | runLoop a =>
    exact Option.map_eq_none_iff.mpr (hq.loop a (lt_of_inside (loop_of_operation? hm).2))
  | task t =>
    obtain ⟨a, -, ht⟩ := task?_of_operation? hm
    exact Option.map_eq_none_iff.mpr (hq.task t _ ht)
  | worker _ _ | grace _ => cases hm

/-- A course that cannot move has its mover wait. -/
theorem atGate_or_awaits (hs : w.scene.Sound) {m : Mover} {r : Runner} {h : HandleId} {c : Course}
    (hm : w.operation? m = some (r, h, c)) : w.AtGate m ∨ w.Awaits m :=
  (held_up hs hm (hq.step_eq_none hm)).imp_right And.right

/-- A worker that cannot go on with its job waits at a gate. -/
theorem atGate_of_jobAt {p : PoolId} {place : Nat} {job : Job Work}
    (hjob : (w.pool p).jobAt place = some job) : w.AtGate (.worker p place) := by
  have hstuck := hq.worker p place
  rw [stepWorker, hjob] at hstuck
  simp only [stepJob] at hstuck
  split at hstuck
  · cases hstuck
  · rename_i e rest hrest
    split at hstuck
    · cases hstuck
    · cases hstuck
    · rename_i hrun
      obtain ⟨g, rfl, hg⟩ := run_eq_waits hrun
      exact ⟨g, by simp [effect?, hjob, hrest], hg⟩

/-- An unresolved job holds up a worker of its pool at a gate, itself or another one. -/
theorem atGate_of_unresolved (hs : w.scene.Sound) {p : PoolId} {j : JobId}
    (hj : j ∈ (w.pool p).queuedIds ∨ j ∈ (w.pool p).runningIds) :
    ∃ place, w.AtGate (.worker p place) := by
  rcases hj with hqueued | hrunning
  · have hp : p < w.pools.length := by
      by_contra hge
      rw [pool, List.getElem?_eq_none (Nat.le_of_not_lt hge)] at hqueued
      cases hqueued
    obtain ⟨job, hjob, _⟩ := Pool.mem_queuedIds.mp hqueued
    have hlook : ∀ place, (w.pool p).look place = none := by
      intro place
      have hstuck := hq.worker p place
      rw [stepWorker] at hstuck
      split at hstuck
      · rename_i job hjob
        obtain ⟨v, hv, hjob⟩ := Option.bind_eq_some_iff.mp hjob
        cases v <;> simp [Pool.look, hv] at hjob ⊢
      · exact Option.map_eq_none_iff.mp hstuck
    obtain ⟨hmanned, hbusy⟩ :=
      (reachable_pool hs hp).all_busy (List.ne_nil_of_mem hjob) hlook
    -- So the first worker of the crew is busy with another job.
    obtain ⟨v, crew, hcrew⟩ := List.exists_cons_of_ne_nil hmanned
    obtain ⟨other, rfl⟩ := hbusy v (by simp [hcrew])
    have hat : (w.pool p).jobAt 0 = some other := by simp [Pool.jobAt, hcrew]
    exact ⟨0, hq.atGate_of_jobAt hat⟩
  · obtain ⟨job, hjob, rfl⟩ := List.mem_map.mp hrunning
    obtain ⟨v, hv, hjob⟩ := List.mem_filterMap.mp hjob
    obtain ⟨place, hplace⟩ := List.mem_iff_getElem?.mp hv
    have hat : (w.pool p).jobAt place = some job := by simp [Pool.jobAt, hplace, hjob]
    exact ⟨place, hq.atGate_of_jobAt hat⟩

/-- **What a run loop waits for** inside of an envelope. -/
theorem detained (hs : w.scene.Sound) {i : Inside} (hloop : (w.actor a).loop = .inside i) :
    w.Detained a i := by
  cases i with
  | operation h c =>
    exact hq.atGate_or_awaits hs (r := .runLoop a) (c := c) (by rw [operation?, hloop])
  | relay h p j =>
    have hstuck := hq.loop a (lt_of_inside hloop)
    simp only [stepLoop, hloop, stepInside] at hstuck
    split at hstuck
    · cases hstuck
    · rename_i hnone
      have hstop : (w.actor a).stopping = false := by
        by_contra hstop
        simp [hstop] at hstuck
      have hempty := Pool.outcome?_eq_none_iff.mp hnone
      have hp : p < w.pools.length := by
        by_contra hge
        rw [pool, List.getElem?_eq_none (Nat.le_of_not_lt hge)] at hempty
        cases hempty
      exact ⟨hstop, (reachable_pool hs hp).waits_or_runs hempty⟩

/-- Where nobody waits, no run loop is inside of an envelope. -/
theorem running?_eq_none (hs : w.scene.Sound) (hgate : ∀ m, ¬w.AtGate m) (hclose : w.waiting = [])
    (a : ActorId) : w.running? a = none := by
  rw [running?]
  split
  · rename_i i hloop
    exfalso
    have hd := hq.detained hs hloop
    cases i with
    | operation h c =>
      rcases hd with hg | ⟨wait, hwait, _⟩
      · exact hgate _ hg
      · rw [hclose] at hwait
        cases hwait
    | relay h p j =>
      obtain ⟨place, hg⟩ := hq.atGate_of_unresolved hs hd.2
      exact hgate _ hg
  · rfl

end Quiet

/-- What is unresolved in a quiet world has the completer that it is to have. -/
theorem exists_completer {acts : List Act} (hq : (run acts).Quiet) {x : Sending}
    (hx : x ∈ sendings acts) (he : (run acts).outcome? x.handle = none) :
    ∃ c, (run acts).Suits x c ∧ (run acts).Completes x.handle c := by
  by_cases hroute : x.route = .bypass
  · obtain ⟨t, course, ht⟩ := task_of_bypass hx hroute he
    exact ⟨.task t, ⟨hroute, course, ht⟩, .task ht rfl⟩
  · have hplaced := (ledger_run acts).placed x hx hroute (outcome?_eq_none_iff.mp he)
    rcases List.mem_append.mp hplaced with hcurrent | hwaiting
    · rw [← toList_running?, Option.mem_toList, running?] at hcurrent
      split at hcurrent
      · rename_i i hloop
        exact ⟨.inside x.actor, ⟨rfl, hroute⟩, .inside hloop (Option.some.inj hcurrent)⟩
      · cases hcurrent
    · rw [← queued_eq] at hwaiting
      obtain ⟨e, hmem, hk⟩ := List.mem_map.mp hwaiting
      obtain ⟨place, hplace⟩ := List.mem_iff_getElem?.mp hmem
      refine ⟨.queued x.actor place, ⟨rfl, hroute, fun hrun => ?_⟩, .queued hplace hk⟩
      rw [hq.queue_eq_nil (halts_run acts) hrun] at hmem
      cases hmem

/-- **Nothing is stuck without a reason.** In a quiet world, whatever was sent and is unresolved has
one completer; a run loop that is inside of no envelope has an empty mailbox; one that is inside of
an envelope, and a task past a mailbox, wait at a closed gate, or for a close, or for a job. So
where nothing waits at a closed gate or for a close, nothing is unresolved and nothing waits. -/
theorem nothing_stuck (acts : List Act) (hquiet : (run acts).isQuiet = true) :
    (∀ x ∈ sendings acts, (run acts).outcome? x.handle = none →
      ∃ c, (run acts).Suits x c ∧ ∀ c', (run acts).Completes x.handle c' ↔ c' = c) ∧
    (∀ a, (run acts).running? a = none → ((run acts).actor a).mailbox.queue = []) ∧
    (∀ a i, ((run acts).actor a).loop = .inside i → (run acts).Detained a i) ∧
    (∀ t a h course, (run acts).task? t = some (.bypass a h course) →
      (run acts).AtGate (.task t) ∨ (run acts).Awaits (.task t)) ∧
    ((∀ m, ¬(run acts).AtGate m) → (run acts).waiting = [] →
      (∀ x ∈ sendings acts, (run acts).outcome? x.handle ≠ none) ∧
        ∀ a, ((run acts).actor a).mailbox.queue = []) := by
  have hs := sound_run acts
  have hq := quiet_of_isQuiet hquiet
  have bypass : ∀ {t a h course}, (run acts).task? t = some (.bypass a h course) →
      (run acts).AtGate (.task t) ∨ (run acts).Awaits (.task t) := fun ht =>
    hq.atGate_or_awaits hs (by rw [operation?, ht])
  refine ⟨fun x hx he => ?_, fun a => hq.queue_eq_nil (halts_run acts), fun a i => hq.detained hs,
    fun t a h course => bypass, fun hgate hclose => ?_⟩
  · obtain ⟨c, hsuits, hc⟩ := exists_completer hq hx he
    exact ⟨c, hsuits, fun c' => ⟨fun hc' => hc'.unique hs hc, fun heq => heq ▸ hc⟩⟩
  · have hrun := hq.running?_eq_none hs hgate hclose
    have hqueue : ∀ a, ((run acts).actor a).mailbox.queue = [] := fun a =>
      hq.queue_eq_nil (halts_run acts) (hrun a)
    refine ⟨fun x hx he => ?_, hqueue⟩
    obtain ⟨c, hsuits, hc⟩ := exists_completer hq hx he
    cases c with
    | queued a place => exact hsuits.2.2 (hrun a)
    | inside a =>
      cases hc with
      | inside hi _ =>
        have := hrun a
        simp [running?, hi] at this
    | task t =>
      obtain ⟨_, course, ht⟩ := hsuits
      rcases bypass ht with hg | ⟨wait, hwait, _⟩
      · exact hgate _ hg
      · rw [hclose] at hwait
        cases hwait

/-- Three operations are sent to an actor. The first one and the one past the mailbox wait at a
gate, the other one behind the first. -/
def gatedRun : List Act :=
  [.call (.createActor "d" "logger" "log" {}), .call (.createPool "p" "crew" 1),
    .call (.send (.operation .ordered "d" [.effect (.gate "g")] .value (.watched "x"))),
    .call (.send (.operation .ordered "d" [] .value (.watched "y"))),
    .call (.send (.operation .bypass "d" [.effect (.gate "g")] .value (.watched "z"))),
    .move (.runLoop 0), .move (.runLoop 0), .move (.worker 0 0)]

/-- The same, and then the gate opens. -/
def openedRun : List Act :=
  gatedRun ++ [.call (.openGate "g"), .move (.task 0), .move (.task 0), .move (.runLoop 0),
    .move (.runLoop 0), .move (.runLoop 0), .move (.runLoop 0)]

/-- The second one of these operations. -/
def behindSending : Sending := { actor := 0, handle := 1, route := .ordered, answer := none }

theorem mem_sendings_gatedRun : behindSending ∈ sendings gatedRun := by
  have hsent : sendings gatedRun =
      [{ actor := 0, handle := 0, route := .ordered, answer := none }, behindSending,
        { actor := 0, handle := 2, route := .bypass, answer := none }] := rfl
  rw [hsent]
  exact List.mem_cons_of_mem _ List.mem_cons_self

theorem not_atGate_openedRun (m : Mover) : ¬(run openedRun).AtGate m := by
  rintro ⟨g, heffect, _⟩
  cases m with
  | runLoop a => cases a <;> cases heffect
  | task t => cases heffect
  | worker p place => cases p <;> cases place <;> cases heffect
  | grace t => cases heffect

theorem nothing_stuck_gatedRun :
    ((run gatedRun).isQuiet = true ∧ behindSending ∈ sendings gatedRun ∧
      (run gatedRun).outcome? behindSending.handle = none ∧
      ∃ c, (run gatedRun).Suits behindSending c ∧
        ∀ c', (run gatedRun).Completes behindSending.handle c' ↔ c' = c) ∧
    (run openedRun).isQuiet = true ∧ (run openedRun).waiting = [] ∧
      ∀ x ∈ sendings openedRun, (run openedRun).outcome? x.handle ≠ none :=
  ⟨⟨rfl, mem_sendings_gatedRun, rfl,
      (nothing_stuck gatedRun rfl).1 behindSending mem_sendings_gatedRun rfl⟩,
    rfl, rfl, ((nothing_stuck openedRun rfl).2.2.2.2 not_atGate_openedRun rfl).1⟩

end World

end Troupe
