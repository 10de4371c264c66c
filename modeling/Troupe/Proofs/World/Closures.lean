import Troupe.Proofs.World.Backlog
import Troupe.Proofs.World.Bounds

/-!
# What closes do

An actor is closed once, by one act of a run. With this act everything that waits in its mailbox is
discarded, and its jobs that wait in pools are withdrawn. What has been begun with is not touched. A
job that a worker has begun with runs on. An operation past the mailbox goes on, too. What the run
loop is inside of is a matter of time. It does not stay inside of a relay: it tells the relay with
its next move what there is to tell about the job by then, and does not wait for it. An ordered
operation may finish, for as long as nobody aborts the run loop, which nobody does before the close
timeout has passed, and nobody does at all if it is the operation that has closed its own actor.

How long somebody waits for all of this is left to the bounds of closes.

## Main definitions

* `World.Closed` — what the act that closes an actor does at once
* `World.GivesWay`, `World.MayFinish` — what becomes of what the run loop is inside of
* `World.Starved` — the world has not come to rest since an actor was closed, for too long
* `World.Closure` — what becomes of everything in the runs that go on from the act

## Main results

* `World.closes_of_close` — whoever asks an open actor to close closes it
* `World.unresolved_of_closes` — a close resolves nothing that has been begun with
* `World.lost_of_withdrawn`, `World.runs_of_closes` — jobs that wait are withdrawn, others run on
* `World.givesWay_of_closes`, `World.mayFinish_of_closes` — relays and ordered operations
* `World.closing_resolves` — the outcome of everything that is pending when an actor is closed
-/

namespace Troupe

namespace World

variable {w w' : World} {act : Act} {a : ActorId} {m : Mover} {p : PoolId} {j : JobId}
  {k : HandleId} {x : Commission}

/-! ### The call -/

/-- Whoever asks an open actor to close closes it. -/
theorem closes_of_close (hs : w.scene.Sound) {name : String}
    (haction : w.action? m = some (.close name)) (hname : w.actorNamed name = .ok a)
    (hopen : (w.actor a).closed = false) : w.Closes (.move m) a := by
  obtain ⟨r, c, hm, hc⟩ := course?_of_action? haction
  have hstep : w.stepCourse r c = some (.goesOn
      { c with rest := c.rest.tail, wait := (w.beginClose r.runLoop? none a).1 },
      (w.beginClose r.runLoop? none a).2) := by
    simp only [stepCourse_of_action? hc, perform, hname, withNamed]
  have hsame := Book.LetsGo.post_eq (next_of_course hs hm hstep).letsGo a
  rw [post_book, post_book] at hsame
  refine ⟨hopen, (congrArg Post.closed hsame).trans ?_⟩
  exact closed_beginClose hs (lt_of_held hs (held_of_actorNamed hname)) _ _

/-! ### What has been begun with -/

/-- An operation that closes an actor goes on. -/
theorem content_of_closer (hs : w.scene.Sound) {r : Runner} {c : Course}
    (hm : w.operation? m = some (r, k, c)) (h : w.Closes (.move m) a) :
    (w.next (.move m)).scene.content k = .empty := by
  cases hstep : w.stepCourse r c with
  | none =>
    rw [next_of_stuck ((operation?_stuck hm).mpr hstep)]
    exact content_of_operation? hs hm
  | some y =>
    obtain ⟨progress, w'⟩ := y
    cases progress with
    | goesOn c' => exact content_of_operation? (sound_next hs _) (operation?_goesOn hs hm hstep)
    | ends ending =>
      have hsame : ((w.next (.move m)).actor a).closed = (w.actor a).closed := by
        cases m with
        | runLoop b =>
          obtain ⟨rfl, hloop⟩ := loop_of_operation? hm
          rw [next_of_loop_ends hloop hstep, eq_of_ends hstep, closed_release, closed_setLoop,
            actor, actors_finishOperation]
          rfl
        | task t =>
          obtain ⟨b, rfl, ht⟩ := task?_of_operation? hm
          rw [next_of_bypass_ends ht hstep, eq_of_ends hstep, closed_release, actor]
          show (((w.finishOperation b k c.answer ending).actors)[a]?.getD default).closed = _
          rw [actors_finishOperation]
          rfl
        | worker _ _ | grace _ => cases hm
      cases h.1.symm.trans (hsame.symm.trans h.2)

/-- Nobody closes an actor from within a relay. -/
theorem ne_runLoop_of_relay (hs : w.scene.Sound) (h : w.Closes act a)
    (hloop : (w.actor a).loop = .inside (.relay k p j)) : act ≠ .move (.runLoop a) := by
  rintro rfl
  cases hstep : w.stepInside a (.relay k p j) with
  | none =>
    have hsame : w.next (.move (.runLoop a)) = w :=
      next_of_stuck (by simp [step, stepLoop, hloop, hstep])
    cases h.1.symm.trans (hsame ▸ h.2)
  | some w' =>
    have hnext : w.next (.move (.runLoop a)) = w'.release :=
      next_of_stepLoop (by simp [stepLoop, hloop, hstep])
    have hclosed := h.2
    rw [hnext, closed_release] at hclosed
    rcases (deeds_relay hs hloop (steps_of_stepRelay hstep)).shut_of_closed
        (by rwa [lane_scene]) with hold | hm
    · rw [lane_scene] at hold
      cases h.1.symm.trans hold
    · simp at hm

/-- What the run loop is inside of stays unresolved when its actor is closed. -/
theorem content_of_closes (hs : w.scene.Sound) (h : w.Closes act a) {i : Inside}
    (hloop : (w.actor a).loop = .inside i) : (w.next act).scene.content i.handle = .empty := by
  by_cases hact : act = .move (.runLoop a)
  · subst hact
    cases i with
    | operation k c => exact content_of_closer hs (operation?_of_inside hloop) h
    | relay k p j => exact absurd rfl (ne_runLoop_of_relay hs h hloop)
  · rcases inside_next hs hact hloop with hstays | hlost
    · exact content_of_inside (sound_next hs act) hstays
    · -- Nobody can abort the run loop of an actor that was open before.
      obtain ⟨_, _, ⟨y, hy, rfl, _⟩, _⟩ := due_of_lost hs hloop hlost
      cases h.1.symm.trans (closed_of_waits hs hy).1

/-- So does what has gone past a mailbox. -/
theorem content_of_bypass (hs : w.scene.Sound) (h : w.Closes act a) {t : TaskId} {b : ActorId}
    {c : Course} (ht : w.task? t = some (.bypass b k c)) :
    (w.next act).scene.content k = .empty := by
  by_cases htask : act = .move (.task t)
  · subst htask
    exact content_of_closer hs (operation?_of_bypass ht) h
  · have hstays := operation?_of_bypass (bypass_next hs ht htask)
    exact content_of_operation? (sound_next hs act) hstays

/-- What is pending waits in the mailbox, or the run loop is inside of it, or it is past the
mailbox. -/
theorem places_of_pending (acts : List Act) (hx : x ∈ commissions acts)
    (hnone : (run acts).outcome? x.handle = none) :
    x.handle ∈ (run acts).queued x.actor ∨ (run acts).running? x.actor = some x.handle ∨
      x.route = .bypass := by
  by_cases hroute : x.route = .bypass
  · exact .inr (.inr hroute)
  have hplaced := (ledger_run acts).placed x.toSending (mem_sendings hx) hroute
    (outcome?_eq_none_iff.mp hnone)
  rcases List.mem_append.mp hplaced with hcurrent | hwaiting
  · rw [← toList_running?, Option.mem_toList] at hcurrent
    exact .inr (.inl hcurrent)
  · rw [← queued_eq] at hwaiting
    exact .inl hwaiting

/-- **A close resolves nothing that has been begun with.** -/
theorem unresolved_of_closes (before : List Act) (h : (run before).Closes act x.actor)
    (hx : x ∈ commissions before) (hnone : (run before).outcome? x.handle = none)
    (hqueue : x.handle ∉ (run before).queued x.actor) :
    (run (before ++ [act])).outcome? x.handle = none := by
  have hs := sound_run before
  rw [outcome?_eq_none_iff, run_concat]
  rcases (places_of_pending before hx hnone).resolve_left hqueue with hrun | hroute
  · obtain ⟨i, hloop, hi⟩ := running?_eq_some.mp hrun
    exact hi ▸ content_of_closes hs h hloop
  · obtain ⟨t, c, ht⟩ := task_of_bypass (mem_sendings hx) hroute hnone
    exact content_of_bypass hs h ht

/-! ### Jobs -/

theorem ne_worker_of_closes (hs : w.scene.Sound) (h : w.Closes act a) (p : PoolId) (place : Nat) :
    act ≠ .move (.worker p place) := by
  rintro rfl
  rcases attends_of_closes hs h with ⟨m, hact, y, hy, -⟩ | ⟨hact, -⟩
  · cases hact
    cases hy
  · cases hact

/-- **A job that waits** is withdrawn when its actor is closed. -/
theorem lost_of_withdrawn (before later : List Act) (h : (run before).Closes act x.actor)
    (hx : x ∈ commissions before) (hanswer : x.answer = none) (hroute : x.route = .offloaded p j)
    (hqueued : j ∈ ((run before).pool p).queuedIds) :
    ((run (before ++ act :: later)).pool p).content j = .lost := by
  have hs := sound_run before
  have hmem := (record_isPrefix _ before [act]).subset hx
  obtain ⟨hlt, hj, -⟩ := workplace_run before x hx hanswer p j hroute
  have hp := lt_of_channels hlt
  obtain ⟨job, hjob, rfl⟩ := Pool.mem_queuedIds.mp hqueued
  have hgone := (escorted_run _ x.toSending (mem_sendings hmem) hanswer p job.id hroute).withdrawn
  rw [lane_scene, pool_scene, run_concat] at hgone
  replace hgone : job.id ∉ (((run before).next act).pool p).queuedIds := hgone h.2
  have hlost : ((run (before ++ [act])).pool p).content job.id = .lost := by
    rw [run_concat]
    rcases pool_next hs act hp hj with ⟨es, hpool, hes⟩ | ⟨place, e, hact, -⟩
    · rw [hpool] at hgone ⊢
      refine ((reachable_pool hs hp).queued_run hjob hes).resolve_left fun hstays => hgone ?_
      exact Pool.mem_queuedIds.mpr ⟨job, hstays, rfl⟩
    · exact absurd hact (ne_worker_of_closes hs h p place)
  rw [List.append_cons, content_job_run _ later hmem hanswer hroute (by simp [hlost]), hlost]

/-- **A job that runs** goes on when its actor is closed. -/
theorem runs_of_closes (before : List Act) (h : (run before).Closes act a)
    (hx : x ∈ commissions before) (hanswer : x.answer = none) (hroute : x.route = .offloaded p j)
    (hrun : j ∈ ((run before).pool p).runningIds) :
    j ∈ ((run (before ++ [act])).pool p).runningIds := by
  have hs := sound_run before
  obtain ⟨hlt, hj, -⟩ := workplace_run before x hx hanswer p j hroute
  cases begun_of_started before hx hanswer hroute (.inl hrun) with
  | @runs place job hat hid =>
    subst hid
    rw [run_concat]
    exact Pool.mem_runningIds_of_jobAt (jobAt_next hs hat hj (ne_worker_of_closes hs h p place))
  | ended _ hc =>
    rw [(reachable_pool hs (lt_of_channels hlt)).content_of_running hrun] at hc
    cases hc

/-- A job that has been begun with runs, or it has ended. -/
theorem Begun.runs_or_ended {ds : List Doing} (h : w.Begun x p j ds) :
    j ∈ (w.pool p).runningIds ∨ ∃ ending, .ends ending ∈ ds := by
  cases h with
  | runs hat hid _ => exact .inl (hid ▸ Pool.mem_runningIds_of_jobAt hat)
  | ended hmem _ => exact .inr ⟨_, hmem⟩

/-! ### Aborts -/

/-- Who aborts the run loop of a closed actor does so late. A run loop that its actor was closed on
is not aborted. -/
theorem late_of_aborts (before later : List Act) {act' : Act} (h : (run before).Closes act a)
    (haborts : (run (before ++ act :: later)).Aborts act' a) :
    act ≠ .move (.runLoop a) ∧ ¬(run before).IsEarly a (run (before ++ act :: later)).clock := by
  refine ⟨?_, ?_⟩
  · rintro rfl
    obtain ⟨m, -, ⟨y, hy, rfl, -⟩, -⟩ := haborts
    exact unattended_of_own before later h hy
  · rw [isEarly_iff, Nat.not_le]
    exact limit_of_aborts before later h haborts

/-- From an actor's close up to the end of its close timeout, the world has not come to rest. -/
def Starved (before acts : List Act) (a : ActorId) : Prop :=
  ¬(run before).IsEarly a (run acts).clock ∧ ∀ since rest, acts = before ++ since ++ rest →
    since ≠ [] → (run (before ++ since)).isQuiet = false

/-! ### Relays -/

/-- The run loop is inside of the relay of an offloaded operation. -/
theorem relay_of_running (acts : List Act) (hx : x ∈ commissions acts) (hanswer : x.answer = none)
    (hroute : x.route = .offloaded p j) (hrun : (run acts).running? x.actor = some x.handle) :
    ((run acts).actor x.actor).loop = .inside (.relay x.handle p j) := by
  have hs := sound_run acts
  obtain ⟨i, hloop, hi⟩ := running?_eq_some.mp hrun
  have hempty : (run acts).scene.content x.handle = .empty := hi ▸ content_of_inside hs hloop
  have hplaced := (escorted_run acts x.toSending (mem_sendings hx) hanswer p j hroute).placed hempty
  rw [lane_scene] at hplaced
  refine hplaced.resolve_right fun hqueue => ?_
  have hlt := lt_of_waiting hs hloop (List.mem_map_of_mem (f := Envelope.handle) hqueue)
  exact Nat.ne_of_lt hlt hi

/-- The run loop of a closed actor is inside of the relay of a job. -/
structure GivesWay (before acts : List Act) (x : Commission) (p : PoolId) (j : JobId) : Prop where
  /-- The job runs, or it has an outcome. -/
  known : j ∈ ((run acts).pool p).runningIds ∨ ∃ found, ((run acts).pool p).outcome? j = some found
  /-- With the next move of the run loop, the operation is told that it was cancelled, if the job
  still waited when the actor was closed, -/
  cancelled : j ∈ ((run before).pool p).queuedIds →
    (run acts).Resolves (.move (.runLoop x.actor)) x.handle (.error .cancelled)
  /-- or that the actor is closed, if the job runs, -/
  refused : j ∈ ((run acts).pool p).runningIds →
    (run acts).Resolves (.move (.runLoop x.actor)) x.handle
      (.error (.closed ((run before).actor x.actor).name))
  /-- or what has become of the job, if that is known already. -/
  told : ∀ found, ((run acts).pool p).outcome? j = some found →
    (run acts).Resolves (.move (.runLoop x.actor)) x.handle (found.mapError ActorError.ofPool)
  /-- There is nothing that this move waits for. -/
  restless : (run acts).isQuiet = false
  /-- The operation is told nothing else, unless the run loop is aborted before it comes to move. -/
  only : ∀ act o, (run acts).Resolves act x.handle o → act = .move (.runLoop x.actor) ∨
    o = .error .discarded ∧ (run acts).Aborts act x.actor ∧ Starved before acts x.actor

/-- A run loop that is to stop can leave a relay. -/
theorem restless_of_relay (before later : List Act) (h : (run before).Closes act x.actor)
    (hx : x ∈ commissions before) (hanswer : x.answer = none) (hroute : x.route = .offloaded p j)
    (hrun : (run before).running? x.actor = some x.handle)
    (hnone : (run (before ++ act :: later)).outcome? x.handle = none) :
    ((run (before ++ act :: later)).actor x.actor).loop = .inside (.relay x.handle p j) ∧
      ((run (before ++ act :: later)).actor x.actor).stopping = true ∧
      (run (before ++ act :: later)).isQuiet = false := by
  have hmem := (record_isPrefix _ before (act :: later)).subset hx
  have hloop := relay_of_running _ hmem hanswer hroute
    (running_run before (act :: later) hrun (outcome?_eq_none_iff.mp hnone))
  have hstop := stopping_run _ (.inl (closed_of_closes before later h))
  refine ⟨hloop, hstop, ?_⟩
  by_contra hquiet
  have hstays := (quiet_of_isQuiet (Bool.not_eq_false _ ▸ hquiet)).detained (sound_run _) hloop
  cases hstop.symm.trans hstays.1

/-- With its next move, a run loop that is to stop tells a relay what there is to tell. -/
theorem resolves_of_relay (hnone : w.outcome? k = none)
    (hloop : (w.actor a).loop = .inside (.relay k p j)) (hstop : (w.actor a).stopping = true) :
    w.Resolves (.move (.runLoop a)) k (((w.pool p).outcome? j).elim
      (.error (.closed (w.actor a).name)) (·.mapError ActorError.ofPool)) := by
  refine ⟨hnone, ?_⟩
  rw [outcome?_of_relay hnone hloop, if_pos hstop]
  cases (w.pool p).outcome? j <;> rfl

/-- Where the world comes to rest after a close, there is no relay to abort. -/
theorem starved_of_aborts (before later : List Act) {act' : Act}
    (h : (run before).Closes act x.actor) (hx : x ∈ commissions before) (hanswer : x.answer = none)
    (hroute : x.route = .offloaded p j) (hrun : (run before).running? x.actor = some x.handle)
    (hnone : (run (before ++ act :: later)).outcome? x.handle = none)
    (haborts : (run (before ++ act :: later)).Aborts act' x.actor) :
    Starved before (before ++ act :: later) x.actor := by
  refine ⟨(late_of_aborts before later h haborts).2, fun since rest hacts hsince => ?_⟩
  obtain ⟨first, since, rfl⟩ := List.exists_cons_of_ne_nil hsince
  obtain ⟨rfl, rfl⟩ : act = first ∧ later = since ++ rest := by simpa using hacts
  have hmem := (record_isPrefix _ before (act :: since)).subset hx
  have hmade := (escorted_run _ x.toSending (mem_sendings hmem) hanswer p j hroute).made
  refine (restless_of_relay before since h hx hanswer hroute hrun ?_).2.2
  rw [outcome?_eq_none_iff] at hnone ⊢
  exact empty_before _ rest (by simpa using hmade) (by simpa using hnone)

/-- **A run loop does not stay inside of a relay** when its actor is closed. -/
theorem givesWay_of_closes (before later : List Act) (h : (run before).Closes act x.actor)
    (hx : x ∈ commissions before) (hanswer : x.answer = none) (hroute : x.route = .offloaded p j)
    (hrun : (run before).running? x.actor = some x.handle)
    (hnone : (run (before ++ act :: later)).outcome? x.handle = none) :
    GivesWay before (before ++ act :: later) x p j := by
  have hs := sound_run (before ++ act :: later)
  have hmem := (record_isPrefix _ before (act :: later)).subset hx
  obtain ⟨hloop, hstop, hquiet⟩ := restless_of_relay before later h hx hanswer hroute hrun hnone
  have hesc := escorted_run _ x.toSending (mem_sendings hmem) hanswer p j hroute
  have hr := reachable_pool hs (by simpa using hesc.pool_lt)
  have hres := resolves_of_relay hnone hloop hstop
  have told : ∀ {found}, ((run (before ++ act :: later)).pool p).outcome? j = some found →
      (run (before ++ act :: later)).Resolves (.move (.runLoop x.actor)) x.handle
        (found.mapError ActorError.ofPool) := by
    intro found hfound
    rwa [hfound] at hres
  refine ⟨?_, fun hqueued => ?_, fun hruns => ?_, fun _ => told, hquiet, fun act' o hact => ?_⟩
  · cases hfound : ((run (before ++ act :: later)).pool p).outcome? j with
    | some found => exact .inr ⟨found, rfl⟩
    | none =>
      have hgone := hesc.withdrawn
      rw [lane_scene, pool_scene] at hgone
      exact .inl ((hr.waits_or_runs (Pool.outcome?_eq_none_iff.mp hfound)).resolve_left
        (hgone (closed_of_closes before later h)))
  · exact told (Pool.outcome?_of_lost
      (lost_of_withdrawn before later h hx hanswer hroute hqueued))
  · have hlt := lt_of_inside (relay_of_running before hx hanswer hroute hrun)
    rwa [Pool.outcome?_eq_none_iff.mpr (hr.content_of_running hruns),
      name_run before (act :: later) hlt] at hres
  · exact (moves_or_aborted hs hloop hact).imp_right fun ⟨ho, haborts⟩ =>
      ⟨ho, haborts, starved_of_aborts before later h hx hanswer hroute hrun hnone haborts⟩

/-! ### Ordered operations -/

/-- The run loop of a closed actor is inside of an ordered operation. -/
structure MayFinish (before : List Act) (act : Act) (acts : List Act) (x : Commission) : Prop where
  /-- It resolves with its own outcome, unless the run loop is aborted. -/
  resolves : ∀ act' o, (run acts).Resolves act' x.handle o →
    x.Own (acts ++ [act']) o ∨ o = .error .discarded ∧ (run acts).Aborts act' x.actor
  /-- If the run loop is aborted first, it is discarded. -/
  aborted : ∀ act', (run acts).outcome? x.handle = none → (run acts).Aborts act' x.actor →
    (run acts).Resolves act' x.handle (.error .discarded)
  /-- If it has closed the actor itself, it is never discarded. -/
  own : act = .move (.runLoop x.actor) → ∀ act' o, (run acts).Resolves act' x.handle o →
    x.Own (acts ++ [act']) o
  /-- Otherwise, where nothing moves, it is done once the close timeout has passed, unless the one
  who closes the actor has been broken off. -/
  overdue : act ≠ .move (.runLoop x.actor) → (run acts).isQuiet = true →
    ¬(run before).IsEarly x.actor (run acts).clock → ¬BrokenOff acts x.actor →
    (run acts).outcome? x.handle ≠ none
  /-- What it waits for until then is a gate or another actor. -/
  detained : (run acts).isQuiet = true → (run acts).outcome? x.handle = none →
    (run acts).AtGate (.runLoop x.actor) ∨ (run acts).Awaits (.runLoop x.actor)

/-- **An ordered operation may finish** when its actor is closed. -/
theorem mayFinish_of_closes (before later : List Act) (h : (run before).Closes act x.actor)
    (hx : x ∈ commissions before) (hanswer : x.answer = none) (hroute : x.route = .ordered)
    (hrun : (run before).running? x.actor = some x.handle) :
    MayFinish before act (before ++ act :: later) x := by
  have hs := sound_run (before ++ act :: later)
  have hmem := (record_isPrefix _ before (act :: later)).subset hx
  have hstays : (run (before ++ act :: later)).outcome? x.handle = none →
      (run (before ++ act :: later)).running? x.actor = some x.handle := fun hnone =>
    running_run before (act :: later) hrun (outcome?_eq_none_iff.mp hnone)
  have hresolves : ∀ {act' o}, (run (before ++ act :: later)).Resolves act' x.handle o →
      x.Own (before ++ act :: later ++ [act']) o ∨
        o = .error .discarded ∧ (run (before ++ act :: later)).Aborts act' x.actor := fun hres =>
    own_or_aborted _ hmem hroute hanswer (hstays hres.1) hres
  refine ⟨fun _ _ => hresolves, fun act' hnone haborts => ⟨hnone, ?_⟩, fun hown act' o hres => ?_,
    fun hother hquiet hlate hbroken hnone => ?_, fun hquiet hnone => ?_⟩
  · obtain ⟨i, hloop, hi⟩ := running?_eq_some.mp (hstays hnone)
    exact hi ▸ outcome?_of_lost (lost_of_aborts hs hloop haborts)
  · exact (hresolves hres).resolve_right fun ⟨_, haborts⟩ =>
      (late_of_aborts before later h haborts).1 hown
  · obtain ⟨m, rfl, -⟩ := (attends_of_closes (sound_run before) h).resolve_right fun hown =>
      hother hown.1
    rcases gone_or_attends before later h with hattends | ⟨-, hgone⟩ | ⟨hended, -⟩
    · exact (quiet_of_isQuiet hquiet).not_attends h hlate hattends
    · exact hbroken hgone
    · obtain ⟨i, hloop, -⟩ := running?_eq_some.mp (hstays hnone)
      cases (hended fun hm => hother (congrArg Act.move hm)).symm.trans hloop
  · obtain ⟨i, hloop, -⟩ := running?_eq_some.mp (hstays hnone)
    have hdetained := (quiet_of_isQuiet hquiet).detained hs hloop
    cases i with
    | operation _ _ => exact hdetained
    | relay _ _ _ =>
      cases hdetained.1.symm.trans (stopping_run _ (.inl (closed_of_closes before later h)))

/-! ### Everything together -/

/-- **With the act** that closes an actor nothing else happens. -/
structure Closed (a : ActorId) (before : List Act) (act : Act) : Prop where
  /-- What is pending waits in the mailbox, or the run loop is inside of it, or it is past the
  mailbox. -/
  places : ∀ x ∈ commissions before, x.actor = a → (run before).outcome? x.handle = none →
    x.handle ∈ (run before).queued a ∨ (run before).running? a = some x.handle ∨ x.route = .bypass
  /-- Nothing is resolved but what waits. -/
  pending : ∀ x ∈ commissions before, x.actor = a → (run before).outcome? x.handle = none →
    x.handle ∉ (run before).queued a → (run (before ++ [act])).outcome? x.handle = none
  /-- The jobs that run go on. -/
  running : ∀ x ∈ commissions before, x.actor = a → x.answer = none → ∀ p j,
    x.route = .offloaded p j → j ∈ ((run before).pool p).runningIds →
    j ∈ ((run (before ++ [act])).pool p).runningIds

/-- **What becomes of everything** after an actor has been closed. -/
structure Closure (a : ActorId) (before : List Act) (act : Act) (acts : List Act) : Prop where
  /-- What waited in the mailbox is discarded, -/
  discarded : ∀ k ∈ (run before).queued a, (run acts).outcome? k = some (.error .discarded)
  /-- and of what waited there or in pools nothing is ever run. -/
  never : ∀ x ∈ backlog a before, history x.site acts = []
  /-- Jobs that waited are withdrawn. -/
  withdrawn : ∀ x ∈ commissions before, x.actor = a → x.answer = none → ∀ p j,
    x.route = .offloaded p j → j ∈ ((run before).pool p).queuedIds →
    ((run acts).pool p).outcome? j = some (.error .cancelled)
  /-- Jobs that were begun with run, or have ended. -/
  begun : ∀ x ∈ commissions before, x.actor = a → x.answer = none → ∀ p j,
    x.route = .offloaded p j →
    j ∈ ((run before).pool p).runningIds ∨ history (.job p j) before ≠ [] →
    j ∈ ((run acts).pool p).runningIds ∨ ∃ ending, .ends ending ∈ history (.job p j) acts
  /-- A relay that the run loop was inside of is resolved with the next move of the run loop. -/
  relay : ∀ x ∈ commissions before, x.actor = a → x.answer = none → ∀ p j,
    x.route = .offloaded p j → (run before).running? a = some x.handle →
    (run acts).outcome? x.handle = none → GivesWay before acts x p j
  /-- An ordered operation that the run loop was inside of may finish. -/
  operation : ∀ x ∈ commissions before, x.actor = a → x.answer = none → x.route = .ordered →
    (run before).running? a = some x.handle → MayFinish before act acts x
  /-- Nobody aborts the run loop before the close timeout has passed, and nobody does at all if the
  actor was closed on it. -/
  aborts : ∀ act', (run acts).Aborts act' a →
    act ≠ .move (.runLoop a) ∧ ¬(run before).IsEarly a (run acts).clock
  /-- Operations past the mailbox resolve with their own outcomes. -/
  bypass : ∀ x ∈ commissions before, x.actor = a → x.answer = none → x.route = .bypass →
    ∀ act' o, (run acts).Resolves act' x.handle o → x.Own (acts ++ [act']) o

/-- **What a close does to each pending operation**, at once and in the end. -/
theorem closing_resolves (before : List Act) (act : Act) (a : ActorId)
    (h : (run before).Closes act a) :
    Closed a before act ∧ ∀ later, Closure a before act (before ++ act :: later) := by
  have hs := sound_run before
  refine ⟨⟨?_, ?_, ?_⟩, fun later => ⟨fun k hk => ?_, fun x hx => ?_, ?_, ?_, ?_, ?_, ?_, ?_⟩⟩
  · rintro x hx rfl hnone
    exact places_of_pending before hx hnone
  · rintro x hx rfl hnone hqueue
    exact unresolved_of_closes before h hx hnone hqueue
  · rintro x hx rfl hanswer p j hroute hrun
    exact runs_of_closes before h hx hanswer hroute hrun
  · obtain ⟨e, he, rfl⟩ := List.mem_map.mp hk
    exact outcome?_of_lost (lost_of_waiting before later he (lost_of_closes hs h he))
  · obtain ⟨hmem, rfl, hpends⟩ := mem_backlog.mp hx
    rcases cases_of_pends before hmem hpends with
      ⟨_, hsite, hqueue⟩ | ⟨p, j, hroute, hanswer, hsite, hqueued⟩
    · refine never_of_lost before later hmem hsite hqueue ?_
      rw [run_concat]
      exact lost_of_closes hs h hqueue
    · have hnever := history_of_withheld ((record_isPrefix _ before (act :: later)).subset hmem)
        hanswer hroute (.inl (lost_of_withdrawn before later h hmem hanswer hroute hqueued)) []
      rwa [List.append_nil, ← hsite] at hnever
  · rintro x hx rfl hanswer p j hroute hqueued
    exact Pool.outcome?_of_lost (lost_of_withdrawn before later h hx hanswer hroute hqueued)
  · rintro x hx rfl hanswer p j hroute hstarted
    have hbegun := begun_of_started before hx hanswer hroute hstarted
    exact (begun_run before (act :: later) hx hanswer hroute hbegun).runs_or_ended
  · rintro x hx rfl hanswer p j hroute hrun hnone
    exact givesWay_of_closes before later h hx hanswer hroute hrun hnone
  · rintro x hx rfl hanswer hroute hrun
    exact mayFinish_of_closes before later h hx hanswer hroute hrun
  · exact fun act' haborts => late_of_aborts before later h haborts
  · rintro x hx rfl hanswer hroute act' o hres
    exact own_of_bypass _ ((record_isPrefix _ before (act :: later)).subset hx) hroute hanswer hres

/-- A run loop is inside of the relay of a job that runs. Behind it wait an operation and the relay
of a job that waits. Another operation has gone past the mailbox. A client closes the actor. -/
def relayRun : List Act :=
  [.call (.createActor "a" "n" "log" {}), .call (.createPool "p" "crew" 1),
    .call (.send (.offload "a" "p" false [.gate "g", .push "side"] .value (.watched "u"))),
    .call (.send (.operation .ordered "a" [.effect (.push "main")] .value (.watched "v"))),
    .call (.send (.offload "a" "p" false [.push "second"] .value (.watched "x"))),
    .call (.send (.operation .bypass "a" [.effect (.gate "k")] .value (.watched "y"))),
    .move (.runLoop 0), .move (.runLoop 0), .move (.worker 0 0), .call (.close "a" "z")]

/-- The run loop moves, and later the gates are opened. -/
def relayLater : List Act :=
  [.move (.runLoop 0), .call (.openGate "g"), .call (.openGate "k"), .move (.worker 0 0),
    .move (.worker 0 0), .move (.worker 0 0), .move (.task 0), .move (.task 0)]

/-- The first relay is told that the actor is closed, the rest of the mailbox is discarded, and what
had been begun with ends as it would have. -/
theorem closing_resolves_relayRun :
    let act : Act := .move (.task 1)
    let acts := relayRun ++ act :: relayLater
    (run relayRun).Closes act 0 ∧ Closed 0 relayRun act ∧ Closure 0 relayRun act acts ∧
      (run relayRun).running? 0 = some 0 ∧ (run relayRun).queued 0 = [1, 2] ∧
      (run acts).outcome? 0 = some (.error (.closed "n")) ∧
      (run acts).outcome? 1 = some (.error .discarded) ∧
      (run acts).outcome? 2 = some (.error .discarded) ∧
      (run acts).outcome? 3 = some (.ok .null) ∧
      ((run acts).pool 0).outcome? 0 = some (.ok .null) ∧
      ((run acts).pool 0).outcome? 1 = some (.error .cancelled) := by
  have hcloses : (run relayRun).Closes (.move (.task 1)) 0 := ⟨by decide +kernel, by decide +kernel⟩
  obtain ⟨hclosed, hclosure⟩ := closing_resolves relayRun (.move (.task 1)) 0 hcloses
  refine ⟨hcloses, hclosed, hclosure relayLater, ?_, ?_, ?_, ?_, ?_, ?_, ?_, ?_⟩
  all_goals decide +kernel

end World

end Troupe
