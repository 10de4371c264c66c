import Troupe.Proofs.World.Deadlines
import Troupe.Proofs.World.Finality
import Troupe.Proofs.World.Quiet

/-!
# How handles resolve

A handle that has been made shows nothing, until one act of the run resolves it; what it shows then
is its outcome, even if somebody takes it later. This module says which outcomes there are. What
runs on a run loop or as a task resolves with what its body ends with, or it is lost. An offloaded
operation resolves when the run loop comes to its relay: with the outcome of the job, if there is
one by then, and with a refusal if there is none and the run loop is to stop. If the run loop does
not come to the relay any more, the relay is dropped.

## Main definitions

* `World.Resolves` — an act resolves a handle
* `Commission.Own` — an outcome that is what the body has ended with
* `World.Relieved` — how the handle of a relay resolves
* `World.Begun` — a worker has begun with a job

## Main results

* `World.Resolves.cases` — a handle that resolves has its outcome, or it is lost
* `World.own_of_bypass`, `World.own_or_aborted`, `World.own_of_begun` — what has begun resolves with
  its own outcome, and what can come in between
* `World.dropped_of_resolves` — what waits is resolved only by being dropped
* `World.moves_or_aborted` — what a run loop is inside of is resolved by the run loop itself
* `World.relieved_of_resolves` — the outcomes of relays
* `World.begun_run` — a job that a worker has begun with is not taken away
-/

namespace Troupe

variable {s t : Scene} {ms : List Mark} {h : HandleId}

/-- Nobody takes an outcome without leaving a mark. -/
theorem Deed.drained_before (d : Deed ms s t) (hm : .drained h ∉ ms)
    (hd : t.content h = .drained) : s.content h = .drained := by
  have settle : ∀ {hs c}, c ≠ .drained → (s.settleAll hs c).content h = .drained →
      s.content h = .drained := by
    intro hs c hc hd
    rw [Scene.content_settleAll] at hd
    split at hd
    · cases hold : s.content h <;> simp_all [Content.settle]
    · exact hd
  have grow : ∀ {c}, c ≠ .drained → (s.grow c).content h = .drained → s.content h = .drained := by
    intro c hc hd
    rw [Scene.content_grow] at hd
    split at hd
    · exact absurd hd hc
    · exact hd
  cases d with
  | roster _ _ | enroll _ | found _ | pool _ _ | stop _ | setTask _ _ _ _ | remember _ _ => exact hd
  | start _ | enter _ _ _ | proceed _ _ => exact hd
  | settled _ | begin _ _ _ | accept _ _ _ _ _ => exact grow (by simp) hd
  | drain k =>
    rw [Scene.content_onContent] at hd
    split at hd
    · rename_i hk
      exact absurd (hk.1 ▸ List.mem_singleton_self _) hm
    · exact hd
  | endTask _ _ | finish _ _ _ => exact settle (by simp) hd
  | clear _ | shut _ _ _ | abort _ | quit _ _ =>
    rw [Scene.content_onLane_settleAll] at hd
    exact settle (by simp) hd

theorem Deeds.drained_before (d : Deeds ms s t) (hm : .drained h ∉ ms)
    (hd : t.content h = .drained) : s.content h = .drained := by
  induction d with
  | refl s => exact hd
  | cons d _ ih =>
    rw [List.mem_append, not_or] at hm
    exact d.drained_before hm.1 (ih hm.2 hd)

/-- An outcome is what the body of an operation has ended with. -/
def Commission.Own (x : Commission) (acts : List World.Act) (o : Except ActorError Json) : Prop :=
  ∃ ending, .ends ending ∈ World.history x.site acts ∧ o = x.outcomeOf ending

namespace World

variable {w : World} {act : Act} {a : ActorId} {p : PoolId} {j : JobId} {k : HandleId}
  {o : Except ActorError Json} {x : Commission}

/-! ### Resolving -/

/-- With an act, a handle that has shown nothing comes to show an outcome. -/
def Resolves (w : World) (act : Act) (k : HandleId) (o : Except ActorError Json) : Prop :=
  w.outcome? k = none ∧ (w.next act).outcome? k = some o

theorem content_take {name : String} (hname : w.handleNamed name = .ok (.operation k)) :
    (w.next (.call (.take name))).scene.content k = (w.scene.content k).drain := by
  have hnext : w.next (.call (.take name)) = (w.drain (.operation k)).release := by
    simp [next, call, answer, hname, bind, Except.bind, pure, Except.pure]
  have hdrain : (w.drain (.operation k)).scene = w.scene.onContent k Content.drain :=
    scene_onChannel Channel.content_drain
  rw [hnext, content_scene, channel_release, ← content_scene, hdrain, Scene.content_onContent]
  split
  · rfl
  · rename_i hk
    have hlost : w.scene.content k = .lost := by
      refine Scene.content_of_le (Nat.le_of_not_lt fun hlt => hk ⟨rfl, hlt⟩)
    rw [hlost]
    rfl

/-- **A handle that resolves** has its outcome, or it is lost and shows as discarded. -/
theorem Resolves.cases (hs : w.scene.Sound) (h : w.Resolves act k o) :
    (w.next act).scene.content k = .full o ∨
      (w.next act).scene.content k = .lost ∧ o = .error .discarded := by
  obtain ⟨hnone, hsome⟩ := h
  rw [outcome?_eq_none_iff] at hnone
  rcases outcome?_cases hsome with hfull | ⟨hne, ho⟩
  · exact .inl hfull
  cases hc : (w.next act).scene.content k with
  | empty => exact absurd hc hne
  | lost => exact .inr ⟨rfl, ho⟩
  | full o' =>
    obtain rfl : o' = o := by simpa [outcome?_of_full hc] using hsome
    exact .inl rfl
  | drained =>
    exfalso
    obtain ⟨ms, d, hms⟩ := fits_next hs act
    by_cases hm : .drained k ∈ ms
    · obtain ⟨name, rfl, hname⟩ := hms _ hm
      rw [content_take hname, hnone] at hc
      cases hc
    · rw [d.drained_before hm hc] at hnone
      cases hnone

theorem outcome?_of_lost (h : w.scene.content k = .lost) :
    w.outcome? k = some (.error .discarded) := by
  rw [content_scene] at h
  simp [outcome?, Channel.peek, h]

/-- What nobody has resolved before is empty, and is not empty afterwards. -/
theorem Resolves.contents (h : w.Resolves act k o) :
    w.scene.content k = .empty ∧ (w.next act).scene.content k ≠ .empty := by
  refine ⟨outcome?_eq_none_iff.mp h.1, fun he => ?_⟩
  have hsome := h.2
  rw [outcome?_eq_none_iff.mpr he] at hsome
  cases hsome

/-! ### What runs on run loops and as tasks -/

/-- A move does not lose the operation that it is about. -/
theorem kept_of_operation (hs : w.scene.Sound) {m : Mover} {r : Runner} {c : Course}
    (hm : w.operation? m = some (r, k, c)) : (w.next (.move m)).scene.content k ≠ .lost := by
  intro hlost
  cases hstep : w.stepCourse r c with
  | none =>
    rw [next_of_stuck ((operation?_stuck hm).mpr hstep), content_of_operation? hs hm] at hlost
    cases hlost
  | some x =>
    obtain ⟨progress, w₁⟩ := x
    cases progress with
    | goesOn c' =>
      have hstays := operation?_goesOn hs hm hstep
      rw [content_of_operation? (sound_next hs _) hstays] at hlost
      cases hlost
    | ends ending =>
      rw [(operation?_ends hs hm hstep).1] at hlost
      cases hlost

/-- **The outcomes of what runs on run loops and as tasks**: what the body ends with, or nothing at
all. -/
theorem told_of_resolves (acts : List Act) (hx : x ∈ commissions acts)
    (hsite : x.site = .operation x.handle) (hanswer : x.answer = none)
    (h : (run acts).Resolves act x.handle o) :
    x.Own (acts ++ [act]) o ∨
      (run (acts ++ [act])).scene.content x.handle = .lost ∧ o = .error .discarded := by
  rcases h.cases (sound_run acts) with hfull | hlost
  · refine .inl ?_
    rw [← run_concat] at hfull
    have hmem := (record_isPrefix _ acts [act]).subset hx
    have hplace := whereabouts_run (acts ++ [act]) x hmem hsite
    rcases hplace.told (sound_run _) hfull with ⟨hnow, _⟩ | htold
    · rw [hanswer] at hnow
      cases hnow
    · rwa [Commission.Own, hsite]
  · exact .inr (run_concat acts act ▸ hlost)

/-- An unresolved operation past the mailbox is not lost. -/
theorem kept_of_bypass (acts : List Act) (hx : x ∈ commissions acts) (hroute : x.route = .bypass)
    (hnone : (run acts).outcome? x.handle = none) (act : Act) :
    ((run acts).next act).scene.content x.handle ≠ .lost := by
  have hs := sound_run acts
  obtain ⟨t, course, ht⟩ := task_of_bypass (mem_sendings hx) hroute hnone
  by_cases htask : act = .move (.task t)
  · exact htask ▸ kept_of_operation hs (operation?_of_bypass ht)
  · have hstays := operation?_of_bypass (bypass_next hs ht htask)
    rw [content_of_operation? (sound_next hs act) hstays]
    simp

/-- **An operation past the mailbox** resolves with its own outcome. -/
theorem own_of_bypass (acts : List Act) (hx : x ∈ commissions acts) (hroute : x.route = .bypass)
    (hanswer : x.answer = none) (h : (run acts).Resolves act x.handle o) :
    x.Own (acts ++ [act]) o := by
  have hsite : x.site = .operation x.handle := by rw [Commission.site, hroute]
  refine (told_of_resolves acts hx hsite hanswer h).resolve_right ?_
  rintro ⟨hlost, -⟩
  rw [run_concat] at hlost
  exact kept_of_bypass acts hx hroute h.1 act hlost

/-! ### What is dropped -/

/-- **An envelope that waits** is resolved only by being dropped. -/
theorem dropped_of_resolves (hs : w.scene.Sound) {e : Envelope}
    (he : e ∈ (w.actor a).mailbox.queue) (h : w.Resolves act e.handle o) :
    DropReason a w act e.handle ∧ o = .error .discarded := by
  have hempty : ∀ k ∈ ((w.next act).scene.lane a).handles, k ≠ e.handle := by
    rintro k hk rfl
    exact h.contents.2 ((sound_next hs act).content_of_handles hk)
  have hdrops : e.handle ∈ w.drops a act := by
    refine List.mem_filter.mpr ⟨List.mem_map_of_mem he, ?_⟩
    simp only [decide_eq_true_eq, List.mem_append, not_or]
    refine ⟨fun hstarts => ?_, fun hqueued => ?_⟩
    · rw [starts] at hstarts
      split at hstarts
      · cases hstarts
      · rw [toList_running?] at hstarts
        exact hempty _ (List.mem_append_left _ hstarts) rfl
    · rw [queued_eq] at hqueued
      exact hempty _ (List.mem_append_right _ hqueued) rfl
  obtain ⟨hreason, hlost⟩ := (shift_next hs a act).of_drops hdrops
  exact ⟨hreason, Option.some.inj (h.2.symm.trans (outcome?_of_lost (content_scene .. ▸ hlost)))⟩

/-- Nobody works on an operation that waits. -/
theorem not_worksOn_of_waiting (hs : w.scene.Sound) {e : Envelope}
    (he : e ∈ (w.actor a).mailbox.queue) : ¬w.WorksOn (.operation e.handle) := by
  obtain ⟨place, hplace⟩ := List.mem_iff_getElem?.mp he
  have hqueued : w.Completes e.handle (.queued a place) := .queued hplace rfl
  rintro ⟨m, ds, hd⟩
  obtain ⟨r, c, hm, _⟩ := doing?_eq_some.mp hd
  cases m with
  | runLoop b => cases hqueued.unique hs (.inside (loop_of_operation? hm).2 rfl)
  | task t =>
    obtain ⟨_, _, ht⟩ := task?_of_operation? hm
    cases hqueued.unique hs (.task ht rfl)
  | worker _ _ | grace _ => cases hm

/-- Nothing has been done for an operation that waits. -/
theorem history_of_waiting (acts : List Act) (hx : x ∈ commissions acts)
    (hsite : x.site = .operation x.handle)
    (hqueue : .operation x.handle x.body x.kind ∈ ((run acts).actor a).mailbox.queue) :
    history (.operation x.handle) acts = [] := by
  have hs := sound_run acts
  have hplace := whereabouts_run acts x hx hsite
  generalize history (.operation x.handle) acts = ds at hplace
  cases hplace with
  | waits _ _ => rfl
  | runs _ hm _ _ => exact absurd (worksOn_operation hm) (not_worksOn_of_waiting hs hqueue)
  | resolved _ hne _ _ =>
    exact absurd (hs.content_of_handles (List.mem_append_right _ (handle_mem_waiting hqueue))) hne

/-- What is lost while it waits stays lost. -/
theorem lost_of_waiting (before later : List Act) {e : Envelope}
    (hqueue : e ∈ ((run before).actor a).mailbox.queue)
    (hlost : ((run before).next act).scene.content e.handle = .lost) :
    (run (before ++ act :: later)).scene.content e.handle = .lost := by
  have hold := (sound_run before).lt_of_handles
    (List.mem_append_right _ (handle_mem_waiting hqueue))
  have hmade := Nat.lt_of_lt_of_le hold (grows_run before [act]).contents
  rw [← run_concat] at hlost
  rw [List.append_cons]
  exact (grows_run _ later).lost _ hmade hlost

/-- An operation that is lost while it waits is never run. -/
theorem never_of_lost (before later : List Act) (hx : x ∈ commissions before)
    (hsite : x.site = .operation x.handle)
    (hqueue : .operation x.handle x.body x.kind ∈ ((run before).actor x.actor).mailbox.queue)
    (hlost : (run (before ++ [act])).scene.content x.handle = .lost) :
    history x.site (before ++ act :: later) = [] := by
  have hs := sound_run before
  have hmade : (run (before ++ [act])).HasMade (.operation x.handle) := by
    rw [run_concat, ← hsite]
    exact (hasMade_run before hx).next hs act
  rw [hsite, List.append_cons, history_of_resolved _ _ hmade (by rw [hlost]; simp), history_concat,
    history_of_waiting before hx hsite hqueue, List.nil_append]
  by_contra hdone
  exact not_worksOn_of_waiting hs hqueue (worksOn_of_doings hdone)

/-! ### What a run loop is inside of -/

/-- A run loop that moves loses nothing. -/
theorem kept_of_runLoop (hs : w.scene.Sound) {i : Inside} (hloop : (w.actor a).loop = .inside i) :
    (w.next (.move (.runLoop a))).scene.content i.handle ≠ .lost := by
  intro hlost
  have hempty : w.outcome? i.handle = none := outcome?_eq_none_iff.mpr (content_of_inside hs hloop)
  have hres : w.Resolves (.move (.runLoop a)) i.handle (.error .discarded) :=
    ⟨hempty, outcome?_of_lost hlost⟩
  cases i with
  | operation k c => exact kept_of_operation hs (operation?_of_inside hloop) hlost
  | relay k p j =>
    -- A job has no outcome that says so.
    have hshown := (outcome?_of_relay hempty hloop).symm.trans hres.2
    split at hshown
    · rename_i found _
      rcases found with (_ | _) | _ <;> simp [Except.mapError, ActorError.ofPool] at hshown
    · split at hshown <;> simp at hshown

/-- **What a run loop is inside of** is lost only when the run loop is aborted, and that is when it
is due. -/
theorem due_of_lost (hs : w.scene.Sound) {i : Inside} (hloop : (w.actor a).loop = .inside i)
    (hlost : (w.next act).scene.content i.handle = .lost) : w.Aborts act a := by
  refine due_of_aborted hs (fun hact => kept_of_runLoop hs hloop (hact ▸ hlost)) fun hsame => ?_
  rw [content_of_inside (sound_next hs act) (hsame.trans hloop)] at hlost
  cases hlost

/-- An abort loses what the run loop is inside of. -/
theorem lost_of_aborts (hs : w.scene.Sound) {i : Inside} (hloop : (w.actor a).loop = .inside i)
    (h : w.Aborts act a) : (w.next act).scene.content i.handle = .lost := by
  obtain ⟨m, rfl, ⟨y, hy, hya, -⟩, hended⟩ := h
  have hm : Act.move m ≠ .move (.runLoop a) := by
    intro hm
    exact (closed_of_waits hs hy).2 (by rw [Act.move.inj hm, hya])
  refine (inside_next hs hm hloop).resolve_left fun hinside => ?_
  cases hended.symm.trans hinside

/-- **What a run loop is inside of** is resolved by the run loop itself, unless it is aborted. -/
theorem moves_or_aborted (hs : w.scene.Sound) {i : Inside} (hloop : (w.actor a).loop = .inside i)
    (h : w.Resolves act i.handle o) :
    act = .move (.runLoop a) ∨ o = .error .discarded ∧ w.Aborts act a := by
  by_cases hact : act = .move (.runLoop a)
  · exact .inl hact
  rcases inside_next hs hact hloop with hstays | hlost
  · exact absurd (content_of_inside (sound_next hs act) hstays) h.contents.2
  · have ho := Option.some.inj (h.2.symm.trans (outcome?_of_lost hlost))
    exact .inr ⟨ho, due_of_lost hs hloop hlost⟩

/-- **An ordered operation that has begun** resolves with its own outcome, unless its run loop is
aborted. -/
theorem own_or_aborted (acts : List Act) (hx : x ∈ commissions acts) (hroute : x.route = .ordered)
    (hanswer : x.answer = none) (hrun : (run acts).running? x.actor = some x.handle)
    (h : (run acts).Resolves act x.handle o) :
    x.Own (acts ++ [act]) o ∨ o = .error .discarded ∧ (run acts).Aborts act x.actor := by
  have hsite : x.site = .operation x.handle := by rw [Commission.site, hroute]
  refine (told_of_resolves acts hx hsite hanswer h).imp_right ?_
  rintro ⟨hlost, ho⟩
  refine ⟨ho, ?_⟩
  obtain ⟨i, hloop, hi⟩ := running?_eq_some.mp hrun
  exact due_of_lost (sound_run acts) hloop (by rw [hi, ← run_concat]; exact hlost)

/-- Whoever is to stop stays so. -/
theorem stopping_next (hs : w.scene.Sound) (act : Act) (hstop : (w.actor a).stopping = true) :
    ((w.next act).actor a).stopping = true := by
  obtain ⟨ms, d, _⟩ := fits_next hs act
  have hlt : a < w.scene.lanes.length := by
    by_contra hge
    have hlane := Scene.lane_of_le (Nat.le_of_not_lt hge)
    rw [lane_scene] at hlane
    cases hstop.symm.trans (congrArg Lane.stopping hlane)
  have hgrows := (Scene.Grows.of_deeds d).lane a hlt
  rw [lane_scene, lane_scene] at hgrows
  exact hgrows.stopping hstop

/-- How the handle of a relay resolves. -/
inductive Relieved (w : World) (act : Act) (a : ActorId) (p : PoolId) (j : JobId) :
    Except ActorError Json → Prop where
  /-- The run loop comes to the relay and finds the outcome of the job. -/
  | told {found : Except PoolError Json} (hact : act = .move (.runLoop a))
    (hfound : (w.pool p).outcome? j = some found) :
    Relieved w act a p j (found.mapError ActorError.ofPool)
  /-- The run loop is to stop, and does not wait for the job. -/
  | refused (hact : act = .move (.runLoop a)) (hstop : (w.actor a).stopping = true)
    (hnone : (w.pool p).outcome? j = none) :
    Relieved w act a p j (.error (.closed (w.actor a).name))
  /-- The run loop has come to an end, or will not come to the relay any more. -/
  | dropped (hstop : ((w.next act).actor a).stopping = true) :
    Relieved w act a p j (.error .discarded)

/-- A relay that the run loop is inside of. -/
theorem relieved_of_inside (acts : List Act)
    (hloop : ((run acts).actor a).loop = .inside (.relay k p j))
    (h : (run acts).Resolves act k o) : (run acts).Relieved act a p j o := by
  have hs := sound_run acts
  rcases moves_or_aborted hs hloop h with hact | ⟨rfl, _, _, _, hended⟩
  · have hshown := hact ▸ outcome?_of_relay h.1 hloop
    rw [h.2] at hshown
    split at hshown
    · rename_i found hfound
      rw [Option.some.inj hshown]
      exact .told hact hfound
    · rename_i hnone
      split at hshown
      · rename_i hstop
        rw [Option.some.inj hshown]
        exact .refused hact hstop hnone
      · cases hshown
  · rw [← run_concat] at hended
    refine .dropped ?_
    rw [← run_concat]
    exact stopping_run _ (.inr hended)

/-- A relay that waits. -/
theorem relieved_of_waiting (acts : List Act)
    (hqueue : .relay k p j ∈ ((run acts).actor a).mailbox.queue)
    (h : (run acts).Resolves act k o) : (run acts).Relieved act a p j o := by
  obtain ⟨hreason, rfl⟩ := dropped_of_resolves (e := .relay k p j) (sound_run acts) hqueue h
  refine .dropped ?_
  cases hreason with
  | cleared _ he hh hrelay =>
    obtain rfl := eq_of_waiting (sound_run acts) he hqueue hh
    cases hrelay
  | closed _ hclosed =>
    rw [← run_concat] at hclosed ⊢
    exact stopping_run _ (.inl hclosed)
  | letGo _ hstop _ _ => exact stopping_next (sound_run acts) act hstop

/-- **The outcomes of relays.** -/
theorem relieved_of_resolves (acts : List Act) (hr : ((run acts).scene.lane a).Relays k p j)
    (h : (run acts).Resolves act k o) : (run acts).Relieved act a p j o := by
  rw [lane_scene] at hr
  exact hr.elim (relieved_of_inside acts · h) (relieved_of_waiting acts · h)

/-! ### Jobs that have been begun with -/

/-- A worker has begun with the job of an operation, and nothing takes it away from the worker. -/
inductive Begun (w : World) (x : Commission) (p : PoolId) (j : JobId) (ds : List Doing) : Prop where
  /-- A worker works on it. -/
  | runs {place : Nat} {job : Job Work} (hat : (w.pool p).jobAt place = some job) (hid : job.id = j)
    (hkind : job.body.answer = x.kind)
  /-- It has ended, and its channel carries what it has ended with. -/
  | ended {ending : Ending} (hmem : .ends ending ∈ ds)
    (hc : (w.pool p).content j = .full (x.kind.jobOutcome ending))

variable {ds : List Doing}

theorem begun_next (hs : w.scene.Sound) (hlt : j < (w.pool p).channels.length)
    (hj : .job p j ∉ w.kept) (h : w.Begun x p j ds) (act : Act) :
    (w.next act).Begun x p j (ds ++ doings (.job p j) w act) := by
  cases h with
  | @runs place job hat hid hkind =>
    subst hid
    by_cases hact : act = .move (.worker p place)
    · subst hact
      rw [doings_of_worker hat]
      have hended : ∀ {ending : Ending} {q : Pool Work Json} {more : List Doing},
          (w.next (.move (.worker p place))).pool p = q →
          q = (w.pool p).finish place (job.body.answer.jobOutcome ending) → .ends ending ∈ more →
          (w.next (.move (.worker p place))).Begun x p job.id (ds ++ more) := by
        rintro ending q more hpool rfl hmem
        refine .ended (List.mem_append_right _ hmem) ?_
        rw [hpool, content_of_finish hs hat, hkind]
      have h := labours_next (lt_of_jobAt hat) hat
      generalize hpool : (w.next (.move (.worker p place))).pool p = q at h
      generalize w.jobDoings job.body = more at h
      cases h with
      | waits => exact .runs (hpool ▸ hat) rfl hkind
      | @performs _ rest value _ =>
        have hat' := Pool.jobAt_advance hat { job.body with rest, value }
        rw [← hpool] at hat'
        exact .runs hat' rfl hkind
      | cut _ _ => exact hended hpool rfl (by simp)
      | returned _ => exact hended hpool rfl (by simp)
    · exact .runs (jobAt_next hs hat hj hact) rfl hkind
  | ended hmem hc =>
    refine .ended (List.mem_append_left _ hmem) ?_
    rw [content_pool_next hs act hlt (by simp [hc]) hj, hc]

/-- **What has been begun with goes on**, whatever happens. -/
theorem begun_run (acts later : List Act) (hx : x ∈ commissions acts) (hanswer : x.answer = none)
    (hroute : x.route = .offloaded p j) (h : (run acts).Begun x p j (history (.job p j) acts)) :
    (run (acts ++ later)).Begun x p j (history (.job p j) (acts ++ later)) := by
  induction later using List.reverseRecOn with
  | nil => rwa [List.append_nil]
  | append_singleton later act ih =>
    have hmem := (record_isPrefix _ acts later).subset hx
    obtain ⟨hlt, hj, _⟩ := workplace_run (acts ++ later) x hmem hanswer p j hroute
    rw [← List.append_assoc, run_concat, history_concat]
    exact begun_next (sound_run _) hlt hj ih act

theorem begun_of_started (acts : List Act) (hx : x ∈ commissions acts) (hanswer : x.answer = none)
    (hroute : x.route = .offloaded p j)
    (h : j ∈ ((run acts).pool p).runningIds ∨ history (.job p j) acts ≠ []) :
    (run acts).Begun x p j (history (.job p j) acts) := by
  obtain ⟨hlt, _, hplace⟩ := workplace_run acts x hx hanswer p j hroute
  have hr := reachable_pool (sound_run acts) (lt_of_channels hlt)
  generalize history (.job p j) acts = ds at h hplace
  cases hplace with
  | waits hmem hid _ _ =>
    have hqueued := Pool.mem_queuedIds.mpr ⟨_, hmem, hid⟩
    exact absurd (h.resolve_right fun hne => hne rfl) (hr.not_running_of_queued hqueued)
  | runs hat hid _ hkind => exact .runs hat hid hkind
  | resolved _ _ hattested =>
    have hrun : j ∉ ((run acts).pool p).runningIds := fun hrun =>
      hattested.ne_empty (hr.content_of_running hrun)
    replace h := h.resolve_left hrun
    generalize hc : ((run acts).pool p).content j = c at hattested
    cases hattested with
    | withdrawn | refused _ => exact absurd rfl h
    | ended hmem => exact .ended hmem hc

/-- What a relay finds of a job that has been begun with is its own outcome. -/
theorem Begun.own (hs : w.scene.Sound) (hroute : x.route = .offloaded p j)
    (h : w.Begun x p j ds) {found : Except PoolError Json}
    (hfound : (w.pool p).outcome? j = some found) :
    ∃ ending, .ends ending ∈ ds ∧ found.mapError ActorError.ofPool = x.outcomeOf ending := by
  cases h with
  | runs hat hid _ =>
    have hrun := Pool.mem_runningIds_of_jobAt hat
    rw [hid] at hrun
    have hempty := (reachable_pool hs (lt_of_jobAt hat)).content_of_running hrun
    rw [Pool.outcome?_eq_none_iff.mpr hempty] at hfound
    cases hfound
  | @ended ending hmem hc =>
    obtain rfl : x.kind.jobOutcome ending = found := by
      simpa [Pool.outcome?_of_full hc] using hfound
    exact ⟨ending, hmem, by rw [Commission.outcomeOf, hroute]⟩

/-! ### Offloaded operations -/

/-- An unresolved offloaded operation has its relay in its place. -/
theorem relieved_of_offloaded (acts : List Act) (hx : x ∈ commissions acts)
    (hanswer : x.answer = none) (hroute : x.route = .offloaded p j)
    (h : (run acts).Resolves act x.handle o) : (run acts).Relieved act x.actor p j o :=
  have hesc := escorted_run acts x.toSending (mem_sendings hx) hanswer p j hroute
  relieved_of_resolves acts (hesc.placed h.contents.1) h

/-- **An offloaded operation whose job has been begun with** resolves with its own outcome, unless
its actor is to stop. -/
theorem own_of_begun (acts : List Act) (hx : x ∈ commissions acts) (hanswer : x.answer = none)
    (hroute : x.route = .offloaded p j) (hb : (run acts).Begun x p j (history (.job p j) acts))
    (h : (run acts).Resolves act x.handle o) :
    x.Own acts o ∨ ((run (acts ++ [act])).actor x.actor).stopping = true ∧
      (o = .error .discarded ∨ o = .error (.closed ((run acts).actor x.actor).name)) := by
  have hsite : x.site = .job p j := by rw [Commission.site, hroute, hanswer]
  cases relieved_of_offloaded acts hx hanswer hroute h with
  | told _ hfound =>
    refine .inl ?_
    rw [Commission.Own, hsite]
    exact hb.own (sound_run acts) hroute hfound
  | refused _ hstop _ =>
    rw [run_concat]
    exact .inr ⟨stopping_next (sound_run acts) act hstop, .inr rfl⟩
  | dropped hstop =>
    rw [run_concat]
    exact .inr ⟨hstop, .inl rfl⟩

/-- **An offloaded operation whose job was withdrawn** resolves as cancelled, unless its actor is to
stop. -/
theorem cancelled_of_withdrawn (acts : List Act) (hx : x ∈ commissions acts)
    (hanswer : x.answer = none) (hroute : x.route = .offloaded p j)
    (hlost : ((run acts).pool p).content j = .lost) (h : (run acts).Resolves act x.handle o) :
    o = .error .cancelled ∨
      o = .error .discarded ∧ ((run (acts ++ [act])).actor x.actor).stopping = true := by
  have houtcome := Pool.outcome?_of_lost hlost
  cases relieved_of_offloaded acts hx hanswer hroute h with
  | told _ hfound =>
    obtain rfl := Option.some.inj (houtcome.symm.trans hfound)
    exact .inl rfl
  | refused _ _ hnone => cases houtcome.symm.trans hnone
  | dropped hstop =>
    rw [run_concat]
    exact .inr ⟨rfl, hstop⟩

/-- Where nothing moves, an unresolved relay whose job was withdrawn is behind another envelope. -/
theorem behind_of_withdrawn (acts : List Act) (hx : x ∈ commissions acts)
    (hanswer : x.answer = none) (hroute : x.route = .offloaded p j)
    (hlost : ((run acts).pool p).content j = .lost) (hquiet : (run acts).isQuiet = true)
    (hnone : (run acts).outcome? x.handle = none) :
    ∃ i, ((run acts).actor x.actor).loop = .inside i ∧ i.handle < x.handle ∧
      (run acts).Detained x.actor i := by
  have hs := sound_run acts
  have hq := quiet_of_isQuiet hquiet
  have hesc := escorted_run acts x.toSending (mem_sendings hx) hanswer p j hroute
  have hr := reachable_pool hs (by simpa using hesc.pool_lt : p < (run acts).pools.length)
  have hplaced := hesc.placed (outcome?_eq_none_iff.mp hnone)
  rw [lane_scene] at hplaced
  rcases hplaced with hinside | hqueue
  · -- The run loop would not stay inside of a relay whose job is not there any more.
    obtain ⟨-, hqueued | hrunning⟩ := hq.detained hs hinside
    · rw [hr.content_of_queued hqueued] at hlost
      cases hlost
    · rw [hr.content_of_running hrunning] at hlost
      cases hlost
  · have hrun : (run acts).running? x.actor ≠ none := by
      intro hrun
      have hnil : ((run acts).actor x.actor).lane.queue = [] :=
        hq.queue_eq_nil (halts_run acts) hrun
      rw [hnil] at hqueue
      cases hqueue
    obtain ⟨k, hk⟩ := Option.ne_none_iff_exists'.mp hrun
    obtain ⟨i, hloop, rfl⟩ := running?_eq_some.mp hk
    refine ⟨i, hloop, lt_of_waiting hs hloop ?_, hq.detained hs hloop⟩
    exact List.mem_map_of_mem (f := Envelope.handle) hqueue

end World

end Troupe
