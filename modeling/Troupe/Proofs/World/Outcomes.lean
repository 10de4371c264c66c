import Troupe.Proofs.World.Offloads

/-!
# Outcomes tell the truth

Whoever looks at a handle wants to know what has become of the body that was sent. The outcome
comes from far away: the run loop, the task or the worker that ran the body, the barrier that
catches a break, the channel of a job and the relay that reads it each had a part in it. What is
said here is that none of them adds or hides anything.

An outcome is compared with the history of the body, which records act by act what was performed
on its behalf. A value means that all of the body was performed and returned; a message means that
it broke off or failed just so; and a body that is reported as cancelled or rejected has no
history, and never gets one. In the other direction, a body that ends resolves its handle, or the
channel of its job, with what it ended with, and leaves whoever ran it ready for the next one.

## Main definitions

* `Commission.Reports` — what an outcome says about the history of a body
* `Commission.Settles` — what comes of the end of a body
* `Commission.Truthful` — both, for all outcomes and all ends

## Main results

* `Commission.reports_of_ends` — what an end stands for says that the body has ended so
* `World.outcomes_truthful` — outcomes tell the truth
-/

namespace Troupe

/-! ### Histories of bodies that have ended -/

/-- A body that has ended has returned in the end, or an action has ended it. -/
theorem Ran.of_ends {body : List Action} {ds : List Doing} {ending : Ending} (h : Ran body ds)
    (hmem : .ends ending ∈ ds) :
    (∃ u, ending = .returned u ∧ ds = body.map .performs ++ [.ends (.returned u)]) ∨
      ∃ done action rest, body = done ++ action :: rest ∧ action.Cuts ending ∧
        ds = (done ++ [action]).map .performs ++ [.ends ending] := by
  cases h with
  | partly _ => simp at hmem
  | returned v =>
    obtain rfl : ending = .returned v := by simpa using hmem
    exact .inl ⟨v, rfl, rfl⟩
  | cut hbody hcut =>
    rename_i done rest action e
    obtain rfl : ending = e := by simpa using hmem
    exact .inr ⟨done, action, rest, hbody, hcut, rfl⟩

namespace Commission

open World

/-- It is run by a worker of a pool. -/
def IsOffloaded (x : Commission) : Prop := ∃ p j, x.route = .offloaded p j

/-- The body has failed with a message, in the action that does so. -/
def Failed (x : Commission) (acts : List Act) (message : String) : Prop :=
  ∃ done rest, x.body = done ++ .effect (.fail message) :: rest ∧
    history x.site acts =
      (done ++ [.effect (.fail message)]).map .performs ++ [.ends (.failed message)]

/-- The body has broken off, in an action that does so or that names something that is not
there. -/
def BrokeOff (x : Commission) (acts : List Act) (payload : Panic) : Prop :=
  ∃ done action rest, x.body = done ++ action :: rest ∧
    (∀ e, action = .effect e → e = .panic payload) ∧
    history x.site acts = (done ++ [action]).map .performs ++ [.ends (.broke payload)]

/-- What an outcome says about the body, in a run. -/
def Reports (x : Commission) (acts : List Act) : Except ActorError Json → Prop
  | .ok v =>
    -- All of the body has been performed, and it has returned; or an invocation replies that it
    -- has failed.
    (∃ u, history x.site acts = x.body.map .performs ++ [.ends (.returned u)] ∧
      v = x.kind.ofValue u) ∨
      x.kind = .reply ∧ ∃ message, x.Failed acts message ∧ v = (Reply.failure message).toJson
  | .error (.panicked message) =>
    -- A job has no errors of its own, so failing is a way of breaking off.
    (∃ payload, x.BrokeOff acts payload ∧ payload.message = message) ∨
      x.IsOffloaded ∧ x.Failed acts message
  | .error (.operation message) => ¬x.IsOffloaded ∧ x.kind ≠ .reply ∧ x.Failed acts message
  | .error .cancelled | .error (.rejected _) =>
    x.IsOffloaded ∧ ∀ later, history x.site (acts ++ later) = []
  | .error (.closed _) | .error .discarded => True
  | .error (.notFound _) | .error (.detached _) | .error (.runtime _) | .error (.terminated _) =>
    False

/-- **What an end stands for** says that the body has ended so. -/
theorem reports_of_ends {x : Commission} {acts : List Act} {ending : Ending}
    (h : Ran x.body (history x.site acts)) (hmem : .ends ending ∈ history x.site acts) :
    x.Reports acts (x.outcomeOf ending) := by
  rcases h.of_ends hmem with ⟨u, rfl, hall⟩ | ⟨done, action, rest, hbody, hcut, hhistory⟩
  · have hvalue : x.outcomeOf (.returned u) = .ok (x.kind.ofValue u) := by
      rw [outcomeOf]
      split <;> rfl
    rw [hvalue]
    exact .inl ⟨u, hall, rfl⟩
  · cases ending with
    | returned u => cases hcut
    | failed message =>
      obtain rfl : action = .effect (.fail message) := hcut
      have hfailed : x.Failed acts message := ⟨done, rest, hbody, hhistory⟩
      cases hroute : x.route with
      | offloaded p j =>
        rw [outcomeOf, hroute]
        exact .inr ⟨⟨p, j, hroute⟩, hfailed⟩
      | ordered | bypass =>
        have hstays : ¬x.IsOffloaded := by
          rintro ⟨p, j, hr⟩
          rw [hroute] at hr
          cases hr
        rw [outcomeOf, hroute]
        by_cases hkind : x.kind = .reply
        · simp only [Answer.outcome, hkind, if_true]
          exact .inr ⟨hkind, message, hfailed, rfl⟩
        · simp only [Answer.outcome, hkind, if_false]
          exact ⟨hstays, hkind, hfailed⟩
    | broke payload =>
      have hmessage : x.outcomeOf (.broke payload) = .error (.panicked payload.message) := by
        rw [outcomeOf]
        split <;> rfl
      rw [hmessage]
      exact .inl ⟨payload, ⟨done, action, rest, hbody, hcut, hhistory⟩, rfl⟩

end Commission

namespace World

variable {w : World} {x : Commission} {a : ActorId} {p : PoolId} {j : JobId}

/-! ### What is withheld -/

/-- What is in the channel of the job of an offloaded operation stays there. -/
theorem content_job_run (acts later : List Act) (hx : x ∈ commissions acts)
    (hanswer : x.answer = none) (hroute : x.route = .offloaded p j)
    (hne : ((run acts).pool p).content j ≠ .empty) :
    ((run (acts ++ later)).pool p).content j = ((run acts).pool p).content j := by
  induction later using List.reverseRecOn with
  | nil => rw [List.append_nil]
  | append_singleton later act ih =>
    have hmem := (record_isPrefix _ acts later).subset hx
    obtain ⟨hlt, hj, _⟩ := workplace_run (acts ++ later) x hmem hanswer p j hroute
    rw [← List.append_assoc, run_concat, content_pool_next (sound_run _) act hlt (by rwa [ih]) hj,
      ih]

/-- **What is withheld is never begun with.** -/
theorem history_of_withheld {acts : List Act} (hx : x ∈ commissions acts)
    (hanswer : x.answer = none) (hroute : x.route = .offloaded p j)
    (hc : ((run acts).pool p).content j = .lost ∨
      ∃ pool, ((run acts).pool p).content j = .full (.error (.shutdown pool)))
    (later : List Act) : history (.job p j) (acts ++ later) = [] := by
  have hne : ((run acts).pool p).content j ≠ .empty := by
    rcases hc with h | ⟨pool, h⟩ <;> rw [h] <;> simp
  have hsame := content_job_run acts later hx hanswer hroute hne
  have hmem := (record_isPrefix _ acts later).subset hx
  obtain ⟨hlt, _, hplace⟩ := workplace_run (acts ++ later) x hmem hanswer p j hroute
  have hr := reachable_pool (sound_run (acts ++ later)) (lt_of_channels hlt)
  rw [← hsame] at hc hne
  generalize history (.job p j) (acts ++ later) = ds at hplace
  cases hplace with
  | waits hmem hid _ _ =>
    exact absurd (hr.content_of_queued (Pool.mem_queuedIds.mpr ⟨_, hmem, hid⟩)) hne
  | runs hat hid _ _ =>
    exact absurd (hr.content_of_running (hid ▸ Pool.mem_runningIds_of_jobAt hat)) hne
  | resolved _ _ hattested =>
    generalize ((run (acts ++ later)).pool p).content j = c at hattested hc
    cases hattested with
    | withdrawn | refused _ => rfl
    | ended _ =>
      rename_i ending _
      -- What a body ends with is never a refusal.
      obtain ⟨result, hresult⟩ := jobOutcome_eq x.kind ending
      rw [hresult] at hc
      cases result <;> simp [Except.mapError] at hc

/-! ### What outcomes say -/

theorem outcome?_cases {h : HandleId} {o : Except ActorError Json} (ho : w.outcome? h = some o) :
    w.scene.content h = .full o ∨ w.scene.content h ≠ .empty ∧ o = .error .discarded := by
  rw [content_scene]
  rw [outcome?, Channel.peek] at ho
  cases hc : (w.channel h).content with
  | empty => simp [hc] at ho
  | full o' => exact .inl (by simpa [hc] using ho)
  | drained | lost => exact .inr ⟨by simp, by simpa [hc, eq_comm] using ho⟩

/-- What is resolved has been told something. -/
theorem Whereabouts.told {ds : List Doing} (hs : w.scene.Sound) (h : w.Whereabouts x ds)
    {o : Except ActorError Json} (hfull : w.scene.content x.handle = .full o) : x.Told o ds := by
  cases h with
  | waits _ hmem =>
    have hwaits : x.handle ∈ (w.scene.lane x.actor).handles :=
      List.mem_append_right _ (handle_mem_waiting hmem)
    rw [hs.content_of_handles hwaits] at hfull
    cases hfull
  | runs _ hm _ _ =>
    rw [content_of_operation? hs hm] at hfull
    cases hfull
  | resolved _ _ _ htold => exact htold o hfull

/-- An operation that stays with its actor. -/
theorem reports_of_whereabouts (acts : List Act) (hx : x ∈ commissions acts)
    (hsite : x.site = .operation x.handle) {o : Except ActorError Json}
    (ho : (run acts).outcome? x.handle = some o) : x.Reports acts o := by
  rcases outcome?_cases ho with hfull | ⟨_, rfl⟩
  · have hplace := whereabouts_run acts x hx hsite
    have hran := hplace.ran
    have htold := hplace.told (sound_run acts) hfull
    rw [← hsite] at hran htold
    rcases htold with ⟨_, name, rfl⟩ | ⟨ending, hmem, rfl⟩
    · trivial
    · exact Commission.reports_of_ends hran hmem
  · trivial

/-- An operation that a pool has accepted. -/
theorem reports_of_workplace (acts : List Act) (hx : x ∈ commissions acts)
    (hanswer : x.answer = none) (hroute : x.route = .offloaded p j) {o : Except ActorError Json}
    (ho : (run acts).outcome? x.handle = some o) : x.Reports acts o := by
  have hsite : x.site = .job p j := by rw [Commission.site, hroute, hanswer]
  rcases outcome?_cases ho with hfull | ⟨_, rfl⟩
  · rcases relayed_run acts x hx hanswer p j hroute o hfull with ⟨name, rfl⟩ | ⟨found, hfound, rfl⟩
    · trivial
    · -- The relay has found something, so the job does not wait or run any more.
      obtain ⟨hlt, _, hplace⟩ := workplace_run acts x hx hanswer p j hroute
      have hr := reachable_pool (sound_run acts) (lt_of_channels hlt)
      have hne : ((run acts).pool p).content j ≠ .empty := by
        rw [Ne, ← Pool.outcome?_eq_none_iff, hfound]
        simp
      have hnever := history_of_withheld hx hanswer hroute
      have hran := hplace.ran
      rw [← hsite] at hplace hran hnever
      generalize hds : history x.site acts = ds at hplace hran
      cases hplace with
      | waits hmem hid _ _ =>
        exact absurd (hr.content_of_queued (Pool.mem_queuedIds.mpr ⟨_, hmem, hid⟩)) hne
      | runs hat hid _ _ =>
        exact absurd (hr.content_of_running (hid ▸ Pool.mem_runningIds_of_jobAt hat)) hne
      | resolved _ _ hattested =>
        generalize hc : ((run acts).pool p).content j = c at hattested
        cases hattested with
        | withdrawn =>
          obtain rfl : .error .cancelled = found := by
            simpa [Pool.outcome?_of_lost hc] using hfound
          exact ⟨⟨p, j, hroute⟩, hnever (.inl hc)⟩
        | refused pool =>
          obtain rfl : .error (.shutdown pool) = found := by
            simpa [Pool.outcome?_of_full hc] using hfound
          exact ⟨⟨p, j, hroute⟩, hnever (.inr ⟨pool, hc⟩)⟩
        | ended hmem =>
          rename_i ending
          obtain rfl : x.kind.jobOutcome ending = found := by
            simpa [Pool.outcome?_of_full hc] using hfound
          have houtcome : x.outcomeOf ending =
              (x.kind.jobOutcome ending).mapError ActorError.ofPool := by
            rw [Commission.outcomeOf, hroute]
          subst hds
          rw [← houtcome]
          exact Commission.reports_of_ends hran hmem
  · trivial

/-! ### Going on -/

/-- A run loop goes on with what comes next. -/
structure LoopGoesOn (w : World) (a : ActorId) : Prop where
  /-- It is between two envelopes. -/
  idle : (w.actor a).loop = .idle
  /-- Its next move is to begin with the next envelope, -/
  enters : (w.actor a).stopping = false → ∀ e queue, (w.actor a).mailbox.queue = e :: queue →
    ((w.next (.move (.runLoop a))).actor a).loop = .inside e.inside
  /-- or to end if it is to stop. -/
  ends : (w.actor a).stopping = true → ((w.next (.move (.runLoop a))).actor a).loop = .ended

/-- A worker goes on with what comes next. -/
structure WorkerGoesOn (w : World) (p : PoolId) (place : Nat) : Prop where
  /-- It is about to look at the queue. -/
  awake : (w.pool p).crew[place]? = some .awake
  /-- Its next move is to take the next job. -/
  takes : ∀ job queue, (w.pool p).queue = job :: queue →
    ((w.next (.move (.worker p place))).pool p).jobAt place = some job

theorem LoopGoesOn.of_idle (h : (w.actor a).loop = .idle) : w.LoopGoesOn a := by
  have ha : a < w.actors.length := lt_of_loop (by simp [h])
  refine ⟨h, fun hstop e queue hqueue => ?_, fun hstop => ?_⟩
  · have hmove : w.stepLoop a = some (w.onActor a fun actor => { actor with
        mailbox := { (w.actor a).mailbox with queue }, loop := .inside e.inside }) := by
      cases e <;> simp [stepLoop, h, hstop, enterNext, Mailbox.next, hqueue, Envelope.inside]
    rw [next_of_stepLoop hmove, loop_release, actor_onActor_self w ha]
  · have hmove : w.stepLoop a = some (w.endLoop a) := by simp [stepLoop, h, hstop]
    have hsame : (w.endLoop a).actor a = (w.onActor a fun actor =>
        { actor with loop := .ended, mailbox := { actor.mailbox with queue := [] } }).actor a := by
      rw [actor, endLoop, report, actors_dropEnvelopes, actor]
    rw [next_of_stepLoop hmove, loop_release, hsame, actor_onActor_self w ha]

theorem WorkerGoesOn.of_awake (hp : p < w.pools.length) {place : Nat}
    (h : (w.pool p).crew[place]? = some .awake) : w.WorkerGoesOn p place := by
  refine ⟨h, fun job queue hqueue => ?_⟩
  obtain ⟨q, hlook, hat, _⟩ := Pool.look_of_awake h hqueue
  have hnone : (w.pool p).jobAt place = none := by rw [Pool.jobAt, h]; rfl
  have hnext : w.next (.move (.worker p place)) = (w.onPool p fun _ => q).release := by
    simp [next, step, stepWorker, hnone, hlook]
  rw [hnext, pool_release, pool_onPool hp]
  exact hat

end World

namespace Commission

open World

/-- What comes of the end of a body: its handle, or the channel of its job, holds what it has ended
with, and whoever has run it is done with it. -/
inductive Settles (x : Commission) (w : World) (act : Act) (ending : Ending) : Prop where
  /-- It was run by the run loop of its actor. -/
  | ordered (hroute : x.route = .ordered) (hact : act = .move (.runLoop x.actor))
    (houtcome : (w.next act).outcome? x.handle = some (x.kind.outcome ending))
    (hon : (w.next act).LoopGoesOn x.actor)
  /-- It was a task of its own. -/
  | bypass {t : TaskId} (hroute : x.route = .bypass) (hact : act = .move (.task t))
    (houtcome : (w.next act).outcome? x.handle = some (x.kind.outcome ending))
    (hgone : (w.next act).task? t = none)
  /-- It was run by a worker. -/
  | offloaded {p : PoolId} {j : JobId} {place : Nat} (hroute : x.route = .offloaded p j)
    (hact : act = .move (.worker p place))
    (houtcome : ((w.next act).pool p).outcome? j = some (x.kind.jobOutcome ending))
    (hon : (w.next act).WorkerGoesOn p place)

theorem site_cases (x : Commission) : x.site = .operation x.handle ∨
    ∃ p j, x.route = .offloaded p j ∧ x.answer = none ∧ x.site = .job p j := by
  rw [site]
  split
  · rename_i p j hroute hanswer
    exact .inr ⟨p, j, hroute, hanswer, rfl⟩
  · exact .inl rfl

end Commission

namespace World

variable {w : World} {x : Commission} {p : PoolId} {j : JobId} {act : Act} {ds : List Doing}
  {ending : Ending}

theorem stepCourse_of_ends {r : Runner} {c : Course} (h : .ends ending ∈ w.courseDoings r c) :
    ∃ w', w.stepCourse r c = some (.ends ending, w') := by
  rw [courseDoings] at h
  split at h
  · cases h
  · simp at h
  · rename_i e w' hstep
    obtain rfl : ending = e := by simpa using h
    exact ⟨w', hstep⟩

/-- An operation that stays with its actor ends. -/
theorem settles_of_whereabouts (hs : w.scene.Sound) (h : w.Whereabouts x ds)
    (hends : .ends ending ∈ doings (.operation x.handle) w act) : x.Settles w act ending := by
  cases h with
  | waits _ hmem =>
    rw [doings_of_ne fun _ _ _ _ => operation?_of_waiting hs hmem] at hends
    cases hends
  | resolved _ hne _ _ =>
    rw [doings_of_resolved hs hne] at hends
    cases hends
  | runs hr hm _ hkind =>
    rename_i m r done c _
    by_cases hact : act = .move m
    · subst hact
      rw [doings_of_operation? hm] at hends
      obtain ⟨w', hstep⟩ := stepCourse_of_ends hends
      obtain ⟨hfull, hidle, hgone⟩ := operation?_ends hs hm hstep
      have houtcome := outcome?_of_full hfull
      rw [hkind] at houtcome
      cases m with
      | runLoop a =>
        obtain ⟨rfl, _⟩ := loop_of_operation? hm
        cases hroute : x.route with
        | ordered =>
          obtain rfl : x.actor = a := by simpa [Commission.runner?, hroute] using hr
          exact .ordered hroute rfl houtcome (.of_idle (hidle _ rfl))
        | bypass | offloaded _ _ => simp [Commission.runner?, hroute] at hr
      | task t =>
        obtain ⟨a, rfl, _⟩ := task?_of_operation? hm
        cases hroute : x.route with
        | bypass => exact .bypass hroute rfl houtcome (hgone t rfl)
        | ordered | offloaded _ _ => simp [Commission.runner?, hroute] at hr
      | worker _ _ | grace _ => cases hm
    · rw [doings_of_ne fun m' hm' _ _ hop =>
        hact (hm'.trans (operation?_unique hs hop hm ▸ rfl))] at hends
      cases hends

/-- A job ends. -/
theorem settles_of_workplace (hs : w.scene.Sound) (hlt : j < (w.pool p).channels.length)
    (hroute : x.route = .offloaded p j) (h : w.Workplace x p j ds)
    (hends : .ends ending ∈ doings (.job p j) w act) : x.Settles w act ending := by
  have hp := lt_of_channels hlt
  have hr := reachable_pool hs hp
  cases h with
  | waits hmem hid _ _ =>
    have hqueued := Pool.mem_queuedIds.mpr ⟨_, hmem, hid⟩
    rw [doings_of_not_running (hr.not_running_of_queued hqueued)] at hends
    cases hends
  | resolved _ _ hattested =>
    rw [doings_of_not_running fun hrun => hattested.ne_empty (hr.content_of_running hrun)] at hends
    cases hends
  | runs hat hid _ hkind =>
    rename_i place job done _
    subst hid
    by_cases hact : act = .move (.worker p place)
    · subst hact
      rw [doings_of_worker hat] at hends
      have hempty := hr.content_of_running (Pool.mem_runningIds_of_jobAt hat)
      -- The worker sends what the job has ended with, and is awake.
      have finishes : ∀ {e : Ending}, ending = e →
          (w.next (.move (.worker p place))).pool p =
            (w.pool p).finish place (job.body.answer.jobOutcome e) →
          x.Settles w (.move (.worker p place)) ending := by
        rintro e rfl hpool
        have hp' : p < (w.next (.move (.worker p place))).pools.length :=
          lt_of_channels (Nat.lt_of_lt_of_le hlt (length_channels_pool_next hs _ hp))
        refine .offloaded hroute rfl (Pool.outcome?_of_full ?_) (.of_awake hp' ?_)
        · rw [hpool, (Pool.finish_of_jobAt hat _).2.2.2 job.id hlt, if_pos rfl, hempty, hkind]
          rfl
        · rw [hpool]
          exact Pool.awake_of_finish hat _
      have hl := labours_next hp hat
      generalize (w.next (.move (.worker p place))).pool p = q at hl finishes
      generalize w.jobDoings job.body = ds at hl hends
      cases hl with
      | waits => cases hends
      | performs _ => simp at hends
      | cut _ _ => exact finishes (by simpa using hends) rfl
      | returned _ => exact finishes (by simpa using hends) rfl
    · rw [doings_of_others hs hat hact] at hends
      cases hends

/-! ### One place for each -/

theorem hasMade_run (acts : List Act) (hx : x ∈ commissions acts) : (run acts).HasMade x.site := by
  rcases x.site_cases with hsite | ⟨p, j, hroute, hanswer, hsite⟩
  · rw [hsite]
    exact (whereabouts_run acts x hx hsite).lt (sound_run acts)
  · rw [hsite]
    exact (workplace_run acts x hx hanswer p j hroute).1

theorem not_hasMade_of_commission (hs : w.scene.Sound) (hx : w.commission act = some x) :
    ¬w.HasMade x.site := by
  rcases x.site_cases with hsite | ⟨p, j, hroute, hanswer, hsite⟩
  · rw [hsite]
    exact Nat.not_lt_of_le (of_target? (target?_of_commission hx).1).2
  · rw [hsite]
    exact Nat.not_lt_of_le (Nat.le_of_eq (workplace_sent hs hx hroute hanswer).2.symm)

/-- **Every body has a place of its own.** -/
theorem nodup_sites (acts : List Act) : ((commissions acts).map (·.site)).Nodup := by
  induction acts using List.reverseRecOn with
  | nil => exact List.nodup_nil
  | append_singleton acts act ih =>
    rw [commissions_concat, List.map_append]
    refine List.nodup_append.mpr ⟨ih, ?_, ?_⟩
    · cases (run acts).commission act <;> simp
    · intro r hr r' hr' heq
      obtain ⟨x, hx, rfl⟩ := List.mem_map.mp hr
      obtain ⟨y, hy, rfl⟩ := List.mem_map.mp hr'
      -- The place of what the last act sends is new.
      refine not_hasMade_of_commission (sound_run acts) (Option.mem_toList.mp hy) ?_
      rw [← heq]
      exact hasMade_run acts hx

theorem site_injective (acts : List Act) : ∀ x ∈ commissions acts, ∀ y ∈ commissions acts,
    x.site = y.site → x = y := fun _ hx _ hy =>
  List.inj_on_of_nodup_map (nodup_sites acts) hx hy

end World

namespace Commission

open World

/-- **What is true of a body and its outcome**, at the end of a run. -/
structure Truthful (x : Commission) (acts : List Act) : Prop where
  /-- The body is run once at most, and in order. -/
  once : Ran x.body (history x.site acts)
  /-- Nothing else is run in its place. -/
  alone : ∀ y ∈ commissions acts, y.site = x.site → y = x
  /-- Whatever its handle shows says what has become of the body. -/
  reports : ∀ o, (run acts).outcome? x.handle = some o → x.Reports acts o
  /-- When the body ends, its handle shows what it has ended with, and whoever has run it goes
  on. -/
  settles : ∀ act ending, .ends ending ∈ doings x.site (run acts) act →
    x.Settles (run acts) act ending

end Commission

namespace World

/-- **Outcomes tell the truth**: this holds of everything that a run has sent to an actor. -/
theorem outcomes_truthful (acts : List Act) (x : Commission) (hx : x ∈ commissions acts) :
    x.Truthful acts := by
  have hs := sound_run acts
  have halone := fun y hy hsite => site_injective acts y hy x hx hsite
  rcases x.site_cases with hsite | ⟨p, j, hroute, hanswer, hsite⟩
  · have hplace := whereabouts_run acts x hx hsite
    refine ⟨?_, halone, fun o ho => reports_of_whereabouts acts hx hsite ho,
      fun act ending hends => ?_⟩
    · rw [hsite]
      exact hplace.ran
    · rw [hsite] at hends
      exact settles_of_whereabouts hs hplace hends
  · obtain ⟨hlt, _, hplace⟩ := workplace_run acts x hx hanswer p j hroute
    refine ⟨?_, halone, fun o ho => reports_of_workplace acts hx hanswer hroute ho,
      fun act ending hends => ?_⟩
    · rw [hsite]
      exact hplace.ran
    · rw [hsite] at hends
      exact settles_of_workplace hs hlt hroute hplace hends

/-- An actor is sent an operation that goes to a pool, and one that breaks off. The pool drops its
queue before anybody works on the first one. -/
def droppedRun : List Act :=
  [.call (.createActor "d" "logger" "log" {}), .call (.createPool "p" "crew" 1),
    .call (.send (.offload "d" "p" false [.push "first"] .value (.watched "x"))),
    .call (.send (.operation .ordered "d" [.effect (.panic (.text "boom"))] .value (.watched "y"))),
    .call (.shutdownNow "p"), .move (.runLoop 0), .move (.runLoop 0), .move (.runLoop 0),
    .move (.runLoop 0), .move (.runLoop 0)]

/-- The first one of these operations. -/
def droppedCommission : Commission where
  actor := 0
  handle := 0
  route := .offloaded 0 0
  answer := none
  body := [.effect (.push "first")]
  kind := .value

/-- The second one. -/
def brokenCommission : Commission where
  actor := 0
  handle := 1
  route := .ordered
  answer := none
  body := [.effect (.panic (.text "boom"))]
  kind := .value

theorem commissions_droppedRun :
    commissions droppedRun = [droppedCommission, brokenCommission] := rfl

theorem outcomes_truthful_droppedRun :
    (droppedCommission ∈ commissions droppedRun ∧
      (run droppedRun).outcome? droppedCommission.handle = some (.error .cancelled) ∧
      droppedCommission.Truthful droppedRun) ∧
    brokenCommission ∈ commissions droppedRun ∧
      (run droppedRun).outcome? brokenCommission.handle = some (.error (.panicked "boom")) ∧
      brokenCommission.Truthful droppedRun := by
  have hfirst : droppedCommission ∈ commissions droppedRun := by simp [commissions_droppedRun]
  have hsecond : brokenCommission ∈ commissions droppedRun := by simp [commissions_droppedRun]
  exact ⟨⟨hfirst, rfl, outcomes_truthful droppedRun _ hfirst⟩, hsecond, rfl,
    outcomes_truthful droppedRun _ hsecond⟩

end World

end Troupe
