import Troupe.Proofs.World.Conduct
import Troupe.Proofs.World.Isolation
import Troupe.Proofs.World.Outcomes

/-!
# Closing is final

A closed actor takes nothing more. What is sent to it is refused at once, whatever the way; its
mailbox is empty and stays so, so its run loop begins with nothing; and another close finds nothing
to do. What it had begun may go on, and nothing else of it does.

That none of its jobs comes back to a pool needs an argument. A close withdraws them from the pools
that the actor has used, an actor that is closed uses no other pool, and the only jobs with its tag
are its own, unless somebody submits a job under that tag without it.

## Main definitions

* `Scene.Withdrawn` — of a closed actor no job waits in the pools that it has used
* `World.Closes` — an act closes an actor
* `World.TurnsAway`, `World.Shut` — what is refused, and what is true of a closed actor
* `World.WorksOn` — somebody is working on a body

## Main results

* `Deed.used_cases` — only an open actor comes to use another pool
* `World.withdrawn_run` — jobs that were withdrawn do not come back
* `World.lost_of_closes` — what waits for an actor that is closed is lost
* `World.closed_of_closes` — an actor that has been closed stays so
* `World.answer_of_closed` — what is sent to a closed actor is refused
* `World.begun_before` — what is worked on was worked on when the actor was closed
* `World.closing_final` — all of it, for every run
-/

namespace Troupe

variable {s t : Scene} {ms : List Mark} {a : ActorId}

/-! ### The pools of an actor -/

/-- Only an open actor comes to use another pool, and the pool is there. -/
theorem Deed.used_cases (d : Deed ms s t) : (t.lane a).pools = (s.lane a).pools ∨
    (t.lane a).closed = false ∧
      ∃ p < s.pools.length, (t.lane a).pools = ((s.lane a).remember p).pools := by
  have same : ∀ {s : Scene} {b : ActorId} {f : Lane → Lane}, (∀ l, (f l).pools = l.pools) →
      ((s.onLane b f).lane a).pools = (s.lane a).pools := by
    intro s b f hf
    rw [Scene.lane_onLane]
    split
    · rename_i hb
      rw [hf, hb.1]
    · rfl
  cases d with
  | roster _ _ | found _ | pool _ _ | settled _ | drain _ | begin _ _ _ | setTask _ _ _ _ =>
    exact .inl rfl
  | enroll hl =>
    refine .inl ?_
    rcases Nat.lt_trichotomy a s.lanes.length with hlt | rfl | hgt
    · simp [Scene.lane, List.getElem?_append_left hlt]
    · rw [Scene.lane_of_le (s := s) (Nat.le_refl _)]
      simp only [Scene.lane, List.getElem?_concat_length, Option.getD_some]
      exact hl.pools
    · rw [Scene.lane_of_le (s := s) (Nat.le_of_lt hgt),
        Scene.lane_of_le (by simpa using Nat.succ_le_of_lt hgt)]
  | stop _ =>
    rw [Scene.lane_stopAll]
    split <;> exact .inl rfl
  | endTask _ _ =>
    refine .inl ?_
    show ((Scene.settleAll _ _ s).lane a).pools = _
    rw [Scene.lane_settleAll]
  | remember hopen hp =>
    rw [Scene.lane_onLane]
    split
    · rename_i p hb
      obtain ⟨rfl, _⟩ := hb
      exact .inr ⟨by rw [Lane.remember_eq]; exact hopen, p, hp, rfl⟩
    · exact .inl rfl
  | accept _ _ _ _ _ => exact .inl (same (s := s.grow .empty) fun _ => rfl)
  | clear _ | shut _ _ _ | abort _ | quit _ _ =>
    rw [Scene.lane_settleAll]
    exact .inl (same fun _ => rfl)
  | start _ | enter _ _ _ | proceed _ _ => exact .inl (same fun _ => rfl)
  | finish _ _ _ =>
    refine .inl ((same (f := fun l => { l with loop := .idle }) fun _ => rfl).trans ?_)
    rw [Scene.lane_settleAll]

/-- Who is closed after a deed was there before it. -/
theorem Deed.lt_of_closed (d : Deed ms s t) (h : (t.lane a).closed = true) :
    a < s.lanes.length := by
  have hlt := Scene.lt_of_closed h
  rcases d.lanes_cases with hlen | ⟨l, hl, _, hlanes⟩
  · exact hlen ▸ hlt
  · rw [hlanes, List.length_append, List.length_singleton] at hlt
    refine (Nat.lt_succ_iff_lt_or_eq.mp hlt).resolve_right ?_
    rintro rfl
    have hnew : t.lane s.lanes.length = l := by simp [Scene.lane, hlanes]
    rw [hnew, hl.closed] at h
    cases h

/-- A close shows. -/
theorem Deeds.shut_of_closed (d : Deeds ms s t) (h : (t.lane a).closed = true) :
    (s.lane a).closed = true ∨ .shut a ∈ ms := by
  induction d with
  | refl s => exact .inl h
  | cons d _ ih =>
    rcases ih h with hclosed | hmem
    · exact (d.closed_cases (d.lt_of_closed hclosed) hclosed).imp_right fun hshut =>
        List.mem_append_left _ hshut.1
    · exact .inr (List.mem_append_right _ hmem)

namespace Scene

/-- The pools that actors have used are there. -/
def Rooted (s : Scene) : Prop := ∀ a, ∀ p ∈ (s.lane a).pools, p < s.pools.length

/-- Of a closed actor no job waits in the pools that it has used. -/
def Withdrawn (s : Scene) (a : ActorId) : Prop :=
  (s.lane a).closed = true → ∀ p ∈ (s.lane a).pools, ∀ job ∈ (s.pool p).queue,
    job.owner ≠ some (s.lane a).owner

theorem Withdrawn.of_le (h : s.lanes.length ≤ a) : s.Withdrawn a := fun hclosed =>
  absurd (lt_of_closed hclosed) (Nat.not_lt_of_le h)

end Scene

theorem Deed.rooted (d : Deed ms s t) (h : s.Rooted) : t.Rooted := by
  intro a p hp
  refine Nat.lt_of_lt_of_le ?_ d.length_pools
  rcases d.used_cases (a := a) with hsame | ⟨_, q, hq, hpools⟩
  · exact h a p (hsame ▸ hp)
  · rw [hpools, Lane.remember] at hp
    split at hp
    · exact h a p hp
    · rcases List.mem_append.mp hp with hold | hnew
      · exact h a p hold
      · exact List.mem_singleton.mp hnew ▸ hq

/-- A deed brings no job back, unless one is submitted under the tag of the actor. -/
theorem Deed.withdrawn (d : Deed ms s t) (hr : s.Rooted)
    (hm : ∀ p, .submitted p (t.lane a).owner ∉ ms) (h : s.Withdrawn a) : t.Withdrawn a := by
  intro hclosed p hp job hjob
  have ha := d.lt_of_closed hclosed
  have hpools : (t.lane a).pools = (s.lane a).pools := d.used_cases.resolve_right fun hopen => by
    rw [hclosed] at hopen
    cases hopen.1
  rw [hpools] at hp
  rw [((Scene.Grows.of_deed d).lane a ha).owner] at hm ⊢
  rcases d.closed_cases ha hclosed with hbefore | ⟨_, hjobs⟩
  · rcases d.pool_cases (hr a p hp) with hsame | ⟨e, hpool, hmarks⟩
    · exact h hbefore p hp job (hsame ▸ hjob)
    · rw [hpool] at hjob
      rcases Pool.mem_queue_of_apply hjob with hold | ⟨_, urgent, rfl⟩
      · exact h hbefore p hp job hold
      · intro howner
        refine hm p (hmarks _ ?_)
        rw [howner]
        exact List.mem_singleton_self _
  · exact hjobs p hp job hjob

theorem Deeds.withdrawn (d : Deeds ms s t) (hr : s.Rooted)
    (hm : ∀ p, .submitted p (t.lane a).owner ∉ ms) (h : s.Withdrawn a) : t.Withdrawn a := by
  induction d with
  | refl s => exact h
  | cons d ds ih =>
    refine ih (d.rooted hr) (fun p hp => hm p (List.mem_append_right _ hp)) ?_
    rename_i ns _ s u t
    rcases Nat.lt_or_ge a u.lanes.length with hlt | hge
    · rw [((Scene.Grows.of_deeds ds).lane a hlt).owner] at hm
      exact d.withdrawn hr (fun p hp => hm p (List.mem_append_left _ hp)) h
    · exact .of_le hge

namespace World

variable {w : World} {act : Act}

theorem rooted_run (acts : List Act) : (run acts).scene.Rooted :=
  keep_run (fun _ d => d.rooted) [] acts fun _ _ hp => by cases hp

/-- A job under the tag of a closed actor was submitted by somebody else. -/
theorem jobOwner?_of_commits (acts : List Act) (hclosed : ((run acts).actor a).closed = true)
    (h : (run acts).Commits act ((run acts).actor a).owner) :
    (run acts).jobOwner? act = some ((run acts).actor a).owner := by
  refine h.resolve_right ?_
  rintro ⟨b, k, r, ht, hopen, howner⟩
  have hlane : ((run acts).scene.lane a).closed = true := by
    rw [lane_scene]
    exact hclosed
  have ha : a < (run acts).actors.length := by simpa using Scene.lt_of_closed hlane
  have hne : b ≠ a := by
    rintro rfl
    rw [hclosed] at hopen
    cases hopen
  exact owner_run acts (lt_of_held (sound_run acts) (of_target? ht).1) ha hne howner

/-- **Jobs that were withdrawn do not come back.** -/
theorem withdrawn_run (acts : List Act) (a : ActorId)
    (hplain : ((run acts).actor a).owner ∉ jobOwners acts) : (run acts).scene.Withdrawn a := by
  induction acts using List.reverseRecOn with
  | nil => exact .of_le (Nat.zero_le _)
  | append_singleton acts act ih =>
    have hs := sound_run acts
    rw [jobOwners_concat, run_concat, List.mem_append, not_or, Option.mem_toList] at hplain
    rw [run_concat]
    obtain ⟨ms, d, hms⟩ := fits_next hs act
    have hlane : a < (run acts).actors.length →
        (((run acts).next act).actor a).owner = ((run acts).actor a).owner := by
      intro ha
      have := ((Scene.Grows.of_deeds d).lane a (by simpa using ha)).owner
      rwa [lane_scene, lane_scene] at this
    have hbefore : (run acts).scene.Withdrawn a := by
      rcases Nat.lt_or_ge a (run acts).actors.length with hlt | hge
      · exact ih (hlane hlt ▸ hplain.1)
      · exact .of_le (by simpa using hge)
    intro hclosed
    refine d.withdrawn (rooted_run acts) (fun p hp => ?_) hbefore hclosed
    -- A close and a submission do not come together, so the actor was closed before.
    rw [lane_scene] at hp
    have hcommits : (run acts).Commits act (((run acts).next act).actor a).owner := hms _ hp
    have hwas : ((run acts).scene.lane a).closed = true := by
      refine (d.shut_of_closed hclosed).resolve_right fun hshut => ?_
      obtain ⟨_, _, _, ht, _⟩ := hcommits.resolve_left hplain.2
      rw [(hms _ hshut).1] at ht
      cases ht
    rw [hlane (by simpa using Scene.lt_of_closed hwas)] at hcommits hplain
    rw [lane_scene] at hwas
    exact hplain.2 (jobOwner?_of_commits acts hwas hcommits)

/-! ### The act that closes -/

/-- An act closes an actor. -/
def Closes (w : World) (act : Act) (a : ActorId) : Prop :=
  (w.actor a).closed = false ∧ ((w.next act).actor a).closed = true

/-- Where an actor is shut, nothing happens but closes and what completes them. -/
theorem Explains.of_shut (h : w.Explains act ms) (hm : .shut a ∈ ms) :
    ∀ m ∈ ms, (∃ b, m = .shut b) ∨ ∃ b, m = .aborted b := by
  cases h with
  | closes _ hms =>
    intro m hm
    obtain ⟨_, _, hm⟩ := hms m hm
    exact hm.cases
  | sends _ hms => cases hms <;> simp [Mark.mem_ofAdmission] at hm
  | enters _ _ _ _ _ | quits _ _ _ _ | clears _ _ | submits _ _ | fails _ => simp at hm
  | @takes _ r _ _ _ => cases r <;> simp [Mark.ofTake] at hm

/-- The run loop of an actor that is closed does not begin with the next envelope instead. -/
theorem not_entered_of_closes (hs : w.scene.Sound) (h : w.Closes act a) :
    ∃ ms, Deeds ms w.scene (w.next act).scene ∧ ∀ e, .entered a e ∉ ms := by
  obtain ⟨hopen, hclosed⟩ := h
  obtain ⟨ms, ns, d, hms, hns⟩ := deeds_next hs act
  have hshut := (d.shut_of_closed (by rwa [lane_scene])).resolve_left fun hold => by
    rw [lane_scene] at hold
    cases hopen.symm.trans hold
  replace hshut := (List.mem_append.mp hshut).resolve_right (hns.not_mem (by simp))
  refine ⟨_, d, fun e he => ?_⟩
  rcases List.mem_append.mp he with he | he
  · simpa using hms.of_shut hshut _ he
  · exact hns.not_mem (by simp) he

theorem starts_of_closes (hs : w.scene.Sound) (h : w.Closes act a) : w.starts a act = [] := by
  obtain ⟨_, d, hne⟩ := not_entered_of_closes hs h
  exact starts_eq_nil (d.current_eq hne)

/-- What waits for a closed actor. -/
theorem queue_of_closed (hs : w.scene.Sound) (hclosed : (w.actor a).closed = true) :
    (w.actor a).mailbox.queue = [] := by
  have := hs.emptied a (by rwa [lane_scene])
  rwa [lane_scene] at this

/-- **What waits for an actor that is closed** is lost. -/
theorem lost_of_closes (hs : w.scene.Sound) (h : w.Closes act a) {e : Envelope}
    (he : e ∈ (w.actor a).mailbox.queue) : (w.next act).scene.content e.handle = .lost := by
  obtain ⟨_, d, hne⟩ := not_entered_of_closes hs h
  refine (d.lost_of_dropped hs hne (by rwa [lane_scene])).resolve_left fun hstays => ?_
  have hnil : ((w.next act).scene.lane a).queue = [] := by
    rw [lane_scene]
    exact queue_of_closed (sound_next hs act) h.2
  rw [hnil] at hstays
  cases hstays

/-- The run loop of a closed actor begins with nothing. -/
theorem starts_of_closed (hs : w.scene.Sound) (hclosed : (w.actor a).closed = true) (act : Act) :
    w.starts a act = [] := by
  cases shift_next hs a act with
  | joins hstarts _ _ _ | keeps hstarts _ _ _ => exact hstarts
  | enters _ _ _ _ hqueued =>
    rw [queued, queue_of_closed hs hclosed] at hqueued
    cases hqueued

/-! ### What is refused -/

/-- A sending is turned away: its handle is there and resolved, something may be reported, and
nothing else has changed. -/
def TurnsAway (w : World) (a : ActorId) (x : HandleId × World) : Prop :=
  ∃ notices, x = (w.channels.length, { w with
    channels := w.channels ++ [.settled (.error (.closed (w.actor a).name))]
    notices })

theorem turnsAway_sendOrdered (hclosed : (w.actor a).closed = true) (body : List Action)
    (answer : Answer) : w.TurnsAway a (w.sendOrdered a body answer) := by
  have hnone : ∀ e, (w.actor a).enqueue e = none := fun e => if_pos hclosed
  rw [sendOrdered, hnone]
  exact ⟨_, rfl⟩

theorem isOpen_of_closed {actor : Actor} (hclosed : actor.closed = true) :
    actor.isOpen = false := by
  rw [Actor.isOpen, hclosed]
  rfl

theorem turnsAway_sendBypass (hclosed : (w.actor a).closed = true) (body : List Action)
    (answer : Answer) : w.TurnsAway a (w.sendBypass a body answer) := by
  rw [sendBypass, isOpen_of_closed hclosed]
  exact ⟨_, rfl⟩

theorem turnsAway_sendOffload (hclosed : (w.actor a).closed = true) (p : PoolId) (urgent : Bool)
    (body : List Effect) (answer : Answer) :
    w.TurnsAway a (w.sendOffload a p urgent body answer) := by
  rw [sendOffload, isOpen_of_closed hclosed]
  exact ⟨_, rfl⟩

/-- **What is sent to a closed actor is refused**, in whatever act. -/
theorem answer_of_closed (hs : w.scene.Sound) {x : Sending} (hx : w.sending act = some x)
    (hclosed : (w.actor x.actor).closed = true) :
    x.answer = some (.error (.closed (w.actor x.actor).name)) := by
  obtain ⟨ms, ns, d, hms, hns⟩ := deeds_next hs act
  obtain ⟨⟨a, h, r⟩, ht, rfl⟩ := Option.map_eq_some_iff.mp hx
  have hlane : (w.scene.lane a).closed = true := by
    rw [lane_scene]
    exact hclosed
  cases hms.answers ht with
  | refused =>
    have := outcome?_of_full (hns.full_of_settled d)
    rwa [lane_scene] at this
  | past _ hopen | admitted _ _ hopen =>
    rw [hopen] at hlane
    cases hlane

/-! ### What is left to clear -/

/-- **What a withdrawal counts**: the jobs of the owner that wait. -/
theorem cancelJobs_fst (hs : w.scene.Sound) (owner : String) (p : PoolId) :
    (w.cancelJobs owner p).1 = ((w.pool p).queue.filter (·.owner = some owner)).length := by
  rcases Nat.lt_or_ge p w.pools.length with hp | hp
  · have hr := reachable_pool hs hp
    rw [cancelJobs, Pool.cancel_eq, hr.withdrawn_eq]
  · rw [cancelJobs, pool_of_le hp]
    rfl

/-- Where no job of the owner waits none is withdrawn. -/
theorem cancelJobsIn_fst {owner : String} {ps : List PoolId} (hs : w.scene.Sound)
    (hps : ∀ p ∈ ps, p < w.pools.length)
    (h : ∀ p ∈ ps, ∀ job ∈ (w.pool p).queue, job.owner ≠ some owner) :
    (w.cancelJobsIn owner ps).1 = 0 := by
  induction ps generalizing w with
  | nil => rfl
  | cons p ps ih =>
    have hscene := scene_cancelJobs (w := w) owner p
    show (w.cancelJobs owner p).1 + ((w.cancelJobs owner p).2.cancelJobsIn owner ps).1 = 0
    rw [cancelJobs_fst hs, List.filter_eq_nil_iff.mpr (by simpa using h p List.mem_cons_self),
      List.length_nil, ih]
    · rw [hscene]
      exact hs.onPool p _
    · intro q hq
      rw [← length_pools_scene, hscene]
      simpa [Scene.onPool] using hps q (List.mem_cons_of_mem _ hq)
    · intro q hq job hjob
      refine h q (List.mem_cons_of_mem _ hq) job ?_
      rw [← pool_scene, hscene, Scene.pool_onPool] at hjob
      split at hjob
      · rename_i hqp
        rw [hqp.1, ← pool_scene]
        rcases Pool.mem_queue_of_apply hjob with hold | ⟨_, _, hsubmit⟩
        · exact hold
        · cases hsubmit
      · rwa [pool_scene] at hjob

theorem cancelJobsIn_congr {w' : World} (h : w'.pools = w.pools) (owner : String)
    (ps : List PoolId) : (w'.cancelJobsIn owner ps).1 = (w.cancelJobsIn owner ps).1 := by
  induction ps generalizing w w' with
  | nil => rfl
  | cons p ps ih =>
    have hpool : w'.pool p = w.pool p := by rw [pool, pool, h]
    show (w'.cancelJobs owner p).1 + ((w'.cancelJobs owner p).2.cancelJobsIn owner ps).1 =
      (w.cancelJobs owner p).1 + ((w.cancelJobs owner p).2.cancelJobsIn owner ps).1
    simp only [cancelJobs, hpool]
    refine congrArg _ (ih ?_)
    split <;> simp [report, onPool, h]

/-- Dropping ordered operations concerns no pool. -/
theorem pools_dropEnvelopes {es : List Envelope} (hes : ∀ e ∈ es, e.isRelay = false) (w : World) :
    (w.dropEnvelopes es).pools = w.pools := by
  induction es generalizing w with
  | nil => rfl
  | cons e es ih =>
    show ((w.dropEnvelope e).dropEnvelopes es).pools = w.pools
    rw [ih fun e' he => hes e' (List.mem_cons_of_mem _ he)]
    cases e with
    | operation _ _ _ => rfl
    | relay _ _ _ => cases hes _ List.mem_cons_self

/-- **What clearing counts**: ordered operations and jobs. -/
theorem clear_fst (ha : a < w.actors.length) :
    (w.clear a).1 = ((w.actor a).mailbox.queue.filter (!·.isRelay)).length +
      (w.cancelJobsIn (w.actor a).owner (w.actor a).pools).1 := by
  have hes : ∀ e ∈ (w.actor a).mailbox.queue.filter (!·.isRelay), e.isRelay = false := by simp
  simp only [clear, withdrawJobs, Mailbox.clear]
  have hactor : ∀ mailbox, ((w.onActor a fun actor => { actor with mailbox }).dropEnvelopes
      ((w.actor a).mailbox.queue.filter (!·.isRelay))).actor a = { w.actor a with mailbox } := by
    intro mailbox
    rw [actor, actors_dropEnvelopes, ← actor, actor_onActor_self w ha]
  rw [hactor]
  refine congrArg _ (cancelJobsIn_congr ?_ (w.actor a).owner (w.actor a).pools)
  exact pools_dropEnvelopes hes _

/-! ### What goes on -/

/-- Somebody is working on a body. -/
def WorksOn (w : World) (r : HandleRef) : Prop := ∃ m ds, w.doing? m = some (r, ds)

theorem worksOn_of_doings {r : HandleRef} (h : doings r w act ≠ []) : w.WorksOn r := by
  cases act with
  | call _ | observe => exact absurd rfl h
  | move m =>
    simp only [doings] at h
    split at h
    · rename_i site ds hd
      split at h
      · rename_i hsite
        exact ⟨m, ds, hsite ▸ hd⟩
      · exact absurd rfl h
    · exact absurd rfl h

theorem content_of_worksOn {h : HandleId} (hs : w.scene.Sound)
    (hw : w.WorksOn (.operation h)) : w.scene.content h = .empty := by
  obtain ⟨m, ds, hd⟩ := hw
  obtain ⟨r, c, hm, _⟩ := doing?_eq_some.mp hd
  exact content_of_operation? hs hm

theorem worksOn_operation {m : Mover} {r : Runner} {h : HandleId} {c : Course}
    (hm : w.operation? m = some (r, h, c)) : w.WorksOn (.operation h) :=
  ⟨m, _, doing?_eq_some.mpr ⟨r, c, hm, rfl⟩⟩

theorem worksOn_job_iff {p : PoolId} {j : JobId} :
    w.WorksOn (.job p j) ↔ ∃ place job, (w.pool p).jobAt place = some job ∧ job.id = j := by
  constructor
  · rintro ⟨m, ds, hd⟩
    cases m with
    | worker q place =>
      obtain ⟨job, hat, heq⟩ := Option.map_eq_some_iff.mp hd
      obtain ⟨rfl, rfl⟩ := HandleRef.job.inj (Prod.mk.inj heq).1
      exact ⟨place, job, hat, rfl⟩
    | runLoop _ | task _ =>
      obtain ⟨_, _, heq⟩ := Option.map_eq_some_iff.mp hd
      cases heq
    | grace _ => simp [doing?, operation?] at hd
  · rintro ⟨place, job, hat, rfl⟩
    exact ⟨.worker p place, _, by rw [doing?, hat]; rfl⟩

variable {x : Commission}

/-- What is worked on for a closed actor was worked on before. -/
theorem worksOn_before (acts : List Act) (hx : x ∈ commissions (acts ++ [act]))
    (hclosed : ((run acts).actor x.actor).closed = true)
    (hw : (run (acts ++ [act])).WorksOn x.site) :
    x ∈ commissions acts ∧ (run acts).WorksOn x.site := by
  have hs := sound_run acts
  have hs' := sound_run (acts ++ [act])
  have hlane : ((run acts).scene.lane x.actor).closed = true := by
    rw [lane_scene]
    exact hclosed
  rw [commissions_concat] at hx
  rcases List.mem_append.mp hx with hx | hx
  · refine ⟨hx, ?_⟩
    rcases x.site_cases with hsite | ⟨p, j, hroute, hanswer, hsite⟩
    · rw [hsite] at hw ⊢
      have hplace := whereabouts_run acts x hx hsite
      generalize history (.operation x.handle) acts = ds at hplace
      cases hplace with
      | waits _ hmem =>
        have hnil := hs.emptied x.actor hlane
        rw [lane_scene] at hnil
        rw [show (((run acts).actor x.actor).mailbox.queue) = [] from hnil] at hmem
        cases hmem
      | runs _ hm _ _ => exact worksOn_operation hm
      | resolved hlt hne _ _ =>
        obtain ⟨ms, d, _⟩ := fits_next hs act
        have hstays := (Scene.Grows.of_deeds d).resolved x.handle (by simpa using hlt) hne
        rw [← run_concat] at hstays
        exact absurd (content_of_worksOn hs' hw) hstays
    · rw [hsite] at hw ⊢
      obtain ⟨hlt, hj, hplace⟩ := workplace_run acts x hx hanswer p j hroute
      generalize history (.job p j) acts = ds at hplace
      cases hplace with
      | waits hmem hid _ _ =>
        have hescorted := escorted_run acts x.toSending (mem_sendings hx) hanswer p j hroute
        have hnot := hescorted.withdrawn hlane
        rw [pool_scene] at hnot
        exact absurd (Pool.mem_queuedIds.mpr ⟨_, hmem, hid⟩) hnot
      | runs hat hid _ _ => exact worksOn_job_iff.mpr ⟨_, _, hat, hid⟩
      | resolved _ _ hattested =>
        obtain ⟨place, job, hat, hid⟩ := worksOn_job_iff.mp hw
        have hsame := content_pool_next hs act hlt hattested.ne_empty hj
        rw [← run_concat] at hsame
        have hr := reachable_pool hs' (lt_of_channels (Nat.lt_of_lt_of_le hlt
          (run_concat acts act ▸ length_channels_pool_next hs act (lt_of_channels hlt))))
        have hempty := hr.content_of_running (hid ▸ Pool.mem_runningIds_of_jobAt hat)
        rw [hsame] at hempty
        exact absurd hempty hattested.ne_empty
  · have hx := Option.mem_toList.mp hx
    have hanswer := answer_of_closed hs (sending_of_commission hx).1 hclosed
    rcases x.site_cases with hsite | ⟨_, _, _, hnone, _⟩
    · rw [hsite] at hw
      have hnone := outcome?_eq_none_iff.mpr (content_of_worksOn hs' hw)
      rw [run_concat, ← (target?_of_commission hx).2, hanswer] at hnone
      cases hnone
    · rw [hnone] at hanswer
      cases hanswer

/-! ### Runs -/

theorem grows_run (before after : List Act) :
    (run before).scene.Grows (run (before ++ after)).scene :=
  keep_run (fun _ d h => h.trans (.of_deed d)) before after (.refl _)

/-- What is unresolved has been so. -/
theorem empty_before (before after : List Act) {h : HandleId}
    (hlt : h < (run before).channels.length)
    (he : (run (before ++ after)).scene.content h = .empty) :
    (run before).scene.content h = .empty := by
  by_contra hne
  exact (grows_run before after).resolved h (by simpa using hlt) hne he

theorem closed_run (before after : List Act) (hclosed : ((run before).actor a).closed = true) :
    ((run (before ++ after)).actor a).closed = true := by
  have := (grows_run before after).closed (a := a) (by rw [lane_scene]; exact hclosed)
  rwa [lane_scene] at this

theorem closed_of_closes (before after : List Act) (h : (run before).Closes act a) :
    ((run (before ++ act :: after)).actor a).closed = true := by
  rw [List.append_cons]
  exact closed_run _ after (run_concat before act ▸ h.2)

theorem name_run (before after : List Act) (ha : a < (run before).actors.length) :
    ((run (before ++ after)).actor a).name = ((run before).actor a).name := by
  have := ((grows_run before after).lane a (by simpa using ha)).name
  rwa [lane_scene, lane_scene] at this

/-- **What is worked on was worked on when the actor was closed.** -/
theorem begun_before (before after : List Act) (hx : x ∈ commissions (before ++ after))
    (hclosed : ((run before).actor x.actor).closed = true)
    (hw : (run (before ++ after)).WorksOn x.site) :
    x ∈ commissions before ∧ (run before).WorksOn x.site := by
  induction after using List.reverseRecOn with
  | nil =>
    rw [List.append_nil] at hx hw
    exact ⟨hx, hw⟩
  | append_singleton after act ih =>
    rw [← List.append_assoc] at hx hw
    obtain ⟨hx, hw⟩ := worksOn_before (before ++ after) hx (closed_run before after hclosed) hw
    exact ih hx hw

/-- Nothing more is done for what is resolved. -/
theorem history_of_resolved (acts later : List Act) {h : HandleId}
    (hlt : h < (run acts).channels.length) (hne : (run acts).scene.content h ≠ .empty) :
    history (.operation h) (acts ++ later) = history (.operation h) acts := by
  induction later using List.reverseRecOn with
  | nil => rw [List.append_nil]
  | append_singleton later act ih =>
    have hstays := (grows_run acts later).resolved h (by simpa using hlt) hne
    rw [← List.append_assoc, history_concat, ih, doings_of_resolved (sound_run _) hstays,
      List.append_nil]

/-- Nothing is ever done for what was refused. -/
theorem history_of_refused (acts : List Act) : ∀ x ∈ commissions acts, x.answer ≠ none →
    (run acts).scene.content x.handle ≠ .empty ∧ history (.operation x.handle) acts = [] := by
  induction acts using List.reverseRecOn with
  | nil =>
    intro x hx
    cases hx
  | append_singleton acts act ih =>
    intro x hx hanswer
    have hs := sound_run acts
    rw [run_concat, history_concat]
    rw [commissions_concat] at hx
    rcases List.mem_append.mp hx with hx | hx
    · obtain ⟨hne, hnil⟩ := ih x hx hanswer
      obtain ⟨ms, d, _⟩ := fits_next hs act
      have hlt := hasMade_run acts hx
      have hsite : x.site = .operation x.handle :=
        x.site_cases.resolve_right fun ⟨_, _, _, hnone, _⟩ => hanswer hnone
      rw [hsite] at hlt
      rw [hnil, doings_of_resolved hs hne]
      refine ⟨(Scene.Grows.of_deeds d).resolved x.handle ?_ hne, rfl⟩
      rw [length_contents_scene]
      exact hlt
    · have hx := Option.mem_toList.mp hx
      obtain ⟨ht, houtcome⟩ := target?_of_commission hx
      have hnew := (of_target? ht).2
      have hlost := Scene.content_of_le (s := (run acts).scene) (by simpa using hnew)
      rw [history_of_le acts hnew, doings_of_resolved hs (by rw [hlost]; simp)]
      refine ⟨fun hempty => hanswer ?_, rfl⟩
      rw [houtcome]
      exact outcome?_eq_none_iff.mpr hempty

/-- Whatever is sent to an actor after it was closed is refused. -/
theorem answer_of_later (before after : List Act) (hx : x ∈ commissions (before ++ after))
    (hclosed : ((run before).actor x.actor).closed = true) (hnew : x ∉ commissions before) :
    x.answer = some (.error (.closed ((run before).actor x.actor).name)) := by
  induction after using List.reverseRecOn with
  | nil =>
    rw [List.append_nil] at hx
    exact absurd hx hnew
  | append_singleton after act ih =>
    rw [← List.append_assoc, commissions_concat] at hx
    rcases List.mem_append.mp hx with hx | hx
    · exact ih hx
    · have hanswer := answer_of_closed (sound_run _)
        (sending_of_commission (Option.mem_toList.mp hx)).1 (closed_run before after hclosed)
      rwa [name_run before after (lt_of_closed hclosed)] at hanswer

/-- What is true of a closed actor. -/
structure Shut (w : World) (a : ActorId) : Prop where
  /-- It is not alive. -/
  dead : (w.actor a).isAlive = false
  /-- Nothing waits for it. -/
  pending : (w.actor a).pendingCount = 0
  /-- There is nothing left to clear. -/
  cleared : (w.clear a).1 = 0
  /-- Its run loop begins with nothing. -/
  still : ∀ act, w.starts a act = []
  /-- What is sent through its mailbox is turned away. -/
  ordered : ∀ body answer, w.TurnsAway a (w.sendOrdered a body answer)
  /-- So is what is sent past the mailbox. -/
  bypass : ∀ body answer, w.TurnsAway a (w.sendBypass a body answer)
  /-- So is what is sent to a pool. -/
  offload : ∀ p urgent body answer, w.TurnsAway a (w.sendOffload a p urgent body answer)
  /-- None of its jobs waits in a pool that it has used. -/
  withdrawn : ∀ p ∈ (w.actor a).pools, ∀ job ∈ (w.pool p).queue,
    job.owner ≠ some (w.actor a).owner
  /-- Another close does nothing. -/
  again : ∀ runLoop system,
    w.beginClose runLoop system a = (none, w.report (.alreadyClosed (w.actor a).name))

/-- Where no job that was withdrawn has come back, a closed actor is shut. -/
theorem Shut.of_withdrawn (hs : w.scene.Sound) (hr : w.scene.Rooted)
    (hw : w.scene.Withdrawn a) (hclosed : (w.actor a).closed = true) : w.Shut a := by
  have hlane : (w.scene.lane a).closed = true := by
    rw [lane_scene]
    exact hclosed
  have ha : a < w.actors.length := by simpa using Scene.lt_of_closed hlane
  have hqueue := queue_of_closed hs hclosed
  have hps : ∀ p ∈ (w.actor a).pools, p < w.pools.length := by
    have := hr a
    simp only [lane_scene, length_pools_scene] at this
    exact this
  have hwithdrawn : ∀ p ∈ (w.actor a).pools, ∀ job ∈ (w.pool p).queue,
      job.owner ≠ some (w.actor a).owner := by
    have := hw hlane
    simp only [lane_scene, pool_scene] at this
    exact this
  have hcleared : (w.clear a).1 = 0 := by
    rw [clear_fst ha, hqueue, cancelJobsIn_fst hs hps hwithdrawn]
    rfl
  refine ⟨?_, congrArg List.length hqueue, hcleared, starts_of_closed hs hclosed,
    turnsAway_sendOrdered hclosed, turnsAway_sendBypass hclosed, turnsAway_sendOffload hclosed,
    hwithdrawn, fun runLoop system => if_pos hclosed⟩
  rw [Actor.isAlive, hclosed]
  rfl

/-- **What a close does at once** leaves the actor shut, wherever it is asked for. -/
theorem shut_beginClose (hs : w.scene.Sound) (hr : w.scene.Rooted) (hw : w.scene.Withdrawn a)
    (ha : a < w.actors.length) (runLoop : Option ActorId) (system : Option SystemId) :
    (w.beginClose runLoop system a).2.Shut a := by
  obtain ⟨ms, d, hms, _⟩ := deeds_beginClose hs ha runLoop system
  have hnot : ∀ p owner, .submitted p owner ∉ ms := fun p owner hp => by cases hms _ hp
  exact .of_withdrawn (hs.deeds d) (d.keep (fun d => d.rooted) hr)
    (d.withdrawn hr (fun p => hnot p _) hw) (closed_beginClose hs ha runLoop system)

/-- **Closing is final.** Let nobody submit jobs of their own under the tag of an actor. Once the
actor is closed, from what a close does at once to whatever happens later, it is shut: it is not
alive, nothing waits for it or can be cleared, everything that is sent to it is turned away, its run
loop begins with nothing, none of its jobs waits in a pool that it has used, and another close does
nothing. Whatever is sent to it in any act is refused, and never run. All that is still done on its
behalf is done for what was being worked on when it was closed: the operation on its run loop, its
operations past the mailbox, and its jobs that had started. -/
theorem closing_final (before after : List Act) (a : ActorId) (ha : a < (run before).actors.length)
    (hplain : ((run before).actor a).owner ∉ jobOwners (before ++ after)) :
    (∀ runLoop system, ((run before).beginClose runLoop system a).2.Shut a) ∧
    (((run before).actor a).closed = true →
      let w := run (before ++ after)
      w.Shut a ∧ ∀ x ∈ commissions (before ++ after), x.actor = a →
        (∀ p j, x.route = .offloaded p j → x.answer = none → p ∈ (w.actor a).pools) ∧
        (x ∉ commissions before → x.answer = some (.error (.closed (w.actor a).name)) ∧
          history x.site (before ++ after) = []) ∧
        ∀ act, doings x.site w act ≠ [] →
          x ∈ commissions before ∧ (run before).WorksOn x.site) := by
  have hgrows := grows_run before after
  have hlane := hgrows.lane a (by simpa using ha)
  simp only [lane_scene] at hlane
  have howner : ((run (before ++ after)).actor a).owner = ((run before).actor a).owner :=
    hlane.owner
  refine ⟨fun runLoop system => ?_, fun hclosed => ?_⟩
  · refine shut_beginClose (sound_run before) (rooted_run before) (withdrawn_run before a ?_) ha
      runLoop system
    exact fun hmem => hplain ((record_isPrefix _ before after).subset hmem)
  · have hlater := closed_run before after hclosed
    refine ⟨.of_withdrawn (sound_run _) (rooted_run _) (withdrawn_run _ a (howner ▸ hplain)) hlater,
      ?_⟩
    rintro x hx rfl
    refine ⟨fun p j hroute hanswer => ?_, fun hnew => ?_, fun act hdoings =>
      begun_before before after hx hclosed (worksOn_of_doings hdoings)⟩
    · have hused := (escorted_run (before ++ after) x.toSending (mem_sendings hx) hanswer p j
        hroute).used
      rwa [lane_scene] at hused
    · have hanswer := answer_of_later before after hx hclosed hnew
      have hsite : x.site = .operation x.handle := x.site_cases.resolve_right
        fun ⟨_, _, _, hnone, _⟩ => by rw [hnone] at hanswer; cases hanswer
      rw [hsite, name_run before after (lt_of_closed hclosed)]
      exact ⟨hanswer, (history_of_refused _ x hx (by rw [hanswer]; simp)).2⟩

/-- An actor is closed while one of its jobs runs, another one waits, and an operation past its
mailbox is in progress. Somebody else has a job in the same pool. -/
def busyRun : List Act :=
  [.call (.createActor "a" "n" "log" {}), .call (.createPool "p" "crew" 1),
    .call (.send (.offload "a" "p" false [.gate "g", .push "side"] .value (.watched "u"))),
    .call (.send (.offload "a" "p" false [.push "second"] .value (.watched "v"))),
    .call (.send (.operation .bypass "a" [.effect (.push "past")] .value (.watched "x"))),
    .move (.worker 0 0),
    .call (.send (.job "p" (some "other") false [.push "job"] (.watched "o"))),
    .call (.close "a" "c"), .move (.task 1)]

/-- Later it is sent something else, and the gate is opened. -/
def busyLater : List Act :=
  [.call (.send (.operation .ordered "a" [.effect (.push "late")] .value (.watched "y"))),
    .call (.openGate "g")]

/-- The job that runs and the operation past the mailbox may go on, the other job is gone, and what
is sent later is refused. -/
theorem closing_final_busyRun :
    let w := run (busyRun ++ busyLater)
    (0 < (run busyRun).actors.length ∧
      ((run busyRun).actor 0).owner ∉ jobOwners (busyRun ++ busyLater) ∧
      ((run busyRun).actor 0).closed = true) ∧
    w.Shut 0 ∧ jobOwners (busyRun ++ busyLater) = ["other"] ∧
    (w.actor 0).pools = [0] ∧ (w.pool 0).runningIds = [0] ∧ (w.pool 0).queuedIds = [2] ∧
    (commissions (busyRun ++ busyLater)).map (·.answer.isSome) = [false, false, false, true] := by
  have hlt : 0 < (run busyRun).actors.length := by decide +kernel
  have hplain : ((run busyRun).actor 0).owner ∉ jobOwners (busyRun ++ busyLater) := by
    decide +kernel
  have hclosed : ((run busyRun).actor 0).closed = true := by decide +kernel
  obtain ⟨hshut, _⟩ := (closing_final busyRun busyLater 0 hlt hplain).2 hclosed
  refine ⟨⟨hlt, hplain, hclosed⟩, hshut, ?_⟩
  decide +kernel

end World

end Troupe
