import Troupe.Proofs.Pool.Stages
import Troupe.Proofs.World.Keeping
import Troupe.Proofs.World.LateStart

/-!
# How far offloaded operations get

The body of an offloaded operation is run by a worker, and its handle is resolved by a relay. This
module follows the job from place to place, as operations have been followed that stay with their
actor, and says what its history is. The relay is followed less closely: all that matters is that
it tells what it has found in the channel of the job.

A job that a worker has not taken may be withdrawn, and a stopped pool refuses it. Either shows in
its channel for good, since nobody else can take the outcome out of it; so what is reported as
cancelled or rejected is never begun with later on.

## Main definitions

* `World.HasMade` — a handle that is not new
* `Commission.Attested` — what the channel of a job says about its history
* `World.Workplace` — where a job is, with its history
* `World.Relayed` — what the handle of the operation says about the channel of its job

## Main results

* `World.labours_next` — what a worker does for its job
* `World.pool_next` — what an act does to a pool, as events of the pool
* `World.hasMade_of_kept`, `not_kept_next` — a handle that a client keeps is not new, and others
  are not kept later
* `World.workplace_next`, `workplace_run` — a job gets further
* `World.relayed_next`, `relayed_run` — a relay tells what it has found
-/

namespace Troupe

/-! ### Pools from one moment to the next -/

/-- What happens to a pool is a list of events that show. -/
theorem Deeds.pool_eq {s t : Scene} {ms : List Mark} {p : PoolId} (d : Deeds ms s t)
    (hp : p < s.pools.length) :
    ∃ es, t.pool p = (s.pool p).run es ∧ ∀ e ∈ es, ∀ m ∈ Mark.ofEvent p e, m ∈ ms := by
  induction d with
  | refl s => exact ⟨[], rfl, by simp⟩
  | cons d ds ih =>
    rename_i ms ns _ _ _
    obtain ⟨es, hpool, hes⟩ := ih (Nat.lt_of_lt_of_le hp d.length_pools)
    have hrest : ∀ e ∈ es, ∀ m ∈ Mark.ofEvent p e, m ∈ ms ++ ns :=
      fun e he m hm => List.mem_append_right _ (hes e he m hm)
    rcases d.pool_cases hp with hsame | ⟨e, hfirst, hmarks⟩
    · exact ⟨es, by rw [hpool, hsame], hrest⟩
    · refine ⟨e :: es, by rw [hpool, hfirst]; rfl, fun e' he' => ?_⟩
      rcases List.mem_cons.mp he' with rfl | he'
      · exact fun m hm => List.mem_append_left _ (hmarks m hm)
      · exact hrest e' he'

namespace World

variable {w : World} {act : Act} {p : PoolId} {j : JobId} {place : Nat}

theorem pool_onPool (hp : p < w.pools.length) (f : Pool Work Json → Pool Work Json) :
    (w.onPool p f).pool p = f (w.pool p) := by
  simp [pool, onPool, hp]

/-- Where there is no pool, nothing waits and nobody works. -/
theorem pool_of_le (h : w.pools.length ≤ p) :
    w.pool p = { name := "", size := 0, crew := [], live := 0 } := by
  rw [pool, List.getElem?_eq_none h]
  rfl

theorem lt_of_channels (h : j < (w.pool p).channels.length) : p < w.pools.length := by
  by_contra hge
  rw [pool_of_le (Nat.le_of_not_lt hge)] at h
  exact absurd h (Nat.not_lt_zero j)

/-- What the next move of a worker does to its pool. -/
inductive Labours (w : World) (p : PoolId) (place : Nat) (job : Job Work) :
    Pool Work Json → List Doing → Prop where
  /-- It waits. -/
  | waits : Labours w p place job (w.pool p) []
  /-- It performs an effect. -/
  | performs {e : Effect} {rest : List Effect} {value : Json} (h : job.body.rest = e :: rest) :
    Labours w p place job ((w.pool p).advance place { job.body with rest, value })
      [.performs (.effect e)]
  /-- An effect ends the job. -/
  | cut {e : Effect} {rest : List Effect} {ending : Ending} (h : job.body.rest = e :: rest)
    (hc : (Action.effect e).Cuts ending) :
    Labours w p place job ((w.pool p).finish place (job.body.answer.jobOutcome ending))
      [.performs (.effect e), .ends ending]
  /-- The job returns. -/
  | returned (h : job.body.rest = []) :
    Labours w p place job
      ((w.pool p).finish place (job.body.answer.jobOutcome (.returned job.body.value)))
      [.ends (.returned job.body.value)]

theorem pool_finishJob (hp : p < w.pools.length) (place : Nat) (job : Job Work)
    (ending : Ending) : (w.finishJob p place job ending).pool p =
      (w.pool p).finish place (job.body.answer.jobOutcome ending) := by
  have hpool := pool_onPool hp (·.finish place (job.body.answer.jobOutcome ending))
  simp only [finishJob, reportJob]
  cases ending <;> split <;> exact hpool

/-- **A worker with a job** gets further in it. -/
theorem labours_next (hp : p < w.pools.length) {job : Job Work}
    (hat : (w.pool p).jobAt place = some job) :
    w.Labours p place job ((w.next (.move (.worker p place))).pool p) (w.jobDoings job.body) := by
  have hnext : ∀ {w' : World}, w.stepJob p place job = some w' →
      (w.next (.move (.worker p place))).pool p = w'.pool p := by
    intro w' hstep
    simp only [next, step, stepWorker, hat, hstep, Option.map_some, Option.getD_some]
    rfl
  cases hrest : job.body.rest with
  | nil =>
    have hstep : w.stepJob p place job =
        some (w.finishJob p place job (.returned job.body.value)) := by
      simp only [stepJob, hrest]
    rw [hnext hstep, pool_finishJob hp, jobDoings, hrest]
    exact .returned hrest
  | cons e rest =>
    cases hrun : e.run w.gates (w.lines job.body.page) job.body.value with
    | goesOn lines value =>
      have hstep : w.stepJob p place job = some ((w.write job.body.page lines).onPool p
          (·.advance place { job.body with rest, value })) := by
        simp only [stepJob, hrest, hrun]
      have hwrite : (w.write job.body.page lines).pools.length = w.pools.length ∧
          (w.write job.body.page lines).pool p = w.pool p := by
        rw [← length_pools_scene, ← pool_scene, scene_write]
        simp [pool_scene]
      rw [hnext hstep, pool_onPool (by rwa [hwrite.1]), hwrite.2]
      simp only [jobDoings, hrest, hrun]
      exact .performs hrest
    | ends ending =>
      have hstep : w.stepJob p place job = some (w.finishJob p place job ending) := by
        simp only [stepJob, hrest, hrun]
      rw [hnext hstep, pool_finishJob hp]
      simp only [jobDoings, hrest, hrun]
      exact .cut hrest (cuts_of_run hrun)
    | waits =>
      have hstuck : w.step (.worker p place) = none := by
        simp [step, stepWorker, hat, stepJob, hrest, hrun]
      rw [next_of_stuck hstuck]
      simp only [jobDoings, hrest, hrun]
      exact .waits

/-- A worker does one thing to its pool, or nothing. -/
theorem pool_next_worker (hp : p < w.pools.length) (place : Nat) :
    (w.next (.move (.worker p place))).pool p = w.pool p ∨
      ∃ e, e.place? = some place ∧
        (w.next (.move (.worker p place))).pool p = (w.pool p).apply e := by
  cases hat : (w.pool p).jobAt place with
  | some job =>
    have h := labours_next hp hat
    generalize (w.next (.move (.worker p place))).pool p = q at h
    generalize w.jobDoings job.body = ds at h
    -- An outcome is a value or the message of a panic.
    have finishes : ∀ ending, ∃ e, e.place? = some place ∧
        (w.pool p).finish place (job.body.answer.jobOutcome ending) = (w.pool p).apply e := by
      intro ending
      obtain ⟨result, hresult⟩ := jobOutcome_eq job.body.answer ending
      exact ⟨.finish place result, rfl, by rw [hresult]; rfl⟩
    cases h with
    | waits => exact .inl rfl
    | performs _ => exact .inr ⟨.advance place _, rfl, rfl⟩
    | cut _ _ => exact .inr (finishes _)
    | returned _ => exact .inr (finishes _)
  | none =>
    refine .inr ⟨.look place, rfl, ?_⟩
    cases hlook : (w.pool p).look place with
    | none =>
      rw [next_of_stuck (by simp [step, stepWorker, hat, hlook]), Pool.apply, hlook]
      rfl
    | some q =>
      simp only [next, step, stepWorker, hat, hlook, Option.map_some, Option.getD_some,
        Pool.apply, pool_release]
      exact pool_onPool hp _

/-- The handle of a job is kept as long as a name stands for it. -/
theorem mem_kept_of_handleNamed {name : String} {r : HandleRef}
    (h : w.handleNamed name = .ok r) : r ∈ w.kept := by
  rw [handleNamed] at h
  cases hlookup : w.names.held.lookup name with
  | none =>
    rw [hlookup] at h
    cases h
  | some r' =>
    rw [hlookup] at h
    obtain rfl : r' = r := by simpa using h
    exact mem_of_lookup_names hlookup

/-- **What an act does to a pool.** A worker does one thing; all others do what clients do, and
nobody takes the outcome of a job that no client keeps. -/
theorem pool_next (hs : w.scene.Sound) (act : Act) (hp : p < w.pools.length)
    (hj : .job p j ∉ w.kept) :
    (∃ es, (w.next act).pool p = (w.pool p).run es ∧
        ∀ e ∈ es, e.place? = none ∧ e ≠ .drain j) ∨
      ∃ place e, act = .move (.worker p place) ∧ e.place? = some place ∧
        (w.next act).pool p = (w.pool p).apply e := by
  by_cases hact : ∃ place, act = .move (.worker p place)
  · obtain ⟨place, rfl⟩ := hact
    rcases pool_next_worker hp place with hsame | ⟨e, he, hpool⟩
    · exact .inl ⟨[], hsame, by simp⟩
    · exact .inr ⟨place, e, rfl, he, hpool⟩
  · obtain ⟨ms, d, hms⟩ := fits_next hs act
    obtain ⟨es, hpool, hes⟩ := d.pool_eq (p := p) (by simpa using hp)
    rw [pool_scene, pool_scene] at hpool
    refine .inl ⟨es, hpool, fun e he => ?_⟩
    have hfits := fun m hm => hms m (hes e he m hm)
    cases e with
    | look _ | advance _ _ | finish _ _ => exact absurd (hfits _ (List.mem_singleton_self _)) hact
    | drain k =>
      obtain ⟨name, _, hname⟩ := hfits _ (List.mem_singleton_self _)
      refine ⟨rfl, ?_⟩
      rintro ⟨⟩
      exact hj (mem_kept_of_handleNamed hname)
    | submit _ _ _ | cancel _ | shutdown | shutdownNow | deafen _ => exact ⟨rfl, by simp⟩

/-- Jobs keep their numbers. -/
theorem length_channels_pool_next (hs : w.scene.Sound) (act : Act) (hp : p < w.pools.length) :
    (w.pool p).channels.length ≤ ((w.next act).pool p).channels.length := by
  obtain ⟨ms, d, _⟩ := fits_next hs act
  obtain ⟨es, hpool, _⟩ := d.pool_eq (p := p) (by simpa using hp)
  rw [pool_scene, pool_scene] at hpool
  rw [hpool]
  exact Pool.length_channels_le_run _ es

/-- A handle that has been made, of an operation or of a job. -/
def HasMade (w : World) : HandleRef → Prop
  | .operation h => h < w.channels.length
  | .job p j => j < (w.pool p).channels.length

theorem HasMade.next (hs : w.scene.Sound) {r : HandleRef} (h : w.HasMade r) (act : Act) :
    (w.next act).HasMade r := by
  cases r with
  | operation k => exact Nat.lt_of_lt_of_le h (length_channels_next hs act)
  | job p j => exact Nat.lt_of_lt_of_le h (length_channels_pool_next hs act (lt_of_channels h))

/-- What an act brings is made by it. -/
theorem Brings.hasMade {w' : World} {toNobody : Prop} {r : HandleRef}
    (h : w.Brings w' toNobody r) : ¬w.HasMade r ∧ w'.HasMade r := by
  cases r with
  | operation k =>
    refine ⟨Nat.not_lt_of_le h.1, ?_⟩
    by_contra hge
    exact h.2 (by rw [← content_scene, Scene.content_of_le (by simpa [HasMade] using hge)])
  | job p j =>
    refine ⟨Nat.not_lt_of_le (Nat.le_of_eq h.2.1.symm), ?_⟩
    by_contra hge
    exact h.2.2 (Pool.content_of_le (Nat.le_of_not_lt hge))

/-- In a run every handle that is kept has been made. -/
theorem hasMade_of_kept (acts : List Act) : ∀ r ∈ (run acts).kept, (run acts).HasMade r := by
  induction acts using List.reverseRecOn with
  | nil =>
    intro r hr
    cases hr
  | append_singleton acts act ih =>
    intro r hr
    have hs := sound_run acts
    rw [run_concat] at hr ⊢
    exact (mem_kept_next hs hr).elim (fun hold => (ih r hold).next hs act) fun hnew =>
      hnew.hasMade.2

/-- A handle that has been made and is not kept will never be. -/
theorem not_kept_next (hs : w.scene.Sound) {r : HandleRef} (hmade : w.HasMade r)
    (hr : r ∉ w.kept) (act : Act) : r ∉ (w.next act).kept :=
  fun hnext => (mem_kept_next hs hnext).elim hr fun hnew => hnew.hasMade.1 hmade

end World

/-! ### Jobs -/

namespace Commission

/-- What the channel of a job says about its history. -/
inductive Attested (x : Commission) : Content (Except PoolError Json) → List Doing → Prop where
  /-- The job was withdrawn before it was begun. -/
  | withdrawn : Attested x .lost []
  /-- The job was refused. -/
  | refused (pool : String) : Attested x (.full (.error (.shutdown pool))) []
  /-- The job has ended. -/
  | ended {ds : List Doing} {ending : Ending} (h : .ends ending ∈ ds) :
    Attested x (.full (x.kind.jobOutcome ending)) ds

theorem Attested.ne_empty {x : Commission} {c : Content (Except PoolError Json)} {ds : List Doing}
    (h : x.Attested c ds) : c ≠ .empty := by
  cases h <;> simp

end Commission

namespace World

variable {w : World} {x : Commission} {p : PoolId} {j : JobId} {ds : List Doing} {act : Act}

/-- Where a job is, with its history. -/
inductive Workplace (w : World) (x : Commission) (p : PoolId) (j : JobId) : List Doing → Prop where
  /-- It waits, and nothing has been done. -/
  | waits {job : Job Work} (hmem : job ∈ (w.pool p).queue) (hid : job.id = j)
    (hbody : x.body = job.body.rest.map .effect) (hkind : job.body.answer = x.kind) :
    Workplace w x p j []
  /-- A worker works on it. -/
  | runs {place : Nat} {job : Job Work} {done : List Action}
    (hat : (w.pool p).jobAt place = some job) (hid : job.id = j)
    (hbody : x.body = done ++ job.body.rest.map .effect) (hkind : job.body.answer = x.kind) :
    Workplace w x p j (done.map .performs)
  /-- Its channel is resolved. -/
  | resolved {ds : List Doing} (hlt : j < (w.pool p).channels.length) (hran : Ran x.body ds)
    (hattested : x.Attested ((w.pool p).content j) ds) : Workplace w x p j ds

theorem Workplace.ran (h : w.Workplace x p j ds) : Ran x.body ds := by
  cases h with
  | waits _ _ _ _ => exact .nil
  | runs _ _ hbody _ => exact .partly hbody
  | resolved _ hran _ => exact hran

theorem Workplace.lt (hs : w.scene.Sound) (h : w.Workplace x p j ds) :
    j < (w.pool p).channels.length := by
  rcases Nat.lt_or_ge p w.pools.length with hp | hge
  · have hr := reachable_pool hs hp
    cases h with
    | waits hmem hid _ _ => exact hr.lt_of_queued (Pool.mem_queuedIds.mpr ⟨_, hmem, hid⟩)
    | runs hat hid _ _ =>
      have hrunning := Pool.mem_runningIds_of_jobAt hat
      exact Pool.lt_of_content_empty (hr.content_of_running (hid ▸ hrunning))
    | resolved hlt _ _ => exact hlt
  · cases h with
    | waits hmem _ _ _ =>
      rw [pool_of_le hge] at hmem
      cases hmem
    | runs hat _ _ _ =>
      rw [pool_of_le hge] at hat
      simp [Pool.jobAt] at hat
    | resolved hlt _ _ => exact hlt

/-- What is withdrawn or refused has not been begun with. -/
theorem Workplace.of_withdrawn (hlt : j < (w.pool p).channels.length)
    (hc : (w.pool p).content j = .lost) : w.Workplace x p j [] :=
  .resolved hlt .nil (by rw [hc]; exact .withdrawn)

/-! ### What workers do -/

/-- Only a worker does anything for a job, and only for the one that it runs. -/
theorem doings_job_of_ne (h : ∀ place job, act = .move (.worker p place) →
    (w.pool p).jobAt place = some job → job.id ≠ j) : doings (.job p j) w act = [] := by
  cases act with
  | call _ | observe => rfl
  | move m =>
    cases m with
    | runLoop _ | task _ =>
      simp only [doings, doing?]
      split
      · rename_i site ds hd
        obtain ⟨_, _, heq⟩ := Option.map_eq_some_iff.mp hd
        cases heq
        rfl
      · rfl
    | grace t => rfl
    | worker q place =>
      simp only [doings, doing?]
      split
      · rename_i site ds hd
        obtain ⟨job, hat, heq⟩ := Option.map_eq_some_iff.mp hd
        cases heq
        refine if_neg fun hsite => ?_
        obtain ⟨rfl, hid⟩ := HandleRef.job.inj hsite
        exact h place job rfl hat hid
      · rfl

theorem doings_of_not_running (h : j ∉ (w.pool p).runningIds) (act : Act) :
    doings (.job p j) w act = [] :=
  doings_job_of_ne fun _ _ _ hat hid => h (hid ▸ Pool.mem_runningIds_of_jobAt hat)

/-- Nobody but its worker does anything for a job that is run. -/
theorem doings_of_others (hs : w.scene.Sound) {job : Job Work}
    (hat : (w.pool p).jobAt place = some job) (hact : act ≠ .move (.worker p place)) :
    doings (.job p job.id) w act = [] := by
  have hp : p < w.pools.length := by
    by_contra hge
    rw [pool_of_le (Nat.le_of_not_lt hge)] at hat
    cases hat
  refine doings_job_of_ne ?_
  rintro k other rfl hk hid
  exact hact (by rw [(reachable_pool hs hp).place_unique hat hk hid.symm])

theorem doings_of_worker {place : Nat} {job : Job Work} (hat : (w.pool p).jobAt place = some job) :
    doings (.job p job.id) w (.move (.worker p place)) = w.jobDoings job.body := by
  simp [doings, doing?, hat]

/-! ### Jobs get further -/

/-- What is in the channel of a job stays there, if no client keeps its handle. -/
theorem content_pool_next (hs : w.scene.Sound) (act : Act) (hlt : j < (w.pool p).channels.length)
    (hne : (w.pool p).content j ≠ .empty) (hj : .job p j ∉ w.kept) :
    ((w.next act).pool p).content j = (w.pool p).content j := by
  rcases pool_next hs act (lt_of_channels hlt) hj with ⟨es, hpool, hes⟩ | ⟨place, e, _, he, hpool⟩
  · rw [hpool, Pool.content_run hlt hne fun e he => (hes e he).2]
  · rw [hpool, Pool.content_apply hlt hne]
    rintro rfl
    cases he

theorem lt_of_jobAt {place : Nat} {job : Job Work} (hat : (w.pool p).jobAt place = some job) :
    p < w.pools.length := by
  by_contra hge
  rw [pool_of_le (Nat.le_of_not_lt hge)] at hat
  cases hat

/-- The channel of a job that is ended carries what it is ended with. -/
theorem content_of_finish (hs : w.scene.Sound) {place : Nat} {job : Job Work}
    (hat : (w.pool p).jobAt place = some job) (outcome : Except PoolError Json) :
    ((w.pool p).finish place outcome).content job.id = .full outcome := by
  have hempty := (reachable_pool hs (lt_of_jobAt hat)).content_of_running
    (Pool.mem_runningIds_of_jobAt hat)
  obtain ⟨_, _, _, hcontent⟩ := Pool.finish_of_jobAt hat outcome
  rw [hcontent _ (Pool.lt_of_content_empty hempty), if_pos rfl, hempty]
  rfl

/-- The worker of a job takes it one step further. -/
theorem workplace_runs (hs : w.scene.Sound) (hlt : j < (w.pool p).channels.length) {place : Nat}
    {job : Job Work} {done : List Action} (hat : (w.pool p).jobAt place = some job)
    (hid : job.id = j) (hbody : x.body = done ++ job.body.rest.map .effect)
    (hkind : job.body.answer = x.kind) :
    (w.next (.move (.worker p place))).Workplace x p j
      (done.map .performs ++ w.jobDoings job.body) := by
  have hp := lt_of_channels hlt
  -- The channel of a job that ends carries what it ended with.
  have ends : ∀ {q : Pool Work Json} {ending : Ending} {ds : List Doing},
      q = (w.pool p).finish place (job.body.answer.jobOutcome ending) →
      (w.next (.move (.worker p place))).pool p = q → .ends ending ∈ ds → Ran x.body ds →
      (w.next (.move (.worker p place))).Workplace x p j ds := by
    rintro q ending ds rfl hpool hmem hran
    have hcontent := content_of_finish hs hat (job.body.answer.jobOutcome ending)
    have hlength := (Pool.finish_of_jobAt hat (job.body.answer.jobOutcome ending)).2.2.1
    refine .resolved (by rw [hpool, hlength]; exact hlt) hran ?_
    rw [hpool, ← hid, hcontent, hkind]
    exact .ended hmem
  have h := labours_next hp hat
  generalize hpool : (w.next (.move (.worker p place))).pool p = q at h
  generalize w.jobDoings job.body = ds at h
  cases h with
  | waits =>
    rw [List.append_nil]
    exact .runs (hpool ▸ hat) hid hbody hkind
  | performs hrest =>
    rename_i e rest value
    have hat' := Pool.jobAt_advance hat { job.body with rest, value }
    rw [← hpool] at hat'
    have hdone : done.map Doing.performs ++ [.performs (.effect e)] =
        (done ++ [Action.effect e]).map .performs := by
      simp
    rw [hdone]
    refine .runs hat' hid ?_ hkind
    rw [hbody, hrest, List.map_cons, List.append_assoc]
    rfl
  | cut hrest hc =>
    rename_i e rest ending
    have hran : Ran x.body ((done ++ [Action.effect e]).map .performs ++ [.ends ending]) :=
      .cut (by rw [hbody, hrest, List.map_cons]) hc
    refine ends rfl hpool (by simp) ?_
    simpa using hran
  | returned hrest =>
    have hran : Ran x.body (x.body.map .performs ++ [.ends (.returned job.body.value)]) :=
      .returned job.body.value
    refine ends rfl hpool (by simp) ?_
    simpa [hbody, hrest] using hran

/-- A worker that does not move keeps its job. -/
theorem jobAt_next (hs : w.scene.Sound) {place : Nat} {job : Job Work}
    (hat : (w.pool p).jobAt place = some job) (hj : .job p job.id ∉ w.kept)
    (hact : act ≠ .move (.worker p place)) : ((w.next act).pool p).jobAt place = some job := by
  rcases pool_next hs act (lt_of_jobAt hat) hj with ⟨es, hpool, hes⟩ | ⟨k, e, hk, he, hpool⟩
  · rw [hpool, Pool.jobAt_run fun e he => by simp [(hes e he).1]]
    exact hat
  · rw [hpool, Pool.jobAt_apply, hat]
    rw [he]
    rintro ⟨⟩
    exact hact hk

/-- **A job gets further**, and its history with it. -/
theorem workplace_next (hs : w.scene.Sound) (hlt : j < (w.pool p).channels.length)
    (hj : .job p j ∉ w.kept) (h : w.Workplace x p j ds) (act : Act) :
    (w.next act).Workplace x p j (ds ++ doings (.job p j) w act) := by
  have hp := lt_of_channels hlt
  have hr := reachable_pool hs hp
  have hlt' := Nat.lt_of_lt_of_le hlt (length_channels_pool_next hs act hp)
  cases h with
  | waits hmem hid hbody hkind =>
    rename_i job
    subst hid
    have hqueued := Pool.mem_queuedIds.mpr ⟨job, hmem, rfl⟩
    rw [doings_of_not_running (hr.not_running_of_queued hqueued)]
    have kept : job ∈ ((w.next act).pool p).queue → (w.next act).Workplace x p job.id [] :=
      fun h => .waits h rfl hbody hkind
    have lost : ((w.next act).pool p).content job.id = .lost →
        (w.next act).Workplace x p job.id [] := .of_withdrawn hlt'
    rcases pool_next hs act hp hj with ⟨es, hpool, hes⟩ | ⟨place, e, _, _, hpool⟩
    · rw [hpool] at kept lost
      exact (hr.queued_run hmem hes).elim kept lost
    · rw [hpool] at kept lost
      rcases hr.queued_apply hmem e with hstays | hlost | ⟨place, _, hat⟩
      · exact kept hstays
      · exact lost hlost
      · exact @Workplace.runs _ x p job.id place job [] (hpool ▸ hat) rfl hbody hkind
  | runs hat hid hbody hkind =>
    rename_i place job done
    subst hid
    by_cases hact : act = .move (.worker p place)
    · subst hact
      rw [doings_of_worker hat]
      exact workplace_runs hs hlt hat rfl hbody hkind
    · rw [doings_of_others hs hat hact, List.append_nil]
      exact .runs (jobAt_next hs hat hj hact) rfl hbody hkind
  | resolved _ hran hattested =>
    have hne := hattested.ne_empty
    rw [doings_of_not_running fun hrun => hne (hr.content_of_running hrun), List.append_nil]
    refine .resolved hlt' hran ?_
    rwa [content_pool_next hs act hlt hne hj]

/-! ### Jobs from the beginning -/

/-- What is offloaded is submitted as the next job of the pool. -/
theorem submitted_of_commission (hs : w.scene.Sound) (hx : w.commission act = some x)
    (hroute : x.route = .offloaded p j) (hanswer : x.answer = none) :
    j = (w.pool p).channels.length ∧ ∃ owner urgent work,
      work.rest.map .effect = x.body ∧ work.answer = x.kind ∧
      ((w.next act).pool p).queue = ((w.pool p).submit owner urgent work).2.queue ∧
      ∀ k, ((w.next act).pool p).content k = ((w.pool p).submit owner urgent work).2.content k := by
  obtain ⟨hz, hbody, hkind⟩ := sending_of_commission hx
  obtain ⟨ht, hshown⟩ := target?_of_commission hx
  obtain ⟨w₀, w₁, harrived, htrails, hlen, hpools⟩ := arrived_next hs ht
  have hsame : ∀ q, w₀.pool q = w.pool q := fun q => by rw [pool, hpools, pool]
  rw [← hbody, ← hkind] at harrived
  generalize hr : x.route = r at harrived
  cases harrived with
  | ordered _ | bypass _ _ =>
    rw [hroute] at hr
    cases hr
  | refused hc =>
    rename_i name
    have hfull : (w.next act).scene.content x.handle = .full (.error (.closed name)) := by
      rw [content_scene, ← hlen, htrails.content]
      exact hc
    rw [outcome?_of_full hfull, hanswer] at hshown
    cases hshown
  | offloaded hp hrest hanswer' hpool =>
    rename_i q owner urgent work
    obtain ⟨rfl, rfl⟩ := Route.offloaded.inj (hroute.symm.trans hr)
    rw [hsame] at hpool ⊢
    refine ⟨rfl, owner, urgent, work, hrest, hanswer', ?_, fun k => ?_⟩
    · rw [htrails.queue p, hpool]
    · rw [htrails.job p k, hpool]

/-- **A job is followed from the beginning.** -/
theorem workplace_sent (hs : w.scene.Sound) (hx : w.commission act = some x)
    (hroute : x.route = .offloaded p j) (hanswer : x.answer = none) :
    (w.next act).Workplace x p j [] ∧ j = (w.pool p).channels.length := by
  obtain ⟨rfl, owner, urgent, work, hrest, hkind, hqueue, hcontent⟩ :=
    submitted_of_commission hs hx hroute hanswer
  refine ⟨?_, rfl⟩
  rcases Pool.placed_submit (p := w.pool p) owner urgent work with hwaits | hrefused
  · exact .waits (hqueue ▸ hwaits) rfl hrest.symm hkind
  · rw [← hcontent] at hrefused
    refine .resolved ?_ .nil (hrefused ▸ .refused (w.pool p).name)
    by_contra hge
    rw [Pool.content_of_le (Nat.le_of_not_lt hge)] at hrefused
    cases hrefused

theorem lt_of_running (hs : w.scene.Sound) (h : j ∈ (w.pool p).runningIds) :
    j < (w.pool p).channels.length := by
  rcases Nat.lt_or_ge p w.pools.length with hp | hge
  · exact Pool.lt_of_content_empty ((reachable_pool hs hp).content_of_running h)
  · rw [pool_of_le hge] at h
    cases h

theorem history_job_of_le (acts : List Act)
    (hle : ((run acts).pool p).channels.length ≤ j) : history (.job p j) acts = [] := by
  induction acts using List.reverseRecOn with
  | nil => rfl
  | append_singleton acts act ih =>
    have hs := sound_run acts
    rw [run_concat] at hle
    have hold : ((run acts).pool p).channels.length ≤ j := by
      rcases Nat.lt_or_ge p (run acts).pools.length with hp | hge
      · exact Nat.le_trans (length_channels_pool_next hs act hp) hle
      · by_contra hlt
        exact absurd (lt_of_channels (Nat.lt_of_not_le hlt)) (Nat.not_lt_of_le hge)
    rw [history_concat, ih hold]
    exact doings_of_not_running (fun hrun => Nat.not_lt_of_le hold (lt_of_running hs hrun)) act

/-- **In a run** every job is where its history says, and no client keeps its handle. -/
theorem workplace_run (acts : List Act) : ∀ x ∈ commissions acts, x.answer = none →
    ∀ p j, x.route = .offloaded p j → j < ((run acts).pool p).channels.length ∧
      .job p j ∉ (run acts).kept ∧ (run acts).Workplace x p j (history (.job p j) acts) := by
  induction acts using List.reverseRecOn with
  | nil =>
    intro x hx
    cases hx
  | append_singleton acts act ih =>
    intro x hx hanswer p j hroute
    have hs := sound_run acts
    rw [run_concat, history_concat]
    rw [commissions_concat] at hx
    rcases List.mem_append.mp hx with hx | hx
    · obtain ⟨hlt, hj, hplace⟩ := ih x hx hanswer p j hroute
      have hlt' := length_channels_pool_next hs act (lt_of_channels hlt)
      exact ⟨Nat.lt_of_lt_of_le hlt hlt', not_kept_next (r := .job p j) hs hlt hj act,
        workplace_next hs hlt hj hplace act⟩
    · have hx := Option.mem_toList.mp hx
      obtain ⟨hplace, hj⟩ := workplace_sent hs hx hroute hanswer
      refine ⟨hplace.lt (sound_next hs act), fun hr => ?_, ?_⟩
      · rcases mem_kept_next hs hr with hold | ⟨hnone, _⟩
        · exact absurd hj (Nat.ne_of_lt (hasMade_of_kept acts _ hold))
        · rw [(target?_of_commission hx).1] at hnone
          cases hnone
      · rw [history_job_of_le acts (Nat.le_of_eq hj.symm), doings_of_not_running fun hrun =>
          absurd hj (Nat.ne_of_lt (lt_of_running hs hrun))]
        exact hplace

/-! ### Relays -/

/-- **The move of a run loop that is inside of a relay**: the handle shows the outcome of the job if
there is one, and a refusal if there is none and the run loop is to stop. -/
theorem outcome?_of_relay {a : ActorId} {h : HandleId} (hempty : w.outcome? h = none)
    (hloop : (w.actor a).loop = .inside (.relay h p j)) :
    (w.next (.move (.runLoop a))).outcome? h =
      match (w.pool p).outcome? j with
      | some found => some (found.mapError ActorError.ofPool)
      | none =>
        if (w.actor a).stopping then some (.error (.closed (w.actor a).name)) else none := by
  have hcontent := outcome?_eq_none_iff.mp hempty
  cases hout : (w.pool p).outcome? j with
  | some found =>
    have hnext : w.next (.move (.runLoop a)) =
        ((w.resolve h (found.mapError ActorError.ofPool)).setLoop a .idle).release :=
      next_of_stepLoop (by simp [stepLoop, hloop, stepInside, hout])
    have hsame : (w.next (.move (.runLoop a))).channels =
        (w.resolve h (found.mapError ActorError.ofPool)).channels := by rw [hnext]; rfl
    rw [outcome?_of_channels hsame]
    exact outcome?_resolve hcontent _
  | none =>
    cases hstop : (w.actor a).stopping with
    | true =>
      have hnext : w.next (.move (.runLoop a)) =
          (((w.resolve h (.error (w.actor a).refusal)).deafen (.job p j)).setLoop a
            .idle).release :=
        next_of_stepLoop (by simp [stepLoop, hloop, stepInside, hout, hstop])
      have hsame : (w.next (.move (.runLoop a))).channels =
          (w.resolve h (.error (w.actor a).refusal)).channels := by rw [hnext]; rfl
      rw [outcome?_of_channels hsame]
      exact outcome?_resolve hcontent _
    | false =>
      have hstuck : w.step (.runLoop a) = none := by
        simp [step, stepLoop, hloop, stepInside, hout, hstop]
      rw [next_of_stuck hstuck, hempty]
      rfl

/-- What the handle of an offloaded operation shows: that the actor was closed, or what the relay
has found in the channel of the job. -/
def Relayed (w : World) (x : Commission) (p : PoolId) (j : JobId) : Prop :=
  ∀ o, w.scene.content x.handle = .full o → (∃ name, o = .error (.closed name)) ∨
    ∃ found, (w.pool p).outcome? j = some found ∧ o = found.mapError ActorError.ofPool

/-- The outcome of a job that no client keeps stays what it is. -/
theorem outcome?_pool_next (hs : w.scene.Sound) (act : Act) (hlt : j < (w.pool p).channels.length)
    (hj : .job p j ∉ w.kept) {found : Except PoolError Json}
    (hfound : (w.pool p).outcome? j = some found) :
    ((w.next act).pool p).outcome? j = some found := by
  have hne : (w.pool p).content j ≠ .empty := by
    rw [Ne, ← Pool.outcome?_eq_none_iff, hfound]
    simp
  rw [Pool.outcome?_congr (content_pool_next hs act hlt hne hj), hfound]

/-- **A relay tells what it has found.** -/
theorem relayed_next (hs : w.scene.Sound) (he : w.scene.Escorted x.actor x.handle p j)
    (hj : .job p j ∉ w.kept) (h : w.Relayed x p j) (act : Act) : (w.next act).Relayed x p j := by
  have hlt : j < (w.pool p).channels.length := by
    rw [← pool_scene]
    exact he.submitted
  by_cases hempty : w.scene.content x.handle = .empty
  · -- The relay is in its place, and nobody but its run loop tells an outcome.
    have silent : (w.next act).scene.content x.handle = .empty ∨
        (w.next act).scene.content x.handle = .lost → (w.next act).Relayed x p j := by
      rintro (hc | hc) o ho <;> rw [hc] at ho <;> cases ho
    have hplaced : ∀ {i : Inside}, ((w.next act).actor x.actor).loop = .inside i →
        (w.next act).scene.content i.handle = .empty := content_of_inside (sound_next hs act)
    rcases he.placed hempty with hinside | hqueue
    · rw [lane_scene] at hinside
      by_cases hact : act = .move (.runLoop x.actor)
      · intro o ho
        have hshown := hact ▸ outcome?_of_relay (outcome?_eq_none_iff.mpr hempty) hinside
        rw [outcome?_of_full ho] at hshown
        cases hout : (w.pool p).outcome? j with
        | some found =>
          rw [hout] at hshown
          exact .inr ⟨found, outcome?_pool_next hs act hlt hj hout, Option.some.inj hshown⟩
        | none =>
          cases hstop : (w.actor x.actor).stopping <;> simp [hout, hstop] at hshown
          exact .inl ⟨_, hshown⟩
      · exact silent ((inside_next hs hact hinside).imp_left hplaced)
    · rw [lane_scene] at hqueue
      rcases waiting_next hs hqueue act with hstays | hloop | hlost
      · exact silent (.inl ((sound_next hs act).content_of_handles (a := x.actor)
          (List.mem_append_right _ (handle_mem_waiting hstays))))
      · exact silent (.inl (hplaced hloop))
      · exact silent (.inr hlost)
  · intro o ho
    refine (h o (full_next hs act (by simpa using he.made) hempty ho)).imp_right ?_
    rintro ⟨found, hfound, rfl⟩
    exact ⟨found, outcome?_pool_next hs act hlt hj hfound, rfl⟩

/-- **In a run** every handle of an offloaded operation shows what its relay has found. -/
theorem relayed_run (acts : List Act) : ∀ x ∈ commissions acts, x.answer = none →
    ∀ p j, x.route = .offloaded p j → (run acts).Relayed x p j := by
  induction acts using List.reverseRecOn with
  | nil =>
    intro x hx
    cases hx
  | append_singleton acts act ih =>
    intro x hx hanswer p j hroute
    have hs := sound_run acts
    rw [run_concat]
    rw [commissions_concat] at hx
    rcases List.mem_append.mp hx with hx | hx
    · obtain ⟨_, hj, _⟩ := workplace_run acts x hx hanswer p j hroute
      have he := escorted_run acts x.toSending (mem_sendings hx) hanswer p j hroute
      exact relayed_next hs he hj (ih x hx hanswer p j hroute) act
    · have hshown := (target?_of_commission (Option.mem_toList.mp hx)).2
      rw [hanswer] at hshown
      intro o ho
      rw [outcome?_of_full ho] at hshown
      cases hshown

end World

end Troupe
