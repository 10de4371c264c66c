import Troupe.Proofs.Pool.Withdrawal
import Troupe.Proofs.World.Backlog
import Troupe.Proofs.World.Resolutions

/-!
# Clearing

To clear an actor is to remove everything that it has not begun with: the ordered operations that
wait in its mailbox, and its jobs that wait in pools. An offloaded operation is in two places, its
job in a pool and its relay in the mailbox. It is the job that is removed and counted; the relay
stays where it is, and shows in its turn that the job was withdrawn.

What waits is found in the places where clearing looks for it, which are the mailbox and the pools
that the actor has used. That nothing waits elsewhere, and that nothing in these places belongs to
somebody else, is what makes the number exact. It needs an actor whose tag nobody else uses for jobs
of his own.

## Main definitions

* `World.Clearance` — what clearing an actor does to a world
* `World.Returns` — an act hands out a number
* `World.Cleared`, `World.Aftermath` — an act that clears, and the runs that go on from it

## Main results

* `World.pool_clear`, `World.actor_clear`, `World.channel_clear` — what clearing does, part by part
* `World.next_of_clears` — whoever clears does nothing else
* `World.clearing_exact` — exactly the backlog is removed, counted, and told so
-/

namespace Troupe

variable {s t : Scene} {ms : List Mark} {a : ActorId} {p : PoolId}

/-! ### Pools that an actor has used -/

/-- No lane lists a pool twice. -/
def Scene.Distinct (s : Scene) : Prop := ∀ a, (s.lane a).pools.Nodup

theorem Deed.distinct (d : Deed ms s t) (h : s.Distinct) : t.Distinct := by
  intro a
  rcases d.used_cases with hsame | ⟨_, p, _, hpools⟩
  · rw [hsame]
    exact h a
  · rw [hpools, Lane.remember]
    split
    · exact h a
    · rename_i hnew
      refine List.nodup_append.mpr ⟨h a, List.nodup_singleton p, fun q hq r hr heq => hnew ?_⟩
      rwa [← List.mem_singleton.mp hr, ← heq]

theorem Scene.pool_cancels (owner : String) {ps : List PoolId} (hps : ps.Nodup) (s : Scene)
    (hp : p < s.pools.length) : (s.onPools (cancels owner ps)).pool p =
      if p ∈ ps then ((s.pool p).cancel owner).2 else s.pool p := by
  induction ps generalizing s with
  | nil => rfl
  | cons q ps ih =>
    obtain ⟨hq, hps⟩ := List.nodup_cons.mp hps
    have hrest := ih hps (s.onPool q (.cancel owner)) (by simpa [onPool] using hp)
    show ((s.onPool q (.cancel owner)).onPools (cancels owner ps)).pool p = _
    rw [hrest, pool_onPool]
    by_cases hpq : p = q
    · subst hpq
      rw [if_neg hq, if_pos ⟨rfl, hp⟩, if_pos List.mem_cons_self]
      rfl
    · simp [hpq]

namespace World

variable {w : World} {act : Act} {x : Commission} {j : JobId} {k : HandleId}
  {o : Except ActorError Json}

theorem distinct_run (acts : List Act) (a : ActorId) : ((run acts).actor a).pools.Nodup := by
  have := keep_run (fun _ d => d.distinct) [] acts (fun _ => List.nodup_nil) a
  rwa [lane_scene] at this

/-! ### What clearing does at once -/

theorem clear_frame (a : ActorId) (w : World) :
    ∃ pools notices, (w.clear a).2 = { (w.onActor a fun actor => { actor with
      mailbox := { (w.actor a).mailbox with
        queue := (w.actor a).mailbox.queue.filter (·.isRelay) } }).dropEnvelopes
          ((w.actor a).mailbox.queue.filter (!·.isRelay)) with pools, notices } := by
  obtain ⟨pools, notices, h⟩ := cancelJobsIn_frame _ _ _
  exact ⟨pools, _, congrArg (report _) h⟩

theorem loop_clear (a b : ActorId) (w : World) :
    ((w.clear a).2.actor b).loop = (w.actor b).loop := by
  obtain ⟨pools, notices, h⟩ := clear_frame a w
  rw [h]
  simp only [actor]
  rw [actors_dropEnvelopes, onActor, List.getElem?_modify]
  split <;> cases w.actors[b]? <;> rfl

theorem length_actors_clear (a : ActorId) (w : World) :
    (w.clear a).2.actors.length = w.actors.length := by
  obtain ⟨_, _, h⟩ := clear_frame a w
  rw [h]
  simp [actors_dropEnvelopes, onActor]

/-- The mailbox of a cleared actor keeps its relays. -/
theorem actor_clear (ha : a < w.actors.length) : (w.clear a).2.actor a = { w.actor a with
    mailbox := { (w.actor a).mailbox with
      queue := (w.actor a).mailbox.queue.filter (·.isRelay) } } := by
  obtain ⟨pools, notices, h⟩ := clear_frame a w
  rw [h]
  simp only [actor]
  rw [actors_dropEnvelopes]
  exact actor_onActor_self w ha

/-- Nothing but the dropped operations is told anything. -/
theorem channel_clear
    (hk : k ∉ ((w.actor a).mailbox.queue.filter (!·.isRelay)).map Envelope.handle) :
    (w.clear a).2.channel k = w.channel k := by
  obtain ⟨pools, notices, h⟩ := clear_frame a w
  rw [h]
  exact channel_dropEnvelopes hk

/-- Clearing an actor withdraws its jobs from the pools that it has used. -/
theorem pool_clear (hpools : (w.actor a).pools.Nodup)
    (hrooted : ∀ p ∈ (w.actor a).pools, p < w.pools.length) (p : PoolId) :
    (w.clear a).2.pool p = if p ∈ (w.actor a).pools then
      ((w.pool p).cancel (w.actor a).owner).2 else w.pool p := by
  rw [← pool_scene (w.clear a).2, scene_clear, Scene.onPools_settleAll, Scene.onPools_onLane,
    pool_onLane_settleAll, lane_scene]
  rcases Nat.lt_or_ge p w.scene.pools.length with hp | hp
  · rw [← pool_scene w]
    exact Scene.pool_cancels _ hpools _ hp
  · rw [if_neg fun hmem => Nat.not_lt_of_le hp (by simpa using hrooted p hmem), ← pool_scene w,
      Scene.pool_onPools_of_le _ _ hp]

theorem rooted_pools (acts : List Act) (a : ActorId) :
    ∀ p ∈ ((run acts).actor a).pools, p < (run acts).pools.length := by
  have := rooted_run acts a
  simp only [lane_scene, length_pools_scene] at this
  exact this

/-- What clearing an actor does to the world after a run. -/
structure Clearance (a : ActorId) (acts : List Act) : Prop where
  /-- The backlog consists of the ordered operations in the mailbox and the jobs that wait. -/
  places : ((backlog a acts).map (·.site)).Perm ((run acts).clearable a)
  /-- Each of them is counted once. -/
  count : ((run acts).clear a).1 = (backlog a acts).length
  /-- The relays stay in the mailbox, in their order, and nothing else changes of the actor. -/
  actor : ((run acts).clear a).2.actor a = { (run acts).actor a with
    mailbox := { ((run acts).actor a).mailbox with
      queue := ((run acts).actor a).mailbox.queue.filter (·.isRelay) } }
  /-- The jobs under the tag of the actor leave the queues of all pools. -/
  jobs : ∀ p, (((run acts).clear a).2.pool p).queue =
    ((run acts).pool p).queue.filter (·.owner ≠ some ((run acts).actor a).owner)
  /-- The workers go on. -/
  crew : ∀ p, (((run acts).clear a).2.pool p).crew = ((run acts).pool p).crew
  /-- Nothing happens to a handle of another operation. -/
  channel : ∀ h, .operation h ∉ (backlog a acts).map (·.site) →
    ((run acts).clear a).2.channel h = (run acts).channel h
  /-- Nothing happens to a handle of another job. -/
  job : ∀ p j, .job p j ∉ (backlog a acts).map (·.site) →
    (((run acts).clear a).2.pool p).channel j = ((run acts).pool p).channel j
  /-- Everybody else is spared. -/
  others : (run acts).Spares a ((run acts).clear a).2

/-- **Clearing an actor** removes its backlog and nothing else. -/
theorem clearance (acts : List Act) (ha : a < (run acts).actors.length)
    (hplain : ((run acts).actor a).owner ∉ jobOwners acts) : Clearance a acts := by
  have hs := sound_run acts
  have hpools := distinct_run acts a
  have hrooted := rooted_pools acts a
  have hperm := perm_clearable acts ha hplain hpools
  have hpool := pool_clear hpools hrooted
  have hspares := spares_clear hs (tagged_run acts).2 a
  have hjobs : ∀ p, (((run acts).clear a).2.pool p).queue =
      ((run acts).pool p).queue.filter (·.owner ≠ some ((run acts).actor a).owner) := by
    intro p
    rw [hpool]
    split
    · rename_i hp
      exact (reachable_pool hs (hrooted p hp)).queue_withdrawal _
    · rename_i hp
      refine (List.filter_eq_self.mpr fun job hjob => ?_).symm
      exact decide_eq_true fun howner => hp (used_of_job acts ha hplain hjob howner)
  refine ⟨hperm, ?_, actor_clear ha, hjobs, fun p => (hspares.pool p).crew, fun h hh => ?_,
    fun p j hj => ?_, hspares⟩
  · rw [clear_fst_eq hs ha hpools, ← hperm.length_eq, List.length_map]
  · refine channel_clear fun hmem => hh (hperm.mem_iff.mpr (operation_mem_clearable.mpr ?_))
    simpa [and_assoc] using hmem
  · rw [hpool]
    split
    · rename_i hp
      refine (reachable_pool hs (hrooted p hp)).channel_withdrawal fun hmem => ?_
      obtain ⟨job, hjob, rfl⟩ := List.mem_map.mp hmem
      obtain ⟨hjob, howner⟩ := List.mem_filter.mp hjob
      exact hj (hperm.mem_iff.mpr (job_mem_clearable.mpr
        ⟨hp, job, hjob, of_decide_eq_true howner, rfl⟩))
    · rfl

/-! ### The call, and what it returns -/

/-- An act hands out a number: a client is answered with it, or an operation goes on with it. -/
def Returns (w : World) (act : Act) (n : Nat) : Prop :=
  (∃ c, act = .call c ∧ (w.call c).1 = .count n) ∨
    ∃ m r c, act = .move m ∧ (w.next act).course? m = some (r, c) ∧ c.value = .ofNat n

/-- A course that touches no run loop stays where it is. -/
theorem spares_goesOn {w₁ : World} {m : Mover} {r : Runner} {c c' : Course}
    (hm : w.course? m = some (r, c)) (hstep : w.stepCourse r c = some (.goesOn c', w₁))
    (hlen : w₁.actors.length = w.actors.length)
    (hloop : ∀ b, (w₁.actor b).loop = (w.actor b).loop) :
    (w.next (.move m)).pools = w₁.pools ∧
      ∀ b, (w.next (.move m)).running? b = w.running? b := by
  rcases next_of_goesOn hm hstep with ⟨b, k, hin, hnext⟩ | ⟨t, old, new, _, hnext⟩
  · rw [hnext]
    refine ⟨rfl, fun d => ?_⟩
    rw [running?, running?, loop_release]
    by_cases hd : d = b
    · subst hd
      rw [loop_setLoop (hlen ▸ lt_of_inside hin), hin]
      rfl
    · rw [loop_setLoop_ne hd, hloop]
  · rw [hnext]
    refine ⟨rfl, fun d => ?_⟩
    rw [running?, running?, loop_release, ← hloop]
    rfl

/-- Whoever clears an actor does nothing else, and gets to know the number. -/
theorem next_of_clears (hs : w.scene.Sound) (h : w.Clears act a) :
    w.Returns act (w.clear a).1 ∧ w.Trails (w.clear a).2 (w.next act) ∧
      (w.next act).pools = (w.clear a).2.pools ∧ ∀ b, (w.next act).running? b = w.running? b := by
  obtain ⟨name, hname, rfl | ⟨m, rfl, haction⟩⟩ := h
  · have hcall : w.call (.clear name) = (.count (w.clear a).1, (w.clear a).2.release) := by
      simp [call, answer, hname, bind, Except.bind, pure, Except.pure]
    have hnext : w.next (.call (.clear name)) = (w.clear a).2.release := by rw [next, hcall]
    refine ⟨.inl ⟨_, rfl, by rw [hcall]⟩, ?_, ?_, fun b => ?_⟩
    · rw [hnext]
      exact .release w _
    · rw [hnext]
      rfl
    · rw [hnext, running?, running?, loop_release, loop_clear]
  · obtain ⟨r, c, hm, hc⟩ := course?_of_action? haction
    have hstep : w.stepCourse r c = some (.goesOn
        { c with rest := c.rest.tail, value := .ofNat (w.clear a).1 }, (w.clear a).2) := by
      simp only [stepCourse_of_action? hc, perform, hname, withNamed]
    obtain ⟨hpools, hrunning⟩ := spares_goesOn hm hstep (length_actors_clear a w)
      fun b => loop_clear a b w
    exact ⟨.inr ⟨m, r, _, rfl, course?_of_goesOn hs hm hstep, rfl⟩, trails_goesOn hm hstep, hpools,
      hrunning⟩

/-- Whoever is cleared by name is held, so only a close can have told it to stop. -/
theorem not_stopping_of_clears (hs : w.scene.Sound) (h : w.Clears act a)
    (hopen : (w.actor a).closed = false) : (w.actor a).stopping = false := by
  obtain ⟨name, hname, -⟩ := h
  have hletGo := hs.letGo a
  rw [lane_scene] at hletGo
  by_contra hstop
  exact hletGo (Bool.not_eq_false _ ▸ hstop) hopen (.inl (held_of_actorNamed hname))

/-- What has been cleared is lost. -/
theorem content_of_clears (hs : w.scene.Sound) (h : w.Clears act a) {e : Envelope}
    (he : e ∈ (w.actor a).mailbox.queue) (hrelay : e.isRelay = false) :
    (w.next act).scene.content e.handle = .lost := by
  have hempty := hs.content_of_handles (List.mem_append_right _ (handle_mem_waiting he))
  have hmem : e.handle ∈
      ((w.scene.lane a).queue.filter (!·.isRelay)).map Envelope.handle := by
    rw [lane_scene]
    exact List.mem_map_of_mem (List.mem_filter.mpr ⟨he, by simpa using hrelay⟩)
  rw [content_scene, (next_of_clears hs h).2.1.content, ← content_scene, scene_clear,
    Scene.onPools_eq]
  show (Scene.settleAll _ _ _).content e.handle = _
  rw [Scene.content_onLane_settleAll, Scene.content_settleAll, if_pos hmem, hempty]
  rfl

/-- The jobs that have been withdrawn are lost. -/
theorem job_of_clears (acts : List Act) (h : (run acts).Clears act a)
    (hmem : .job p j ∈ (run acts).clearable a) :
    ((run (acts ++ [act])).pool p).content j = .lost := by
  have hs := sound_run acts
  obtain ⟨hp, job, hjob, howner, rfl⟩ := job_mem_clearable.mp hmem
  have hpool : ((run acts).next act).pool p = ((run acts).clear a).2.pool p := by
    rw [World.pool, World.pool, (next_of_clears hs h).2.2.1]
  rw [run_concat, hpool, pool_clear (distinct_run acts a) (rooted_pools acts a), if_pos hp]
  exact (reachable_pool hs (rooted_pools acts a p hp)).content_withdrawal hjob howner

/-! ### What becomes of everything afterwards -/

/-- **With the act** that clears an actor nothing else happens. -/
structure Cleared (a : ActorId) (before : List Act) (act : Act) : Prop where
  /-- The number of what has been removed is handed out. -/
  returns : (run before).Returns act (backlog a before).length
  /-- Mailboxes, handles and tasks are as they are when the actor is cleared, -/
  trails : (run before).Trails ((run before).clear a).2 (run (before ++ [act]))
  /-- and so are pools. -/
  pools : (run (before ++ [act])).pools = ((run before).clear a).2.pools
  /-- Every run loop stays inside of the envelope that it is inside of. -/
  running : ∀ b, (run (before ++ [act])).running? b = (run before).running? b
  /-- What has been offloaded is not resolved yet. -/
  pending : ∀ x ∈ backlog a before, x.IsOffloaded →
    (run (before ++ [act])).outcome? x.handle = none
  /-- There is nothing left to clear. -/
  again : ∀ act', (run (before ++ [act])).Clears act' a → (run (before ++ [act])).Returns act' 0

/-- **What becomes of everything** after an actor has been cleared. -/
structure Aftermath (a : ActorId) (before : List Act) (act : Act) (acts : List Act) : Prop where
  /-- What has been removed is never run. -/
  never : ∀ x ∈ backlog a before, history x.site acts = []
  /-- Ordered operations were discarded. -/
  discarded : ∀ x ∈ backlog a before, x.route = .ordered →
    (run acts).outcome? x.handle = some (.error .discarded)
  /-- Offloaded operations were cancelled, which they show when the run loop comes to their relays,
  unless it comes to an end before. -/
  cancelled : ∀ x ∈ backlog a before, x.IsOffloaded → ∀ act' o,
    (run acts).Resolves act' x.handle o → o = .error .cancelled ∨
      o = .error .discarded ∧ ((run (acts ++ [act'])).actor a).stopping = true
  /-- Where nothing moves any more, such a relay is behind an envelope that is not done. -/
  due : ∀ x ∈ backlog a before, x.IsOffloaded → (run acts).isQuiet = true →
    (run acts).outcome? x.handle = none → ∃ i, ((run acts).actor a).loop = .inside i ∧
      i.handle < x.handle ∧ (run acts).Detained a i
  /-- The ordered operation that was running has its own outcome, unless it is aborted. -/
  current : ∀ x ∈ commissions before, x.actor = a → x.answer = none → x.route = .ordered →
    (run before).running? a = some x.handle → ∀ act' o, (run acts).Resolves act' x.handle o →
      x.Own (acts ++ [act']) o ∨ o = .error .discarded ∧ (run acts).Aborts act' a
  /-- So have the offloaded operations whose jobs had been begun with, unless the actor is to
  stop. -/
  begun : ∀ x ∈ commissions before, x.actor = a → x.answer = none → ∀ p j,
    x.route = .offloaded p j →
    j ∈ ((run before).pool p).runningIds ∨ history (.job p j) before ≠ [] → ∀ act' o,
    (run acts).Resolves act' x.handle o → x.Own acts o ∨
      ((run (acts ++ [act'])).actor a).stopping = true ∧
        (o = .error .discarded ∨ o = .error (.closed ((run acts).actor a).name))
  /-- When the run loop is inside of something that was sent later, all that had waited is done. -/
  behind : ∀ k, (run acts).running? a = some k →
    (run (before ++ [act])).channels.length ≤ k → ∀ h ∈ (run before).queued a,
      (run acts).outcome? h ≠ none

/-- The job of an offloaded operation in a backlog waits. -/
theorem queued_of_backlog {acts : List Act} (hx : x ∈ backlog a acts)
    (hroute : x.route = .offloaded p j) :
    x.answer = none ∧ j ∈ ((run acts).pool p).queuedIds := by
  obtain ⟨hmem, -, hpends⟩ := mem_backlog.mp hx
  rcases cases_of_pends acts hmem hpends with ⟨hordered, _⟩ | ⟨q, i, hoff, hanswer, _, hqueued⟩
  · rw [hordered] at hroute
    cases hroute
  · obtain ⟨rfl, rfl⟩ := Route.offloaded.inj (hoff.symm.trans hroute)
    exact ⟨hanswer, hqueued⟩

/-- There is nothing left to clear. -/
theorem clear_fst_of_clears (before : List Act) (ha : a < (run before).actors.length)
    (hclear : Clearance a before) (h : (run before).Clears act a) :
    ((run (before ++ [act])).clear a).1 = 0 := by
  have hs := sound_run before
  obtain ⟨-, htrails, hpools, -⟩ := next_of_clears hs h
  rw [← run_concat] at htrails hpools
  have ha' : a < (run (before ++ [act])).actors.length := by
    simpa using Nat.lt_of_lt_of_le ha (by simpa using (grows_run before [act]).lanes)
  have howner := owner_next hs ha act
  rw [← run_concat] at howner
  rw [clear_fst ha', htrails.mailbox, hclear.actor, howner,
    cancelJobsIn_fst (sound_run _) (rooted_pools _ a), List.filter_filter]
  · simp
  · intro p _ job hjob
    rw [World.pool, hpools, ← World.pool, hclear.jobs] at hjob
    simpa using (List.mem_filter.mp hjob).2

/-- The handles of the relays of withdrawn jobs are unresolved. -/
theorem unresolved_of_backlog (before : List Act) (h : (run before).Clears act a)
    (hx : x ∈ backlog a before) (hroute : x.route = .offloaded p j) :
    (run (before ++ [act])).scene.content x.handle = .empty := by
  have hs := sound_run before
  obtain ⟨hmem, rfl, -⟩ := mem_backlog.mp hx
  obtain ⟨hanswer, hqueued⟩ := queued_of_backlog hx hroute
  have hesc := escorted_run before x.toSending (mem_sendings hmem) hanswer p j hroute
  have hescort := hesc.escort
  have hwithdrawn := hesc.withdrawn
  rw [lane_scene, pool_scene] at hescort hwithdrawn
  have hopen : ((run before).actor x.actor).closed = false := by
    by_contra hclosed
    exact hwithdrawn (Bool.not_eq_false _ ▸ hclosed) hqueued
  have hstop := not_stopping_of_clears hs h hopen
  have hrelays := (hescort hqueued).resolve_right fun hstopping => by
    cases hstop.symm.trans hstopping
  have hempty := hs.content_of_handles (a := x.actor) (lane_scene _ _ ▸ hrelays.mem_handles)
  rw [run_concat, content_scene, (next_of_clears hs h).2.1.content, channel_clear, ← content_scene,
    hempty]
  intro hcleared
  obtain ⟨e, he, heq⟩ := List.mem_map.mp hcleared
  obtain ⟨he, hrelay⟩ := List.mem_filter.mp he
  exact handle_ne_of_relays hs hrelays he (by simpa using hrelay) heq

/-- The jobs of the offloaded ones are lost for good. -/
theorem lost_of_offloaded (before later : List Act) (h : (run before).Clears act a)
    (hplaces : ((backlog a before).map (·.site)).Perm ((run before).clearable a))
    (hx : x ∈ backlog a before) (hroute : x.route = .offloaded p j) :
    ((run (before ++ act :: later)).pool p).content j = .lost := by
  obtain ⟨hanswer, _⟩ := queued_of_backlog hx hroute
  have hsite : x.site = .job p j := by rw [Commission.site, hroute, hanswer]
  have hlost := job_of_clears before h
    (hplaces.mem_iff.mp (hsite ▸ List.mem_map_of_mem (f := fun x : Commission => x.site) hx))
  have hmem := (record_isPrefix _ before [act]).subset (mem_backlog.mp hx).1
  rw [List.append_cons, content_job_run _ later hmem hanswer hroute (by rw [hlost]; simp), hlost]

/-- The ordered operations of a backlog are lost, -/
theorem lost_of_ordered (before later : List Act) (h : (run before).Clears act a)
    (hx : x ∈ backlog a before) (hroute : x.route = .ordered) :
    (run (before ++ act :: later)).scene.content x.handle = .lost := by
  obtain ⟨hmem, rfl, hpends⟩ := mem_backlog.mp hx
  rcases cases_of_pends before hmem hpends with ⟨_, _, hqueue⟩ | ⟨p, j, hoff, _⟩
  · exact lost_of_waiting before later hqueue (content_of_clears (sound_run before) h hqueue rfl)
  · cases hroute.symm.trans hoff

/-- and never run. -/
theorem never_of_ordered (before later : List Act) (h : (run before).Clears act a)
    (hx : x ∈ backlog a before) (hroute : x.route = .ordered) :
    history x.site (before ++ act :: later) = [] := by
  obtain ⟨hmem, rfl, hpends⟩ := mem_backlog.mp hx
  rcases cases_of_pends before hmem hpends with ⟨_, hsite, hqueue⟩ | ⟨p, j, hoff, _⟩
  · exact never_of_lost before later hmem hsite hqueue (lost_of_ordered before [] h hx hroute)
  · cases hroute.symm.trans hoff

/-- What is sent after everything that waits for an actor is started after it. -/
theorem resolved_of_later (before later : List Act) {k h : HandleId}
    (hk : (run (before ++ later)).running? a = some k) (hnew : (run before).channels.length ≤ k)
    (hh : h ∈ (run before).queued a) : (run (before ++ later)).outcome? h ≠ none := by
  have haccepted : h ∈ accepted a before :=
    (log_run a before).order.subset (List.mem_append_right _ hh)
  have hlt := Nat.lt_of_lt_of_le ((log_run a before).made h haccepted) hnew
  intro hnone
  have hlater : h ∈ accepted a (before ++ later) :=
    (accepted_isPrefix a before later).subset haccepted
  rcases (log_run a (before ++ later)).pending hlater (outcome?_eq_none_iff.mp hnone) with
    hrun | hqueue
  · rw [hk] at hrun
    exact absurd (Option.some.inj hrun) (Nat.ne_of_gt hlt)
  · obtain ⟨i, hloop, rfl⟩ := running?_eq_some.mp hk
    exact Nat.lt_asymm hlt (lt_of_waiting (sound_run _) hloop hqueue)

/-- **What clearing does**, at once and in the end. -/
theorem clearing_exact (before : List Act) (a : ActorId) (ha : a < (run before).actors.length)
    (hplain : ((run before).actor a).owner ∉ jobOwners before) :
    Clearance a before ∧ ∀ act, (run before).Clears act a → Cleared a before act ∧
      ∀ later, Aftermath a before act (before ++ act :: later) := by
  have hs := sound_run before
  have hclear := clearance before ha hplain
  refine ⟨hclear, fun act h => ⟨?_, fun later => ?_⟩⟩
  · obtain ⟨hreturns, htrails, hpools, hrunning⟩ := next_of_clears hs h
    rw [hclear.count] at hreturns
    rw [← run_concat] at htrails hpools hrunning
    refine ⟨hreturns, htrails, hpools, hrunning, ?_, fun act' h' => ?_⟩
    · rintro x hx ⟨p, j, hroute⟩
      exact outcome?_eq_none_iff.mpr (unresolved_of_backlog before h hx hroute)
    · rw [← clear_fst_of_clears before ha hclear h]
      exact (next_of_clears (sound_run _) h').1
  · have hmem : ∀ {x}, x ∈ commissions before → x ∈ commissions (before ++ act :: later) :=
      fun hx => (record_isPrefix _ before (act :: later)).subset hx
    have hlost : ∀ {x p j}, x ∈ backlog a before → x.route = .offloaded p j →
        x ∈ commissions (before ++ act :: later) ∧ x.actor = a ∧ x.answer = none ∧
          ((run (before ++ act :: later)).pool p).content j = .lost := fun hx hroute =>
      ⟨hmem (mem_backlog.mp hx).1, (mem_backlog.mp hx).2.1, (queued_of_backlog hx hroute).1,
        lost_of_offloaded before later h hclear.places hx hroute⟩
    refine ⟨fun x hx => ?_, fun x hx hroute => ?_, ?_, ?_, ?_, ?_, ?_⟩
    · rcases cases_of_pends before (mem_backlog.mp hx).1 (mem_backlog.mp hx).2.2 with
        ⟨hroute, _⟩ | ⟨p, j, hroute, hanswer, hsite, _⟩
      · exact never_of_ordered before later h hx hroute
      · have hnever := history_of_withheld (hmem (mem_backlog.mp hx).1) hanswer hroute
          (.inl (hlost hx hroute).2.2.2) []
        rwa [List.append_nil, ← hsite] at hnever
    · exact outcome?_of_lost (lost_of_ordered before later h hx hroute)
    · rintro x hx ⟨p, j, hroute⟩ act' o hres
      obtain ⟨hin, rfl, hanswer, hlost⟩ := hlost hx hroute
      exact cancelled_of_withdrawn _ hin hanswer hroute hlost hres
    · rintro x hx ⟨p, j, hroute⟩ hquiet hnone
      obtain ⟨hin, rfl, hanswer, hlost⟩ := hlost hx hroute
      exact behind_of_withdrawn _ hin hanswer hroute hlost hquiet hnone
    · rintro x hx rfl hanswer hroute hrun act' o hres
      exact own_or_aborted _ (hmem hx) hroute hanswer
        (running_run before (act :: later) hrun hres.contents.1) hres
    · rintro x hx rfl hanswer p j hroute hstarted act' o hres
      have hbegun := begun_of_started before hx hanswer hroute hstarted
      exact own_of_begun _ (hmem hx) hanswer hroute
        (begun_run before (act :: later) hx hanswer hroute hbegun) hres
    · intro k hk hnew h' hh
      have hmade := (grows_run before [act]).contents
      rw [length_contents_scene, length_contents_scene] at hmade
      exact resolved_of_later before (act :: later) hk (hmade.trans hnew) hh

/-- An operation runs. Behind it wait the relay of a job that runs, another operation, and the relay
of a job that waits. -/
def mixedRun : List Act :=
  [.call (.createActor "a" "n" "log" {}), .call (.createPool "p" "crew" 1),
    .call (.send (.operation .ordered "a" [.effect (.gate "g")] .value (.watched "u"))),
    .move (.runLoop 0), .move (.runLoop 0),
    .call (.send (.offload "a" "p" false [.gate "k", .push "side"] .value (.watched "v"))),
    .call (.send (.operation .ordered "a" [.effect (.push "main")] .value (.watched "x"))),
    .call (.send (.offload "a" "p" false [.push "second"] .value (.watched "y"))),
    .move (.worker 0 0)]

/-- Later the gates are opened. -/
def mixedLater : List Act :=
  [.call (.openGate "g"), .call (.openGate "k"), .move (.runLoop 0), .move (.runLoop 0),
    .move (.runLoop 0), .move (.worker 0 0), .move (.worker 0 0), .move (.worker 0 0),
    .move (.runLoop 0), .move (.runLoop 0), .move (.runLoop 0)]

/-- Two operations are removed. The two relays stay, and the second one shows in the end that its
job was withdrawn. -/
theorem clearing_exact_mixedRun :
    let act : Act := .call (.clear "a")
    let acts := mixedRun ++ act :: mixedLater
    (0 < (run mixedRun).actors.length ∧ ((run mixedRun).actor 0).owner ∉ jobOwners mixedRun) ∧
    (run mixedRun).Clears act 0 ∧ Clearance 0 mixedRun ∧ Cleared 0 mixedRun act ∧
    Aftermath 0 mixedRun act acts ∧ (backlog 0 mixedRun).map (·.handle) = [2, 3] ∧
    (run (mixedRun ++ [act])).queued 0 = [1, 3] ∧
    (run acts).outcome? 2 = some (.error .discarded) ∧
    (run acts).outcome? 3 = some (.error .cancelled) := by
  have hlt : 0 < (run mixedRun).actors.length := by decide +kernel
  have hplain : ((run mixedRun).actor 0).owner ∉ jobOwners mixedRun := by decide +kernel
  have hclears : (run mixedRun).Clears (.call (.clear "a")) 0 := ⟨"a", rfl, .inl rfl⟩
  obtain ⟨hclearance, hafter⟩ := clearing_exact mixedRun 0 hlt hplain
  obtain ⟨hcleared, haftermath⟩ := hafter _ hclears
  refine ⟨⟨hlt, hplain⟩, hclears, hclearance, hcleared, haftermath mixedLater, ?_, ?_, ?_, ?_⟩
  · decide +kernel
  · decide +kernel
  · decide +kernel
  · decide +kernel

end World

end Troupe
