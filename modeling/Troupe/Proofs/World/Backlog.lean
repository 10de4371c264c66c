import Troupe.Proofs.World.Finality

/-!
# Backlogs

The backlog of an actor is what was sent to it and has not been begun with, apart from operations
past its mailbox, which begin at once. It is defined by what was sent, while clearing looks for it
in the mailbox and in the queues of pools. That both are the same has two directions. Whatever waits
in these places was sent: an envelope was accepted, and a job under the tag of the actor comes from
an offloaded operation of this actor, if nobody else uses the tag. And the pools in which its jobs
wait are among those that the actor has used.

## Main definitions

* `World.pends`, `World.backlog` — what has not been begun with
* `World.clearable` — where clearing looks for it

## Main results

* `World.commission_of_job`, `World.commission_of_waiting` — what waits was sent
* `World.clear_fst_eq` — clearing counts what it finds
* `World.perm_clearable` — it finds the backlog
-/

namespace Troupe

variable {s t : Scene} {ms : List Mark} {a : ActorId} {p : PoolId}

/-! ### Where waiting jobs come from -/

/-- A deed puts a job into a queue only by submitting it. -/
theorem Deed.queue_cases (d : Deed ms s t) {job : Job Work} (hjob : job ∈ (t.pool p).queue) :
    job ∈ (s.pool p).queue ∨ (s.pool p).channels.length ≤ job.id ∧
      ∀ owner, job.owner = some owner → .submitted p owner ∈ ms := by
  rcases Nat.lt_or_ge p s.pools.length with hp | hp
  · rcases d.pool_cases hp with hsame | ⟨e, hpool, hmarks⟩
    · exact .inl (hsame ▸ hjob)
    · rw [hpool] at hjob
      refine (Pool.mem_queue_of_apply hjob).imp_right fun ⟨hid, urgent, he⟩ =>
        ⟨Nat.le_of_eq hid.symm, fun owner howner => hmarks _ ?_⟩
      rw [he, howner]
      exact List.mem_singleton_self _
  · -- A pool that is not there yet has no queue afterwards.
    exfalso
    rcases d.pools_cases with hsame | ⟨q, e, rfl, _⟩ | ⟨q, hempty, hpools⟩
    · rw [Scene.pool, hsame, List.getElem?_eq_none hp] at hjob
      cases hjob
    · rw [Scene.pool, List.getElem?_eq_none (by simpa [Scene.onPool] using hp)] at hjob
      cases hjob
    · rw [Scene.pool, hpools, List.getElem?_append_right hp] at hjob
      cases hget : [q][p - s.pools.length]? with
      | none =>
        rw [hget] at hjob
        cases hjob
      | some q' =>
        obtain rfl := List.mem_singleton.mp (List.mem_of_getElem? hget)
        rw [hget, Option.getD_some, hempty] at hjob
        cases hjob

theorem Deed.length_channels (d : Deed ms s t) (p : PoolId) :
    (s.pool p).channels.length ≤ (t.pool p).channels.length := by
  rcases Nat.lt_or_ge p s.pools.length with hp | hp
  · exact (d.mem_queue hp).1
  · rw [Scene.pool, List.getElem?_eq_none hp]
    exact Nat.zero_le _

theorem Deeds.queue_cases (d : Deeds ms s t) {job : Job Work} (hjob : job ∈ (t.pool p).queue) :
    job ∈ (s.pool p).queue ∨ (s.pool p).channels.length ≤ job.id ∧
      ∀ owner, job.owner = some owner → .submitted p owner ∈ ms := by
  induction d with
  | refl s => exact .inl hjob
  | cons d _ ih =>
    rcases ih hjob with hold | ⟨hid, hmarks⟩
    · exact (d.queue_cases hold).imp_right fun ⟨hid, hmarks⟩ =>
        ⟨hid, fun owner howner => List.mem_append_left _ (hmarks owner howner)⟩
    · exact .inr ⟨Nat.le_trans (d.length_channels p) hid, fun owner howner =>
        List.mem_append_right _ (hmarks owner howner)⟩

namespace World

variable {w : World} {act : Act} {x : Commission} {j : JobId}

/-- What an act does if it submits a job on behalf of an owner: it does so for a client, or it
offloads an operation. -/
theorem commission_of_submitted (hs : w.scene.Sound) {ms ns : List Mark} {owner : String}
    (d : Deeds (ms ++ ns) w.scene (w.next act).scene) (hms : w.Explains act ms)
    (hns : w.Follows act ns) (hm : .submitted p owner ∈ ms ++ ns) :
    w.jobOwner? act = some owner ∨ ∃ x, w.commission act = some x ∧ x.answer = none ∧
      x.route = .offloaded p (w.pool p).channels.length ∧ (w.actor x.actor).owner = owner := by
  replace hm : .submitted p owner ∈ ms :=
    (List.mem_append.mp hm).resolve_right (hns.not_mem (by simp))
  cases hms with
  | submits _ howner =>
    obtain ⟨rfl, rfl⟩ := Mark.submitted.inj (List.mem_singleton.mp hm)
    exact .inl howner
  | @sends b h r _ ht hms =>
    cases hms with
    | refused => simp at hm
    | past _ _ => cases hm
    | @admitted e he hr _ =>
      obtain hadmitted | ⟨h', q, j, rfl, hsubmitted⟩ := Mark.mem_ofAdmission.mp hm
      · cases hadmitted
      obtain ⟨rfl, rfl⟩ := Mark.submitted.inj hsubmitted
      have hqueue := hns.queue_eq d b
      rw [onQueue_ofAdmission, if_pos rfl] at hqueue
      have hempty : (w.next act).scene.content h = .empty := by
        refine (sound_next hs act).content_of_handles (a := b) (List.mem_append_right _ ?_)
        rw [Lane.waiting, hqueue, ← he]
        simp
      have hx : w.commission act = some
          ⟨⟨b, h, r, (w.next act).outcome? h⟩, (w.order act).1, (w.order act).2⟩ := by
        simp [commission, sending, ht]
      have hanswer := outcome?_eq_none_iff.mpr hempty
      refine .inr ⟨_, hx, hanswer, ?_, congrArg Lane.owner (lane_scene w b).symm⟩
      exact hr.symm.trans (congrArg _ (workplace_sent hs hx hr.symm hanswer).2)
  | closes _ hms =>
    obtain ⟨_, _, hc⟩ := hms _ hm
    cases hc
  | enters _ _ _ _ _ | quits _ _ _ _ | clears _ _ | fails _ => simp at hm
  | @takes _ r _ _ _ =>
    have htake := List.mem_singleton.mp hm
    cases r <;> cases htake

theorem lt_of_queue {job : Job Work} (h : job ∈ (w.pool p).queue) : p < w.pools.length := by
  by_contra hge
  rw [pool_of_le (Nat.le_of_not_lt hge)] at h
  cases h

theorem owner_next (hs : w.scene.Sound) (ha : a < w.actors.length) (act : Act) :
    ((w.next act).actor a).owner = (w.actor a).owner := by
  obtain ⟨ms, d, _⟩ := fits_next hs act
  have hlane := (Scene.Grows.of_deeds d).lane a (by rwa [length_lanes_scene])
  rw [lane_scene, lane_scene] at hlane
  exact hlane.owner

/-- **Where waiting jobs come from.** A job that waits on behalf of an owner was submitted by a
client, or it is that of an operation that an actor with this tag has offloaded. -/
theorem provenance_run (acts : List Act) : ∀ p, ∀ job ∈ ((run acts).pool p).queue, ∀ owner,
    job.owner = some owner → owner ∈ jobOwners acts ∨ ∃ x ∈ commissions acts, x.answer = none ∧
      x.route = .offloaded p job.id ∧ ((run acts).actor x.actor).owner = owner := by
  induction acts using List.reverseRecOn with
  | nil =>
    intro p job hjob
    cases hjob
  | append_singleton acts act ih =>
    intro p job hjob owner howner
    have hs := sound_run acts
    obtain ⟨ms, ns, d, hms, hns⟩ := deeds_next hs act
    rw [run_concat, ← pool_scene] at hjob
    rw [run_concat, jobOwners_concat, commissions_concat]
    rcases d.queue_cases hjob with hold | ⟨hid, hmarks⟩
    · rw [pool_scene] at hold
      refine (ih p job hold owner howner).imp (List.mem_append_left _) ?_
      rintro ⟨x, hx, hanswer, hroute, hactor⟩
      have hlt := (ledger_run acts).there x.toSending (mem_sendings hx) (by simp [hroute])
      exact ⟨x, List.mem_append_left _ hx, hanswer, hroute, (owner_next hs hlt act).trans hactor⟩
    · rcases commission_of_submitted hs d hms hns (hmarks owner howner) with
        hclient | ⟨x, hx, hanswer, hroute, hactor⟩
      · exact .inl (List.mem_append_right _ (by simp [hclient]))
      · have hlt := (sending_next hs (sending_of_commission hx).1 (by simp [hroute])).1
        refine .inr ⟨x, List.mem_append_right _ (by simp [hx]), hanswer, ?_,
          (owner_next hs hlt act).trans hactor⟩
        obtain ⟨_, _, _, _, _, _, hqueue, _⟩ := submitted_of_commission hs hx hroute hanswer
        rw [pool_scene, hqueue] at hjob
        rw [pool_scene] at hid
        rcases Pool.mem_queue_submit_iff.mp hjob with hold | ⟨_, rfl⟩
        · have hr := reachable_pool hs (lt_of_queue hold)
          exact absurd (hr.lt_of_queued (Pool.mem_queuedIds.mpr ⟨job, hold, rfl⟩))
            (Nat.not_lt_of_le hid)
        · exact hroute

/-- A job that waits under the tag of an actor is that of an operation of the actor, if nobody else
submits under the tag. -/
theorem commission_of_job (acts : List Act) (ha : a < (run acts).actors.length)
    (hplain : ((run acts).actor a).owner ∉ jobOwners acts) {job : Job Work}
    (hjob : job ∈ ((run acts).pool p).queue)
    (howner : job.owner = some ((run acts).actor a).owner) :
    ∃ x ∈ commissions acts, x.actor = a ∧ x.answer = none ∧ x.route = .offloaded p job.id := by
  obtain ⟨x, hx, hanswer, hroute, hactor⟩ :=
    (provenance_run acts p job hjob _ howner).resolve_left hplain
  have hlt := (ledger_run acts).there x.toSending (mem_sendings hx) (by simp [hroute])
  refine ⟨x, hx, ?_, hanswer, hroute⟩
  by_contra hne
  exact owner_run acts hlt ha hne hactor

/-- So the pool is one that the actor has used. -/
theorem used_of_job (acts : List Act) (ha : a < (run acts).actors.length)
    (hplain : ((run acts).actor a).owner ∉ jobOwners acts) {job : Job Work}
    (hjob : job ∈ ((run acts).pool p).queue)
    (howner : job.owner = some ((run acts).actor a).owner) :
    p ∈ ((run acts).actor a).pools := by
  obtain ⟨x, hx, rfl, hanswer, hroute⟩ := commission_of_job acts ha hplain hjob howner
  have := (escorted_run acts x.toSending (mem_sendings hx) hanswer p job.id hroute).used
  rwa [lane_scene] at this

/-! ### The backlog of an actor -/

/-- Whether nothing has been begun with of an operation that was accepted: it waits in the mailbox
of its actor, or its job waits in a pool. -/
def pends (w : World) (x : Commission) : Bool :=
  match x.site with
  | .operation h => decide (h ∈ w.queued x.actor)
  | .job p j => decide (j ∈ (w.pool p).queuedIds)

/-- What was sent to an actor and has not been begun with. -/
def backlog (a : ActorId) (acts : List Act) : List Commission :=
  (commissions acts).filter fun x => x.actor == a && (run acts).pends x

theorem mem_backlog {acts : List Act} :
    x ∈ backlog a acts ↔ x ∈ commissions acts ∧ x.actor = a ∧ (run acts).pends x = true := by
  simp [backlog]

/-- What pends is an ordered operation in the mailbox, or a job in a pool. -/
theorem cases_of_pends (acts : List Act) (hx : x ∈ commissions acts)
    (hpends : (run acts).pends x = true) :
    (x.route = .ordered ∧ x.site = .operation x.handle ∧
      .operation x.handle x.body x.kind ∈ ((run acts).actor x.actor).mailbox.queue) ∨
    ∃ p j, x.route = .offloaded p j ∧ x.answer = none ∧ x.site = .job p j ∧
      j ∈ ((run acts).pool p).queuedIds := by
  have hs := sound_run acts
  rcases x.site_cases with hsite | ⟨p, j, hroute, hanswer, hsite⟩
  · have hqueued : x.handle ∈ (run acts).queued x.actor := by simpa [pends, hsite] using hpends
    obtain ⟨e, he, hk⟩ := List.mem_map.mp hqueued
    obtain ⟨place, hplace⟩ := List.mem_iff_getElem?.mp he
    have hcompletes : (run acts).Completes x.handle (.queued x.actor place) := .queued hplace hk
    have hempty := hs.content_of_handles hcompletes.mem_of_queued
    have unique : ∀ {c}, (run acts).Completes x.handle c → c = .queued x.actor place := fun h =>
      h.unique hs hcompletes
    have hplace := whereabouts_run acts x hx hsite
    generalize history (.operation x.handle) acts = ds at hplace
    cases hplace with
    | waits hroute hmem => exact .inl ⟨hroute, hsite, hmem⟩
    | @runs m r _ c _ hm _ _ =>
      cases m with
      | runLoop b => cases unique (.inside (loop_of_operation? hm).2 rfl)
      | task t =>
        obtain ⟨b, _, ht⟩ := task?_of_operation? hm
        cases unique (.task ht rfl)
      | worker _ _ | grace _ => cases hm
    | resolved _ hne _ _ => exact absurd hempty hne
  · exact .inr ⟨p, j, hroute, hanswer, hsite, by simpa [pends, hsite] using hpends⟩

/-- An ordered operation that waits is not in the place of a relay. -/
theorem handle_ne_of_relays (hs : w.scene.Sound) {h : HandleId}
    (hr : (w.actor a).lane.Relays h p j) {e : Envelope} (he : e ∈ (w.actor a).mailbox.queue)
    (hrelay : e.isRelay = false) : e.handle ≠ h := by
  rintro rfl
  obtain ⟨place, hplace⟩ := List.mem_iff_getElem?.mp he
  rcases hr with hinside | hqueue
  · cases (Completes.queued hplace rfl).unique hs (.inside hinside rfl)
  · have heq := eq_of_waiting hs he hqueue rfl
    rw [heq] at hrelay
    cases hrelay

/-- An ordered operation that waits was sent to its actor. -/
theorem commission_of_waiting (acts : List Act) {e : Envelope}
    (he : e ∈ ((run acts).actor a).mailbox.queue) (hrelay : e.isRelay = false) :
    ∃ x ∈ commissions acts, x.actor = a ∧ x.handle = e.handle ∧ x.site = .operation x.handle := by
  have hs := sound_run acts
  have haccepted : e.handle ∈ accepted a acts :=
    (log_run a acts).order.subset (List.mem_append_right _ (List.mem_map_of_mem he))
  obtain ⟨z, hz, hk⟩ := List.mem_map.mp haccepted
  obtain ⟨hz, hjoins⟩ := List.mem_filter.mp hz
  rw [← map_commissions] at hz
  obtain ⟨x, hx, rfl⟩ := List.mem_map.mp hz
  simp only [Sending.joins, Bool.and_eq_true, beq_iff_eq, Option.isNone_iff_eq_none] at hjoins
  obtain ⟨⟨rfl, _⟩, hanswer⟩ := hjoins
  refine ⟨x, hx, rfl, hk, ?_⟩
  rcases x.site_cases with hsite | ⟨p, j, hroute, _, _⟩
  · exact hsite
  · -- The handle of an offloaded operation is that of its relay.
    exfalso
    have hesc := escorted_run acts x.toSending (mem_sendings hx) hanswer p j hroute
    have hplaced := hesc.placed (hs.content_of_handles (a := x.actor)
      (List.mem_append_right _ (hk ▸ handle_mem_waiting he)))
    rw [lane_scene] at hplaced
    exact handle_ne_of_relays hs hplaced he hrelay hk.symm

/-- The places of the operations that clearing an actor removes. -/
def clearable (w : World) (a : ActorId) : List HandleRef :=
  ((w.actor a).mailbox.queue.filter (!·.isRelay)).map (.operation ·.handle) ++
    (w.actor a).pools.flatMap fun p =>
      ((w.pool p).queue.filter (·.owner = some (w.actor a).owner)).map (.job p ·.id)

theorem operation_mem_clearable {h : HandleId} : .operation h ∈ w.clearable a ↔
    ∃ e ∈ (w.actor a).mailbox.queue, e.isRelay = false ∧ e.handle = h := by
  simp [clearable, and_assoc]

theorem job_mem_clearable : .job p j ∈ w.clearable a ↔ p ∈ (w.actor a).pools ∧
    ∃ job ∈ (w.pool p).queue, job.owner = some (w.actor a).owner ∧ job.id = j := by
  simp [clearable, and_assoc]

theorem nodup_queuedIds (hs : w.scene.Sound) (p : PoolId) : (w.pool p).queuedIds.Nodup := by
  rcases Nat.lt_or_ge p w.pools.length with hp | hp
  · exact (reachable_pool hs hp).nodup
  · rw [pool_of_le hp]
    exact List.nodup_nil

theorem nodup_clearable (hs : w.scene.Sound) (hpools : (w.actor a).pools.Nodup) :
    (w.clearable a).Nodup := by
  have hmap : ∀ {α : Type} {l : List α} {f : α → Nat} {g : Nat → HandleRef}, Function.Injective g →
      (l.map f).Nodup → (l.map fun x => g (f x)).Nodup := by
    intro α l f g hg h
    have := h.map hg
    rwa [List.map_map] at this
  refine List.nodup_append.mpr ⟨?_, List.nodup_flatMap.mpr ⟨fun p _ => ?_, ?_⟩, ?_⟩
  · exact hmap (fun _ _ h => HandleRef.operation.inj h)
      ((nodup_queued hs a).sublist (List.filter_sublist.map _))
  · exact hmap (fun _ _ h => (HandleRef.job.inj h).2)
      ((nodup_queuedIds hs p).sublist (List.filter_sublist.map _))
  · refine hpools.imp fun {p q} hne r hp hq => ?_
    obtain ⟨_, _, rfl⟩ := List.mem_map.mp hp
    obtain ⟨_, _, heq⟩ := List.mem_map.mp hq
    exact hne (HandleRef.job.inj heq).1.symm
  · rintro r hr _ hr' rfl
    obtain ⟨_, _, rfl⟩ := List.mem_map.mp hr
    obtain ⟨_, _, hr'⟩ := List.mem_flatMap.mp hr'
    obtain ⟨_, _, heq⟩ := List.mem_map.mp hr'
    cases heq

theorem cancelJobsIn_eq (hs : w.scene.Sound) (owner : String) {ps : List PoolId} (hps : ps.Nodup) :
    (w.cancelJobsIn owner ps).1 =
      (ps.flatMap fun p => (w.pool p).queue.filter (·.owner = some owner)).length := by
  induction ps generalizing w with
  | nil => rfl
  | cons p ps ih =>
    obtain ⟨hp, hps⟩ := List.nodup_cons.mp hps
    have hscene := scene_cancelJobs (w := w) owner p
    have hpools : ∀ q ∈ ps, (w.cancelJobs owner p).2.pool q = w.pool q := by
      intro q hq
      rw [← pool_scene, hscene, Scene.pool_onPool, if_neg, pool_scene]
      rintro ⟨rfl, _⟩
      exact hp hq
    have hrest := ih (w := (w.cancelJobs owner p).2) (hscene ▸ hs.onPool p _) hps
    show (w.cancelJobs owner p).1 + ((w.cancelJobs owner p).2.cancelJobsIn owner ps).1 = _
    rw [hrest, cancelJobs_fst hs, List.flatMap_cons, List.length_append]
    congr 2
    exact List.flatMap_congr fun q hq => by rw [hpools q hq]

/-- **Clearing counts the places.** -/
theorem clear_fst_eq (hs : w.scene.Sound) (ha : a < w.actors.length)
    (hpools : (w.actor a).pools.Nodup) : (w.clear a).1 = (w.clearable a).length := by
  rw [clear_fst ha, cancelJobsIn_eq hs _ hpools, clearable, List.length_append, List.length_map]
  congr 1
  simp [List.length_flatMap]

/-- **The places are those of the backlog.** -/
theorem perm_clearable (acts : List Act) (ha : a < (run acts).actors.length)
    (hplain : ((run acts).actor a).owner ∉ jobOwners acts)
    (hpools : ((run acts).actor a).pools.Nodup) :
    ((backlog a acts).map (·.site)).Perm ((run acts).clearable a) := by
  have hs := sound_run acts
  have hnodup : ((backlog a acts).map (·.site)).Nodup :=
    (nodup_sites acts).sublist (List.filter_sublist.map _)
  refine (List.perm_ext_iff_of_nodup hnodup (nodup_clearable hs hpools)).mpr fun r => ?_
  constructor
  · intro hr
    obtain ⟨x, hx, rfl⟩ := List.mem_map.mp hr
    obtain ⟨hmem, rfl, hpends⟩ := mem_backlog.mp hx
    rcases cases_of_pends acts hmem hpends with
      ⟨_, hsite, hqueue⟩ | ⟨p, j, hroute, hanswer, hsite, hj⟩
    · rw [hsite]
      refine List.mem_append_left _ (List.mem_map.mpr ⟨_, List.mem_filter.mpr ⟨hqueue, rfl⟩, rfl⟩)
    · obtain ⟨job, hjob, hid⟩ := Pool.mem_queuedIds.mp hj
      have he := escorted_run acts x.toSending (mem_sendings hmem) hanswer p j hroute
      have hused := he.used
      have howner := he.owned job.label (by rw [pool_scene]; exact Pool.label_of_queued hjob) hid
      rw [lane_scene] at hused howner
      rw [hsite]
      refine List.mem_append_right _ (List.mem_flatMap.mpr ⟨p, hused, List.mem_map.mpr
        ⟨job, List.mem_filter.mpr ⟨hjob, ?_⟩, by rw [hid]⟩⟩)
      exact decide_eq_true howner
  · intro hr
    rcases List.mem_append.mp hr with hr | hr
    · obtain ⟨e, he, rfl⟩ := List.mem_map.mp hr
      obtain ⟨he, hrelay⟩ := List.mem_filter.mp he
      obtain ⟨x, hx, hactor, hk, hsite⟩ := commission_of_waiting acts he (by simpa using hrelay)
      refine List.mem_map.mpr ⟨x, mem_backlog.mpr ⟨hx, hactor, ?_⟩, by rw [hsite, hk]⟩
      have hqueued : e.handle ∈ (run acts).queued a := List.mem_map_of_mem he
      simpa [pends, hsite, hactor, hk] using hqueued
    · obtain ⟨p, hp, hr⟩ := List.mem_flatMap.mp hr
      obtain ⟨job, hjob, rfl⟩ := List.mem_map.mp hr
      obtain ⟨hjob, howner⟩ := List.mem_filter.mp hjob
      rw [decide_eq_true_iff] at howner
      obtain ⟨x, hx, hactor, hanswer, hroute⟩ := commission_of_job acts ha hplain hjob howner
      have hsite : x.site = .job p job.id := by rw [Commission.site, hroute, hanswer]
      refine List.mem_map.mpr ⟨x, mem_backlog.mpr ⟨hx, hactor, ?_⟩, hsite⟩
      simp [pends, hsite, Pool.mem_queuedIds.mpr ⟨job, hjob, rfl⟩]

end World

end Troupe
