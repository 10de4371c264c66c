import Mathlib.Data.List.DropRight
import Troupe.Proofs.Pool.Stages

/-!
# The records of an owner

What a pool has on record for an owner changes at many places: a submission adds a number, whether
or not the pool accepts the job; a withdrawal ends all records of the owner, also those of jobs
that go on running; and every job that is let go, however it ends, ends its own record, if there
still is one. This module shows that the records are right all the same. They are the jobs that
were accepted for the owner since its jobs were last withdrawn and that still wait or run.

The jobs that were accepted since then are read off the run and not off the pool, so the statement
does not rest on the owners that the jobs carry; that these are the same is part of the invariant.

## Main definitions

* `Pool.claims`, `Pool.recent` — the jobs that were accepted for an owner, and lately
* `Pool.openJobs`, `Pool.openIds` — the jobs that wait or run
* `Pool.Leaves` — some jobs go, and nothing else changes for an owner
* `Pool.Booked` — the invariant

## Main results

* `Pool.recent_concat` — what one more event does to the jobs that were accepted lately
* `Pool.Booked.apply`, `Pool.Booked.run` — every event, and every run, keeps the invariant
* `Pool.bookkeeping_exact` — what is on record, counted and ended
-/

namespace Troupe

/-- What a pool goes by when it keeps its records: the number of a job and the owner. -/
def Job.label {β : Type} (job : Job β) : JobId × Option String := (job.id, job.owner)

namespace Pool

variable {β ρ : Type} {p q : Pool β ρ} {owner : String} {lately : List JobId}

/-! ### What is accepted for an owner -/

/-- Whether a client withdraws the jobs of an owner. -/
def Event.withdraws (owner : String) : Event β ρ → Bool
  | .cancel name => name == owner
  | _ => false

/-- The job that an event brings an owner, if the pool accepts it. -/
def claim? (p : Pool β ρ) (owner : String) : Event β ρ → Option JobId
  | .submit (some name) _ _ =>
    if name = owner ∧ p.stopped = false then some p.channels.length else none
  | _ => none

/-- The jobs that a run brings an owner, in order. -/
def claims (owner : String) : Pool β ρ → List (Event β ρ) → List JobId
  | _, [] => []
  | p, e :: events => (p.claim? owner e).toList ++ claims owner (p.apply e) events

/-- The jobs that were accepted for an owner since the jobs of that owner were last withdrawn. -/
def recent (p₀ : Pool β ρ) (owner : String) (events : List (Event β ρ)) : List JobId :=
  claims owner (p₀.run (events.rdropWhile fun e => !e.withdraws owner))
    (events.rtakeWhile fun e => !e.withdraws owner)

theorem run_append (p : Pool β ρ) (events more : List (Event β ρ)) :
    p.run (events ++ more) = (p.run events).run more :=
  List.foldl_append ..

theorem claims_append (owner : String) (p : Pool β ρ) (events more : List (Event β ρ)) :
    claims owner p (events ++ more) =
      claims owner p events ++ claims owner (p.run events) more := by
  induction events generalizing p with
  | nil => rfl
  | cons e events ih => rw [List.cons_append, claims, ih, claims, List.append_assoc]; rfl

/-- One more event adds the job it brings, or ends the time that counts. -/
theorem recent_concat (p₀ : Pool β ρ) (owner : String) (events : List (Event β ρ))
    (e : Event β ρ) :
    p₀.recent owner (events ++ [e]) = if e.withdraws owner then [] else
      p₀.recent owner events ++ ((p₀.run events).claim? owner e).toList := by
  rw [recent, recent, List.rdropWhile_concat, List.rtakeWhile_concat]
  by_cases he : e.withdraws owner = true
  · simp [he, claims]
  · simp only [he, Bool.not_false, if_true]
    rw [claims_append, ← run_append, List.rdropWhile_append_rtakeWhile]
    simp [claims]

/-! ### Jobs that wait or run -/

/-- The jobs that wait or run. -/
def openJobs (p : Pool β ρ) : List (Job β) := p.queue ++ p.running

/-- Their numbers. -/
def openIds (p : Pool β ρ) : List JobId := p.queuedIds ++ p.runningIds

/-- Their numbers and owners. -/
def openLabels (p : Pool β ρ) : List (JobId × Option String) := p.openJobs.map Job.label

theorem map_fst_openLabels (p : Pool β ρ) : p.openLabels.map (·.1) = p.openIds := by
  simp [openLabels, openJobs, openIds, queuedIds, runningIds, Job.label, Function.comp_def]

theorem mem_openIds {id : JobId} : id ∈ p.openIds ↔ ∃ job ∈ p.openJobs, job.id = id := by
  rw [openIds, openJobs, queuedIds, runningIds, ← List.map_append, List.mem_map]

theorem label_of_queued {job : Job β} (hjob : job ∈ p.queue) : job.label ∈ p.openLabels :=
  List.mem_map_of_mem (List.mem_append_left _ hjob)

theorem Reachable.nodup_open (h : p.Reachable) : p.openIds.Nodup := by
  obtain ⟨l, hl⟩ := h.conserved
  exact hl.nodup_places

theorem Reachable.content_of_open (h : p.Reachable) {id : JobId} (hid : id ∈ p.openIds) :
    p.content id = .empty :=
  (List.mem_append.mp hid).elim h.content_of_queued h.content_of_running

theorem Reachable.lt_of_open (h : p.Reachable) {id : JobId} (hid : id ∈ p.openIds) :
    id < p.channels.length :=
  lt_of_content_empty (h.content_of_open hid)

/-! ### Submitting -/

theorem running_submit (name : Option String) (urgent : Bool) (body : β) :
    (p.submit name urgent body).2.running = p.running := by
  rw [submit]
  cases hs : p.stopped
  · simp [running, Worker.filterMap_job?_wakeOne]
  · simp [running]

theorem mem_openLabels_submit {name : Option String} {urgent : Bool} {body : β}
    {t : JobId × Option String} :
    t ∈ (p.submit name urgent body).2.openLabels ↔
      t ∈ p.openLabels ∨ p.stopped = false ∧ t = (p.channels.length, name) := by
  simp only [openLabels, openJobs, running_submit, List.map_append, List.mem_append, List.mem_map,
    mem_queue_submit_iff]
  constructor
  · rintro (⟨job, hjob | ⟨hs, rfl⟩, rfl⟩ | hrun)
    · exact .inl (.inl ⟨job, hjob, rfl⟩)
    · exact .inr ⟨hs, rfl⟩
    · exact .inl (.inr hrun)
  · rintro ((⟨job, hjob, rfl⟩ | hrun) | ⟨hs, rfl⟩)
    · exact .inl ⟨job, .inl hjob, rfl⟩
    · exact .inr hrun
    · exact .inl ⟨_, .inr ⟨hs, rfl⟩, rfl⟩

/-- The new job is on behalf of whoever submits it. -/
theorem Reachable.owner_of_submit (h : p.Reachable) {name : Option String} {urgent : Bool}
    {body : β} {t : JobId × Option String} (ht : t ∈ (p.submit name urgent body).2.openLabels)
    (hid : t.1 = p.channels.length) : t.2 = name := by
  rcases mem_openLabels_submit.mp ht with hold | ⟨-, rfl⟩
  · have hlt := h.lt_of_open (map_fst_openLabels p ▸ List.mem_map_of_mem hold)
    exact absurd hid (Nat.ne_of_lt hlt)
  · rfl

theorem mem_openIds_submit {name : Option String} {urgent : Bool} {body : β} {id : JobId} :
    id ∈ (p.submit name urgent body).2.openIds ↔
      id ∈ p.openIds ∨ p.stopped = false ∧ id = p.channels.length := by
  simp only [← map_fst_openLabels, List.mem_map, mem_openLabels_submit]
  constructor
  · rintro ⟨t, ht | ⟨hs, rfl⟩, rfl⟩
    · exact .inl ⟨t, ht, rfl⟩
    · exact .inr ⟨hs, rfl⟩
  · rintro (⟨t, ht, rfl⟩ | ⟨hs, rfl⟩)
    · exact ⟨t, .inl ht, rfl⟩
    · exact ⟨_, .inr ⟨hs, rfl⟩, rfl⟩

/-- A submission adds to the records what it brings the owner. A refused job is on record for a
moment only. -/
theorem ids_submit (hlt : ∀ id ∈ p.owners.ids owner, id < p.channels.length)
    (name : Option String) (urgent : Bool) (body : β) :
    (p.submit name urgent body).2.owners.ids owner =
      p.owners.ids owner ++ (p.claim? owner (.submit name urgent body)).toList := by
  have hrefused : (p.owners.ids owner).filter (· != p.channels.length) = p.owners.ids owner :=
    List.filter_eq_self.mpr fun id hid => by simpa using Nat.ne_of_lt (hlt id hid)
  have hnew : p.channels.length ∉ p.owners.ids owner := fun hid => Nat.lt_irrefl _ (hlt _ hid)
  cases name with
  | none => cases hs : p.stopped <;> simp [submit, hs, claim?, release]
  | some name =>
    by_cases hname : name = owner
    · cases hs : p.stopped <;>
        simp [submit, hs, claim?, release, OwnerIndex.ids_release, OwnerIndex.ids_register, hname,
          hrefused, hnew]
    · cases hs : p.stopped <;>
        simp [submit, hs, claim?, release, OwnerIndex.ids_release, OwnerIndex.ids_register, hname,
          Ne.symm hname]

/-! ### Jobs that go -/

/-- Some jobs go. Whatever else happens changes nothing for the records of an owner. -/
structure Leaves (owner : String) (p : Pool β ρ) (out : List (Job β)) (q : Pool β ρ) : Prop where
  /-- Exactly they wait and run no longer. -/
  labels : (out.map Job.label ++ q.openLabels).Perm p.openLabels
  /-- Their records end. -/
  ids : q.owners.ids owner = (p.owners.ids owner).filter fun id =>
    ∀ job ∈ out, job.owner = some owner → job.id ≠ id
  /-- No job is put back into the queue. -/
  queue : ∀ job ∈ q.queue, ∃ old ∈ p.queue, old.label = job.label
  /-- No channel is new. -/
  length : q.channels.length = p.channels.length

/-- Jobs go out of the queue, and the workers go on. -/
theorem labels_drops {jobs : List (Job β)} (hd : p.Drops jobs q) (hr : q.running = p.running) :
    (jobs.map Job.label ++ q.openLabels).Perm p.openLabels := by
  rw [openLabels, openLabels, openJobs, openJobs, ← List.map_append, ← List.append_assoc, hr]
  exact (hd.queue.append_right _).map _

theorem Leaves.drops {jobs : List (Job β)} (hd : p.Drops jobs q) (hr : q.running = p.running)
    (hids : q.owners.ids owner = (p.owners.ids owner).filter fun id =>
      ∀ job ∈ jobs, job.owner = some owner → job.id ≠ id) : Leaves owner p jobs q where
  labels := labels_drops hd hr
  ids := hids
  queue := fun job hjob => ⟨job, hd.queue.subset (List.mem_append_right _ hjob), rfl⟩
  length := hd.length

/-- No job goes. -/
theorem Leaves.none (hl : q.openLabels.Perm p.openLabels) (hids : q.owners = p.owners)
    (hq : q.queue ⊆ p.queue) (hlen : q.channels.length = p.channels.length) :
    Leaves owner p [] q where
  labels := hl
  ids := by simp [hids]
  queue := fun job hjob => ⟨job, hq hjob, rfl⟩
  length := hlen

theorem running_of_crew (h : q.crew = p.crew) : q.running = p.running := by
  rw [running, running, h]

theorem running_of_woken (h : q.crew = p.crew.map Worker.woken) : q.running = p.running := by
  rw [running, running, h, Worker.filterMap_job?_woken]

/-- The workers go on whatever is withdrawn. -/
theorem running_cancel (name : String) : (p.cancel name).2.running = p.running :=
  running_of_crew (cancel_frame name).1

theorem leaves_cancel {name : String} (hne : name ≠ owner) :
    Leaves owner p (p.withdrawn name) (p.cancel name).2 :=
  .drops (p.drops_withdrawn name) (running_cancel name) (ids_cancel hne)

theorem leaves_shutdownNow : Leaves owner p p.queue p.shutdownNow.2 :=
  .drops p.drops_shutdownNow.1 (running_of_woken (discards_frame _ _).2.1)
    (ids_discards p.queue
      { p with stopped := true, queue := [], crew := p.crew.map Worker.woken } _)

theorem leaves_look (place : Nat) : Leaves owner p [] ((p.look place).getD p) := by
  rw [look]
  split
  · rename_i job queue hw hq
    obtain ⟨l, r, hold, hset⟩ := Worker.exists_split hw
    refine .none ?_ rfl (by simp [hq]) rfl
    simp only [openLabels, openJobs, running, hold, hset, hq, Option.getD_some]
    have hmove : (queue ++ l ++ job :: r).Perm (job :: (queue ++ l ++ r)) := List.perm_middle
    exact List.Perm.map _ (by simpa using hmove)
  · rename_i hw hq
    obtain ⟨l, r, hold, hset⟩ := Worker.exists_split hw
    split
    · refine .none (.of_eq ?_) rfl (by simp [hq]) rfl
      simp [openLabels, openJobs, running, hold, hset]
    · refine .none (.of_eq ?_) rfl (by simp [hq]) rfl
      simp [openLabels, openJobs, running, hold, hset]
  · exact .none (.refl _) rfl (List.Subset.refl _) rfl

theorem leaves_advance (place : Nat) (body : β) : Leaves owner p [] (p.advance place body) := by
  rw [advance]
  cases hj : p.jobAt place with
  | none => exact .none (.refl _) rfl (List.Subset.refl _) rfl
  | some job =>
    obtain ⟨w, hw, hwj⟩ := Option.bind_eq_some_iff.mp hj
    obtain ⟨l, r, hold, hset⟩ := Worker.exists_split hw
    refine .none (.of_eq ?_) rfl (List.Subset.refl _) rfl
    simp [openLabels, openJobs, running, hold, hset, hwj, Job.label]

theorem leaves_finish {place : Nat} {job : Job β} (hj : p.jobAt place = some job)
    (outcome : Except PoolError ρ) : Leaves owner p [job] (p.finish place outcome) := by
  obtain ⟨w, hw, hwj⟩ := Option.bind_eq_some_iff.mp hj
  obtain ⟨l, r, hold, hset⟩ := Worker.exists_split hw
  simp only [finish, hj]
  refine ⟨?_, ?_, fun other hother => ⟨other, by simpa using hother, rfl⟩, by simp⟩
  · have hmove : (job :: (p.queue ++ l ++ r)).Perm (p.queue ++ l ++ job :: r) :=
      List.perm_middle.symm
    simpa [openLabels, openJobs, running, hold, hset, hwj] using hmove.map Job.label
  · simpa using ids_release (p := { p with crew := p.crew.set place .awake }) job owner

theorem openLabels_shutdown (p : Pool β ρ) : p.shutdown.openLabels = p.openLabels := by
  rw [openLabels, openJobs, running_of_woken rfl]
  rfl

/-- **No job changes hands.** A job that waits or runs after an event has done so before, for the
same owner, or it is new, submitted for its owner to a pool that accepts jobs. -/
theorem mem_openLabels_of_apply {e : Event β ρ} {t : JobId × Option String}
    (h : t ∈ (p.apply e).openLabels) :
    t ∈ p.openLabels ∨ p.stopped = false ∧ t.1 = p.channels.length ∧
      ∃ urgent body, e = .submit t.2 urgent body := by
  have gone : ∀ {out : List (Job β)} {q : Pool β ρ}, (out.map Job.label ++ q.openLabels).Perm
      p.openLabels → t ∈ q.openLabels → t ∈ p.openLabels :=
    fun hl ht => hl.subset (List.mem_append_right _ ht)
  -- The owner does not matter here, so it may be any.
  have leaves : ∀ {out : List (Job β)} {q : Pool β ρ}, Leaves "" p out q → t ∈ q.openLabels →
      t ∈ p.openLabels := fun hl => gone hl.labels
  cases e with
  | submit name urgent body =>
    refine (mem_openLabels_submit.mp h).imp_right ?_
    rintro ⟨hs, rfl⟩
    exact ⟨hs, rfl, urgent, body, rfl⟩
  | cancel name => exact .inl (gone (labels_drops (p.drops_withdrawn name) (running_cancel name)) h)
  | shutdown => exact .inl (openLabels_shutdown p ▸ h)
  | shutdownNow => exact .inl (leaves leaves_shutdownNow h)
  | look place => exact .inl (leaves (leaves_look place) h)
  | advance place body => exact .inl (leaves (leaves_advance place body) h)
  | finish place result =>
    cases hj : p.jobAt place with
    | none => exact .inl (by rwa [Pool.apply, finish_of_jobAt_none hj] at h)
    | some job => exact .inl (leaves (leaves_finish hj _) h)
  | deafen id | drain id => exact .inl h

/-! ### The invariant -/

/-- The records of an owner are right. -/
structure Booked (p : Pool β ρ) (owner : String) (lately : List JobId) : Prop where
  /-- On record is what was accepted lately and waits or runs. -/
  records : p.owners.ids owner = lately.filter (· ∈ p.openIds)
  /-- What was accepted lately belongs to the owner. -/
  owned : ∀ t ∈ p.openLabels, t.1 ∈ lately → t.2 = some owner
  /-- The jobs of the owner that wait were accepted lately. -/
  waiting : ∀ job ∈ p.queue, job.owner = some owner → job.id ∈ lately
  /-- No job was accepted twice. -/
  nodup : lately.Nodup
  /-- Accepted jobs have a channel. -/
  lt : ∀ id ∈ lately, id < p.channels.length

theorem Booked.mem_ids (h : p.Booked owner lately) {id : JobId} :
    id ∈ p.owners.ids owner ↔ id ∈ lately ∧ id ∈ p.openIds := by
  rw [h.records, List.mem_filter, decide_eq_true_iff]

theorem Booked.new {name : String} {size : Nat} (h : create name size = .ok p) :
    p.Booked owner [] := by
  rw [Pool.create] at h
  split at h <;> cases h
  exact ⟨rfl, by simp, by simp, .nil, by simp⟩

/-- Nothing is known of an owner whose jobs are withdrawn. -/
theorem Booked.withdrawal (h : p.Reachable) (owner : String) :
    (p.cancel owner).2.Booked owner [] where
  records := by
    rw [cancel_eq, ids_discards]
    simp [OwnerIndex.ids_forget]
  owned := by simp
  waiting _ hjob howner := absurd howner (owner_of_cancel h hjob)
  nodup := .nil
  lt := by simp

theorem claim?_submit {name : Option String} {urgent : Bool} {body : β} {id : JobId} :
    p.claim? owner (.submit name urgent body) = some id ↔
      name = some owner ∧ p.stopped = false ∧ id = p.channels.length := by
  cases name with
  | none => simp [claim?]
  | some name =>
    simp only [claim?, Option.ite_none_right_eq_some, Option.some.injEq, and_assoc]
    rw [eq_comm (a := id)]

/-- A submission. -/
theorem Booked.submit (h : p.Booked owner lately) (hr : p.Reachable) (name : Option String)
    (urgent : Bool) (body : β) : (p.submit name urgent body).2.Booked owner
      (lately ++ (p.claim? owner (.submit name urgent body)).toList) where
  records := by
    have hlt : ∀ id ∈ p.owners.ids owner, id < p.channels.length := fun id hid =>
      h.lt id (h.mem_ids.mp hid).1
    rw [ids_submit hlt, List.filter_append, h.records]
    congr 1
    · refine List.filter_congr fun id hid => ?_
      simp [mem_openIds_submit, Nat.ne_of_lt (h.lt id hid)]
    · refine (List.filter_eq_self.mpr fun id hid => ?_).symm
      obtain ⟨-, hs, rfl⟩ := claim?_submit.mp (Option.mem_toList.mp hid)
      simp [mem_openIds_submit, hs]
  owned t ht hid := by
    have hopen : t ∈ p.openLabels → t.1 < p.channels.length := fun hold =>
      hr.lt_of_open (map_fst_openLabels p ▸ List.mem_map_of_mem hold)
    rcases List.mem_append.mp hid with hid | hid
    · rcases mem_openLabels_submit.mp ht with hold | ⟨-, rfl⟩
      · exact h.owned t hold hid
      · exact absurd (h.lt _ hid) (Nat.lt_irrefl _)
    · obtain ⟨rfl, -, hnew⟩ := claim?_submit.mp (Option.mem_toList.mp hid)
      rcases mem_openLabels_submit.mp ht with hold | ⟨-, rfl⟩
      · exact absurd hnew (Nat.ne_of_lt (hopen hold))
      · rfl
  waiting job hjob howner := by
    rcases mem_queue_submit_iff.mp hjob with hold | ⟨hs, rfl⟩
    · exact List.mem_append_left _ (h.waiting job hold howner)
    · exact List.mem_append_right _ (Option.mem_toList.mpr (claim?_submit.mpr ⟨howner, hs, rfl⟩))
  nodup := by
    refine List.nodup_append.mpr ⟨h.nodup, Option.toList_nodup _, fun a ha b hb heq => ?_⟩
    obtain ⟨-, -, rfl⟩ := claim?_submit.mp (Option.mem_toList.mp hb)
    exact absurd heq (Nat.ne_of_lt (h.lt a ha))
  lt id hid := by
    rw [length_channels_submit]
    rcases List.mem_append.mp hid with hold | hnew
    · exact Nat.lt_succ_of_lt (h.lt id hold)
    · obtain ⟨-, -, rfl⟩ := claim?_submit.mp (Option.mem_toList.mp hnew)
      exact Nat.lt_succ_self _

theorem Leaves.mem_openIds {out : List (Job β)} (hl : Leaves owner p out q) (h : p.Reachable)
    {id : JobId} : id ∈ q.openIds ↔ id ∈ p.openIds ∧ id ∉ out.map (·.id) := by
  have hperm : (out.map (·.id) ++ q.openIds).Perm p.openIds := by
    simpa [← map_fst_openLabels, Job.label, Function.comp_def] using hl.labels.map (·.1)
  have hnodup := hperm.nodup_iff.mpr h.nodup_open
  have hapart : id ∈ out.map (·.id) → id ∉ q.openIds := fun hout hin =>
    (List.nodup_append.mp hnodup).2.2 id hout id hin rfl
  rw [← hperm.mem_iff, List.mem_append]
  tauto

/-- Jobs that go take their records with them, and nobody else's. -/
theorem Booked.leaves (h : p.Booked owner lately) (hr : p.Reachable) {out : List (Job β)}
    (hl : Leaves owner p out q) : q.Booked owner lately where
  records := by
    rw [hl.ids, h.records, List.filter_filter]
    refine List.filter_congr fun id hid => ?_
    -- A job accepted lately belongs to the owner, so it goes together with its record.
    have howned : ∀ job ∈ out, job.id = id → job.owner = some owner := fun job hjob hsame =>
      h.owned job.label (hl.labels.subset (List.mem_append_left _ (List.mem_map_of_mem hjob)))
        (by rwa [Job.label, hsame])
    rw [← Bool.decide_and, decide_eq_decide, hl.mem_openIds hr, and_comm, List.mem_map]
    refine and_congr_right fun _ =>
      ⟨fun hkept ⟨job, hjob, hsame⟩ => ?_, fun hstays job hjob _ => ?_⟩
    · exact hkept job hjob (howned job hjob hsame) hsame
    · exact fun hsame => hstays ⟨job, hjob, hsame⟩
  owned t ht hid := h.owned t (hl.labels.subset (List.mem_append_right _ ht)) hid
  waiting job hjob howner := by
    obtain ⟨old, hold, hsame⟩ := hl.queue job hjob
    simp only [Job.label, Prod.mk.injEq] at hsame
    exact hsame.1 ▸ h.waiting old hold (hsame.2.trans howner)
  nodup := h.nodup
  lt id hid := hl.length ▸ h.lt id hid

/-- **Every event keeps the records right.** -/
theorem Booked.apply (h : p.Booked owner lately) (hr : p.Reachable) (e : Event β ρ) :
    (p.apply e).Booked owner
      (if e.withdraws owner then [] else lately ++ (p.claim? owner e).toList) := by
  -- Events that bring nobody anything.
  have quiet : ∀ {out q}, Leaves owner p out q → q.Booked owner (lately ++ []) := fun hl => by
    rw [List.append_nil]
    exact h.leaves hr hl
  cases e with
  | submit name urgent body => exact h.submit hr name urgent body
  | cancel name =>
    by_cases hname : name = owner
    · simpa [Pool.apply, Event.withdraws, hname] using Booked.withdrawal hr owner
    · simpa [Pool.apply, Event.withdraws, hname, claim?] using quiet (leaves_cancel hname)
  | shutdown =>
    exact quiet (.none (.of_eq (openLabels_shutdown p)) rfl (List.Subset.refl _) rfl)
  | shutdownNow => exact quiet leaves_shutdownNow
  | look place => exact quiet (leaves_look place)
  | advance place body => exact quiet (leaves_advance place body)
  | finish place result =>
    cases hj : p.jobAt place with
    | none =>
      rw [Pool.apply, finish_of_jobAt_none hj]
      exact quiet (.none (.refl _) rfl (List.Subset.refl _) rfl)
    | some job => exact quiet (leaves_finish hj _)
  | deafen id | drain id =>
    exact quiet (.none (.refl _) rfl (List.Subset.refl _) (List.length_modify ..))

/-- **Every run keeps the records right.** -/
theorem Booked.run {name : String} {size : Nat} {p₀ : Pool β ρ} (h : create name size = .ok p₀)
    (owner : String) (events : List (Event β ρ)) :
    (p₀.run events).Booked owner (p₀.recent owner events) := by
  induction events using List.reverseRecOn with
  | nil => exact .new h
  | append_singleton events e ih =>
    have hr : (p₀.run events).Reachable := ⟨name, size, p₀, events, h, play_fst ..⟩
    rw [recent_concat, run_append]
    exact ih.apply hr e

/-! ### What the records say -/

theorem Reachable.lt_of_recorded (h : p.Reachable) {owner : String} {id : JobId}
    (hid : id ∈ p.owners.ids owner) : id < p.channels.length := by
  obtain ⟨name, size, p₀, events, hcreate, rfl⟩ := h
  have hbooked := Booked.run hcreate owner events
  rw [← play_fst] at hbooked
  exact hbooked.lt id (hbooked.mem_ids.mp hid).1

/-- Of the jobs that wait, exactly the owner's are on record. -/
theorem Booked.mem_ids_of_queued (h : p.Booked owner lately) {job : Job β} (hjob : job ∈ p.queue) :
    job.id ∈ p.owners.ids owner ↔ job.owner = some owner := by
  have hopen : job ∈ p.openJobs := List.mem_append_left _ hjob
  rw [h.mem_ids]
  refine ⟨fun ⟨hid, _⟩ => h.owned job.label (List.mem_map_of_mem hopen) hid, fun howner => ?_⟩
  exact ⟨h.waiting job hjob howner, mem_openIds.mpr ⟨job, hopen, rfl⟩⟩

theorem Booked.pendingCount_eq (h : p.Booked owner lately) :
    p.pendingCount owner = (p.queue.filter (·.owner = some owner)).length :=
  congrArg List.length
    (List.filter_congr fun _ hjob => decide_eq_decide.mpr (h.mem_ids_of_queued hjob))

/-- A job that ends takes its own number out of the records, if it is there. -/
theorem Booked.ids_finish (h : p.Booked owner lately) {place : Nat} {job : Job β}
    (hj : p.jobAt place = some job) (outcome : Except PoolError ρ) :
    (p.finish place outcome).owners.ids owner = (p.owners.ids owner).filter (· ≠ job.id) := by
  have hl : Leaves owner p [job] (p.finish place outcome) := leaves_finish hj outcome
  rw [hl.ids]
  refine List.filter_congr fun id hid => ?_
  have howner : job.id = id → job.owner = some owner := fun hsame => by
    refine h.owned job.label (hl.labels.subset List.mem_cons_self) ?_
    rw [Job.label, hsame]
    exact (h.mem_ids.mp hid).1
  simp only [List.mem_singleton, forall_eq, decide_eq_decide, ne_eq]
  exact ⟨fun hkept hsame => hkept (howner hsame.symm) hsame.symm,
    fun hne _ hsame => hne hsame.symm⟩

/-- **Bookkeeping is exact.** After any run of a new pool, the records of an owner are the jobs that
were accepted for it since its jobs were last withdrawn and that wait or run; they are jobs of that
owner, and an owner without such a job is not on record. So the two counts are right, a job that
has ended is on nobody's record, and a job that ends takes at most its own record away: none at
all, if it was accepted before the last withdrawal. -/
theorem bookkeeping_exact {name : String} {size : Nat} {p₀ : Pool β ρ}
    (h : create name size = .ok p₀) (events : List (Event β ρ)) (owner : String) :
    let p := p₀.run events
    let held := (p₀.recent owner events).filter fun id => id ∈ p.queuedIds ∨ id ∈ p.runningIds
    p.owners.ids owner = held ∧ held.Nodup ∧
      (∀ job ∈ p.queue ++ p.running, job.id ∈ held → job.owner = some owner) ∧
      (owner ∈ p.owners.owners ↔ held ≠ []) ∧
      p.outstandingCount owner = held.length ∧
      p.pendingCount owner = (p.queue.filter (·.owner = some owner)).length ∧
      (∀ id, p.outcome? id ≠ none → id ∉ p.owners.ids owner) ∧
      ∀ place job result, p.jobAt place = some job →
        (p.apply (.finish place result)).owners.ids owner =
            (p.owners.ids owner).filter (· ≠ job.id) ∧
          (job.id ∉ p₀.recent owner events →
            (p.apply (.finish place result)).owners.ids owner = p.owners.ids owner) := by
  intro p held
  have hr : p.Reachable := ⟨name, size, p₀, events, h, play_fst ..⟩
  have hb : p.Booked owner (p₀.recent owner events) := .run h owner events
  have hids : p.owners.ids owner = held := by
    rw [hb.records]
    exact List.filter_congr fun id _ => decide_eq_decide.mpr List.mem_append
  refine ⟨hids, hb.nodup.filter _, fun job hjob hid => ?_, ?_, congrArg List.length hids,
    hb.pendingCount_eq, fun id hended hid => ?_, fun place job result hj => ⟨?_, fun hold => ?_⟩⟩
  · exact hb.owned job.label (List.mem_map_of_mem hjob) (List.mem_filter.mp hid).1
  · rw [hr.proper.mem_owners_iff, hids]
  · exact hended (outcome?_eq_none_iff.mpr (hr.content_of_open (hb.mem_ids.mp hid).2))
  · exact hb.ids_finish hj _
  · rw [Pool.apply, hb.ids_finish hj, List.filter_eq_self]
    rintro id hid
    refine decide_eq_true ?_
    rintro rfl
    exact hold (hb.mem_ids.mp hid).1

/-- A job is withdrawn while it runs, and another one of the same owner waits when it ends. -/
theorem bookkeeping_exact_outlived :
    let p₀ : Pool Unit Nat := { name := "crew", size := 1, crew := [.awake], live := 1 }
    let events : List (Event Unit Nat) :=
      [.submit (some "a") false (), .look 0, .cancel "a", .submit (some "a") false ()]
    create "crew" 1 = .ok p₀ ∧ (p₀.run events).jobAt 0 = some ⟨0, some "a", ()⟩ ∧
      (p₀.run events).owners.ids "a" = [1] ∧ (p₀.run events).pendingCount "a" = 1 ∧
      ((p₀.run events).apply (.finish 0 (.ok 7))).owners.ids "a" = [1] := by
  intro p₀ events
  have hcreate : create "crew" 1 = .ok p₀ := rfl
  obtain ⟨hids, _, _, _, _, hpending, _, hfinish⟩ := bookkeeping_exact hcreate events "a"
  have hat : (p₀.run events).jobAt 0 = some ⟨0, some "a", ()⟩ := rfl
  have hheld : (p₀.run events).owners.ids "a" = [1] := by rw [hids]; rfl
  refine ⟨hcreate, hat, hheld, by rw [hpending]; rfl, ?_⟩
  rw [(hfinish 0 _ (.ok 7) hat).2 (by decide), hheld]

end Pool

end Troupe
