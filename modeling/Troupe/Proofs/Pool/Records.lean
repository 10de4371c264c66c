import Troupe.Proofs.Pool.Conservation

/-!
# The records of a pool

A pool finds the waiting jobs of an owner by its records. What is recorded for an owner may be more
than what waits, since running jobs are on record too; it is never less. So withdrawing by the
records, which stops as soon as it has found as many jobs as there are records, leaves no waiting
job of the owner behind.

Everything here is about the pools that runs lead to.

## Main definitions

* `Pool.Reachable` — the pools that runs lead to
* `Pool.Covered` — every waiting job of an owner is on record

## Main results

* `Pool.Reachable.induct` — what every event keeps holds of the pools that runs lead to
* `Pool.Reachable.proper` — an owner is on record exactly while jobs are recorded for it
* `Pool.Reachable.nodup`, `content_of_queued` — what conservation says about waiting jobs
* `Pool.Reachable.covered` — the records cover the queue
* `Pool.owner_of_cancel` — withdrawing the jobs of an owner leaves none of them waiting
* `Pool.mem_queue_of_apply` — a job that waits after an event has waited before, or is new
-/

namespace Troupe

namespace Pool

variable {β ρ : Type} {p : Pool β ρ}

/-! ### Pools that runs lead to -/

/-- A run of a new pool leads here. -/
def Reachable (p : Pool β ρ) : Prop :=
  ∃ (name : String) (size : Nat) (p₀ : Pool β ρ) (events : List (Event β ρ)),
    create name size = .ok p₀ ∧ (p₀.play events).1 = p

theorem queue_of_create {name : String} {size : Nat} (h : create name size = .ok p) :
    p.queue = [] := by
  rw [create] at h
  split at h
  · cases h
  · cases h
    rfl

theorem Reachable.create {name : String} {size : Nat} (h : create name size = .ok p) :
    p.Reachable :=
  ⟨name, size, p, [], h, rfl⟩

theorem Reachable.apply (h : p.Reachable) (e : Event β ρ) : (p.apply e).Reachable := by
  obtain ⟨name, size, p₀, events, hp₀, rfl⟩ := h
  exact ⟨name, size, p₀, events ++ [e], hp₀, by rw [play_concat]⟩

/-- What holds of new pools and what every event keeps. -/
theorem Reachable.induct {P : Pool β ρ → Prop}
    (create : ∀ {name size p}, Pool.create name size = .ok p → P p)
    (step : ∀ {p} (e : Event β ρ), p.Reachable → P p → P (p.apply e)) (h : p.Reachable) : P p := by
  obtain ⟨name, size, p₀, events, hp₀, rfl⟩ := h
  induction events using List.reverseRecOn with
  | nil => exact create hp₀
  | append_singleton events e ih =>
    rw [play_concat]
    exact step e ⟨name, size, p₀, events, hp₀, rfl⟩ ih

theorem Reachable.run (h : p.Reachable) (events : List (Event β ρ)) : (p.run events).Reachable := by
  induction events generalizing p with
  | nil => exact h
  | cons e events ih => exact ih (h.apply e)

theorem Reachable.conserved (h : p.Reachable) : ∃ l, p.Conserved l := by
  obtain ⟨name, size, p₀, events, hp₀, rfl⟩ := h
  exact ⟨_, (Conserved.create hp₀).play events⟩

/-- Two lists of accepted jobs have no job twice, or both, if no job is in them more than once
wherever it stands. -/
theorem Conserved.nodup_append {l : Ledger ρ} (h : p.Conserved l) {ids more : List JobId}
    (hids : ∀ id ∈ ids, id ∈ l.accepted) (hmore : ∀ id ∈ more, id ∈ l.accepted)
    (hone : ∀ id f, p.Stands l id f → ids.count id + more.count id ≤ 1) : (ids ++ more).Nodup := by
  refine List.nodup_iff_count_le_one.mpr fun id => ?_
  rw [List.count_append]
  by_cases hid : id ∈ l.accepted
  · obtain ⟨f, s⟩ := h.stands id hid
    exact hone id f s
  · rw [List.count_eq_zero_of_not_mem fun hmem => hid (hids id hmem),
      List.count_eq_zero_of_not_mem fun hmem => hid (hmore id hmem)]
    exact Nat.zero_le 1

/-- No job waits or runs twice, or both. -/
theorem Conserved.nodup_places {l : Ledger ρ} (h : p.Conserved l) :
    (p.queuedIds ++ p.runningIds).Nodup :=
  h.nodup_append h.queued h.running fun id f s => by
    cases f with
    | queued | running | finished | withdrawn => simp only [s.1.queued, s.1.running]; decide

theorem Conserved.content_of_queued {l : Ledger ρ} (h : p.Conserved l) {id : JobId}
    (hid : id ∈ p.queuedIds) : p.content id = .empty := by
  obtain ⟨f, s⟩ := h.stands id (h.queued id hid)
  obtain rfl := s.eq_queued hid
  exact outcome?_eq_none_iff.mp s.2

theorem Reachable.nodup (h : p.Reachable) : p.queuedIds.Nodup := by
  obtain ⟨l, hl⟩ := h.conserved
  exact (List.nodup_append.mp hl.nodup_places).1

theorem Reachable.content_of_queued (h : p.Reachable) {id : JobId} (hid : id ∈ p.queuedIds) :
    p.content id = .empty := by
  obtain ⟨l, hl⟩ := h.conserved
  exact hl.content_of_queued hid

theorem Reachable.lt_of_queued (h : p.Reachable) {id : JobId} (hid : id ∈ p.queuedIds) :
    id < p.channels.length := by
  obtain ⟨l, hl⟩ := h.conserved
  exact hl.lt id (hl.queued id hid)

/-! ### The records cover the queue -/

/-- Every waiting job of an owner is on record. -/
def Covered (p : Pool β ρ) : Prop :=
  ∀ job ∈ p.queue, ∀ owner, job.owner = some owner → job.id ∈ p.owners.ids owner

/-- A walk that may find enough jobs finds all of them. -/
theorem withdraw_eq {ids : List JobId} {missing : Nat} {queue : List (Job β)}
    (h : (queue.filter (·.id ∈ ids)).length ≤ missing) :
    withdraw ids missing queue = (queue.filter (·.id ∉ ids), queue.filter (·.id ∈ ids)) := by
  induction queue generalizing missing with
  | nil => cases missing <;> rfl
  | cons job queue ih =>
    by_cases hid : job.id ∈ ids
    · simp only [List.filter_cons, hid, decide_true, if_true, List.length_cons] at h
      obtain ⟨missing, rfl⟩ := Nat.exists_eq_add_of_le' (Nat.le_trans (Nat.le_add_left 1 _) h)
      simp [withdraw, hid, ih (Nat.le_of_add_le_add_right h)]
    · have h' : (queue.filter (·.id ∈ ids)).length ≤ missing := by simpa [hid] using h
      cases missing with
      | zero =>
        have hnone : ∀ other ∈ queue, other.id ∉ ids := by simpa using h'
        have hkept : queue.filter (·.id ∉ ids) = queue :=
          List.filter_eq_self.mpr (by simpa using hnone)
        have hout : queue.filter (·.id ∈ ids) = [] :=
          List.filter_eq_nil_iff.mpr (by simpa using hnone)
        rw [List.filter_cons_of_pos (by simpa using hid), hkept,
          List.filter_cons_of_neg (by simpa using hid), hout]
        rfl
      | succ missing => simp [withdraw, hid, ih h']

/-- The records of an owner are as many as its waiting jobs, at least. -/
theorem Reachable.withdraw_eq (h : p.Reachable) (owner : String) :
    withdraw (p.owners.ids owner) (p.owners.ids owner).length p.queue =
      (p.queue.filter (·.id ∉ p.owners.ids owner), p.queue.filter (·.id ∈ p.owners.ids owner)) := by
  refine Pool.withdraw_eq ?_
  have hsub : ((p.queue.filter (·.id ∈ p.owners.ids owner)).map (·.id)).Nodup :=
    h.nodup.sublist ((List.filter_sublist).map _)
  have hsubset : ((p.queue.filter (·.id ∈ p.owners.ids owner)).map (·.id)) ⊆
      p.owners.ids owner := by
    intro id hid
    obtain ⟨job, hjob, rfl⟩ := List.mem_map.mp hid
    simpa using (List.mem_filter.mp hjob).2
  simpa using hsub.length_le_of_subset hsubset

/-- A job that is let go ends its own record and no other. -/
theorem ids_release (job : Job β) (owner : String) :
    (p.release job).owners.ids owner =
      (p.owners.ids owner).filter fun id => job.owner = some owner → job.id ≠ id := by
  rw [release]
  cases job.owner with
  | none => simp
  | some name =>
    rw [OwnerIndex.ids_release]
    by_cases hname : name = owner
    · simp only [hname, if_true, forall_const, ne_eq]
      exact List.filter_congr fun id _ => by rw [bne_comm, bne, beq_eq_decide, decide_not]
    · simp [hname, Ne.symm hname]

theorem ids_discards (jobs : List (Job β)) (p : Pool β ρ) (owner : String) :
    (jobs.foldl discard p).owners.ids owner =
      (p.owners.ids owner).filter fun id => ∀ job ∈ jobs, job.owner = some owner → job.id ≠ id := by
  induction jobs generalizing p with
  | nil => simp
  | cons job jobs ih =>
    have hone : (p.discard job).owners.ids owner = _ := ids_release job owner
    rw [List.foldl_cons, ih, hone, List.filter_filter]
    exact List.filter_congr fun id _ => by simp [Bool.and_comm]

theorem mem_ids_release {job : Job β} {owner : String} {id : JobId} (hne : id ≠ job.id) :
    id ∈ (p.release job).owners.ids owner ↔ id ∈ p.owners.ids owner := by
  rw [ids_release, List.mem_filter]
  simp [Ne.symm hne]

/-- What a withdrawal leaves in the queue. -/
theorem Reachable.queue_cancel (h : p.Reachable) (owner : String) :
    (p.cancel owner).2.queue = p.queue.filter (·.id ∉ p.owners.ids owner) := by
  rw [cancel_eq]
  exact (discards_frame _ _).1.trans (congrArg Prod.fst (h.withdraw_eq owner))

/-- What a withdrawal leaves of the records of others. -/
theorem ids_cancel {owner name : String} (hne : owner ≠ name) :
    (p.cancel owner).2.owners.ids name = (p.owners.ids name).filter fun id =>
      ∀ job ∈ p.withdrawn owner, job.owner = some name → job.id ≠ id := by
  rw [cancel_eq, ids_discards]
  simp only [OwnerIndex.ids_forget, if_neg (Ne.symm hne)]

theorem Reachable.covered_cancel (h : p.Reachable) (hp : p.Covered) (owner : String) :
    (p.cancel owner).2.Covered := by
  intro job hjob name hname
  rw [h.queue_cancel owner] at hjob
  obtain ⟨hmem, hstays⟩ := List.mem_filter.mp hjob
  have hrec := hp job hmem name hname
  have hne : owner ≠ name := by
    rintro rfl
    simp [hrec] at hstays
  rw [ids_cancel hne, List.mem_filter]
  refine ⟨hrec, decide_eq_true fun other hother _ heq => ?_⟩
  have := mem_of_mem_withdraw hother
  rw [heq] at this
  simp [this] at hstays

/-- A job waits after a submission if it waited before, or if it is the new one and was accepted. -/
theorem mem_queue_submit_iff {name : Option String} {urgent : Bool} {body : β} {job : Job β} :
    job ∈ (p.submit name urgent body).2.queue ↔
      job ∈ p.queue ∨ p.stopped = false ∧ job = ⟨p.channels.length, name, body⟩ := by
  rw [submit]
  cases hs : p.stopped
  · cases urgent <;> simp [or_comm]
  · simp

theorem covered_submit (h : p.Reachable) (hp : p.Covered) (owner : Option String) (urgent : Bool)
    (body : β) : (p.submit owner urgent body).2.Covered := by
  have registered : ∀ name id, id ∈ p.owners.ids name →
      id ∈ (owner.elim p.owners fun o => p.owners.register o p.channels.length).ids name := by
    intro name id hid
    cases owner with
    | none => exact hid
    | some o =>
      show id ∈ (p.owners.register o p.channels.length).ids name
      exact OwnerIndex.mem_ids_register.mpr (.inl hid)
  intro job hjob name hname
  rcases mem_queue_submit_iff.mp hjob with hold | ⟨hs, rfl⟩
  · have hlt := h.lt_of_queued (mem_queuedIds.mpr ⟨job, hold, rfl⟩)
    have hrec := registered _ _ (hp job hold name hname)
    rw [submit]
    by_cases hs : p.stopped = true
    · simp only [hs, if_true, onChannel_frame]
      exact (mem_ids_release (Nat.ne_of_lt hlt)).mpr hrec
    · simp only [hs]
      exact hrec
  · subst hname
    simp only [submit, hs]
    show p.channels.length ∈ (p.owners.register name p.channels.length).ids name
    exact OwnerIndex.mem_ids_register.mpr (.inr ⟨rfl, rfl⟩)

theorem covered_finish (h : p.Reachable) (hp : p.Covered) (place : Nat)
    (outcome : Except PoolError ρ) : (p.finish place outcome).Covered := by
  cases hj : p.jobAt place with
  | none => rwa [finish_of_jobAt_none hj]
  | some done =>
    obtain ⟨l, hl⟩ := h.conserved
    have hqueue := (finish_of_jobAt hj outcome).1
    intro job hjob name hname
    rw [hqueue] at hjob
    have hne : job.id ≠ done.id :=
      (List.nodup_append.mp hl.nodup_places).2.2 _ (mem_queuedIds.mpr ⟨job, hjob, rfl⟩) _
        (mem_runningIds_of_jobAt hj)
    simp only [finish, hj]
    exact (mem_ids_release (p := { p with crew := p.crew.set place .awake }) hne).mpr
      (hp job hjob name hname)

theorem look_frame (place : Nat) :
    ((p.look place).getD p).queue ⊆ p.queue ∧ ((p.look place).getD p).owners = p.owners := by
  rw [look]
  split
  · rename_i hq
    rw [hq]
    exact ⟨List.subset_cons_self _ _, rfl⟩
  · split <;> simp_all
  · exact ⟨List.Subset.refl _, rfl⟩

/-- **The records cover the queue.** -/
theorem Reachable.covered (h : p.Reachable) : p.Covered := by
  refine h.induct (fun hnew job hjob => ?_) fun {p} e hr hp => ?_
  · rw [queue_of_create hnew] at hjob
    cases hjob
  cases e with
  | submit owner urgent body => exact covered_submit hr hp owner urgent body
  | cancel owner => exact hr.covered_cancel hp owner
  | shutdown => exact hp
  | shutdownNow =>
    intro job hjob
    have hempty : p.shutdownNow.2.queue = [] := (discards_frame _ _).1
    rw [Pool.apply, hempty] at hjob
    cases hjob
  | look place =>
    obtain ⟨hsub, howners⟩ := look_frame (p := p) place
    intro job hjob owner howner
    rw [Pool.apply, howners]
    exact hp job (hsub hjob) owner howner
  | advance place body =>
    rw [Pool.apply, advance]
    split <;> exact hp
  | finish place result => exact covered_finish hr hp place _
  | deafen id => exact hp
  | drain id => exact hp

/-- **Withdrawing the jobs of an owner leaves none of them waiting.** -/
theorem owner_of_cancel (h : p.Reachable) {owner : String} {job : Job β}
    (hjob : job ∈ (p.cancel owner).2.queue) : job.owner ≠ some owner := by
  intro howner
  rw [h.queue_cancel] at hjob
  obtain ⟨hmem, hstays⟩ := List.mem_filter.mp hjob
  have := h.covered job hmem owner howner
  simp [this] at hstays

/-! ### Who is on record -/

theorem proper_release (h : p.owners.Proper) (job : Job β) : (p.release job).owners.Proper := by
  rw [release]
  cases job.owner with
  | none => exact h
  | some owner => exact h.release owner job.id

theorem proper_discards (h : p.owners.Proper) (jobs : List (Job β)) :
    (jobs.foldl discard p).owners.Proper := by
  induction jobs generalizing p with
  | nil => exact h
  | cons job jobs ih => exact ih (p := p.discard job) (proper_release h job)

theorem proper_submit (h : p.owners.Proper) (owner : Option String) (urgent : Bool) (body : β) :
    (p.submit owner urgent body).2.owners.Proper := by
  have hnew : (owner.elim p.owners fun o => p.owners.register o p.channels.length).Proper := by
    cases owner with
    | none => exact h
    | some o => exact h.register o _
  simp only [submit]
  split
  · rw [(onChannel_frame ..).2.2.1]
    exact proper_release hnew _
  · exact hnew

/-- **An owner is on record** exactly while jobs are recorded for it: whatever ends the last record
of an owner takes it off. -/
theorem Reachable.proper (h : p.Reachable) : p.owners.Proper := by
  refine h.induct (P := fun p => p.owners.Proper) (fun hnew => ?_) fun {p} e _ hp => ?_
  · rw [Pool.create] at hnew
    split at hnew <;> cases hnew
    exact .blank
  cases e with
  | submit owner urgent body => exact proper_submit hp owner urgent body
  | cancel owner =>
    rw [Pool.apply, cancel_eq]
    exact proper_discards (p := { p with owners := p.owners.forget owner, queue := _ })
      (hp.forget owner) _
  | shutdownNow =>
    exact proper_discards (p := { p with
      stopped := true
      queue := []
      crew := p.crew.map Worker.woken }) hp p.queue
  | look place =>
    rw [Pool.apply, (look_frame place).2]
    exact hp
  | advance place body =>
    rw [Pool.apply, advance]
    split <;> exact hp
  | finish place result =>
    rw [Pool.apply, finish]
    split
    · exact proper_release (p := { p with crew := p.crew.set place .awake }) hp _
    · exact hp
  | shutdown | deafen _ | drain _ => exact hp

/-! ### Waiting jobs from one moment to the next -/

/-- A job that waits after an event has waited before, or has just been submitted. -/
theorem mem_queue_of_apply {e : Event β ρ} {job : Job β} (h : job ∈ (p.apply e).queue) :
    job ∈ p.queue ∨
      job.id = p.channels.length ∧ ∃ urgent, e = .submit job.owner urgent job.body := by
  have kept : ∀ {jobs : List (Job β)} {q : Pool β ρ}, p.Drops jobs q → job ∈ q.queue →
      job ∈ p.queue := fun hd hq => hd.queue.subset (List.mem_append_right _ hq)
  cases e with
  | submit owner urgent body =>
    refine (mem_queue_submit_iff.mp h).imp_right ?_
    rintro ⟨-, rfl⟩
    exact ⟨rfl, urgent, rfl⟩
  | cancel owner =>
    obtain ⟨jobs, hd, _⟩ := p.drops_cancel owner
    exact .inl (kept hd h)
  | shutdown => exact .inl h
  | shutdownNow => exact .inl (kept p.drops_shutdownNow.1 h)
  | look place => exact .inl ((look_frame place).1 h)
  | advance place body => exact .inl ((advance_frame place body).1 ▸ h)
  | finish place result =>
    cases hj : p.jobAt place with
    | none => exact .inl (by rwa [apply, finish_of_jobAt_none hj] at h)
    | some done => exact .inl ((finish_of_jobAt hj _).1 ▸ h)
  | deafen id => exact .inl h
  | drain id => exact .inl h

/-- Every job keeps its channel. -/
theorem length_channels_le_apply (p : Pool β ρ) (e : Event β ρ) :
    p.channels.length ≤ (p.apply e).channels.length := by
  cases e with
  | submit owner urgent body =>
    rw [apply, length_channels_submit]
    exact Nat.le_succ _
  | cancel owner =>
    obtain ⟨jobs, hd, _⟩ := p.drops_cancel owner
    exact Nat.le_of_eq hd.length.symm
  | shutdown => exact Nat.le_refl _
  | shutdownNow => exact Nat.le_of_eq p.drops_shutdownNow.1.length.symm
  | look place =>
    rw [apply, look]
    split
    · exact Nat.le_refl _
    · split <;> exact Nat.le_refl _
    · exact Nat.le_refl _
  | advance place body =>
    exact Nat.le_of_eq (congrArg List.length (advance_frame place body).2.2.symm)
  | finish place result =>
    cases hj : p.jobAt place with
    | none => exact Nat.le_of_eq (by rw [apply, finish_of_jobAt_none hj])
    | some done => exact Nat.le_of_eq (finish_of_jobAt hj _).2.2.1.symm
  | deafen id => exact Nat.le_of_eq (List.length_modify ..).symm
  | drain id => exact Nat.le_of_eq (List.length_modify ..).symm

end Pool

end Troupe
