import Troupe.Proofs.Pool.Bookkeeping

/-!
# What a withdrawal leaves alone

The jobs of all owners stand in one queue, run on the same workers and are recorded in one index. A
withdrawal for one owner goes through all three by numbers. Because the records of an owner are
exact, the numbers lead to the jobs of that owner and to no others: the rest of the queue keeps its
order, the workers go on, other records stay, and whoever holds the handle of another job sees
nothing of it.

## Main definitions

* `Pool.Spares` — what does not touch the jobs of others than one owner
* `Pool.Event.Concerns` — what concerns the jobs of one owner only

## Main results

* `Pool.Reachable.withdrawn_eq` — a withdrawal takes the waiting jobs of the owner
* `Pool.Reachable.spares_run` — what concerns one owner spares all others
-/

namespace Troupe

namespace Pool

variable {β ρ : Type} {p q : Pool β ρ} {owner : String}

/-! ### A withdrawal -/

theorem Reachable.booked (h : p.Reachable) (owner : String) : ∃ lately, p.Booked owner lately := by
  obtain ⟨name, size, p₀, events, hp₀, rfl⟩ := h
  rw [play_fst]
  exact ⟨_, .run hp₀ owner events⟩

/-- **A withdrawal** takes the waiting jobs of the owner. -/
theorem Reachable.withdrawn_eq (h : p.Reachable) (owner : String) :
    p.withdrawn owner = p.queue.filter (·.owner = some owner) := by
  obtain ⟨lately, hb⟩ := h.booked owner
  rw [withdrawn, h.withdraw_eq]
  exact List.filter_congr fun _ hjob => decide_eq_decide.mpr (hb.mem_ids_of_queued hjob)

theorem Reachable.queue_withdrawal (h : p.Reachable) (owner : String) :
    (p.cancel owner).2.queue = p.queue.filter (·.owner ≠ some owner) := by
  obtain ⟨lately, hb⟩ := h.booked owner
  rw [h.queue_cancel]
  exact List.filter_congr fun _ hjob =>
    decide_eq_decide.mpr (not_congr (hb.mem_ids_of_queued hjob))

/-- The records of others stay. -/
theorem Reachable.ids_withdrawal (h : p.Reachable) {owner name : String} (hne : owner ≠ name) :
    (p.cancel owner).2.owners.ids name = p.owners.ids name := by
  rw [ids_cancel hne, h.withdrawn_eq, List.filter_eq_self]
  refine fun id _ => decide_eq_true fun job hjob hname => ?_
  have howner := (List.mem_filter.mp hjob).2
  rw [hname] at howner
  simp [Ne.symm hne] at howner

/-! ### Sparing the jobs of others -/

/-- What does not touch the jobs of others than one owner. -/
structure Spares (owner : String) (p q : Pool β ρ) : Prop where
  /-- Their jobs wait in the same order. -/
  queue : q.queue.filter (·.owner ≠ some owner) = p.queue.filter (·.owner ≠ some owner)
  /-- The workers go on. -/
  crew : q.crew = p.crew
  /-- Their records stay. -/
  ids : ∀ name ≠ owner, q.owners.ids name = p.owners.ids name
  /-- As many of their jobs wait. -/
  pending : ∀ name ≠ owner, q.pendingCount name = p.pendingCount name
  /-- No job is new, and none changes hands. -/
  labels : q.openLabels ⊆ p.openLabels
  /-- Nothing happens to the handles of their jobs. -/
  channel : ∀ job ∈ p.openJobs, job.owner ≠ some owner → q.channel job.id = p.channel job.id

theorem Spares.refl (owner : String) (p : Pool β ρ) : p.Spares owner p :=
  ⟨rfl, rfl, fun _ _ => rfl, fun _ _ => rfl, List.Subset.refl _, fun _ _ _ => rfl⟩

theorem Spares.mem_openJobs (h : p.Spares owner q) {job : Job β} (hjob : job ∈ p.openJobs)
    (hne : job.owner ≠ some owner) : job ∈ q.openJobs := by
  refine List.mem_append.mpr ((List.mem_append.mp hjob).imp (fun hqueued => ?_) fun hrun => ?_)
  · have hmem : job ∈ q.queue.filter (·.owner ≠ some owner) := by
      rw [h.queue]
      exact List.mem_filter.mpr ⟨hqueued, by simpa using hne⟩
    exact (List.mem_filter.mp hmem).1
  · rwa [running_of_crew h.crew]

theorem Spares.trans {r : Pool β ρ} (h : p.Spares owner q) (k : q.Spares owner r) :
    p.Spares owner r :=
  ⟨k.queue.trans h.queue, k.crew.trans h.crew,
    fun name hne => (k.ids name hne).trans (h.ids name hne),
    fun name hne => (k.pending name hne).trans (h.pending name hne),
    List.Subset.trans k.labels h.labels, fun job hjob hne =>
      (k.channel job (h.mem_openJobs hjob hne) hne).trans (h.channel job hjob hne)⟩

/-- What concerns the jobs of one owner only. -/
def Event.Concerns (owner : String) (p : Pool β ρ) : Event β ρ → Prop
  | .cancel name => name = owner
  | .deafen id => ∀ t ∈ p.openLabels, t.1 = id → t.2 = some owner
  | _ => False

theorem channel_onChannel_ne {id k : JobId} (hne : k ≠ id)
    (f : Channel (Except PoolError ρ) → Channel (Except PoolError ρ)) :
    (p.onChannel id f).channel k = p.channel k := by
  rw [channel, onChannel, List.getElem?_modify]
  simp [channel, Ne.symm hne]

theorem channel_discards {jobs : List (Job β)} {id : JobId} (hid : id ∉ jobs.map (·.id)) :
    (jobs.foldl discard p).channel id = p.channel id := by
  induction jobs generalizing p with
  | nil => rfl
  | cons job jobs ih =>
    simp only [List.map_cons, List.mem_cons, not_or] at hid
    rw [List.foldl_cons, ih hid.2, discard, channel_onChannel_ne hid.1, channel,
      (release_frame job).2.2.1, channel]

theorem Reachable.spares_cancel (h : p.Reachable) (owner : String) :
    p.Spares owner (p.cancel owner).2 where
  queue := by simp [h.queue_withdrawal]
  crew := (cancel_frame owner).1
  ids name hne := h.ids_withdrawal (Ne.symm hne)
  pending name hne := by
    obtain ⟨_, hb⟩ := h.booked name
    obtain ⟨_, hb'⟩ := (h.apply (.cancel owner)).booked name
    have hcount : (p.cancel owner).2.pendingCount name = _ := hb'.pendingCount_eq
    have hqueue : (p.apply (.cancel owner)).queue = p.queue.filter (·.owner ≠ some owner) :=
      h.queue_withdrawal owner
    rw [hcount, hb.pendingCount_eq, hqueue, List.filter_filter]
    refine congrArg List.length (List.filter_congr fun job _ => ?_)
    by_cases hname : job.owner = some name
    · simp [hname, hne]
    · simp [hname]
  labels := fun _ ht => (labels_drops (p.drops_withdrawn owner) (running_cancel owner)).subset
    (List.mem_append_right _ ht)
  channel job hjob hne := by
    rw [cancel_eq]
    refine channel_discards ?_
    rw [h.withdrawn_eq]
    rintro hout
    obtain ⟨other, hother, hsame⟩ := List.mem_map.mp hout
    obtain ⟨hmem, howner⟩ := List.mem_filter.mp hother
    have : other = job := List.inj_on_of_nodup_map (f := (·.id))
      (by simpa [openIds, openJobs, queuedIds, runningIds] using h.nodup_open)
      (List.mem_append_left _ hmem) hjob hsame
    exact hne (by simpa [this] using howner)

theorem spares_deafen {id : JobId} (hid : ∀ t ∈ p.openLabels, t.1 = id → t.2 = some owner) :
    p.Spares owner (p.deafen id) := by
  refine ⟨rfl, rfl, fun _ _ => rfl, fun _ _ => rfl, List.Subset.refl _, fun job hjob hne => ?_⟩
  exact channel_onChannel_ne
    (fun hsame => hne (hid job.label (List.mem_map_of_mem hjob) hsame)) _

/-- **What concerns one owner spares all others.** -/
theorem Reachable.spares_run (h : p.Reachable) {events : List (Event β ρ)}
    (hevents : ∀ e ∈ events, e.Concerns owner p) : p.Spares owner (p.run events) := by
  induction events using List.reverseRecOn with
  | nil => exact .refl owner p
  | append_singleton events e ih =>
    have hs := ih fun e he => hevents e (List.mem_append_left _ he)
    have hr : (p.run events).Reachable := h.run events
    have he := hevents e (List.mem_append_right _ (List.mem_singleton_self e))
    rw [run_append]
    refine hs.trans ?_
    cases e with
    | cancel name =>
      obtain rfl : name = owner := he
      exact hr.spares_cancel name
    | deafen id => exact spares_deafen fun t ht => he t (hs.labels ht)
    | submit _ _ _ | shutdown | shutdownNow | look _ | advance _ _ | finish _ _ | drain _ =>
      exact he.elim

end Pool

end Troupe
