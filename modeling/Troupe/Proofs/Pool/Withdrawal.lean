import Troupe.Proofs.Pool.Sparing
import Troupe.Proofs.Pool.Termination

/-!
# A withdrawal is a filter

A pool withdraws the jobs of an owner by a walk through the queue that removes as it goes and ends
early, as soon as it has found as many jobs as the owner has records. The records may be more than
the waiting jobs, since running jobs are on record too, and the walk shifts the queue under its own
position. This module shows that none of it matters: what the walk leaves is the queue without the
jobs that were submitted for the owner, in the same order.

Whose a job is, is read off the run: a job was submitted for an owner if the run brings it to that
owner and the pool accepts it. The owner that a waiting job carries tells the same.

## Main definitions

* `Pool.walk` — the walk over positions of a queue that changes on the way

## Main results

* `Pool.walk_eq` — the walk in place splits the queue as the recursion does
* `Pool.Claimed.run` — the owners that jobs carry are those they were submitted for
* `Pool.withdrawal_exact` — what a withdrawal removes, returns, resolves and leaves alone
-/

namespace Troupe

namespace Pool

variable {β ρ : Type} {p : Pool β ρ} {owner : String}

/-! ### The walk in place -/

/-- Goes on with a queue from a position. A job with one of the numbers is removed, and the next one
moves up to its place; else the position moves on. The walk ends with the queue, or as soon as as
many jobs have been removed as there are numbers. -/
def walk (ids : List JobId) (queue : List (Job β)) (position : Nat) (removed : List (Job β)) :
    List (Job β) × List (Job β) :=
  if h : position < queue.length ∧ removed.length < ids.length then
    have hlt := h.1
    if queue[position].id ∈ ids then
      walk ids (queue.eraseIdx position) position (removed ++ [queue[position]])
    else walk ids queue (position + 1) removed
  else (queue, removed)
termination_by queue.length - position
decreasing_by
  · rw [List.length_eraseIdx_of_lt hlt]
    omega
  · omega

/-- The part of the queue that the walk has passed stays, and the rest is split front to back. -/
theorem walk_append (ids : List JobId) (passed rest removed : List (Job β)) :
    walk ids (passed ++ rest) passed.length removed =
      (passed ++ (withdraw ids (ids.length - removed.length) rest).1,
        removed ++ (withdraw ids (ids.length - removed.length) rest).2) := by
  induction rest generalizing passed removed with
  | nil =>
    rw [walk, dif_neg (by simp)]
    cases ids.length - removed.length <;> simp [withdraw]
  | cons job rest ih =>
    rw [walk]
    by_cases hmissing : removed.length < ids.length
    · obtain ⟨missing, hm⟩ := Nat.exists_eq_add_of_lt hmissing
      have hleft : ids.length - removed.length = missing + 1 := by omega
      have hlt : passed.length < (passed ++ job :: rest).length := by simp
      have hat : (passed ++ job :: rest)[passed.length] = job := by simp
      rw [dif_pos ⟨hlt, hmissing⟩, hleft]
      simp only [hat, withdraw]
      by_cases hid : job.id ∈ ids
      · have herase : (passed ++ job :: rest).eraseIdx passed.length = passed ++ rest := by
          simp [List.eraseIdx_append_of_length_le]
        have hnext : ids.length - (removed ++ [job]).length = missing := by
          rw [List.length_append, List.length_singleton]
          omega
        rw [if_pos hid, if_pos hid, herase, ih, hnext]
        simp
      · have hmove := ih (passed ++ [job]) removed
        rw [List.append_assoc, List.length_append, List.length_singleton] at hmove
        rw [if_neg hid, if_neg hid, ← List.singleton_append, hmove, hleft]
        simp
    · rw [dif_neg fun h => hmissing h.2, Nat.sub_eq_zero_of_le (Nat.le_of_not_lt hmissing)]
      simp [withdraw]

/-- **The walk in place** splits a queue as the recursion does. -/
theorem walk_eq (ids : List JobId) (queue : List (Job β)) :
    walk ids queue 0 [] = withdraw ids ids.length queue := by
  simpa using walk_append ids [] queue []

/-! ### Whose a job is -/

/-- The owner that an open job carries tells whether it was accepted for an owner. -/
structure Claimed (p : Pool β ρ) (owner : String) (mine : List JobId) : Prop where
  /-- Both name the same jobs. -/
  owner_iff : ∀ t ∈ p.openLabels, t.2 = some owner ↔ t.1 ∈ mine
  /-- Accepted jobs have a channel. -/
  lt : ∀ id ∈ mine, id < p.channels.length

theorem Claimed.new {name : String} {size : Nat} (h : create name size = .ok p) :
    p.Claimed owner [] := by
  rw [Pool.create] at h
  split at h <;> cases h
  exact ⟨by simp [openLabels, openJobs, running, List.filterMap_replicate], by simp⟩

theorem Claimed.apply {mine : List JobId} (h : p.Claimed owner mine) (hr : p.Reachable)
    (e : Event β ρ) : (p.apply e).Claimed owner (mine ++ (p.claim? owner e).toList) where
  owner_iff t ht := by
    rw [List.mem_append, Option.mem_toList]
    have hclaim : ∀ id, p.claim? owner e = some id → id = p.channels.length := by
      intro id hid
      cases e with
      | submit name urgent body => exact (claim?_submit.mp hid).2.2
      | cancel | shutdown | shutdownNow | look | advance | finish | deafen | drain => cases hid
    rcases mem_openLabels_of_apply ht with hold | ⟨hs, hnew, urgent, body, he⟩
    · -- What the event brings has a number that no open job has yet.
      have hlt := hr.lt_of_open (map_fst_openLabels p ▸ List.mem_map_of_mem hold)
      have hother : p.claim? owner e ≠ some t.1 := fun hid => Nat.ne_of_lt hlt (hclaim _ hid)
      rw [h.owner_iff t hold, or_iff_left hother]
    · have hfresh : t.1 ∉ mine := fun hid => Nat.ne_of_lt (h.lt _ hid) hnew
      rw [or_iff_right hfresh, he, claim?_submit]
      exact ⟨fun howner => ⟨howner, hs, hnew⟩, fun hid => hid.1⟩
  lt id hid := by
    rcases List.mem_append.mp hid with hold | hnew
    · exact Nat.lt_of_lt_of_le (h.lt id hold) (length_channels_le_apply p e)
    · cases e with
      | submit name urgent body =>
        rw [Pool.apply, length_channels_submit,
          (claim?_submit.mp (Option.mem_toList.mp hnew)).2.2]
        exact Nat.lt_succ_self _
      | cancel | shutdown | shutdownNow | look | advance | finish | deafen | drain => cases hnew

/-- **The owner that a job carries** is the one it was submitted for. -/
theorem Claimed.run {name : String} {size : Nat} {p₀ : Pool β ρ} (h : create name size = .ok p₀)
    (owner : String) (events : List (Event β ρ)) :
    (p₀.run events).Claimed owner (claims owner p₀ events) := by
  induction events using List.reverseRecOn with
  | nil => exact .new h
  | append_singleton events e ih =>
    have hr : (p₀.run events).Reachable := ⟨name, size, p₀, events, h, play_fst ..⟩
    rw [claims_append, run_append]
    simpa [claims, Pool.run] using ih.apply hr e

theorem Claimed.queued {mine : List JobId} (h : p.Claimed owner mine) {job : Job β}
    (hjob : job ∈ p.queue) : job.owner = some owner ↔ job.id ∈ mine :=
  h.owner_iff job.label (label_of_queued hjob)

/-! ### What a withdrawal does -/

/-- Nobody who holds the handle of a job that stays sees anything of a withdrawal. -/
theorem Reachable.channel_withdrawal (h : p.Reachable) {id : JobId}
    (hid : id ∉ (p.queue.filter (·.owner = some owner)).map (·.id)) :
    (p.cancel owner).2.channel id = p.channel id := by
  rw [cancel_eq]
  exact channel_discards (by rwa [h.withdrawn_eq])

theorem Reachable.content_withdrawal (h : p.Reachable) {job : Job β} (hjob : job ∈ p.queue)
    (howner : job.owner = some owner) : (p.cancel owner).2.content job.id = .lost := by
  have hmem : job.id ∈ (p.withdrawn owner).map (·.id) := by
    rw [h.withdrawn_eq]
    exact List.mem_map_of_mem (List.mem_filter.mpr ⟨hjob, by simpa using howner⟩)
  rw [(p.drops_withdrawn owner).content, if_pos hmem,
    h.content_of_queued (mem_queuedIds.mpr ⟨job, hjob, rfl⟩), Content.settle_empty]

/-- The handle of a withdrawn job resolves. -/
theorem Reachable.outcome?_withdrawal (h : p.Reachable) {job : Job β} (hjob : job ∈ p.queue)
    (howner : job.owner = some owner) :
    p.outcome? job.id = none ∧ (p.cancel owner).2.outcome? job.id = some (.error .cancelled) :=
  ⟨outcome?_eq_none_iff.mpr (h.content_of_queued (mem_queuedIds.mpr ⟨job, hjob, rfl⟩)),
    outcome?_of_lost (h.content_withdrawal hjob howner)⟩

theorem Reachable.ids_eq_nil_of_withdrawal (h : p.Reachable) (owner : String) :
    (p.cancel owner).2.owners.ids owner = [] := by
  rw [(Booked.withdrawal h owner).records, List.filter_nil]

/-- An owner without records has nothing to withdraw. -/
theorem Reachable.cancel_of_ids_eq_nil (hr : p.Reachable) (h : p.owners.ids owner = []) :
    p.cancel owner = (0, p) := by
  simp [cancel, h, hr.proper.forget_of_ids_eq_nil h]

/-- **A withdrawal is a filter.** After any run of a new pool, the jobs that wait or run carry the
owners they were submitted for. Withdrawing the jobs of one owner leaves the queue without those
that were submitted for it, in the same order, and so does the walk that removes in place and ends
early. It returns the number of pending jobs of the owner, which are then none, as are its records.
The handles of the removed jobs resolve as cancelled, and no other channel changes, not that of a
running job of the owner either. The workers go on, and the jobs, records and counts of others stay.
To withdraw again at once returns nothing and changes nothing. -/
theorem withdrawal_exact {name : String} {size : Nat} {p₀ : Pool β ρ}
    (h : create name size = .ok p₀) (events : List (Event β ρ)) (owner : String) :
    let p := p₀.run events
    let q := (p.cancel owner).2
    let out := p.queue.filter (·.id ∈ claims owner p₀ events)
    (∀ job ∈ p.queue ++ p.running, ∀ who,
        job.owner = some who ↔ job.id ∈ claims who p₀ events) ∧
      q.queue = p.queue.filter (·.id ∉ claims owner p₀ events) ∧
      walk (p.owners.ids owner) p.queue 0 [] = (q.queue, out) ∧
      (p.cancel owner).1 = p.pendingCount owner ∧ p.pendingCount owner = out.length ∧
      (∀ job ∈ out,
        p.outcome? job.id = none ∧ q.outcome? job.id = some (.error .cancelled)) ∧
      (∀ id ∉ out.map (·.id), q.channel id = p.channel id) ∧
      (∀ job ∈ p.running, job.id ∉ out.map (·.id)) ∧
      q.pendingCount owner = 0 ∧ q.outstandingCount owner = 0 ∧
      q.crew = p.crew ∧ q.stopped = p.stopped ∧ q.live = p.live ∧
      (∀ who ≠ some owner,
        q.queue.filter (·.owner = who) = p.queue.filter (·.owner = who)) ∧
      (∀ who ≠ owner, q.owners.ids who = p.owners.ids who ∧
        q.pendingCount who = p.pendingCount who ∧
        q.outstandingCount who = p.outstandingCount who) ∧
      q.cancel owner = (0, q) := by
  intro p q out
  have hr : p.Reachable := ⟨name, size, p₀, events, h, play_fst ..⟩
  have hc : ∀ who, p.Claimed who (claims who p₀ events) := fun who => .run h who events
  have hout : p.queue.filter (·.owner = some owner) = out :=
    List.filter_congr fun _ hjob => decide_eq_decide.mpr ((hc owner).queued hjob)
  have hwithdrawn : p.withdrawn owner = out := (hr.withdrawn_eq owner).trans hout
  have hqueue : q.queue = p.queue.filter (·.owner ≠ some owner) := hr.queue_withdrawal owner
  have hids : q.owners.ids owner = [] := hr.ids_eq_nil_of_withdrawal owner
  have hcount : p.pendingCount owner = out.length := by
    obtain ⟨_, hb⟩ := hr.booked owner
    rw [hb.pendingCount_eq, hout]
  have hsplit : withdraw (p.owners.ids owner) (p.owners.ids owner).length p.queue =
      (q.queue, out) := by
    refine Prod.ext ?_ hwithdrawn
    rw [hr.withdraw_eq]
    exact (hr.queue_cancel owner).symm
  refine ⟨fun job hjob who => (hc who).owner_iff job.label (List.mem_map_of_mem hjob),
    hqueue.trans (List.filter_congr fun _ hjob => ?_), (walk_eq _ _).trans hsplit, ?_, hcount,
    fun job hjob => ?_, fun id hid => ?_, fun job hrun hmem => ?_, ?_, ?_,
    (cancel_frame owner).1, (cancel_frame owner).2, ?_, fun who hne => ?_,
    fun who hne => ⟨hr.ids_withdrawal (Ne.symm hne), ?_, ?_⟩,
    (hr.apply (.cancel owner)).cancel_of_ids_eq_nil hids⟩
  · exact decide_eq_decide.mpr (not_congr ((hc owner).queued hjob))
  · rw [hcount, ← hwithdrawn, cancel_eq]
  · rw [← hout, List.mem_filter, decide_eq_true_iff] at hjob
    exact hr.outcome?_withdrawal hjob.1 hjob.2
  · exact hr.channel_withdrawal (by rwa [hout])
  · -- No job waits and runs.
    obtain ⟨other, hother, hsame⟩ := List.mem_map.mp hmem
    exact (List.nodup_append.mp hr.nodup_open).2.2 _
      (List.mem_map_of_mem (List.mem_filter.mp hother).1) _ (List.mem_map_of_mem hrun) hsame
  · simp [pendingCount, hids]
  · simp [outstandingCount, hids]
  · show (p.cancel owner).2.live = p.live
    rw [cancel_eq, live_discards]
  · rw [hqueue, List.filter_filter]
    refine List.filter_congr fun job _ => ?_
    by_cases hwho : job.owner = who
    · simp [hwho, hne]
    · simp [hwho]
  · exact (hr.spares_cancel owner).pending who hne
  · exact congrArg List.length (hr.ids_withdrawal (Ne.symm hne))

/-- Two owners have jobs in one queue, and the one that withdraws has another job running. -/
theorem withdrawal_exact_mixed :
    let p₀ : Pool Unit Nat := { name := "crew", size := 1, crew := [.awake], live := 1 }
    let events : List (Event Unit Nat) :=
      [.submit (some "a") false (), .look 0, .submit (some "b") false (),
        .submit (some "a") false (), .submit none false (), .submit (some "a") false ()]
    create "crew" 1 = .ok p₀ ∧ (p₀.run events).owners.ids "a" = [0, 2, 4] ∧
      (p₀.run events).queuedIds = [1, 2, 3, 4] ∧
      ((p₀.run events).cancel "a").1 = 2 ∧ ((p₀.run events).cancel "a").2.queuedIds = [1, 3] := by
  intro p₀ events
  have hcreate : create "crew" 1 = .ok p₀ := rfl
  obtain ⟨_, hqueue, _, hreturned, hpending, _⟩ := withdrawal_exact hcreate events "a"
  refine ⟨hcreate, rfl, rfl, ?_, ?_⟩
  · rw [hreturned, hpending]
    rfl
  · rw [queuedIds, hqueue]
    rfl

end Pool

end Troupe
