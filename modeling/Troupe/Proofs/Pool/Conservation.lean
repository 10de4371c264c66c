import Mathlib.Data.List.Nodup
import Troupe.Proofs.Pool.Run

/-!
# No job is lost

Submissions, withdrawals, the two ways to shut down and the workers compete for the same jobs.
Whatever their order, a job that was accepted stands in exactly one of four places, and it moves
between them in one direction only.

The place of a job shows in four counts, taken from the queue, from the workers and from the ledger
of the run, and in its channel. `Stands` fixes all of them for each place, so no two places can
hold at once and a job that is counted twice anywhere stands nowhere.

## Main definitions

* `Pool.Fate`, `Pool.Fate.Next` — the four places, and the moves between them
* `Pool.Stands` — a job is in a place
* `Pool.Conserved` — the invariant

## Main results

* `Pool.Conserved.step` — every event keeps the invariant and moves jobs forward
* `Pool.conservation` — the statement for whole runs
-/

namespace Troupe

namespace Pool

variable {β ρ : Type} {p q : Pool β ρ} {l l' : Ledger ρ} {id : JobId}

/-! ### The four places -/

/-- Where an accepted job is. -/
inductive Fate where
  /-- It waits. -/
  | queued
  /-- A worker runs it. -/
  | running
  /-- Its body has ended. -/
  | finished
  /-- It went out of the queue without a worker. -/
  | withdrawn
  deriving DecidableEq

/-- One event moves a job forward by at most one place. -/
inductive Fate.Next : Fate → Fate → Prop where
  /-- It stays. -/
  | stay (f : Fate) : Next f f
  /-- A worker takes it. -/
  | start : Next .queued .running
  /-- Its body ends. -/
  | finish : Next .running .finished
  /-- It is withdrawn or discarded. -/
  | withdraw : Next .queued .withdrawn

/-- How often a job is in the queue and on workers, and how often it was started and ended. -/
structure Traces (p : Pool β ρ) (l : Ledger ρ) (id : JobId) (queued running started ended : Nat) :
    Prop where
  /-- Its places in the queue. -/
  queued : p.queuedIds.count id = queued
  /-- The workers that run it. -/
  running : p.runningIds.count id = running
  /-- How often a worker has taken it. -/
  started : l.started.count id = started
  /-- How often its body has ended. -/
  ended : l.endedIds.count id = ended

/-- The holder of the job's handle sees what the body ended with, until it takes it. -/
def Delivers (p : Pool β ρ) (l : Ledger ρ) (id : JobId) (result : Except String ρ) : Prop :=
  (p.content id = .full (result.mapError .panicked) ∧
    p.outcome? id = some (result.mapError .panicked)) ∨ (p.content id = .drained ∧ id ∈ l.taken)

/-- A job is in a place. Its handle resolves only in the last two. -/
def Stands (p : Pool β ρ) (l : Ledger ρ) (id : JobId) : Fate → Prop
  | .queued => Traces p l id 1 0 0 0 ∧ p.outcome? id = none
  | .running => Traces p l id 0 1 1 0 ∧ p.outcome? id = none
  | .finished => Traces p l id 0 0 1 1 ∧ ∃ result, (id, result) ∈ l.ended ∧ p.Delivers l id result
  | .withdrawn =>
    Traces p l id 0 0 0 0 ∧ p.content id = .lost ∧ p.outcome? id = some (.error .cancelled)

/-- The accepted jobs that were withdrawn or discarded. -/
def withdrawnIds (p : Pool β ρ) (l : Ledger ρ) : List JobId :=
  l.accepted.filter fun id => (p.content id).isLost

theorem outcome?_eq_none_iff : p.outcome? id = none ↔ p.content id = .empty := by
  rw [outcome?, Channel.peek, content]
  cases (p.channel id).content <;> simp

theorem outcome?_of_full {o : Except PoolError ρ} (h : p.content id = .full o) :
    p.outcome? id = some o := by
  rw [content] at h
  simp [outcome?, Channel.peek, h]

theorem outcome?_of_lost (h : p.content id = .lost) : p.outcome? id = some (.error .cancelled) := by
  rw [content] at h
  simp [outcome?, Channel.peek, h]

/-- The counts of two places differ, so a job has one place. -/
theorem Stands.unique {f g : Fate} (hf : Stands p l id f) (hg : Stands p l id g) : f = g := by
  cases f <;> cases g <;>
    first
    | rfl
    | have := hf.1.queued.symm.trans hg.1.queued
      have := hf.1.started.symm.trans hg.1.started
      have := hf.1.ended.symm.trans hg.1.ended
      omega

theorem Stands.eq_queued {f : Fate} (h : Stands p l id f) (hq : id ∈ p.queuedIds) :
    f = .queued := by
  have hpos := List.count_pos_iff.mpr hq
  cases f with
  | queued => rfl
  | running | finished | withdrawn => rw [h.1.queued] at hpos; omega

theorem Stands.eq_running {f : Fate} (h : Stands p l id f) (hr : id ∈ p.runningIds) :
    f = .running := by
  have hpos := List.count_pos_iff.mpr hr
  cases f with
  | running => rfl
  | queued | finished | withdrawn => rw [h.1.running] at hpos; omega

/-- A job stays where it is if nothing about it changes. -/
theorem Stands.congr {f : Fate} (h : Stands p l id f)
    (hq : q.queuedIds.count id = p.queuedIds.count id)
    (hr : q.runningIds.count id = p.runningIds.count id)
    (hs : l'.started.count id = l.started.count id)
    (he : l'.endedIds.count id = l.endedIds.count id)
    (hended : ∀ x ∈ l.ended, x ∈ l'.ended) (htaken : ∀ x ∈ l.taken, x ∈ l'.taken)
    (hc : q.content id = p.content id) : Stands q l' id f := by
  have traces : ∀ {a b c d : Nat}, Traces p l id a b c d → Traces q l' id a b c d :=
    fun t => ⟨hq.trans t.queued, hr.trans t.running, hs.trans t.started, he.trans t.ended⟩
  have pending : p.outcome? id = none → q.outcome? id = none := by
    simp only [outcome?_eq_none_iff, hc, imp_self]
  cases f with
  | queued => exact ⟨traces h.1, pending h.2⟩
  | running => exact ⟨traces h.1, pending h.2⟩
  | finished =>
    obtain ⟨ht, result, hmem, hd⟩ := h
    refine ⟨traces ht, result, hended _ hmem, ?_⟩
    rcases hd with ⟨hfull, _⟩ | ⟨hdrained, htk⟩
    · exact .inl ⟨hc.trans hfull, outcome?_of_full (hc.trans hfull)⟩
    · exact .inr ⟨hc.trans hdrained, htaken _ htk⟩
  | withdrawn => exact ⟨traces h.1, hc.trans h.2.1, outcome?_of_lost (hc.trans h.2.1)⟩

theorem Stands.content_eq_lost_iff {f : Fate} (h : Stands p l id f) :
    p.content id = .lost ↔ f = .withdrawn := by
  cases f with
  | queued => simp [outcome?_eq_none_iff.mp h.2]
  | running => simp [outcome?_eq_none_iff.mp h.2]
  | finished =>
    obtain ⟨_, result, _, ⟨hfull, _⟩ | ⟨hdrained, _⟩⟩ := h
    · simp [hfull]
    · simp [hdrained]
  | withdrawn => simp [h.2.1]

/-! ### The invariant -/

/-- Only accepted jobs are anywhere, each accepted job is somewhere, and clients were told of every
job that was withdrawn. -/
structure Conserved (p : Pool β ρ) (l : Ledger ρ) : Prop where
  /-- No number is given twice. -/
  nodup : l.accepted.Nodup
  /-- Every accepted job has a channel. -/
  lt : ∀ id ∈ l.accepted, id < p.channels.length
  /-- Only accepted jobs wait. -/
  queued : ∀ id ∈ p.queuedIds, id ∈ l.accepted
  /-- Only accepted jobs run. -/
  running : ∀ id ∈ p.runningIds, id ∈ l.accepted
  /-- Only accepted jobs were started. -/
  started : ∀ id ∈ l.started, id ∈ l.accepted
  /-- Only accepted jobs have ended. -/
  ended : ∀ id ∈ l.endedIds, id ∈ l.accepted
  /-- Every accepted job has a place. -/
  stands : ∀ id ∈ l.accepted, ∃ f, Stands p l id f
  /-- Every withdrawn job was counted once. -/
  returned : l.returned = (p.withdrawnIds l).length

/-- What an event does: it keeps the invariant and moves every accepted job forward. -/
structure Steps (p : Pool β ρ) (l : Ledger ρ) (q : Pool β ρ) (l' : Ledger ρ) : Prop where
  /-- The invariant is kept. -/
  conserved : Conserved q l'
  /-- Jobs move forward. -/
  moves : ∀ id ∈ l.accepted, ∀ f, Stands p l id f → ∃ f', f.Next f' ∧ Stands q l' id f'

theorem Conserved.create {name : String} {size : Nat} (h : create name size = .ok p) :
    Conserved p {} := by
  rw [Pool.create] at h
  split at h
  · cases h
  · cases h
    refine ⟨.nil, by simp, by simp [queuedIds], ?_, by simp, by simp [Ledger.endedIds], by simp,
      rfl⟩
    simp [runningIds, Pool.running, List.mem_replicate]

/-- An event that touches neither the queue nor the workers, and settles no channel. -/
theorem Conserved.quiet (h : Conserved p l) (hq : q.queuedIds = p.queuedIds)
    (hr : q.runningIds = p.runningIds) (hlen : q.channels.length = p.channels.length)
    (hc : ∀ id, q.content id = p.content id) : Steps p l q l := by
  have stands : ∀ {id f}, Stands p l id f → Stands q l id f := fun s =>
    s.congr (by rw [hq]) (by rw [hr]) rfl rfl (fun _ => id) (fun _ => id) (hc _)
  refine ⟨⟨h.nodup, by simpa [hlen] using h.lt, by simpa [hq] using h.queued,
    by simpa [hr] using h.running, h.started, h.ended, fun id hid => ?_, ?_⟩,
    fun id _ f s => ⟨f, .stay f, stands s⟩⟩
  · obtain ⟨f, s⟩ := h.stands id hid
    exact ⟨f, stands s⟩
  · simp only [h.returned, withdrawnIds, hc]

/-! ### One event -/

/-- Nothing changes about the earlier jobs, since the new number is none of theirs. -/
theorem Stands.submit {id : JobId} {f : Fate} (s : Stands p l id f) (hne : id ≠ p.channels.length)
    (owner : Option String) (urgent : Bool) (body : β) :
    Stands (p.submit owner urgent body).2 (l.enter p (.submit owner urgent body)) id f := by
  obtain ⟨hs, he, ht⟩ := enter_submit_frame p owner urgent body l
  refine s.congr ?_ (by rw [runningIds_submit]) (by rw [hs])
    (by rw [Ledger.endedIds, he, Ledger.endedIds]) (by simp [he]) (by simp [ht])
    (by rw [content_submit, if_neg hne])
  rw [queuedIds_submit]
  cases p.stopped <;> cases urgent <;> simp [hne.symm]

theorem Conserved.ne_fresh (h : Conserved p l) {id : JobId} (hid : id ∈ l.accepted) :
    id ≠ p.channels.length :=
  Nat.ne_of_lt (h.lt id hid)

theorem Conserved.stands_submit (h : Conserved p l) (owner : Option String) (urgent : Bool)
    (body : β) : ∀ id ∈ l.accepted, ∃ f, Stands (p.submit owner urgent body).2
      (l.enter p (.submit owner urgent body)) id f := by
  intro id hid
  obtain ⟨f, s⟩ := h.stands id hid
  exact ⟨f, s.submit (h.ne_fresh hid) owner urgent body⟩

theorem Conserved.withdrawnIds_submit (h : Conserved p l) (owner : Option String) (urgent : Bool)
    (body : β) : (p.submit owner urgent body).2.withdrawnIds l = p.withdrawnIds l := by
  rw [withdrawnIds, withdrawnIds]
  refine List.filter_congr fun id hid => ?_
  rw [content_submit, if_neg (h.ne_fresh hid)]

/-- A pool that is shut down refuses. -/
theorem Conserved.refuse (h : Conserved p l) (hs : p.stopped = true) (owner : Option String)
    (urgent : Bool) (body : β) :
    Conserved (p.submit owner urgent body).2 (l.enter p (.submit owner urgent body)) := by
  have hl : l.enter p (.submit owner urgent body) = l := by simp [Ledger.enter, hs]
  have hqueue := queuedIds_submit (p := p) owner urgent body
  have hrun := runningIds_submit (p := p) owner urgent body
  have hlen := length_channels_submit (p := p) owner urgent body
  have old := h.stands_submit owner urgent body
  rw [hl] at old ⊢
  refine ⟨h.nodup, fun id hid => hlen ▸ Nat.lt_succ_of_lt (h.lt id hid),
    by simpa [hqueue, hs] using h.queued, by simpa [hrun] using h.running, h.started, h.ended,
    old, ?_⟩
  rw [h.withdrawnIds_submit owner urgent body]
  exact h.returned

/-- A pool that is not shut down takes a new job into its queue. -/
theorem Conserved.accept (h : Conserved p l) (hs : p.stopped = false) (owner : Option String)
    (urgent : Bool) (body : β) :
    Conserved (p.submit owner urgent body).2 (l.enter p (.submit owner urgent body)) := by
  have hl : l.enter p (.submit owner urgent body) =
      { l with accepted := l.accepted ++ [p.channels.length] } := by simp [Ledger.enter, hs]
  have hqueue := queuedIds_submit (p := p) owner urgent body
  have hrun := runningIds_submit (p := p) owner urgent body
  have hlen := length_channels_submit (p := p) owner urgent body
  have hnew : (p.submit owner urgent body).2.content p.channels.length = .empty := by
    simp [content_submit, hs]
  -- The new number is on none of the lists.
  have none_of : ∀ {ids : List JobId}, (∀ id ∈ ids, id ∈ l.accepted) →
      ids.count p.channels.length = 0 := fun hids =>
    List.count_eq_zero_of_not_mem fun hmem => h.ne_fresh (hids _ hmem) rfl
  have old := h.stands_submit owner urgent body
  rw [hl] at old ⊢
  refine ⟨?_, ?_, ?_, ?_, ?_, ?_, ?_, ?_⟩
  · refine List.nodup_append.mpr ⟨h.nodup, List.nodup_singleton _, ?_⟩
    intro a ha b hb
    rw [List.mem_singleton.mp hb]
    exact h.ne_fresh ha
  · intro id hid
    rw [hlen]
    rcases List.mem_append.mp hid with hid | hid
    · exact Nat.lt_succ_of_lt (h.lt id hid)
    · exact List.mem_singleton.mp hid ▸ Nat.lt_succ_self _
  · intro id hid
    rw [hqueue] at hid
    have : id = p.channels.length ∨ id ∈ p.queuedIds := by
      cases urgent <;> simp [hs] at hid <;> tauto
    rcases this with rfl | hid
    · simp
    · exact List.mem_append_left _ (h.queued id hid)
  · exact fun id hid => List.mem_append_left _ (h.running id (hrun ▸ hid))
  · exact fun id hid => List.mem_append_left _ (h.started id hid)
  · exact fun id hid => List.mem_append_left _ (h.ended id hid)
  · intro id hid
    rcases List.mem_append.mp hid with hid | hid
    · exact old id hid
    · obtain rfl := List.mem_singleton.mp hid
      refine ⟨.queued, ⟨?_, ?_, none_of h.started, none_of h.ended⟩, outcome?_eq_none_iff.mpr hnew⟩
      · rw [hqueue]
        have := none_of h.queued
        cases urgent <;> simp [hs, this]
      · rw [hrun]
        exact none_of h.running
  · have hlast : ([p.channels.length].filter fun id =>
        ((p.submit owner urgent body).2.content id).isLost) = [] := by
      simp [hnew, Content.isLost]
    have hold := h.withdrawnIds_submit owner urgent body
    rw [withdrawnIds] at hold
    rw [withdrawnIds, List.filter_append, hlast, List.append_nil, hold]
    exact h.returned

theorem Conserved.submit (h : Conserved p l) (owner : Option String) (urgent : Bool) (body : β) :
    Steps p l (p.submit owner urgent body).2 (l.enter p (.submit owner urgent body)) := by
  refine ⟨?_, fun id hid f s => ⟨f, .stay f, s.submit (h.ne_fresh hid) owner urgent body⟩⟩
  cases hs : p.stopped with
  | true => exact h.refuse hs owner urgent body
  | false => exact h.accept hs owner urgent body

theorem Drops.perm_queuedIds {jobs : List (Job β)} (hd : p.Drops jobs q) :
    (jobs.map (·.id) ++ q.queuedIds).Perm p.queuedIds := by
  simpa [queuedIds] using hd.queue.map (·.id)

theorem Drops.mem_queuedIds {jobs : List (Job β)} (hd : p.Drops jobs q) {id : JobId}
    (hid : id ∈ jobs.map (·.id)) : id ∈ p.queuedIds :=
  hd.perm_queuedIds.subset (List.mem_append_left _ hid)

theorem Drops.count_queuedIds {jobs : List (Job β)} (hd : p.Drops jobs q) (id : JobId) :
    p.queuedIds.count id = (jobs.map (·.id)).count id + q.queuedIds.count id := by
  rw [← hd.perm_queuedIds.count_eq, List.count_append]

/-- A job that is not dropped stands where it stood. -/
theorem Stands.keep {jobs : List (Job β)} (hd : p.Drops jobs q) {id : JobId} {f : Fate}
    (s : Stands p l id f) (hid : id ∉ jobs.map (·.id)) (n : Nat) :
    Stands q { l with returned := n } id f := by
  refine s.congr ?_ (by rw [hd.running]) rfl rfl (fun _ hx => hx) (fun _ hx => hx) ?_
  · rw [hd.count_queuedIds, List.count_eq_zero_of_not_mem hid, Nat.zero_add]
  · exact (hd.content id).trans (if_neg hid)

/-- A job that is dropped was queued, and is withdrawn. -/
theorem Stands.drop {jobs : List (Job β)} (hd : p.Drops jobs q) {id : JobId} {f : Fate}
    (s : Stands p l id f) (hid : id ∈ jobs.map (·.id)) (n : Nat) :
    f = .queued ∧ Stands q { l with returned := n } id .withdrawn := by
  obtain rfl := s.eq_queued (hd.mem_queuedIds hid)
  obtain ⟨ht, hpend⟩ := s
  have hlost : q.content id = .lost := by
    rw [hd.content, if_pos hid, outcome?_eq_none_iff.mp hpend, Content.settle_empty]
  have hgone : q.queuedIds.count id = 0 := by
    have := List.count_pos_iff.mpr hid
    have := ht.queued.symm.trans (hd.count_queuedIds id)
    omega
  exact ⟨rfl, ⟨hgone, hd.running ▸ ht.running, ht.started, ht.ended⟩, hlost,
    outcome?_of_lost hlost⟩

/-- The lost jobs are those lost before and those that went out just now. -/
theorem Conserved.perm_withdrawnIds (h : Conserved p l) {jobs : List (Job β)}
    (hd : p.Drops jobs q) : (q.withdrawnIds l).Perm (p.withdrawnIds l ++ jobs.map (·.id)) := by
  have hqueued : ∀ id ∈ jobs.map (·.id), id ∈ l.accepted ∧ Stands p l id .queued := by
    intro id hid
    have hacc := h.queued id (hd.mem_queuedIds hid)
    obtain ⟨f, s⟩ := h.stands id hacc
    obtain rfl := s.eq_queued (hd.mem_queuedIds hid)
    exact ⟨hacc, s⟩
  refine (List.perm_ext_iff_of_nodup (h.nodup.filter _) ?_).mpr fun id => ?_
  · refine List.nodup_append.mpr ⟨h.nodup.filter _, ?_, ?_⟩
    · refine List.nodup_iff_count_le_one.mpr fun id => ?_
      by_cases hid : id ∈ jobs.map (·.id)
      · have := (hqueued id hid).2.1.queued.symm.trans (hd.count_queuedIds id)
        omega
      · rw [List.count_eq_zero_of_not_mem hid]
        exact Nat.zero_le 1
    · rintro a ha b hb rfl
      have hlost := (List.mem_filter.mp ha).2
      rw [Content.isLost_iff, (hqueued a hb).2.content_eq_lost_iff] at hlost
      cases hlost
  · by_cases hid : id ∈ jobs.map (·.id)
    · obtain ⟨hacc, s⟩ := hqueued id hid
      have hlost := (s.drop hd hid 0).2.2.1
      simp only [withdrawnIds, List.mem_append, hid, or_true, iff_true]
      exact List.mem_filter.mpr ⟨hacc, Content.isLost_iff.mpr hlost⟩
    · have hsame : q.content id = p.content id := (hd.content id).trans (if_neg hid)
      simp only [withdrawnIds, List.mem_append, hid, or_false, List.mem_filter, hsame]

/-- Dropping jobs out of the queue withdraws them, and is counted in full. -/
theorem Conserved.drop (h : Conserved p l) {jobs : List (Job β)} (hd : p.Drops jobs q) :
    Steps p l q { l with returned := l.returned + jobs.length } := by
  have moves : ∀ id ∈ l.accepted, ∀ f, Stands p l id f → ∃ f', f.Next f' ∧
      Stands q { l with returned := l.returned + jobs.length } id f' := by
    intro id _ f s
    by_cases hid : id ∈ jobs.map (·.id)
    · obtain ⟨rfl, s'⟩ := s.drop hd hid (l.returned + jobs.length)
      exact ⟨.withdrawn, .withdraw, s'⟩
    · exact ⟨f, .stay f, s.keep hd hid _⟩
  refine ⟨⟨h.nodup, fun id hid => hd.length ▸ h.lt id hid,
    fun id hid => h.queued id (hd.perm_queuedIds.subset (List.mem_append_right _ hid)),
    fun id hid => h.running id (hd.running ▸ hid), h.started, h.ended, fun id hid => ?_, ?_⟩, moves⟩
  · obtain ⟨f, s⟩ := h.stands id hid
    obtain ⟨f', _, s'⟩ := moves id hid f s
    exact ⟨f', s'⟩
  · have hlen := (h.perm_withdrawnIds hd).length_eq
    rw [List.length_append, List.length_map, ← h.returned] at hlen
    exact hlen.symm

/-- A worker that takes a job starts it. -/
theorem Conserved.start (h : Conserved p l) {job : Job β} (hq : p.queuedIds = job.id :: q.queuedIds)
    (hr : q.runningIds.Perm (job.id :: p.runningIds)) (hc : q.channels = p.channels) :
    Steps p l q { l with started := l.started ++ [job.id] } := by
  have hcontent : ∀ id, q.content id = p.content id := fun id => by
    rw [content, content, channel, channel, hc]
  have hqueued : job.id ∈ p.queuedIds := by simp [hq]
  have hacc : job.id ∈ l.accepted := h.queued _ hqueued
  have moves : ∀ id ∈ l.accepted, ∀ f, Stands p l id f → ∃ f', f.Next f' ∧
      Stands q { l with started := l.started ++ [job.id] } id f' := by
    intro id _ f s
    by_cases hid : id = job.id
    · obtain rfl := s.eq_queued (hid ▸ hqueued)
      obtain ⟨⟨ht₁, ht₂, ht₃, ht₄⟩, hpend⟩ := s
      rw [hq, hid, List.count_cons_self] at ht₁
      refine ⟨.running, .start, ⟨?_, ?_, ?_, ht₄⟩, ?_⟩
      · rw [hid]; omega
      · rw [hr.count_eq, hid, List.count_cons_self, ← hid, ht₂]
      · rw [List.count_append, ht₃, hid]; simp
      · rw [outcome?_eq_none_iff] at hpend ⊢
        exact (hcontent id).trans hpend
    · refine ⟨f, .stay f, s.congr ?_ ?_ ?_ rfl (fun _ hx => hx) (fun _ hx => hx) (hcontent id)⟩
      · rw [hq, List.count_cons_of_ne (Ne.symm hid)]
      · rw [hr.count_eq, List.count_cons_of_ne (Ne.symm hid)]
      · have hzero : [job.id].count id = 0 := List.count_eq_zero_of_not_mem (by simpa using hid)
        rw [List.count_append, hzero, Nat.add_zero]
  refine ⟨⟨h.nodup, by simpa [hc] using h.lt, fun id hid => h.queued id (by simp [hq, hid]),
    fun id hid => ?_, fun id hid => ?_, h.ended, fun id hid => ?_, ?_⟩, moves⟩
  · rcases List.mem_cons.mp (hr.subset hid) with rfl | hid
    · exact hacc
    · exact h.running id hid
  · rcases List.mem_append.mp hid with hid | hid
    · exact h.started id hid
    · exact List.mem_singleton.mp hid ▸ hacc
  · obtain ⟨f, s⟩ := h.stands id hid
    obtain ⟨f', _, s'⟩ := moves id hid f s
    exact ⟨f', s'⟩
  · simp only [h.returned, withdrawnIds, hcontent]

/-- A worker that ends its job finishes it. -/
theorem Conserved.finish (h : Conserved p l) {place : Nat} {job : Job β}
    (hj : p.jobAt place = some job) (result : Except String ρ) :
    Steps p l (p.finish place (result.mapError .panicked))
      { l with ended := l.ended ++ [(job.id, result)] } := by
  obtain ⟨hq, hr, hlen, hcont⟩ := finish_of_jobAt hj (result.mapError .panicked)
  have hrunning := mem_runningIds_of_jobAt hj
  set q := p.finish place (result.mapError .panicked)
  set l' : Ledger ρ := { l with ended := l.ended ++ [(job.id, result)] } with hl'
  have hended : l'.endedIds = l.endedIds ++ [job.id] := by simp [hl', Ledger.endedIds]
  have hqueue : q.queuedIds = p.queuedIds := by simp only [queuedIds, hq]
  have moves : ∀ id ∈ l.accepted, ∀ f, Stands p l id f → ∃ f', f.Next f' ∧
      Stands q l' id f' := by
    intro id hacc f s
    by_cases hid : id = job.id
    · obtain rfl := s.eq_running (hid ▸ hrunning)
      obtain ⟨⟨ht₁, ht₂, ht₃, ht₄⟩, hpend⟩ := s
      have hfull : q.content id = .full (result.mapError .panicked) := by
        rw [hcont id (h.lt id hacc), if_pos hid, outcome?_eq_none_iff.mp hpend,
          Content.settle_empty]
      rw [hr.count_eq, hid, List.count_cons_self] at ht₂
      refine ⟨.finished, .finish, ⟨hqueue ▸ ht₁, ?_, ht₃, ?_⟩, result, ?_,
        .inl ⟨hfull, outcome?_of_full hfull⟩⟩
      · rw [hid]; omega
      · rw [hended, List.count_append, ht₄, hid]; simp
      · simp [hl', hid]
    · refine ⟨f, .stay f, s.congr (by rw [hqueue]) ?_ rfl ?_ (fun _ hx => List.mem_append_left _ hx)
        (fun _ hx => hx) ?_⟩
      · rw [hr.count_eq, List.count_cons_of_ne (Ne.symm hid)]
      · have hzero : [job.id].count id = 0 := List.count_eq_zero_of_not_mem (by simpa using hid)
        rw [hended, List.count_append, hzero, Nat.add_zero]
      · rw [hcont id (h.lt id hacc), if_neg hid]
  have hacc : job.id ∈ l.accepted := h.running _ hrunning
  refine ⟨⟨h.nodup, fun id hid => hlen ▸ h.lt id hid, fun id hid => h.queued id (hqueue ▸ hid),
    fun id hid => h.running id (hr.symm.subset (List.mem_cons_of_mem _ hid)), h.started,
    fun id hid => ?_, fun id hid => ?_, ?_⟩, moves⟩
  · rcases List.mem_append.mp (hended ▸ hid) with hid | hid
    · exact h.ended id hid
    · exact List.mem_singleton.mp hid ▸ hacc
  · obtain ⟨f, s⟩ := h.stands id hid
    obtain ⟨f', _, s'⟩ := moves id hid f s
    exact ⟨f', s'⟩
  · show l.returned = _
    rw [h.returned, withdrawnIds, withdrawnIds]
    refine congrArg List.length (List.filter_congr fun id hid => ?_)
    obtain ⟨f, s⟩ := h.stands id hid
    obtain ⟨f', hnext, s'⟩ := moves id hid f s
    -- An event that ends a body takes no job to or from the withdrawn ones.
    rw [Bool.eq_iff_iff, Content.isLost_iff, Content.isLost_iff, s.content_eq_lost_iff,
      s'.content_eq_lost_iff]
    cases hnext with
    | stay => rfl
    | start | finish => simp
    | withdraw =>
      have hqd := List.count_pos_iff.mp (s.1.queued ▸ Nat.one_pos)
      rw [← hqueue] at hqd
      cases s'.eq_queued hqd

/-- A client that takes an outcome empties its channel. -/
theorem Conserved.drain (h : Conserved p l) (id : JobId) :
    Steps p l (p.drain id) { l with taken := l.taken ++ [id] } := by
  have hcont : ∀ k, (p.drain id).content k =
      if k = id ∧ k < p.channels.length then (p.content k).drain else p.content k := fun k => by
    rw [Pool.drain, content_onChannel, Channel.content_drain, content]
  have stands : ∀ k f, Stands p l k f →
      Stands (p.drain id) { l with taken := l.taken ++ [id] } k f := by
    intro k f s
    by_cases hk : k = id ∧ k < p.channels.length
    · have hdrain := (hcont k).trans (if_pos hk)
      cases f with
      | queued | running =>
        refine ⟨⟨s.1.queued, s.1.running, s.1.started, s.1.ended⟩, ?_⟩
        rw [outcome?_eq_none_iff, hdrain, Content.drain_eq_empty, ← outcome?_eq_none_iff]
        exact s.2
      | finished =>
        obtain ⟨ht, result, hmem, hd⟩ := s
        refine ⟨⟨ht.queued, ht.running, ht.started, ht.ended⟩, result, hmem, .inr ⟨?_, ?_⟩⟩
        · rcases hd with ⟨hfull, _⟩ | ⟨hdrained, _⟩
          · rw [hdrain, hfull]; rfl
          · rw [hdrain, hdrained]; rfl
        · simp [hk.1]
      | withdrawn =>
        have hlost : (p.drain id).content k = .lost := by
          rw [hdrain, Content.drain_eq_lost]
          exact s.2.1
        exact ⟨⟨s.1.queued, s.1.running, s.1.started, s.1.ended⟩, hlost, outcome?_of_lost hlost⟩
    · exact s.congr rfl rfl rfl rfl (fun _ hx => hx) (fun _ hx => List.mem_append_left _ hx)
        ((hcont k).trans (if_neg hk))
  refine ⟨⟨h.nodup, fun k hk => by simpa [Pool.drain] using h.lt k hk, h.queued, h.running,
    h.started, h.ended, fun k hk => ?_, ?_⟩, fun k _ f s => ⟨f, .stay f, stands k f s⟩⟩
  · obtain ⟨f, s⟩ := h.stands k hk
    exact ⟨f, stands k f s⟩
  · show l.returned = _
    rw [h.returned, withdrawnIds, withdrawnIds]
    refine congrArg List.length (List.filter_congr fun k _ => ?_)
    rw [Bool.eq_iff_iff, Content.isLost_iff, Content.isLost_iff, hcont]
    split <;> simp

/-- **Every event keeps the invariant and moves jobs forward.** -/
theorem Conserved.step (h : Conserved p l) (e : Event β ρ) :
    Steps p l (p.apply e) (l.enter p e) := by
  cases e with
  | submit owner urgent body => exact h.submit owner urgent body
  | cancel owner =>
    obtain ⟨jobs, hd, hn⟩ := drops_cancel p owner
    simpa only [apply, Ledger.enter, hn] using h.drop hd
  | shutdown => simpa [apply, Ledger.enter] using h.drop p.drops_shutdown
  | shutdownNow =>
    obtain ⟨hd, hn⟩ := drops_shutdownNow p
    simpa only [apply, Ledger.enter, hn] using h.drop hd
  | look place =>
    cases hnext : p.next? place with
    | none =>
      obtain ⟨hq, hr, hc⟩ := look_of_next?_none hnext
      simpa [apply, Ledger.enter, hnext] using h.quiet (q := (p.look place).getD p)
        (by simp only [queuedIds, hq]) hr (by rw [hc]) fun id => by
          rw [content, content, channel, channel, hc]
    | some job =>
      obtain ⟨q, hlook, hq, hr, hc⟩ := look_of_next? hnext
      simpa [apply, Ledger.enter, hnext, hlook] using h.start hq hr hc
  | advance place body =>
    obtain ⟨hq, hr, hc⟩ := advance_frame (p := p) place body
    exact h.quiet (by simp only [apply, queuedIds, hq]) hr (by simp only [apply, hc]) fun id => by
      rw [content, content, channel, channel, apply, hc]
  | finish place result =>
    cases hj : p.jobAt place with
    | none =>
      have hsame := finish_of_jobAt_none hj (result.mapError .panicked)
      simpa [apply, Ledger.enter, hj, hsame] using h.quiet rfl rfl rfl fun _ => rfl
    | some job => simpa [apply, Ledger.enter, hj] using h.finish hj result
  | deafen id =>
    refine h.quiet rfl rfl (by simp [apply, Pool.deafen]) fun k => ?_
    rw [apply, Pool.deafen, content_onChannel, Channel.content_deafen]
    split <;> rfl
  | drain id => exact h.drain id

theorem Conserved.play {p₀ : Pool β ρ} (h : Conserved p₀ {}) (events : List (Event β ρ)) :
    Conserved (p₀.play events).1 (p₀.play events).2 := by
  induction events using List.reverseRecOn with
  | nil => exact h
  | append_singleton events e ih => rw [play_concat]; exact (ih.step e).conserved

/-! ### Whole runs -/

/-- **Conservation.** After any run of a new pool, every accepted job is in exactly one of the four
places; the next event, whatever it is, moves it forward by at most one place; and the numbers that
clients were told add up to the number of withdrawn jobs. -/
theorem conservation {name : String} {size : Nat} {p₀ : Pool β ρ}
    (h : create name size = .ok p₀) (events : List (Event β ρ)) :
    let p := (p₀.play events).1
    let l := (p₀.play events).2
    l.accepted.Nodup ∧
      (∀ id ∈ l.accepted, ∃! f, Stands p l id f) ∧
      (∀ id ∈ l.accepted, ∀ e f f', Stands p l id f →
        Stands (p₀.play (events ++ [e])).1 (p₀.play (events ++ [e])).2 id f' → f.Next f') ∧
      (∀ id, id ∈ p.withdrawnIds l ↔ id ∈ l.accepted ∧ Stands p l id .withdrawn) ∧
      l.returned = (p.withdrawnIds l).length := by
  intro p l
  have hc : Conserved p l := (Conserved.create h).play events
  refine ⟨hc.nodup, fun id hid => ?_, fun id hid e f f' s s' => ?_, fun id => ?_, hc.returned⟩
  · obtain ⟨f, s⟩ := hc.stands id hid
    exact ⟨f, s, fun g sg => sg.unique s⟩
  · rw [play_concat] at s'
    obtain ⟨g, hnext, sg⟩ := (hc.step e).moves id hid f s
    exact s'.unique sg ▸ hnext
  · constructor
    · intro hid
      obtain ⟨hacc, hlost⟩ := List.mem_filter.mp hid
      obtain ⟨f, s⟩ := hc.stands id hacc
      obtain rfl := s.content_eq_lost_iff.mp (Content.isLost_iff.mp hlost)
      exact ⟨hacc, s⟩
    · rintro ⟨hacc, s⟩
      exact List.mem_filter.mpr ⟨hacc, Content.isLost_iff.mpr s.2.1⟩

/-- An urgent job overtakes another one, which is withdrawn while the urgent one runs. -/
theorem conservation_overtaken :
    let p₀ : Pool Unit Nat := { name := "crew", size := 1, crew := [.awake], live := 1 }
    let events : List (Event Unit Nat) :=
      [.submit (some "a") false (), .submit (some "b") true (), .look 0, .cancel "a",
        .finish 0 (.ok 7)]
    create "crew" 1 = .ok p₀ ∧ (p₀.play events).2.accepted = [0, 1] ∧
      (∃! f, Stands (p₀.play events).1 (p₀.play events).2 0 f) ∧
      ((p₀.play events).1.withdrawnIds (p₀.play events).2).length = 1 ∧
      (p₀.play events).1.outcome? 1 = some (.ok 7) := by
  intro p₀ events
  have hcreate : create "crew" 1 = .ok p₀ := rfl
  have hc := conservation hcreate events
  exact ⟨hcreate, rfl, hc.2.1 0 (by decide), hc.2.2.2.2.symm, rfl⟩

end Pool

end Troupe
