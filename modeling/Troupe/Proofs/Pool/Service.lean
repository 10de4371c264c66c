import Troupe.Proofs.Pool.Sparing
import Troupe.Proofs.Pool.Stages
import Troupe.Proofs.Pool.Termination

/-!
# The order of service

A job that is not urgent goes to the tail of the queue and an urgent one to its head, workers take
from the head, and jobs go from the middle when their owners withdraw them. What order comes of it
is seen only of the queue as a whole: in front are the urgent jobs, the last one accepted first,
and behind them the others, the first one accepted first. A withdrawal makes gaps in this order and
does nothing else to it.

Over time there is one more list that keeps its order: the jobs that were started, followed by those
that wait. An event adds members to it or takes members out, and never moves one past another.

## Main definitions

* `Pool.Before` — one job stands before another in a list
* `Pool.urgentIds` — the jobs that a run brought to the head of the queue
* `Pool.Turn` — what an event does to the jobs, all in all
* `Pool.Ranked` — the order of the queue

## Main results

* `Pool.Reachable.turn` — what an event does to the jobs
* `Pool.Ranked.play` — every run leaves the queue in order
* `Pool.before_play` — two jobs that are started are started in the order in which they waited
* `Pool.service_order` — who waits before whom, who is taken next, and what a single worker does
-/

namespace Troupe

namespace Pool

variable {β ρ : Type} {p q : Pool β ρ} {l l' : Ledger ρ} {urgents : List JobId}

/-! ### The order of a list -/

/-- One job stands before another in a list. -/
def Before (ids : List JobId) (x y : JobId) : Prop := [x, y].Sublist ids

instance (ids : List JobId) (x y : JobId) : Decidable (Before ids x y) :=
  inferInstanceAs (Decidable ([x, y].Sublist ids))

/-- Part of a list without repetitions is known by its members. -/
theorem eq_filter_of_sublist {part ids : List JobId} (hnodup : ids.Nodup)
    (h : part.Sublist ids) : part = ids.filter (· ∈ part) := by
  have hsub : part.Sublist (ids.filter (· ∈ part)) := by
    have hself : part.filter (· ∈ part) = part := List.filter_eq_self.mpr (by simp)
    simpa [hself] using h.filter (· ∈ part)
  refine hsub.eq_of_length_le ((hnodup.filter _).length_le_of_subset fun id hid => ?_)
  simpa using (List.mem_filter.mp hid).2

namespace Before

variable {ids more : List JobId} {x y : JobId}

theorem mem (h : Before ids x y) : x ∈ ids ∧ y ∈ ids :=
  ⟨h.subset (by simp), h.subset (by simp)⟩

theorem mono (h : Before ids x y) (hsub : ids.Sublist more) : Before more x y :=
  h.trans hsub

theorem reverse (h : Before ids x y) : Before ids.reverse y x :=
  List.Sublist.reverse h

theorem append (hx : x ∈ ids) (hy : y ∈ more) : Before (ids ++ more) x y :=
  (List.singleton_sublist.mpr hx).append (List.singleton_sublist.mpr hy)

/-- Part of a list has the order of the whole. -/
theorem restrict (hnodup : more.Nodup) (hsub : ids.Sublist more) (h : Before more x y)
    (hx : x ∈ ids) (hy : y ∈ ids) : Before ids x y := by
  have hpair : [x, y].filter (· ∈ ids) = [x, y] := by simp [hx, hy]
  have hfilter := List.Sublist.filter (· ∈ ids) h
  rwa [hpair, ← eq_filter_of_sublist hnodup hsub] at hfilter

theorem asymm (hnodup : ids.Nodup) (h : Before ids x y) : ¬ Before ids y x := by
  intro hback
  have hxy := eq_filter_of_sublist hnodup h
  have hyx := eq_filter_of_sublist hnodup hback
  have hsame : [x, y] = [y, x] := by
    rw [hxy, hyx]
    exact List.filter_congr fun id _ => by simp [or_comm]
  obtain rfl : x = y := (List.cons.inj hsame).1
  simpa using hnodup.sublist h

end Before

/-! ### What an event does to the jobs -/

/-- The number of the job that an event puts at the head of the queue. -/
def urgent? (p : Pool β ρ) : Event β ρ → Option JobId
  | .submit _ true _ => if p.stopped then none else some p.channels.length
  | _ => none

/-- The jobs that were submitted urgently in a run, and accepted, in order. -/
def urgentIds : Pool β ρ → List (Event β ρ) → List JobId
  | _, [] => []
  | p, e :: events => (p.urgent? e).toList ++ urgentIds (p.apply e) events

theorem urgentIds_concat (p : Pool β ρ) (events : List (Event β ρ)) (e : Event β ρ) :
    p.urgentIds (events ++ [e]) = p.urgentIds events ++ ((p.run events).urgent? e).toList := by
  induction events generalizing p with
  | nil => simp [urgentIds, run]
  | cons first events ih => simp [urgentIds, ih, run]

/-- What an event does to the jobs: at most one enters the queue, is started or ends, and else some
may leave the queue. -/
inductive Turn (p q : Pool β ρ) (l l' : Ledger ρ) : Option JobId → Prop where
  /-- A job is accepted and put at the head of the queue or at its tail. -/
  | accept (urgent : Bool)
      (accepted : l'.accepted = l.accepted ++ [p.channels.length])
      (queue : q.queuedIds =
        if urgent then p.channels.length :: p.queuedIds else p.queuedIds ++ [p.channels.length])
      (running : q.runningIds = p.runningIds)
      (started : l'.started = l.started) (ended : l'.endedIds = l.endedIds) :
      Turn p q l l' (if urgent then some p.channels.length else none)
  /-- Some jobs leave the queue, or none. -/
  | leave (accepted : l'.accepted = l.accepted) (queue : q.queuedIds.Sublist p.queuedIds)
      (running : q.runningIds = p.runningIds)
      (started : l'.started = l.started) (ended : l'.endedIds = l.endedIds) : Turn p q l l' none
  /-- The job at the head of the queue is started. -/
  | start (id : JobId) (accepted : l'.accepted = l.accepted)
      (queue : p.queuedIds = id :: q.queuedIds) (running : q.runningIds.Perm (id :: p.runningIds))
      (started : l'.started = l.started ++ [id]) (ended : l'.endedIds = l.endedIds) :
      Turn p q l l' none
  /-- A job that runs ends. -/
  | finish (id : JobId) (accepted : l'.accepted = l.accepted) (queue : q.queuedIds = p.queuedIds)
      (running : p.runningIds.Perm (id :: q.runningIds)) (started : l'.started = l.started)
      (ended : l'.endedIds = l.endedIds ++ [id]) : Turn p q l l' none

theorem turn_submit (p : Pool β ρ) (l : Ledger ρ) (owner : Option String) (urgent : Bool)
    (body : β) : Turn p (p.submit owner urgent body).2 l (l.enter p (.submit owner urgent body))
      (p.urgent? (.submit owner urgent body)) := by
  obtain ⟨hs, he, -⟩ := enter_submit_frame p owner urgent body l
  have hended : (l.enter p (.submit owner urgent body)).endedIds = l.endedIds := by
    rw [Ledger.endedIds, he, Ledger.endedIds]
  have hqueue := queuedIds_submit (p := p) owner urgent body
  have hrun := runningIds_submit (p := p) owner urgent body
  cases hstop : p.stopped with
  | true =>
    have hnone : p.urgent? (.submit owner urgent body) = none := by
      cases urgent <;> simp [urgent?, hstop]
    rw [hnone]
    exact .leave (by simp [Ledger.enter, hstop]) (by simp [hqueue, hstop]) hrun hs hended
  | false =>
    have hsome : p.urgent? (.submit owner urgent body) =
        if urgent then some p.channels.length else none := by
      cases urgent <;> simp [urgent?, hstop]
    rw [hsome]
    exact .accept urgent (by simp [Ledger.enter, hstop]) (by simpa [hstop] using hqueue) hrun hs
      hended

/-- **What an event does to the jobs.** -/
theorem Reachable.turn (h : p.Reachable) (l : Ledger ρ) (e : Event β ρ) :
    Turn p (p.apply e) l (l.enter p e) (p.urgent? e) := by
  cases e with
  | submit owner urgent body => exact turn_submit p l owner urgent body
  | cancel owner =>
    refine .leave rfl ?_ (p.drops_withdrawn owner).running rfl rfl
    rw [Pool.apply, queuedIds, h.queue_withdrawal]
    exact List.filter_sublist.map _
  | shutdown => exact .leave rfl (List.Sublist.refl _) p.drops_shutdown.running rfl rfl
  | shutdownNow =>
    refine .leave rfl ?_ p.drops_shutdownNow.1.running rfl rfl
    have hempty : p.shutdownNow.2.queue = [] := (discards_frame _ _).1
    simp [Pool.apply, queuedIds, hempty]
  | look place =>
    cases hnext : p.next? place with
    | none =>
      obtain ⟨hq, hr, -⟩ := look_of_next?_none hnext
      refine .leave rfl ?_ hr (by simp [Ledger.enter, hnext]) rfl
      simp [Pool.apply, queuedIds, hq]
    | some job =>
      obtain ⟨q, hlook, hq, hr, -⟩ := look_of_next? hnext
      simp only [Pool.apply, hlook, Option.getD_some]
      exact .start job.id rfl hq hr (by simp [Ledger.enter, hnext]) rfl
  | advance place body =>
    obtain ⟨hq, hr, -⟩ := advance_frame (p := p) place body
    refine .leave rfl ?_ hr rfl rfl
    simp [Pool.apply, queuedIds, hq]
  | finish place result =>
    cases hj : p.jobAt place with
    | none =>
      rw [Pool.apply, finish_of_jobAt_none hj]
      refine .leave rfl (List.Sublist.refl _) rfl rfl ?_
      simp [Ledger.enter, Ledger.endedIds, hj]
    | some job =>
      obtain ⟨hq, hr, -⟩ := finish_of_jobAt hj (result.mapError .panicked)
      refine .finish job.id rfl ?_ hr rfl ?_
      · simp [Pool.apply, queuedIds, hq]
      · simp [Ledger.enter, Ledger.endedIds, hj]
  | deafen id | drain id => exact .leave rfl (List.Sublist.refl _) rfl rfl rfl

/-! ### The order of the queue -/

/-- The jobs accepted so far in the order in which they would be served: the urgent ones, the last
one first, and then the others. -/
def ranking (l : Ledger ρ) (urgents : List JobId) : List JobId :=
  (l.accepted.filter (· ∈ urgents)).reverse ++ l.accepted.filter (· ∉ urgents)

/-- The queue is in order. -/
structure Ranked (p : Pool β ρ) (l : Ledger ρ) (urgents : List JobId) : Prop where
  /-- Urgent jobs were accepted, -/
  accepted : urgents ⊆ l.accepted
  /-- and what waits is part of the ranking. -/
  queue : p.queuedIds.Sublist (ranking l urgents)

theorem perm_ranking (l : Ledger ρ) (urgents : List JobId) :
    (ranking l urgents).Perm l.accepted := by
  refine ((List.reverse_perm _).append_right _).trans ?_
  simpa using List.filter_append_perm (· ∈ urgents) l.accepted

/-- A new job comes before all in the ranking if it is urgent, and else after all. -/
theorem ranking_accept {id : JobId} {urgent : Bool} (hid : id ∉ l.accepted)
    (hurgents : urgents ⊆ l.accepted) (haccepted : l'.accepted = l.accepted ++ [id]) :
    ranking l' (urgents ++ (if urgent then some id else none).toList) =
      if urgent then id :: ranking l urgents else ranking l urgents ++ [id] := by
  have hold : ∀ x ∈ l.accepted, x ≠ id := fun x hx heq => hid (heq ▸ hx)
  have hnew : id ∉ urgents := fun h => hid (hurgents h)
  cases urgent with
  | true =>
    have hin : l.accepted.filter (· ∈ urgents ++ [id]) = l.accepted.filter (· ∈ urgents) :=
      List.filter_congr fun x hx => by simp [hold x hx]
    have hout : l.accepted.filter (· ∉ urgents ++ [id]) = l.accepted.filter (· ∉ urgents) :=
      List.filter_congr fun x hx => by simp [hold x hx]
    simp only [ranking, haccepted, if_true, Option.toList_some, List.filter_append, hin, hout]
    simp
  | false => simp [ranking, haccepted, hnew]

theorem Ranked.turn {urgent : Option JobId} (h : p.Ranked l urgents) (hc : p.Conserved l)
    (ht : Turn p q l l' urgent) : q.Ranked l' (urgents ++ urgent.toList) := by
  -- No job is accepted, and the queue gets no new member.
  have smaller : l'.accepted = l.accepted → q.queuedIds.Sublist p.queuedIds →
      q.Ranked l' (urgents ++ (none : Option JobId).toList) := by
    intro haccepted hqueue
    rw [Option.toList_none, List.append_nil]
    refine ⟨haccepted ▸ h.accepted, hqueue.trans ?_⟩
    rw [ranking, haccepted]
    exact h.queue
  cases ht with
  | accept urgent haccepted hqueue =>
    have hfresh : p.channels.length ∉ l.accepted := fun hmem => hc.ne_fresh hmem rfl
    refine ⟨fun id hid => ?_, ?_⟩
    · rw [haccepted]
      rcases List.mem_append.mp hid with hold | hnew
      · exact List.mem_append_left _ (h.accepted hold)
      · cases urgent <;> simp_all
    · rw [hqueue, ranking_accept hfresh h.accepted haccepted]
      cases urgent with
      | true => exact h.queue.cons_cons _
      | false => exact h.queue.append_right _
  | leave haccepted hqueue => exact smaller haccepted hqueue
  | start id haccepted hqueue =>
    exact smaller haccepted (hqueue ▸ List.sublist_cons_self id q.queuedIds)
  | finish id haccepted hqueue => exact smaller haccepted (hqueue ▸ List.Sublist.refl _)

/-- **Every run leaves the queue in order.** -/
theorem Ranked.play {name : String} {size : Nat} {p₀ : Pool β ρ} (h : create name size = .ok p₀)
    (events : List (Event β ρ)) :
    (p₀.play events).1.Ranked (p₀.play events).2 (p₀.urgentIds events) := by
  induction events using List.reverseRecOn with
  | nil =>
    refine ⟨List.nil_subset _, ?_⟩
    rw [show (p₀.play []).1 = p₀ from rfl, queuedIds, queue_of_create h]
    exact List.nil_sublist _
  | append_singleton events e ih =>
    have hr : (p₀.play events).1.Reachable := ⟨name, size, p₀, events, h, rfl⟩
    rw [play_concat, urgentIds_concat, ← play_fst]
    exact ih.turn ((Conserved.create h).play events) (hr.turn _ e)

theorem Ranked.nodup (hc : p.Conserved l) (urgents : List JobId) : (ranking l urgents).Nodup :=
  (perm_ranking l urgents).nodup_iff.mpr hc.nodup

/-- **The queue**, read off the jobs that were accepted. -/
theorem Ranked.queuedIds_eq (h : p.Ranked l urgents) (hc : p.Conserved l) :
    p.queuedIds = (l.accepted.filter fun id => id ∈ urgents ∧ id ∈ p.queuedIds).reverse ++
      l.accepted.filter fun id => id ∉ urgents ∧ id ∈ p.queuedIds := by
  refine (eq_filter_of_sublist (nodup hc urgents) h.queue).trans ?_
  rw [ranking, List.filter_append, List.filter_reverse, List.filter_filter, List.filter_filter]
  simp only [Bool.decide_and, Bool.and_comm]

/-- Of two jobs that wait, the later one is served first if and only if it is urgent. -/
theorem Ranked.before_iff (h : p.Ranked l urgents) (hc : p.Conserved l) {x y : JobId}
    (hx : x ∈ p.queuedIds) (hy : y ∈ p.queuedIds) (hxy : Before l.accepted x y) :
    Before p.queuedIds y x ↔ y ∈ urgents := by
  have hnodup := nodup hc urgents
  have sorted : ∀ {u v : JobId}, u ∈ p.queuedIds → v ∈ p.queuedIds →
      Before (ranking l urgents) u v → Before p.queuedIds u v := fun hu hv huv =>
    huv.restrict hnodup h.queue hu hv
  have hmem : ∀ {id : JobId}, id ∈ p.queuedIds → id ∈ l.accepted := fun hid => hc.queued _ hid
  -- The two parts of the ranking have the order of acceptance, forwards or backwards.
  have inPart : ∀ (f : JobId → Bool), f x = true → f y = true →
      Before (l.accepted.filter f) x y := fun f hfx hfy =>
    hxy.restrict hc.nodup List.filter_sublist (List.mem_filter.mpr ⟨hmem hx, hfx⟩)
      (List.mem_filter.mpr ⟨hmem hy, hfy⟩)
  constructor
  · intro hyx
    by_contra hcommon
    refine hyx.asymm (hnodup.sublist h.queue) (sorted hx hy ?_)
    by_cases hux : x ∈ urgents
    · refine .append (List.mem_reverse.mpr (List.mem_filter.mpr ⟨hmem hx, ?_⟩))
        (List.mem_filter.mpr ⟨hmem hy, ?_⟩) <;> simpa
    · exact (inPart _ (by simpa using hux) (by simpa using hcommon)).mono
        (List.sublist_append_right ..)
  · intro huy
    refine sorted hy hx ?_
    by_cases hux : x ∈ urgents
    · exact (inPart _ (by simpa using hux) (by simpa using huy)).reverse.mono
        (List.sublist_append_left ..)
    · refine .append (List.mem_reverse.mpr (List.mem_filter.mpr ⟨hmem hy, ?_⟩))
        (List.mem_filter.mpr ⟨hmem hx, ?_⟩) <;> simpa

/-! ### The order over time -/

/-- The jobs that were started, followed by those that wait. -/
def lineup (p : Pool β ρ) (l : Ledger ρ) : List JobId := l.started ++ p.queuedIds

theorem Conserved.nodup_lineup (hc : p.Conserved l) : (lineup p l).Nodup :=
  hc.nodup_append hc.started hc.queued fun id f s => by
    cases f with
    | queued | running | finished | withdrawn => simp only [s.1.queued, s.1.started]; decide

/-- An event adds members or takes members out. -/
theorem Turn.lineup {urgent : Option JobId} (ht : Turn p q l l' urgent) :
    (lineup p l).Sublist (lineup q l') ∨ (lineup q l').Sublist (lineup p l) := by
  simp only [Pool.lineup]
  cases ht with
  | accept urgent _ hqueue _ hstarted =>
    refine .inl ?_
    rw [hstarted, hqueue]
    refine List.Sublist.append_left ?_ _
    cases urgent with
    | true => exact List.sublist_cons_self ..
    | false => exact List.sublist_append_left ..
  | leave _ hqueue _ hstarted =>
    rw [hstarted]
    exact .inr (hqueue.append_left _)
  | start id _ hqueue _ hstarted =>
    rw [hstarted, hqueue, List.append_assoc, List.singleton_append]
    exact .inl (List.Sublist.refl _)
  | finish id _ hqueue _ hstarted =>
    rw [hstarted, hqueue]
    exact .inl (List.Sublist.refl _)

theorem Turn.mem_lineup {urgent : Option JobId} (ht : Turn p q l l' urgent) {id : JobId}
    (hid : id ∈ Pool.lineup q l') (hlt : id < p.channels.length) : id ∈ Pool.lineup p l := by
  have hne := Nat.ne_of_lt hlt
  simp only [Pool.lineup, List.mem_append] at hid ⊢
  cases ht with
  | accept urgent _ hqueue _ hstarted =>
    rw [hstarted, hqueue] at hid
    cases urgent <;> simpa [hne] using hid
  | leave _ hqueue _ hstarted =>
    rw [hstarted] at hid
    exact hid.imp_right fun hq => hqueue.subset hq
  | start k _ hqueue _ hstarted =>
    rw [hstarted] at hid
    rw [hqueue]
    simpa [or_assoc] using hid
  | finish k _ hqueue _ hstarted =>
    rwa [hstarted, hqueue] at hid

theorem Turn.before {urgent : Option JobId} (ht : Turn p q l l' urgent) (hc : p.Conserved l)
    {x y : JobId} (h : Before (Pool.lineup p l) x y) (hx : x ∈ Pool.lineup q l')
    (hy : y ∈ Pool.lineup q l') : Before (Pool.lineup q l') x y :=
  ht.lineup.elim h.mono fun hsub => h.restrict hc.nodup_lineup hsub hx hy

/-- **Two jobs that are started are started in the order in which they waited**, whatever happens in
between. -/
theorem before_play {p₀ : Pool β ρ} (hp₀ : p₀.Reachable) (hc₀ : p₀.Conserved {})
    (events later : List (Event β ρ)) {x y : JobId}
    (h : Before (lineup (p₀.play events).1 (p₀.play events).2) x y)
    (hx : x ∈ lineup (p₀.play (events ++ later)).1 (p₀.play (events ++ later)).2)
    (hy : y ∈ lineup (p₀.play (events ++ later)).1 (p₀.play (events ++ later)).2) :
    Before (lineup (p₀.play (events ++ later)).1 (p₀.play (events ++ later)).2) x y := by
  induction later using List.reverseRecOn with
  | nil => simpa using h
  | append_singleton later e ih =>
    have hr : (p₀.play (events ++ later)).1.Reachable := by
      rw [play_fst]
      exact hp₀.run _
    have hc := hc₀.play (events ++ later)
    -- Both have a number already, so neither of them enters with the last event.
    have hlt : ∀ id ∈ lineup (p₀.play events).1 (p₀.play events).2,
        id < (p₀.play (events ++ later)).1.channels.length := by
      intro id hid
      have hce := hc₀.play events
      have hacc : id ∈ (p₀.play events).2.accepted :=
        (List.mem_append.mp hid).elim (hce.started id) (hce.queued id)
      refine Nat.lt_of_lt_of_le (hce.lt id hacc) ?_
      rw [play_fst, play_fst, run_append]
      exact length_channels_le_run _ later
    have ht := hr.turn (p₀.play (events ++ later)).2 e
    rw [← List.append_assoc, play_concat] at hx hy ⊢
    exact ht.before hc (ih (ht.mem_lineup hx (hlt x h.mem.1)) (ht.mem_lineup hy (hlt y h.mem.2)))
      hx hy

/-! ### Workers -/

/-- A worker comes to a job by looking at the queue, and it is the job at the head. -/
theorem next?_of_apply {e : Event β ρ} {place : Nat} {job : Job β}
    (hnew : (p.jobAt place).map (·.id) ≠ some job.id) (hjob : (p.apply e).jobAt place = some job) :
    e = .look place ∧ p.next? place = some job := by
  by_cases he : e.place? = some place
  · cases e with
    | look k =>
      obtain rfl : k = place := by simpa [Event.place?] using he
      refine ⟨rfl, ?_⟩
      rw [apply, look] at hjob
      split at hjob
      · rename_i head queue hw hq
        rw [Option.getD_some, jobAt_set (List.getElem?_eq_some_iff.mp hw).1] at hjob
        simpa [next?, hw, hq] using hjob
      · rename_i hw hq
        have hlt := (List.getElem?_eq_some_iff.mp hw).1
        split at hjob <;> simp [jobAt, hlt] at hjob
      · simp [show p.jobAt k = some job from hjob] at hnew
    | advance k body =>
      obtain rfl : k = place := by simpa [Event.place?] using he
      cases hold : p.jobAt k with
      | none => simp [apply, advance, hold] at hjob
      | some old =>
        rw [apply, jobAt_advance hold] at hjob
        obtain rfl := Option.some.inj hjob
        simp [hold] at hnew
    | finish k result =>
      obtain rfl : k = place := by simpa [Event.place?] using he
      cases hold : p.jobAt k with
      | none => simp [apply, finish, hold] at hjob
      | some old =>
        rw [apply, jobAt, awake_of_finish hold] at hjob
        cases hjob
    | submit | cancel | shutdown | shutdownNow | deafen | drain => cases he
  · rw [jobAt_apply he] at hjob
    simp [hjob] at hnew

theorem length_runningIds_le (p : Pool β ρ) : p.runningIds.length ≤ p.crew.length := by
  rw [runningIds, List.length_map]
  exact List.length_filterMap_le ..

/-- While at most one job runs at a time, a job is started when all that were started before it
have ended. -/
theorem Turn.solo {urgent : Option JobId} (ht : Turn p q l l' urgent)
    (hp : p.runningIds.length ≤ 1) (hq : q.runningIds.length ≤ 1)
    (h : l.started = l.endedIds ++ p.runningIds) : l'.started = l'.endedIds ++ q.runningIds := by
  -- Of two lists that differ by one job, the shorter one is empty.
  have single : ∀ {id : JobId} {ids more : List JobId}, more.Perm (id :: ids) → more.length ≤ 1 →
      ids = [] ∧ more = [id] := by
    intro id ids more hperm hlen
    have hcount := hperm.length_eq
    rw [List.length_cons] at hcount
    obtain rfl : ids = [] := List.eq_nil_of_length_eq_zero (by omega)
    exact ⟨rfl, List.perm_singleton.mp hperm⟩
  cases ht with
  | accept _ _ _ hrunning hstarted hended => rw [hstarted, hended, hrunning, h]
  | leave _ _ hrunning hstarted hended => rw [hstarted, hended, hrunning, h]
  | start id _ _ hrunning hstarted hended =>
    obtain ⟨hnone, hone⟩ := single hrunning hq
    rw [hstarted, hended, h, hnone, hone, List.append_nil]
  | finish id _ _ hrunning hstarted hended =>
    obtain ⟨hnone, hone⟩ := single hrunning hp
    rw [hstarted, hended, h, hnone, hone, List.append_nil]

theorem solo_play {p₀ : Pool β ρ} {name : String} (h : create name 1 = .ok p₀)
    (events : List (Event β ρ)) :
    (p₀.play events).1.runningIds.length ≤ 1 ∧
      (p₀.play events).2.started =
        (p₀.play events).2.endedIds ++ (p₀.play events).1.runningIds := by
  have single : ∀ events, (p₀.play events).1.runningIds.length ≤ 1 := fun events =>
    (Staffed.play h events).size ▸ length_runningIds_le (p₀.play events).1
  refine ⟨single events, ?_⟩
  induction events using List.reverseRecOn with
  | nil =>
    have hnone : p₀.runningIds = [] := by
      rw [create, if_neg Nat.one_ne_zero] at h
      cases h
      rfl
    rw [show (p₀.play []).1 = p₀ from rfl, hnone]
    rfl
  | append_singleton events e ih =>
    have hr : (p₀.play events).1.Reachable := ⟨name, 1, p₀, events, h, rfl⟩
    have hnext := single (events ++ [e])
    rw [play_concat] at hnext ⊢
    exact (hr.turn _ e).solo (single events) hnext ih

/-! ### The order of service -/

/-- **The order of service.** After any run of a new pool, the queue is the accepted jobs that still
wait, in front the urgent ones, the last one accepted first, and behind them the others, the first
one accepted first. So of two waiting jobs the one accepted later stands before the other if and
only if it is urgent. Whatever happens then, two jobs that wait keep their order while both wait;
if both are started, they are started in that order; and the second one is not started while the
first one waits. A worker comes to a job only by taking it from the head of the queue, and that is
the urgent job that was accepted last among those that wait, or else the other job that was accepted
first. A single worker ends each job before it starts the next one. -/
theorem service_order {name : String} {size : Nat} {p₀ : Pool β ρ}
    (h : create name size = .ok p₀) (events : List (Event β ρ)) :
    let p := (p₀.play events).1
    let l := (p₀.play events).2
    let urgent := l.accepted.filter fun id => id ∈ p₀.urgentIds events ∧ id ∈ p.queuedIds
    let common := l.accepted.filter fun id => id ∉ p₀.urgentIds events ∧ id ∈ p.queuedIds
    p.queuedIds = urgent.reverse ++ common ∧
      (∀ x ∈ p.queuedIds, ∀ y ∈ p.queuedIds, Before l.accepted x y →
        (Before p.queuedIds y x ↔ y ∈ p₀.urgentIds events)) ∧
      (∀ later x y, Before p.queuedIds x y →
        let p' := (p₀.play (events ++ later)).1
        let l' := (p₀.play (events ++ later)).2
        (x ∈ p'.queuedIds → y ∈ p'.queuedIds → Before p'.queuedIds x y) ∧
          (x ∈ l'.started → y ∈ l'.started → Before l'.started x y) ∧
          (x ∈ p'.queuedIds → y ∉ l'.started)) ∧
      (∀ e place job, (p.jobAt place).map (·.id) ≠ some job.id →
        (p.apply e).jobAt place = some job →
        e = .look place ∧ p.queuedIds = job.id :: (p.apply e).queuedIds ∧
          (l.enter p e).started = l.started ++ [job.id] ∧
          urgent.getLast?.or common.head? = some job.id) ∧
      (size = 1 → p.runningIds.length ≤ 1 ∧ l.started = l.endedIds ++ p.runningIds) := by
  intro p l urgent common
  have hc : p.Conserved l := (Conserved.create h).play events
  have hranked : p.Ranked l (p₀.urgentIds events) := .play h events
  have hqueue : p.queuedIds = urgent.reverse ++ common := hranked.queuedIds_eq hc
  refine ⟨hqueue, fun x hx y hy hxy => hranked.before_iff hc hx hy hxy, ?_, ?_, ?_⟩
  · intro later x y hxy p' l'
    have hnodup : (lineup p' l').Nodup := ((Conserved.create h).play (events ++ later)).nodup_lineup
    have hboth := before_play (.create h) (.create h) events later
      (hxy.mono (List.sublist_append_right l.started _))
    have waits : ∀ {id}, id ∈ p'.queuedIds → id ∈ lineup p' l' := List.mem_append_right _
    have began : ∀ {id}, id ∈ l'.started → id ∈ lineup p' l' := List.mem_append_left _
    refine ⟨fun hx hy => ?_, fun hx hy => ?_, fun hx hy => ?_⟩
    · exact (hboth (waits hx) (waits hy)).restrict hnodup (List.sublist_append_right ..) hx hy
    · exact (hboth (began hx) (began hy)).restrict hnodup (List.sublist_append_left ..) hx hy
    · exact (hboth (waits hx) (began hy)).asymm hnodup (.append hy hx)
  · intro e place job hnew hjob
    obtain ⟨rfl, hnext⟩ := next?_of_apply hnew hjob
    obtain ⟨q, hlook, hq, -, -⟩ := look_of_next? hnext
    have hhead : p.queuedIds.head? = some job.id := by rw [hq, List.head?_cons]
    refine ⟨rfl, by rw [apply, hlook, Option.getD_some, hq], by simp [Ledger.enter, hnext], ?_⟩
    rw [hqueue, List.head?_append, List.head?_reverse] at hhead
    exact hhead
  · rintro rfl
    exact solo_play h events

/-- Two urgent jobs overtake two others, one of which is withdrawn while a fifth one runs. -/
theorem service_order_overtaken :
    let p₀ : Pool Unit Nat := { name := "crew", size := 1, crew := [.awake], live := 1 }
    let events : List (Event Unit Nat) :=
      [.submit none false (), .look 0, .submit (some "a") false (), .submit none false (),
        .submit none true (), .submit (some "b") true (), .cancel "a", .finish 0 (.ok 7)]
    create "crew" 1 = .ok p₀ ∧ (p₀.play events).1.queuedIds = [4, 3, 2] ∧
      Before (p₀.play events).1.queuedIds 3 2 ∧
      (((p₀.play events).1.apply (.look 0)).jobAt 0).map (·.id) = some 4 ∧
      Before (p₀.play (events ++ [.look 0, .finish 0 (.ok 8), .look 0])).2.started 4 3 ∧
      (p₀.play events).2.started = (p₀.play events).2.endedIds := by
  intro p₀ events
  have hcreate : create "crew" 1 = .ok p₀ := rfl
  obtain ⟨hqueue, hbefore, hlater, -, hsolo⟩ := service_order hcreate events
  have hwaiting : (p₀.play events).1.queuedIds = [4, 3, 2] := by decide +kernel
  have haccepted : (p₀.play events).2.accepted = [0, 1, 2, 3, 4] := by decide +kernel
  have hurgent : p₀.urgentIds events = [3, 4] := by decide +kernel
  have hstarted : (p₀.play (events ++ [.look 0, .finish 0 (.ok 8), .look 0])).2.started =
      [0, 4, 3] := by decide +kernel
  refine ⟨hcreate, hwaiting, ?_, by decide +kernel, ?_, ?_⟩
  · refine (hbefore 2 (by simp [hwaiting]) 3 (by simp [hwaiting]) ?_).mpr (by simp [hurgent])
    rw [haccepted]
    decide
  · refine (hlater _ 4 3 ?_).2.1 (by simp [hstarted]) (by simp [hstarted])
    rw [hwaiting]
    decide
  · have hnone : (p₀.play events).1.runningIds = [] := by decide +kernel
    rw [(hsolo rfl).2, hnone, List.append_nil]

end Pool

end Troupe
