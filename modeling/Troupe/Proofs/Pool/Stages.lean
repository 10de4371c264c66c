import Troupe.Proofs.Pool.Attention

/-!
# One job on its way

A job waits, runs on one worker, and ends by filling its channel; or it is withdrawn while it
waits. Events of the pool move it along this way, and no event moves it back: who works on a job
goes on with it whatever clients and other workers do, and what is in its channel stays there until
somebody takes it out.

## Main definitions

* `Pool.Event.place?` — the worker that an event is about

## Main results

* `Pool.Reachable.queued_apply` — what becomes of a waiting job
* `Pool.jobAt_apply`, `Pool.Reachable.place_unique` — a running job stays on its one worker
* `Pool.content_apply` — an ended job stays as it is
* `Pool.Reachable.queued_run`, `jobAt_run`, `content_run` — the same for what clients do in a row
* `Pool.awake_of_finish`, `Pool.look_of_awake` — a worker goes on with the next job
-/

namespace Troupe

theorem Worker.job?_wakeOne {β : Type} (crew : List (Worker β)) (place : Nat) :
    (wakeOne crew)[place]?.bind job? = crew[place]?.bind job? := by
  induction crew generalizing place with
  | nil => rfl
  | cons w crew ih =>
    cases place with
    | zero => cases w <;> rfl
    | succ place =>
      cases w with
      | waiting => rfl
      | awake | busy _ | gone => exact ih place

namespace Pool

variable {β ρ : Type} {p : Pool β ρ} {job : Job β} {place : Nat} {id : JobId}

/-- The worker that an event is about. -/
def Event.place? : Event β ρ → Option Nat
  | .look place | .advance place _ | .finish place _ => some place
  | _ => none

/-! ### Waiting -/

theorem mem_queue_submit (hjob : job ∈ p.queue) (owner : Option String) (urgent : Bool) (body : β) :
    job ∈ (p.submit owner urgent body).2.queue := by
  cases hs : p.stopped
  · cases urgent <;> simp [submit, hs, hjob]
  · simp [submit, hs, hjob]

/-- The job that is submitted waits, or it has been refused. -/
theorem placed_submit (owner : Option String) (urgent : Bool) (body : β) :
    (⟨p.channels.length, owner, body⟩ ∈ (p.submit owner urgent body).2.queue) ∨
      (p.submit owner urgent body).2.content p.channels.length =
        .full (.error (.shutdown p.name)) := by
  cases hs : p.stopped
  · refine .inl ?_
    cases urgent <;> simp [submit, hs]
  · refine .inr ?_
    rw [content_submit, if_pos rfl, if_pos hs]

/-- A job that goes out of the queue unheard is lost. -/
theorem Reachable.queued_drops {q : Pool β ρ} {jobs : List (Job β)} (h : p.Reachable)
    (hd : p.Drops jobs q) (hjob : job ∈ p.queue) : job ∈ q.queue ∨ q.content job.id = .lost := by
  refine (List.mem_append.mp (hd.queue.mem_iff.mpr hjob)).symm.imp_right fun hout => ?_
  have hempty := h.content_of_queued (mem_queuedIds.mpr ⟨job, hjob, rfl⟩)
  rw [hd.content, if_pos (List.mem_map_of_mem hout), hempty]
  rfl

theorem jobAt_set (hlt : place < p.crew.length) (w : Worker β) {queue : List (Job β)} :
    ({ p with queue, crew := p.crew.set place w } : Pool β ρ).jobAt place = w.job? := by
  simp [jobAt, hlt]

/-- A worker that is awake takes the job at the head of the queue. -/
theorem look_of_awake {queue : List (Job β)} (hw : p.crew[place]? = some .awake)
    (hq : p.queue = job :: queue) :
    ∃ q, p.look place = some q ∧ q.jobAt place = some job ∧ q.queue = queue := by
  have hlt := (List.getElem?_eq_some_iff.mp hw).1
  refine ⟨{ p with queue, crew := p.crew.set place (.busy job) }, ?_, jobAt_set hlt _, rfl⟩
  simp only [look, hw, hq]

theorem queued_look (hjob : job ∈ p.queue) :
    job ∈ ((p.look place).getD p).queue ∨ ((p.look place).getD p).jobAt place = some job := by
  cases hw : p.crew[place]? with
  | none => exact .inl (by simpa [look, hw] using hjob)
  | some w =>
    cases w with
    | awake =>
      cases hq : p.queue with
      | nil =>
        rw [hq] at hjob
        cases hjob
      | cons head queue =>
        obtain ⟨q, hlook, hat, rfl⟩ := look_of_awake hw hq
        rw [hlook, Option.getD_some]
        rw [hq] at hjob
        rcases List.mem_cons.mp hjob with rfl | hmem
        · exact .inr hat
        · exact .inl hmem
    | waiting | busy _ | gone => exact .inl (by simpa [look, hw] using hjob)

/-- **A waiting job** goes on waiting, or a worker takes it, or it is lost. -/
theorem Reachable.queued_apply (h : p.Reachable) (hjob : job ∈ p.queue) (e : Event β ρ) :
    job ∈ (p.apply e).queue ∨ (p.apply e).content job.id = .lost ∨
      ∃ place, e = .look place ∧ (p.apply e).jobAt place = some job := by
  cases e with
  | submit owner urgent body => exact .inl (mem_queue_submit hjob owner urgent body)
  | cancel owner =>
    obtain ⟨jobs, hd, _⟩ := p.drops_cancel owner
    exact (h.queued_drops hd hjob).imp_right .inl
  | shutdownNow => exact (h.queued_drops p.drops_shutdownNow.1 hjob).imp_right .inl
  | look place => exact (queued_look hjob).imp_right fun hat => .inr ⟨place, rfl, hat⟩
  | advance place body =>
    refine .inl ?_
    rwa [Pool.apply, (advance_frame place body).1]
  | finish place result =>
    refine .inl ?_
    cases hj : p.jobAt place with
    | none => rwa [Pool.apply, finish_of_jobAt_none hj]
    | some done => rwa [Pool.apply, (finish_of_jobAt hj _).1]
  | shutdown | deafen _ | drain _ => exact .inl hjob

/-! ### Running -/

theorem jobAt_submit (owner : Option String) (urgent : Bool) (body : β) (place : Nat) :
    (p.submit owner urgent body).2.jobAt place = p.jobAt place := by
  cases hs : p.stopped
  · simp only [submit, hs, Bool.false_eq_true, if_false, jobAt]
    exact Worker.job?_wakeOne p.crew place
  · simp [submit, hs, jobAt]

theorem jobAt_woken {q : Pool β ρ} (h : q.crew = p.crew.map Worker.woken) (place : Nat) :
    q.jobAt place = p.jobAt place := by
  rw [jobAt, jobAt, h, List.getElem?_map]
  cases p.crew[place]? with
  | none => rfl
  | some w => exact Worker.job?_woken w

theorem jobAt_of_set {q : Pool β ρ} {k : Nat} {w : Worker β} (h : q.crew = p.crew.set k w)
    (hk : k ≠ place) : q.jobAt place = p.jobAt place := by
  rw [jobAt, jobAt, h, List.getElem?_set_ne hk]

/-- **A running job** stays on its worker, whatever clients and other workers do. -/
theorem jobAt_apply {e : Event β ρ} (he : e.place? ≠ some place) :
    (p.apply e).jobAt place = p.jobAt place := by
  -- Another worker looks, gets further or ends.
  have other : ∀ {k : Nat}, Event.place? e = some k → k ≠ place := by
    rintro k hk rfl
    exact he hk
  cases e with
  | submit owner urgent body => exact jobAt_submit owner urgent body place
  | cancel owner => rw [apply, jobAt, (cancel_frame owner).1, jobAt]
  | shutdown => exact jobAt_woken rfl place
  | shutdownNow => exact jobAt_woken (discards_frame _ _).2.1 place
  | look k =>
    rw [apply, look]
    split
    · exact jobAt_of_set rfl (other rfl)
    · split
      · exact jobAt_of_set rfl (other rfl)
      · exact jobAt_of_set rfl (other rfl)
    · rfl
  | advance k body =>
    rw [apply, advance]
    split
    · exact jobAt_of_set rfl (other rfl)
    · rfl
  | finish k result =>
    rw [apply, finish]
    split
    · exact jobAt_of_set (w := .awake) (by simp) (other rfl)
    · rfl
  | deafen k => rfl
  | drain k => rfl

theorem lt_of_jobAt (h : p.jobAt place = some job) : place < p.crew.length := by
  obtain ⟨w, hw, _⟩ := Option.bind_eq_some_iff.mp h
  exact (List.getElem?_eq_some_iff.mp hw).1

/-- A worker that gets further keeps its job. -/
theorem jobAt_advance (h : p.jobAt place = some job) (body : β) :
    (p.advance place body).jobAt place = some { job with body } := by
  simp only [advance, h]
  exact jobAt_set (lt_of_jobAt h) _

/-- **No job runs on two workers.** -/
theorem Reachable.place_unique (h : p.Reachable) {k : Nat} {other : Job β}
    (hat : p.jobAt place = some job) (hk : p.jobAt k = some other) (hid : job.id = other.id) :
    place = k := by
  obtain ⟨l, hl⟩ := h.conserved
  have hnodup : (p.crew.filterMap fun w => w.job?.map (·.id)).Nodup := by
    have := (List.nodup_append.mp hl.nodup_places).2.1
    rwa [runningIds, running, List.map_filterMap] at this
  have hpair := List.pairwise_iff_getElem.mp (List.pairwise_filterMap.mp hnodup)
  obtain ⟨w, hw, hwj⟩ := Option.bind_eq_some_iff.mp hat
  obtain ⟨v, hv, hvj⟩ := Option.bind_eq_some_iff.mp hk
  obtain ⟨hi, rfl⟩ := List.getElem?_eq_some_iff.mp hw
  obtain ⟨hj, rfl⟩ := List.getElem?_eq_some_iff.mp hv
  rcases Nat.lt_trichotomy place k with hlt | heq | hgt
  · exact absurd hid (hpair place k hi hj hlt _ (by simp [hwj]) _ (by simp [hvj]))
  · exact heq
  · exact absurd hid.symm (hpair k place hj hi hgt _ (by simp [hvj]) _ (by simp [hwj]))

theorem Reachable.not_running_of_queued (h : p.Reachable) (hid : id ∈ p.queuedIds) :
    id ∉ p.runningIds := by
  obtain ⟨l, hl⟩ := h.conserved
  exact fun hrun => (List.nodup_append.mp hl.nodup_places).2.2 id hid id hrun rfl

theorem Reachable.content_of_running (h : p.Reachable) (hid : id ∈ p.runningIds) :
    p.content id = .empty := by
  obtain ⟨l, hl⟩ := h.conserved
  obtain ⟨f, s⟩ := hl.stands id (hl.running id hid)
  obtain rfl := s.eq_running hid
  exact outcome?_eq_none_iff.mp s.2

theorem lt_of_content_empty (h : p.content id = .empty) : id < p.channels.length := by
  by_contra hge
  rw [content_of_le (Nat.le_of_not_lt hge)] at h
  cases h

/-! ### Ended -/

theorem outcome?_congr {q : Pool β ρ} (h : q.content id = p.content id) :
    q.outcome? id = p.outcome? id := by
  rw [content, content] at h
  rw [outcome?, outcome?, Channel.peek, Channel.peek, h]

/-- **An ended job** stays as it is, until somebody takes its outcome. -/
theorem content_apply (hlt : id < p.channels.length) (hne : p.content id ≠ .empty) {e : Event β ρ}
    (he : e ≠ .drain id) : (p.apply e).content id = p.content id := by
  have dropped : ∀ {jobs : List (Job β)} {q : Pool β ρ}, p.Drops jobs q →
      q.content id = p.content id := by
    intro jobs q hd
    rw [hd.content]
    split
    · exact Content.settle_of_ne hne _
    · rfl
  cases e with
  | submit owner urgent body =>
    rw [apply, content_submit, if_neg (Nat.ne_of_lt hlt)]
  | cancel owner =>
    obtain ⟨jobs, hd, _⟩ := p.drops_cancel owner
    exact dropped hd
  | shutdown => exact dropped p.drops_shutdown
  | shutdownNow => exact dropped p.drops_shutdownNow.1
  | look place =>
    refine content_congr ?_ id
    cases hnext : p.next? place with
    | none => exact (look_of_next?_none hnext).2.2
    | some job =>
      obtain ⟨q, hlook, _, _, hc⟩ := look_of_next? hnext
      rw [apply, hlook]
      exact hc
  | advance place body => exact content_congr (advance_frame place body).2.2 id
  | finish place result =>
    cases hj : p.jobAt place with
    | none => rw [apply, finish_of_jobAt_none hj]
    | some done =>
      rw [apply, (finish_of_jobAt hj _).2.2.2 id hlt]
      split
      · exact Content.settle_of_ne hne _
      · rfl
  | deafen k =>
    rw [apply, deafen, content_onChannel]
    split <;> rfl
  | drain k =>
    rw [apply, drain, content_onChannel, if_neg]
    rintro ⟨rfl, _⟩
    exact he rfl

/-! ### Several events -/

theorem length_channels_le_run (p : Pool β ρ) (es : List (Event β ρ)) :
    p.channels.length ≤ (p.run es).channels.length := by
  induction es generalizing p with
  | nil => exact Nat.le_refl _
  | cons e es ih => exact Nat.le_trans (length_channels_le_apply p e) (ih _)

theorem content_run {es : List (Event β ρ)} (hlt : id < p.channels.length)
    (hne : p.content id ≠ .empty) (hes : ∀ e ∈ es, e ≠ .drain id) :
    (p.run es).content id = p.content id := by
  induction es generalizing p with
  | nil => rfl
  | cons e es ih =>
    have hsame := content_apply hlt hne (hes e List.mem_cons_self)
    have hrest := ih (p := p.apply e) (Nat.lt_of_lt_of_le hlt (length_channels_le_apply p e))
      (by rwa [hsame]) fun e he => hes e (List.mem_cons_of_mem _ he)
    exact hrest.trans hsame

theorem jobAt_run {es : List (Event β ρ)} (hes : ∀ e ∈ es, e.place? ≠ some place) :
    (p.run es).jobAt place = p.jobAt place := by
  induction es generalizing p with
  | nil => rfl
  | cons e es ih =>
    have hrest := ih (p := p.apply e) fun e he => hes e (List.mem_cons_of_mem _ he)
    exact hrest.trans (jobAt_apply (hes e List.mem_cons_self))

/-- What clients do leaves a waiting job where it is, or loses it. -/
theorem Reachable.queued_run {es : List (Event β ρ)} (h : p.Reachable) (hjob : job ∈ p.queue)
    (hes : ∀ e ∈ es, e.place? = none ∧ e ≠ .drain job.id) :
    job ∈ (p.run es).queue ∨ (p.run es).content job.id = .lost := by
  induction es generalizing p with
  | nil => exact .inl hjob
  | cons e es ih =>
    obtain ⟨he, _⟩ := hes e List.mem_cons_self
    have hrest := fun e hmem => hes e (List.mem_cons_of_mem _ hmem)
    have hlt := h.lt_of_queued (mem_queuedIds.mpr ⟨job, hjob, rfl⟩)
    rcases h.queued_apply hjob e with hstays | hlost | ⟨place, rfl, _⟩
    · exact ih (h.apply e) hstays hrest
    · refine .inr ((content_run (p := p.apply e) ?_ (by rw [hlost]; simp) fun e he =>
        (hrest e he).2).trans hlost)
      exact Nat.lt_of_lt_of_le hlt (length_channels_le_apply p e)
    · cases he

/-! ### Going on -/

/-- A worker whose job has ended is awake. -/
theorem awake_of_finish (h : p.jobAt place = some job) (outcome : Except PoolError ρ) :
    (p.finish place outcome).crew[place]? = some .awake := by
  simp [finish, h, lt_of_jobAt h]

end Pool

end Troupe
