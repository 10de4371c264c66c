import Mathlib.Data.List.Induction
import Troupe.Proofs.Pool.Jobs

/-!
# Runs of a pool

Clients and workers act on a pool one at a time, in any order. A run is a list of events; an event
that is not possible, as a look by a worker that sleeps, changes nothing. Beside the pool a run
keeps a ledger, which is what an observer could have written down: the jobs that were accepted,
the jobs that were started, how they ended, and the numbers that clients were told.

## Main definitions

* `Pool.Event`, `Pool.apply`, `Pool.run` — what happens to a pool
* `Pool.Ledger`, `Pool.play` — the pool at the end of a run, with the ledger of the run
* `Pool.next?` — the job that a worker takes
* `Pool.withdrawn` — the jobs that a withdrawal finds

## Main results

* `Pool.queuedIds_submit`, `content_submit` — a submission in the three views
* `Pool.drops_withdrawn`, `drops_shutdownNow` — withdrawing and discarding are of one kind
* `Pool.look_of_next?`, `Pool.finish_of_jobAt` — a job goes to a worker, and ends there
-/

namespace Troupe

namespace Pool

variable {β ρ : Type} {p : Pool β ρ}

/-! ### Events -/

/-- What happens to a pool. -/
inductive Event (β ρ : Type) where
  /-- A client submits a job. -/
  | submit (owner : Option String) (urgent : Bool) (body : β)
  /-- A client withdraws the jobs of an owner. -/
  | cancel (owner : String)
  /-- A client shuts the pool down. -/
  | shutdown
  /-- A client shuts the pool down and drops what waits. -/
  | shutdownNow
  /-- A worker looks at the queue. -/
  | look (place : Nat)
  /-- A worker gets further in its job. -/
  | advance (place : Nat) (body : β)
  /-- A worker ends its job, with a value or with the message of a panic. -/
  | finish (place : Nat) (result : Except String ρ)
  /-- A client drops the handle of a job. -/
  | deafen (id : JobId)
  /-- A client takes the outcome of a job. -/
  | drain (id : JobId)

/-- The pool after an event. -/
def apply (p : Pool β ρ) : Event β ρ → Pool β ρ
  | .submit owner urgent body => (p.submit owner urgent body).2
  | .cancel owner => (p.cancel owner).2
  | .shutdown => p.shutdown
  | .shutdownNow => p.shutdownNow.2
  | .look place => (p.look place).getD p
  | .advance place body => p.advance place body
  | .finish place result => p.finish place (result.mapError .panicked)
  | .deafen id => p.deafen id
  | .drain id => p.drain id

/-- The pool at the end of a run. -/
def run (p : Pool β ρ) (events : List (Event β ρ)) : Pool β ρ := events.foldl apply p

/-- The job that the worker at a place would take: it has to be awake. -/
def next? (p : Pool β ρ) (place : Nat) : Option (Job β) :=
  match p.crew[place]? with
  | some .awake => p.queue.head?
  | _ => none

/-- What has been seen of a run. -/
structure Ledger (ρ : Type) where
  /-- The jobs that were accepted, in order. -/
  accepted : List JobId := []
  /-- The jobs that workers have taken, in order. -/
  started : List JobId := []
  /-- The jobs whose bodies have ended, with what they ended with. -/
  ended : List (JobId × Except String ρ) := []
  /-- The jobs whose outcomes clients have taken. -/
  taken : List JobId := []
  /-- The sum of the numbers that clients were told when they withdrew or dropped jobs. -/
  returned : Nat := 0

/-- The jobs whose bodies have ended. -/
def Ledger.endedIds (l : Ledger ρ) : List JobId := l.ended.map (·.1)

/-- The ledger after an event. -/
def Ledger.enter (p : Pool β ρ) (e : Event β ρ) (l : Ledger ρ) : Ledger ρ :=
  match e with
  | .submit _ _ _ =>
    if p.stopped then l else { l with accepted := l.accepted ++ [p.channels.length] }
  | .cancel owner => { l with returned := l.returned + (p.cancel owner).1 }
  | .shutdownNow => { l with returned := l.returned + p.shutdownNow.1 }
  | .look place => { l with started := l.started ++ (p.next? place).toList.map (·.id) }
  | .finish place result =>
    { l with ended := l.ended ++ (p.jobAt place).toList.map fun job => (job.id, result) }
  | .drain id => { l with taken := l.taken ++ [id] }
  | _ => l

theorem enter_submit_frame (p : Pool β ρ) (owner : Option String) (urgent : Bool) (body : β)
    (l : Ledger ρ) :
    (l.enter p (.submit owner urgent body)).started = l.started ∧
      (l.enter p (.submit owner urgent body)).ended = l.ended ∧
      (l.enter p (.submit owner urgent body)).taken = l.taken := by
  cases hs : p.stopped <;> simp [Ledger.enter, hs]

/-- The pool at the end of a run, and the ledger of the run. -/
def play (p : Pool β ρ) (events : List (Event β ρ)) : Pool β ρ × Ledger ρ :=
  events.foldl (fun s e => (s.1.apply e, s.2.enter s.1 e)) (p, {})

theorem play_concat (p : Pool β ρ) (events : List (Event β ρ)) (e : Event β ρ) :
    p.play (events ++ [e]) =
      ((p.play events).1.apply e, (p.play events).2.enter (p.play events).1 e) := by
  simp [play]

/-- The ledger does not influence the run. -/
theorem play_fst (p : Pool β ρ) (events : List (Event β ρ)) :
    (p.play events).1 = p.run events := by
  induction events using List.reverseRecOn with
  | nil => rfl
  | append_singleton events e ih => rw [play_concat, ih]; simp [run]

/-! ### Submitting -/

theorem queuedIds_submit (owner : Option String) (urgent : Bool) (body : β) :
    (p.submit owner urgent body).2.queuedIds =
      if p.stopped then p.queuedIds
      else if urgent then p.channels.length :: p.queuedIds
      else p.queuedIds ++ [p.channels.length] := by
  rw [submit]
  by_cases hs : p.stopped = true
  · simp [hs, queuedIds]
  · cases urgent <;> simp [hs, queuedIds]

theorem runningIds_submit (owner : Option String) (urgent : Bool) (body : β) :
    (p.submit owner urgent body).2.runningIds = p.runningIds := by
  rw [submit]
  by_cases hs : p.stopped = true
  · simp [hs, runningIds, running]
  · simp [hs, runningIds, running, Worker.filterMap_job?_wakeOne]

theorem length_channels_submit (owner : Option String) (urgent : Bool) (body : β) :
    (p.submit owner urgent body).2.channels.length = p.channels.length + 1 := by
  rw [submit]
  by_cases hs : p.stopped = true <;> simp [hs]

theorem content_submit (owner : Option String) (urgent : Bool) (body : β) (id : JobId) :
    (p.submit owner urgent body).2.content id =
      if id = p.channels.length then
        if p.stopped then .full (.error (.shutdown p.name)) else .empty
      else p.content id := by
  have fresh : ∀ q : Pool β ρ, q.channels = p.channels ++ [({} : Channel _)] →
      q.content id = if id = p.channels.length then .empty else p.content id := by
    intro q hq
    rw [content, channel, hq, List.getElem?_append]
    rcases Nat.lt_trichotomy id p.channels.length with h | rfl | h
    · simp [h, Nat.ne_of_lt h, content, channel]
    · simp
    · have hlost : p.content id = .lost := content_of_le (Nat.le_of_lt h)
      have hsub : id - p.channels.length ≠ 0 := Nat.sub_ne_zero_of_lt h
      simp [Nat.not_lt_of_gt h, Nat.ne_of_gt h, hsub, hlost]
  rw [submit]
  by_cases hs : p.stopped = true
  · simp only [hs, if_true, content_onChannel, content_release]
    by_cases hid : id = p.channels.length
    · simp [hid]
    · simp only [hid, false_and, if_false]
      exact (fresh _ rfl).trans (if_neg hid)
  · simp only [hs]
    exact fresh _ rfl

/-! ### Dropping jobs -/

/-- From one pool to the next, some jobs go out of the queue and their channels are lost. -/
structure Drops (p : Pool β ρ) (jobs : List (Job β)) (q : Pool β ρ) : Prop where
  /-- The queue is split. -/
  queue : (jobs ++ q.queue).Perm p.queue
  /-- The workers go on. -/
  running : q.runningIds = p.runningIds
  /-- No channel is new. -/
  length : q.channels.length = p.channels.length
  /-- The jobs that went out are lost. -/
  content : ∀ id, q.content id =
    if id ∈ jobs.map (·.id) then (p.content id).settle .lost else p.content id

/-- The waiting jobs that a withdrawal finds. -/
def withdrawn (p : Pool β ρ) (owner : String) : List (Job β) :=
  (withdraw (p.owners.ids owner) (p.owners.ids owner).length p.queue).2

/-- An owner without records is no special case: nothing is found. -/
theorem cancel_eq (p : Pool β ρ) (owner : String) :
    p.cancel owner = ((p.withdrawn owner).length, (p.withdrawn owner).foldl discard
      { p with
        owners := p.owners.forget owner
        queue := (withdraw (p.owners.ids owner) (p.owners.ids owner).length p.queue).1 }) := by
  rw [cancel]
  split
  · rename_i hids
    have hnil : p.owners.ids owner = [] := List.isEmpty_iff.mp hids
    simp [withdrawn, hnil, withdraw]
  · rfl

/-- **Withdrawing the jobs of an owner.** The number that comes back is that of the jobs that went
out. -/
theorem drops_withdrawn (p : Pool β ρ) (owner : String) :
    p.Drops (p.withdrawn owner) (p.cancel owner).2 := by
  obtain ⟨hq, hc, _, hl⟩ := discards_frame (p.withdrawn owner)
    { p with
      owners := p.owners.forget owner
      queue := (withdraw (p.owners.ids owner) (p.owners.ids owner).length p.queue).1 }
  rw [cancel_eq]
  refine ⟨?_, ?_, hl, content_discards (p.withdrawn owner) _⟩
  · rw [hq]
    exact perm_withdraw (p.owners.ids owner) (p.owners.ids owner).length p.queue
  · simp only [runningIds, Pool.running, hc]

theorem drops_cancel (p : Pool β ρ) (owner : String) :
    ∃ jobs, p.Drops jobs (p.cancel owner).2 ∧ (p.cancel owner).1 = jobs.length :=
  ⟨_, p.drops_withdrawn owner, congrArg Prod.fst (p.cancel_eq owner)⟩

/-- **Discarding the queue.** The number that comes back is its length. -/
theorem drops_shutdownNow (p : Pool β ρ) :
    p.Drops p.queue p.shutdownNow.2 ∧ p.shutdownNow.1 = p.queue.length := by
  obtain ⟨hq, hc, _, hl⟩ := discards_frame p.queue
    { p with stopped := true, queue := [], crew := p.crew.map Worker.woken }
  refine ⟨⟨?_, ?_, hl, fun id => content_discards p.queue _ id⟩, rfl⟩
  · simp [shutdownNow, hq]
  · simp only [shutdownNow, runningIds, Pool.running, hc, Worker.filterMap_job?_woken]

theorem drops_shutdown (p : Pool β ρ) : p.Drops [] p.shutdown := by
  refine ⟨.refl _, ?_, rfl, fun _ => by simp [Pool.content, channel, shutdown]⟩
  simp only [shutdown, runningIds, Pool.running, Worker.filterMap_job?_woken]

/-! ### Workers -/

/-- A worker that looks either takes the next job, or goes on without one. -/
theorem look_of_next? {place : Nat} {job : Job β} (h : p.next? place = some job) :
    ∃ q, p.look place = some q ∧ p.queuedIds = job.id :: q.queuedIds ∧
      q.runningIds.Perm (job.id :: p.runningIds) ∧ q.channels = p.channels := by
  rw [next?] at h
  split at h
  case h_2 => cases h
  case h_1 hw =>
    obtain ⟨l, r, hold, hset⟩ := Worker.exists_split hw
    cases hq : p.queue with
    | nil => simp [hq] at h
    | cons head queue =>
      obtain rfl : head = job := by simpa [hq] using h
      refine ⟨{ p with queue, crew := p.crew.set place (.busy head) }, by simp only [look, hw, hq],
        by simp [queuedIds, hq], ?_, rfl⟩
      simp only [runningIds, running, hset, hold]
      simp

theorem look_of_next?_none {place : Nat} (h : p.next? place = none) :
    (((p.look place).getD p).queue = p.queue ∧
      ((p.look place).getD p).runningIds = p.runningIds ∧
      ((p.look place).getD p).channels = p.channels) := by
  have settled : ∀ w : Worker β, w.job? = none → p.crew[place]? = some .awake →
      (p.crew.set place w).filterMap Worker.job? = p.crew.filterMap Worker.job? := by
    intro w hw hawake
    obtain ⟨l, r, hold, hset⟩ := Worker.exists_split hawake
    rw [hold, hset, hw, Worker.job?_awake]
  rw [look]
  split
  case h_1 hw hq => simp [next?, hw, hq] at h
  case h_2 hw hq =>
    split
    · simp [runningIds, running, settled .gone rfl hw]
    · simp [runningIds, running, settled .waiting rfl hw]
  case h_3 => exact ⟨rfl, rfl, rfl⟩

theorem advance_frame (place : Nat) (body : β) :
    (p.advance place body).queue = p.queue ∧ (p.advance place body).runningIds = p.runningIds ∧
      (p.advance place body).channels = p.channels := by
  rw [advance]
  cases hj : p.jobAt place with
  | none => exact ⟨rfl, rfl, rfl⟩
  | some job =>
    obtain ⟨w, hw, hwj⟩ := Option.bind_eq_some_iff.mp hj
    obtain ⟨l, r, hold, hset⟩ := Worker.exists_split hw
    refine ⟨rfl, ?_, rfl⟩
    simp [runningIds, running, hold, hset, hwj]

/-- A worker that ends its job sends its outcome. -/
theorem finish_of_jobAt {place : Nat} {job : Job β} (h : p.jobAt place = some job)
    (outcome : Except PoolError ρ) :
    (p.finish place outcome).queue = p.queue ∧
      p.runningIds.Perm (job.id :: (p.finish place outcome).runningIds) ∧
      (p.finish place outcome).channels.length = p.channels.length ∧
      ∀ id, id < p.channels.length → (p.finish place outcome).content id =
        if id = job.id then (p.content id).settle (.full outcome) else p.content id := by
  obtain ⟨w, hw, hwj⟩ := Option.bind_eq_some_iff.mp h
  obtain ⟨l, r, hold, hset⟩ := Worker.exists_split hw
  simp only [finish, h]
  refine ⟨by simp, ?_, by simp, fun id hlt => ?_⟩
  · simp [runningIds, running, hold, hset, hwj]
  · rw [content_onChannel]
    by_cases hid : id = job.id
    · simp [hid, hid ▸ hlt, channel, content]
    · simp only [hid, false_and, if_false, content_release]
      rfl

theorem finish_of_jobAt_none {place : Nat} (h : p.jobAt place = none)
    (outcome : Except PoolError ρ) : p.finish place outcome = p := by
  simp [finish, h]

end Pool

end Troupe
