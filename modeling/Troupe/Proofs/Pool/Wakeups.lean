import Troupe.Proofs.Pool.Service

/-!
# Work is conserved

A client that has submitted a job lets go of the queue before it calls a worker, and a client that
shuts the pool down lets go before it calls all of them. So a call may arrive late: other jobs may
have come in between, a busy worker may have taken the job already, a worker may have gone to sleep
just now, and whoever is called may find nothing. Nor is it fixed who of those that sleep hears the
call.

This module describes pools with calls under way. An event does to the queue what it always does,
and the call that belongs to it comes later, as a step of its own. The runs in which every call
arrives at once are the runs of the pool as it is, so what is shown for late calls holds for these.

What carries the argument is one number: while anybody sleeps, the workers that are awake and the
calls that are under way make up for the jobs that wait.

## Main definitions

* `Pool.Calling`, `Pool.Calling.next`, `Pool.Calling.run` — pools with calls under way
* `Pool.Shift` — what an event does to the queue and the workers, apart from the call
* `Pool.Calling.Heeded` — nobody sleeps or leaves while he is needed, unless a call is under way
* `Pool.Employs` — nobody is idle while there is work

## Main results

* `Pool.Calling.run_promptly` — the runs of a pool are those in which every call arrives at once
* `Pool.Calling.Heeded.next` — the invariant is kept
* `Pool.work_conserved` — the statement for all runs
-/

namespace Troupe

namespace Worker

variable {β : Type}

/-- Whether a worker waits to be woken. -/
def isWaiting : Worker β → Bool
  | .waiting => true
  | _ => false

theorem isWaiting_iff {w : Worker β} : w.isWaiting = true ↔ w = .waiting := by
  cases w <;> simp [isWaiting]

theorem any_isWaiting_iff {crew : List (Worker β)} :
    crew.any isWaiting = true ↔ .waiting ∈ crew := by
  simp [isWaiting_iff]

/-- A call that reaches one of those who wait is a change at one place, if anybody waits. -/
theorem wakeOne_eq (crew : List (Worker β)) :
    (.waiting ∉ crew ∧ wakeOne crew = crew) ∨
      ∃ place, crew[place]? = some .waiting ∧ wakeOne crew = crew.set place .awake := by
  induction crew with
  | nil => exact .inl ⟨List.not_mem_nil, rfl⟩
  | cons w crew ih =>
    cases w with
    | waiting => exact .inr ⟨0, rfl, rfl⟩
    | awake | busy _ | gone =>
      rcases ih with ⟨hnone, hsame⟩ | ⟨place, hat, hset⟩
      · exact .inl ⟨by simpa using hnone, by simp [wakeOne, hsame]⟩
      · exact .inr ⟨place + 1, hat, by simp [wakeOne, hset]⟩

end Worker

namespace Pool

variable {β ρ : Type} {p q : Pool β ρ}

/-! ### Calls under way -/

/-- A pool, and the calls to its workers that have not arrived. -/
structure Calling (β ρ : Type) where
  /-- The pool. -/
  pool : Pool β ρ
  /-- The calls that reach one of those who wait. -/
  ones : Nat := 0
  /-- The calls that reach all who wait. -/
  alls : Nat := 0

/-- What happens to a pool with calls under way. -/
inductive Calling.Move (β ρ : Type) where
  /-- An event, without the call that belongs to it. -/
  | act (e : Event β ρ)
  /-- A call arrives that reaches one of those who wait, and it is the worker at this place. -/
  | one (place : Nat)
  /-- A call arrives that reaches all who wait. -/
  | all

/-- Whether an event calls one worker: it submits a job, and the pool accepts it. -/
def calls (p : Pool β ρ) : Event β ρ → Bool
  | .submit _ _ _ => !p.stopped
  | _ => false

/-- The pool after an event whose call has not arrived. -/
def act (p : Pool β ρ) (e : Event β ρ) : Pool β ρ :=
  if p.calls e || e.stops then { p.apply e with crew := p.crew } else p.apply e

namespace Calling

/-- The next state. A call for one arrives at a worker that waits; only if nobody does, it is lost.
What is not possible changes nothing. -/
def next (s : Calling β ρ) : Move β ρ → Calling β ρ
  | .act e =>
    { pool := s.pool.act e
      ones := s.ones + (s.pool.calls e).toNat
      alls := s.alls + e.stops.toNat }
  | .one place =>
    if s.ones = 0 then s
    else match s.pool.crew[place]? with
      | some .waiting =>
        { s with pool := { s.pool with crew := s.pool.crew.set place .awake }, ones := s.ones - 1 }
      | _ => if s.pool.crew.any Worker.isWaiting then s else { s with ones := s.ones - 1 }
  | .all =>
    if s.alls = 0 then s
    else
      { s with
        pool := { s.pool with crew := s.pool.crew.map Worker.woken }
        alls := s.alls - 1 }

/-- The state at the end of a run. -/
def run (s : Calling β ρ) (moves : List (Move β ρ)) : Calling β ρ := moves.foldl next s

theorem run_append (s : Calling β ρ) (moves more : List (Move β ρ)) :
    s.run (moves ++ more) = (s.run moves).run more :=
  List.foldl_append ..

/-- No worker can take a step, and no call is under way. -/
structure Quiet (s : Calling β ρ) : Prop where
  /-- Nobody is about to look at the queue. -/
  looks : ∀ place, s.pool.look place = none
  /-- No call for one is under way, -/
  ones : s.ones = 0
  /-- and none for all. -/
  alls : s.alls = 0

/-! ### Calls that arrive at once -/

theorem act_of_calls {e : Event β ρ} (h : p.calls e = true) :
    (p.apply e).crew = Worker.wakeOne p.crew ∧ e.stops = false := by
  cases e with
  | submit owner urgent body =>
    have hopen : p.stopped = false := by simpa [Pool.calls] using h
    simp [apply, submit, hopen, Event.stops]
  | cancel | shutdown | shutdownNow | look | advance | finish | deafen | drain => cases h

theorem crew_of_stops {e : Event β ρ} (h : e.stops = true) :
    (p.apply e).crew = p.crew.map Worker.woken ∧ p.calls e = false := by
  cases e with
  | shutdown => exact ⟨rfl, rfl⟩
  | shutdownNow => exact ⟨(discards_frame _ _).2.1, rfl⟩
  | submit | cancel | look | advance | finish | deafen | drain => cases h

/-- **An event** of a pool is the event without the call, followed by the call. -/
theorem next_promptly (p : Pool β ρ) (e : Event β ρ) :
    ∃ moves, run ⟨p, 0, 0⟩ moves = ⟨p.apply e, 0, 0⟩ := by
  by_cases hcalls : p.calls e = true
  · obtain ⟨hcrew, hstops⟩ := act_of_calls hcalls
    rcases Worker.wakeOne_eq p.crew with ⟨hnone, hsame⟩ | ⟨place, hat, hset⟩
    · have hpool : p.act e = p.apply e := by
        rw [act, hcalls, Bool.true_or, if_pos rfl, ← hsame, ← hcrew]
      have hasleep : (p.apply e).crew.any Worker.isWaiting = false := by
        rw [hcrew, hsame, Bool.eq_false_iff, Ne, Worker.any_isWaiting_iff]
        exact hnone
      refine ⟨[.act e, .one p.crew.length], ?_⟩
      have hend : (p.apply e).crew[p.crew.length]? = none := by
        rw [hcrew, hsame, List.getElem?_eq_none (Nat.le_refl _)]
      simp [run, next, hcalls, hstops, hpool, hend, hasleep]
    · have hpool : p.act e = { p.apply e with crew := p.crew } := by
        rw [act, hcalls, Bool.true_or, if_pos rfl]
      refine ⟨[.act e, .one place], ?_⟩
      simp [run, next, hcalls, hstops, hpool, hat, ← hset, ← hcrew]
  · by_cases hstops : e.stops = true
    · obtain ⟨hcrew, hone⟩ := crew_of_stops (p := p) hstops
      have hpool : p.act e = { p.apply e with crew := p.crew } := by
        rw [act, hstops, Bool.or_true, if_pos rfl]
      refine ⟨[.act e, .all], ?_⟩
      simp [run, next, hone, hstops, hpool, ← hcrew]
    · refine ⟨[.act e], ?_⟩
      simp [run, next, act, hcalls, hstops]

/-- **The runs of a pool** are those in which every call arrives at once. -/
theorem run_promptly (p : Pool β ρ) (events : List (Event β ρ)) :
    ∃ moves, run ⟨p, 0, 0⟩ moves = ⟨p.run events, 0, 0⟩ := by
  induction events generalizing p with
  | nil => exact ⟨[], rfl⟩
  | cons e events ih =>
    obtain ⟨first, hfirst⟩ := next_promptly p e
    obtain ⟨rest, hrest⟩ := ih (p.apply e)
    exact ⟨first ++ rest, by rw [run_append, hfirst, hrest]; rfl⟩

end Calling

/-! ### What an event does to the queue and the workers -/

/-- What an event does to the queue and the workers, apart from the call. -/
inductive Shift (p : Pool β ρ) (e : Event β ρ) : Prop where
  /-- Jobs may leave the queue. -/
  | idle (crew : (p.act e).crew = p.crew) (queue : (p.act e).queue.length ≤ p.queue.length)
  /-- A job comes into the queue of a pool that is not shut down, and a call belongs to it. -/
  | enter (called : p.calls e = true) (isOpen : p.stopped = false)
      (crew : (p.act e).crew = p.crew) (queue : (p.act e).queue.length = p.queue.length + 1)
  /-- A worker takes the next job. -/
  | take (place : Nat) (job : Job β) (awake : p.crew[place]? = some .awake)
      (queue : p.queue = job :: (p.act e).queue)
      (crew : (p.act e).crew = p.crew.set place (.busy job))
  /-- A worker finds nothing, and more may come. -/
  | wait (place : Nat) (nothing : (p.act e).queue = []) (isOpen : p.stopped = false)
      (crew : (p.act e).crew = p.crew.set place .waiting)
  /-- A worker finds nothing, and nothing more will come. -/
  | leave (place : Nat) (nothing : (p.act e).queue = []) (stopped : p.stopped = true)
      (crew : (p.act e).crew = p.crew.set place .gone)
  /-- A busy worker goes on or ends its job. -/
  | work (place : Nat) (job : Job β) (new : Worker β) (busy : p.crew[place]? = some (.busy job))
      (stays : new ≠ .waiting ∧ new ≠ .gone) (queue : (p.act e).queue = p.queue)
      (crew : (p.act e).crew = p.crew.set place new)

theorem busy_of_jobAt {place : Nat} {job : Job β} (h : p.jobAt place = some job) :
    p.crew[place]? = some (.busy job) := by
  obtain ⟨w, hw, hwj⟩ := Option.bind_eq_some_iff.mp h
  obtain rfl : w = .busy job := by cases w <;> simp_all [Worker.job?]
  exact hw

theorem act_of_plain {e : Event β ρ} (hcalls : p.calls e = false) (hstops : e.stops = false) :
    p.act e = p.apply e := by
  rw [act, hcalls, hstops, Bool.or_self, if_neg Bool.false_ne_true]

/-- **What an event does**, apart from the call. -/
theorem shift_act (p : Pool β ρ) (e : Event β ρ) : Shift p e := by
  cases e with
  | submit owner urgent body =>
    cases hs : p.stopped with
    | true => refine .idle ?_ ?_ <;> simp [act, calls, Event.stops, hs, apply, submit]
    | false =>
      refine .enter (by simp [calls, hs]) hs ?_ ?_ <;> cases urgent <;>
        simp [act, calls, Event.stops, hs, apply, submit]
  | cancel owner =>
    have hplain : p.act (.cancel owner) = (p.cancel owner).2 := act_of_plain rfl rfl
    have hlen := (p.drops_withdrawn owner).queue.length_eq
    rw [List.length_append] at hlen
    refine .idle (by rw [hplain, (cancel_frame owner).1]) ?_
    rw [hplain]
    omega
  | shutdown => exact .idle rfl (Nat.le_refl _)
  | shutdownNow =>
    have hempty : p.shutdownNow.2.queue = [] := (discards_frame _ _).1
    exact .idle rfl (by simp [act, calls, Event.stops, apply, hempty])
  | look place =>
    have hplain : p.act (.look place) = (p.look place).getD p := act_of_plain rfl rfl
    cases hw : p.crew[place]? with
    | none => exact .idle (by simp [hplain, look, hw]) (by simp [hplain, look, hw])
    | some w =>
      cases w with
      | awake =>
        cases hq : p.queue with
        | cons job queue =>
          refine .take place job hw ?_ ?_ <;> simp [hplain, look, hw, hq]
        | nil =>
          cases hs : p.stopped with
          | true => refine .leave place ?_ hs ?_ <;> simp [hplain, look, hw, hq, hs]
          | false => refine .wait place ?_ hs ?_ <;> simp [hplain, look, hw, hq, hs]
      | waiting | busy _ | gone =>
        exact .idle (by simp [hplain, look, hw]) (by simp [hplain, look, hw])
  | advance place body =>
    have hplain : p.act (.advance place body) = p.advance place body := act_of_plain rfl rfl
    cases hj : p.jobAt place with
    | none => exact .idle (by simp [hplain, advance, hj]) (by simp [hplain, advance, hj])
    | some job =>
      refine .work place job (.busy { job with body }) (busy_of_jobAt hj) (by simp) ?_ ?_ <;>
        simp [hplain, advance, hj]
  | finish place result =>
    have hplain : p.act (.finish place result) = p.finish place (result.mapError .panicked) :=
      act_of_plain rfl rfl
    cases hj : p.jobAt place with
    | none => exact .idle (by simp [hplain, finish, hj]) (by simp [hplain, finish, hj])
    | some job =>
      refine .work place job .awake (busy_of_jobAt hj) (by simp) ?_ ?_ <;>
        simp [hplain, finish, hj]
  | deafen id | drain id => exact .idle rfl (Nat.le_refl _)

/-! ### Nobody is idle while he is needed -/

namespace Calling

variable {s : Calling β ρ}

/-- Nobody sleeps or leaves while he is needed, unless a call is under way. -/
structure Heeded (s : Calling β ρ) : Prop where
  /-- While anybody sleeps, those who are awake and the calls that are under way make up for the
  jobs that wait. -/
  awake : .waiting ∈ s.pool.crew → s.alls = 0 →
    s.pool.queue.length ≤ s.pool.crew.countP Worker.isAwake + s.ones
  /-- Whoever sleeps in a pool that has been shut down will be called. -/
  called : .waiting ∈ s.pool.crew → s.pool.stopped = true → s.alls ≠ 0
  /-- Who leaves leaves nothing behind, and nothing more comes. -/
  left : .gone ∈ s.pool.crew → s.pool.stopped = true ∧ s.pool.queue = []

theorem Heeded.create {name : String} {size : Nat} (h : create name size = .ok p) :
    Heeded ⟨p, 0, 0⟩ := by
  have hnew : ∀ w ∈ p.crew, w = .awake := by
    rw [Pool.create] at h
    split at h <;> cases h
    exact fun w hw => List.eq_of_mem_replicate hw
  have none : ∀ {w : Worker β}, w ≠ .awake → w ∉ p.crew := fun hw hmem => hw (hnew _ hmem)
  exact ⟨fun hw => absurd hw (none (by simp)), fun hw => absurd hw (none (by simp)),
    fun hw => absurd hw (none (by simp))⟩

theorem stopped_act (p : Pool β ρ) (e : Event β ρ) :
    (p.act e).stopped = (p.stopped || e.stops) := by
  rw [act, ← stopped_apply]
  split <;> rfl

theorem mem_of_mem_set {crew : List (Worker β)} {place : Nat} {w new : Worker β}
    (hw : w ∈ crew.set place new) (hne : w ≠ new) : w ∈ crew :=
  (List.mem_or_eq_of_mem_set hw).resolve_right hne

/-- A worker goes over to something else. -/
theorem countP_isAwake_set {crew : List (Worker β)} {place : Nat} {old : Worker β}
    (h : crew[place]? = some old) (new : Worker β) :
    (crew.set place new).countP Worker.isAwake + old.isAwake.toNat =
      crew.countP Worker.isAwake + new.isAwake.toNat := by
  obtain ⟨hlt, rfl⟩ := List.getElem?_eq_some_iff.mp h
  have hpos : crew[place].isAwake = true → 0 < crew.countP Worker.isAwake := fun ho =>
    List.countP_pos_iff.mpr ⟨_, List.getElem_mem hlt, ho⟩
  rw [List.countP_set hlt]
  cases hold : crew[place].isAwake <;> cases new.isAwake <;> simp_all

theorem Heeded.act (h : s.Heeded) (e : Event β ρ) : (s.next (.act e)).Heeded := by
  have hstop := stopped_act s.pool e
  -- Who shuts the pool down calls all; and if it is shut already, they are being called.
  have called : .waiting ∈ s.pool.crew ∨ s.pool.stopped = false →
      (s.pool.act e).stopped = true → s.alls + e.stops.toNat ≠ 0 := by
    intro hw hs
    cases he : e.stops with
    | true => exact Nat.succ_ne_zero _
    | false =>
      rw [hstop, he, Bool.or_false] at hs
      have hcalled := h.called (hw.resolve_right (by simp [hs])) hs
      simpa using hcalled
  have shut : s.pool.stopped = true → (s.pool.act e).stopped = true := fun hs => by
    rw [hstop, hs, Bool.true_or]
  have noAll : s.alls + e.stops.toNat = 0 → s.alls = 0 := fun hz => by omega
  cases shift_act s.pool e with
  | idle hcrew hqueue =>
    refine ⟨fun hw hz => ?_, fun hw => called (.inl (hcrew ▸ hw)), fun hg => ?_⟩
    · have := h.awake (hcrew ▸ hw) (noAll hz)
      simp only [next, hcrew]
      omega
    · obtain ⟨hs, hnil⟩ := h.left (hcrew ▸ hg)
      have hnone : (s.pool.act e).queue = [] := by simpa [hnil] using hqueue
      exact ⟨shut hs, hnone⟩
  | enter hcalled hopen hcrew hqueue =>
    refine ⟨fun hw hz => ?_, fun hw => called (.inl (hcrew ▸ hw)), fun hg => ?_⟩
    · have := h.awake (hcrew ▸ hw) (noAll hz)
      simp only [next, hcrew, hqueue, hcalled, Bool.toNat_true]
      omega
    · have := (h.left (hcrew ▸ hg)).1
      simp [hopen] at this
  | take place job hat hqueue hcrew =>
    refine ⟨fun hw hz => ?_, fun hw => called (.inl ?_), fun hg => ?_⟩
    · have hold := h.awake (mem_of_mem_set (hcrew ▸ hw) (by simp)) (noAll hz)
      have hcount := countP_isAwake_set hat (.busy job)
      rw [hqueue, List.length_cons] at hold
      simp only [next, hcrew]
      simp only [Worker.isAwake, Bool.toNat_true, Bool.toNat_false] at hcount
      omega
    · exact mem_of_mem_set (hcrew ▸ hw) (by simp)
    · have hnil := (h.left (mem_of_mem_set (hcrew ▸ hg) (by simp))).2
      rw [hqueue] at hnil
      cases hnil
  | wait place hnil hopen hcrew =>
    refine ⟨fun _ _ => by simp [next, hnil], fun _ => called (.inr hopen), fun hg => ?_⟩
    exact ⟨shut (h.left (mem_of_mem_set (hcrew ▸ hg) (by simp))).1, hnil⟩
  | leave place hnil hs hcrew =>
    exact ⟨fun _ _ => by simp [next, hnil],
      fun hw => called (.inl (mem_of_mem_set (hcrew ▸ hw) (by simp))), fun _ => ⟨shut hs, hnil⟩⟩
  | work place job new hat hstays hqueue hcrew =>
    refine ⟨fun hw hz => ?_, fun hw => called (.inl ?_), fun hg => ?_⟩
    · have hold := h.awake (mem_of_mem_set (hcrew ▸ hw) (Ne.symm hstays.1)) (noAll hz)
      have hcount := countP_isAwake_set hat new
      simp only [next, hcrew, hqueue]
      simp only [Worker.isAwake, Bool.toNat_false] at hcount
      omega
    · exact mem_of_mem_set (hcrew ▸ hw) (Ne.symm hstays.1)
    · exact (h.left (mem_of_mem_set (hcrew ▸ hg) (Ne.symm hstays.2))).imp shut (hqueue.trans ·)

theorem Heeded.one (h : s.Heeded) (place : Nat) : (s.next (.one place)).Heeded := by
  by_cases hones : s.ones = 0
  · simpa [next, hones] using h
  by_cases hat : s.pool.crew[place]? = some .waiting
  · -- The call is turned into somebody who is awake.
    have hnext : s.next (.one place) = { s with
        pool := { s.pool with crew := s.pool.crew.set place .awake }, ones := s.ones - 1 } := by
      simp [next, hones, hat]
    rw [hnext]
    refine ⟨fun hw hz => ?_, fun hw hs => h.called (mem_of_mem_set hw (by simp)) hs,
      fun hg => h.left (mem_of_mem_set hg (by simp))⟩
    have hold := h.awake (mem_of_mem_set hw (by simp)) hz
    have hcount := countP_isAwake_set hat .awake
    simp only [Worker.isAwake, Bool.toNat_true, Bool.toNat_false] at hcount
    show s.pool.queue.length ≤ (s.pool.crew.set place .awake).countP _ + (s.ones - 1)
    omega
  · have hnext : s.next (.one place) =
        if s.pool.crew.any Worker.isWaiting then s else { s with ones := s.ones - 1 } := by
      simp only [next, hones, if_false]
    rw [hnext]
    split
    · exact h
    · rename_i hnone
      rw [Worker.any_isWaiting_iff] at hnone
      exact ⟨fun hw => absurd hw hnone, h.called, h.left⟩

theorem Heeded.all (h : s.Heeded) : (s.next .all).Heeded := by
  rw [next]
  split
  · exact h
  · have hnone : .waiting ∉ s.pool.crew.map Worker.woken := by
      intro hw
      obtain ⟨w, -, hw⟩ := List.mem_map.mp hw
      cases w <;> cases hw
    refine ⟨fun hw => absurd hw hnone, fun hw => absurd hw hnone, fun hg => h.left ?_⟩
    obtain ⟨w, hmem, hw⟩ := List.mem_map.mp hg
    obtain rfl : w = .gone := by cases w <;> first | rfl | cases hw
    exact hmem

/-- **Every step keeps the invariant.** -/
theorem Heeded.next (h : s.Heeded) (m : Move β ρ) : (s.next m).Heeded := by
  cases m with
  | act e => exact h.act e
  | one place => exact h.one place
  | all => exact h.all

theorem Heeded.run (h : s.Heeded) (moves : List (Move β ρ)) : (s.run moves).Heeded := by
  induction moves generalizing s with
  | nil => exact h
  | cons m moves ih => exact ih (h.next m)

theorem length_crew_next (s : Calling β ρ) (m : Move β ρ) :
    (s.next m).pool.crew.length = s.pool.crew.length := by
  cases m with
  | act e =>
    show (s.pool.act e).crew.length = _
    cases shift_act s.pool e with
    | idle hcrew | enter _ _ hcrew => rw [hcrew]
    | take _ _ _ _ hcrew | wait _ _ _ hcrew | leave _ _ _ hcrew | work _ _ _ _ _ _ hcrew =>
      rw [hcrew, List.length_set]
  | one place =>
    simp only [Calling.next]
    split
    · rfl
    · split
      · exact List.length_set ..
      · split <;> rfl
  | all =>
    simp only [Calling.next]
    split
    · rfl
    · exact List.length_map ..

theorem length_crew_run (s : Calling β ρ) (moves : List (Move β ρ)) :
    (s.run moves).pool.crew.length = s.pool.crew.length := by
  induction moves generalizing s with
  | nil => rfl
  | cons m moves ih => exact (ih (s.next m)).trans (length_crew_next s m)

/-! ### Quiet states -/

/-- In a quiet state nobody is awake. -/
theorem Quiet.not_awake (h : s.Quiet) : .awake ∉ s.pool.crew := by
  intro hw
  obtain ⟨place, hplace⟩ := List.mem_iff_getElem?.mp hw
  have hstuck := h.looks place
  rw [look, hplace] at hstuck
  cases hq : s.pool.queue with
  | nil =>
    rw [hq] at hstuck
    dsimp only at hstuck
    split at hstuck <;> cases hstuck
  | cons job queue =>
    rw [hq] at hstuck
    cases hstuck

/-- Where nobody is awake and no call is under way, only jobs that run keep others waiting. -/
theorem Heeded.busy (h : s.Heeded) (hquiet : s.Quiet) (hqueue : s.pool.queue ≠ []) :
    ∀ w ∈ s.pool.crew, ∃ job, w = .busy job := by
  intro w hw
  cases w with
  | busy job => exact ⟨job, rfl⟩
  | awake => exact absurd hw hquiet.not_awake
  | gone => exact absurd (h.left hw).2 hqueue
  | waiting =>
    have hlen := h.awake hw hquiet.alls
    have hnone : s.pool.crew.countP Worker.isAwake = 0 := by
      refine List.countP_eq_zero.mpr fun v hv hva => ?_
      cases v with
      | awake => exact hquiet.not_awake hv
      | waiting | busy _ | gone => cases hva
    rw [hnone, hquiet.ones] at hlen
    exact absurd (List.eq_nil_of_length_eq_zero (Nat.le_zero.mp hlen)) hqueue

/-- Nobody waits for work in a pool that has been shut down. -/
theorem Heeded.shut (h : s.Heeded) (hquiet : s.Quiet) (hstop : s.pool.stopped = true) :
    ∀ w ∈ s.pool.crew, (∃ job, w = .busy job) ∨ w = .gone := by
  intro w hw
  cases w with
  | busy job => exact .inl ⟨job, rfl⟩
  | gone => exact .inr rfl
  | awake => exact absurd hw hquiet.not_awake
  | waiting => exact absurd hquiet.alls (h.called hw hstop)

end Calling

/-- Nobody is idle while there is work. -/
structure Employs (size : Nat) (p : Pool β ρ) (quiet : Prop) : Prop where
  /-- The crew is as large as it was made, -/
  crew : p.crew.length = size
  /-- and no more jobs run than there are workers. -/
  bound : p.running.length ≤ size
  /-- When nothing moves and jobs wait, every worker runs a job: -/
  busy : quiet → p.queue ≠ [] → ∀ w ∈ p.crew, ∃ job, w = .busy job
  /-- as many jobs run as there are workers. -/
  full : quiet → p.queue ≠ [] → p.running.length = size
  /-- When nothing moves in a pool that has been shut down, every worker runs a job or has left. -/
  shut : quiet → p.stopped = true → ∀ w ∈ p.crew, (∃ job, w = .busy job) ∨ w = .gone

/-- A crew all of whose workers run jobs runs as many jobs as it has workers. -/
theorem length_running_of_busy (h : ∀ w ∈ p.crew, ∃ job, w = .busy job) :
    p.running.length = p.crew.length := by
  rw [running, List.length_filterMap_eq_countP, List.countP_eq_length]
  intro w hw
  obtain ⟨job, rfl⟩ := h w hw
  rfl

theorem Calling.Heeded.employs {s : Calling β ρ} {size : Nat} (h : s.Heeded)
    (hcrew : s.pool.crew.length = size) : Employs size s.pool s.Quiet where
  crew := hcrew
  bound := by
    have hle := length_runningIds_le s.pool
    rwa [runningIds, List.length_map, hcrew] at hle
  busy := h.busy
  full hquiet hqueue := (length_running_of_busy (h.busy hquiet hqueue)).trans hcrew
  shut := h.shut

/-- **Work is conserved.** After any run of a new pool, no more jobs run than there are workers.
When no worker can take a step and jobs wait, every worker runs a job: none sleeps, and none has left.
When no worker can take a step and the pool has been shut down, every worker runs a job or has left.
The same holds if calls to sleeping workers arrive late and at whoever sleeps, once none of them is
under way; and every run of a pool is such a run. -/
theorem work_conserved {name : String} {size : Nat} {p₀ : Pool β ρ}
    (h : create name size = .ok p₀) :
    (∀ events, Employs size (p₀.run events) (∀ place, (p₀.run events).look place = none)) ∧
      (∀ moves, Employs size (Calling.run ⟨p₀, 0, 0⟩ moves).pool
        (Calling.run ⟨p₀, 0, 0⟩ moves).Quiet) ∧
      ∀ events, ∃ moves, Calling.run ⟨p₀, 0, 0⟩ moves = ⟨p₀.run events, 0, 0⟩ := by
  have hcrew : p₀.crew.length = size := (Staffed.create h).size
  have late : ∀ moves, Employs size (Calling.run ⟨p₀, 0, 0⟩ moves).pool
      (Calling.run ⟨p₀, 0, 0⟩ moves).Quiet := fun moves =>
    ((Calling.Heeded.create h).run moves).employs ((Calling.length_crew_run _ moves).trans hcrew)
  refine ⟨fun events => ?_, late, Calling.run_promptly p₀⟩
  obtain ⟨moves, hmoves⟩ := Calling.run_promptly p₀ events
  have hemploys := late moves
  rw [hmoves] at hemploys
  have quiet : (∀ place, (p₀.run events).look place = none) →
      Calling.Quiet ⟨p₀.run events, 0, 0⟩ := fun hlooks => ⟨hlooks, rfl, rfl⟩
  exact ⟨hemploys.crew, hemploys.bound, fun hq => hemploys.busy (quiet hq),
    fun hq => hemploys.full (quiet hq), fun hq => hemploys.shut (quiet hq)⟩

/-- A job is submitted while the only worker falls asleep, and another one while the call for the
first is under way. -/
theorem work_conserved_late :
    let p₀ : Pool Unit Nat := { name := "crew", size := 1, crew := [.awake], live := 1 }
    let moves : List (Calling.Move Unit Nat) :=
      [.act (.look 0), .act (.submit none false ()), .act (.submit none false ()), .one 0,
        .act (.look 0), .one 0]
    create "crew" 1 = .ok p₀ ∧ (Calling.run ⟨p₀, 0, 0⟩ moves).pool.queuedIds = [1] ∧
      (Calling.run ⟨p₀, 0, 0⟩ moves).Quiet ∧
      (Calling.run ⟨p₀, 0, 0⟩ moves).pool.running.length = 1 := by
  intro p₀ moves
  have hcreate : create "crew" 1 = .ok p₀ := rfl
  let q : Pool Unit Nat :=
    { p₀ with queue := [⟨1, none, ()⟩], crew := [.busy ⟨0, none, ()⟩], channels := [{}, {}] }
  have hrun : Calling.run ⟨p₀, 0, 0⟩ moves = ⟨q, 0, 0⟩ := rfl
  have hquiet : (Calling.run ⟨p₀, 0, 0⟩ moves).Quiet := by
    rw [hrun]
    exact ⟨fun place => by cases place <;> rfl, rfl, rfl⟩
  refine ⟨hcreate, by rw [hrun]; rfl, hquiet, ?_⟩
  refine ((work_conserved hcreate).2.1 moves).full hquiet ?_
  rw [hrun]
  exact List.cons_ne_nil _ _

end Pool

end Troupe
