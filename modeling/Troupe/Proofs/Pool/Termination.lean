import Troupe.Proofs.Pool.Attention
import Troupe.Proofs.Pool.Bookkeeping

/-!
# The end of a pool

A pool does not say directly that it is done. Clients look at the number of workers that have not
left, which is kept apart from the queue and from the workers themselves. This module shows that
they may rely on it: the number is right, a worker leaves only when nothing waits and nothing more
can come, and so a pool that all workers have left owes nobody anything, now or later.

Two facts carry the argument. An event either leaves the attendance of the crew alone, or it is the
look of one worker that leaves; and of a pool that has been shut down only jobs go out.

## Main definitions

* `Worker.isGone`, `Pool.attendance` — who has left
* `Pool.Exits` — a worker leaves with an event
* `Pool.Event.stops`, `Pool.Event.discards` — shutting down, and taking jobs out of the queue
* `Pool.Emptied` — nothing waits, and nothing can come
* `Pool.Settled` — nobody is owed anything

## Main results

* `Pool.attendance_apply` — an event and the attendance of the crew
* `Pool.Staffed.play`, `Reachable.staffed` — the number of workers is right
* `Pool.play_of_stopped` — nothing comes into a pool that has been shut down
* `Pool.Emptied.run`, `Emptied.stands` — what is left of a pool that has been emptied
* `Pool.termination_final` — what it means that a pool has terminated
-/

namespace Troupe

namespace Worker

variable {β : Type}

/-- Whether a worker has left. -/
def isGone : Worker β → Bool
  | .gone => true
  | _ => false

theorem isGone_iff {w : Worker β} : w.isGone = true ↔ w = .gone := by
  cases w <;> simp [isGone]

@[simp] theorem isGone_woken (w : Worker β) : w.woken.isGone = w.isGone := by
  cases w <;> rfl

theorem map_isGone_wakeOne (crew : List (Worker β)) :
    (wakeOne crew).map isGone = crew.map isGone := by
  induction crew with
  | nil => rfl
  | cons w crew ih => cases w <;> simp [wakeOne, ih, isGone]

end Worker

namespace Pool

variable {β ρ : Type} {p q : Pool β ρ} {place : Nat} {e : Event β ρ}

/-! ### Who has left -/

/-- For each worker, whether it has left. -/
def attendance (p : Pool β ρ) : List Bool := p.crew.map Worker.isGone

/-- The number of workers that have not left, counted. -/
def present (p : Pool β ρ) : Nat := p.crew.countP fun w => !w.isGone

theorem present_eq (p : Pool β ρ) : p.present = p.attendance.countP (!·) := by
  rw [present, attendance, List.countP_map]
  rfl

theorem gone_iff : p.crew[place]? = some .gone ↔ p.attendance[place]? = some true := by
  rw [attendance, List.getElem?_map]
  cases p.crew[place]? with
  | none => simp
  | some w => simp [Worker.isGone_iff]

/-- The worker at a place leaves with an event: it is awake, finds nothing that waits, and the pool
has been shut down. -/
structure Exits (p : Pool β ρ) (e : Event β ρ) (place : Nat) : Prop where
  /-- It looks at the queue, -/
  looks : e = .look place
  /-- as those do who are awake, -/
  awake : p.crew[place]? = some .awake
  /-- and nothing is there, -/
  queue : p.queue = []
  /-- and nothing will come. -/
  stopped : p.stopped = true

/-- A crew in which one worker does something else, without leaving. -/
theorem attendance_set {old new : Worker β} (hold : p.crew[place]? = some old)
    (hsame : new.isGone = old.isGone) :
    (p.crew.set place new).map Worker.isGone = p.attendance := by
  obtain ⟨hlt, rfl⟩ := List.getElem?_eq_some_iff.mp hold
  refine List.ext_getElem? fun k => ?_
  rw [attendance, List.getElem?_map, List.getElem?_map, List.getElem?_set]
  by_cases hk : place = k
  · subst hk
    simp [hlt, hsame]
  · simp [hk]

theorem attendance_busy {job : Job β} (hj : p.jobAt place = some job) (new : Worker β)
    (hstays : new.isGone = false) : (p.crew.set place new).map Worker.isGone = p.attendance := by
  obtain ⟨w, hw, hwj⟩ := Option.bind_eq_some_iff.mp hj
  obtain rfl : w = .busy job := by cases w <;> simp_all [Worker.job?]
  exact attendance_set hw hstays

theorem live_discards (jobs : List (Job β)) (p : Pool β ρ) :
    (jobs.foldl discard p).live = p.live := by
  induction jobs generalizing p with
  | nil => rfl
  | cons job jobs ih =>
    rw [List.foldl_cons, ih, discard, release]
    split <;> rfl

/-- **An event** lets one worker leave, or it leaves the attendance of the crew alone. -/
theorem attendance_apply (p : Pool β ρ) (e : Event β ρ) :
    (∃ place, p.Exits e place ∧
        p.apply e = { p with crew := p.crew.set place .gone, live := p.live - 1 }) ∨
      (p.apply e).live = p.live ∧ (p.apply e).attendance = p.attendance := by
  cases e with
  | submit owner urgent body =>
    refine .inr ?_
    rw [apply, submit]
    cases hs : p.stopped with
    | true =>
      simp only [if_true, attendance, onChannel_frame, release_frame, and_true]
      rw [onChannel, release]
      split <;> rfl
    | false => exact ⟨rfl, Worker.map_isGone_wakeOne p.crew⟩
  | cancel owner =>
    refine .inr ⟨?_, by rw [apply, attendance, (cancel_frame owner).1, attendance]⟩
    rw [apply, cancel_eq, live_discards]
  | shutdown =>
    refine .inr ⟨rfl, ?_⟩
    simp [apply, shutdown, attendance, Function.comp_def]
  | shutdownNow =>
    refine .inr ⟨live_discards _ _, ?_⟩
    have hcrew : p.shutdownNow.2.crew = p.crew.map Worker.woken := (discards_frame _ _).2.1
    simp [apply, hcrew, attendance, Function.comp_def]
  | look place =>
    rw [apply, look]
    split
    · rename_i hw _
      exact .inr ⟨rfl, attendance_set hw rfl⟩
    · rename_i hw hq
      split
      · rename_i hs
        exact .inl ⟨place, ⟨rfl, hw, hq, hs⟩, rfl⟩
      · exact .inr ⟨rfl, attendance_set hw rfl⟩
    · exact .inr ⟨rfl, rfl⟩
  | advance place body =>
    refine .inr ?_
    rw [apply, advance]
    split
    · rename_i hj
      exact ⟨rfl, attendance_busy hj _ rfl⟩
    · exact ⟨rfl, rfl⟩
  | finish place result =>
    refine .inr ?_
    rw [apply, finish]
    split
    · rename_i job hj
      refine ⟨?_, ?_⟩
      · rw [onChannel, release]
        split <;> rfl
      · simpa [attendance] using attendance_busy hj .awake rfl
    · exact ⟨rfl, rfl⟩
  | deafen id | drain id => exact .inr ⟨rfl, rfl⟩

/-- The number of workers is right. -/
structure Staffed (size : Nat) (p : Pool β ρ) : Prop where
  /-- The crew is as large as it was made, -/
  size : p.crew.length = size
  /-- and the number of those who have not left is known. -/
  live : p.live = p.present

theorem Staffed.create {name : String} {size : Nat} (h : create name size = .ok p) :
    p.Staffed size := by
  rw [Pool.create] at h
  split at h <;> cases h
  exact ⟨List.length_replicate, by simp [present, List.countP_replicate, Worker.isGone]⟩

/-- Whoever leaves was counted. -/
theorem Exits.present_eq (h : p.Exits e place) :
    p.present = (p.crew.set place .gone).countP (fun w => !w.isGone) + 1 := by
  obtain ⟨hlt, hget⟩ := List.getElem?_eq_some_iff.mp h.awake
  have hpos : 0 < p.crew.countP fun w => !w.isGone :=
    List.countP_pos_iff.mpr ⟨.awake, List.mem_of_getElem? h.awake, rfl⟩
  have hset : (p.crew.set place .gone).countP (fun w => !w.isGone) =
      p.crew.countP (fun w => !w.isGone) - 1 := by
    rw [List.countP_set hlt, hget]
    rfl
  rw [present, hset]
  omega

theorem Staffed.apply {size : Nat} (h : p.Staffed size) (e : Event β ρ) :
    (p.apply e).Staffed size := by
  rcases p.attendance_apply e with ⟨place, hexits, heq⟩ | ⟨hlive, hsame⟩
  · have hcount := hexits.present_eq
    have hlive := h.live
    rw [heq]
    refine ⟨by rw [List.length_set, h.size], ?_⟩
    show p.live - 1 = (p.crew.set place .gone).countP _
    omega
  · refine ⟨?_, by rw [hlive, h.live, present_eq, present_eq, hsame]⟩
    have hlen := congrArg List.length hsame
    rw [attendance, attendance, List.length_map, List.length_map] at hlen
    exact hlen.trans h.size

theorem Staffed.play {name : String} {size : Nat} {p₀ : Pool β ρ}
    (h : Pool.create name size = .ok p₀) (events : List (Event β ρ)) :
    (p₀.play events).1.Staffed size := by
  induction events using List.reverseRecOn with
  | nil => exact .create h
  | append_singleton events e ih => rw [play_concat]; exact ih.apply e

theorem Reachable.staffed (h : p.Reachable) : ∃ size, p.Staffed size := by
  obtain ⟨name, size, p₀, events, hp₀, rfl⟩ := h
  exact ⟨size, .play hp₀ events⟩

/-- **A worker leaves** only when nothing waits and nothing more can come, and the number goes down
by one. -/
theorem Staffed.exits {size : Nat} (h : p.Staffed size) (hstays : p.crew[place]? ≠ some .gone)
    (hgone : (p.apply e).crew[place]? = some .gone) :
    p.Exits e place ∧ p.live = (p.apply e).live + 1 := by
  rcases p.attendance_apply e with ⟨k, hexits, heq⟩ | ⟨_, hsame⟩
  · obtain rfl : k = place := by
      by_contra hne
      rw [heq, List.getElem?_set_ne hne] at hgone
      exact hstays hgone
    refine ⟨hexits, ?_⟩
    have hcount := hexits.present_eq
    have hlive := h.live
    have hnext : (p.apply e).live = p.live - 1 := by rw [heq]
    omega
  · rw [gone_iff, hsame, ← gone_iff] at hgone
    exact absurd hgone hstays

/-! ### Shutting down -/

/-- Whether an event shuts the pool down. -/
def Event.stops : Event β ρ → Bool
  | .shutdown | .shutdownNow => true
  | _ => false

/-- Whether an event may take jobs out of the queue unheard. -/
def Event.discards : Event β ρ → Bool
  | .cancel _ | .shutdownNow => true
  | _ => false

theorem stopped_apply (p : Pool β ρ) (e : Event β ρ) :
    (p.apply e).stopped = (p.stopped || e.stops) := by
  cases e with
  | submit owner urgent body =>
    rw [apply, submit]
    cases hs : p.stopped <;> simp [Event.stops]
  | cancel owner =>
    rw [apply, (cancel_frame owner).2]
    simp [Event.stops]
  | shutdown => simp [apply, shutdown, Event.stops]
  | shutdownNow =>
    have hs : p.shutdownNow.2.stopped = true := (discards_frame _ _).2.2.1
    simp [apply, hs, Event.stops]
  | look place =>
    rw [apply, look]
    split
    · simp [Event.stops]
    · split <;> simp [Event.stops]
    · simp [Event.stops]
  | advance place body =>
    rw [apply, advance]
    split <;> simp [Event.stops]
  | finish place result =>
    rw [apply, finish]
    split <;> simp [Event.stops]
  | deafen id | drain id => simp [apply, deafen, drain, Event.stops]

theorem stopped_run (p : Pool β ρ) (events : List (Event β ρ)) :
    (p.run events).stopped = (p.stopped || events.any Event.stops) := by
  induction events generalizing p with
  | nil => simp [run]
  | cons e events ih =>
    rw [run, List.foldl_cons, ← run, ih, stopped_apply, List.any_cons, Bool.or_assoc]

/-- Of a pool that has been shut down, jobs only go out. -/
theorem Reachable.queue_of_stopped (h : p.Reachable) (hs : p.stopped = true) (e : Event β ρ) :
    (p.apply e).queue.Sublist p.queue := by
  cases e with
  | submit owner urgent body => simp [Pool.apply, submit, hs]
  | cancel owner =>
    rw [Pool.apply, h.queue_cancel]
    exact List.filter_sublist
  | shutdownNow =>
    have hempty : p.shutdownNow.2.queue = [] := (discards_frame _ _).1
    rw [Pool.apply, hempty]
    exact List.nil_sublist _
  | look place =>
    rw [Pool.apply, look]
    split
    · rename_i hq
      rw [hq]
      exact List.sublist_cons_self ..
    · split <;> exact List.Sublist.refl _
    · exact List.Sublist.refl _
  | advance place body =>
    rw [Pool.apply, (advance_frame place body).1]
  | finish place result =>
    rw [Pool.apply, finish]
    split <;> simp
  | shutdown | deafen id | drain id => exact List.Sublist.refl _

theorem accepted_of_stopped (hs : p.stopped = true) (e : Event β ρ) (l : Ledger ρ) :
    (l.enter p e).accepted = l.accepted := by
  cases e <;> simp [Ledger.enter, hs]

/-- **Nothing comes into a pool that has been shut down.** -/
theorem play_of_stopped {p₀ : Pool β ρ} (h : p₀.Reachable) {events : List (Event β ρ)}
    (hs : (p₀.play events).1.stopped = true) (later : List (Event β ρ)) :
    (p₀.play (events ++ later)).1.stopped = true ∧
      (p₀.play (events ++ later)).1.queue.Sublist (p₀.play events).1.queue ∧
      (p₀.play (events ++ later)).2.accepted = (p₀.play events).2.accepted := by
  induction later using List.reverseRecOn with
  | nil =>
    rw [List.append_nil]
    exact ⟨hs, List.Sublist.refl _, rfl⟩
  | append_singleton later e ih =>
    obtain ⟨hstopped, hqueue, haccepted⟩ := ih
    have hr : (p₀.play (events ++ later)).1.Reachable := by
      rw [play_fst]
      exact h.run _
    rw [← List.append_assoc, play_concat]
    refine ⟨by rw [stopped_apply, hstopped, Bool.true_or], ?_, ?_⟩
    · exact (hr.queue_of_stopped hstopped e).trans hqueue
    · exact (accepted_of_stopped hstopped e _).trans haccepted

/-! ### Emptied pools -/

/-- Nothing waits, and nothing can come. -/
structure Emptied (p : Pool β ρ) : Prop where
  /-- It has been shut down. -/
  stopped : p.stopped = true
  /-- Nothing waits. -/
  queue : p.queue = []

theorem emptied_shutdownNow (p : Pool β ρ) : p.shutdownNow.2.Emptied :=
  ⟨(discards_frame _ _).2.2.1, (discards_frame _ _).1⟩

/-- What waits or runs in a pool that has been shut down has been there before. -/
theorem mem_openIds_of_stopped (hs : p.stopped = true) {e : Event β ρ} {id : JobId}
    (h : id ∈ (p.apply e).openIds) : id ∈ p.openIds := by
  rw [← map_fst_openLabels] at h ⊢
  obtain ⟨t, ht, rfl⟩ := List.mem_map.mp h
  rcases mem_openLabels_of_apply ht with hold | ⟨hruns, -⟩
  · exact List.mem_map_of_mem hold
  · rw [hs] at hruns
    cases hruns

/-- **An emptied pool stays empty**, and no job begins there any more. -/
theorem Emptied.run (h : p.Emptied) (hr : p.Reachable) (events : List (Event β ρ)) :
    (p.run events).Emptied ∧ ∀ id ∈ (p.run events).runningIds, id ∈ p.runningIds := by
  induction events generalizing p with
  | nil => exact ⟨h, fun _ hid => hid⟩
  | cons e events ih =>
    have hnext : (p.apply e).Emptied := by
      refine ⟨by rw [stopped_apply, h.stopped, Bool.true_or], ?_⟩
      exact List.sublist_nil.mp (h.queue ▸ hr.queue_of_stopped h.stopped e)
    obtain ⟨hempty, hids⟩ := ih hnext (hr.apply e)
    refine ⟨hempty, fun id hid => ?_⟩
    have hopen := mem_openIds_of_stopped h.stopped (List.mem_append_right _ (hids id hid))
    rw [openIds, queuedIds, h.queue] at hopen
    exact hopen

/-- What was accepted by a pool that is empty by now has been executed or withdrawn, or runs. -/
theorem Emptied.stands {l : Ledger ρ} (h : p.Emptied) (hc : p.Conserved l) {id : JobId}
    (hid : id ∈ l.accepted) :
    Stands p l id .finished ∨ Stands p l id .withdrawn ∨
      Stands p l id .running ∧ id ∈ p.runningIds := by
  obtain ⟨f, s⟩ := hc.stands id hid
  cases f with
  | finished => exact .inl s
  | withdrawn => exact .inr (.inl s)
  | queued =>
    have hone := s.1.queued
    rw [queuedIds, h.queue] at hone
    cases hone
  | running =>
    refine .inr (.inr ⟨s, List.one_le_count_iff.mp ?_⟩)
    rw [s.1.running]

/-! ### Terminated pools -/

/-- Nobody is owed anything: nothing waits, nothing runs, nothing comes, and whatever was accepted
has been executed or withdrawn. -/
structure Settled (p : Pool β ρ) (l : Ledger ρ) : Prop extends Emptied p where
  /-- Nothing runs. -/
  running : p.running = []
  /-- Whatever was accepted has an end. -/
  ended : ∀ id ∈ l.accepted, Stands p l id .finished ∨ Stands p l id .withdrawn

theorem Staffed.all_gone {size : Nat} (h : p.Staffed size) (hterm : p.isTerminated = true) :
    ∀ w ∈ p.crew, w = .gone := by
  have hzero : p.present = 0 := by
    rw [← h.live]
    simpa [isTerminated] using hterm
  intro w hw
  have := List.countP_eq_zero.mp hzero w hw
  simpa [Worker.isGone_iff] using this

/-- Where nobody is left, nothing is left to do. -/
theorem Reachable.emptied (hr : p.Reachable) (hterm : p.isTerminated = true) :
    p.Emptied ∧ p.running = [] := by
  obtain ⟨size, hstaffed⟩ := hr.staffed
  have hgone := hstaffed.all_gone hterm
  obtain ⟨w, crew, hcrew⟩ := List.exists_cons_of_ne_nil hr.attended.manned
  have hmem : .gone ∈ p.crew := by
    have hw : w ∈ p.crew := hcrew ▸ List.mem_cons_self
    exact hgone w hw ▸ hw
  obtain ⟨hstopped, hqueue⟩ := hr.attended.left hmem
  refine ⟨⟨hstopped, hqueue⟩, List.filterMap_eq_nil_iff.mpr fun w hw => ?_⟩
  rw [hgone w hw]
  rfl

theorem Reachable.settled {l : Ledger ρ} (hr : p.Reachable) (hc : p.Conserved l)
    (hterm : p.isTerminated = true) : p.Settled l := by
  obtain ⟨hempty, hrunning⟩ := hr.emptied hterm
  refine ⟨hempty, hrunning, fun id hid => ?_⟩
  rcases hempty.stands hc hid with s | s | ⟨-, hruns⟩
  · exact .inl s
  · exact .inr s
  · rw [runningIds, hrunning] at hruns
    cases hruns

/-- A crew that has left stays away. -/
theorem Staffed.terminated {size : Nat} (h : p.Staffed size) (hterm : p.isTerminated = true)
    (e : Event β ρ) : (p.apply e).isTerminated = true := by
  rcases p.attendance_apply e with ⟨place, hexits, _⟩ | ⟨hlive, _⟩
  · have := h.all_gone hterm _ (List.mem_of_getElem? hexits.awake)
    cases this
  · rw [isTerminated, hlive]
    exact hterm

/-- Where no job is taken out of the queue unheard, none is withdrawn. -/
theorem returned_of_kept (p₀ : Pool β ρ) {events : List (Event β ρ)}
    (h : ∀ e ∈ events, e.discards = false) : (p₀.play events).2.returned = 0 := by
  induction events using List.reverseRecOn with
  | nil => rfl
  | append_singleton events e ih =>
    have hbefore := ih fun e he => h e (List.mem_append_left _ he)
    have he := h e (List.mem_append_right _ (List.mem_singleton_self e))
    rw [play_concat]
    cases e with
    | cancel _ | shutdownNow => cases he
    | submit owner urgent body =>
      rw [Ledger.enter]
      split <;> exact hbefore
    | shutdown | look _ | advance _ _ | finish _ _ | deafen _ | drain _ => exact hbefore

theorem Conserved.not_withdrawn {l : Ledger ρ} (h : p.Conserved l) (hzero : l.returned = 0)
    {id : JobId} (hid : id ∈ l.accepted) : ¬Stands p l id .withdrawn := by
  intro s
  have hnil : p.withdrawnIds l = [] := List.length_eq_zero_iff.mp (h.returned.symm.trans hzero)
  have hmem : id ∈ p.withdrawnIds l :=
    List.mem_filter.mpr ⟨hid, Content.isLost_iff.mpr s.2.1⟩
  rw [hnil] at hmem
  cases hmem

/-- **Terminated pools are finished.** In any run of a new pool the number of workers that have not
left is right, and it never goes below zero: whoever leaves was counted, finds nothing that waits,
and the pool has been shut down. From the first shutdown on no job is accepted, and the queue never
grows. So a pool that is terminated has nothing that waits or runs, all that it ever accepted has
been executed or withdrawn, and this stays so. If nobody has withdrawn or dropped jobs, each of them
has been executed exactly once. -/
theorem termination_final {name : String} {size : Nat} {p₀ : Pool β ρ}
    (h : create name size = .ok p₀) (events : List (Event β ρ)) :
    let p := (p₀.play events).1
    let l := (p₀.play events).2
    (p.crew.length = size ∧ p.live = p.crew.countP fun w => !w.isGone) ∧
      (∀ (e : Event β ρ) (place : Nat), p.crew[place]? ≠ some .gone →
          (p.apply e).crew[place]? = some .gone →
        p.stopped = true ∧ p.queue = [] ∧ p.live = (p.apply e).live + 1) ∧
      (p.stopped = true ↔ .shutdown ∈ events ∨ .shutdownNow ∈ events) ∧
      (p.stopped = true → ∀ later,
        (p₀.play (events ++ later)).2.accepted = l.accepted ∧
          (p₀.play (events ++ later)).1.queue.Sublist p.queue) ∧
      (p.isTerminated = true → ∀ later,
        (p₀.play (events ++ later)).1.isTerminated = true ∧
          (p₀.play (events ++ later)).2.accepted = l.accepted ∧
          Settled (p₀.play (events ++ later)).1 (p₀.play (events ++ later)).2) ∧
      (p.isTerminated = true → (∀ e ∈ events, e.discards = false) → ∀ id ∈ l.accepted,
        Stands p l id .finished ∧ l.started.count id = 1 ∧ l.endedIds.count id = 1) := by
  intro p l
  have hr₀ : p₀.Reachable := .create h
  have staffed := Staffed.play h
  have conserved := (Conserved.create h).play
  have settled : ∀ es, (p₀.play es).1.isTerminated = true →
      Settled (p₀.play es).1 (p₀.play es).2 := fun es hterm =>
    Reachable.settled ⟨name, size, p₀, es, h, rfl⟩ (conserved es) hterm
  refine ⟨⟨(staffed events).size, (staffed events).live⟩, fun e place hstays hgone => ?_, ?_,
    fun hs later => (play_of_stopped hr₀ hs later).2.symm, fun hterm later => ?_,
    fun hterm hkept id hid => ?_⟩
  · obtain ⟨hexits, hlive⟩ := (staffed events).exits hstays hgone
    exact ⟨hexits.stopped, hexits.queue, hlive⟩
  · have hnew : p₀.stopped = false := by
      rw [Pool.create] at h
      split at h <;> cases h
      rfl
    have hstopped : p.stopped = events.any Event.stops := by
      show (p₀.play events).1.stopped = _
      rw [play_fst, stopped_run, hnew, Bool.false_or]
    rw [hstopped, List.any_eq_true]
    constructor
    · rintro ⟨e, he, hstops⟩
      cases e with
      | shutdown => exact .inl he
      | shutdownNow => exact .inr he
      | submit _ _ _ | cancel _ | look _ | advance _ _ | finish _ _ | deafen _ | drain _ =>
        cases hstops
    · rintro (he | he)
      · exact ⟨_, he, rfl⟩
      · exact ⟨_, he, rfl⟩
  · have hlast : (p₀.play (events ++ later)).1.isTerminated = true := by
      induction later using List.reverseRecOn with
      | nil => rwa [List.append_nil]
      | append_singleton later e ih =>
        rw [← List.append_assoc, play_concat]
        exact (staffed _).terminated ih e
    exact ⟨hlast, (play_of_stopped hr₀ (settled events hterm).stopped later).2.2,
      settled _ hlast⟩
  · have hfinished := ((settled events hterm).ended id hid).resolve_right
      ((conserved events).not_withdrawn (returned_of_kept p₀ hkept) hid)
    exact ⟨hfinished, hfinished.1.started, hfinished.1.ended⟩

/-- A pool of two workers is shut down while a job runs and another one waits; one worker leaves
early, and the other one does both jobs before it leaves. -/
theorem termination_final_drained :
    let p₀ : Pool Unit Nat := { name := "crew", size := 2, crew := [.awake, .awake], live := 2 }
    let events : List (Event Unit Nat) :=
      [.submit none false (), .submit (some "a") false (), .look 0, .shutdown,
        .finish 0 (.error "boom"), .look 0, .look 1, .submit none false (), .finish 0 (.ok 7),
        .look 0]
    create "crew" 2 = .ok p₀ ∧ (p₀.play events).1.isTerminated = true ∧
      (p₀.play events).2.accepted = [0, 1] ∧
      (∀ e ∈ events, e.discards = false) ∧
      Stands (p₀.play events).1 (p₀.play events).2 1 .finished ∧
      Settled (p₀.play (events ++ [.submit none true ()])).1
        (p₀.play (events ++ [.submit none true ()])).2 := by
  intro p₀ events
  have hcreate : create "crew" 2 = .ok p₀ := rfl
  have hfinal := termination_final hcreate events
  have hterm : (p₀.play events).1.isTerminated = true := by decide
  have hkept : ∀ e ∈ events, e.discards = false := by
    simp [events, Event.discards]
  have haccepted : (p₀.play events).2.accepted = [0, 1] := by decide
  have hfirst := (hfinal.2.2.2.2.2 hterm hkept 1 (haccepted ▸ by decide)).1
  have hlater := (hfinal.2.2.2.2.1 hterm [.submit none true ()]).2.2
  exact ⟨hcreate, hterm, haccepted, hkept, hfirst, hlater⟩

end Pool

end Troupe
