import Troupe.Proofs.Pool.Records

/-!
# Jobs do not go unnoticed

A worker that finds the queue empty sleeps, and a submission wakes one sleeper, whichever it is.
That is enough: while anybody sleeps, there are at least as many workers awake as jobs waiting, so
a job never waits for somebody who sleeps. Nor does a worker leave before the queue is empty and
nothing more can come.

So if no worker can take a job although one waits, all of them are busy.

## Main definitions

* `Pool.Attended` — nobody sleeps or leaves while he is needed

## Main results

* `Pool.Reachable.waits_or_runs` — an unresolved job waits or runs
* `Pool.Reachable.attended` — nobody sleeps or leaves while he is needed
* `Pool.Reachable.all_busy` — who does not take a job is busy with another one
-/

namespace Troupe

namespace Worker

variable {β : Type}

/-- Whether a worker is about to look at the queue. -/
def isAwake : Worker β → Bool
  | .awake => true
  | _ => false

/-- A call that reaches one of those who wait wakes one of them. -/
theorem countP_wakeOne {crew : List (Worker β)} (h : .waiting ∈ crew) :
    (wakeOne crew).countP isAwake = crew.countP isAwake + 1 := by
  induction crew with
  | nil => cases h
  | cons w crew ih =>
    cases w with
    | waiting => simp [wakeOne, List.countP_cons, isAwake]
    | awake | busy _ | gone =>
      have hrest : .waiting ∈ crew := by simpa using h
      simp only [wakeOne, List.countP_cons, ih hrest]
      omega

theorem mem_of_mem_wakeOne {crew : List (Worker β)} {w : Worker β} (h : w ∈ wakeOne crew)
    (hw : w ≠ .awake) : w ∈ crew := by
  induction crew with
  | nil => exact h
  | cons v crew ih =>
    cases v with
    | waiting =>
      exact List.mem_cons_of_mem _ ((List.mem_cons.mp h).resolve_left hw)
    | awake | busy _ | gone =>
      simp only [wakeOne, List.mem_cons] at h ⊢
      exact h.imp_right ih

@[simp] theorem wakeOne_eq_nil {crew : List (Worker β)} : wakeOne crew = [] ↔ crew = [] := by
  cases crew with
  | nil => simp [wakeOne]
  | cons w crew => cases w <;> simp [wakeOne]

end Worker

namespace Pool

variable {β ρ : Type} {p q : Pool β ρ} {id : JobId}

/-! ### Unresolved jobs -/

/-- Every unresolved job waits or runs. -/
def Placed (p : Pool β ρ) : Prop :=
  ∀ id, p.content id = .empty → id ∈ p.queuedIds ∨ id ∈ p.runningIds

theorem Placed.congr (h : p.Placed) (hq : q.queuedIds = p.queuedIds)
    (hr : q.runningIds = p.runningIds) (hc : ∀ id, q.content id = .empty → p.content id = .empty) :
    q.Placed := by
  intro id hempty
  rw [hq, hr]
  exact h id (hc id hempty)

theorem content_congr (h : q.channels = p.channels) (id : JobId) : q.content id = p.content id := by
  rw [content, content, channel, channel, h]

theorem Placed.submit (h : p.Placed) (owner : Option String) (urgent : Bool) (body : β) :
    (p.submit owner urgent body).2.Placed := by
  intro id hempty
  rw [content_submit] at hempty
  rw [queuedIds_submit, runningIds_submit]
  by_cases hid : id = p.channels.length
  · cases hstop : p.stopped <;> cases urgent <;> simp_all
  · rw [if_neg hid] at hempty
    have hplace := h id hempty
    cases hstop : p.stopped <;> cases urgent <;> simp <;> tauto

theorem Placed.drops {jobs : List (Job β)} (h : p.Placed) (hd : p.Drops jobs q) : q.Placed := by
  intro id hempty
  rw [hd.content] at hempty
  split at hempty
  · cases hold : p.content id <;> simp [hold, Content.settle] at hempty
  · rename_i hkept
    rw [hd.running]
    refine (h id hempty).imp_left fun hqueued => ?_
    exact (List.mem_append.mp (hd.perm_queuedIds.mem_iff.mpr hqueued)).resolve_left hkept

theorem Placed.look (h : p.Placed) (place : Nat) : ((p.look place).getD p).Placed := by
  cases hnext : p.next? place with
  | none =>
    obtain ⟨hq, hr, hc⟩ := look_of_next?_none hnext
    exact h.congr (by rw [queuedIds, hq, queuedIds]) hr fun id he => content_congr hc id ▸ he
  | some job =>
    obtain ⟨q, hlook, hq, hr, hc⟩ := look_of_next? hnext
    rw [hlook, Option.getD_some]
    intro id hempty
    rw [content_congr hc] at hempty
    rw [hr.mem_iff]
    have := h id hempty
    rw [hq] at this
    simp only [List.mem_cons] at this ⊢
    tauto

theorem Placed.finish (h : p.Placed) (place : Nat) (o : Except PoolError ρ) :
    (p.finish place o).Placed := by
  cases hj : p.jobAt place with
  | none =>
    rw [finish_of_jobAt_none hj]
    exact h
  | some job =>
    obtain ⟨hq, hr, hlen, hc⟩ := finish_of_jobAt hj o
    intro id hempty
    have hlt : id < p.channels.length := by
      by_contra hge
      rw [content_of_le (hlen ▸ Nat.le_of_not_lt hge)] at hempty
      cases hempty
    rw [hc id hlt] at hempty
    split at hempty
    · cases hold : p.content id <;> simp [hold, Content.settle] at hempty
    · rename_i hne
      rw [queuedIds, hq]
      refine (h id hempty).imp_right fun hrun => ?_
      exact (List.mem_cons.mp (hr.mem_iff.mp hrun)).resolve_left hne

theorem Placed.apply (h : p.Placed) (e : Event β ρ) : (p.apply e).Placed := by
  -- A change of one channel that does not empty it.
  have onChannel : ∀ {k : JobId} {f : Channel (Except PoolError ρ) → Channel (Except PoolError ρ)},
      (∀ c, (f c).content = .empty → c.content = .empty) → (p.onChannel k f).Placed := by
    intro k f hf
    refine h.congr rfl rfl fun id hempty => ?_
    rw [content_onChannel] at hempty
    split at hempty
    · exact hf _ hempty
    · exact hempty
  cases e with
  | submit owner urgent body => exact h.submit owner urgent body
  | cancel owner =>
    obtain ⟨jobs, hd, _⟩ := p.drops_cancel owner
    exact h.drops hd
  | shutdown => exact h.drops p.drops_shutdown
  | shutdownNow => exact h.drops p.drops_shutdownNow.1
  | look place => exact h.look place
  | advance place body =>
    obtain ⟨hq, hr, hc⟩ := advance_frame (p := p) place body
    exact h.congr (by rw [Pool.apply, queuedIds, hq, queuedIds]) hr
      fun id he => content_congr hc id ▸ he
  | finish place result => exact h.finish place _
  | deafen id => exact onChannel fun c hc => hc
  | drain id => exact onChannel fun c hc => by simpa using hc

/-- **An unresolved job waits or runs.** -/
theorem Reachable.waits_or_runs (h : p.Reachable) (hid : p.content id = .empty) :
    id ∈ p.queuedIds ∨ id ∈ p.runningIds := by
  refine h.induct (P := Placed) (fun hcreate id hempty => ?_) (fun e _ hp => hp.apply e) id hid
  rw [Pool.create] at hcreate
  split at hcreate <;> cases hcreate
  simp [content, channel] at hempty

/-! ### Workers -/

theorem cancel_frame (owner : String) :
    (p.cancel owner).2.crew = p.crew ∧ (p.cancel owner).2.stopped = p.stopped := by
  rw [cancel_eq]
  exact ⟨(discards_frame _ _).2.1, (discards_frame _ _).2.2.1⟩

/-- Nobody sleeps or leaves while he is needed. -/
structure Attended (p : Pool β ρ) : Prop where
  /-- While anybody sleeps, there is somebody awake for every job that waits. -/
  awake : .waiting ∈ p.crew → p.queue.length ≤ p.crew.countP Worker.isAwake
  /-- Who leaves leaves nothing behind, and nothing more comes. -/
  left : .gone ∈ p.crew → p.stopped = true ∧ p.queue = []
  /-- There are workers. -/
  manned : p.crew ≠ []

theorem Attended.create {name : String} {size : Nat} (h : create name size = .ok p) :
    p.Attended := by
  rw [Pool.create] at h
  split at h
  · cases h
  · rename_i hsize
    cases h
    exact ⟨fun h => by simp [List.mem_replicate] at h, fun h => by simp [List.mem_replicate] at h,
      by simpa using hsize⟩

/-- Jobs go out of the queue, and the crew stays or is woken. -/
theorem Attended.shrink (h : p.Attended) (hqueue : q.queue.length ≤ p.queue.length)
    (hstop : p.stopped = true → q.stopped = true)
    (hcrew : q.crew = p.crew ∨ q.stopped = true ∧ q.crew = p.crew.map Worker.woken) :
    q.Attended := by
  have hnil : p.queue = [] → q.queue = [] := fun hp => by simpa [hp] using hqueue
  rcases hcrew with hcrew | ⟨hstopped, hcrew⟩
  · refine ⟨fun hw => ?_, fun hg => ?_, hcrew ▸ h.manned⟩
    · rw [hcrew] at hw ⊢
      exact Nat.le_trans hqueue (h.awake hw)
    · exact (h.left (hcrew ▸ hg)).imp hstop hnil
  · refine ⟨fun hw => ?_, fun hg => ?_, ?_⟩
    · obtain ⟨w, _, hw⟩ := List.mem_map.mp (hcrew ▸ hw)
      cases w <;> cases hw
    · obtain ⟨w, hmem, hw⟩ := List.mem_map.mp (hcrew ▸ hg)
      obtain rfl : w = .gone := by cases w <;> first | rfl | cases hw
      exact ⟨hstopped, hnil (h.left hmem).2⟩
    · rw [hcrew]
      simpa using h.manned

theorem Attended.submit (h : p.Attended) (owner : Option String) (urgent : Bool) (body : β) :
    (p.submit owner urgent body).2.Attended := by
  rw [Pool.submit]
  cases hstop : p.stopped with
  | true =>
    refine h.shrink (q := _) ?_ ?_ (.inl ?_) <;> simp [hstop]
  | false =>
    refine ⟨fun hw => ?_, fun hg => ?_, ?_⟩
    · have hold := Worker.mem_of_mem_wakeOne hw (by simp)
      have := h.awake hold
      show List.length (if urgent then _ else _) ≤ (Worker.wakeOne p.crew).countP _
      rw [Worker.countP_wakeOne hold]
      cases urgent <;> simpa using this
    · have := (h.left (Worker.mem_of_mem_wakeOne hg (by simp))).1
      rw [hstop] at this
      cases this
    · simpa using h.manned

/-- One worker looks at an empty queue. -/
theorem Attended.rest (h : p.Attended) {place : Nat} {new : Worker β}
    (hnew : new = .gone → p.stopped = true) (hq : q.queue = []) (hstop : q.stopped = p.stopped)
    (hcrew : q.crew = p.crew.set place new) : q.Attended := by
  refine ⟨fun _ => by simp [hq], fun hg => ⟨?_, hq⟩, ?_⟩
  · rw [hstop]
    rw [hcrew] at hg
    exact (List.mem_or_eq_of_mem_set hg).elim (fun hg => (h.left hg).1) fun heq => hnew heq.symm
  · rw [hcrew]
    simpa using h.manned

/-- One worker goes on with something else, and the queue gets no longer by that. -/
theorem Attended.work (h : p.Attended) {place : Nat} {old new : Worker β}
    (hold : p.crew[place]? = some old) (hnew : new ≠ .waiting ∧ new ≠ .gone)
    (hqueue : q.queue.length + (if old.isAwake then 1 else 0) ≤
      p.queue.length + (if new.isAwake then 1 else 0))
    (hnil : p.queue = [] → q.queue = []) (hstop : q.stopped = p.stopped)
    (hcrew : q.crew = p.crew.set place new) : q.Attended := by
  obtain ⟨hlt, hget⟩ := List.getElem?_eq_some_iff.mp hold
  have same : ∀ {w}, w ∈ q.crew → w = .waiting ∨ w = .gone → w ∈ p.crew := by
    intro w hw hne
    rw [hcrew] at hw
    refine (List.mem_or_eq_of_mem_set hw).resolve_right ?_
    rintro rfl
    exact hne.elim hnew.1 hnew.2
  refine ⟨fun hw => ?_, fun hg => ?_, ?_⟩
  · have hawake := h.awake (same hw (.inl rfl))
    have hpos : old.isAwake = true → 0 < p.crew.countP Worker.isAwake := fun ho =>
      List.countP_pos_iff.mpr ⟨old, List.mem_of_getElem? hold, ho⟩
    rw [hcrew, List.countP_set hlt, hget]
    by_cases ho : old.isAwake = true
    · have := hpos ho
      rw [if_pos ho] at hqueue ⊢
      omega
    · rw [if_neg ho] at hqueue ⊢
      omega
  · rw [hstop]
    exact (h.left (same hg (.inr rfl))).imp_right hnil
  · rw [hcrew]
    simpa using h.manned

theorem Attended.look (h : p.Attended) (place : Nat) : ((p.look place).getD p).Attended := by
  rw [Pool.look]
  split
  · rename_i job queue hw hq
    exact h.work hw (by simp) (by simp [hq, Worker.isAwake]) (by simp [hq]) rfl rfl
  · rename_i hw hq
    split
    · rename_i hstop
      exact h.rest (fun _ => hstop) hq rfl rfl
    · exact h.rest (by simp) hq rfl rfl
  · exact h

theorem Attended.busy (h : p.Attended) {place : Nat} {job : Job β} (hj : p.jobAt place = some job)
    {new : Worker β} (hnew : new ≠ .waiting ∧ new ≠ .gone) (hqueue : q.queue = p.queue)
    (hstop : q.stopped = p.stopped) (hcrew : q.crew = p.crew.set place new) : q.Attended := by
  obtain ⟨w, hw, hwj⟩ := Option.bind_eq_some_iff.mp hj
  obtain rfl : w = .busy job := by cases w <;> simp_all [Worker.job?]
  refine h.work hw hnew ?_ (fun hp => hqueue.trans hp) hstop hcrew
  rw [hqueue]
  simp [Worker.isAwake]

theorem Attended.apply (h : p.Attended) (e : Event β ρ) : (p.apply e).Attended := by
  cases e with
  | submit owner urgent body => exact h.submit owner urgent body
  | cancel owner =>
    obtain ⟨jobs, hd, _⟩ := p.drops_cancel owner
    obtain ⟨hcrew, hstop⟩ := cancel_frame (p := p) owner
    have hlen := hd.queue.length_eq
    rw [List.length_append] at hlen
    exact h.shrink (by rw [Pool.apply]; omega) (fun hs => hstop.trans hs) (.inl hcrew)
  | shutdown => exact h.shrink (Nat.le_refl _) (fun _ => rfl) (.inr ⟨rfl, rfl⟩)
  | shutdownNow =>
    obtain ⟨hq, hc, hs, _⟩ := discards_frame p.queue
      { p with stopped := true, queue := [], crew := p.crew.map Worker.woken }
    refine h.shrink (q := p.shutdownNow.2) ?_ (fun _ => hs) (.inr ⟨hs, hc⟩)
    rw [shutdownNow, hq]
    exact Nat.zero_le _
  | look place => exact h.look place
  | advance place body =>
    cases hj : p.jobAt place with
    | none => simpa only [Pool.apply, advance, hj] using h
    | some job =>
      simp only [Pool.apply, advance, hj]
      exact h.busy hj (by simp) rfl rfl rfl
  | finish place result =>
    cases hj : p.jobAt place with
    | none =>
      rw [Pool.apply, finish_of_jobAt_none hj]
      exact h
    | some job =>
      simp only [Pool.apply, finish, hj]
      have hnew : (.awake : Worker β) ≠ .waiting ∧ (.awake : Worker β) ≠ .gone := by simp
      exact h.busy hj hnew (by simp) (by simp) (by simp)
  | deafen id | drain id => exact ⟨h.awake, h.left, h.manned⟩

/-- **Nobody sleeps or leaves while he is needed.** -/
theorem Reachable.attended (h : p.Reachable) : p.Attended :=
  h.induct Attended.create fun e _ hp => hp.apply e

/-- **Who does not take a job is busy with another one.** -/
theorem Reachable.all_busy (h : p.Reachable) (hqueue : p.queue ≠ [])
    (hstuck : ∀ place, p.look place = none) :
    p.crew ≠ [] ∧ ∀ w ∈ p.crew, ∃ job, w = .busy job := by
  have ha := h.attended
  have awake : .awake ∉ p.crew := by
    intro hw
    obtain ⟨place, hplace⟩ := List.mem_iff_getElem?.mp hw
    obtain ⟨job, queue, hq⟩ := List.exists_cons_of_ne_nil hqueue
    have := hstuck place
    rw [look, hplace, hq] at this
    cases this
  refine ⟨ha.manned, fun w hw => ?_⟩
  cases w with
  | busy job => exact ⟨job, rfl⟩
  | awake => exact absurd hw awake
  | gone => exact absurd (ha.left hw).2 hqueue
  | waiting =>
    -- A job waits, so somebody is awake.
    have hpos := Nat.lt_of_lt_of_le (List.length_pos_iff.mpr hqueue) (ha.awake hw)
    obtain ⟨v, hv, hva⟩ := List.countP_pos_iff.mp hpos
    cases v with
    | awake => exact absurd hv awake
    | waiting | busy _ | gone => cases hva

end Pool

end Troupe
