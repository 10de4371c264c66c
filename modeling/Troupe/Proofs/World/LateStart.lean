import Troupe.Proofs.World.Relays
import Troupe.Proofs.World.ResultOrder

/-!
# Starting late

Whoever holds the handle of an operation should be able to rely on what it shows: once it shows an
outcome, of whatever kind, the body does not start any more. Operations that run on the run loop or
past the mailbox live in one place, together with their handle, and start while it is unresolved.

An offloaded operation lives in two places, and here it matters who takes care of both. Clearing
withdraws the job and leaves the relay, which then shows that the job was withdrawn; closing
withdraws the job and drops the relay. When an actor is let go without a close, its run loop drops
the relays, and nobody withdraws the jobs. Such a job starts late, and these are all of them.

## Main definitions

* `World.Begins` — an act starts the body of what was sent
* `World.Abandoned` — an actor was let go while a job of its waited

## Main results

* `World.late_iff_abandoned` — which bodies start late
* `World.starts_late` — a run in which one does
-/

namespace Troupe

namespace World

variable {w : World} {act : Act}

/-- An act starts the body of what was sent: the run loop begins with it, its task moves, or a
worker takes its job. What was refused has no job. -/
def Begins (w : World) (act : Act) (x : Sending) : Prop :=
  match x.route with
  | .ordered => x.handle ∈ w.starts x.actor act
  | .bypass => ∃ t course, act = .move (.task t) ∧
      w.task? t = some (.bypass x.actor x.handle course)
  | .offloaded p j => x.answer = none ∧ j ∈ (w.pool p).queuedIds ∧
      j ∈ ((w.next act).pool p).runningIds

/-- Nobody holds an actor that was not closed, and the relay of what was sent to it is gone. -/
def Abandoned (w : World) (x : Sending) : Prop :=
  ∃ p j, x.route = .offloaded p j ∧ (w.actor x.actor).stopping = true ∧
    (w.actor x.actor).closed = false ∧ w.holdsActor x.actor = false ∧
    ¬(w.actor x.actor).lane.Relays x.handle p j

/-! ### Ordered operations and tasks -/

/-- What a run loop begins with is unresolved. -/
theorem content_of_starts (hs : w.scene.Sound) {a : ActorId} {h : HandleId}
    (hh : h ∈ w.starts a act) : w.scene.content h = .empty := by
  cases shift_next hs a act with
  | joins hstarts _ _ _ | keeps hstarts _ _ _ =>
    rw [hstarts] at hh
    cases hh
  | enters _ _ hstarts _ hqueued =>
    refine hs.content_of_handles (a := a) (List.mem_append_right _ ?_)
    rw [hstarts, List.mem_singleton] at hh
    rw [← queued_eq, hqueued, hh]
    exact List.mem_cons_self

/-- What a task is to resolve is unresolved. -/
theorem content_of_task (hs : w.scene.Sound) {t : TaskId} {task : Task}
    (ht : w.task? t = some task) :
    w.scene.content task.handle = .empty := by
  have hmem : (t, task) ∈ w.scene.tasks := Scene.mem_of_lookup ht
  exact hs.accounts.mem_holders.mp (Scene.mem_holders_of_task hmem)

/-! ### Offloaded operations -/

/-- A relay that is accepted is escorted. -/
theorem escorted_next (hs : w.scene.Sound) {x : Sending} (hx : w.sending act = some x)
    (hanswer : x.answer = none) {p : PoolId} {j : JobId} (hroute : x.route = .offloaded p j) :
    (w.next act).scene.Escorted x.actor x.handle p j := by
  obtain ⟨ms, ns, d, hms, hns⟩ := deeds_next hs act
  obtain ⟨⟨a, h, r⟩, ht, rfl⟩ := Option.map_eq_some_iff.mp hx
  cases hms.answers ht with
  | refused =>
    have hfull := hns.full_of_settled d
    have hempty := outcome?_eq_none_iff.mp hanswer
    rw [hfull] at hempty
    cases hempty
  | past hr _ =>
    rw [hr] at hroute
    cases hroute
  | admitted he hr _ =>
    rename_i e _
    cases e with
    | operation k body answer =>
      rw [← hr] at hroute
      cases hroute
    | relay k q i =>
      obtain ⟨rfl, rfl⟩ := Route.offloaded.inj (hr.trans hroute)
      obtain rfl : k = h := he
      exact d.escorted (List.mem_append_left _ (Mark.mem_ofAdmission.mpr (.inl rfl)))

/-- In a run all accepted relays are escorted. -/
theorem escorted_run (acts : List Act) : ∀ x ∈ sendings acts, x.answer = none →
    ∀ p j, x.route = .offloaded p j → (run acts).scene.Escorted x.actor x.handle p j := by
  induction acts using List.reverseRecOn with
  | nil =>
    intro x hx
    cases hx
  | append_singleton acts act ih =>
    intro x hx hanswer p j hroute
    have hs := sound_run acts
    rw [run_concat]
    rw [sendings_concat] at hx
    rcases List.mem_append.mp hx with hx | hx
    · obtain ⟨ms, ns, d, _⟩ := deeds_next hs act
      exact (ih x hx hanswer p j hroute).deeds d
    · exact escorted_next hs (Option.mem_toList.mp hx) hanswer hroute

/-- A relay in its place is unresolved. -/
theorem content_of_relays (hs : w.scene.Sound) {a : ActorId} {h : HandleId} {p : PoolId} {j : JobId}
    (hr : (w.scene.lane a).Relays h p j) : w.scene.content h = .empty := by
  refine hs.content_of_handles (a := a) (List.mem_append.mpr ?_)
  refine hr.imp (fun hi => ?_) fun hq => List.mem_map.mpr ⟨_, hq, rfl⟩
  rw [Lane.current_of_inside hi]
  exact List.mem_singleton_self _

/-! ### All bodies -/

/-- **Which bodies start late.** The body of what was sent starts after its handle is resolved
exactly if it was offloaded and its actor has been abandoned. -/
theorem late_iff_abandoned (acts : List Act) (act : Act) (x : Sending) (hx : x ∈ sendings acts)
    (hb : (run acts).Begins act x) :
    (run acts).outcome? x.handle ≠ none ↔ (run acts).Abandoned x := by
  have hs := sound_run acts
  -- What is in one place only starts in time.
  have inTime : (run acts).scene.content x.handle = .empty → (∀ p j, x.route ≠ .offloaded p j) →
      ((run acts).outcome? x.handle ≠ none ↔ (run acts).Abandoned x) := by
    intro hempty hroute
    refine ⟨fun h => absurd (outcome?_eq_none_iff.mpr hempty) h, ?_⟩
    rintro ⟨p, j, hr, _⟩
    exact absurd hr (hroute p j)
  rw [Begins] at hb
  split at hb
  · rename_i hroute
    exact inTime (content_of_starts hs hb) fun p j h => by simp [hroute] at h
  · rename_i hroute
    obtain ⟨t, course, _, ht⟩ := hb
    exact inTime (content_of_task hs ht) fun p j h => by simp [hroute] at h
  · rename_i p j hroute
    obtain ⟨hanswer, hqueued, _⟩ := hb
    have he := escorted_run acts x hx hanswer p j hroute
    rw [← pool_scene] at hqueued
    constructor
    · intro hresolved
      have hgone : ¬((run acts).scene.lane x.actor).Relays x.handle p j := fun hr =>
        hresolved (outcome?_eq_none_iff.mpr (content_of_relays hs hr))
      have hstop := (he.escort hqueued).resolve_left hgone
      have hopen : ((run acts).scene.lane x.actor).closed = false := by
        by_contra hclosed
        exact he.withdrawn (by simpa using hclosed) hqueued
      have hheld := hs.letGo x.actor hstop hopen
      rw [holds_scene_iff] at hheld
      rw [lane_scene] at hgone hstop hopen
      exact ⟨p, j, hroute, hstop, hopen, by simpa using hheld, hgone⟩
    · rintro ⟨q, i, hroute', _, _, _, hgone⟩ hnone
      obtain ⟨rfl, rfl⟩ := Route.offloaded.inj (hroute.symm.trans hroute')
      have hr := he.placed (outcome?_eq_none_iff.mp hnone)
      rw [lane_scene] at hr
      exact hgone hr

/-- Two operations of an actor are sent to a pool with one worker. The job of the first one waits at
a gate when the actor is let go; then the gate opens. -/
def lateRun : List Act :=
  [.call (.createActor "d" "logger" "log" {}), .call (.createPool "p" "crew" 1),
    .call (.send (.offload "d" "p" false [.gate "g", .push "first"] .value (.watched "x"))),
    .move (.runLoop 0), .move (.runLoop 0), .move (.worker 0 0),
    .call (.send (.offload "d" "p" false [.push "second"] .value (.watched "y"))),
    .call (.dropActor "d"), .move (.runLoop 0), .move (.runLoop 0),
    .call (.openGate "g"), .move (.worker 0 0), .move (.worker 0 0), .move (.worker 0 0)]

/-- The second one of these jobs. -/
def lateSending : Sending := { actor := 0, handle := 1, route := .offloaded 0 1, answer := none }

theorem mem_sendings_lateRun : lateSending ∈ sendings lateRun := by
  have hsent : sendings lateRun =
      [{ actor := 0, handle := 0, route := .offloaded 0 0, answer := none }, lateSending] := rfl
  rw [hsent]
  exact List.mem_cons_of_mem _ List.mem_cons_self

theorem begins_lateRun : (run lateRun).Begins (.move (.worker 0 0)) lateSending := by
  refine ⟨rfl, ?_, ?_⟩ <;> decide

theorem late_iff_abandoned_lateRun : ∃ x, x ∈ sendings lateRun ∧
    (run lateRun).Begins (.move (.worker 0 0)) x ∧
    ((run lateRun).outcome? x.handle ≠ none ↔ (run lateRun).Abandoned x) :=
  ⟨lateSending, mem_sendings_lateRun, begins_lateRun,
    late_iff_abandoned lateRun _ lateSending mem_sendings_lateRun begins_lateRun⟩

/-- **A body that starts late**: the second one starts when its handle shows that it was
discarded. -/
theorem starts_late : lateSending ∈ sendings lateRun ∧
    (run lateRun).Begins (.move (.worker 0 0)) lateSending ∧
    (run lateRun).outcome? lateSending.handle = some (.error .discarded) :=
  ⟨mem_sendings_lateRun, begins_lateRun, rfl⟩

end World

end Troupe
