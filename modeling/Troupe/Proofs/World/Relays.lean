import Troupe.Proofs.World.Handles

/-!
# Relays and their jobs

An offloaded operation is in two places: its relay keeps its turn in the mailbox, and its job waits
in a pool. The two do not know each other. What ties them is how a relay can go away while its job
still waits: not by a clear, which leaves relays alone; not by a close, which withdraws the jobs;
not by its turn, which comes when the job does not wait any more. What is left is the end of a run
loop that was told to stop, without a close.

## Main definitions

* `Scene.Escorted` — what is known of a relay and its job

## Main results

* `Deed.relays` — when a relay goes away, it is resolved, and there are few ways
* `Deeds.escorted` — the invariant holds from the moment the relay joins the mailbox
* `Deed.allEscorted` — so it holds of all relays
-/

namespace Troupe

variable {s t : Scene} {ms : List Mark} {a : ActorId} {h : HandleId} {p : PoolId} {j : JobId}

namespace Scene

/-- What is known of a relay and its job. -/
structure Escorted (s : Scene) (a : ActorId) (h : HandleId) (p : PoolId) (j : JobId) : Prop where
  /-- The actor is there. -/
  lane_lt : a < s.lanes.length
  /-- The handle is there. -/
  made : h < s.contents.length
  /-- The pool is there. -/
  pool_lt : p < s.pools.length
  /-- The job has been submitted. -/
  submitted : j < (s.pool p).channels.length
  /-- The actor has used the pool. -/
  used : p ∈ (s.lane a).pools
  /-- The job is on behalf of the actor. -/
  owned : ∀ t ∈ (s.pool p).openLabels, t.1 = j → t.2 = some (s.lane a).owner
  /-- The job does not wait once the actor is closed. -/
  withdrawn : (s.lane a).closed = true → j ∉ (s.pool p).queuedIds
  /-- An unresolved handle is that of a relay in its place. -/
  placed : s.content h = .empty → (s.lane a).Relays h p j
  /-- A job that waits has a relay in its place, unless the run loop is to stop. -/
  escort : j ∈ (s.pool p).queuedIds → (s.lane a).Relays h p j ∨ (s.lane a).stopping = true

end Scene

/-! ### Pools -/

/-- Something happens to a pool, or there is a new one, or no pool changes. -/
theorem Deed.pools_cases (d : Deed ms s t) : t.pools = s.pools ∨
    (∃ q e, t = s.onPool q e ∧ ms = Mark.ofEvent q e) ∨
      ∃ q, q.queue = [] ∧ t.pools = s.pools ++ [q] := by
  cases d with
  | pool q e => exact .inr (.inl ⟨q, e, rfl, rfl⟩)
  | found hp => exact .inr (.inr ⟨_, Pool.queue_of_create hp, rfl⟩)
  | roster _ _ | enroll _ | stop _ | settled _ | drain _ | begin _ _ _ | setTask _ _ _ _ =>
    exact .inl rfl
  | remember _ _ | accept _ _ _ _ _ | start _ | enter _ _ _ | proceed _ _ => exact .inl rfl
  | endTask _ _ | finish _ _ _ | clear _ | shut _ _ _ | abort _ | quit _ _ =>
    exact .inl (Scene.settleAll_frame _ _).2.2.2.1

theorem Deed.length_pools (d : Deed ms s t) : s.pools.length ≤ t.pools.length := by
  rcases d.pools_cases with h | ⟨q, e, rfl, _⟩ | ⟨q, _, h⟩
  · exact Nat.le_of_eq (congrArg List.length h).symm
  · exact Nat.le_of_eq (List.length_modify ..).symm
  · simp [h]

/-- An old pool stays as it is, or something happens to it, and it shows. -/
theorem Deed.pool_cases (d : Deed ms s t) (hp : p < s.pools.length) :
    t.pool p = s.pool p ∨
      ∃ e, t.pool p = (s.pool p).apply e ∧ ∀ m ∈ Mark.ofEvent p e, m ∈ ms := by
  rcases d.pools_cases with h | ⟨q, e, rfl, rfl⟩ | ⟨q, _, h⟩
  · exact .inl (by rw [Scene.pool, Scene.pool, h])
  · rw [Scene.pool_onPool]
    split
    · rename_i hq
      obtain ⟨rfl, _⟩ := hq
      exact .inr ⟨e, rfl, fun _ hm => hm⟩
    · exact .inl rfl
  · exact .inl (by rw [Scene.pool, Scene.pool, h, List.getElem?_append_left hp])

/-- A job that waits has waited before, unless it is new, and no job changes hands. -/
theorem Deed.mem_queue (d : Deed ms s t) (hp : p < s.pools.length) :
    (s.pool p).channels.length ≤ (t.pool p).channels.length ∧
      (∀ job ∈ (t.pool p).queue, job.id < (s.pool p).channels.length → job ∈ (s.pool p).queue) ∧
      ∀ x ∈ (t.pool p).openLabels, x.1 < (s.pool p).channels.length →
        x ∈ (s.pool p).openLabels := by
  rcases d.pool_cases hp with h | ⟨e, h, _⟩
  · rw [h]
    exact ⟨Nat.le_refl _, fun _ hjob _ => hjob, fun _ hx _ => hx⟩
  · rw [h]
    exact ⟨Pool.length_channels_le_apply _ e,
      fun job hjob hlt => (Pool.mem_queue_of_apply hjob).resolve_right fun hnew =>
        Nat.ne_of_lt hlt hnew.1,
      fun x hx hlt => (Pool.mem_openLabels_of_apply hx).resolve_right fun hnew =>
        Nat.ne_of_lt hlt hnew.2.1⟩

/-! ### Relays -/

/-- **When a relay goes away**, it is resolved. Either its run loop is to stop, or its actor is
closed, or its job does not wait any more. -/
theorem Deed.relays (d : Deed ms s t) (hr : (s.lane a).Relays h p j) :
    (t.lane a).Relays h p j ∨ t.content h ≠ .empty ∧
      ((t.lane a).stopping = true ∨ (s.lane a).closed = true ∨ j ∉ (s.pool p).queuedIds) := by
  -- A change of one lane that leaves its relays where they are.
  have keeps : ∀ {s : Scene} {b : ActorId} {f : Lane → Lane}, (s.lane a).Relays h p j →
      ((s.lane b).Relays h p j → (f (s.lane b)).Relays h p j) →
      ((s.onLane b f).lane a).Relays h p j := by
    intro s b f hr hf
    rw [Scene.lane_onLane]
    split
    · rename_i hb
      rw [hb.1] at hr
      exact hf hr
    · exact hr
  -- A relay that waits goes with all that waits.
  have waits : .relay h p j ∈ (s.lane a).queue → h ∈ (s.lane a).waiting := List.mem_map_of_mem
  have lost : ∀ {hs : List HandleId}, h ∈ hs → (s.settleAll hs .lost).content h ≠ .empty :=
    fun hmem he => Scene.not_mem_of_settleAll (by simp) he hmem
  cases d with
  | roster _ _ | found _ | pool _ _ | settled _ | drain _ | begin _ _ _ | setTask _ _ _ _ =>
    exact .inl hr
  | enroll hl =>
    obtain ⟨hloop, hqueue⟩ := Scene.lane_enroll (s := s) hl a
    refine .inl ?_
    rwa [Lane.Relays, hloop, hqueue]
  | stop _ =>
    rw [Scene.lane_stopAll]
    split <;> exact .inl hr
  | endTask _ _ =>
    refine .inl ?_
    show ((Scene.settleAll _ _ s).lane a).Relays h p j
    rwa [Scene.lane_settleAll]
  | remember _ _ =>
    refine .inl (keeps hr fun hr => ?_)
    rwa [Lane.remember_eq]
  | accept _ _ _ _ _ =>
    exact .inl (keeps (s := s.grow .empty) hr fun hr => hr.imp_right (List.mem_append_left _))
  | clear b =>
    rw [Scene.lane_settleAll]
    exact .inl (keeps hr fun hr => hr.imp_right fun hq => List.mem_filter.mpr ⟨hq, rfl⟩)
  | shut hb _ _ =>
    rename_i b
    rw [Scene.lane_settleAll, Scene.content_onLane_settleAll, Scene.lane_onLane]
    split
    · rename_i hab
      rw [← hab.1]
      exact hr.imp .inl fun hq => ⟨lost (waits hq), .inl rfl⟩
    · exact .inl hr
  | abort hclosed =>
    rename_i b
    rw [Scene.lane_settleAll, Scene.content_onLane_settleAll, Scene.lane_onLane]
    split
    · rename_i hab
      rw [← hab.1] at hclosed ⊢
      refine hr.symm.imp .inr fun hi => ⟨lost ?_, .inr (.inl hclosed)⟩
      simp [Lane.current_of_inside hi, Inside.handle]
    · exact .inl hr
  | start hloop =>
    refine .inl (keeps hr fun hr => .inr (hr.resolve_left fun hi => ?_))
    rw [hloop] at hi
    cases hi
  | quit hloop hstop =>
    rename_i b
    rw [Scene.lane_settleAll, Scene.content_onLane_settleAll, Scene.lane_onLane]
    split
    · rename_i hab
      rw [← hab.1] at hloop hstop ⊢
      refine .inr ⟨lost (waits (hr.resolve_left fun hi => ?_)), .inl hstop⟩
      rw [hloop] at hi
      cases hi
    · exact .inl hr
  | enter hloop _ hqueue =>
    refine .inl (keeps hr fun hr => ?_)
    rcases hr with hi | hq
    · rw [hloop] at hi
      cases hi
    · rw [hqueue] at hq
      refine (List.mem_cons.mp hq).imp (fun heq => ?_) id
      rw [← heq]
      rfl
  | proceed hloop _ =>
    refine .inl (keeps hr fun hr => .inr (hr.resolve_left fun hi => ?_))
    rw [hloop] at hi
    cases hi
  | finish hloop hdone o =>
    rename_i b i
    have hlane := Scene.lane_settleAll [i.handle] (.full o) s
    rw [Scene.lane_onLane, hlane, hlane]
    split
    · rename_i hab
      rw [← hab.1] at hloop hdone ⊢
      refine hr.symm.imp .inr fun hi => ?_
      obtain rfl : i = .relay h p j := by simpa [hloop] using hi
      refine ⟨fun he =>
        Scene.not_mem_of_settleAll (s := s) (by simp) he (by simp [Inside.handle]), ?_⟩
      exact (hdone h p j rfl).symm.imp_right .inr
    · exact .inl hr

/-- A close shows, and withdraws all jobs of the actor from the pools that it has used. -/
theorem Deed.closed_cases (d : Deed ms s t) (ha : a < s.lanes.length)
    (hclosed : (t.lane a).closed = true) : (s.lane a).closed = true ∨ .shut a ∈ ms ∧
      ∀ p ∈ (s.lane a).pools, ∀ job ∈ (t.pool p).queue, job.owner ≠ some (s.lane a).owner := by
  have same : ∀ {s : Scene} {b : ActorId} {f : Lane → Lane},
      ((s.onLane b f).lane a).closed = true → (∀ l, (f l).closed = l.closed) →
      (s.lane a).closed = true := by
    intro s b f h hf
    rw [Scene.lane_onLane] at h
    split at h
    · rename_i hb
      rwa [hf, ← hb.1] at h
    · exact h
  cases d with
  | roster _ _ | found _ | pool _ _ | settled _ | drain _ | begin _ _ _ | setTask _ _ _ _ =>
    exact .inl hclosed
  | enroll _ =>
    refine .inl ?_
    rwa [Scene.lane, List.getElem?_append_left ha, ← Scene.lane] at hclosed
  | stop _ =>
    rw [Scene.lane_stopAll] at hclosed
    split at hclosed <;> exact .inl hclosed
  | endTask hi o =>
    rename_i i task
    rw [← Scene.lane_settleAll [task.handle] (.full o) s a]
    exact .inl hclosed
  | remember _ _ =>
    refine .inl (same hclosed fun l => ?_)
    rw [Lane.remember_eq]
  | accept _ _ _ _ _ => exact .inl (same (s := s.grow .empty) hclosed fun _ => rfl)
  | clear _ | abort _ | quit _ _ =>
    rw [Scene.lane_settleAll] at hclosed
    exact .inl (same hclosed fun _ => rfl)
  | start _ | enter _ _ _ | proceed _ _ => exact .inl (same hclosed fun _ => rfl)
  | finish _ _ o =>
    rename_i b i _ _
    rw [← Scene.lane_settleAll [i.handle] (.full o) s a]
    exact .inl (same hclosed fun _ => rfl)
  | shut hb hopen hjobs =>
    rename_i b
    rw [Scene.lane_settleAll, Scene.lane_onLane] at hclosed
    split at hclosed
    · rename_i hab
      rw [hab.1]
      refine .inr ⟨List.mem_singleton_self _, fun p hp job hjob => hjobs p hp job ?_⟩
      rwa [Scene.pool, (Scene.settleAll_frame _ _).2.2.2.1] at hjob
    · exact .inl hclosed

namespace Scene

/-- **A deed** keeps a relay and its job together. -/
theorem Escorted.deed (he : s.Escorted a h p j) (d : Deed ms s t) : t.Escorted a h p j := by
  have hgrows := Grows.of_deed d
  have hlane := hgrows.lane a he.lane_lt
  obtain ⟨hchannels, hqueue, hlabels⟩ := d.mem_queue he.pool_lt
  -- The job waits only if it has waited before.
  have hold : ∀ job ∈ (t.pool p).queue, job.id = j → job ∈ (s.pool p).queue :=
    fun job hjob hid => hqueue job hjob (hid ▸ he.submitted)
  have hwaited : j ∈ (t.pool p).queuedIds → j ∈ (s.pool p).queuedIds := by
    intro hj
    obtain ⟨job, hjob, hid⟩ := Pool.mem_queuedIds.mp hj
    exact Pool.mem_queuedIds.mpr ⟨job, hold job hjob hid, hid⟩
  have hwithdrawn : (t.lane a).closed = true → j ∉ (t.pool p).queuedIds := by
    intro hclosed hj
    rcases d.closed_cases he.lane_lt hclosed with hclosed | ⟨_, hjobs⟩
    · exact he.withdrawn hclosed (hwaited hj)
    · obtain ⟨job, hjob, hid⟩ := Pool.mem_queuedIds.mp hj
      have howner := he.owned job.label (Pool.label_of_queued (hold job hjob hid)) hid
      exact hjobs p he.used job hjob howner
  refine ⟨Nat.lt_of_lt_of_le he.lane_lt hgrows.lanes, Nat.lt_of_lt_of_le he.made hgrows.contents,
    Nat.lt_of_lt_of_le he.pool_lt d.length_pools, Nat.lt_of_lt_of_le he.submitted hchannels,
    hlane.pools he.used, fun x hx hid => ?_, hwithdrawn, fun hempty => ?_, fun hj => ?_⟩
  · rw [hlane.owner]
    exact he.owned x (hlabels x hx (hid ▸ he.submitted)) hid
  · have hpending : s.content h = .empty := by
      by_contra hne
      exact hgrows.resolved h he.made hne hempty
    exact (d.relays (he.placed hpending)).resolve_right fun hgone => hgone.1 hempty
  · rcases he.escort (hwaited hj) with hr | hstop
    · rcases d.relays hr with hr | ⟨_, hstop | hclosed | hnot⟩
      · exact .inl hr
      · exact .inr hstop
      · exact absurd (hwaited hj) (he.withdrawn hclosed)
      · exact absurd (hwaited hj) hnot
    · exact .inr (hlane.stopping hstop)

theorem Escorted.deeds (he : s.Escorted a h p j) (d : Deeds ms s t) : t.Escorted a h p j := by
  induction d with
  | refl s => exact he
  | cons d _ ih => exact ih (he.deed d)

end Scene

theorem Deed.escorted (d : Deed ms s t) (hm : .admitted a (.relay h p j) ∈ ms) :
    t.Escorted a h p j := by
  cases d with
  | accept ha _ hopen he hrelay =>
    obtain ⟨rfl, rfl⟩ := Mark.admitted.inj (List.mem_singleton.mp hm)
    obtain ⟨hused, hpool, hsubmitted, howned⟩ := hrelay h p j rfl
    have hlane : ((s.grow .empty).onLane a fun l => { l with
        queue := l.queue ++ [.relay h p j] }).lane a =
        { s.lane a with queue := (s.lane a).queue ++ [.relay h p j] } := by
      rw [Scene.lane_onLane]
      exact if_pos ⟨rfl, ha⟩
    have hplaced : (((s.grow .empty).onLane a fun l => { l with
        queue := l.queue ++ [.relay h p j] }).lane a).Relays h p j := by
      rw [hlane]
      exact .inr (by simp)
    refine ⟨?_, ?_, hpool, hsubmitted, ?_, ?_, ?_, fun _ => hplaced, fun _ => .inl hplaced⟩
    · rw [Scene.length_lanes_onLane]
      exact ha
    · rw [show h = s.contents.length from he]
      simp [Scene.onLane, Scene.grow]
    · rw [hlane]
      exact hused
    · rw [hlane]
      exact howned
    · rw [hlane]
      intro hclosed
      rw [show (s.lane a).closed = true from hclosed] at hopen
      cases hopen
  | pool q e => simpa using Mark.mem_ofEvent hm
  | _ => simp at hm

/-- **A relay is escorted** from the moment it joins the mailbox. -/
theorem Deeds.escorted (d : Deeds ms s t) (hm : .admitted a (.relay h p j) ∈ ms) :
    t.Escorted a h p j := by
  induction d with
  | refl s => cases hm
  | cons d ds ih =>
    rcases List.mem_append.mp hm with hfirst | hrest
    · exact (d.escorted hfirst).deeds ds
    · exact ih hrest

/-! ### All relays -/

/-- A relay has been in its place before, or joins the mailbox. -/
theorem Deed.relays_before (d : Deed ms s t) (hr : (t.lane a).Relays h p j) :
    (s.lane a).Relays h p j ∨ .admitted a (.relay h p j) ∈ ms := by
  rcases hr with hi | hq
  · refine .inl ?_
    have keep : (∀ m ∈ ms, m.loop? ≠ some a) → (s.lane a).Relays h p j := fun hm =>
      .inl (d.loop_eq hm ▸ hi)
    cases d with
    | abort _ | quit _ _ =>
      rw [Scene.lane_settleAll, Scene.lane_onLane] at hi
      split at hi
      · cases hi
      · exact .inl hi
    | start _ | proceed _ _ =>
      rw [Scene.lane_onLane] at hi
      split at hi
      · cases hi
      · exact .inl hi
    | finish _ _ _ =>
      rw [Scene.lane_onLane, Scene.lane_settleAll] at hi
      split at hi
      · cases hi
      · exact .inl hi
    | enter hloop hstop hqueue =>
      rename_i b e queue
      rw [Scene.lane_onLane] at hi
      split at hi
      · rename_i hb
        rw [hb.1, Lane.Relays, hqueue]
        cases e with
        | operation _ _ _ => cases hi
        | relay _ _ _ =>
          cases hi
          exact .inr List.mem_cons_self
      · exact .inl hi
    | pool q e =>
      refine keep fun m hm => ?_
      rcases Mark.mem_ofEvent hm with rfl | ⟨_, rfl⟩ | ⟨_, rfl⟩ <;> simp [Mark.loop?]
    | _ => exact keep (by simp [Mark.loop?])
  · exact (d.mem_waiting hq).imp_left .inr

/-- Every relay in its place is escorted. -/
def Scene.AllEscorted (s : Scene) : Prop :=
  ∀ a h p j, (s.lane a).Relays h p j → s.Escorted a h p j

/-- **All relays are escorted**, whatever is done. -/
theorem Deed.allEscorted (d : Deed ms s t) (hs : s.AllEscorted) : t.AllEscorted := by
  intro a h p j hr
  rcases d.relays_before hr with hold | hnew
  · exact (hs a h p j hold).deed d
  · exact d.escorted hnew

end Troupe
