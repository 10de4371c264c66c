import Troupe.Proofs.World.Growth
import Troupe.Proofs.World.Parts

/-!
# Clearing and closing, deed by deed

Clearing, closing and the two ends of a run loop drop envelopes. The jobs of dropped relays lose
their listeners, and the waiting jobs of a cleared or closed actor are withdrawn; both come before
the deed itself in the order that is proved here, so that a close finds none of the actor's jobs
waiting.

## Main definitions

* `World.closings` — what happens to pools when an actor is closed

## Main results

* `World.scene_clear`, `scene_shutActor` — what clearing and closing make of a scene
* `World.deeds_clear`, `deeds_shutActor` — dropping what waits
* `World.deeds_endLoop`, `deeds_abortLoop` — the two ends of a run loop
* `World.deeds_beginClose`, `deeds_endWait` — the two parts of a close
-/

namespace Troupe

namespace World

variable {w : World} {a : ActorId}

theorem scene_withdrawJobs (a : ActorId) (w : World) :
    (w.withdrawJobs a).2.scene =
      w.scene.onPools (Scene.cancels (w.scene.lane a).owner (w.scene.lane a).pools) := by
  rw [withdrawJobs, scene_cancelJobsIn, lane_scene]
  rfl

/-! ### Dropping what waits -/

/-- What clearing makes of a scene: operations are dropped, and jobs are withdrawn. -/
theorem scene_clear (a : ActorId) (w : World) :
    (w.clear a).2.scene = ((w.scene.onLane a fun l =>
      { l with queue := l.queue.filter (·.isRelay) }).settleAll
        (((w.scene.lane a).queue.filter (!·.isRelay)).map Envelope.handle) .lost).onPools
          (Scene.cancels (w.scene.lane a).owner (w.scene.lane a).pools) := by
  set operations := (w.actor a).mailbox.queue.filter (!·.isRelay) with hops
  set w' := (w.onActor a fun actor =>
    { actor with mailbox := (w.actor a).mailbox.clear.2 }).dropEnvelopes operations with hw'
  have hscene : w'.scene = (w.scene.onLane a fun l =>
      { l with queue := l.queue.filter (·.isRelay) }).settleAll
        (((w.scene.lane a).queue.filter (!·.isRelay)).map Envelope.handle) .lost := by
    rw [hw', scene_dropEnvelopes_onActor (g := fun l =>
      { l with queue := (w.actor a).mailbox.queue.filter (·.isRelay)
               shut := (w.actor a).mailbox.closed }) fun _ => rfl]
    rw [hops, deafens_operations, lane_scene]
    refine congrArg (Scene.settleAll _ _) (Scene.onLane_congr ?_)
    show _ = { w.scene.lane a with queue := (w.scene.lane a).queue.filter (·.isRelay) }
    rw [Scene.onPools, List.foldl_nil, lane_scene]
    rfl
  show (w'.withdrawJobs a).2.scene = _
  rw [scene_withdrawJobs, hscene]
  -- A lane keeps its tag and its pools whatever is dropped from it.
  refine congrArg₂ (fun owner pools => Scene.onPools (Scene.cancels owner pools) _) ?_ ?_
  all_goals
    rw [Scene.lane_settleAll, Scene.lane_onLane]
    split
    · rfl
    · rfl

/-- **Clearing an actor.** -/
theorem deeds_clear (a : ActorId) (w : World) : Deeds [.cleared a] w.scene (w.clear a).2.scene := by
  rw [scene_clear]
  exact (Deed.clear a).deeds.before (Scene.deeds_onPools (Scene.ofEvent_cancels _ _) _)

/-- What happens to pools when an actor is closed: nobody listens to the jobs of its relays any
more, and its waiting jobs are withdrawn. -/
def closings (l : Lane) : List (PoolId × Pool.Event Work Json) :=
  deafens l.queue ++ Scene.cancels l.owner l.pools

theorem ofEvent_closings (l : Lane) : ∀ x ∈ closings l, Mark.ofEvent x.1 x.2 = [] := fun x hx =>
  (List.mem_append.mp hx).elim (ofEvent_deafens _ x) (Scene.ofEvent_cancels _ _ x)

/-- What a close makes of a scene at once. Everything that happens to pools comes first. -/
theorem scene_shutActor (a : ActorId) (w : World) :
    (w.shutActor a).scene = ((w.scene.onPools (closings (w.scene.lane a))).onLane a fun l =>
      { l with queue := [], shut := true, closed := true, stopping := true }).settleAll
        (w.scene.lane a).waiting .lost := by
  set f : Lane → Lane := fun l =>
    { l with queue := [], shut := true, closed := true, stopping := true }
  set l := w.scene.lane a with hl
  have hqueue : (w.actor a).mailbox.queue = l.queue := by rw [hl, lane_scene]; rfl
  set w' := (w.onActor a fun actor =>
    { actor with closed := true, stopping := true, mailbox := { queue := [], closed := true } })
      |>.dropEnvelopes (w.actor a).mailbox.queue with hw'
  have hscene : w'.scene = ((w.scene.onPools (deafens l.queue)).onLane a f).settleAll
      l.waiting .lost := by
    rw [hw', scene_dropEnvelopes_onActor (g := f) fun _ => rfl, hqueue]
    rfl
  have hend : (w.shutActor a).scene = (w'.withdrawJobs a).2.scene := by
    have congr : ∀ {w₁ w₂ : World} (es : List Envelope), w₁.scene = w₂.scene →
        ((w₁.dropEnvelopes es).withdrawJobs a).2.scene =
          ((w₂.dropEnvelopes es).withdrawJobs a).2.scene := by
      intro w₁ w₂ es h
      rw [scene_withdrawJobs, scene_withdrawJobs, scene_dropEnvelopes, scene_dropEnvelopes, h]
    exact congr _ (by split <;> rfl)
  have hcancels : Scene.cancels (w'.scene.lane a).owner (w'.scene.lane a).pools =
      Scene.cancels l.owner l.pools := by
    refine congrArg₂ Scene.cancels ?_ ?_
    all_goals
      rw [hscene, Scene.lane_settleAll, Scene.lane_onLane, Scene.lane_onPools]
      split
      · rfl
      · rfl
  rw [hend, scene_withdrawJobs, hcancels, hscene, Scene.onPools_settleAll, Scene.onPools_onLane,
    ← Scene.onPools_append]
  rfl

/-- **What a close does at once.** -/
theorem deeds_shutActor (hs : w.scene.Sound) (ha : a < w.actors.length)
    (hopen : (w.actor a).closed = false) :
    Deeds [.shut a] w.scene (w.shutActor a).scene ∧ ((w.shutActor a).actor a).closed = true := by
  set s := w.scene.onPools (closings (w.scene.lane a)) with hpools
  have hlane : s.lane a = w.scene.lane a := Scene.lane_onPools ..
  have hlt : a < s.lanes.length := by
    rw [hpools, Scene.onPools_eq]
    simpa using ha
  have hscene := scene_shutActor a w
  refine ⟨?_, ?_⟩
  · have hwaiting : (w.scene.lane a).waiting = (s.lane a).waiting := by rw [hlane]
    rw [hscene, hwaiting]
    refine (Scene.deeds_onPools (ofEvent_closings _) w.scene).after
      (Deed.shut hlt ?_ fun p hp job hjob => ?_).deeds
    · rw [hlane, lane_scene]
      exact hopen
    · rw [hlane] at hp ⊢
      rw [hpools, closings, Scene.onPools_append] at hjob
      exact (hs.deeds (Scene.deeds_onPools (ofEvent_deafens _) _)).owner_of_cancels hp hjob
  · have hclosed : ((w.shutActor a).scene.lane a).closed = true := by
      rw [hscene, Scene.lane_settleAll, Scene.lane_onLane, if_pos ⟨rfl, hlt⟩]
    rw [lane_scene] at hclosed
    exact hclosed

/-! ### Ends of run loops -/

/-- **A run loop ends by itself.** -/
theorem deeds_endLoop (hloop : (w.actor a).loop = .idle) (hstop : (w.actor a).stopping = true) :
    Deeds [.quit a] w.scene (w.endLoop a).scene := by
  set es := deafens (w.actor a).mailbox.queue
  have hscene : (w.endLoop a).scene = ((w.scene.onPools es).onLane a fun l =>
      { l with queue := [], loop := .ended }).settleAll
        ((w.scene.onPools es).lane a).waiting .lost := by
    have := scene_dropEnvelopes_onActor (w := w) (a := a)
      (f := fun actor =>
        { actor with loop := .ended, mailbox := { actor.mailbox with queue := [] } })
      (g := fun l => { l with queue := [], loop := .ended }) (fun _ => rfl)
      (w.actor a).mailbox.queue
    rw [Scene.lane_onPools, lane_scene]
    exact this
  rw [hscene]
  refine (Scene.deeds_onPools (ofEvent_deafens _) w.scene).after (Deed.quit ?_ ?_).deeds
  · rw [Scene.lane_onPools, lane_scene]
    exact hloop
  · rw [Scene.lane_onPools, lane_scene]
    exact hstop

/-- **The run loop of a closed actor is aborted.** -/
theorem deeds_abortLoop (hclosed : (w.actor a).closed = true) :
    Deeds [.aborted a] w.scene (w.abortLoop a).scene := by
  set w' := w.onActor a fun actor => { actor with loop := .ended } with hw'
  have hended : w'.scene = w.scene.onLane a fun l => { l with loop := .ended } :=
    scene_onActor fun _ => rfl
  have habort : Deeds [.aborted a] w.scene (w'.scene.settleAll (w.scene.lane a).current .lost) := by
    rw [hended]
    exact (Deed.abort (by rw [lane_scene]; exact hclosed)).deeds
  have hlane : (w.scene.lane a).loop = (w.actor a).loop := congrArg Lane.loop (lane_scene w a)
  cases hloop : (w.actor a).loop with
  | starting | idle | ended =>
    rw [Lane.current, hlane, hloop] at habort
    simp only [abortLoop, hloop, scene_report]
    exact habort
  | inside i =>
    rw [Lane.current, hlane, hloop] at habort
    cases i with
    | operation h course =>
      simp only [abortLoop, hloop, scene_report, scene_lose]
      exact habort
    | relay h p j =>
      simp only [abortLoop, hloop, scene_report]
      have hlost : Deeds [.aborted a] w.scene (w'.lose h).scene := by
        rw [scene_lose]
        exact habort
      exact hlost.before (deeds_deafen _ _)

/-! ### The parts of a close -/

theorem deeds_detach (a : ActorId) (w : World) : Deeds [] w.scene (w.detach a).scene := by
  rw [detach]
  split
  · exact .refl _
  · rename_i s key _
    have hsame : (w.onActor a fun actor => { actor with registration := none }).scene = w.scene :=
      scene_onActor_self fun _ => rfl
    simp only
    split
    · rw [scene_report, ← hsame]
      exact deeds_onSystem_forget (fun _ => List.filter_subset_self _) (fun _ => rfl) fun _ => rfl
    · exact .of_eq hsame.symm

theorem deeds_finishClose (a : ActorId) (w : World) : Deeds [] w.scene (w.finishClose a).scene := by
  have hsame : (w.onActor a fun actor => { actor with holdsTarget := false }).scene = w.scene :=
    scene_onActor_self fun _ => rfl
  show Deeds [] w.scene
    ((w.onActor a fun actor => { actor with holdsTarget := false }).detach a).scene
  rw [← hsame]
  exact deeds_detach a _

/-- **The first part of a close.** What is to be waited for is a closed actor, and never the one on
whose run loop the close was asked for. -/
theorem deeds_beginClose (hs : w.scene.Sound) (ha : a < w.actors.length)
    (runLoop : Option ActorId) (system : Option SystemId) :
    ∃ ms, Deeds ms w.scene (w.beginClose runLoop system a).2.scene ∧ (∀ m ∈ ms, m = .shut a) ∧
      ∀ wait, (w.beginClose runLoop system a).1 = some wait →
        ((w.beginClose runLoop system a).2.actor wait.actor).closed = true ∧
          runLoop ≠ some wait.actor := by
  rw [beginClose]
  by_cases hclosed : (w.actor a).closed = true
  · simp only [hclosed, if_true]
    exact ⟨[], .refl _, by simp, by simp⟩
  · obtain ⟨hshut, hnow⟩ := deeds_shutActor hs ha (by simpa using hclosed)
    simp only [hclosed, Bool.false_eq_true, if_false]
    by_cases hself : runLoop = some a
    · simp only [hself, if_true]
      exact ⟨[.shut a], hshut.before (deeds_finishClose a _), by simp, by simp⟩
    · simp only [hself, if_false]
      refine ⟨[.shut a], hshut, by simp, ?_⟩
      rintro wait hwait
      cases hwait
      exact ⟨hnow, hself⟩

/-- The actor is closed after the first part of its close, whoever has closed it. -/
theorem closed_beginClose (hs : w.scene.Sound) (ha : a < w.actors.length)
    (runLoop : Option ActorId) (system : Option SystemId) :
    ((w.beginClose runLoop system a).2.actor a).closed = true := by
  rw [beginClose]
  by_cases hclosed : (w.actor a).closed = true
  · rw [if_pos hclosed]
    exact hclosed
  · obtain ⟨_, hnow⟩ := deeds_shutActor hs ha (by simpa using hclosed)
    rw [if_neg hclosed]
    by_cases hself : runLoop = some a
    · have hgrows := Scene.Grows.of_deeds (deeds_finishClose a (w.shutActor a))
      have := hgrows.closed (a := a) (by rw [lane_scene]; exact hnow)
      rw [lane_scene] at this
      simp only [hself, if_true]
      exact this
    · simp only [hself, if_false]
      exact hnow

/-- **The end of the wait**, which is for a closed actor. -/
theorem deeds_endWait {wait : Wait} (hclosed : (w.actor wait.actor).closed = true) :
    ∃ ms, Deeds ms w.scene (w.endWait wait).scene ∧ (∀ m ∈ ms, m = .aborted wait.actor) := by
  rw [endWait]
  by_cases hended : w.loopEnded wait.actor = true
  · simp only [hended, if_true]
    exact ⟨[], deeds_finishClose _ _, by simp⟩
  · simp only [hended, Bool.false_eq_true, if_false]
    exact ⟨_, (deeds_abortLoop hclosed).before (deeds_finishClose _ _), by simp⟩

end World

end Troupe
