import Troupe.Proofs.World.Resolutions
import Troupe.Proofs.World.Terminations

/-!
# Letting go

An actor that nobody holds any more is told to stop. This is less than a close. The actor is not
closed by it, nothing is taken from its mailbox at once, and whatever it is inside of is finished.
But its run loop begins with nothing more, and it ends as soon as it is inside of nothing. What has
waited until then is discarded.

There is no way back. Whoever gets hold of an actor either has found it in a system or has made it,
and a system that knows it holds it.

## Main definitions

* `Scene.LeftAlone` — nobody holds an actor, which is to stop
* `World.LetGo` — what becomes of an actor that nobody holds

## Main results

* `Scene.LeftAlone.deed` — nobody gets hold of an actor again that nobody holds
* `World.starts_of_stopping` — a run loop that is to stop begins with nothing
* `World.queued_or_discarded` — what waits then waits on, or is discarded
* `World.letGo_run` — what becomes of an actor that nobody holds
-/

namespace Troupe

namespace Scene

variable {s t : Scene} {ms : List Mark} {a : ActorId}

/-- Nobody holds an actor, which is to stop. -/
structure LeftAlone (s : Scene) (a : ActorId) : Prop where
  /-- The actor is there. -/
  there : a < s.lanes.length
  /-- It is to stop. -/
  stops : (s.lane a).stopping = true
  /-- Nobody holds it. -/
  unheld : ¬s.Holds a

/-- **Nobody gets hold of an actor again** that nobody holds. -/
theorem LeftAlone.deed (d : Deed ms s t) (h : s.LeftAlone a) : t.LeftAlone a := by
  have hgrows := Grows.of_deed d
  refine ⟨Nat.lt_of_lt_of_le h.there hgrows.lanes, (hgrows.lane a h.there).stopping h.stops,
    fun hholds => h.unheld ?_⟩
  -- Lanes, handles and pools hold nobody.
  have same : t.held = s.held → t.tasks = s.tasks → s.Holds a := by
    intro hheld htasks
    rwa [Holds, hheld, htasks] at hholds
  cases d with
  | roster hheld _ =>
    refine hholds.imp_left fun hmem => (hheld a hmem).resolve_right fun hnew => ?_
    rw [h.stops] at hnew
    exact Bool.false_ne_true hnew.2.symm
  | begin _ _ hk =>
    rcases hholds with hmem | ⟨x, hx, hxa⟩
    · exact .inl hmem
    · rcases List.mem_append.mp hx with hx | hx
      · exact .inr ⟨x, hx, hxa⟩
      · rw [List.mem_singleton.mp hx] at hxa
        exact .inl (hk a hxa)
  | @setTask _ i old t hi _ _ hk =>
    refine hholds.imp_right ?_
    rintro ⟨x, hx, hxa⟩
    obtain ⟨⟨k, task⟩, hmem, rfl⟩ := List.mem_map.mp hx
    by_cases hki : k = i
    · simp only [if_pos hki] at hxa
      exact ⟨(i, old), mem_of_lookup hi, hk a hxa⟩
    · simp only [if_neg hki] at hxa
      exact ⟨(k, task), hmem, hxa⟩
  | endTask _ _ =>
    rcases hholds with hmem | ⟨x, hx, hxa⟩
    · exact .inl (by simpa [endTask] using hmem)
    · exact .inr ⟨x, by simpa [endTask] using (List.mem_filter.mp hx).1, hxa⟩
  | enroll _ _ | found _ | pool _ _ | stop _ | settled _ | drain _ | remember _ _
  | accept _ _ _ _ _ | start _ | enter _ _ _ | proceed _ _ => exact same rfl rfl
  | clear _ | shut _ _ _ | abort _ | quit _ _ | finish _ _ _ =>
    exact same (by simp [onLane]) (by simp [onLane])

end Scene

namespace World

variable {w : World} {a : ActorId} {act : Act}

/-- Only a run loop that is not to stop goes into an envelope. -/
theorem Explains.of_entered {ms : List Mark} {e : Envelope} (h : w.Explains act ms)
    (he : .entered a e ∈ ms) : (w.scene.lane a).stopping = false := by
  cases h with
  | enters _ _ _ hstop _ =>
    obtain ⟨rfl, -⟩ : a = _ ∧ e = _ := by simpa using he
    exact hstop
  | closes _ hms =>
    obtain ⟨_, _, hm⟩ := hms _ he
    cases hm
  | sends _ hms => cases hms <;> simp [Mark.mem_ofAdmission] at he
  | quits _ _ _ _ | clears _ _ | takes _ _ _ | submits _ _ | fails _ => simp at he

/-- **A run loop that is to stop begins with nothing.** -/
theorem starts_of_stopping (hs : w.scene.Sound) (hstop : (w.actor a).stopping = true) (act : Act) :
    w.starts a act = [] := by
  obtain ⟨ms, ns, d, hms, hns⟩ := deeds_next hs act
  refine starts_eq_nil (d.current_eq fun e he => ?_)
  rcases List.mem_append.mp he with he | he
  · have hrunning := hms.of_entered he
    rw [lane_scene] at hrunning
    exact Bool.false_ne_true (hrunning.symm.trans hstop)
  · exact hns.not_mem (by simp) he

/-- **A run loop that is to stop and cannot move** has ended, or it is inside of an operation that
waits at a gate or for a close. -/
theorem ended_of_stuck (hs : w.scene.Sound) (hstop : (w.actor a).stopping = true)
    (hstuck : w.step (.runLoop a) = none) :
    (w.actor a).loop = .ended ∨ w.AtGate (.runLoop a) ∨ w.Awaits (.runLoop a) := by
  have hloop := Option.map_eq_none_iff.mp hstuck
  rw [stepLoop] at hloop
  split at hloop
  · cases hloop
  · simp [hstop] at hloop
  · rename_i i hinside
    cases i with
    | operation h c =>
      have hm : w.operation? (.runLoop a) = some (.runLoop a, h, c) := by rw [operation?, hinside]
      exact .inr ((held_up hs hm hstuck).imp_right And.right)
    | relay h p j =>
      rw [stepInside] at hloop
      split at hloop
      · cases hloop
      · simp [hstop] at hloop
  · rename_i hended
    exact .inl hended

/-! ### Runs -/

/-- What becomes of an actor that nobody holds, between two points of a run. -/
structure LetGo (a : ActorId) (before later : List Act) : Prop where
  /-- Nobody gets hold of it again. -/
  unheld : (run (before ++ later)).holdsActor a = false
  /-- Its run loop is to stop, -/
  stops : ((run (before ++ later)).actor a).stopping = true
  /-- and begins with nothing more. -/
  started : started a (before ++ later) = started a before
  /-- What waited waits on, or has been discarded. -/
  queued : ∀ h ∈ (run before).queued a, h ∈ (run (before ++ later)).queued a ∨
    (run (before ++ later)).outcome? h = some (.error .discarded)
  /-- Where its run loop cannot move any more, it has ended, and what waited has been discarded;
  or it is inside of an operation that waits at a gate or for a close. -/
  ends : (run (before ++ later)).step (.runLoop a) = none →
    (run (before ++ later)).loopEnded a = true ∧
      (∀ h ∈ (run before).queued a,
        (run (before ++ later)).outcome? h = some (.error .discarded)) ∨
    (run (before ++ later)).AtGate (.runLoop a) ∨ (run (before ++ later)).Awaits (.runLoop a)

/-- Whom nobody holds, nobody gets hold of again. -/
theorem leftAlone_run (before later : List Act) (h : (run before).scene.LeftAlone a) :
    (run (before ++ later)).scene.LeftAlone a :=
  keep_run (P := (·.LeftAlone a)) (fun _ d h => h.deed d) before later h

theorem leftAlone_of_unheld (acts : List Act) (ha : a < (run acts).actors.length)
    (hheld : (run acts).holdsActor a = false) : (run acts).scene.LeftAlone a := by
  refine ⟨by simpa using ha, ?_, fun hholds => ?_⟩
  · by_contra hrunning
    rw [lane_scene] at hrunning
    have hget : (run acts).actors[a]? = some ((run acts).actor a) := by
      rw [actor, List.getElem?_eq_getElem ha]
      rfl
    have := (released_run acts).actors a _ hget (Bool.eq_false_iff.mpr hrunning)
    exact Bool.false_ne_true (hheld.symm.trans this)
  · rw [holds_scene_iff, hheld] at hholds
    cases hholds

/-- As long as a run loop is to stop, it begins with nothing. -/
theorem started_of_stopping (before later : List Act)
    (hstops : ∀ acts, ((run (before ++ acts)).actor a).stopping = true) :
    started a (before ++ later) = started a before := by
  induction later using List.reverseRecOn with
  | nil => rw [List.append_nil]
  | append_singleton later act ih =>
    rw [← List.append_assoc, started, record_concat,
      starts_of_stopping (sound_run _) (hstops later) act, List.append_nil]
    exact ih

/-- What waits waits on or is discarded, while nothing is begun with. -/
theorem queued_or_discarded (before later : List Act)
    (hsame : started a (before ++ later) = started a before) {h : HandleId}
    (hh : h ∈ (run before).queued a) : h ∈ (run (before ++ later)).queued a ∨
      (run (before ++ later)).outcome? h = some (.error .discarded) := by
  have hlog := log_run a before
  have hlater := log_run a (before ++ later)
  have hnodup := hlog.places.nodup_iff.mp (hlog.increasing.imp Nat.ne_of_lt)
  have hnew : h ∉ started a before := fun hmem =>
    (List.nodup_append.mp (List.nodup_append.mp hnodup).1).2.2 h hmem h hh rfl
  have hbefore : h ∈ accepted a before := hlog.order.subset (List.mem_append_right _ hh)
  have haccepted := (accepted_isPrefix a before later).subset hbefore
  rcases List.mem_append.mp (hlater.places.mem_iff.mp haccepted) with hplace | hdropped
  · rw [hsame] at hplace
    exact .inl ((List.mem_append.mp hplace).resolve_left hnew)
  · exact .inr (outcome?_of_lost (hlater.lost h hdropped))

/-- **An actor that nobody holds** is left alone, and comes to its end. -/
theorem letGo_run (before later : List Act) (ha : a < (run before).actors.length)
    (hheld : (run before).holdsActor a = false) : LetGo a before later := by
  have halone := leftAlone_of_unheld before ha hheld
  have hstops : ∀ acts, ((run (before ++ acts)).actor a).stopping = true := by
    intro acts
    have := (leftAlone_run before acts halone).stops
    rwa [lane_scene] at this
  have hstarted := started_of_stopping before later hstops
  have hqueued := fun h => queued_or_discarded before later hstarted (h := h)
  refine ⟨?_, hstops later, hstarted, hqueued, fun hstuck => ?_⟩
  · have := (leftAlone_run before later halone).unheld
    rw [holds_scene_iff] at this
    exact Bool.eq_false_iff.mpr this
  · refine (ended_of_stuck (sound_run _) (hstops later) hstuck).imp_left fun hended =>
      ⟨by rw [loopEnded, hended]; rfl, fun h hh => (hqueued h hh).resolve_left fun hwaits => ?_⟩
    -- A run loop that has ended has left nothing in the mailbox.
    have hempty := (halts_run (before ++ later) a).emptied (by rw [lane_scene]; exact hended)
    rw [queued_eq, Lane.waiting, hempty] at hwaits
    cases hwaits

end World

end Troupe
