import Troupe.Proofs.World.Members

/-!
# Calls and runs, deed by deed

Most calls only change who holds what, or make something new. The rest send and clear as operations
do, or begin a task. With the moves this covers everything that can happen, so the scenes of all
runs are sound.

## Main results

* `World.deeds_answer`, `World.deeds_step` — the calls, and the moves
* `World.deeds_next` — whatever happens is a list of deeds, and the marks say what has been done
* `World.sound_run` — the scenes of runs are sound
-/

namespace Troupe

theorem Scene.Answers.congr {s t : Scene} {a : ActorId} {h : HandleId} {r : Route} {ms : List Mark}
    (hlane : s.lane a = t.lane a) (hms : s.Answers a h r ms) : t.Answers a h r ms := by
  cases hms with
  | refused => exact hlane ▸ .refused
  | past hr hopen => exact .past hr (hlane ▸ hopen)
  | admitted he hr hopen => exact hlane ▸ .admitted he hr (hlane ▸ hopen)

/-- A handle that is resolved as soon as it is there. -/
theorem Scene.settleAll_grow (c : Content (Except ActorError Json)) (s : Scene) :
    (s.grow .empty).settleAll [s.contents.length] c = s.grow c := by
  have hcontents : (s.contents ++ [Content.empty]).modify s.contents.length (·.settle c) =
      s.contents ++ [c] := by
    rw [List.modify_eq_take_cons_drop (by simp)]
    simp [Content.settle]
  simp only [settleAll, List.foldl_cons, List.foldl_nil, onContent, grow, hcontents]

namespace World

variable {w w' : World} {a : ActorId}

/-! ### Parts of calls -/

/-- A task that takes its time begins with its handle. -/
theorem deeds_inBackground {handle : String} {t : HandleId → Task} (ht : ∀ h, (t h).handle = h)
    (hw : ∀ h, (t h).waits = []) (hk : ∀ h a, (t h).holdsActor a = false) :
    Deeds [] w.scene (w.inBackground handle fun h => spawn (t h)).2.scene := by
  have hscene : (w.inBackground handle fun h => spawn (t h)).2.scene =
      (w.scene.grow .empty).spawn (t w.channels.length) := by
    show ((w.newHandle {}).2.spawn (t w.channels.length)).scene = _
    rw [scene_spawn, scene_newHandle]
  rw [hscene]
  refine (Deed.begin ?_ (hw _) fun a ha => ?_).deeds
  · rw [ht, length_contents_scene]
  · rw [hk] at ha
    cases ha

/-- An operation can be sent before or after a task begins. -/
theorem sendOrdered_spawn (body : List Action) (answer : Answer) (t : Task) (w : World) :
    (w.sendOrdered a body answer).2.spawn t = ((w.spawn t).sendOrdered a body answer).2 := by
  have hsame : ((w.spawn t).actor a).enqueue (.operation (w.spawn t).channels.length body answer) =
      (w.actor a).enqueue (.operation w.channels.length body answer) := rfl
  unfold sendOrdered
  rw [hsame]
  cases (w.actor a).enqueue (.operation w.channels.length body answer) <;> rfl

/-- What is known at once is told at once. -/
theorem scene_resolve_inBackground (handle : String) (o : Except ActorError Json) (w : World) :
    (w.inBackground handle fun h => resolve h o).2.scene = w.scene.grow (.full o) := by
  set w₁ := (w.newHandle {}).2.hand (.watched handle) (.operation w.channels.length) with hw₁
  show (w₁.resolve w.channels.length o).scene = _
  have hscene : w₁.scene = w.scene.grow .empty := scene_newHandle (w := w) {}
  rw [scene_resolve, hscene, ← length_contents_scene, Scene.settleAll_grow]

/-- An invocation by name. -/
theorem deeds_invokeByName (hs : w.scene.Sound) {system handle name action args : String}
    {s : SystemId} (hsystem : w.systemNamed system = .ok s) :
    ∃ ms, Deeds ms w.scene
        (w.inBackground handle fun h => invokeByName s name action args h).2.scene ∧
      w.Explains (.call (.invoke system handle name action args)) ms := by
  set act : Act := .call (.invoke system handle name action args) with hact
  set w₁ := (w.newHandle {}).2.hand (.watched handle) (.operation w.channels.length) with hw₁
  have hsame : (w₁.system s).registry.find? name = (w.system s).registry.find? name := rfl
  -- An answer that is known at once.
  have fails : ∀ {o : Except ActorError Json} {w' : World}, w.target? act = none →
      w₁.resolve w.channels.length o = w' →
        ∃ ms, Deeds ms w.scene w'.scene ∧ w.Explains act ms := by
    rintro o w' ht rfl
    refine ⟨[.settled w.scene.contents.length o], ?_, .fails ht⟩
    have hscene := scene_resolve_inBackground handle o w
    exact hscene ▸ (Deed.settled o).deeds
  show ∃ ms, Deeds ms w.scene (w₁.invokeByName s name action args w.channels.length).scene ∧ _
  rw [invokeByName]
  rw [hsame]
  cases hfind : (w.system s).registry.find? name with
  | none => exact fails (by simp only [hact, target?, hsystem, hfind]) rfl
  | some entry =>
    obtain ⟨a, invocable⟩ := entry
    cases invocable with
    | false => exact fails (by simp only [hact, target?, hsystem, hfind]) rfl
    | true =>
      set body := Action.ofInvocation action args
      set t : Task := .invocation w.channels.length (w₁.sendOrdered a body .reply).1 a s
      have hheld : a ∈ w.heldActors := held_of_find? hfind
      have hbegin : Deeds [] w.scene (w₁.spawn t).scene := by
        have hscene : w₁.scene = w.scene.grow .empty := scene_newHandle (w := w) {}
        rw [scene_spawn, hscene]
        refine (Deed.begin (by simp [t, Task.handle]) rfl fun b hb => ?_).deeds
        obtain rfl : a = b := by simpa [t, Task.holdsActor] using hb
        exact hheld
      obtain ⟨_, ms, hdeeds, hanswers⟩ := deeds_sendOrdered (w := w₁.spawn t)
        (a := a) (hs.deeds hbegin) hheld body .reply
      have hlen : (w₁.spawn t).channels.length = w.channels.length + 1 := by
        simp [w₁, newHandle, hand, spawn]
      refine ⟨ms, hbegin.after ?_,
        .sends (a := a) (h := w.channels.length + 1) (r := .ordered) ?_ ?_⟩
      · rw [← sendOrdered_spawn] at hdeeds
        exact hdeeds
      · simp only [hact, target?, hsystem, hfind]
      · rw [hlen] at hanswers
        refine hanswers.congr ?_
        rw [lane_scene, lane_scene]
        rfl

/-- Clients let go of names. -/
theorem deeds_forget (f : List (String × ActorId) → List (String × ActorId))
    (g : List (String × SystemId) → List (String × SystemId)) (hf : ∀ l, f l ⊆ l)
    (hg : ∀ l, g l ⊆ l) :
    Deeds [] w.scene ({ w with
      names.actors := f w.names.actors
      names.systems := g w.names.systems } : World).scene :=
  deeds_names _ (fun _ hx => holdable_of_name (hf _ hx)) (fun _ hx => .inl (held_of_pool hx))
    fun _ hx => .inl (held_of_system (hg _ hx))

theorem deeds_drain (r : HandleRef) (w : World) :
    Deeds [Mark.ofTake r] w.scene (w.drain r).scene := by
  cases r with
  | operation h =>
    have hscene : (w.drain (.operation h)).scene = w.scene.onContent h Content.drain :=
      scene_onChannel fun c => c.content_drain
    exact hscene ▸ (Deed.drain h).deeds
  | job p j => exact deeds_onPool (e := .drain j) rfl

/-! ### All calls -/

/-- A call that only looks has no target. -/
theorem target?_of_looks {c : Call} (hc : c.looks = true) : w.target? (.call c) = none := by
  cases c <;> first | rfl | cases hc

/-- A call that is refused has no target. -/
theorem target?_of_refuses {c : Call} {f : Failure} (h : w.Refuses c f) :
    w.target? (.call c) = none := by
  cases h <;> rfl

/-- **A call**, before anything is let go. -/
theorem deeds_answer (hs : w.scene.Sound) {c : Call} {r : Response} (h : w.Replies c r w') :
    ∃ ms, Deeds ms w.scene w'.scene ∧ w.Explains (.call c) ms := by
  -- Most calls leave no mark.
  have quiet : w.target? (.call c) = none → Deeds [] w.scene w'.scene →
      ∃ ms, Deeds ms w.scene w'.scene ∧ w.Explains (.call c) ms :=
    fun ht hdeeds => ⟨[], hdeeds, .quiet ht⟩
  cases h with
  | refuses h => exact quiet (target?_of_refuses h) (.refl _)
  | looks hc _ => exact quiet (target?_of_looks hc) (.refl _)
  | get _ h => exact quiet rfl (deeds_bindActor _ (.inl (held_of_findActor h)))
  | poolAt _ h =>
    exact quiet rfl (deeds_bindPool _ (.inl (held_of_systemPools (List.mem_of_getElem? h))))
  | defaultPool hsystem => exact quiet rfl (deeds_bindPool _ (.inl (held_of_systemNamed hsystem)))
  | send h =>
    obtain ⟨ms, hdeeds, hms⟩ := deeds_send hs h
    exact ⟨ms, hdeeds, .send rfl rfl hms⟩
  | createPool h =>
    obtain ⟨hdeeds, hp, _⟩ := deeds_createPool h
    exact quiet rfl (hdeeds.after (deeds_bindPool _ (.inr hp)))
  | createSystem h =>
    obtain ⟨hdeeds, hp⟩ := deeds_createSystem h
    exact quiet rfl (hdeeds.after (deeds_bindSystem _ hp))
  | createActor h =>
    obtain ⟨hdeeds, ha⟩ := deeds_createActor h
    exact quiet rfl (hdeeds.after (deeds_bindMade _ (.inr ha)))
  | createMember _ h =>
    obtain ⟨hdeeds, ha⟩ := deeds_createMember h
    exact quiet rfl (hdeeds.after (deeds_bindMade _ (.inr ha)))
  | createChild _ h =>
    obtain ⟨hdeeds, ha⟩ := deeds_createChild h
    exact quiet rfl (hdeeds.after (deeds_bindMade _ (.inr ha)))
  | attach _ ha h => exact quiet rfl (deeds_register (.inl (held_of_actorNamed ha)) h).1
  | invoke hsystem => exact deeds_invokeByName hs hsystem
  | remove _ | close _ | terminate _ =>
    exact quiet rfl (deeds_inBackground (fun _ => rfl) (fun _ => rfl) fun _ _ => rfl)
  | @dropActor actor =>
    exact quiet rfl (deeds_forget (·.filter (·.1 != actor)) id
      (fun _ => List.filter_subset_self _) fun _ => List.Subset.refl _)
  | @dropSystem system =>
    exact quiet rfl (deeds_forget id (·.filter (·.1 != system)) (fun _ => List.Subset.refl _)
      fun _ => List.filter_subset_self _)
  | @cancel _ owner p _ =>
    exact quiet rfl (scene_cancelJobs (w := w) owner p ▸ (Deed.pool p (.cancel _)).deeds)
  | @cancelActor _ _ p a _ _ =>
    exact quiet rfl
      (scene_cancelJobs (w := w) (w.actor a).owner p ▸ (Deed.pool p (.cancel _)).deeds)
  | @clear actor a ha => exact ⟨_, deeds_clear a w, .clears rfl ⟨actor, ha, .inl rfl⟩⟩
  | @shutdown _ p _ => exact quiet rfl (scene_stopPool (w := w) p ▸ (Deed.pool p .shutdown).deeds)
  | @shutdownNow _ p _ =>
    exact quiet rfl (scene_emptyPool (w := w) p ▸ (Deed.pool p .shutdownNow).deeds)
  | addPool _ hp h => exact quiet rfl (deeds_addPool (held_of_poolNamed hp) h)
  | openGate | advance | wait _ | await _ => exact quiet rfl (.refl _)
  | @fail recipient e =>
    refine ⟨_, Deeds.before ?_ (deeds_hand _ _ _),
      .fails (h := w.channels.length) (o := .error e) rfl⟩
    have hscene := scene_newHandle (w := w) (.settled (.error e))
    rw [← length_contents_scene]
    exact hscene ▸ (Deed.settled _).deeds
  | @take _ x hx => exact ⟨_, deeds_drain x w, .takes rfl rfl hx⟩

/-! ### All acts -/

/-- A course performs its next action. -/
theorem stepCourse_of_action? {r : Runner} {c : Course} {action : Action}
    (h : c.action? = some action) :
    w.stepCourse r c = w.perform r action { c with rest := c.rest.tail } := by
  rw [Course.action?] at h
  cases hwait : c.wait with
  | some wait => simp [hwait] at h
  | none =>
    rw [hwait] at h
    cases hrest : c.rest with
    | nil => simp [hrest] at h
    | cons first rest =>
      obtain rfl : first = action := by simpa [hrest] using h
      simp only [stepCourse, hwait, hrest, List.tail_cons]

/-- A course can wait at a gate, but nothing else keeps it from its next action. -/
theorem stepCourse_ne_none {r : Runner} {c : Course} {action : Action}
    (h : c.action? = some action) (heffect : ∀ e, action ≠ .effect e) :
    w.stepCourse r c ≠ none := by
  rw [stepCourse_of_action? h]
  cases action with
  | effect e => exact absurd rfl (heffect e)
  | close _ | clear _ | pending _ | alive _ | remove _ _ | send _ => simp [perform]

/-- What does not move is not about to do anything but an effect. -/
theorem effect_of_stuck {m : Mover} {action : Action} (h : w.step m = none)
    (haction : w.action? m = some action) : ∃ e, action = .effect e := by
  by_contra heffect
  rw [not_exists] at heffect
  cases m with
  | runLoop a =>
    obtain ⟨c, hc, haction⟩ := Option.bind_eq_some_iff.mp haction
    have hstuck : w.stepLoop a = none := by simpa [step] using h
    rw [stepLoop] at hstuck
    cases hloop : (w.actor a).loop with
    | starting | idle | ended =>
      rw [hloop] at hc
      cases hc
    | inside i =>
      rw [hloop] at hc hstuck
      cases i with
      | relay hd p j => cases hc
      | operation hd course =>
        cases hc
        exact stepCourse_ne_none haction heffect (Option.map_eq_none_iff.mp hstuck)
  | task t =>
    obtain ⟨c, hc, haction⟩ := Option.bind_eq_some_iff.mp haction
    obtain ⟨task, ht, hc⟩ := Option.bind_eq_some_iff.mp hc
    have hstuck : w.stepTask t = none := by simpa [step] using h
    rw [stepTask] at hstuck
    rw [ht] at hstuck
    cases task with
    | bypass a hd course | errand hd course =>
      cases hc
      exact stepCourse_ne_none haction heffect (Option.map_eq_none_iff.mp hstuck)
    | invocation _ _ _ _ | termination _ _ _ => cases hc
  | worker p place | grace t => cases haction

/-- What does not move sends nothing. -/
theorem target?_of_stuck {m : Mover} (h : w.step m = none) : w.target? (.move m) = none := by
  cases haction : w.action? m with
  | none => simp only [target?, haction]
  | some action =>
    obtain ⟨e, rfl⟩ := effect_of_stuck h haction
    simp only [target?, haction]

/-- The marks that an act leaves on its mover. -/
def Follows (w : World) : Act → List Mark → Prop
  | .move m, ms => w.Turns m ms
  | .call _, ms | .observe, ms => ms = []

/-- A call that fails sends nothing. -/
theorem target?_of_error {c : Call} {reason : String} (h : w.answer c = .error reason) :
    w.target? (.call c) = none := by
  cases c with
  | send s =>
    cases hsend : w.send s with
    | error message => simp only [target?, destination_of_error hsend, Option.map_none]
    | ok w' => simp [answer, hsend, bind, Except.bind, pure, Except.pure] at h
  | invoke system handle name action args =>
    cases hsystem : w.systemNamed system with
    | error message => simp only [target?, hsystem]
    | ok s => simp [answer, hsystem, bind, Except.bind, pure, Except.pure] at h
  | _ => rfl

/-- **A move.** First comes what is done to others, then the mover gets further. -/
theorem deeds_step (hs : w.scene.Sound) {m : Mover} (h : w.step m = some w') :
    ∃ ms ns, Deeds (ms ++ ns) w.scene w'.scene ∧ w.Explains (.move m) ms ∧ w.Turns m ns := by
  cases m with
  | runLoop a =>
    obtain ⟨w₁, hloop, rfl⟩ := Option.map_eq_some_iff.mp h
    obtain ⟨ms, ns, hdeeds, hms, hns⟩ := deeds_stepLoop hs hloop
    exact ⟨ms, ns, hdeeds.before (deeds_release w₁), hms, hns⟩
  | task t =>
    obtain ⟨w₁, htask, rfl⟩ := Option.map_eq_some_iff.mp h
    obtain ⟨ms, ns, hdeeds, hms, hns⟩ := deeds_stepTask hs htask
    exact ⟨ms, ns, hdeeds.before (deeds_release w₁), hms, hns⟩
  | worker p place =>
    obtain ⟨w₁, hworker, rfl⟩ := Option.map_eq_some_iff.mp h
    exact ⟨[], [.worked p], (deeds_stepWorker hworker).before (deeds_release w₁), .quiet rfl,
      by simp [Turns]⟩
  | grace t =>
    obtain ⟨w₁, hgrace, rfl⟩ := Option.map_eq_some_iff.mp h
    exact ⟨[], [.stepped t], (deeds_expireGrace hgrace).before (deeds_release w₁), .quiet rfl,
      by simp [Turns]⟩

/-- **Whatever happens** is a list of deeds. -/
theorem deeds_next (hs : w.scene.Sound) (act : Act) :
    ∃ ms ns, Deeds (ms ++ ns) w.scene (w.next act).scene ∧ w.Explains act ms ∧
      w.Follows act ns := by
  cases act with
  | observe => exact ⟨[], [], .refl _, .quiet rfl, rfl⟩
  | call c =>
    cases hanswer : w.answer c with
    | error reason =>
      refine ⟨[], [], ?_, .quiet (target?_of_error hanswer), rfl⟩
      rw [next_of_unknown hanswer]
      exact .refl _
    | ok x =>
      obtain ⟨r, w'⟩ := x
      obtain ⟨ms, hdeeds, hms⟩ := deeds_answer hs (replies_of_answer hanswer)
      refine ⟨ms, [], ?_, hms, rfl⟩
      rw [next_of_answer hanswer, List.append_nil]
      exact hdeeds.before (deeds_release w')
  | move m =>
    cases hstep : w.step m with
    | none =>
      refine ⟨[], [], ?_, .quiet (target?_of_stuck hstep), ?_⟩
      · rw [next_of_stuck hstep]
        exact .refl _
      · cases m <;> simp [Follows, Turns]
    | some w' =>
      rw [next_of_step hstep]
      exact deeds_step hs hstep

theorem sound_next (hs : w.scene.Sound) (act : Act) : (w.next act).scene.Sound := by
  obtain ⟨_, _, hdeeds, _⟩ := deeds_next hs act
  exact hs.deeds hdeeds

/-- **The scenes of runs are sound.** -/
theorem sound_run (acts : List Act) : (run acts).scene.Sound := by
  induction acts using List.reverseRecOn with
  | nil => exact .blank
  | append_singleton acts act ih =>
    rw [run_concat]
    exact sound_next ih act

/-- **What every deed keeps** stays true in a run. -/
theorem keep_run {P : Scene → Prop}
    (step : ∀ {ms : List Mark} {s t : Scene}, s.Sound → Deed ms s t → P s → P t)
    (before later : List Act) (h : P (run before).scene) : P (run (before ++ later)).scene := by
  induction later using List.reverseRecOn with
  | nil => rwa [List.append_nil]
  | append_singleton later act ih =>
    have hs := sound_run (before ++ later)
    obtain ⟨_, _, d, _⟩ := deeds_next hs act
    rw [← List.append_assoc, run_concat]
    exact (d.keep (P := fun s => s.Sound ∧ P s)
      (fun d hs => ⟨hs.1.deed d, step hs.1 d hs.2⟩) ⟨hs, ih⟩).2

end World

end Troupe
