import Troupe.Proofs.World.Sound

/-!
# What the parts of a move do

The functions that moves and calls are put together from, each with the deeds that it does. The
small ones are equations between scenes; the larger ones say which marks they leave.

What is done to pools goes on beside the rest: a list of pool events can be moved before or behind
anything that happens to lanes and contents. That is how a function that mixes the two is brought
into the order of its deeds.

## Main definitions

* `Scene.onPools` — several pool events in turn

## Main results

* `World.scene_resolve`, `scene_lose`, `scene_newHandle`, `deeds_hand` — handles
* `World.scene_cancelJobsIn`, `Scene.owner_of_cancels` — withdrawing the jobs of an actor
* `World.deeds_stepWorker` — the moves of workers
* `World.deeds_release` — letting go
-/

namespace Troupe

namespace Scene

variable {s t : Scene} {ms : List Mark}

/-! ### Pools beside the rest -/

/-- Several pool events in turn. -/
def onPools (es : List (PoolId × Pool.Event Work Json)) (s : Scene) : Scene :=
  es.foldl (fun s x => s.onPool x.1 x.2) s

theorem onPools_append (es es' : List (PoolId × Pool.Event Work Json)) (s : Scene) :
    s.onPools (es ++ es') = (s.onPools es).onPools es' :=
  List.foldl_append ..

theorem onPools_eq (es : List (PoolId × Pool.Event Work Json)) (s : Scene) :
    s.onPools es = { s with pools := (s.onPools es).pools } := by
  induction es generalizing s with
  | nil => rfl
  | cons e es ih => exact ih _

theorem onPools_onLane (es : List (PoolId × Pool.Event Work Json)) (a : ActorId)
    (f : Lane → Lane) (s : Scene) : (s.onLane a f).onPools es = (s.onPools es).onLane a f := by
  induction es generalizing s with
  | nil => rfl
  | cons e es ih => exact ih (s.onPool e.1 e.2)

theorem onPools_settleAll (es : List (PoolId × Pool.Event Work Json)) (hs : List HandleId)
    (c : Content (Except ActorError Json)) (s : Scene) :
    (s.settleAll hs c).onPools es = (s.onPools es).settleAll hs c := by
  induction hs generalizing s with
  | nil => rfl
  | cons h hs ih =>
    show ((s.onContent h (·.settle c)).settleAll hs c).onPools es = _
    have hone : (s.onContent h (·.settle c)).onPools es =
        (s.onPools es).onContent h (·.settle c) := by
      clear ih
      induction es generalizing s with
      | nil => rfl
      | cons e es ih => exact ih (s.onPool e.1 e.2)
    rw [ih, hone]
    rfl

theorem lane_onPools (es : List (PoolId × Pool.Event Work Json)) (a : ActorId) (s : Scene) :
    (s.onPools es).lane a = s.lane a := by
  rw [onPools_eq]
  rfl

theorem length_pools_onPools (es : List (PoolId × Pool.Event Work Json)) (s : Scene) :
    (s.onPools es).pools.length = s.pools.length := by
  induction es generalizing s with
  | nil => rfl
  | cons e es ih => exact (ih _).trans (List.length_modify ..)

/-- A pool goes through the events that are about it. -/
theorem pool_onPools (es : List (PoolId × Pool.Event Work Json)) {p : PoolId} (s : Scene)
    (hp : p < s.pools.length) :
    (s.onPools es).pool p = (s.pool p).run ((es.filter (·.1 = p)).map (·.2)) := by
  induction es generalizing s with
  | nil => rfl
  | cons e es ih =>
    have hlt : p < (s.onPool e.1 e.2).pools.length := by simpa [onPool] using hp
    refine (ih (s.onPool e.1 e.2) hlt).trans ?_
    rw [pool_onPool]
    by_cases he : p = e.1
    · subst he
      simp [hp, Pool.run]
    · simp [he, Ne.symm he]

theorem pool_onPools_of_le (es : List (PoolId × Pool.Event Work Json)) {p : PoolId} (s : Scene)
    (hp : s.pools.length ≤ p) : (s.onPools es).pool p = s.pool p := by
  rw [pool, pool, List.getElem?_eq_none hp,
    List.getElem?_eq_none (by rwa [length_pools_onPools])]

/-- What clients do to pools leaves no mark. -/
theorem deeds_onPools {es : List (PoolId × Pool.Event Work Json)}
    (hes : ∀ x ∈ es, Mark.ofEvent x.1 x.2 = []) (s : Scene) : Deeds [] s (s.onPools es) := by
  induction es generalizing s with
  | nil => exact .refl s
  | cons e es ih =>
    have hfirst := (Deed.pool (s := s) e.1 e.2).deeds
    rw [hes e List.mem_cons_self] at hfirst
    exact hfirst.after (ih (fun x hx => hes x (List.mem_cons_of_mem _ hx)) _)

/-- Withdrawing the jobs of an owner from several pools. -/
def cancels (owner : String) (pools : List PoolId) : List (PoolId × Pool.Event Work Json) :=
  pools.map fun p => (p, .cancel owner)

theorem ofEvent_cancels (owner : String) (pools : List PoolId) :
    ∀ x ∈ cancels owner pools, Mark.ofEvent x.1 x.2 = [] := by
  intro x hx
  obtain ⟨p, _, rfl⟩ := List.mem_map.mp hx
  rfl

/-- No waiting job of the owner is left in any of the pools. -/
theorem Sound.owner_of_cancels (hs : s.Sound) {owner : String} {pools : List PoolId} {p : PoolId}
    (hp : p ∈ pools) {job : Job Work}
    (hjob : job ∈ ((s.onPools (cancels owner pools)).pool p).queue) :
    job.owner ≠ some owner := by
  have main : ∀ (pools : List PoolId) (s : Scene), s.Sound →
      (p ∈ pools ∨ ∀ job ∈ (s.pool p).queue, job.owner ≠ some owner) →
      ∀ job ∈ ((s.onPools (cancels owner pools)).pool p).queue, job.owner ≠ some owner := by
    intro pools
    induction pools with
    | nil => exact fun s _ h => h.elim (fun h => by cases h) id
    | cons q pools ih =>
      intro s hs h
      refine ih _ (hs.onPool q (.cancel owner)) ?_
      by_cases hq : p = q
      · -- The jobs go out here, or there is no such pool.
        subst hq
        refine .inr fun job hjob => ?_
        rw [pool_onPool] at hjob
        split at hjob
        · rename_i hlt
          refine Pool.owner_of_cancel (hs.pools _ ?_) hjob
          simp only [pool, List.getElem?_eq_getElem hlt.2, Option.getD_some]
          exact List.getElem_mem _
        · rename_i hge
          have hnone : s.pools[p]? = none :=
            List.getElem?_eq_none (Nat.le_of_not_lt fun hlt => hge ⟨rfl, hlt⟩)
          simp [pool, hnone] at hjob
      · rw [pool_onPool, if_neg fun h => hq h.1]
        exact h.imp_left fun h => (List.mem_cons.mp h).resolve_left hq
  exact main pools s hs (.inl hp) job hjob

end Scene

namespace World

variable {w : World}

/-! ### Looking at a scene -/

theorem lane_scene (w : World) (a : ActorId) : w.scene.lane a = (w.actor a).lane := by
  rw [Scene.lane, scene, actor, List.getElem?_map]
  cases w.actors[a]? <;> rfl

theorem content_scene (w : World) (h : HandleId) : w.scene.content h = (w.channel h).content := by
  rw [Scene.content, scene, channel, List.getElem?_map]
  cases w.channels[h]? <;> rfl

theorem pool_scene (w : World) (p : PoolId) : w.scene.pool p = w.pool p := by
  rw [Scene.pool, scene, pool, List.getElem?_map]
  cases w.pools[p]? <;> rfl

@[simp] theorem length_contents_scene (w : World) : w.scene.contents.length = w.channels.length :=
  List.length_map ..

@[simp] theorem length_lanes_scene (w : World) : w.scene.lanes.length = w.actors.length :=
  List.length_map ..

@[simp] theorem length_pools_scene (w : World) : w.scene.pools.length = w.pools.length :=
  List.length_map ..

theorem holds_scene_iff (w : World) (a : ActorId) : w.scene.Holds a ↔ w.holdsActor a = true := by
  simp [Scene.Holds, scene, heldActors, holdsActor, or_assoc]

/-! ### Single changes -/

@[simp] theorem scene_report (n : Notice) : (w.report n).scene = w.scene := rfl

theorem scene_onActor {a : ActorId} {f : Actor → Actor} {g : Lane → Lane}
    (h : ∀ actor, (f actor).lane = g actor.lane) :
    (w.onActor a f).scene = w.scene.onLane a g := by
  have hmap : (w.actors.modify a f).map Actor.lane = (w.actors.map Actor.lane).modify a g := by
    refine List.ext_getElem? fun b => ?_
    rw [List.getElem?_map, List.getElem?_modify, List.getElem?_modify, List.getElem?_map]
    cases w.actors[b]? with
    | none => rfl
    | some actor => by_cases hb : a = b <;> simp [hb, h]
  simp only [scene, onActor, hmap, Scene.onLane]
  rfl

/-- Some things about an actor are not in its lane. -/
theorem scene_onActor_self {a : ActorId} {f : Actor → Actor}
    (h : ∀ actor, (f actor).lane = actor.lane) :
    (w.onActor a f).scene = w.scene := by
  rw [scene_onActor (g := id) h, Scene.onLane, List.modify_id]

theorem scene_onChannel {h : HandleId}
    {f : Channel (Except ActorError Json) → Channel (Except ActorError Json)}
    {g : Content (Except ActorError Json) → Content (Except ActorError Json)}
    (hfg : ∀ c, (f c).content = g c.content) :
    (w.onChannel h f).scene = w.scene.onContent h g := by
  have hmap : (w.channels.modify h f).map (·.content) =
      (w.channels.map (·.content)).modify h g := by
    refine List.ext_getElem? fun k => ?_
    rw [List.getElem?_map, List.getElem?_modify, List.getElem?_modify, List.getElem?_map]
    cases w.channels[k]? with
    | none => rfl
    | some c => by_cases hk : h = k <;> simp [hk, hfg]
  simp only [scene, onChannel, hmap, Scene.onContent]
  rfl

theorem scene_onPool {p : PoolId} {f : Pool Work Json → Pool Work Json}
    {e : Pool.Event Work Json} (h : f (w.pool p) = (w.pool p).apply e) :
    (w.onPool p f).scene = w.scene.onPool p e := by
  have hmap : ((w.pools.modify p fun s => { s with pool := f s.pool }).map (·.pool)) =
      (w.pools.map (·.pool)).modify p (·.apply e) := by
    refine List.ext_getElem? fun q => ?_
    rw [List.getElem?_map, List.getElem?_modify, List.getElem?_modify, List.getElem?_map]
    cases hq : w.pools[q]? with
    | none => rfl
    | some state =>
      by_cases hp : p = q
      · subst hp
        simpa [pool, hq] using h
      · simp [hp]
  simp only [scene, onPool, hmap, Scene.onPool]
  rfl

@[simp] theorem scene_write (page : Page) (lines : Lines) :
    (w.write page lines).scene = w.scene := by
  cases page with
  | main a => exact scene_onActor_self fun _ => rfl
  | side a => exact scene_onActor_self fun _ => rfl
  | blank => rfl
  | pool p =>
    have hmap : ((w.pools.modify p fun s => { s with lines }).map (·.pool)) =
        w.pools.map (·.pool) := by
      refine List.ext_getElem? fun q => ?_
      rw [List.getElem?_map, List.getElem?_modify, List.getElem?_map]
      cases w.pools[q]? with
      | none => rfl
      | some state => by_cases hp : p = q <;> simp [hp]
    simp only [write, scene, hmap]
    rfl

/-! ### Handles -/

@[simp] theorem scene_resolve (h : HandleId) (o : Except ActorError Json) :
    (w.resolve h o).scene = w.scene.settleAll [h] (.full o) := by
  rw [resolve]
  split <;> exact scene_onChannel fun c => c.content_send o

@[simp] theorem scene_lose (h : HandleId) : (w.lose h).scene = w.scene.settleAll [h] .lost :=
  scene_onChannel fun c => c.content_lose

theorem scene_newHandle (c : Channel (Except ActorError Json)) :
    (w.newHandle c).2.scene = w.scene.grow c.content := by
  simp only [scene, newHandle, Scene.grow, List.map_append, List.map_cons, List.map_nil]
  rfl

@[simp] theorem scene_deafen_operation (h : HandleId) :
    (w.deafen (.operation h)).scene = w.scene := by
  have := scene_onChannel (w := w) (h := h) (f := Channel.deafen) (g := id)
    fun c => c.content_deafen
  rw [deafen, this, Scene.onContent, List.modify_id]

@[simp] theorem scene_deafen_job (p : PoolId) (j : JobId) :
    (w.deafen (.job p j)).scene = w.scene.onPool p (.deafen j) :=
  scene_onPool rfl

theorem deeds_deafen (r : HandleRef) (w : World) : Deeds [] w.scene (w.deafen r).scene := by
  cases r with
  | operation h => exact .of_eq (scene_deafen_operation h).symm
  | job p j =>
    rw [scene_deafen_job]
    exact (Deed.pool p (.deafen j)).deeds

theorem deeds_hand (recipient : Recipient) (r : HandleRef) (w : World) :
    Deeds [] w.scene (w.hand recipient r).scene := by
  cases recipient with
  | watched name => exact .refl _
  | nobody => exact deeds_deafen r w
  | held name =>
    cases hheld : w.names.held.lookup name with
    | none =>
      simp only [hand, hheld]
      exact .refl _
    | some old =>
      simp only [hand, hheld]
      exact deeds_deafen old w

theorem scene_spawn (t : Task) : (w.spawn t).scene = w.scene.spawn t := rfl

theorem scene_endTask (i : TaskId) : (w.endTask i).scene = w.scene.endTask i := rfl

/-! ### Holding -/

/-- An actor that may get another holder. -/
def Holdable (w : World) (a : ActorId) : Prop :=
  a ∈ w.heldActors ∨ a < w.actors.length ∧ (w.actor a).stopping = false

/-- Names and systems change, and nothing else does. -/
theorem deeds_roster {w' : World} (hactors : w'.actors = w.actors)
    (hchannels : w'.channels = w.channels) (htasks : w'.tasks = w.tasks)
    (hcount : w'.taskCount = w.taskCount) (hpools : w'.pools = w.pools)
    (hheld : ∀ a ∈ w'.heldActors, w.Holdable a)
    (hwells : ∀ p ∈ w'.heldPools, p ∈ w.heldPools ∨ p < w.pools.length) :
    Deeds [] w.scene w'.scene := by
  have hscene : w'.scene = { w.scene with held := w'.heldActors, wells := w'.heldPools } := by
    simp only [scene, hactors, hchannels, htasks, hcount, hpools]
  rw [hscene]
  refine (Deed.roster (fun a ha => ?_) fun p hp => ?_).deeds
  · rw [lane_scene, length_lanes_scene]
    exact hheld a ha
  · rw [length_pools_scene]
    exact hwells p hp

theorem mem_modify {α : Type} {l : List α} {i : Nat} {f : α → α} {x : α} (h : x ∈ l.modify i f) :
    x ∈ l ∨ ∃ y, l[i]? = some y ∧ x = f y := by
  obtain ⟨k, hk⟩ := List.mem_iff_getElem?.mp h
  rw [List.getElem?_modify] at hk
  obtain ⟨y, hy, rfl⟩ := Option.map_eq_some_iff.mp hk
  split
  · rename_i hik
    exact .inr ⟨y, hik ▸ hy, rfl⟩
  · exact .inl (List.mem_of_getElem? hy)

theorem defaultPool_onSystem {s k : SystemId} {f : ActorSystem → ActorSystem}
    (h : ∀ system, (f system).defaultPool = system.defaultPool) :
    ((w.onSystem s f).system k).defaultPool = (w.system k).defaultPool := by
  simp only [system, onSystem, List.getElem?_modify]
  cases w.systems[k]? with
  | none => rfl
  | some system => by_cases hk : s = k <;> simp [hk, h]

/-- One system changes. -/
theorem deeds_onSystem {s : SystemId} {f : ActorSystem → ActorSystem}
    (hheld : ∀ system, w.systems[s]? = some system →
      ∀ x ∈ (f system).registry.entries, x ∈ system.registry.entries ∨ w.Holdable x.2.actor)
    (hwells : ∀ system, ∀ p ∈ (f system).pools, p ∈ system.pools ∨ p ∈ w.heldPools)
    (hdefault : ∀ system, (f system).defaultPool = system.defaultPool) :
    Deeds [] w.scene (w.onSystem s f).scene := by
  refine deeds_roster rfl rfl rfl rfl rfl (fun a ha => ?_) fun p hp => .inl ?_
  · rcases List.mem_append.mp ha with ha | ha
    · exact .inl (List.mem_append_left _ ha)
    · obtain ⟨system, hsystem, ha⟩ := List.mem_flatMap.mp ha
      obtain ⟨x, hx, rfl⟩ := List.mem_map.mp ha
      rcases mem_modify hsystem with hold | ⟨old, hold, rfl⟩
      · exact .inl (List.mem_append_right _ (List.mem_flatMap.mpr ⟨system, hold, ha⟩))
      · refine (hheld old hold x hx).elim (fun hmem => .inl (List.mem_append_right _ ?_)) id
        exact List.mem_flatMap.mpr
          ⟨old, List.mem_of_getElem? hold, List.mem_map_of_mem hmem⟩
  · rcases List.mem_append.mp hp with hp | hp
    · refine List.mem_append_left _ ?_
      simp only [defaultPool_onSystem hdefault] at hp
      exact hp
    · obtain ⟨system, hsystem, hp⟩ := List.mem_flatMap.mp hp
      rcases mem_modify hsystem with hold | ⟨old, hold, rfl⟩
      · exact List.mem_append_right _ (List.mem_flatMap.mpr ⟨system, hold, hp⟩)
      · refine (hwells old p hp).elim (fun hmem => List.mem_append_right _ ?_) id
        exact List.mem_flatMap.mpr ⟨old, List.mem_of_getElem? hold, hmem⟩

/-- A system lets go of names. -/
theorem deeds_onSystem_forget {s : SystemId} {f : ActorSystem → ActorSystem}
    (hentries : ∀ system, (f system).registry.entries ⊆ system.registry.entries)
    (hpools : ∀ system, (f system).pools = system.pools)
    (hdefault : ∀ system, (f system).defaultPool = system.defaultPool) :
    Deeds [] w.scene (w.onSystem s f).scene :=
  deeds_onSystem (fun system _ _ hx => .inl (hentries system hx))
    (fun system _ hp => .inl (hpools system ▸ hp)) hdefault

theorem heldActors_releaseSystems {a : ActorId} (h : a ∈ w.releaseSystems.heldActors) :
    a ∈ w.heldActors := by
  rcases List.mem_append.mp h with h | h
  · exact List.mem_append_left _ h
  · obtain ⟨system, hsystem, ha⟩ := List.mem_flatMap.mp h
    obtain ⟨i, hi, rfl⟩ := List.mem_mapIdx.mp hsystem
    refine List.mem_append_right _ (List.mem_flatMap.mpr ⟨w.systems[i], List.getElem_mem hi, ?_⟩)
    split at ha
    · cases ha
    · exact ha

theorem heldPools_releaseSystems {p : PoolId} (h : p ∈ w.releaseSystems.heldPools) :
    p ∈ w.heldPools := by
  have hdefault : ∀ k, (w.releaseSystems.system k).defaultPool = (w.system k).defaultPool := by
    intro k
    simp only [system, releaseSystems, List.getElem?_mapIdx]
    cases w.systems[k]? with
    | none => rfl
    | some system =>
      simp only [Option.map_some, Option.getD_some]
      split <;> rfl
  rcases List.mem_append.mp h with h | h
  · refine List.mem_append_left _ ?_
    simp only [hdefault] at h
    exact h
  · obtain ⟨system, hsystem, hp⟩ := List.mem_flatMap.mp h
    obtain ⟨i, hi, rfl⟩ := List.mem_mapIdx.mp hsystem
    refine List.mem_append_right _ (List.mem_flatMap.mpr ⟨w.systems[i], List.getElem_mem hi, ?_⟩)
    split at hp <;> exact hp

/-- **Letting go** leaves no mark. -/
theorem deeds_release (w : World) : Deeds [] w.scene w.release.scene := by
  have hsystems : Deeds [] w.scene w.releaseSystems.scene :=
    deeds_roster rfl rfl rfl rfl rfl (fun a ha => .inl (heldActors_releaseSystems ha))
      fun p hp => .inl (heldPools_releaseSystems hp)
  refine hsystems.after ?_
  have hactors : w.release.scene =
      w.releaseSystems.scene.stopAll fun a => !w.releaseSystems.holdsActor a := by
    have hlanes : w.release.actors.map Actor.lane = (w.releaseSystems.actors.map Actor.lane).mapIdx
        fun a l => if (!w.releaseSystems.holdsActor a) = true then { l with stopping := true }
          else l := by
      refine List.ext_getElem? fun a => ?_
      rw [release, releaseActors, List.getElem?_map, List.getElem?_mapIdx, List.getElem?_mapIdx,
        List.getElem?_map]
      cases w.releaseSystems.actors[a]? with
      | none => rfl
      | some actor =>
        cases hstop : actor.stopping <;> cases hheld : w.releaseSystems.holdsActor a <;>
          simp [Actor.lane, hstop]
    simp only [scene, hlanes, Scene.stopAll]
    rfl
  rw [hactors]
  refine (Deed.stop fun a ha => ?_).deeds
  rw [holds_scene_iff]
  simpa using ha

/-! ### Jobs -/

theorem scene_submitJob (p : PoolId) (owner : Option String) (urgent : Bool) (work : Work) :
    (w.submitJob p owner urgent work).2.scene = w.scene.onPool p (.submit owner urgent work) := by
  have hpool : (w.onPool p fun _ => ((w.pool p).submit owner urgent work).2).scene =
      w.scene.onPool p (.submit owner urgent work) := scene_onPool rfl
  cases hs : (w.pool p).stopped <;> simpa [submitJob, hs] using hpool

theorem submitJob_fst (p : PoolId) (owner : Option String) (urgent : Bool) (work : Work) :
    (w.submitJob p owner urgent work).1 = (w.pool p).channels.length := by
  show ((w.pool p).submit owner urgent work).1 = _
  cases hs : (w.pool p).stopped <;> simp [Pool.submit, hs]

theorem scene_cancelJobs (owner : String) (p : PoolId) :
    (w.cancelJobs owner p).2.scene = w.scene.onPool p (.cancel owner) := by
  have hpool : (w.onPool p fun _ => ((w.pool p).cancel owner).2).scene =
      w.scene.onPool p (.cancel owner) := scene_onPool rfl
  simp only [cancelJobs]
  split
  · exact hpool
  · rwa [scene_report]

theorem scene_cancelJobsIn (owner : String) (pools : List PoolId) (w : World) :
    (w.cancelJobsIn owner pools).2.scene = w.scene.onPools (Scene.cancels owner pools) := by
  induction pools generalizing w with
  | nil => rfl
  | cons p pools ih =>
    show ((w.cancelJobs owner p).2.cancelJobsIn owner pools).2.scene = _
    rw [ih, scene_cancelJobs]
    rfl

theorem scene_stopPool (p : PoolId) : (w.stopPool p).scene = w.scene.onPool p .shutdown := by
  have hpool : (w.onPool p (·.shutdown)).scene = w.scene.onPool p .shutdown := scene_onPool rfl
  exact hpool

theorem scene_emptyPool (p : PoolId) :
    (w.emptyPool p).2.scene = w.scene.onPool p .shutdownNow := by
  have hpool : (w.onPool p fun _ => (w.pool p).shutdownNow.2).scene =
      w.scene.onPool p .shutdownNow := scene_onPool rfl
  by_cases h : (w.pool p).shutdownNow.1 = 0 <;> simpa [emptyPool, h] using hpool

/-- What a body hands to its handle is a value or the message of a panic. -/
theorem jobOutcome_eq (answer : Answer) (ending : Ending) :
    ∃ result : Except String Json, answer.jobOutcome ending = result.mapError .panicked := by
  cases ending with
  | returned v => exact ⟨.ok (answer.ofValue v), rfl⟩
  | failed message => exact ⟨.error message, rfl⟩
  | broke payload => exact ⟨.error payload.message, rfl⟩

theorem deeds_onPool {p : PoolId} {f : Pool Work Json → Pool Work Json}
    {e : Pool.Event Work Json} (h : f (w.pool p) = (w.pool p).apply e) :
    Deeds (Mark.ofEvent p e) w.scene (w.onPool p f).scene := by
  rw [scene_onPool h]
  exact (Deed.pool p e).deeds

theorem deeds_finishJob (p : PoolId) (place : Nat) (job : Job Work) (ending : Ending) (w : World) :
    Deeds [.worked p] w.scene (w.finishJob p place job ending).scene := by
  obtain ⟨result, hresult⟩ := jobOutcome_eq job.body.answer ending
  have hreport : ∀ listening (w : World), (w.reportJob listening ending).scene = w.scene := by
    intro listening w
    cases ending <;> cases listening <;> rfl
  rw [finishJob, hreport]
  exact deeds_onPool (e := .finish place result) (by rw [hresult]; rfl)

theorem deeds_stepJob {p : PoolId} {place : Nat} {job : Job Work} {w' : World}
    (h : w.stepJob p place job = some w') : Deeds [.worked p] w.scene w'.scene := by
  simp only [stepJob] at h
  split at h
  · cases h
    exact deeds_finishJob p place job _ w
  · rename_i e rest _
    split at h
    · rename_i lines value _
      cases h
      have hpool := deeds_onPool (w := w.write job.body.page lines) (p := p)
        (f := (·.advance place { job.body with rest, value }))
        (e := .advance place { job.body with rest, value }) rfl
      rwa [scene_write] at hpool
    · cases h
      exact deeds_finishJob p place job _ w
    · cases h

theorem deeds_stepWorker {p : PoolId} {place : Nat} {w' : World}
    (h : w.stepWorker p place = some w') : Deeds [.worked p] w.scene w'.scene := by
  rw [stepWorker] at h
  split at h
  · exact deeds_stepJob h
  · obtain ⟨pool', hlook, rfl⟩ := Option.map_eq_some_iff.mp h
    exact deeds_onPool (e := .look place) (by rw [Pool.apply, hlook]; rfl)

/-! ### Dropping envelopes -/

/-- The job handles that go with some envelopes. -/
def deafens (es : List Envelope) : List (PoolId × Pool.Event Work Json) :=
  es.flatMap fun
    | .operation _ _ _ => []
    | .relay _ p j => [(p, .deafen j)]

theorem ofEvent_deafens (es : List Envelope) :
    ∀ x ∈ deafens es, Mark.ofEvent x.1 x.2 = [] := by
  intro x hx
  obtain ⟨e, _, hx⟩ := List.mem_flatMap.mp hx
  cases e with
  | operation _ _ _ => cases hx
  | relay h p j =>
    rw [List.mem_singleton.mp hx]
    rfl

theorem scene_dropEnvelopes (es : List Envelope) (w : World) :
    (w.dropEnvelopes es).scene =
      (w.scene.onPools (deafens es)).settleAll (es.map Envelope.handle) .lost := by
  induction es generalizing w with
  | nil => rfl
  | cons e es ih =>
    show ((w.dropEnvelope e).dropEnvelopes es).scene = _
    rw [ih]
    have hone : (w.dropEnvelope e).scene =
        (w.scene.onPools (deafens [e])).settleAll [e.handle] .lost := by
      cases e with
      | operation h body answer => exact scene_lose h
      | relay h p j =>
        show ((w.lose h).deafen (.job p j)).scene = _
        rw [scene_deafen_job, scene_lose]
        exact Scene.onPools_settleAll [(p, .deafen j)] [h] .lost w.scene
    rw [hone, Scene.onPools_settleAll, ← Scene.onPools_append]
    rw [deafens, deafens, ← List.flatMap_append]
    rfl

theorem deafens_operations (es : List Envelope) : deafens (es.filter (!·.isRelay)) = [] := by
  refine List.flatMap_eq_nil_iff.mpr fun e he => ?_
  have := (List.mem_filter.mp he).2
  cases e with
  | operation h body answer => rfl
  | relay h p j => simp [Envelope.isRelay] at this

/-- Some envelopes of a lane are dropped while the lane changes. -/
theorem scene_dropEnvelopes_onActor {a : ActorId} {f : Actor → Actor} {g : Lane → Lane}
    (h : ∀ actor, (f actor).lane = g actor.lane) (es : List Envelope) :
    ((w.onActor a f).dropEnvelopes es).scene =
      ((w.scene.onPools (deafens es)).onLane a g).settleAll (es.map Envelope.handle) .lost := by
  rw [scene_dropEnvelopes, scene_onActor h, Scene.onPools_onLane]

theorem actor_onActor_self {a : ActorId} {f : Actor → Actor} (w : World)
    (ha : a < w.actors.length) :
    (w.onActor a f).actor a = f (w.actor a) := by
  simp [actor, onActor, ha]

theorem actor_onActor_ne {a b : ActorId} (hne : b ≠ a) (f : Actor → Actor) (w : World) :
    (w.onActor a f).actor b = w.actor b := by
  simp [actor, onActor, Ne.symm hne]

end World

end Troupe
