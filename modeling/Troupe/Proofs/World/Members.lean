import Troupe.Proofs.World.Answers
import Troupe.Proofs.World.Moves

/-!
# Names and new members, deed by deed

Clients bind names, create pools, systems and actors, and give actors names in systems. None of this
leaves a mark. What gets a holder is either held already or has just been created.

## Main results

* `World.deeds_names` and what follows it — binding names
* `World.deeds_createPool`, `deeds_createSystem`, `deeds_createActor`, `deeds_createMember`,
  `deeds_createChild` — coming into being
* `World.deeds_register`, `deeds_addPool` — getting a name or a pool in a system
-/

namespace Troupe

namespace World

variable {w w' : World} {a : ActorId}

/-! ### Names -/

/-- Clients hold something else. -/
theorem deeds_names (d : Directory) (hactors : ∀ x ∈ d.actors, w.Holdable x.2)
    (hpools : ∀ x ∈ d.pools, x.2 ∈ w.heldPools ∨ x.2 < w.pools.length)
    (hsystems : ∀ x ∈ d.systems, (w.system x.2).defaultPool ∈ w.heldPools ∨
      (w.system x.2).defaultPool < w.pools.length) :
    Deeds [] w.scene ({ w with names := d } : World).scene := by
  refine deeds_roster rfl rfl rfl rfl rfl (fun a ha => ?_) fun p hp => ?_
  · rcases List.mem_append.mp ha with ha | ha
    · obtain ⟨x, hx, rfl⟩ := List.mem_map.mp ha
      exact hactors x hx
    · exact .inl (List.mem_append_right _ ha)
  · rcases List.mem_append.mp hp with hp | hp
    · rcases List.mem_append.mp hp with hp | hp
      · obtain ⟨x, hx, rfl⟩ := List.mem_map.mp hp
        exact hpools x hx
      · obtain ⟨x, hx, rfl⟩ := List.mem_map.mp hp
        exact hsystems x hx
    · exact .inl (List.mem_append_right _ hp)

theorem holdable_of_name {x : String × ActorId} (h : x ∈ w.names.actors) : w.Holdable x.2 :=
  .inl (List.mem_append_left _ (List.mem_map_of_mem h))

theorem held_of_pool {x : String × PoolId} (h : x ∈ w.names.pools) : x.2 ∈ w.heldPools :=
  List.mem_append_left _ (List.mem_append_left _ (List.mem_map_of_mem h))

theorem held_of_system {x : String × SystemId} (h : x ∈ w.names.systems) :
    (w.system x.2).defaultPool ∈ w.heldPools :=
  List.mem_append_left _ (List.mem_append_right _
    (List.mem_map_of_mem (f := fun x : String × SystemId => (w.system x.2).defaultPool) h))

theorem deeds_bindActor (name : String) (h : w.Holdable a) :
    Deeds [] w.scene (w.bindActor name a).scene := by
  refine deeds_names _ (fun x hx => ?_) (fun _ hx => .inl (held_of_pool hx))
    fun _ hx => .inl (held_of_system hx)
  rcases List.mem_append.mp hx with hx | hx
  · exact holdable_of_name (List.mem_of_mem_filter hx)
  · rw [List.mem_singleton.mp hx]
    exact h

theorem deeds_bindMade (name : String) (h : w.Holdable a) :
    Deeds [] w.scene (w.bindMade name a).scene :=
  deeds_bindActor name h

theorem deeds_bindPool (name : String) {p : PoolId} (h : p ∈ w.heldPools ∨ p < w.pools.length) :
    Deeds [] w.scene (w.bindPool name p).scene := by
  refine deeds_names _ (fun _ => holdable_of_name) (fun x hx => ?_)
    fun _ hx => .inl (held_of_system hx)
  rcases List.mem_append.mp hx with hx | hx
  · exact .inl (held_of_pool (List.mem_of_mem_filter hx))
  · rw [List.mem_singleton.mp hx]
    exact h

theorem deeds_bindSystem (name : String) {s : SystemId}
    (h : (w.system s).defaultPool < w.pools.length) :
    Deeds [] w.scene (w.bindSystem name s).scene := by
  refine deeds_names _ (fun _ => holdable_of_name) (fun _ hx => .inl (held_of_pool hx))
    fun x hx => ?_
  rcases List.mem_append.mp hx with hx | hx
  · exact .inl (held_of_system (List.mem_of_mem_filter hx))
  · rw [List.mem_singleton.mp hx]
    exact .inr h

/-! ### Coming into being -/

theorem deeds_createPool {name : String} {size : Nat} {p : PoolId}
    (h : w.createPool name size = (.ok p, w')) :
    Deeds [] w.scene w'.scene ∧ p < w'.pools.length ∧ w'.systems = w.systems ∧
      w'.names = w.names := by
  obtain ⟨pool, hpool, rfl, rfl⟩ := createPool_eq_ok h
  refine ⟨?_, by simp [report], rfl, rfl⟩
  have hscene : ({ w with pools := w.pools ++ [{ pool }] } : World).scene =
      { w.scene with pools := w.scene.pools ++ [pool] } := by
    simp only [scene, List.map_append, List.map_cons, List.map_nil]
    rfl
  rw [scene_report, hscene]
  exact (Deed.found hpool).deeds

theorem deeds_createSystem {name : String} {workers : Nat} {grace : Duration}
    {settings : ActorSettings} {s : SystemId}
    (h : w.createSystem name workers grace settings = (.ok s, w')) :
    Deeds [] w.scene w'.scene ∧ (w'.system s).defaultPool < w'.pools.length := by
  obtain ⟨p, w₁, hpool, rfl, rfl⟩ := createSystem_eq_ok h
  obtain ⟨hdeeds, hp, _, _⟩ := deeds_createPool hpool
  refine ⟨hdeeds.after (deeds_roster rfl rfl rfl rfl rfl (fun a ha => ?_) fun q hq => ?_), ?_⟩
  · exact .inl (by simpa [heldActors, report] using ha)
  · rcases List.mem_append.mp hq with hq | hq
    · rcases List.mem_append.mp hq with hq | hq
      · exact .inl (List.mem_append_left _ (List.mem_append_left _ hq))
      · -- A name that stood for no system may now stand for this one.
        obtain ⟨x, hx, rfl⟩ := List.mem_map.mp hq
        rcases Nat.lt_trichotomy x.2 w₁.systems.length with hlt | heq | hgt
        · refine .inl (List.mem_append_left _ (List.mem_append_right _ (List.mem_map.mpr
            ⟨x, hx, ?_⟩)))
          simp [system, report, List.getElem?_append_left hlt]
        · refine .inr ?_
          simpa [system, report, heq] using hp
        · refine .inl (List.mem_append_left _ (List.mem_append_right _ (List.mem_map.mpr
            ⟨x, hx, ?_⟩)))
          have hsub : x.2 - w₁.systems.length ≠ 0 := Nat.sub_ne_zero_of_lt hgt
          simp [system, report, List.getElem?_append, Nat.not_lt_of_gt hgt, hsub]
    · have hsplit : ∀ l : List ActorSystem, q ∈ (w₁.systems ++ l).flatMap (·.pools) →
          q ∈ w₁.systems.flatMap (·.pools) ∨ q ∈ l.flatMap (·.pools) :=
        fun l hq => List.mem_append.mp (List.flatMap_append ▸ hq)
      rcases hsplit _ hq with hq | hq
      · exact .inl (List.mem_append_right _ hq)
      · obtain rfl : q = p := by simpa using hq
        exact .inr hp
  · simpa [system, report] using hp

/-- An actor that has just been created is told nothing yet. -/
theorem deeds_createActor {name kind : String} {settings : ActorSettings}
    (h : w.createActor name kind settings = .ok (a, w')) :
    Deeds [] w.scene w'.scene ∧ a < w'.actors.length ∧ (w'.actor a).stopping = false := by
  obtain ⟨-, rfl, _, rfl, rfl⟩ := createActor_eq_ok h
  refine ⟨?_, by simp [report], by simp [actor, report]⟩
  rw [scene_report, scene_report]
  have hscene : ∀ actor : Actor, ({ w with actors := w.actors ++ [actor] } : World).scene =
      { w.scene with lanes := w.scene.lanes ++ [actor.lane] } := by
    intro actor
    simp only [scene, List.map_append, List.map_cons, List.map_nil]
    rfl
  rw [hscene]
  refine (Deed.enroll ⟨rfl, rfl, rfl, rfl, rfl, rfl⟩ ?_).deeds
  rw [length_lanes_scene]
  rfl

/-! ### Names in systems -/

theorem deeds_register {s : SystemId} {key : String} {invocable : Bool} (ha : w.Holdable a)
    (h : w.register s key a invocable = (.ok (), w')) :
    Deeds [] w.scene w'.scene ∧ w'.scene.lanes = w.scene.lanes := by
  obtain ⟨-, _, rfl⟩ := register_eq_ok h
  have hsame : (w.onActor a fun actor =>
      { actor with registration := some { system := s, key } }).scene = w.scene :=
    scene_onActor_self fun _ => rfl
  have hholdable : (w.onActor a fun actor =>
      { actor with registration := some { system := s, key } }).Holdable a := by
    refine ha.imp id fun ⟨hlt, hstop⟩ => ⟨by simpa [onActor] using hlt, ?_⟩
    rw [actor_onActor_self w hlt]
    exact hstop
  rw [scene_report, ← hsame]
  refine ⟨deeds_onSystem (fun system _ x hx => ?_) (fun _ _ hp => .inl hp) fun _ => rfl, rfl⟩
  rcases List.mem_append.mp hx with hx | hx
  · exact .inl (List.mem_of_mem_filter hx)
  · rw [List.mem_singleton.mp hx]
    exact .inr hholdable

theorem deeds_createMember {s : SystemId} {name kind : String} {invocable : Bool}
    (h : w.createMember s name kind invocable = (.ok a, w')) :
    Deeds [] w.scene w'.scene ∧ a < w'.actors.length ∧ (w'.actor a).stopping = false := by
  obtain ⟨w₁, hcreate, hregister⟩ := createMember_eq_ok h
  obtain ⟨hdeeds, hlt, hstop⟩ := deeds_createActor hcreate
  obtain ⟨hnamed, hlanes⟩ := deeds_register (.inr ⟨hlt, hstop⟩) hregister
  refine ⟨hdeeds.after hnamed, ?_, ?_⟩
  · rwa [← length_lanes_scene, hlanes, length_lanes_scene]
  · have hlane : w'.scene.lane a = w₁.scene.lane a := by rw [Scene.lane, Scene.lane, hlanes]
    rw [lane_scene, lane_scene] at hlane
    exact (congrArg Lane.stopping hlane).trans hstop

theorem deeds_createChild {parent : ActorId} {name kind : String}
    (h : w.createChild parent name kind = (.ok a, w')) :
    Deeds [] w.scene w'.scene ∧ a < w'.actors.length ∧ (w'.actor a).stopping = false := by
  obtain ⟨s, w₁, _, hcreate, rfl⟩ := createChild_eq_ok h
  obtain ⟨hdeeds, hlt, hstop⟩ := deeds_createMember hcreate
  have hparent : (w₁.onActor a fun actor =>
      { actor with parent := some (w₁.actor parent).name }).scene = w₁.scene :=
    scene_onActor_self fun _ => rfl
  have hadopt : ∀ w : World, (w.onActor parent (·.adopt name)).scene = w.scene :=
    fun _ => scene_onActor_self fun _ => rfl
  have hscene := (hadopt _).trans hparent
  refine ⟨hscene ▸ hdeeds, by simpa [onActor] using hlt, ?_⟩
  have := congrArg (fun s => (s.lane a).stopping) hscene
  simp only [lane_scene] at this
  exact this.trans hstop

theorem deeds_addPool {s : SystemId} {p : PoolId} {index : Nat} (hp : p ∈ w.heldPools)
    (h : w.addPool s p = (.ok index, w')) : Deeds [] w.scene w'.scene := by
  obtain ⟨-, _, rfl⟩ := addPool_eq_ok h
  rw [scene_report]
  refine deeds_onSystem (fun _ _ _ hx => .inl hx) (fun system q hq => ?_) fun _ => rfl
  rcases List.mem_append.mp hq with hq | hq
  · exact .inl hq
  · rw [List.mem_singleton.mp hq]
    exact .inr hp

theorem held_of_findActor {s : SystemId} {key kind : String} (h : w.findActor s key kind = some a) :
    a ∈ w.heldActors := by
  obtain ⟨hfind, _⟩ := Option.filter_eq_some_iff.mp h
  obtain ⟨entry, hentry, rfl⟩ := Option.map_eq_some_iff.mp hfind
  exact held_of_find? hentry

theorem held_of_systemPools {s : SystemId} {p : PoolId} (h : p ∈ (w.system s).pools) :
    p ∈ w.heldPools := by
  rw [system] at h
  cases hs : w.systems[s]? with
  | none =>
    rw [hs] at h
    cases h
  | some system =>
    rw [hs] at h
    exact List.mem_append_right _ (List.mem_flatMap.mpr ⟨system, List.mem_of_getElem? hs, h⟩)

theorem held_of_systemNamed {name : String} {s : SystemId} (h : w.systemNamed name = .ok s) :
    (w.system s).defaultPool ∈ w.heldPools := by
  rw [systemNamed] at h
  cases hl : w.names.systems.lookup name with
  | none => simp [hl] at h
  | some k =>
    obtain rfl : k = s := by simpa [hl] using h
    obtain ⟨l, r, hsplit, _⟩ := List.lookup_eq_some_iff.mp hl
    exact held_of_system (x := (name, k)) (by rw [hsplit]; simp)

end World

end Troupe
