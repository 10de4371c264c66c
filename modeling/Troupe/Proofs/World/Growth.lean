import Troupe.Proofs.World.Sound

/-!
# What deeds never take back

Some things about a scene only ever go one way: a handle that is resolved stays resolved, an actor
that is closed or told to stop stays so, and neither actors nor handles nor pools go away. Since
all deeds respect this, so does everything that happens later.

## Main definitions

* `Scene.Grows` — from one scene to a later one

## Main results

* `Scene.Grows.of_deed`, `Scene.Grows.of_deeds` — later scenes have grown
-/

namespace Troupe

/-- From a lane to the same one later. -/
structure Lane.Grows (l l' : Lane) : Prop where
  /-- The actor keeps its name. -/
  name : l'.name = l.name
  /-- The actor keeps the tag of its jobs. -/
  owner : l'.owner = l.owner
  /-- What is closed stays closed. -/
  closed : l.closed = true → l'.closed = true
  /-- What is told to stop is not told otherwise. -/
  stopping : l.stopping = true → l'.stopping = true
  /-- No pool is forgotten. -/
  pools : l.pools ⊆ l'.pools

theorem Lane.Grows.refl (l : Lane) : l.Grows l :=
  ⟨rfl, rfl, id, id, List.Subset.refl _⟩

namespace Scene

variable {s t u : Scene} {ms : List Mark}

/-- From one scene to a later one. -/
structure Grows (s t : Scene) : Prop where
  /-- No actor goes away. -/
  lanes : s.lanes.length ≤ t.lanes.length
  /-- Lanes grow. -/
  lane : ∀ a < s.lanes.length, (s.lane a).Grows (t.lane a)
  /-- No handle goes away. -/
  contents : s.contents.length ≤ t.contents.length
  /-- What is resolved stays resolved. -/
  resolved : ∀ h < s.contents.length, s.content h ≠ .empty → t.content h ≠ .empty
  /-- What is lost stays lost. -/
  lost : ∀ h < s.contents.length, s.content h = .lost → t.content h = .lost

theorem Grows.refl (s : Scene) : s.Grows s :=
  ⟨Nat.le_refl _, fun _ _ => .refl _, Nat.le_refl _, fun _ _ => id, fun _ _ => id⟩

theorem Grows.trans (h : s.Grows t) (k : t.Grows u) : s.Grows u := by
  refine ⟨Nat.le_trans h.lanes k.lanes, fun a ha => ?_, Nat.le_trans h.contents k.contents,
    fun a ha he => ?_, fun a ha he => ?_⟩
  · have h₁ := h.lane a ha
    have h₂ := k.lane a (Nat.lt_of_lt_of_le ha h.lanes)
    exact ⟨h₂.name.trans h₁.name, h₂.owner.trans h₁.owner, h₂.closed ∘ h₁.closed,
      h₂.stopping ∘ h₁.stopping, List.Subset.trans h₁.pools h₂.pools⟩
  · exact k.resolved a (Nat.lt_of_lt_of_le ha h.contents) (h.resolved a ha he)
  · exact k.lost a (Nat.lt_of_lt_of_le ha h.contents) (h.lost a ha he)

/-- Only the rest of the scene changes. -/
theorem Grows.of_same (hlanes : t.lanes = s.lanes) (hcontents : t.contents = s.contents) :
    s.Grows t := by
  have lane : ∀ a, t.lane a = s.lane a := fun a => by rw [Scene.lane, Scene.lane, hlanes]
  have content : ∀ h, t.content h = s.content h := fun h => by
    rw [Scene.content, Scene.content, hcontents]
  refine ⟨Nat.le_of_eq (by rw [hlanes]), fun a _ => ?_, Nat.le_of_eq (by rw [hcontents]),
    fun h _ => ?_, fun h _ => ?_⟩
  · rw [lane]
    exact .refl _
  · rw [content]
    exact id
  · rw [content]
    exact id

theorem Grows.onLane {a : ActorId} {f : Lane → Lane} (h : (s.lane a).Grows (f (s.lane a))) :
    s.Grows (s.onLane a f) := by
  refine ⟨Nat.le_of_eq (length_lanes_onLane a f).symm, fun b _ => ?_, Nat.le_refl _, fun _ _ => id,
    fun _ _ => id⟩
  rw [lane_onLane]
  split
  · rename_i hb
    rw [hb.1]
    exact h
  · exact .refl _

theorem Grows.settleAll (hs : List HandleId) (c : Content (Except ActorError Json)) (s : Scene) :
    s.Grows (s.settleAll hs c) := by
  have hlanes := (settleAll_frame (s := s) hs c).1
  have hlen : (s.settleAll hs c).contents.length = s.contents.length := by
    induction hs generalizing s with
    | nil => rfl
    | cons h hs ih =>
      exact (ih _ (settleAll_frame (s := s.onContent h (·.settle c)) hs c).1).trans
        (List.length_modify ..)
  refine ⟨Nat.le_of_eq (by rw [hlanes]), fun a _ => ?_, Nat.le_of_eq hlen.symm,
    fun h _ he => ?_, fun h _ he => ?_⟩
  · rw [Scene.lane, Scene.lane, hlanes]
    exact .refl _
  · rw [content_settleAll]
    split
    · rwa [Content.settle_of_ne he]
    · exact he
  · rw [content_settleAll, he]
    split <;> rfl

theorem Grows.grow (c : Content (Except ActorError Json)) (s : Scene) : s.Grows (s.grow c) := by
  have old : ∀ h < s.contents.length, (s.grow c).content h = s.content h := fun h hh => by
    rw [content_grow, if_neg (Nat.ne_of_lt hh)]
  refine ⟨Nat.le_refl _, fun a _ => .refl _, by simp [Scene.grow], fun h hh => ?_, fun h hh => ?_⟩
  · rw [old h hh]
    exact id
  · rw [old h hh]
    exact id

theorem Grows.drain (h : HandleId) (s : Scene) : s.Grows (s.onContent h Content.drain) := by
  refine ⟨Nat.le_refl _, fun a _ => .refl _, Nat.le_of_eq (List.length_modify ..).symm,
    fun k _ he => ?_, fun k _ he => ?_⟩
  · rw [content_onContent]
    split
    · rename_i hk
      rw [hk.1] at he
      simpa using he
    · exact he
  · rw [content_onContent]
    split
    · rename_i hk
      rw [hk.1] at he
      simpa using he
    · exact he

theorem Grows.stopAll (A : ActorId → Bool) (s : Scene) : s.Grows (s.stopAll A) := by
  refine ⟨Nat.le_of_eq (length_lanes_stopAll A).symm, fun a _ => ?_, Nat.le_refl _, fun _ _ => id,
    fun _ _ => id⟩
  rw [lane_stopAll]
  split
  · exact ⟨rfl, rfl, id, fun _ => rfl, List.Subset.refl _⟩
  · exact .refl _

theorem Grows.enroll (l : Lane) (s : Scene) :
    s.Grows { s with lanes := s.lanes ++ [l] } := by
  refine ⟨by simp, fun a ha => ?_, Nat.le_refl _, fun _ _ => id, fun _ _ => id⟩
  have : ({ s with lanes := s.lanes ++ [l] } : Scene).lane a = s.lane a := by
    simp [Scene.lane, List.getElem?_append_left ha]
  rw [this]
  exact .refl _

/-- **Every deed makes a scene grow.** -/
theorem Grows.of_deed (d : Deed ms s t) : s.Grows t := by
  -- Most changes of a lane leave all of this alone.
  have same : ∀ {l l' : Lane}, l'.name = l.name → l'.owner = l.owner → l'.closed = l.closed →
      l'.stopping = l.stopping → l'.pools = l.pools → l.Grows l' := by
    intro l l' h₁ h₂ h₃ h₄ h₅
    exact ⟨h₁, h₂, fun h => h₃ ▸ h, fun h => h₄ ▸ h, h₅ ▸ List.Subset.refl _⟩
  cases d with
  | roster _ _ | found _ | pool _ _ => exact .of_same rfl rfl
  | setTask _ _ _ _ => exact .of_same rfl rfl
  | enroll _ => exact .enroll _ s
  | stop _ => exact .stopAll _ s
  | settled o => exact .grow _ s
  | drain h => exact .drain h s
  | begin _ _ _ => exact (Grows.grow .empty s).trans (.of_same rfl rfl)
  | endTask _ o => exact (Grows.settleAll _ _ s).trans (.of_same rfl rfl)
  | @remember _ a p _ _ =>
    refine .onLane ?_
    rw [Lane.remember_eq]
    exact ⟨rfl, rfl, id, id, (s.lane a).subset_pools_remember p⟩
  | accept _ _ _ _ _ => exact (Grows.grow .empty s).trans (.onLane (same rfl rfl rfl rfl rfl))
  | clear a =>
    exact (Grows.onLane (same rfl rfl rfl rfl rfl)).trans (.settleAll _ _ _)
  | shut _ _ _ =>
    refine (Grows.onLane ?_).trans (.settleAll _ _ _)
    exact ⟨rfl, rfl, fun _ => rfl, fun _ => rfl, List.Subset.refl _⟩
  | abort _ | quit _ _ =>
    exact (Grows.onLane (same rfl rfl rfl rfl rfl)).trans (.settleAll _ _ _)
  | start _ | enter _ _ _ | proceed _ _ => exact .onLane (same rfl rfl rfl rfl rfl)
  | finish _ _ o =>
    exact (Grows.settleAll _ _ s).trans (.onLane (same rfl rfl rfl rfl rfl))

theorem Grows.of_deeds (d : Deeds ms s t) : s.Grows t := by
  induction d with
  | refl s => exact .refl s
  | cons d _ ih => exact (Grows.of_deed d).trans ih

theorem Grows.closed (h : s.Grows t) {a : ActorId} (hclosed : (s.lane a).closed = true) :
    (t.lane a).closed = true :=
  (h.lane a (lt_of_closed hclosed)).closed hclosed

end Scene

end Troupe
