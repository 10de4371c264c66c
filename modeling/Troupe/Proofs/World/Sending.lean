import Troupe.Proofs.World.Answers
import Troupe.Proofs.World.Parts
import Troupe.Proofs.World.Run

/-!
# Sending, deed by deed

An operation that is accepted leaves a mark if it goes through the mailbox, as itself or as the
relay of a job, and none if it goes past the mailbox. An operation that is refused leaves the mark
of a handle that is resolved from the beginning.

## Main definitions

* `Scene.Answers` — what the marks of a sending are

## Main results

* `World.deeds_sendOrdered`, `deeds_sendBypass`, `deeds_sendOffload` — the ways to an actor
* `World.deeds_send` — sending by name
-/

namespace Troupe

/-- The route on which an envelope came. -/
def Envelope.route : Envelope → Route
  | .operation _ _ _ => .ordered
  | .relay _ p j => .offloaded p j

/-- The marks of an envelope that joins the mailbox of an actor. Before a relay does so its job is
submitted, on behalf of the actor. -/
def Mark.ofAdmission (a : ActorId) (owner : String) : Envelope → List Mark
  | .operation h body answer => [.admitted a (.operation h body answer)]
  | .relay h p j => [.submitted p owner, .admitted a (.relay h p j)]

theorem Mark.mem_ofAdmission {a : ActorId} {owner : String} {e : Envelope} {m : Mark} :
    m ∈ ofAdmission a owner e ↔
      m = .admitted a e ∨ ∃ h p j, e = .relay h p j ∧ m = .submitted p owner := by
  cases e <;> simp [ofAdmission, or_comm]

/-- The marks of a sending to an actor: it is refused, or it goes past the mailbox, or an envelope
joins the mailbox. -/
inductive Scene.Answers (s : Scene) (a : ActorId) (h : HandleId) (r : Route) :
    List Mark → Prop where
  /-- It is refused. -/
  | refused : Answers s a h r [.settled h (.error (.closed (s.lane a).name))]
  /-- It goes past the mailbox. -/
  | past (hr : r = .bypass) (hopen : (s.lane a).closed = false) : Answers s a h r []
  /-- It goes into the mailbox. -/
  | admitted {e : Envelope} (he : e.handle = h) (hr : e.route = r)
    (hopen : (s.lane a).closed = false) :
    Answers s a h r (Mark.ofAdmission a (s.lane a).owner e)

namespace World

variable {w : World} {a : ActorId}

theorem lt_of_held (hs : w.scene.Sound) (h : a ∈ w.heldActors) : a < w.actors.length := by
  rw [← length_lanes_scene]
  exact hs.held_lt a h

theorem deeds_refuse (a : ActorId) (w : World) :
    Deeds [.settled w.channels.length (.error (.closed (w.scene.lane a).name))] w.scene
      (w.refuse a).2.scene := by
  rw [refuse, scene_newHandle, lane_scene, ← length_contents_scene]
  exact (Deed.settled _).deeds

/-- An envelope joins the mailbox of an open actor. -/
theorem deeds_enqueue {e : Envelope} {actor : Actor} (ha : a < w.actors.length)
    (hheld : a ∈ w.heldActors) (he : e.handle = w.channels.length)
    (hpush : (w.actor a).enqueue e = some actor)
    (hrelay : ∀ h p j, e = .relay h p j → p ∈ (w.scene.lane a).pools ∧ p < w.scene.pools.length ∧
      j < (w.scene.pool p).channels.length ∧
      ∀ t ∈ (w.scene.pool p).openLabels, t.1 = j → t.2 = some (w.scene.lane a).owner) :
    (w.scene.lane a).closed = false ∧
      Deeds [.admitted a e] w.scene ((w.newHandle {}).2.onActor a fun _ => actor).scene := by
  rw [Actor.enqueue, Mailbox.push] at hpush
  split at hpush
  · cases hpush
  · rename_i hopen
    split at hpush
    · cases hpush
    · cases hpush
      have hscene : ((w.newHandle {}).2.onActor a fun _ =>
          { w.actor a with mailbox := { (w.actor a).mailbox with
            queue := (w.actor a).mailbox.queue ++ [e] } }).scene =
          (w.scene.grow .empty).onLane a fun l => { l with queue := l.queue ++ [e] } := by
        rw [scene_onActor (g := fun _ => { (w.actor a).lane with
          queue := (w.actor a).lane.queue ++ [e] }) fun _ => rfl, scene_newHandle]
        refine Scene.onLane_congr ?_
        show _ = { w.scene.lane a with queue := (w.scene.lane a).queue ++ [e] }
        rw [lane_scene]
      have hclosed : (w.scene.lane a).closed = false := by
        rw [lane_scene]
        exact Bool.eq_false_iff.mpr hopen
      refine ⟨hclosed, hscene ▸ (Deed.accept ?_ hheld hclosed (by simpa using he) hrelay).deeds⟩
      simpa using ha

theorem enqueue_eq_none {e : Envelope} {actor : Actor} (h : actor.enqueue e = none) :
    actor.closed = true ∨ actor.mailbox.closed = true := by
  rw [Actor.enqueue, Mailbox.push] at h
  split at h
  · exact .inl ‹_›
  · split at h
    · exact .inr ‹_›
    · cases h

/-- An actor that takes no envelope is closed. -/
theorem closed_of_enqueue (hs : w.scene.Sound) {e : Envelope}
    (h : (w.actor a).enqueue e = none) : (w.scene.lane a).closed = true := by
  rcases enqueue_eq_none h with h | h
  · rw [lane_scene]
    exact h
  · rw [← hs.shut a, lane_scene]
    exact h

/-! ### To actors -/

theorem deeds_sendOrdered (hs : w.scene.Sound) (ha : a ∈ w.heldActors) (body : List Action)
    (answer : Answer) :
    (w.sendOrdered a body answer).1 = w.channels.length ∧
      ∃ ms, Deeds ms w.scene (w.sendOrdered a body answer).2.scene ∧
        w.scene.Answers a w.channels.length .ordered ms := by
  rw [sendOrdered]
  cases hpush : (w.actor a).enqueue (.operation w.channels.length body answer) with
  | none => exact ⟨rfl, _, deeds_refuse a (w.report _), .refused⟩
  | some actor =>
    obtain ⟨hopen, haccept⟩ :=
      deeds_enqueue (lt_of_held hs ha) ha rfl hpush fun h p j he => by cases he
    exact ⟨rfl, _, haccept,
      .admitted (e := .operation w.channels.length body answer) rfl rfl hopen⟩

/-- An actor that hands out its target is open. -/
theorem closed_of_isOpen (h : (w.actor a).isOpen = true) : (w.scene.lane a).closed = false := by
  rw [lane_scene]
  simp only [Actor.isOpen, Bool.and_eq_true, Bool.not_eq_true'] at h
  exact h.1

theorem deeds_sendBypass (body : List Action) (answer : Answer) (a : ActorId) (w : World) :
    (w.sendBypass a body answer).1 = w.channels.length ∧
      ∃ ms, Deeds ms w.scene (w.sendBypass a body answer).2.scene ∧
        w.scene.Answers a w.channels.length .bypass ms := by
  rw [sendBypass]
  split
  · rename_i hopen
    refine ⟨rfl, [], ?_, .past rfl (closed_of_isOpen hopen)⟩
    rw [scene_spawn, scene_newHandle]
    exact (Deed.begin (t := .bypass a w.channels.length { rest := body, answer })
      (by simp [Task.handle]) rfl fun b hb => by cases hb).deeds
  · exact ⟨rfl, _, deeds_refuse a w, .refused⟩

theorem scene_remember (a : ActorId) (p : PoolId) (w : World) :
    (w.onActor a (·.remember p)).scene = w.scene.onLane a (·.remember p) := by
  refine scene_onActor fun actor => ?_
  by_cases hmem : p ∈ actor.pools <;> simp [Actor.remember, Lane.remember, Actor.lane, hmem]

theorem reachable_pool (hs : w.scene.Sound) {p : PoolId} (hp : p < w.pools.length) :
    (w.pool p).Reachable := by
  refine hs.pools _ ?_
  rw [← pool_scene, Scene.pool, List.getElem?_eq_getElem (by simpa using hp)]
  exact List.getElem_mem _

/-- What an actor does before its relay joins the mailbox: it remembers the pool and submits the
job. -/
theorem scene_submitFor (ha : a < w.actors.length) (hopen : (w.scene.lane a).closed = false)
    {p : PoolId} (hp : p < w.pools.length) (urgent : Bool) (work : Work) :
    let owner := (w.scene.lane a).owner
    let w' := ((w.onActor a (·.remember p)).submitJob p (some owner) urgent work).2
    Deeds [.submitted p owner] w.scene w'.scene ∧
      w'.scene.lane a = (w.scene.lane a).remember p ∧
      w'.scene.pool p = ((w.pool p).submit (some owner) urgent work).2 ∧
      w'.channels.length = w.channels.length ∧ w'.actors.length = w.actors.length ∧
      w'.pools.length = w.pools.length ∧ w'.heldActors = w.heldActors := by
  intro owner w'
  have hscene : w'.scene =
      (w.scene.onLane a (·.remember p)).onPool p (.submit (some owner) urgent work) := by
    rw [scene_submitJob, scene_remember]
  refine ⟨?_, ?_, ?_, ?_, ?_, ?_, congrArg Scene.held hscene⟩
  · rw [hscene]
    exact (Deed.remember hopen (by simpa using hp)).deeds.after
      (Deed.pool p (.submit (some owner) urgent work)).deeds
  · rw [hscene]
    show (w.scene.onLane a (·.remember p)).lane a = _
    rw [Scene.lane_onLane, if_pos ⟨rfl, by simpa using ha⟩]
  · rw [hscene, Scene.pool_onPool, if_pos ⟨rfl, by simpa [Scene.onLane] using hp⟩]
    show (w.scene.pool p).apply _ = _
    rw [pool_scene]
    rfl
  · rw [← length_contents_scene, hscene, ← length_contents_scene w]
    rfl
  · rw [← length_lanes_scene, hscene, ← length_lanes_scene w]
    exact Scene.length_lanes_onLane ..
  · rw [← length_pools_scene, hscene, ← length_pools_scene w]
    exact List.length_modify ..

/-- An actor that hands out its target takes the relay. -/
theorem deeds_sendOffload_open (hs : w.scene.Sound) (ha : a ∈ w.heldActors) {p : PoolId}
    (hp : p < w.pools.length) (hopen : (w.actor a).isOpen = true) (urgent : Bool)
    (body : List Effect) (answer : Answer) :
    (w.sendOffload a p urgent body answer).1 = w.channels.length ∧
      Deeds (Mark.ofAdmission a (w.scene.lane a).owner
          (.relay w.channels.length p (w.pool p).channels.length)) w.scene
        (w.sendOffload a p urgent body answer).2.scene := by
  have hlt := lt_of_held hs ha
  have hclosed := closed_of_isOpen hopen
  set owner := (w.scene.lane a).owner with howner
  set w' := ((w.onActor a (·.remember p)).submitJob p (some owner) urgent
    { rest := body, answer, page := .side a }).2 with hw'
  obtain ⟨hsubmit, hlane, hpool, hlen, hactors, hpools, hheld⟩ :=
    scene_submitFor hlt hclosed hp urgent { rest := body, answer, page := .side a }
  have hsame : ((w.scene.lane a).remember p).closed = (w.scene.lane a).closed := by
    rw [Lane.remember_eq]
  have hkeeps : ((w.scene.lane a).remember p).owner = owner := by
    rw [Lane.remember_eq]
  cases hpush : (w'.actor a).enqueue
      (.relay w.channels.length p (w.pool p).channels.length) with
  | none =>
    have := closed_of_enqueue (hs.deeds hsubmit) hpush
    rw [hlane, hsame, hclosed] at this
    cases this
  | some actor =>
    have hsend : w.sendOffload a p urgent body answer =
        ((w'.newHandle {}).1, (w'.newHandle {}).2.onActor a fun _ => actor) := by
      have htag : ((w.onActor a (·.remember p)).actor a).owner = owner := by
        have := congrArg Lane.owner (lane_scene (w.onActor a (·.remember p)) a)
        rw [scene_remember, Scene.lane_onLane, if_pos ⟨rfl, by simpa using hlt⟩, hkeeps] at this
        exact this.symm
      have hfst := submitJob_fst (w := w.onActor a (·.remember p)) p (some owner) urgent
        { rest := body, answer, page := .side a }
      rw [← hlen] at hpush
      rw [sendOffload, hopen, if_pos rfl]
      simp only [htag, hfst]
      split
      · rename_i other hother
        cases hother.symm.trans hpush
        rfl
      · rename_i hnone
        cases hnone.symm.trans hpush
    rw [hsend]
    have haccept := deeds_enqueue (e := .relay w.channels.length p (w.pool p).channels.length)
      (hactors ▸ hlt) (hheld ▸ ha) hlen.symm hpush fun h q j he => by
        cases he
        rw [hlane, hpool, hkeeps, length_pools_scene, hpools, Pool.length_channels_submit]
        exact ⟨Lane.mem_pools_remember p _, hp, Nat.lt_succ_self _, fun t ht hid =>
          (reachable_pool hs hp).owner_of_submit ht hid⟩
    exact ⟨hlen, hsubmit.trans haccept.2⟩

theorem deeds_sendOffload (hs : w.scene.Sound) (ha : a ∈ w.heldActors) {p : PoolId}
    (hp : p < w.pools.length) (urgent : Bool) (body : List Effect) (answer : Answer) :
    (w.sendOffload a p urgent body answer).1 = w.channels.length ∧
      ∃ ms, Deeds ms w.scene (w.sendOffload a p urgent body answer).2.scene ∧
        w.scene.Answers a w.channels.length (.offloaded p (w.pool p).channels.length) ms := by
  cases hopen : (w.actor a).isOpen with
  | false =>
    rw [sendOffload, hopen]
    exact ⟨rfl, _, deeds_refuse a w, .refused⟩
  | true =>
    obtain ⟨hfst, hdeeds⟩ := deeds_sendOffload_open hs ha hp hopen urgent body answer
    exact ⟨hfst, _, hdeeds, .admitted rfl rfl (closed_of_isOpen hopen)⟩

/-! ### By name -/

theorem mem_of_lookup_names {α : Type} {names : List (String × α)} {name : String} {a : α}
    (h : names.lookup name = some a) : a ∈ names.map (·.2) := by
  obtain ⟨l, r, rfl, _⟩ := List.lookup_eq_some_iff.mp h
  simp

theorem held_of_actorNamed {name : String} (h : w.actorNamed name = .ok a) :
    a ∈ w.heldActors := by
  rw [actorNamed] at h
  cases hl : w.names.actors.lookup name with
  | none => simp [hl] at h
  | some b =>
    obtain rfl : b = a := by simpa [hl] using h
    exact List.mem_append_left _ (mem_of_lookup_names hl)

theorem held_of_poolNamed {name : String} {p : PoolId} (h : w.poolNamed name = .ok p) :
    p ∈ w.heldPools := by
  rw [poolNamed] at h
  cases hl : w.names.pools.lookup name with
  | none => simp [hl] at h
  | some q =>
    obtain rfl : q = p := by simpa [hl] using h
    exact List.mem_append_left _ (List.mem_append_left _ (mem_of_lookup_names hl))

theorem lt_of_heldPool (hs : w.scene.Sound) {p : PoolId} (h : p ∈ w.heldPools) :
    p < w.pools.length := by
  rw [← length_pools_scene]
  exact hs.wells_lt p h

theorem deeds_sendJob (p : PoolId) (owner : Option String) (urgent : Bool) (body : List Effect)
    (w : World) :
    Deeds (owner.toList.map (.submitted p)) w.scene (w.sendJob p owner urgent body).2.scene := by
  rw [sendJob, scene_submitJob]
  cases owner with
  | none => exact (Deed.pool p (.submit none _ _)).deeds
  | some owner => exact (Deed.pool p (.submit (some owner) _ _)).deeds

/-- **Sending by name.** -/
theorem deeds_send (hs : w.scene.Sound) {s : Send} {w' : World} (h : w.send s = .ok w') :
    ∃ ms, Deeds ms w.scene w'.scene ∧
      match w.destination s with
      | none => ms = [] ∨ ∃ p owner, s.jobOwner? = some owner ∧ ms = [.submitted p owner]
      | some (a, r) => w.scene.Answers a w.channels.length r ms := by
  cases dispatches_of_send h with
  | @ordered _ body answer _ _ ha =>
    obtain ⟨_, ms, hdeeds, hanswers⟩ := deeds_sendOrdered hs (held_of_actorNamed ha) body answer
    exact ⟨ms, hdeeds.before (deeds_hand ..),
      by simpa [destination, ha, Except.toOption] using hanswers⟩
  | @bypass _ body answer _ a ha =>
    obtain ⟨_, ms, hdeeds, hanswers⟩ := deeds_sendBypass body answer a w
    exact ⟨ms, hdeeds.before (deeds_hand ..),
      by simpa [destination, ha, Except.toOption] using hanswers⟩
  | @offload _ _ urgent body answer _ _ _ ha hp =>
    obtain ⟨_, ms, hdeeds, hanswers⟩ := deeds_sendOffload hs (held_of_actorNamed ha)
      (lt_of_heldPool hs (held_of_poolNamed hp)) urgent body answer
    exact ⟨ms, hdeeds.before (deeds_hand ..), by simpa [destination, ha, hp] using hanswers⟩
  | @job _ owner _ _ _ p hp =>
    refine ⟨_, (deeds_sendJob p owner _ _ w).before (deeds_hand ..), ?_⟩
    cases owner with
    | none => exact .inl rfl
    | some owner => exact .inr ⟨p, owner, rfl, rfl⟩

/-- What is not sent has no destination. -/
theorem destination_of_error {s : Send} {message : String} (h : w.send s = .error message) :
    w.destination s = none := by
  unfold send at h
  cases s with
  | operation path actor body answer recipient =>
    cases hactor : w.actorNamed actor with
    | error message => simp [destination, hactor, Except.toOption]
    | ok a => cases path <;> simp [hactor, bind, Except.bind, pure, Except.pure] at h
  | offload actor pool urgent body answer recipient =>
    cases hactor : w.actorNamed actor with
    | error message => simp [destination, hactor]
    | ok a =>
      cases hpool : w.poolNamed pool with
      | error message => simp [destination, hactor, hpool]
      | ok p => simp [hactor, hpool, bind, Except.bind, pure, Except.pure] at h
  | job pool owner urgent body recipient => rfl

theorem held_of_destination {s : Send} {r : Route} (h : w.destination s = some (a, r)) :
    a ∈ w.heldActors := by
  unfold destination at h
  cases s with
  | operation path actor body answer recipient =>
    cases hactor : w.actorNamed actor with
    | error message => simp [hactor, Except.toOption] at h
    | ok b =>
      obtain ⟨rfl, _⟩ : b = a ∧ _ := by simpa [hactor, Except.toOption] using h
      exact held_of_actorNamed hactor
  | offload actor pool urgent body answer recipient =>
    cases hactor : w.actorNamed actor with
    | error message => simp [hactor] at h
    | ok b =>
      cases hpool : w.poolNamed pool with
      | error message => simp [hactor, hpool] at h
      | ok p =>
        obtain ⟨rfl, _⟩ : b = a ∧ _ := by simpa [hactor, hpool] using h
        exact held_of_actorNamed hactor
  | job pool owner urgent body recipient => cases h

theorem mem_of_find? {r : Registry} {name : String} {entry : Entry}
    (h : r.find? name = some entry) :
    ∃ key, (key, entry) ∈ r.entries := by
  obtain ⟨l, t, hl, _⟩ := List.lookup_eq_some_iff.mp h
  exact ⟨name, by rw [hl]; simp⟩

theorem held_of_entries {s : SystemId} {x : String × Entry}
    (h : x ∈ (w.system s).registry.entries) : x.2.actor ∈ w.heldActors := by
  rw [system] at h
  cases hs : w.systems[s]? with
  | none =>
    rw [hs] at h
    cases h
  | some system =>
    rw [hs] at h
    exact List.mem_append_right _ (List.mem_flatMap.mpr
      ⟨system, List.mem_of_getElem? hs, List.mem_map_of_mem h⟩)

theorem lt_of_entries (hs : w.scene.Sound) (s : SystemId) :
    ∀ a ∈ (w.system s).registry.entries.map (·.2.actor), a < w.actors.length := by
  intro a ha
  obtain ⟨x, hx, rfl⟩ := List.mem_map.mp ha
  exact lt_of_held hs (held_of_entries hx)

theorem held_of_find? {s : SystemId} {name : String} {entry : Entry}
    (h : (w.system s).registry.find? name = some entry) : entry.actor ∈ w.heldActors := by
  obtain ⟨key, hkey⟩ := mem_of_find? h
  exact held_of_entries hkey

/-- An act sends to an actor that is held, under a new handle. -/
theorem of_target? {act : Act} {h : HandleId} {r : Route} (ht : w.target? act = some (a, h, r)) :
    a ∈ w.heldActors ∧ w.channels.length ≤ h := by
  unfold target? at ht
  split at ht
  · obtain ⟨x, hx, heq⟩ := Option.map_eq_some_iff.mp ht
    cases heq
    exact ⟨held_of_destination hx, Nat.le_refl _⟩
  · split at ht
    · split at ht
      · rename_i hfind
        cases ht
        exact ⟨held_of_find? hfind, Nat.le_succ _⟩
      · cases ht
    · cases ht
  · split at ht
    · obtain ⟨x, hx, heq⟩ := Option.map_eq_some_iff.mp ht
      cases heq
      exact ⟨held_of_destination hx, Nat.le_refl _⟩
    · cases ht
  · cases ht

end World

end Troupe
