import Troupe.Proofs.World.Calls
import Troupe.Proofs.World.Handles

/-!
# How far an act reaches

An act concerns one mover at most, and whatever another mover is working on goes on as it is. The
one exception is a close whose time is up, which aborts the run loop of the closed actor; then what
the run loop was inside of is lost.

## Main definitions

* `World.Commits` — on whose behalf an act submits a job
* `World.Fits` — the marks that an act may leave

## Main results

* `World.fits_next` — an act leaves no other marks
* `World.inside_next`, `World.task_next` — the work of other movers goes on, or it is lost
* `World.full_next` — what is resolved gets no other outcome
-/

namespace Troupe

namespace World

variable {w : World} {act : Act} {a : ActorId}

/-- On whose behalf an act submits a job: of an open actor that it sends something to, or of
whoever it says. -/
def Commits (w : World) (act : Act) (owner : String) : Prop :=
  w.jobOwner? act = some owner ∨ ∃ a h r, w.target? act = some (a, h, r) ∧
    (w.actor a).closed = false ∧ (w.actor a).owner = owner

/-- The marks that an act may leave. -/
def Fits (w : World) (act : Act) : Mark → Prop
  | .entered a _ | .quit a | .turned a => act = .move (.runLoop a)
  | .stepped t => act = .move (.task t) ∨ act = .move (.grace t)
  | .worked p => ∃ place, act = .move (.worker p place)
  | .drained h => ∃ name, act = .call (.take name) ∧ w.handleNamed name = .ok (.operation h)
  | .collected p j => ∃ name, act = .call (.take name) ∧ w.handleNamed name = .ok (.job p j)
  | .cleared a => w.Clears act a
  | .shut _ => w.target? act = none ∧ ∃ mover, act = .move mover
  | .aborted a => ∃ mover wait, act = .move mover ∧ wait ∈ w.waits mover ∧ wait.actor = a
  | .submitted _ owner => w.Commits act owner
  | .admitted _ _ | .settled _ _ => True

theorem Fits.ofTake {name : String} {r : HandleRef} (hact : act = .call (.take name))
    (hr : w.handleNamed name = .ok r) : w.Fits act (.ofTake r) := by
  cases r <;> exact ⟨name, hact, hr⟩

theorem Explains.fits {ms : List Mark} (h : w.Explains act ms) : ∀ m ∈ ms, w.Fits act m := by
  intro m hm
  cases h with
  | sends ht hms =>
    cases hms with
    | refused =>
      obtain rfl := List.mem_singleton.mp hm
      trivial
    | past _ _ => cases hm
    | admitted _ _ hopen =>
      rcases Mark.mem_ofAdmission.mp hm with rfl | ⟨_, _, _, rfl, rfl⟩
      · trivial
      · rw [lane_scene] at hopen
        refine .inr ⟨_, _, _, ht, hopen, ?_⟩
        rw [lane_scene]
        rfl
  | enters _ hact _ _ _ | quits _ hact _ _ =>
    obtain rfl := List.mem_singleton.mp hm
    exact hact
  | clears _ h =>
    obtain rfl := List.mem_singleton.mp hm
    exact h
  | closes ht hms =>
    obtain ⟨mover, hact, hm⟩ := hms m hm
    cases hm with
    | shut a => exact ⟨ht, mover, hact⟩
    | aborted hwait => exact ⟨mover, _, hact, hwait, rfl⟩
  | takes _ hact hr =>
    obtain rfl := List.mem_singleton.mp hm
    exact .ofTake hact hr
  | submits _ howner =>
    obtain rfl := List.mem_singleton.mp hm
    exact .inl howner
  | fails _ =>
    obtain rfl := List.mem_singleton.mp hm
    trivial

theorem Follows.fits {ns : List Mark} (h : w.Follows act ns) : ∀ m ∈ ns, w.Fits act m := by
  intro m hm
  cases act with
  | call _ | observe =>
    rw [show ns = [] from h] at hm
    cases hm
  | move mover =>
    cases mover with
    | runLoop b =>
      rw [h.1 m hm]
      rfl
    | task t =>
      rw [h m hm]
      exact .inl rfl
    | grace t =>
      rw [h m hm]
      exact .inr rfl
    | worker p place =>
      rw [h m hm]
      exact ⟨place, rfl⟩

/-- **An act leaves no other marks** than those that fit it. -/
theorem fits_next (hs : w.scene.Sound) (act : Act) :
    ∃ ms, Deeds ms w.scene (w.next act).scene ∧ ∀ m ∈ ms, w.Fits act m := by
  obtain ⟨ms, ns, d, hms, hns⟩ := deeds_next hs act
  exact ⟨ms ++ ns, d, fun m hm => (List.mem_append.mp hm).elim (hms.fits m) (hns.fits m)⟩

theorem Fits.loop? {m : Mark} (h : w.Fits act m) (hact : act ≠ .move (.runLoop a))
    (hm : m.loop? = some a) : m = .aborted a := by
  cases m with
  | aborted b => exact congrArg Mark.aborted (Option.some.inj hm)
  | entered b _ | quit b | turned b =>
    obtain rfl : b = a := Option.some.inj hm
    exact absurd h hact
  | _ => cases hm

/-- A run loop that does not move stays inside of its envelope, or the envelope is lost. -/
theorem inside_next (hs : w.scene.Sound) (hact : act ≠ .move (.runLoop a)) {i : Inside}
    (hloop : (w.actor a).loop = .inside i) :
    ((w.next act).actor a).loop = .inside i ∨ (w.next act).scene.content i.handle = .lost := by
  obtain ⟨ms, d, hms⟩ := fits_next hs act
  have hinside : (w.scene.lane a).loop = .inside i := by rw [lane_scene]; exact hloop
  have := d.inside_or_lost hs (fun m hm heq => (hms m hm).loop? hact heq) hinside
  rwa [lane_scene] at this

/-- A task that does not move stays as it is. -/
theorem task_next (hs : w.scene.Sound) {t : TaskId} {task : Task} (ht : w.task? t = some task)
    (hact : act ≠ .move (.task t) ∧ act ≠ .move (.grace t)) :
    (w.next act).task? t = some task := by
  obtain ⟨ms, d, hms⟩ := fits_next hs act
  exact d.lookup_eq (fun hm => (hms _ hm).elim hact.1 hact.2) ht

/-- What is resolved changes only by being taken. -/
theorem settled_before (hs : w.scene.Sound) (act : Act) {h : HandleId}
    {c : Content (Except ActorError Json)} (hlt : h < w.channels.length)
    (hne : w.scene.content h ≠ .empty) (hc : c ≠ .drained)
    (hnext : (w.next act).scene.content h = c) : w.scene.content h = c := by
  obtain ⟨ms, d, _⟩ := fits_next hs act
  exact d.settled_before (by rwa [length_contents_scene]) hne hc hnext

/-- What is resolved gets no other outcome. -/
theorem full_next (hs : w.scene.Sound) (act : Act) {h : HandleId} {o : Except ActorError Json}
    (hlt : h < w.channels.length) (hne : w.scene.content h ≠ .empty)
    (hf : (w.next act).scene.content h = .full o) : w.scene.content h = .full o :=
  settled_before hs act hlt hne (by simp) hf

end World

end Troupe
