import Troupe.Proofs.World.Book
import Troupe.Proofs.World.Steps

/-!
# What stays as it is

Names and systems are the business of clients. What is laid down about a system, its name, its pools
and its default pool, is laid down when the system is founded, and only a client adds to it. Clients
also bind names and let go of them, and what moves by itself does none of this: it touches what
clients hold only where it sends something and hands out the handle.

So every move is steady, up to one thing that it may send.

## Main definitions

* `Charter`, `World.charters` — what is laid down about a system, and about all of them
* `World.Steady` — names and charters stay as they are
* `World.SteadyAfter` — they do so after something may have been sent

## Main results

* `World.steady_step` — every move is steady, up to what it sends
-/

namespace Troupe

/-- What is laid down about a system. -/
structure Charter where
  /-- Its name. -/
  name : String
  /-- The pools by index. -/
  pools : List PoolId
  /-- The pool that it was created with. -/
  defaultPool : PoolId

/-- What is laid down about a system. -/
def ActorSystem.charter (s : ActorSystem) : Charter :=
  { name := s.name, pools := s.pools, defaultPool := s.defaultPool }

namespace World

variable {w w' w₁ : World} {a : ActorId} {s : SystemId}

/-- The charters of all systems. -/
def charters (w : World) : List Charter := w.systems.map ActorSystem.charter

theorem charters_congr (h : w'.systems = w.systems) : w'.charters = w.charters := by
  rw [charters, h, charters]

/-! ### Steadiness -/

/-- Clients hold what they held, and nothing else is laid down about systems. -/
structure Steady (w w' : World) : Prop where
  /-- All names are as they were. -/
  names : w'.names = w.names
  /-- All charters are as they were. -/
  charters : w'.charters = w.charters

theorem Steady.refl (w : World) : w.Steady w := ⟨rfl, rfl⟩

theorem Steady.trans (h : w.Steady w₁) (h' : w₁.Steady w') : w.Steady w' :=
  ⟨h'.names.trans h.names, h'.charters.trans h.charters⟩

theorem Discreet.steady (h : w.Discreet w') : w.Steady w' := ⟨h.names, charters_congr h.systems⟩

theorem steady_onActor (a : ActorId) (f : Actor → Actor) (w : World) : w.Steady (w.onActor a f) :=
  ⟨rfl, rfl⟩

/-- What happens to a system does not concern its charter. -/
theorem steady_onSystem {f : ActorSystem → ActorSystem} (hf : ∀ x, (f x).charter = x.charter) :
    w.Steady (w.onSystem s f) :=
  ⟨rfl, map_modify_congr (hf _) (x := default)⟩

/-! ### Closes -/

theorem steady_detach (a : ActorId) (w : World) : w.Steady (w.detach a) := by
  rw [detach]
  split
  · exact .refl w
  · simp only
    split
    · refine Steady.trans ?_ (discreet_report ..).steady
      exact (steady_onActor ..).trans (steady_onSystem fun _ => rfl)
    · exact steady_onActor ..

theorem steady_finishClose (a : ActorId) (w : World) : w.Steady (w.finishClose a) :=
  (steady_onActor a _ w).trans <| (steady_detach ..).trans (discreet_report ..).steady

theorem steady_shutActor (a : ActorId) (w : World) : w.Steady (w.shutActor a) := by
  have hshut : w.Steady ((w.report (.closing (w.actor a).name)).onActor a fun actor =>
      { actor with closed := true, stopping := true, mailbox := (w.actor a).mailbox.close.2 }) :=
    (discreet_report ..).steady.trans (steady_onActor ..)
  refine hshut.trans (Steady.trans ?_ ((discreet_dropEnvelopes ..).trans
    (discreet_withdrawJobs ..)).steady)
  split
  · exact .refl _
  · exact (discreet_report ..).steady

theorem steady_beginClose (runLoop : Option ActorId) (system : Option SystemId) (a : ActorId)
    (w : World) : w.Steady (w.beginClose runLoop system a).2 := by
  rw [beginClose]
  split
  · exact (discreet_report ..).steady
  · split
    · exact (steady_shutActor a w).trans (steady_finishClose ..)
    · exact (steady_shutActor a w).trans ⟨rfl, rfl⟩

theorem steady_beginCloses (actors : List ActorId) (w : World) :
    w.Steady (w.beginCloses actors).2 := by
  induction actors generalizing w with
  | nil => exact .refl w
  | cons a actors ih => exact (steady_beginClose none none a w).trans (ih _)

theorem steady_endWait (wait : Wait) (w : World) : w.Steady (w.endWait wait) := by
  refine Steady.trans ?_ (steady_finishClose ..)
  split
  · exact .refl w
  · exact (discreet_abortLoop ..).steady

theorem steady_beginTermination (s : SystemId) (w : World) :
    w.Steady (w.beginTermination s).2 := by
  have hwiped : w.Steady ((w.report (.terminating (w.system s).name)).onSystem s fun system =>
      { system with terminated := true, registry := {} }) :=
    (discreet_report ..).steady.trans (steady_onSystem fun _ => rfl)
  exact hwiped.trans <| (discreet_report ..).steady.trans (steady_beginCloses ..)

/-! ### Letting go and coming in -/

theorem steady_release (w : World) : w.Steady w.release := by
  refine ⟨rfl, ?_⟩
  show (w.systems.mapIdx _).map _ = _
  refine List.ext_getElem? fun k => ?_
  rw [List.getElem?_map, List.getElem?_mapIdx, charters, List.getElem?_map]
  cases w.systems[k]? with
  | none => rfl
  | some system =>
    simp only [Option.map_some]
    split <;> rfl

theorem steady_createActor {name kind : String} {settings : ActorSettings}
    (h : w.createActor name kind settings = .ok (a, w')) : w.Steady w' := by
  obtain ⟨-, -, _, -, rfl⟩ := createActor_eq_ok h
  exact ⟨rfl, rfl⟩

theorem steady_register {key : String} {invocable : Bool}
    (h : w.register s key a invocable = (.ok (), w')) : w.Steady w' := by
  obtain ⟨-, _, rfl⟩ := register_eq_ok h
  refine Steady.trans ?_ (discreet_report ..).steady
  exact (steady_onActor ..).trans (steady_onSystem fun _ => rfl)

theorem steady_createMember {name kind : String} {invocable : Bool}
    (h : w.createMember s name kind invocable = (.ok a, w')) : w.Steady w' := by
  obtain ⟨w₁, hcreate, hregister⟩ := createMember_eq_ok h
  exact (steady_createActor hcreate).trans (steady_register hregister)

theorem steady_createChild {parent : ActorId} {name kind : String}
    (h : w.createChild parent name kind = (.ok a, w')) : w.Steady w' := by
  obtain ⟨s, w₁, _, hmember, rfl⟩ := createChild_eq_ok h
  exact (steady_createMember hmember).trans <| (steady_onActor ..).trans (steady_onActor ..)

/-! ### Moves -/

/-- What happens is steady, up to something that is sent first if the given action sends it. -/
inductive SteadyAfter (w : World) (action : Option Action) (w' : World) : Prop where
  /-- Nothing is sent. -/
  | nothing (h : w.Steady w')
  /-- Something is sent. -/
  | sends {s : Send} {w₁ : World} (ha : action = some (.send s)) (hs : w.send s = .ok w₁)
    (h : w₁.Steady w')

variable {action? : Option Action}

theorem SteadyAfter.trans (h : w.SteadyAfter action? w₁) (h' : w₁.Steady w') :
    w.SteadyAfter action? w' := by
  cases h with
  | nothing h => exact .nothing (h.trans h')
  | sends ha hs h => exact .sends ha hs (h.trans h')

/-- What is sent is not laid down anywhere. -/
theorem SteadyAfter.charters (h : w.SteadyAfter action? w') : w'.charters = w.charters := by
  cases h with
  | nothing h => exact h.charters
  | sends _ hs h => exact h.charters.trans (charters_congr (systems_send hs))

theorem steady_perform {r : Runner} {action : Action} {rest : Course} {progress : Progress}
    (h : w.Performs r rest action progress w') : w.SteadyAfter (some action) w' := by
  cases h with
  | misses _ | ends _ | pending _ | alive _ => exact .nothing (.refl w)
  | effect _ => exact .nothing (discreet_write ..).steady
  | close _ => exact .nothing (steady_beginClose ..)
  | clear _ => exact .nothing (discreet_clear ..).steady
  | remove _ hx =>
    subst hx
    refine .nothing ?_
    rw [beginRemove]
    split
    · exact .refl w
    · refine Steady.trans ?_ (steady_beginClose ..)
      refine Steady.trans ?_ (discreet_report ..).steady
      exact steady_onSystem fun _ => rfl
  | send hsend => exact .sends rfl hsend (.refl w')

theorem steady_stepCourse {r : Runner} {c : Course} {progress : Progress}
    (h : w.stepCourse r c = some (progress, w')) : w.SteadyAfter c.action? w' := by
  cases advances_of_stepCourse h with
  | waited _ _ => exact .nothing (steady_endWait ..)
  | returns _ _ => exact .nothing (.refl w)
  | performs hw hrest hp =>
    rw [Course.action?_of_cons hw hrest]
    exact steady_perform hp

theorem steady_stepLoop (h : w.stepLoop a = some w') :
    w.SteadyAfter (w.action? (.runLoop a)) w' := by
  have haction : w.action? (.runLoop a) = (w.actor a).loop.course?.bind Course.action? := rfl
  cases steps_of_stepLoop h with
  | starts _ => exact .nothing ((discreet_report ..).trans (discreet_setLoop ..)).steady
  | quits _ _ => exact .nothing (discreet_endLoop a w).steady
  | enters _ _ henter => exact .nothing (discreet_enterNext henter).steady
  | goesOn hl hc =>
    rw [haction, hl]
    exact (steady_stepCourse hc).trans (discreet_setLoop ..).steady
  | ends hl hc =>
    rw [haction, hl]
    exact (steady_stepCourse hc).trans
      ((discreet_finishOperation ..).trans (discreet_setLoop ..)).steady
  | relays _ hr =>
    cases hr with
    | passesOn _ => exact .nothing ((discreet_resolve ..).trans (discreet_setLoop ..)).steady
    | givesUp _ _ =>
      exact .nothing ((discreet_resolve ..).trans <| (discreet_deafen ..).trans <|
        discreet_setLoop ..).steady

theorem steady_stepTermination {t : TaskId} {h : HandleId} {stage : Stage}
    (hstep : w.TerminationSteps t h s stage w') : w.Steady w' := by
  cases hstep with
  | tooLate _ | ends =>
    exact ((discreet_report ..).trans <| (discreet_resolve ..).trans (discreet_endTask ..)).steady
  | begins _ => exact (steady_beginTermination s w).trans (discreet_setTask ..).steady
  | stopsPools => exact ((discreet_stopPools ..).trans (discreet_setTask ..)).steady
  | completes _ => exact (steady_endWait ..).trans (discreet_setTask ..).steady
  | drains _ => exact (discreet_setTask ..).steady

theorem steady_stepTask {t : TaskId} (h : w.stepTask t = some w') :
    w.SteadyAfter (w.action? (.task t)) w' := by
  have haction : ∀ {task}, w.task? t = some task →
      w.action? (.task t) = task.course?.bind Course.action? := by
    intro task ht
    rw [action?, ht, Option.bind_some]
  cases steps_of_stepTask h with
  | bypassGoesOn ht hc | errandGoesOn ht hc =>
    rw [haction ht]
    exact (steady_stepCourse hc).trans (discreet_setTask ..).steady
  | bypassEnds ht hc =>
    rw [haction ht]
    exact (steady_stepCourse hc).trans
      ((discreet_finishOperation ..).trans (discreet_endTask ..)).steady
  | errandEnds ht hc =>
    rw [haction ht]
    exact (steady_stepCourse hc).trans ((discreet_resolve ..).trans (discreet_endTask ..)).steady
  | replies _ _ => exact .nothing ((discreet_resolve ..).trans (discreet_endTask ..)).steady
  | terminates _ hw => exact .nothing (steady_stepTermination hw)

theorem steady_expireGrace {t : TaskId} (h : w.expireGrace t = some w') : w.Steady w' := by
  rw [expireGrace] at h
  split at h
  · split at h
    · cases h
    · cases h
      exact ((discreet_emptyPool ..).trans <| (discreet_report ..).trans
        (discreet_setTask ..)).steady
  · cases h

/-- **Every move is steady**, up to what it sends. -/
theorem steady_step {m : Mover} (h : w.step m = some w') : w.SteadyAfter (w.action? m) w' := by
  cases m with
  | runLoop b =>
    obtain ⟨w₁, hstep, rfl⟩ := Option.map_eq_some_iff.mp h
    exact (steady_stepLoop hstep).trans (steady_release w₁)
  | task t =>
    obtain ⟨w₁, hstep, rfl⟩ := Option.map_eq_some_iff.mp h
    exact (steady_stepTask hstep).trans (steady_release w₁)
  | worker p place =>
    obtain ⟨w₁, hstep, rfl⟩ := Option.map_eq_some_iff.mp h
    exact .nothing ((discreet_stepWorker hstep).steady.trans (steady_release w₁))
  | grace t =>
    obtain ⟨w₁, hstep, rfl⟩ := Option.map_eq_some_iff.mp h
    exact .nothing ((steady_expireGrace hstep).trans (steady_release w₁))

end World

end Troupe
