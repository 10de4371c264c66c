import Troupe.Proofs.World.Attempts
import Troupe.Session.Basic

/-!
# What calls come to

A call names what it is about. Once its names stand for something, it is answered, and what has
become of the world by then is said by one of a few facts: a call that only looks or that is refused
leaves the world as it was, and any other one has had its effect, which is the work of one function
of the world.

The calls are opened here and nowhere else, so that what holds of all of them can be proved by going
through the facts.

## Main definitions

* `World.Dispatches` — what is sent by name, and what comes of it
* `Call.looks` — the calls that only look
* `World.Refuses` — why a call fails
* `World.Replies` — what has become of the world when a call has been answered

## Main results

* `World.dispatches_of_send` — whatever is sent is one of these
* `World.replies_of_answer` — every call that is answered is one of these
-/

namespace Troupe

theorem bind_eq_ok {ε α β : Type} {x : Except ε α} {f : α → Except ε β} {b : β} :
    (x >>= f) = .ok b ↔ ∃ a, x = .ok a ∧ f a = .ok b := by
  cases x <;> simp [bind, Except.bind]

/-- Whether a call only looks. What it finds may be kept under a name. -/
def Call.looks : Call → Bool
  | .get .. | .contains .. | .awaitTermination .. | .samePool .. | .poolAt .. | .defaultPool ..
  | .viewActor .. | .viewTarget .. | .viewPool .. | .viewSystem .. => true
  | _ => false

namespace World

variable {w w' : World} {c : Call}

/-! ### Sending -/

/-- What is sent by name, and the world when its handle has been handed out. -/
inductive Dispatches (w : World) : Send → World → Prop where
  /-- An operation goes through the mailbox. -/
  | ordered {actor : String} {body : List Action} {answer : Answer} {recipient : Recipient}
    {a : ActorId} (ha : w.actorNamed actor = .ok a) :
    Dispatches w (.operation .ordered actor body answer recipient)
      ((w.sendOrdered a body answer).2.hand recipient
        (.operation (w.sendOrdered a body answer).1))
  /-- An operation goes past the mailbox. -/
  | bypass {actor : String} {body : List Action} {answer : Answer} {recipient : Recipient}
    {a : ActorId} (ha : w.actorNamed actor = .ok a) :
    Dispatches w (.operation .bypass actor body answer recipient)
      ((w.sendBypass a body answer).2.hand recipient (.operation (w.sendBypass a body answer).1))
  /-- An operation goes to a pool. -/
  | offload {actor pool : String} {urgent : Bool} {body : List Effect} {answer : Answer}
    {recipient : Recipient} {a : ActorId} {p : PoolId} (ha : w.actorNamed actor = .ok a)
    (hp : w.poolNamed pool = .ok p) :
    Dispatches w (.offload actor pool urgent body answer recipient)
      ((w.sendOffload a p urgent body answer).2.hand recipient
        (.operation (w.sendOffload a p urgent body answer).1))
  /-- A job goes to a pool on nobody's behalf. -/
  | job {pool : String} {owner : Option String} {urgent : Bool} {body : List Effect}
    {recipient : Recipient} {p : PoolId} (hp : w.poolNamed pool = .ok p) :
    Dispatches w (.job pool owner urgent body recipient)
      ((w.sendJob p owner urgent body).2.hand recipient
        (.job p (w.sendJob p owner urgent body).1))

theorem dispatches_of_send {s : Send} (h : w.send s = .ok w') : w.Dispatches s w' := by
  cases s with
  | operation path actor body answer recipient =>
    obtain ⟨a, ha, h⟩ := bind_eq_ok.mp h
    cases path with
    | ordered =>
      cases h
      exact .ordered ha
    | bypass =>
      cases h
      exact .bypass ha
  | offload actor pool urgent body answer recipient =>
    obtain ⟨a, ha, h⟩ := bind_eq_ok.mp h
    obtain ⟨p, hp, h⟩ := bind_eq_ok.mp h
    cases h
    exact .offload ha hp
  | job pool owner urgent body recipient =>
    obtain ⟨p, hp, h⟩ := bind_eq_ok.mp h
    cases h
    exact .job hp

/-! ### Calls -/

/-- Why a call fails: what it asks for cannot be done, and has not been begun. -/
inductive Refuses (w : World) : Call → Failure → Prop where
  /-- A pool cannot be created. -/
  | createPool {pool name : String} {size : Nat} {e : PoolError}
    (h : w.createPool name size = (.error e, w)) : Refuses w (.createPool pool name size) (.pool e)
  /-- A system cannot be created. -/
  | createSystem {system name : String} {workers : Nat} {grace : Duration}
    {settings : ActorSettings} {e : ActorError}
    (h : w.createSystem name workers grace settings = (.error e, w)) :
    Refuses w (.createSystem system name workers grace settings) (.actor e)
  /-- An actor cannot be created. -/
  | createActor {actor name kind : String} {settings : ActorSettings} {e : ActorError}
    (h : w.createActor name kind settings = .error e) :
    Refuses w (.createActor actor name kind settings) (.actor e)
  /-- An actor cannot be created in a system. -/
  | createMember {system actor name kind : String} {invocable : Bool} {s : SystemId}
    {e : ActorError} (hs : w.systemNamed system = .ok s)
    (h : w.createMember s name kind invocable = (.error e, w)) :
    Refuses w (.createMember system actor name kind invocable) (.actor e)
  /-- An actor cannot be created in the system of its parent. -/
  | createChild {parent actor name kind : String} {a : ActorId} {e : ActorError}
    (ha : w.actorNamed parent = .ok a) (h : w.createChild a name kind = (.error e, w)) :
    Refuses w (.createChild parent actor name kind) (.actor e)
  /-- An actor cannot get a name. -/
  | attach {system actor : String} {name : Option String} {invocable : Bool} {s : SystemId}
    {a : ActorId} {e : ActorError} (hs : w.systemNamed system = .ok s)
    (ha : w.actorNamed actor = .ok a)
    (h : w.register s (name.getD (w.actor a).name) a invocable = (.error e, w)) :
    Refuses w (.attach system actor name invocable) (.actor e)
  /-- A pool cannot join a system. -/
  | addPool {system pool : String} {s : SystemId} {p : PoolId} {e : ActorError}
    (hs : w.systemNamed system = .ok s) (hp : w.poolNamed pool = .ok p)
    (h : w.addPool s p = (.error e, w)) : Refuses w (.addPool system pool) (.actor e)

/-- What has become of the world when a call has been answered, before anything is let go. -/
inductive Replies (w : World) : Call → Response → World → Prop where
  /-- The call is refused, and that is all. -/
  | refuses {c : Call} {f : Failure} (h : w.Refuses c f) : Replies w c (.failed f) w
  /-- The call only looks. -/
  | looks {c : Call} {r : Response} (hc : c.looks = true) (hr : ∀ f, r ≠ .failed f) :
    Replies w c r w
  /-- The actor that was asked for is kept. -/
  | get {system name kind actor : String} {s : SystemId} {a : ActorId}
    (hs : w.systemNamed system = .ok s) (h : w.findActor s name kind = some a) :
    Replies w (.get system name kind (some actor)) (.name (some (w.actor a).owner))
      (w.bindActor actor a)
  /-- The pool that was asked for is kept. -/
  | poolAt {system pool : String} {index : Nat} {s : SystemId} {p : PoolId}
    (hs : w.systemNamed system = .ok s) (h : (w.system s).pools[index]? = some p) :
    Replies w (.poolAt system index (some pool)) (.name (some (w.pool p).name))
      (w.bindPool pool p)
  /-- The default pool that was asked for is kept. -/
  | defaultPool {system pool : String} {s : SystemId} (hs : w.systemNamed system = .ok s) :
    Replies w (.defaultPool system (some pool))
      (.name (some (w.pool (w.system s).defaultPool).name))
      (w.bindPool pool (w.system s).defaultPool)
  /-- Something is sent. -/
  | send {s : Send} {w' : World} (h : w.send s = .ok w') : Replies w (.send s) .nothing w'
  /-- A pool is created. -/
  | createPool {pool name : String} {size : Nat} {p : PoolId} {w' : World}
    (h : w.createPool name size = (.ok p, w')) :
    Replies w (.createPool pool name size) .done (w'.bindPool pool p)
  /-- A system is created. -/
  | createSystem {system name : String} {workers : Nat} {grace : Duration}
    {settings : ActorSettings} {s : SystemId} {w' : World}
    (h : w.createSystem name workers grace settings = (.ok s, w')) :
    Replies w (.createSystem system name workers grace settings) .done (w'.bindSystem system s)
  /-- An actor is created. -/
  | createActor {actor name kind : String} {settings : ActorSettings} {a : ActorId} {w' : World}
    (h : w.createActor name kind settings = .ok (a, w')) :
    Replies w (.createActor actor name kind settings) .done (w'.bindMade actor a)
  /-- An actor is created in a system. -/
  | createMember {system actor name kind : String} {invocable : Bool} {s : SystemId}
    {a : ActorId} {w' : World} (hs : w.systemNamed system = .ok s)
    (h : w.createMember s name kind invocable = (.ok a, w')) :
    Replies w (.createMember system actor name kind invocable) .done (w'.bindMade actor a)
  /-- An actor is created in the system of its parent. -/
  | createChild {parent actor name kind : String} {a b : ActorId} {w' : World}
    (ha : w.actorNamed parent = .ok a) (h : w.createChild a name kind = (.ok b, w')) :
    Replies w (.createChild parent actor name kind) .done (w'.bindMade actor b)
  /-- An actor gets a name. -/
  | attach {system actor : String} {name : Option String} {invocable : Bool} {s : SystemId}
    {a : ActorId} {w' : World} (hs : w.systemNamed system = .ok s)
    (ha : w.actorNamed actor = .ok a)
    (h : w.register s (name.getD (w.actor a).name) a invocable = (.ok (), w')) :
    Replies w (.attach system actor name invocable) .done w'
  /-- An action is invoked by name. -/
  | invoke {system handle name action args : String} {s : SystemId}
    (hs : w.systemNamed system = .ok s) :
    Replies w (.invoke system handle name action args) .nothing
      (w.inBackground handle fun h => invokeByName s name action args h).2
  /-- A removal begins. -/
  | remove {system handle name : String} {s : SystemId} (hs : w.systemNamed system = .ok s) :
    Replies w (.remove system handle name) .nothing (w.inBackground handle fun h =>
      spawn (.errand h { rest := [.remove system name], answer := .value })).2
  /-- A close begins. -/
  | close {actor handle : String} {a : ActorId} (ha : w.actorNamed actor = .ok a) :
    Replies w (.close actor handle) .nothing (w.inBackground handle fun h =>
      spawn (.errand h { rest := [.close actor], answer := .unit })).2
  /-- A termination begins. -/
  | terminate {system handle : String} {s : SystemId} (hs : w.systemNamed system = .ok s) :
    Replies w (.terminate system handle) .nothing
      (w.inBackground handle fun h => spawn (.termination h s .starting)).2
  /-- A client lets go of an actor. -/
  | dropActor {actor : String} : Replies w (.dropActor actor)
    (.flag (w.names.actors.any (·.1 == actor)))
    { w with names.actors := w.names.actors.filter (·.1 != actor) }
  /-- A client lets go of a system. -/
  | dropSystem {system : String} : Replies w (.dropSystem system)
    (.flag (w.names.systems.any (·.1 == system)))
    { w with names.systems := w.names.systems.filter (·.1 != system) }
  /-- The jobs of an owner are withdrawn from a pool. -/
  | cancel {pool owner : String} {p : PoolId} (hp : w.poolNamed pool = .ok p) :
    Replies w (.cancel pool owner) (.count (w.cancelJobs owner p).1) (w.cancelJobs owner p).2
  /-- The jobs of an actor are withdrawn from a pool. -/
  | cancelActor {pool actor : String} {p : PoolId} {a : ActorId} (hp : w.poolNamed pool = .ok p)
    (ha : w.actorNamed actor = .ok a) :
    Replies w (.cancelActor pool actor) (.count (w.cancelJobs (w.actor a).owner p).1)
      (w.cancelJobs (w.actor a).owner p).2
  /-- What waits for an actor is dropped. -/
  | clear {actor : String} {a : ActorId} (ha : w.actorNamed actor = .ok a) :
    Replies w (.clear actor) (.count (w.clear a).1) (w.clear a).2
  /-- A pool is shut down. -/
  | shutdown {pool : String} {p : PoolId} (hp : w.poolNamed pool = .ok p) :
    Replies w (.shutdown pool) .nothing (w.stopPool p)
  /-- A pool is shut down, and what waits there is dropped. -/
  | shutdownNow {pool : String} {p : PoolId} (hp : w.poolNamed pool = .ok p) :
    Replies w (.shutdownNow pool) (.count (w.emptyPool p).1) (w.emptyPool p).2
  /-- A pool joins a system. -/
  | addPool {system pool : String} {s : SystemId} {p : PoolId} {index : Nat} {w' : World}
    (hs : w.systemNamed system = .ok s) (hp : w.poolNamed pool = .ok p)
    (h : w.addPool s p = (.ok index, w')) : Replies w (.addPool system pool) (.count index) w'
  /-- A gate is opened. -/
  | openGate {gate : String} :
    Replies w (.openGate gate) .nothing { w with gates := gate :: w.gates }
  /-- The clock is moved. -/
  | advance {millis : Nat} :
    Replies w (.advance millis) .nothing { w with clock := w.clock + millis }
  /-- There is a handle that has failed. -/
  | fail {recipient : Recipient} {e : ActorError} : Replies w (.fail recipient e) .nothing
    ((w.newHandle (.settled (.error e))).2.hand recipient (.operation w.channels.length))
  /-- The outcome is taken out of a handle, if it is there. -/
  | take {handle : String} {r : HandleRef} (hr : w.handleNamed handle = .ok r) :
    Replies w (.take handle) ((w.look r).elim .pending .outcome) (w.drain r)
  /-- A handle is used up. -/
  | wait {handle : String} {r : HandleRef} (hr : w.handleNamed handle = .ok r) :
    Replies w (.wait handle) ((w.look r).elim .pending .outcome)
      { w with names.held := w.names.held.filter (·.1 != handle) }
  /-- A handle is awaited from now on. -/
  | await {handle : String} {r : HandleRef} (hr : w.handleNamed handle = .ok r) :
    Replies w (.await handle) .nothing (hand (.watched handle) r
      { w with names.held := w.names.held.filter (·.1 != handle) })

/-- An attempt fails, or what has come of it is kept. -/
theorem created_cases {ε α : Type} {failure : ε → Failure} {keep : α → World → World}
    {x : Attempt ε α} {r : Response} (h : created failure keep x = (r, w')) :
    (∃ e, x = (.error e, w') ∧ r = .failed (failure e)) ∨
      ∃ a w₁, x = (.ok a, w₁) ∧ r = .done ∧ w' = keep a w₁ := by
  obtain ⟨_ | a, w₁⟩ := x
  · cases h
    exact .inl ⟨_, rfl, rfl⟩
  · cases h
    exact .inr ⟨a, w₁, rfl, rfl, rfl⟩

/-- **Every call that is answered** is refused, only looks, or has its effect. -/
theorem replies_of_answer {r : Response} (h : w.answer c = .ok (r, w')) : w.Replies c r w' := by
  cases c with
  | send s =>
    obtain ⟨w₁, hsend, h⟩ := bind_eq_ok.mp h
    cases h
    exact .send hsend
  | createPool pool name size =>
    rcases created_cases (Except.ok.inj h) with ⟨e, he, rfl⟩ | ⟨x, w₁, hx, rfl, rfl⟩
    · obtain ⟨-, -, rfl⟩ := createPool_eq_error he
      exact .refuses (.createPool he)
    · exact .createPool hx
  | createSystem system name workers grace settings =>
    rcases created_cases (Except.ok.inj h) with ⟨e, he, rfl⟩ | ⟨x, w₁, hx, rfl, rfl⟩
    · obtain ⟨-, -, rfl⟩ := createSystem_eq_error he
      exact .refuses (.createSystem he)
    · exact .createSystem hx
  | createActor actor name kind settings =>
    rcases created_cases (Except.ok.inj h) with ⟨e, he, rfl⟩ | ⟨x, w₁, hx, rfl, rfl⟩
    · obtain ⟨herror, rfl⟩ := attempt_eq_error.mp he
      exact .refuses (.createActor herror)
    · exact .createActor (attempt_eq_ok.mp hx)
  | createMember system actor name kind invocable =>
    obtain ⟨s, hs, h⟩ := bind_eq_ok.mp h
    rcases created_cases (Except.ok.inj h) with ⟨e, he, rfl⟩ | ⟨x, w₁, hx, rfl, rfl⟩
    · obtain ⟨-, rfl⟩ := createMember_eq_error he
      exact .refuses (.createMember hs he)
    · exact .createMember hs hx
  | createChild parent actor name kind =>
    obtain ⟨a, ha, h⟩ := bind_eq_ok.mp h
    rcases created_cases (Except.ok.inj h) with ⟨e, he, rfl⟩ | ⟨x, w₁, hx, rfl, rfl⟩
    · obtain rfl := same_of_createChild_error he
      exact .refuses (.createChild ha he)
    · exact .createChild ha hx
  | attach system actor name invocable =>
    obtain ⟨s, hs, h⟩ := bind_eq_ok.mp h
    obtain ⟨a, ha, h⟩ := bind_eq_ok.mp h
    rcases created_cases (Except.ok.inj h) with ⟨e, he, rfl⟩ | ⟨_, w₁, hx, rfl, rfl⟩
    · obtain ⟨-, -, rfl⟩ := register_eq_error he
      exact .refuses (.attach hs ha he)
    · exact .attach hs ha hx
  | get system name kind actor =>
    obtain ⟨s, hs, h⟩ := bind_eq_ok.mp h
    cases hfind : w.findActor s name kind with
    | none =>
      simp only [hfind] at h
      cases h
      exact .looks rfl (by simp)
    | some a =>
      simp only [hfind] at h
      cases h
      cases actor with
      | none => exact .looks rfl (by simp)
      | some actor => exact .get hs hfind
  | invoke system handle name action args =>
    obtain ⟨s, hs, h⟩ := bind_eq_ok.mp h
    cases h
    exact .invoke hs
  | remove system handle name =>
    obtain ⟨s, hs, h⟩ := bind_eq_ok.mp h
    cases h
    exact .remove hs
  | close actor handle =>
    obtain ⟨a, ha, h⟩ := bind_eq_ok.mp h
    cases h
    exact .close ha
  | terminate system handle =>
    obtain ⟨s, hs, h⟩ := bind_eq_ok.mp h
    cases h
    exact .terminate hs
  | dropActor actor =>
    cases h
    exact .dropActor
  | dropSystem system =>
    cases h
    exact .dropSystem
  | cancel pool owner =>
    obtain ⟨p, hp, h⟩ := bind_eq_ok.mp h
    cases h
    exact .cancel hp
  | cancelActor pool actor =>
    obtain ⟨p, hp, h⟩ := bind_eq_ok.mp h
    obtain ⟨a, ha, h⟩ := bind_eq_ok.mp h
    cases h
    exact .cancelActor hp ha
  | clear actor =>
    obtain ⟨a, ha, h⟩ := bind_eq_ok.mp h
    cases h
    exact .clear ha
  | shutdown pool =>
    obtain ⟨p, hp, h⟩ := bind_eq_ok.mp h
    cases h
    exact .shutdown hp
  | shutdownNow pool =>
    obtain ⟨p, hp, h⟩ := bind_eq_ok.mp h
    cases h
    exact .shutdownNow hp
  | addPool system pool =>
    obtain ⟨s, hs, h⟩ := bind_eq_ok.mp h
    obtain ⟨p, hp, h⟩ := bind_eq_ok.mp h
    split at h
    · rename_i hadd
      cases h
      exact .addPool hs hp hadd
    · rename_i hadd
      cases h
      obtain ⟨-, -, rfl⟩ := addPool_eq_error hadd
      exact .refuses (.addPool hs hp hadd)
  | poolAt system index pool =>
    obtain ⟨s, hs, h⟩ := bind_eq_ok.mp h
    cases hfind : (w.system s).pools[index]? with
    | none =>
      simp only [hfind] at h
      cases h
      exact .looks rfl (by simp)
    | some p =>
      simp only [hfind] at h
      cases h
      cases pool with
      | none => exact .looks rfl (by simp)
      | some pool => exact .poolAt hs hfind
  | defaultPool system pool =>
    obtain ⟨s, hs, h⟩ := bind_eq_ok.mp h
    cases h
    cases pool with
    | none => exact .looks rfl (by simp)
    | some pool => exact .defaultPool hs
  | openGate gate =>
    cases h
    exact .openGate
  | advance millis =>
    cases h
    exact .advance
  | fail recipient e =>
    cases h
    exact .fail
  | take handle =>
    obtain ⟨r, hr, h⟩ := bind_eq_ok.mp h
    cases h
    exact .take hr
  | wait handle =>
    obtain ⟨r, hr, h⟩ := bind_eq_ok.mp h
    cases h
    exact .wait hr
  | await handle =>
    obtain ⟨r, hr, h⟩ := bind_eq_ok.mp h
    cases h
    exact .await hr
  | contains _ _ | awaitTermination _ | viewActor _ | viewTarget _ | viewSystem _ =>
    obtain ⟨_, _, h⟩ := bind_eq_ok.mp h
    cases h
    exact .looks rfl (by simp)
  | samePool _ _ | viewPool _ _ _ =>
    obtain ⟨_, _, h⟩ := bind_eq_ok.mp h
    obtain ⟨_, _, h⟩ := bind_eq_ok.mp h
    cases h
    exact .looks rfl (by simp)

end World

end Troupe
