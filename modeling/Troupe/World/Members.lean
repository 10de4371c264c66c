import Troupe.World.Moves
import Troupe.World.View

/-!
# Members

How pools, actors and systems come into being, how actors get names in systems, and what can be
asked about them.

Much of this can fail on the way. A failure undoes nothing: what comes back is the error together
with the world by then, so that a call that fails half-way would leave its first half behind.

## Main definitions

* `World.Attempt`, `World.andThen`, `World.attempt`, `World.wrapError` — what may fail, and how it
  goes on
* `World.createPool`, `World.createSystem`, `World.createActor` — coming into being
* `World.register`, `World.createMember`, `World.createChild` — getting a name in a system
* `World.findActor` — asking for the actor behind a name
* `World.invokeByName` — an invocation of whatever has a name
* `World.addPool` — a pool joins a system
-/

namespace Troupe

namespace World

/-! ### Attempts -/

/-- What an attempt comes to: a result or an error, and the world by then. -/
abbrev Attempt (ε α : Type) := Except ε α × World

/-- Goes on after an attempt that has succeeded. An error comes back with the world as it is. -/
def andThen {ε α β : Type} (x : Attempt ε α) (f : α → World → Attempt ε β) : Attempt ε β :=
  match x with
  | (.ok a, w) => f a w
  | (.error e, w) => (.error e, w)

/-- Attempts what fails, if it does, before it has done anything. -/
def attempt {ε α : Type} (w : World) : Except ε (α × World) → Attempt ε α
  | .ok (a, w') => (.ok a, w')
  | .error e => (.error e, w)

/-- Passes the error of an attempt off as one of another kind. -/
def wrapError {ε ε' α : Type} (f : ε → ε') : Attempt ε α → Attempt ε' α
  | (.ok a, w) => (.ok a, w)
  | (.error e, w) => (.error (f e), w)

/-! ### Coming into being -/

/-- Creates a pool. -/
def createPool (name : String) (size : Nat) (w : World) : Attempt PoolError PoolId :=
  andThen (Pool.create name size, w) fun pool w =>
    let state : PoolState := { pool }
    (.ok w.pools.length, { w with pools := w.pools ++ [state] }.report (.poolStarted name size))

/-- Creates a system and its default pool, which has the same name. -/
def createSystem (name : String) (workers : Nat) (grace : Duration) (actorSettings : ActorSettings)
    (w : World) : Attempt ActorError SystemId :=
  andThen (wrapError .ofPool (w.createPool name workers)) fun p w =>
    let system : ActorSystem := { name, grace, actorSettings, pools := [p], defaultPool := p }
    (.ok w.systems.length, { w with systems := w.systems ++ [system] }.report (.systemCreated name))

/-- Creates an actor, if there is anything to run it. The number in the tag of its pool jobs is
never used again. -/
def createActor (name kind : String) (settings : ActorSettings) (w : World) :
    Except ActorError (ActorId × World) :=
  if w.hosted then
    let a := w.actors.length
    let number := Text.decimal a
    let owner := s!"{name}#{number}"
    let actor : Actor := { name, owner, kind, settings }
    let w := { w with actors := w.actors ++ [actor] }
    .ok (a, (w.report .runnerCreated).report (.actorCreated name owner))
  else .error (.runtime "nothing is there to run it")

/-! ### Names in systems -/

/-- Refuses everything once a system has been terminated. -/
def checkRunning (s : SystemId) (w : World) : Attempt ActorError Unit :=
  (if (w.system s).terminated then .error (.terminated (w.system s).name) else .ok (), w)

/-- Gives an actor a name in a system. Whoever had the name before is left alone. -/
def register (s : SystemId) (key : String) (a : ActorId) (invocable : Bool) (w : World) :
    Attempt ActorError Unit :=
  andThen (w.checkRunning s) fun _ w =>
    let system := w.system s
    let w := w.onActor a fun actor => { actor with registration := some { system := s, key } }
    let w := w.onSystem s fun system =>
      { system with registry := system.registry.insert key { actor := a, invocable } }
    (.ok (), w.report <|
      if (system.registry.find? key).isSome then .replaced key system.name
      else .registered key system.name)

/-- Closes an actor that has just come into being. Its run loop has nothing to do but to end. -/
def closeNew (a : ActorId) (w : World) : World :=
  match w.beginClose none none a with
  | (some wait, w) => (w.endLoop a).endWait wait
  | (none, w) => w

/-- Gives an actor that has just come into being a name in a system. If it cannot have it, it is
closed. -/
def registerOrClose (s : SystemId) (key : String) (a : ActorId) (invocable : Bool) (w : World) :
    Attempt ActorError Unit :=
  match w.register s key a invocable with
  | (.ok (), w) => (.ok (), w)
  | (.error e, w) => (.error e, w.closeNew a)

/-- Creates an actor under a name in a system. -/
def createMember (s : SystemId) (name kind : String) (invocable : Bool) (w : World) :
    Attempt ActorError ActorId :=
  andThen (w.checkRunning s) fun _ w =>
    andThen (w.attempt (w.createActor name kind (w.system s).actorSettings)) fun a w =>
      andThen (w.registerOrClose s name a invocable) fun _ w => (.ok a, w)

/-- Creates an actor in the system of another one, which becomes its parent. -/
def createChild (parent : ActorId) (name kind : String) (w : World) : Attempt ActorError ActorId :=
  match w.systemOf parent with
  | none => (.error (.detached (w.actor parent).name), w)
  | some s =>
    andThen (w.createMember s name kind false) fun a w =>
      let w := w.onActor a fun actor => { actor with parent := some (w.actor parent).name }
      (.ok a, w.onActor parent (·.adopt name))

/-! ### Asking -/

/-- The actor that has a name in a system, if it wraps the given kind of target. -/
def findActor (w : World) (s : SystemId) (key kind : String) : Option ActorId :=
  (((w.system s).registry.find? key).map (·.actor)).filter fun a => (w.actor a).kind == kind

/-! ### Invocations by name -/

/-- Invokes an action of the actor that has a name in a system, through its mailbox. What is missing
fails the reply, never the call. -/
def invokeByName (s : SystemId) (key action args : String) (h : HandleId) (w : World) : World :=
  match (w.system s).registry.find? key with
  | none => w.resolve h (.ok (Reply.ofError (.notFound key)).toJson)
  | some { actor := a, invocable } =>
    if invocable then
      let (operation, w) := w.sendOrdered a (Action.ofInvocation action args) .reply
      w.spawn (.invocation h operation a s)
    else
      w.resolve h (.ok (Reply.failure s!"Actor {key} does not accept invocations.").toJson)

/-! ### Pools of systems -/

/-- A pool joins a system. Returns its index there. -/
def addPool (s : SystemId) (p : PoolId) (w : World) : Attempt ActorError Nat :=
  andThen (w.checkRunning s) fun _ w =>
    let index := (w.system s).pools.length
    let w := w.onSystem s fun system => { system with pools := system.pools ++ [p] }
    (.ok index, w.report (.poolAdded (w.pool p).name (w.system s).name index))

end World

end Troupe
