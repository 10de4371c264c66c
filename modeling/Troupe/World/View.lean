import Troupe.World.Basic
import Troupe.Text.Quoted

/-!
# Views

What can be seen of actors, pools and systems at one moment.

## Main definitions

* `ActorView`, `PoolView`, `SystemView` — what can be seen
* `World.viewActor`, `World.viewPool`, `World.viewSystem` — seeing it
-/

namespace Troupe

open Text

/-- What can be seen of an actor. -/
structure ActorView where
  /-- Its name. -/
  name : String
  /-- The tag of its pool jobs. -/
  owner : String
  /-- Whether it is alive. -/
  alive : Bool
  /-- The number of envelopes that wait. -/
  pending : Nat
  /-- The name of its parent. -/
  parent : Option String
  /-- The names of its children. -/
  children : List String
  /-- The name of its system. -/
  system : Option String
  /-- A short description. -/
  description : String
  deriving Repr, DecidableEq

/-- What can be seen of a pool. -/
structure PoolView where
  /-- Its name. -/
  name : String
  /-- The number of workers that it was created with. -/
  size : Nat
  /-- The number of jobs that wait. -/
  queued : Nat
  /-- Whether it has been shut down. -/
  stopped : Bool
  /-- Whether all workers have left. -/
  terminated : Bool
  /-- The lines of its own jobs. -/
  lines : Lines
  /-- A short description. -/
  description : String
  /-- For some owners, how many of their jobs wait, and how many are on record. -/
  owners : List (String × Nat × Nat)
  deriving Repr, DecidableEq

/-- What can be seen of a system. -/
structure SystemView where
  /-- Its name. -/
  name : String
  /-- How long it gives a pool to drain. -/
  grace : Duration
  /-- The settings of the actors that it creates. -/
  actorSettings : ActorSettings
  /-- The names in use, each with whether it leads to a live actor. -/
  names : List (String × Bool)
  /-- The names of its pools. -/
  pools : List String
  /-- Whether it has been terminated. -/
  terminated : Bool
  deriving Repr, DecidableEq

namespace World

/-- The system that an actor is registered in, if somebody still holds it. -/
def systemOf (w : World) (a : ActorId) : Option SystemId :=
  ((w.actor a).registration.map (·.system)).filter fun s => (w.system s).held

/-- Whether the actor that has a name in a system is alive. -/
def knowsActor (w : World) (s : SystemId) (key : String) : Bool :=
  ((w.system s).registry.find? key).any fun entry => (w.actor entry.actor).isAlive

/-- A name and a further part in the form of a description. -/
def described (what name part value : String) : String :=
  let shownName := quoted name
  s!"{what} \x7b name: {shownName}, {part}: {value} \x7d"

/-- What can be seen of an actor. -/
def viewActor (w : World) (a : ActorId) : ActorView :=
  let actor := w.actor a
  { name := actor.name
    owner := actor.owner
    alive := actor.isAlive
    pending := actor.pendingCount
    parent := actor.parent
    children := actor.children
    system := (w.systemOf a).map fun s => (w.system s).name
    description :=
      described "ActorRef" actor.name "closed" (if actor.closed then "true" else "false") }

/-- What can be seen of a pool, also about some owners, each with the name to show it under. -/
def viewPool (w : World) (p : PoolId) (owners : List (String × String)) : PoolView :=
  let pool := w.pool p
  { name := pool.name
    size := pool.size
    queued := pool.queuedCount
    stopped := pool.stopped
    terminated := pool.isTerminated
    lines := w.lines (.pool p)
    description := described "WorkerPool" pool.name "workers" (decimal pool.size)
    owners := owners.map fun (shown, owner) =>
      (shown, pool.pendingCount owner, pool.outstandingCount owner) }

/-- What can be seen of a system. -/
def viewSystem (w : World) (s : SystemId) : SystemView :=
  let system := w.system s
  { name := system.name
    grace := system.grace
    actorSettings := system.actorSettings
    names := system.registry.names.map fun name => (name, w.knowsActor s name)
    pools := system.pools.map fun p => (w.pool p).name
    terminated := system.terminated }

end World

end Troupe
