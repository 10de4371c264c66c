import Troupe.ActorSystem
import Troupe.Notice
import Troupe.Pool.Basic

/-!
# The world of actors, pools and systems

Everything that actors, pools and systems share is one value: their states, the tasks in progress,
the channels of all handles, the open gates, and a clock. What happens is a function on that value;
nothing is hidden, so what can happen next can be read off a world.

Clients hold actors, systems and pools through names. An actor is held by a name, by a registry
that is itself held, or by a task in progress. What nobody holds any more is let go: a system
forgets its actors, and an actor's run loop is told to stop.

## Main definitions

* `Page` — the lines that bodies work on
* `Work`, `PoolState` — the jobs of pools, and a pool with the lines of its own jobs
* `Stage`, `Task` — what is in progress beside the run loops
* `HandleRef`, `Directory` — what clients hold by name
* `World` — the state
* `World.resolve`, `World.lose`, `World.newHandle` — the handles of operations
* `World.holdsActor`, `World.holdsSystem`, `World.release` — letting go
-/

namespace Troupe

/-- Whose lines a body works on. -/
inductive Page where
  /-- The main lines of an actor. -/
  | main (actor : ActorId)
  /-- The side lines of an actor. -/
  | side (actor : ActorId)
  /-- The lines of a pool. -/
  | pool (pool : PoolId)
  /-- No lines at all. -/
  | blank
  deriving Repr, DecidableEq, Inhabited

/-- What a job does: the effects that are left, the value so far, what becomes of it, and the lines
that it works on. -/
structure Work where
  /-- The effects that are left. -/
  rest : List Effect
  /-- The value so far. -/
  value : Json := .null
  /-- What becomes of the value. -/
  answer : Answer
  /-- The lines that it works on. -/
  page : Page
  deriving Inhabited

/-- A pool, and the lines that the jobs without an actor work on. -/
structure PoolState where
  /-- The pool. -/
  pool : Pool Work Json
  /-- The lines of its own jobs. -/
  lines : Lines := []

instance : Inhabited PoolState := ⟨{ pool := { name := "", size := 0, crew := [], live := 0 } }⟩

/-- How far a termination has got. -/
inductive Stage where
  /-- Not begun. -/
  | starting
  /-- The actors are being closed. -/
  | closing (waits : List Wait)
  /-- The pools are being drained. -/
  | draining (pools : List PoolId)
  deriving Inhabited

/-- What is in progress beside the run loops. -/
inductive Task where
  /-- An operation that went past the mailbox of its actor. -/
  | bypass (actor : ActorId) (handle : HandleId) (course : Course)
  /-- A call of a client that takes its time. -/
  | errand (handle : HandleId) (course : Course)
  /-- An invocation by name, which awaits the handle of an operation. -/
  | invocation (handle operation : HandleId) (actor : ActorId) (system : SystemId)
  /-- The termination of a system. -/
  | termination (handle : HandleId) (system : SystemId) (stage : Stage)

namespace Task

/-- The waits of a task. -/
def waits : Task → List Wait
  | .bypass _ _ course | .errand _ course => course.wait.toList
  | .termination _ _ (.closing waits) => waits
  | _ => []

/-- Whether a task keeps an actor that may still be open. -/
def holdsActor (a : ActorId) : Task → Bool
  | .invocation _ _ actor _ => actor == a
  | _ => false

/-- Whether a task keeps a system. -/
def holdsSystem (s : SystemId) : Task → Bool
  | .invocation _ _ _ system | .termination _ system _ => system == s
  | t => t.waits.any (·.system == some s)

end Task

/-- The number of a task. -/
abbrev TaskId := Nat

/-- The handle of an operation or of a job. -/
inductive HandleRef where
  /-- Of an operation. -/
  | operation (handle : HandleId)
  /-- Of a job. -/
  | job (pool : PoolId) (job : JobId)
  deriving Repr, DecidableEq, Inhabited

/-- What clients hold by name. -/
structure Directory where
  /-- The actors. -/
  actors : List (String × ActorId) := []
  /-- The systems. -/
  systems : List (String × SystemId) := []
  /-- The pools. -/
  pools : List (String × PoolId) := []
  /-- The actors that were made under a name, held or not. -/
  made : List (String × ActorId) := []
  /-- The handles that somebody awaits. -/
  watched : List (String × HandleRef) := []
  /-- The handles that are kept for later. -/
  held : List (String × HandleRef) := []
  deriving Inhabited

/-- A list of names with one more; what the name stood for before is gone. -/
def rebind {α : Type} (name : String) (a : α) (names : List (String × α)) : List (String × α) :=
  names.filter (·.1 != name) ++ [(name, a)]

/-- The state of everything. -/
structure World where
  /-- Whether anything is there to run actors. -/
  hosted : Bool := true
  /-- The time, in milliseconds. -/
  clock : Nat := 0
  /-- The number of the next wait. -/
  waitCount : Nat := 0
  /-- The gates that are open. -/
  gates : List String := []
  /-- The pools. -/
  pools : List PoolState := []
  /-- The actors. -/
  actors : List Actor := []
  /-- The systems. -/
  systems : List ActorSystem := []
  /-- The tasks in progress, by number, in the order of their creation. -/
  tasks : List (TaskId × Task) := []
  /-- The number of the next task. -/
  taskCount : Nat := 0
  /-- The channels of all operations. -/
  channels : List (Channel (Except ActorError Json)) := []
  /-- What clients hold. -/
  names : Directory := {}
  /-- What has been reported, the latest first. -/
  notices : List Notice := []
  deriving Inhabited

namespace World

/-! ### Parts -/

/-- Reports something. -/
def report (n : Notice) (w : World) : World := { w with notices := n :: w.notices }

/-- Changes an actor. -/
def onActor (a : ActorId) (f : Actor → Actor) (w : World) : World :=
  { w with actors := w.actors.modify a f }

/-- Changes a system. -/
def onSystem (s : SystemId) (f : ActorSystem → ActorSystem) (w : World) : World :=
  { w with systems := w.systems.modify s f }

/-- Changes a pool. -/
def onPool (p : PoolId) (f : Pool Work Json → Pool Work Json) (w : World) : World :=
  { w with pools := w.pools.modify p fun s => { s with pool := f s.pool } }

/-- The state of an actor. -/
def actor (w : World) (a : ActorId) : Actor := w.actors[a]?.getD default

/-- The state of a system. -/
def system (w : World) (s : SystemId) : ActorSystem := w.systems[s]?.getD default

/-- The state of a pool. -/
def pool (w : World) (p : PoolId) : Pool Work Json := (w.pools[p]?.getD default).pool

/-- The lines of a page. -/
def lines (w : World) : Page → Lines
  | .main a => (w.actor a).target.main
  | .side a => (w.actor a).target.side
  | .pool p => (w.pools[p]?.getD default).lines
  | .blank => []

/-- Replaces the lines of a page. -/
def write (page : Page) (lines : Lines) (w : World) : World :=
  match page with
  | .main a => w.onActor a fun actor => { actor with target.main := lines }
  | .side a => w.onActor a fun actor => { actor with target.side := lines }
  | .pool p => { w with pools := w.pools.modify p fun s => { s with lines } }
  | .blank => w

/-- Whether the run loop of an actor has ended. -/
def loopEnded (w : World) (a : ActorId) : Bool := (w.actor a).loop.hasEnded

/-! ### Handles of operations -/

/-- The channel of an operation. -/
def channel (w : World) (h : HandleId) : Channel (Except ActorError Json) :=
  w.channels[h]?.getD { content := .lost }

/-- Changes the channel of an operation. -/
def onChannel (h : HandleId)
    (f : Channel (Except ActorError Json) → Channel (Except ActorError Json)) (w : World) :
    World :=
  { w with channels := w.channels.modify h f }

/-- What the holder of a handle sees: a lost operation was discarded. -/
def outcome? (w : World) (h : HandleId) : Option (Except ActorError Json) :=
  (w.channel h).peek (.error .discarded)

/-- A new handle, with the given channel. -/
def newHandle (c : Channel (Except ActorError Json)) (w : World) : HandleId × World :=
  (w.channels.length, { w with channels := w.channels ++ [c] })

/-- Sends the outcome of an operation. -/
def resolve (h : HandleId) (outcome : Except ActorError Json) (w : World) : World :=
  let w := if (w.channel h).listening then w else w.report .handleDropped
  w.onChannel h (·.send outcome)

/-- Loses an operation: it will send nothing. -/
def lose (h : HandleId) (w : World) : World := w.onChannel h Channel.lose

/-- What the holder of a handle of either sort sees. -/
def look (w : World) : HandleRef → Option (Except Failure Json)
  | .operation h => (w.outcome? h).map (·.mapError .actor)
  | .job p j => ((w.pool p).outcome? j).map (·.mapError .pool)

/-- Takes the outcome out of a handle. -/
def drain : HandleRef → World → World
  | .operation h, w => w.onChannel h Channel.drain
  | .job p j, w => w.onPool p (·.drain j)

/-- Drops a handle. -/
def deafen : HandleRef → World → World
  | .operation h, w => w.onChannel h Channel.deafen
  | .job p j, w => w.onPool p (·.deafen j)

/-- Hands a handle to its recipient. A handle that was kept under the same name is dropped. -/
def hand (recipient : Recipient) (r : HandleRef) (w : World) : World :=
  match recipient with
  | .watched name => { w with names.watched := w.names.watched ++ [(name, r)] }
  | .held name =>
    let w := match w.names.held.lookup name with
      | some old => w.deafen old
      | none => w
    { w with names.held := rebind name r w.names.held }
  | .nobody => w.deafen r

/-! ### Tasks -/

/-- Begins a task. -/
def spawn (t : Task) (w : World) : World :=
  { w with tasks := w.tasks ++ [(w.taskCount, t)], taskCount := w.taskCount + 1 }

/-- The state of a task. -/
def task? (w : World) (t : TaskId) : Option Task := w.tasks.lookup t

/-- Changes a task. -/
def setTask (t : TaskId) (task : Task) (w : World) : World :=
  { w with tasks := w.tasks.map fun (i, old) => (i, if i = t then task else old) }

/-- Ends a task. -/
def endTask (t : TaskId) (w : World) : World :=
  { w with tasks := w.tasks.filter (·.1 != t) }

/-- A wait for the run loop of an actor, from now on. -/
def newWait (a : ActorId) (system : Option SystemId) (w : World) : Wait × World :=
  ({ actor := a
     deadline := w.clock + (w.actor a).settings.closeTimeout.ceilMillis
     order := w.waitCount
     system },
   { w with waitCount := w.waitCount + 1 })

/-- Whether a wait is over: the run loop has ended, or the clock has moved past the deadline. A
timer fires only after the whole of its time, so a wait that lasts up to now is not over. -/
def isOver (w : World) (wait : Wait) : Bool :=
  w.loopEnded wait.actor || decide (wait.deadline < w.clock)

/-! ### Letting go -/

/-- The waits of the operations on all run loops. -/
def loopWaits (w : World) : List Wait :=
  w.actors.filterMap fun a => a.loop.course?.bind (·.wait)

/-- Whether anybody holds a system. -/
def holdsSystem (w : World) (s : SystemId) : Bool :=
  w.names.systems.any (·.2 == s) || w.tasks.any (·.2.holdsSystem s) ||
    w.loopWaits.any (·.system == some s)

/-- Whether anybody holds an actor. -/
def holdsActor (w : World) (a : ActorId) : Bool :=
  w.names.actors.any (·.2 == a) ||
    w.systems.any (fun s => s.registry.entries.any (·.2.actor == a)) ||
    w.tasks.any (·.2.holdsActor a)

/-- A system that nobody holds any more forgets its actors. -/
def releaseSystems (w : World) : World :=
  { w with
    systems := w.systems.mapIdx fun (s : SystemId) (system : ActorSystem) =>
      if system.held && !w.holdsSystem s then { system with held := false, registry := {} }
      else system }

/-- The run loop of an actor that nobody holds any more is told to stop. -/
def releaseActors (w : World) : World :=
  { w with
    actors := w.actors.mapIdx fun (a : ActorId) (actor : Actor) =>
      if !actor.stopping && !w.holdsActor a then { actor with stopping := true } else actor }

/-- Lets go of what nobody holds: first the systems, then the actors that only they held. -/
def release (w : World) : World := w.releaseSystems.releaseActors

end World

end Troupe
