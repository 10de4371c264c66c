import Troupe.World.Members

/-!
# Settling

A world settles by making moves until none is possible. Run loops and tasks take turns: whoever is
able to move queues up, and the first in the queue moves for as long as it can before the next one
gets its turn. Workers move when nobody in the queue can, and a grace period runs out only when
nothing else happens.

Every move uses up some of the work that is in a world, and the weight of a world measures that
work. It bounds the number of moves.

## Main definitions

* `World.movers`, `World.isQuiet` — everything that may be able to move, and whether nobody can
* `World.weight` — the measure of the work that is left
* `World.turn`, `World.settle` — one move, and all of them
-/

namespace Troupe

/-! ### The work that is left -/

/-- The work in a list of things, given the work in each. -/
def total {α : Type} (weight : α → Nat) : List α → Nat
  | [] => 0
  | a :: rest => weight a + total weight rest

mutual

/-- The work in an action. -/
def Action.weight : Action → Nat
  | .effect _ | .clear _ | .pending _ | .alive _ => 1
  | .close _ | .remove _ _ => 2
  | .send s => s.weight + 1

/-- The work in what is sent. -/
def Send.weight : Send → Nat
  | .operation _ _ body _ _ => bodyWeight body + 2
  | .offload _ _ _ body _ _ => body.length + 5
  | .job _ _ _ body _ => body.length + 3

/-- The work in a body. -/
def bodyWeight : List Action → Nat
  | [] => 0
  | a :: rest => a.weight + bodyWeight rest

end

/-- The work in an operation in progress: its actions, its return, and what it waits for. -/
def Course.weight (c : Course) : Nat := bodyWeight c.rest + 1 + c.wait.toList.length

/-- The work in an envelope. -/
def Envelope.weight : Envelope → Nat
  | .operation _ body _ => bodyWeight body + 2
  | .relay _ _ _ => 2

/-- The work in a run loop, its end included. -/
def Loop.weight : Loop → Nat
  | .starting => 2
  | .idle => 1
  | .inside (.operation _ course) => course.weight + 1
  | .inside (.relay _ _ _) => 2
  | .ended => 0

/-- The work in an actor. -/
def Actor.weight (a : Actor) : Nat := a.loop.weight + total Envelope.weight a.mailbox.queue

/-- The work in a job that runs. -/
def Work.weight (work : Work) : Nat := work.rest.length + 1

/-- The work in a worker. -/
def Worker.weight : Worker Work → Nat
  | .waiting => 1
  | .awake => 2
  | .busy job => job.body.weight + 2
  | .gone => 0

/-- The work in a pool. -/
def PoolState.weight (s : PoolState) : Nat :=
  total Worker.weight s.pool.crew + total (·.body.weight + 1) s.pool.queue

namespace World

/-- The work in reaching every worker of several pools once, and in dealing with each pool. -/
def crewWeight (w : World) (pools : List PoolId) : Nat :=
  total (fun p => (w.pool p).crew.length + 1) pools

/-- The work in a task. A termination reaches the crews of its pools twice, to shut them down and
to drop what is left. -/
def taskWeight (w : World) : Task → Nat
  | .bypass _ _ course | .errand _ course => course.weight
  | .invocation _ _ _ _ => 1
  | .termination _ s .starting =>
    (w.system s).registry.entries.length + 2 * w.crewWeight (w.system s).pools + 3
  | .termination _ s (.closing waits) => waits.length + 2 * w.crewWeight (w.system s).pools + 2
  | .termination _ _ (.draining pools) => w.crewWeight pools + 1

/-- The work in a world. -/
def weight (w : World) : Nat :=
  total Actor.weight w.actors + total PoolState.weight w.pools +
    total (fun t => w.taskWeight t.2) w.tasks

/-! ### Who can move -/

/-- The run loops and the tasks. -/
def runners (w : World) : List Mover :=
  (List.range w.actors.length).map .runLoop ++ w.tasks.map fun t => .task t.1

/-- The workers of all pools. -/
def workers (w : World) : List Mover :=
  w.pools.zipIdx.flatMap fun (s, p) => (List.range s.pool.crew.length).map (.worker p)

/-- The length of the grace periods within a task, in nanoseconds. -/
def graceOf (w : World) : Task → Nat
  | .termination _ s _ => (w.system s).grace.totalNanos
  | _ => 0

/-- The grace periods, the shortest first. -/
def graces (w : World) : List Mover :=
  (w.tasks.mergeSort fun t u => decide (w.graceOf t.2 ≤ w.graceOf u.2)).map fun t => .grace t.1

/-- Everything that may be able to move, in the order of precedence. -/
def movers (w : World) : List Mover := w.runners ++ w.workers ++ w.graces

/-- Whether nobody can move; at most a grace period may still run out. -/
def isQuiet (w : World) : Bool := (w.runners ++ w.workers).all fun m => (w.step m).isNone

/-- The run loops and tasks that can move. -/
def ready (w : World) : List Mover := w.runners.filter fun m => (w.step m).isSome

/-- The waits of all run loops and tasks, with who waits. -/
def waiting (w : World) : List (Wait × Mover) :=
  w.actors.zipIdx.flatMap (fun (actor, a) =>
    (actor.loop.course?.bind (·.wait)).toList.map fun wait => (wait, .runLoop a)) ++
  w.tasks.flatMap fun (t, task) => task.waits.map fun wait => (wait, .task t)

/-- Whether the time of one wait comes before that of another. -/
def isSooner (x y : Wait) : Bool :=
  decide (x.deadline < y.deadline) || (x.deadline == y.deadline && decide (x.order ≤ y.order))

/-- Those who can move in a world that has been left alone: first those whose time has come, in the
order of their deadlines. -/
def firstQueue (w : World) : List Mover :=
  let due := w.waiting.filter fun x => decide (x.1.deadline < w.clock)
  ((due.mergeSort fun x y => isSooner x.1 y.1).map (·.2) ++ w.ready).eraseDups

/-! ### Moving -/

/-- The first move that is possible, with what is left of the list from there on. -/
def firstStep (w : World) : List Mover → Option (World × List Mover)
  | [] => none
  | m :: rest =>
    match w.step m with
    | some w' => some (w', m :: rest)
    | none => w.firstStep rest

/-- One move. Whoever has become able to move by it queues up behind the others. -/
def turn (queue : List Mover) (w : World) : Option (List Mover × World) :=
  match w.firstStep queue with
  | some (w, queue) => some (queue ++ w.ready.filter (!queue.contains ·), w)
  | none => (w.firstStep w.movers).map fun (w, _) => (w.ready, w)

/-- Some turns, at most as many as given. -/
def turns : Nat → List Mover → World → World
  | 0, _, w => w
  | n + 1, queue, w =>
    match w.turn queue with
    | some (queue, w) => turns n queue w
    | none => w

/-- Moves until nothing can move. -/
def settle (w : World) : World := turns w.weight w.firstQueue w

end World

end Troupe
