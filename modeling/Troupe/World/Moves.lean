import Troupe.World.Course

/-!
# Moves

What can happen in a world without anybody asking for it: a run loop, a task or a worker gets one
step further, or the grace period of a pool runs out. Each kind of move is a function that answers
nothing where the move is not possible. A world is quiet when no move but the end of a grace period
is possible.

## Main definitions

* `World.stepLoop`, `World.stepTask`, `World.expireGrace` — the moves of run loops, tasks, pools
* `Mover`, `World.step` — what can move, and its next move
-/

namespace Troupe

namespace World

/-! ### Run loops -/

/-- Sets what a run loop is doing. -/
def setLoop (a : ActorId) (l : Loop) (w : World) : World :=
  w.onActor a fun actor => { actor with loop := l }

/-- An operation ends: what became of it is reported and goes to its handle. -/
def finishOperation (a : ActorId) (h : HandleId) (answer : Answer) (ending : Ending) (w : World) :
    World :=
  let w := match ending with
    | .broke payload => w.report (.operationPanicked (w.actor a).name payload.message)
    | _ => w
  w.resolve h (answer.outcome ending)

/-- The run loop of an actor goes into its next envelope, if there is one. -/
def enterNext (a : ActorId) (w : World) : Option World :=
  (w.actor a).mailbox.next.map fun (e, mailbox) =>
    let i := match e with
      | .operation h body answer => Inside.operation h { rest := body, answer }
      | .relay h p j => .relay h p j
    w.onActor a fun actor => { actor with mailbox, loop := .inside i }

/-- The run loop of an actor goes on inside an envelope. A relay waits for its job, but not once the
actor is to stop; an outcome that is there comes first. -/
def stepInside (a : ActorId) (i : Inside) (w : World) : Option World :=
  match i with
  | .operation h course =>
    (w.stepCourse (.runLoop a) course).map fun
      | (.goesOn course, w) => w.setLoop a (.inside (.operation h course))
      | (.ends ending, w) => (w.finishOperation a h course.answer ending).setLoop a .idle
  | .relay h p j =>
    match (w.pool p).outcome? j with
    | some outcome =>
      some ((w.resolve h (outcome.mapError ActorError.ofPool)).setLoop a .idle)
    | none =>
      if (w.actor a).stopping then
        let w := w.resolve h (.error (w.actor a).refusal)
        some ((w.deafen (.job p j)).setLoop a .idle)
      else none

/-- The next move of a run loop. -/
def stepLoop (a : ActorId) (w : World) : Option World :=
  match (w.actor a).loop with
  | .starting => some ((w.report (.loopStarted (w.actor a).name)).setLoop a .idle)
  | .idle => if (w.actor a).stopping then some (w.endLoop a) else w.enterNext a
  | .inside i => w.stepInside a i
  | .ended => none

/-! ### Tasks -/

/-- The reply that an invocation by name makes of the outcome of its operation. -/
def replyOf : Except ActorError Json → Json
  | .ok reply => reply
  | .error e => (Reply.ofError e).toJson

/-- Closes several actors, up to the waits. -/
def beginCloses : List ActorId → World → List Wait × World
  | [], w => ([], w)
  | a :: rest, w =>
    let (wait, w) := w.beginClose none none a
    let (waits, w) := w.beginCloses rest
    (wait.toList ++ waits, w)

/-- A termination begins: the system forgets its actors and closes them. -/
def beginTermination (s : SystemId) (w : World) : List Wait × World :=
  let w := w.report (.terminating (w.system s).name)
  let entries := (w.system s).registry.entries
  let w := w.onSystem s fun system => { system with terminated := true, registry := {} }
  (w.report (.closingActors entries.length)).beginCloses (entries.map (·.2.actor))

/-- Shuts several pools down. -/
def stopPools (pools : List PoolId) (w : World) : World :=
  pools.foldl (fun w p => w.stopPool p) w

/-- The next move of a termination: the actors are closed, the pools are shut down and drained, and
the client is told. Only the first termination of a system does something. -/
def stepTermination (t : TaskId) (h : HandleId) (s : SystemId) (stage : Stage) (w : World) :
    Option World :=
  match stage with
  | .starting =>
    if (w.system s).terminated then
      some (((w.report (.alreadyTerminated (w.system s).name)).resolve h (.ok .null)).endTask t)
    else
      let (waits, w) := w.beginTermination s
      some (w.setTask t (.termination h s (.closing waits)))
  | .closing [] =>
    let pools := (w.system s).pools
    some ((w.stopPools pools).setTask t (.termination h s (.draining pools)))
  | .closing waits =>
    (waits.find? w.isOver).map fun wait =>
      (w.endWait wait).setTask t
        (.termination h s (.closing (waits.filter (·.order != wait.order))))
  | .draining [] =>
    some (((w.report (.systemTerminated (w.system s).name)).resolve h (.ok .null)).endTask t)
  | .draining pools =>
    if pools.any fun p => (w.pool p).isTerminated then
      some (w.setTask t (.termination h s
        (.draining (pools.filter fun p => !(w.pool p).isTerminated))))
    else none

/-- The next move of a task. -/
def stepTask (t : TaskId) (w : World) : Option World :=
  (w.task? t).bind fun
    | .bypass a h course =>
      (w.stepCourse (.bypass a) course).map fun
        | (.goesOn course, w) => w.setTask t (.bypass a h course)
        | (.ends ending, w) => (w.finishOperation a h course.answer ending).endTask t
    | .errand h course =>
      (w.stepCourse .client course).map fun
        | (.goesOn course, w) => w.setTask t (.errand h course)
        | (.ends ending, w) => (w.resolve h (course.answer.outcome ending)).endTask t
    | .invocation h operation _ _ =>
      (w.outcome? operation).map fun outcome => (w.resolve h (.ok (replyOf outcome))).endTask t
    | .termination h s stage => w.stepTermination t h s stage

/-- The grace period of the first pool that a termination drains runs out, if the pool has not
drained: what waits there is dropped. -/
def expireGrace (t : TaskId) (w : World) : Option World :=
  match w.task? t with
  | some (.termination h s (.draining (p :: pools))) =>
    if (w.pool p).isTerminated then none
    else
      let (dropped, w) := w.emptyPool p
      let w := w.report (.poolTimedOut (w.pool p).name (w.system s).grace dropped)
      some (w.setTask t (.termination h s (.draining pools)))
  | _ => none

end World

/-! ### All moves -/

/-- What can move. -/
inductive Mover where
  /-- The run loop of an actor. -/
  | runLoop (actor : ActorId)
  /-- A task. -/
  | task (task : TaskId)
  /-- A worker of a pool, by its place in the crew. -/
  | worker (pool : PoolId) (place : Nat)
  /-- The grace period within a termination. -/
  | grace (task : TaskId)
  deriving Repr, DecidableEq, Inhabited

namespace World

/-- The next move of a mover, if it has one. Whatever nobody holds after it is let go. -/
def step (w : World) : Mover → Option World
  | .runLoop a => (w.stepLoop a).map release
  | .task t => (w.stepTask t).map release
  | .worker p place => (w.stepWorker p place).map release
  | .grace t => (w.expireGrace t).map release

end World

end Troupe
