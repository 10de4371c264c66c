import Troupe.World.Jobs

/-!
# Clearing and closing actors

Clearing drops the operations that wait and withdraws the pool jobs that have not started. Closing
also drops the places of offloaded operations and ends the actor for good. A close has two parts:
one that takes effect at once, and one that comes when the run loop has ended or the time is up.
An operation that closes its own actor cannot wait for its own run loop, so both parts come
together and the run loop ends with the operation.

## Main definitions

* `World.clear` — dropping what waits
* `World.beginClose`, `World.finishClose` — the two parts of a close
* `World.endWait` — the end of the wait between them
* `World.endLoop`, `World.abortLoop` — the two ends of a run loop
-/

namespace Troupe

namespace World

/-! ### Envelopes -/

/-- Drops an envelope. Nobody looks at the job of a dropped relay any more. -/
def dropEnvelope (e : Envelope) (w : World) : World :=
  match e with
  | .operation h _ _ => w.lose h
  | .relay h p j => (w.lose h).deafen (.job p j)

/-- Drops several envelopes. -/
def dropEnvelopes (es : List Envelope) (w : World) : World :=
  es.foldl (fun w e => w.dropEnvelope e) w

/-- Withdraws the waiting jobs of an actor from all pools that it has used. Returns how many there
were. -/
def withdrawJobs (a : ActorId) (w : World) : Nat × World :=
  w.cancelJobsIn (w.actor a).owner (w.actor a).pools

/-- Drops the operations that wait for an actor and withdraws its waiting jobs. Returns how many
there were of both. -/
def clear (a : ActorId) (w : World) : Nat × World :=
  let (operations, mailbox) := (w.actor a).mailbox.clear
  let w := (w.onActor a fun actor => { actor with mailbox }).dropEnvelopes operations
  let (jobs, w) := w.withdrawJobs a
  (operations.length + jobs, w.report (.cleared (w.actor a).name operations.length jobs))

/-! ### Run loops -/

/-- A run loop ends by itself. What still waits is dropped. -/
def endLoop (a : ActorId) (w : World) : World :=
  let actor := w.actor a
  let w := w.onActor a fun actor =>
    { actor with loop := .ended, mailbox := { actor.mailbox with queue := [] } }
  (w.dropEnvelopes actor.mailbox.queue).report (.loopStopped actor.name)

/-- A run loop is aborted. What it is inside of is lost. -/
def abortLoop (a : ActorId) (w : World) : World :=
  let actor := w.actor a
  let w := w.onActor a fun actor => { actor with loop := .ended }
  let w := match actor.loop with
    | .inside (.operation h _) => w.lose h
    | .inside (.relay h p j) => (w.lose h).deafen (.job p j)
    | _ => w
  w.report (.closeTimedOut actor.name actor.settings.closeTimeout)

/-! ### Closing -/

/-- Takes an actor out of the system that it is registered in. Its name there stays if it leads to
somebody else by now. -/
def detach (a : ActorId) (w : World) : World :=
  match (w.actor a).registration with
  | none => w
  | some { system := s, key } =>
    let w := w.onActor a fun actor => { actor with registration := none }
    let system := w.system s
    if system.held && (system.registry.find? key).any (·.actor == a) then
      (w.onSystem s fun system => { system with registry := system.registry.erase key }).report
        (.unregistered key system.name)
    else w

/-- The second part of a close: the actor lets go of its target and leaves its system. -/
def finishClose (a : ActorId) (w : World) : World :=
  let w := (w.onActor a fun actor => { actor with holdsTarget := false }).detach a
  w.report (.actorClosed (w.actor a).name)

/-- What a close does to an actor at once: nothing is accepted any more, what waits is dropped, and
the jobs that have not started are withdrawn. -/
def shutActor (a : ActorId) (w : World) : World :=
  let w := w.report (.closing (w.actor a).name)
  let (dropped, mailbox) := (w.actor a).mailbox.close
  let w := w.onActor a fun actor => { actor with closed := true, stopping := true, mailbox }
  let w := if dropped.isEmpty then w
    else w.report (.closeDiscarded (w.actor a).name dropped.length)
  ((w.dropEnvelopes dropped).withdrawJobs a).2

/-- The first part of a close, asked for on a run loop or elsewhere, and maybe through a system.
What comes back is what to wait for, if anything. Only the first close of an actor does
something. -/
def beginClose (runLoop : Option ActorId) (system : Option SystemId) (a : ActorId) (w : World) :
    Option Wait × World :=
  if (w.actor a).closed then (none, w.report (.alreadyClosed (w.actor a).name))
  else
    let w := w.shutActor a
    if runLoop = some a then (none, w.finishClose a)
    else
      let (wait, w) := w.newWait a system
      (some wait, w)

/-- The end of a wait, which completes the close. The run loop is aborted unless it has ended. -/
def endWait (wait : Wait) (w : World) : World :=
  let w := if w.loopEnded wait.actor then w else w.abortLoop wait.actor
  w.finishClose wait.actor

end World

end Troupe
