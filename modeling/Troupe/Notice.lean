import Troupe.Duration

/-!
# Notices

What actors, systems and pools report about themselves while they work. Every notice has a level
and a wording.

## Main definitions

* `Notice` — the notices
* `Notice.level`, `Notice.message` — how urgent a notice is, and its wording
* `Notice.line` — both on one line
-/

namespace Troupe

/-- How urgent a notice is. -/
inductive Level where
  | debug
  | warn
  | error
  deriving Repr, DecidableEq

/-- The name of a level. -/
def Level.name : Level → String
  | .debug => "DEBUG"
  | .warn => "WARN"
  | .error => "ERROR"

/-- What is reported. -/
inductive Notice where
  /-- A run loop was set up. -/
  | runnerCreated
  /-- An actor was created with a tag for its pool jobs. -/
  | actorCreated (actor owner : String)
  /-- A run loop began. -/
  | loopStarted (actor : String)
  /-- A run loop ended. -/
  | loopStopped (actor : String)
  /-- An ordered operation was refused. -/
  | operationRefused (reason : String)
  /-- An operation broke off. -/
  | operationPanicked (actor message : String)
  /-- An outcome found nobody to receive it. -/
  | handleDropped
  /-- Waiting operations and pool jobs were removed on demand. -/
  | cleared (actor : String) (queued jobs : Nat)
  /-- An actor is being closed. -/
  | closing (actor : String)
  /-- An actor was asked to close a second time. -/
  | alreadyClosed (actor : String)
  /-- A close dropped waiting operations. -/
  | closeDiscarded (actor : String) (queued : Nat)
  /-- A close gave up waiting. -/
  | closeTimedOut (actor : String) (timeout : Duration)
  /-- An actor is closed. -/
  | actorClosed (actor : String)
  /-- A system exists. -/
  | systemCreated (system : String)
  /-- A name was taken in a system. -/
  | registered (name system : String)
  /-- A name changed hands in a system. -/
  | replaced (name system : String)
  /-- A name became free because its actor closed. -/
  | unregistered (name system : String)
  /-- A name became free on demand. -/
  | removing (name system : String)
  /-- A pool joined a system. -/
  | poolAdded (pool system : String) (index : Nat)
  /-- A system was asked to terminate a second time. -/
  | alreadyTerminated (system : String)
  /-- A system terminates. -/
  | terminating (system : String)
  /-- A terminating system closes its actors. -/
  | closingActors (count : Nat)
  /-- A system has terminated. -/
  | systemTerminated (system : String)
  /-- A pool exists. -/
  | poolStarted (pool : String) (workers : Nat)
  /-- A pool accepts no more jobs. -/
  | poolStopping (pool : String)
  /-- A stopped pool refused a job. -/
  | jobRefused (pool : String)
  /-- A job broke off. -/
  | jobPanicked (message : String)
  /-- The outcome of a job found nobody to receive it. -/
  | jobHandleDropped
  /-- Jobs of one owner were withdrawn. -/
  | jobsCancelled (withdrawn recorded : Nat) (owner pool : String)
  /-- A pool dropped its queue. -/
  | queueDiscarded (pool : String) (count : Nat)
  /-- A pool did not drain in time. -/
  | poolTimedOut (pool : String) (grace : Duration) (dropped : Nat)
  deriving Repr, DecidableEq

namespace Notice

/-- How urgent a notice is. -/
def level : Notice → Level
  | .operationPanicked _ _ | .jobPanicked _ => .error
  | .closeTimedOut _ _ | .replaced _ _ | .queueDiscarded _ _ | .poolTimedOut _ _ _ => .warn
  | _ => .debug

/-- Whether a notice is a warning or worse. -/
def isWarning (n : Notice) : Bool := n.level != .debug

/-- The wording of a notice. -/
def message : Notice → String
  | .runnerCreated => "Creating new actor runner."
  | .actorCreated actor owner => s!"Actor {actor} created as pool owner {owner}."
  | .loopStarted actor => s!"Running actor {actor}."
  | .loopStopped actor => s!"Actor {actor} run loop stopped."
  | .operationRefused reason => s!"Rejected operation: {reason}"
  | .operationPanicked actor message => s!"Operation on actor {actor} panicked: {message}"
  | .handleDropped => "Result handle dropped before the operation finished."
  | .cleared actor queued jobs =>
    s!"Actor {actor} cleared {queued} queued operations and {jobs} pool jobs."
  | .closing actor => s!"Closing actor {actor}."
  | .alreadyClosed actor => s!"Actor {actor} is already closed."
  | .closeDiscarded actor queued => s!"Actor {actor} discarded {queued} queued operations."
  | .closeTimedOut actor timeout =>
    let span := timeout.shown
    s!"Actor {actor} did not stop within {span}, aborting its run loop."
  | .actorClosed actor => s!"Actor {actor} closed."
  | .systemCreated system => s!"Actor system {system} created."
  | .registered name system => s!"Actor {name} registered in system {system}."
  | .replaced name system => s!"Actor {name} replaced an existing actor in system {system}."
  | .unregistered name system => s!"Actor {name} unregistered from system {system}."
  | .removing name system => s!"Removing actor {name} from system {system}."
  | .poolAdded pool system index =>
    s!"Worker pool {pool} added to system {system} at index {index}."
  | .alreadyTerminated system => s!"Actor system {system} is already terminated."
  | .terminating system => s!"Terminating actor system {system}."
  | .closingActors count => s!"Closing {count} actors."
  | .systemTerminated system => s!"Actor system {system} terminated."
  | .poolStarted pool workers => s!"Worker pool {pool} started with {workers} workers."
  | .poolStopping pool => s!"Worker pool {pool} is shutting down."
  | .jobRefused pool => s!"Rejected job submitted to stopped pool {pool}."
  | .jobPanicked message => s!"Job panicked: {message}"
  | .jobHandleDropped => "Job handle dropped before the job finished."
  | .jobsCancelled withdrawn recorded owner pool =>
    s!"Cancelled {withdrawn} of {recorded} outstanding jobs for {owner} in pool {pool}."
  | .queueDiscarded pool count => s!"Worker pool {pool} discarded {count} queued jobs."
  | .poolTimedOut pool grace dropped =>
    let span := grace.shown
    s!"Worker pool {pool} did not stop within {span}, {dropped} queued jobs dropped."

/-- A notice on one line. -/
def line (n : Notice) : String := s!"{n.level.name} {n.message}"

end Notice

end Troupe
