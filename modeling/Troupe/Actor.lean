import Troupe.Mailbox
import Troupe.Settings

/-!
# Actors

An actor wraps a target behind a mailbox and runs one envelope at a time on its run loop. This
module holds the state of an actor; what changes it involves pools, systems and other actors and
is found with the world they live in.

An operation in progress is a course: the actions that are left, the value so far, and what the
current action waits for. The only thing that takes a course more than one step is the end of some
run loop, which a close waits for up to a deadline.

## Main definitions

* `Wait`, `Course` — an operation in progress
* `Inside`, `Loop` — what a run loop is doing
* `Actor` — the state of an actor
* `Actor.isAlive`, `Actor.isOpen`, `Actor.enqueue` — what can be asked
-/

namespace Troupe

/-- What a close in progress waits for: the end of the actor's run loop, or the deadline. -/
structure Wait where
  /-- The actor that is being closed. -/
  actor : ActorId
  /-- The time after which the run loop is aborted. -/
  deadline : Nat
  /-- The number of the wait; of two with one deadline the earlier goes first. -/
  order : Nat
  /-- The system that is kept until then, if the action goes through one. -/
  system : Option SystemId
  deriving Inhabited

/-- An operation in progress. -/
structure Course where
  /-- The actions that are left. -/
  rest : List Action
  /-- The value so far. -/
  value : Json := .null
  /-- What becomes of the value. -/
  answer : Answer
  /-- What the current action waits for. -/
  wait : Option Wait := none
  deriving Inhabited

/-- What a run loop is inside of. -/
inductive Inside where
  /-- An ordered operation. -/
  | operation (handle : HandleId) (course : Course)
  /-- The place of an offloaded operation. -/
  | relay (handle : HandleId) (pool : PoolId) (job : JobId)

/-- The handle that is to be resolved next. -/
def Inside.handle : Inside → HandleId
  | .operation handle _ => handle
  | .relay handle _ _ => handle

/-- The states of a run loop. -/
inductive Loop where
  /-- Set up, not yet begun. -/
  | starting
  /-- Between two envelopes. -/
  | idle
  /-- Inside an envelope. -/
  | inside (i : Inside)
  /-- Ended, by itself or by an abort. -/
  | ended
  deriving Inhabited

/-- Whether a run loop has ended. -/
def Loop.hasEnded : Loop → Bool
  | .ended => true
  | _ => false

/-- The course that a run loop is inside of. -/
def Loop.course? : Loop → Option Course
  | .inside (.operation _ course) => some course
  | _ => none

/-- Where an actor is registered. -/
structure Registration where
  /-- The system. -/
  system : SystemId
  /-- The name under which the system knows the actor. -/
  key : String
  deriving Repr, DecidableEq, Inhabited

/-- The state of an actor. -/
structure Actor where
  /-- The name of the actor. -/
  name : String
  /-- The tag of its pool jobs. -/
  owner : String
  /-- What kind of target it wraps. -/
  kind : String
  /-- Its settings. -/
  settings : ActorSettings
  /-- The target. -/
  target : Target := {}
  /-- Whether the actor still holds its target. -/
  holdsTarget : Bool := true
  /-- What waits. -/
  mailbox : Mailbox := {}
  /-- Whether the run loop is to stop. -/
  stopping : Bool := false
  /-- Whether a close has begun. -/
  closed : Bool := false
  /-- The run loop. -/
  loop : Loop := .starting
  /-- The pools it has used, each once. -/
  pools : List PoolId := []
  /-- The name of the actor that created it as a child. -/
  parent : Option String := none
  /-- The names of its children, sorted, each once. -/
  children : List String := []
  /-- Where it is registered. -/
  registration : Option Registration := none
  deriving Inhabited

namespace Actor

/-- Whether an actor is open, its run loop is there and it holds its target. -/
def isAlive (a : Actor) : Bool := !a.closed && !a.loop.hasEnded && a.holdsTarget

/-- Whether an actor hands out its target. -/
def isOpen (a : Actor) : Bool := !a.closed && a.holdsTarget

/-- The number of envelopes that wait. -/
def pendingCount (a : Actor) : Nat := a.mailbox.queue.length

/-- The refusal of an actor that is closed. -/
def refusal (a : Actor) : ActorError := .closed a.name

/-- Puts an envelope into the mailbox, unless the actor is closed. -/
def enqueue (e : Envelope) (a : Actor) : Option Actor :=
  if a.closed then none else (a.mailbox.push e).map fun mailbox => { a with mailbox }

/-- Remembers that a pool was used. -/
def remember (p : PoolId) (a : Actor) : Actor :=
  if a.pools.contains p then a else { a with pools := a.pools ++ [p] }

/-- The sorted list with a name entered, once. -/
def enterName (name : String) : List String → List String
  | [] => [name]
  | n :: rest =>
    if name < n then name :: n :: rest
    else if name = n then n :: rest
    else n :: enterName name rest

/-- Records a child. -/
def adopt (name : String) (a : Actor) : Actor :=
  { a with children := enterName name a.children }

end Actor

end Troupe
