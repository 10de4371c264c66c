import Troupe.Json.Decoder
import Troupe.Json.Printer

/-!
# What goes wrong

A worker pool and an actor each have their own causes of failure. A pool's failure reaches the
client of an actor through the operation that was offloaded, so there is a map from the first to
the second.

## Main definitions

* `PoolError`, `ActorError` — the causes
* `PoolError.message`, `ActorError.message` — their wording
* `ActorError.ofPool` — what an actor's client sees of a pool's failure
* `ActorError.toJson`, `ActorError.decoder` — the JSON form
* `Failure` — a failure of either sort
* `Panic`, `Panic.message` — what a body leaves behind when it breaks off
-/

namespace Troupe

/-! ### Pools -/

/-- Why a job or a pool fails. -/
inductive PoolError where
  /-- The job was withdrawn before a worker took it. -/
  | cancelled
  /-- The job broke off while it ran. -/
  | panicked (message : String)
  /-- The pool no longer accepts jobs. -/
  | shutdown (pool : String)
  /-- A worker could not be started. -/
  | spawn (reason : String)
  /-- A pool was asked for without any worker. -/
  | invalidSize
  deriving Repr, DecidableEq

namespace PoolError

/-- The short name of the cause. -/
def kind : PoolError → String
  | .cancelled => "Cancelled"
  | .panicked _ => "Panicked"
  | .shutdown _ => "Shutdown"
  | .spawn _ => "Spawn"
  | .invalidSize => "InvalidSize"

/-- The wording of a failure. -/
def message : PoolError → String
  | .cancelled => "Job was cancelled before it started."
  | .panicked message => s!"Job panicked: {message}"
  | .shutdown pool => s!"Worker pool {pool} is shut down."
  | .spawn reason => s!"Can't spawn worker thread: {reason}"
  | .invalidSize => "A worker pool needs at least one worker."

end PoolError

/-! ### Actors -/

/-- Why an operation on an actor or a system fails. -/
inductive ActorError where
  /-- The actor was closed before it accepted the operation. -/
  | closed (actor : String)
  /-- No actor is registered under the name. -/
  | notFound (name : String)
  /-- The actor is in no system. -/
  | detached (actor : String)
  /-- The operation broke off. -/
  | panicked (message : String)
  /-- The operation ended with an error of its own. -/
  | operation (message : String)
  /-- The operation was dropped before it completed. -/
  | discarded
  /-- The operation was withdrawn from a pool before it started. -/
  | cancelled
  /-- A pool refused the operation. -/
  | rejected (reason : String)
  /-- Nothing is there to run the actor. -/
  | runtime (reason : String)
  /-- The system has been terminated. -/
  | terminated (system : String)
  deriving Repr, DecidableEq

namespace ActorError

/-- The short name of the cause. -/
def kind : ActorError → String
  | .closed _ => "Closed"
  | .notFound _ => "NotFound"
  | .detached _ => "Detached"
  | .panicked _ => "Panicked"
  | .operation _ => "Operation"
  | .discarded => "Discarded"
  | .cancelled => "Cancelled"
  | .rejected _ => "Rejected"
  | .runtime _ => "Runtime"
  | .terminated _ => "Terminated"

/-- The wording of a failure. -/
def message : ActorError → String
  | .closed actor => s!"Actor {actor} is closed."
  | .notFound name => s!"Actor {name} not found."
  | .detached actor => s!"Actor {actor} is not attached to an actor system."
  | .panicked message => s!"Operation panicked: {message}"
  | .operation message => s!"Operation failed: {message}"
  | .discarded => "Operation was discarded before it completed."
  | .cancelled => "Operation was cancelled."
  | .rejected reason => s!"Worker pool rejected the operation: {reason}"
  | .runtime reason => s!"An error occurred while starting the actor runtime: {reason}"
  | .terminated system => s!"Actor system {system} is terminated."

/-- What the client of an actor sees of a pool's failure: a withdrawn or broken job as such, and
anything else as a refusal by the pool. -/
def ofPool : PoolError → ActorError
  | .cancelled => .cancelled
  | .panicked message => .panicked message
  | e => .rejected e.message

/-! ### JSON -/

/-- The text that a failure carries, if its kind has one. -/
def detail : ActorError → Option String
  | .closed s | .notFound s | .detached s | .panicked s | .operation s => some s
  | .discarded | .cancelled => none
  | .rejected s | .runtime s | .terminated s => some s

/-- The JSON form of a failure: its kind, as the key of its text if it has one. -/
def toJson (e : ActorError) : Json :=
  match e.detail with
  | none => .str e.kind
  | some s => .obj [(e.kind, .str s)]

/-- The kinds of failure, as the alternatives of the JSON form. -/
def alternatives : List (Json.Alternative ActorError) :=
  [.texted "Closed" .closed, .texted "NotFound" .notFound, .texted "Detached" .detached,
    .texted "Panicked" .panicked, .texted "Operation" .operation, .bare "Discarded" .discarded,
    .bare "Cancelled" .cancelled, .texted "Rejected" .rejected, .texted "Runtime" .runtime,
    .texted "Terminated" .terminated]

/-- Reads a failure. -/
def decoder : Json.Decoder ActorError := .choice alternatives

end ActorError

/-! ### Either sort -/

/-- A failure of a pool or of an actor. -/
inductive Failure where
  /-- Of a pool. -/
  | pool (e : PoolError)
  /-- Of an actor or a system. -/
  | actor (e : ActorError)
  deriving Repr, DecidableEq

/-- The short name of the cause. -/
def Failure.kind : Failure → String
  | .pool e => e.kind
  | .actor e => e.kind

/-- The wording of a failure. -/
def Failure.message : Failure → String
  | .pool e => e.message
  | .actor e => e.message

/-! ### Bodies that break off -/

/-- What a body leaves behind when it breaks off: a text, or something that cannot be read. -/
inductive Panic where
  /-- A readable text. -/
  | text (message : String)
  /-- Anything else. -/
  | unreadable
  deriving Repr, DecidableEq

/-- The message under which a break is reported. -/
def Panic.message : Panic → String
  | .text message => message
  | .unreadable => "unknown panic payload"

end Troupe
