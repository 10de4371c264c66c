import Troupe.World.Closing

/-!
# Sending

The ways in which an operation gets to an actor and a job to a pool. An actor that is closed refuses
everything: the handle of what was refused is settled at once, and nothing else happens.

## Main definitions

* `World.sendOrdered`, `World.sendBypass`, `World.sendOffload` — what clients send to actors
* `World.sendJob` — what clients send to pools
* `World.send` — sending by name
-/

namespace Troupe

namespace World

/-! ### To actors -/

/-- The handle of an operation that an actor refused. -/
def refuse (a : ActorId) (w : World) : HandleId × World :=
  w.newHandle (.settled (.error (w.actor a).refusal))

/-- Sends an operation through the mailbox. -/
def sendOrdered (a : ActorId) (body : List Action) (answer : Answer) (w : World) :
    HandleId × World :=
  match (w.actor a).enqueue (.operation w.channels.length body answer) with
  | some actor =>
    let (h, w) := w.newHandle {}
    (h, w.onActor a fun _ => actor)
  | none => (w.report (.operationRefused (w.actor a).refusal.message)).refuse a

/-- Sends an operation past the mailbox. -/
def sendBypass (a : ActorId) (body : List Action) (answer : Answer) (w : World) :
    HandleId × World :=
  if (w.actor a).isOpen then
    let (h, w) := w.newHandle {}
    (h, w.spawn (.bypass a h { rest := body, answer }))
  else w.refuse a

/-- Sends an operation to a pool. A relay keeps its place in the mailbox. -/
def sendOffload (a : ActorId) (p : PoolId) (urgent : Bool) (body : List Effect) (answer : Answer)
    (w : World) : HandleId × World :=
  if (w.actor a).isOpen then
    let w := w.onActor a (·.remember p)
    let (j, w) := w.submitJob p (some (w.actor a).owner) urgent
      { rest := body, answer, page := .side a }
    match (w.actor a).enqueue (.relay w.channels.length p j) with
    | some actor =>
      let (h, w) := w.newHandle {}
      (h, w.onActor a fun _ => actor)
    | none => (w.deafen (.job p j)).refuse a
  else w.refuse a

/-! ### To pools -/

/-- Sends a job to a pool. Without an owner nothing is urgent. -/
def sendJob (p : PoolId) (owner : Option String) (urgent : Bool) (body : List Effect) (w : World) :
    JobId × World :=
  w.submitJob p owner (urgent && owner.isSome) { rest := body, answer := .value, page := .pool p }

/-! ### By name -/

/-- The actor that clients hold by a name. -/
def actorNamed (w : World) (name : String) : Except String ActorId :=
  (w.names.actors.lookup name).elim (.error s!"no actor variable {name}") .ok

/-- The system that clients hold by a name. -/
def systemNamed (w : World) (name : String) : Except String SystemId :=
  (w.names.systems.lookup name).elim (.error s!"no system variable {name}") .ok

/-- The pool that clients hold by a name. -/
def poolNamed (w : World) (name : String) : Except String PoolId :=
  (w.names.pools.lookup name).elim (.error s!"no pool variable {name}") .ok

/-- Sends what is to be sent, and hands the handle to its recipient. Fails if a name stands for
nothing. -/
def send (s : Send) (w : World) : Except String World := do
  match s with
  | .operation path actor body answer recipient =>
    let a ← w.actorNamed actor
    let (h, w) := match path with
      | .ordered => w.sendOrdered a body answer
      | .bypass => w.sendBypass a body answer
    return w.hand recipient (.operation h)
  | .offload actor pool urgent body answer recipient =>
    let a ← w.actorNamed actor
    let p ← w.poolNamed pool
    let (h, w) := w.sendOffload a p urgent body answer
    return w.hand recipient (.operation h)
  | .job pool owner urgent body recipient =>
    let p ← w.poolNamed pool
    let (j, w) := w.sendJob p owner urgent body
    return w.hand recipient (.job p j)

end World

end Troupe
