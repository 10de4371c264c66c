import Troupe.Operation
import Troupe.Pool.OwnerIndex

/-!
# Mailboxes

The queue of one actor. An envelope holds an ordered operation, or a relay: the place that an
offloaded operation keeps in the order while its job is in a pool. A mailbox can be emptied from
outside, with or without its relays, and once closed it takes nothing more.

## Main definitions

* `Envelope`, `Mailbox` — what waits, and the queue
* `Mailbox.push`, `Mailbox.next` — the two ends of the queue
* `Mailbox.clear`, `Mailbox.close` — removing the operations, removing everything
-/

namespace Troupe

/-- The number of a pool. -/
abbrev PoolId := Nat

/-- The number of an actor. -/
abbrev ActorId := Nat

/-- The number of a system. -/
abbrev SystemId := Nat

/-- The number of the handle of an operation. -/
abbrev HandleId := Nat

/-- What waits in a mailbox. -/
inductive Envelope where
  /-- An operation that is to run on the run loop. -/
  | operation (handle : HandleId) (body : List Action) (answer : Answer)
  /-- The place of an offloaded operation. -/
  | relay (handle : HandleId) (pool : PoolId) (job : JobId)

namespace Envelope

/-- The handle that an envelope is to resolve. -/
def handle : Envelope → HandleId
  | .operation handle _ _ => handle
  | .relay handle _ _ => handle

/-- Whether an envelope is the place of an offloaded operation. -/
def isRelay : Envelope → Bool
  | .operation _ _ _ => false
  | .relay _ _ _ => true

end Envelope

/-- The queue of an actor. -/
structure Mailbox where
  /-- What waits, the next one first. -/
  queue : List Envelope := []
  /-- Whether nothing more is taken. -/
  closed : Bool := false
  deriving Inhabited

namespace Mailbox

/-- Appends an envelope, unless the mailbox is closed. -/
def push (e : Envelope) (m : Mailbox) : Option Mailbox :=
  if m.closed then none else some { m with queue := m.queue ++ [e] }

/-- The next envelope, and what waits behind it. -/
def next (m : Mailbox) : Option (Envelope × Mailbox) :=
  match m.queue with
  | [] => none
  | e :: queue => some (e, { m with queue })

/-- Removes the operations. The relays keep their order. -/
def clear (m : Mailbox) : List Envelope × Mailbox :=
  (m.queue.filter (!·.isRelay), { m with queue := m.queue.filter (·.isRelay) })

/-- Removes everything, and takes nothing more. -/
def close (m : Mailbox) : List Envelope × Mailbox :=
  (m.queue, { queue := [], closed := true })

end Mailbox

end Troupe
