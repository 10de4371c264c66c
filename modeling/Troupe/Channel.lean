/-!
# Channels that carry one outcome

Whoever is to produce an outcome and whoever waits for it share a channel. The producer sends the
outcome at most once, or is lost without sending; the holder may look as often as it likes, but
takes an outcome only once. Once it can no longer receive anything, a look at the channel reports
the loss.

## Main definitions

* `Channel` — the states of a channel, and whether anybody still holds its receiving end
* `Channel.send`, `Channel.lose` — the two endings of a producer
* `Channel.take` — one look at the channel
* `Channel.isPending` — whether the producer is still to end
-/

namespace Troupe

/-- What a channel holds. -/
inductive Content (α : Type) where
  /-- Nothing yet; the producer is at work. -/
  | empty
  /-- The outcome. -/
  | full (outcome : α)
  /-- Nothing any more; the outcome has been taken. -/
  | drained
  /-- Nothing ever; the producer was lost. -/
  | lost
  deriving Repr, BEq, Inhabited

/-- A channel for one outcome. -/
structure Channel (α : Type) where
  /-- What it holds. -/
  content : Content α := .empty
  /-- Whether the receiving end is still held. -/
  listening : Bool := true
  deriving Repr, BEq, Inhabited

namespace Channel

variable {α : Type}

/-- Whether the producer is still to end. -/
def isPending (c : Channel α) : Bool :=
  match c.content with
  | .empty => true
  | _ => false

/-- Sends the outcome, whether or not anybody can still receive it. -/
def send (outcome : α) (c : Channel α) : Channel α :=
  match c.content with
  | .empty => { c with content := .full outcome }
  | _ => c

/-- Loses the producer. -/
def lose (c : Channel α) : Channel α :=
  match c.content with
  | .empty => { c with content := .lost }
  | _ => c

/-- Drops the receiving end. -/
def deafen (c : Channel α) : Channel α := { c with listening := false }

/-- One look: the outcome if it is there, `loss` if none can come any more, nothing otherwise. -/
def peek (loss : α) (c : Channel α) : Option α :=
  match c.content with
  | .empty => none
  | .full outcome => some outcome
  | .drained | .lost => some loss

/-- The channel after a look, which takes an outcome that is there. -/
def drain (c : Channel α) : Channel α :=
  match c.content with
  | .full _ => { c with content := .drained }
  | _ => c

/-- One look at the channel, and the channel after it. -/
def take (loss : α) (c : Channel α) : Option α × Channel α := (c.peek loss, c.drain)

/-- A channel whose producer has ended with an outcome. -/
def settled (outcome : α) : Channel α := { content := .full outcome }

end Channel

end Troupe
