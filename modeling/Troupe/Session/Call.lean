import Troupe.World.View

/-!
# Calls

What clients ask for, by names of their own, and what they are told at once. A name for an actor, a
system, a pool or a handle is bound by one call and used by later ones.

## Main definitions

* `Call`, `Call.numbered` — the calls, and their copies in a repetition
* `Response` — what a call is answered with
-/

namespace Troupe

/-- What clients ask for. -/
inductive Call where
  /-- Sends something to an actor or a pool. -/
  | send (s : Send)
  /-- Creates a pool. -/
  | createPool (pool name : String) (size : Nat)
  /-- Creates a system. -/
  | createSystem (system name : String) (workers : Nat) (grace : Duration)
      (actorSettings : ActorSettings)
  /-- Creates an actor. -/
  | createActor (actor name kind : String) (settings : ActorSettings)
  /-- Creates an actor under a name in a system. -/
  | createMember (system actor name kind : String) (invocable : Bool)
  /-- Creates an actor in the system of its parent. -/
  | createChild (parent actor name kind : String)
  /-- Gives an actor a name in a system, its own where none is given. -/
  | attach (system actor : String) (name : Option String) (invocable : Bool)
  /-- Asks a system for an actor, and maybe keeps it under a name. -/
  | get (system name kind : String) (actor : Option String)
  /-- Asks whether a system has a live actor under a name. -/
  | contains (system name : String)
  /-- Invokes an action of the actor that has a name in a system. -/
  | invoke (system handle name action args : String)
  /-- Removes an actor from a system. -/
  | remove (system handle name : String)
  /-- Closes an actor. -/
  | close (actor handle : String)
  /-- Terminates a system. -/
  | terminate (system handle : String)
  /-- Lets go of an actor. -/
  | dropActor (actor : String)
  /-- Lets go of a system. -/
  | dropSystem (system : String)
  /-- Withdraws the jobs of an owner from a pool. -/
  | cancel (pool owner : String)
  /-- Withdraws the jobs of an actor from a pool. -/
  | cancelActor (pool actor : String)
  /-- Drops what waits for an actor. -/
  | clear (actor : String)
  /-- Shuts a pool down. -/
  | shutdown (pool : String)
  /-- Shuts a pool down and drops what waits there. -/
  | shutdownNow (pool : String)
  /-- Asks whether all workers of a pool have left. -/
  | awaitTermination (pool : String)
  /-- Asks whether two names stand for one pool. -/
  | samePool (pool other : String)
  /-- Makes a pool join a system. -/
  | addPool (system pool : String)
  /-- Asks for the pool at an index, and maybe keeps it under a name. -/
  | poolAt (system : String) (index : Nat) (pool : Option String)
  /-- Asks for the default pool, and maybe keeps it under a name. -/
  | defaultPool (system : String) (pool : Option String)
  /-- Opens a gate. -/
  | openGate (gate : String)
  /-- Moves the clock. -/
  | advance (millis : Nat)
  /-- Makes a handle that has failed. -/
  | fail (recipient : Recipient) (e : ActorError)
  /-- Takes the outcome out of a handle, if it is there. -/
  | take (handle : String)
  /-- Waits for the outcome of a handle, which is used up. -/
  | wait (handle : String)
  /-- Awaits a handle from now on. -/
  | await (handle : String)
  /-- Looks at an actor. -/
  | viewActor (actor : String)
  /-- Looks at the target of an actor. -/
  | viewTarget (actor : String)
  /-- Looks at a pool, and at the records of some owners and of some actors. -/
  | viewPool (pool : String) (owners actors : List String)
  /-- Looks at a system. -/
  | viewSystem (system : String)

/-- A handle of the `n`th copy of a call. -/
def numberedHandle (n : Nat) (handle : String) : String :=
  let number := Text.decimal n
  s!"{handle}.{number}"

/-- The `n`th copy of a call in a repetition: its handle gets the number, and so do the marks in
its texts. -/
def Call.numbered (n : Nat) : Call → Call
  | .send s => .send (s.numbered n)
  | .invoke system handle name action args =>
    .invoke system (numberedHandle n handle) name action args
  | .remove system handle name => .remove system (numberedHandle n handle) name
  | .close actor handle => .close actor (numberedHandle n handle)
  | .terminate system handle => .terminate system (numberedHandle n handle)
  | .fail recipient e => .fail (recipient.numbered n) e
  | .take handle => .take (numberedHandle n handle)
  | .wait handle => .wait (numberedHandle n handle)
  | .await handle => .await (numberedHandle n handle)
  | c => c

/-- What a call is answered with. -/
inductive Response where
  /-- Nothing. -/
  | nothing
  /-- It is done. -/
  | done
  /-- It failed. -/
  | failed (e : Failure)
  /-- Yes or no. -/
  | flag (b : Bool)
  /-- A number. -/
  | count (n : Nat)
  /-- A name, if there is one. -/
  | name (s : Option String)
  /-- The outcome is not there yet. -/
  | pending
  /-- The outcome of a handle. -/
  | outcome (o : Except Failure Json)
  /-- An actor. -/
  | actor (v : ActorView)
  /-- A target. -/
  | target (t : Target)
  /-- A pool. -/
  | pool (v : PoolView)
  /-- A system. -/
  | system (v : SystemView)
  /-- A name stands for nothing. -/
  | unknown (reason : String)

end Troupe
