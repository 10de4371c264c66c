import Troupe.World.Sending

/-!
# Operations in progress

A course advances by one action at a time, on behalf of a run loop, of an operation past the
mailbox, or of a client. An action waits only for a gate or for the end of a run loop that is being
closed.

## Main definitions

* `Runner` — on whose behalf a course advances
* `World.perform` — one action
* `World.stepCourse` — the next move of a course
-/

namespace Troupe

/-- On whose behalf a course advances. -/
inductive Runner where
  /-- The run loop of an actor. -/
  | runLoop (actor : ActorId)
  /-- An operation that went past the mailbox of an actor. -/
  | bypass (actor : ActorId)
  /-- A client. -/
  | client
  deriving Repr, DecidableEq, Inhabited

namespace Runner

/-- The actor whose run loop it is. -/
def runLoop? : Runner → Option ActorId
  | .runLoop a => some a
  | _ => none

/-- The lines that the course works on. -/
def page : Runner → Page
  | .runLoop a | .bypass a => .main a
  | .client => .blank

end Runner

/-- How far a course gets in one move. -/
inductive Progress where
  /-- It goes on. -/
  | goesOn (course : Course)
  /-- It ends. -/
  | ends (ending : Ending)

namespace World

/-- What comes of a name: the course breaks off if it stands for nothing. -/
def withNamed {α : Type} (named : Except String α) (w : World) (f : α → Progress × World) :
    Progress × World :=
  match named with
  | .ok a => f a
  | .error message => (.ends (.broke (.text message)), w)

/-- A course begins to remove the actor that a system knows by a name. -/
def beginRemove (r : Runner) (s : SystemId) (name : String) (rest : Course) (w : World) :
    Progress × World :=
  match (w.system s).registry.find? name with
  | none => (.goesOn { rest with value := .bool false }, w)
  | some entry =>
    let w := w.onSystem s fun system => { system with registry := system.registry.erase name }
    let w := w.report (.removing name (w.system s).name)
    let (wait, w) := w.beginClose r.runLoop? (some s) entry.actor
    (.goesOn { rest with value := .bool true, wait }, w)

/-- One action of a course, whose `rest` is what comes after it. Nothing comes back if the action
waits at a gate. -/
def perform (r : Runner) (action : Action) (rest : Course) (w : World) :
    Option (Progress × World) :=
  match action with
  | .effect e =>
    match e.run w.gates (w.lines r.page) rest.value with
    | .goesOn lines value => some (.goesOn { rest with value }, w.write r.page lines)
    | .ends ending => some (.ends ending, w)
    | .waits => none
  | .close actor => some <| withNamed (w.actorNamed actor) w fun a =>
    let (wait, w) := w.beginClose r.runLoop? none a
    (.goesOn { rest with wait }, w)
  | .clear actor => some <| withNamed (w.actorNamed actor) w fun a =>
    let (count, w) := w.clear a
    (.goesOn { rest with value := .ofNat count }, w)
  | .pending actor => some <| withNamed (w.actorNamed actor) w fun a =>
    (.goesOn { rest with value := .ofNat (w.actor a).pendingCount }, w)
  | .alive actor => some <| withNamed (w.actorNamed actor) w fun a =>
    (.goesOn { rest with value := .bool (w.actor a).isAlive }, w)
  | .remove system name => some <| withNamed (w.systemNamed system) w fun s =>
    w.beginRemove r s name rest
  | .send s => some <| withNamed (w.send s) w fun w => (.goesOn rest, w)

/-- The next move of a course, if it has one: what it waits for comes first, then the next action,
and after the last one the course returns its value. -/
def stepCourse (r : Runner) (c : Course) (w : World) : Option (Progress × World) :=
  match c.wait with
  | some wait =>
    if w.isOver wait then some (.goesOn { c with wait := none }, w.endWait wait) else none
  | none =>
    match c.rest with
    | [] => some (.ends (.returned c.value), w)
    | action :: rest => w.perform r action { c with rest }

end World

end Troupe
