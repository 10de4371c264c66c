import Troupe.Session.Call
import Troupe.World.Settling

/-!
# Sessions

A session is a list of calls, each of which may be repeated. After every call the world settles, so
an answer describes a quiet world. With the answer come the handles that were settled meanwhile
and, if wanted, what was reported.

## Main definitions

* `World.call` — one call, and what it is answered with
* `World.collect` — the settled handles that somebody awaits
* `Session.run` — the reports on all steps of a session
-/

namespace Troupe

namespace World

/-! ### Names -/

/-- Keeps an actor under a name. -/
def bindActor (name : String) (a : ActorId) (w : World) : World :=
  { w with names.actors := rebind name a w.names.actors }

/-- Keeps an actor under the name that it was made under. -/
def bindMade (name : String) (a : ActorId) (w : World) : World :=
  { w.bindActor name a with names.made := rebind name a w.names.made }

/-- Keeps a system under a name. -/
def bindSystem (name : String) (s : SystemId) (w : World) : World :=
  { w with names.systems := rebind name s w.names.systems }

/-- Keeps a pool under a name. -/
def bindPool (name : String) (p : PoolId) (w : World) : World :=
  { w with names.pools := rebind name p w.names.pools }

/-- The handle that is kept under a name. -/
def handleNamed (w : World) (name : String) : Except String HandleRef :=
  (w.names.held.lookup name).elim (.error s!"no held handle {name}") .ok

/-- The actor whose target was made under a name. -/
def targetNamed (w : World) (name : String) : Except String ActorId :=
  (w.names.made.lookup name).elim (w.actorNamed name) .ok

/-! ### Calls -/

/-- What a call that creates something answers: it binds the name, or fails. -/
def created {ε α : Type} (failure : ε → Failure) (keep : α → World → World) :
    Attempt ε α → Response × World
  | (.ok a, w) => (.done, keep a w)
  | (.error e, w) => (.failed (failure e), w)

/-- Begins what takes its time, under a handle that somebody awaits. -/
def inBackground (handle : String) (f : HandleId → World → World) (w : World) :
    Response × World :=
  let (h, w) := w.newHandle {}
  (.nothing, f h (w.hand (.watched handle) (.operation h)))

/-- The answer with the name of a pool, which is kept if wanted. -/
def foundPool (p : PoolId) (keep : Option String) (w : World) : Response × World :=
  (.name (some (w.pool p).name), keep.elim w fun name => w.bindPool name p)

/-- One call, before anything moves. Fails if a name stands for nothing. -/
def answer (c : Call) (w : World) : Except String (Response × World) := do
  match c with
  | .send s => return (.nothing, ← w.send s)
  | .createPool pool name size =>
    return (w.createPool name size |> created .pool (bindPool pool))
  | .createSystem system name workers grace actorSettings =>
    return (w.createSystem name workers grace actorSettings
      |> created .actor (bindSystem system))
  | .createActor actor name kind settings =>
    return (w.attempt (w.createActor name kind settings) |> created .actor (bindMade actor))
  | .createMember system actor name kind invocable =>
    let s ← w.systemNamed system
    return (w.createMember s name kind invocable |> created .actor (bindMade actor))
  | .createChild parent actor name kind =>
    let a ← w.actorNamed parent
    return (w.createChild a name kind |> created .actor (bindMade actor))
  | .attach system actor name invocable =>
    let s ← w.systemNamed system
    let a ← w.actorNamed actor
    return (w.register s (name.getD (w.actor a).name) a invocable |> created .actor fun _ w => w)
  | .get system name kind actor =>
    let s ← w.systemNamed system
    match w.findActor s name kind with
    | none => return (.name none, w)
    | some a =>
      return (.name (some (w.actor a).owner), actor.elim w fun actor => w.bindActor actor a)
  | .contains system name => return (.flag (w.knowsActor (← w.systemNamed system) name), w)
  | .invoke system handle name action args =>
    let s ← w.systemNamed system
    return w.inBackground handle fun h => invokeByName s name action args h
  | .remove system handle name =>
    let _ ← w.systemNamed system
    return w.inBackground handle fun h =>
      spawn (.errand h { rest := [.remove system name], answer := .value })
  | .close actor handle =>
    let _ ← w.actorNamed actor
    return w.inBackground handle fun h =>
      spawn (.errand h { rest := [.close actor], answer := .unit })
  | .terminate system handle =>
    let s ← w.systemNamed system
    return w.inBackground handle fun h => spawn (.termination h s .starting)
  | .dropActor actor =>
    return (.flag (w.names.actors.any (·.1 == actor)),
      { w with names.actors := w.names.actors.filter (·.1 != actor) })
  | .dropSystem system =>
    return (.flag (w.names.systems.any (·.1 == system)),
      { w with names.systems := w.names.systems.filter (·.1 != system) })
  | .cancel pool owner =>
    let (count, w) := w.cancelJobs owner (← w.poolNamed pool)
    return (.count count, w)
  | .cancelActor pool actor =>
    let p ← w.poolNamed pool
    let a ← w.actorNamed actor
    let (count, w) := w.cancelJobs (w.actor a).owner p
    return (.count count, w)
  | .clear actor =>
    let (count, w) := w.clear (← w.actorNamed actor)
    return (.count count, w)
  | .shutdown pool => return (.nothing, w.stopPool (← w.poolNamed pool))
  | .shutdownNow pool =>
    let (count, w) := w.emptyPool (← w.poolNamed pool)
    return (.count count, w)
  | .awaitTermination pool => return (.flag (w.pool (← w.poolNamed pool)).isTerminated, w)
  | .samePool pool other =>
    return (.flag ((← w.poolNamed pool) == (← w.poolNamed other)), w)
  | .addPool system pool =>
    let s ← w.systemNamed system
    let p ← w.poolNamed pool
    match w.addPool s p with
    | (.ok index, w) => return (.count index, w)
    | (.error e, w) => return (.failed (.actor e), w)
  | .poolAt system index pool =>
    let s ← w.systemNamed system
    match (w.system s).pools[index]? with
    | none => return (.name none, w)
    | some p => return w.foundPool p pool
  | .defaultPool system pool =>
    let s ← w.systemNamed system
    return w.foundPool (w.system s).defaultPool pool
  | .openGate gate => return (.nothing, { w with gates := gate :: w.gates })
  | .advance millis => return (.nothing, { w with clock := w.clock + millis })
  | .fail recipient e =>
    let (h, w) := w.newHandle (.settled (.error e))
    return (.nothing, w.hand recipient (.operation h))
  | .take handle =>
    let r ← w.handleNamed handle
    return ((w.look r).elim .pending .outcome, w.drain r)
  | .wait handle =>
    let r ← w.handleNamed handle
    return ((w.look r).elim .pending .outcome,
      { w with names.held := w.names.held.filter (·.1 != handle) })
  | .await handle =>
    let r ← w.handleNamed handle
    let w := { w with names.held := w.names.held.filter (·.1 != handle) }
    return (.nothing, w.hand (.watched handle) r)
  | .viewActor actor => return (.actor (w.viewActor (← w.actorNamed actor)), w)
  | .viewTarget actor => return (.target (w.actor (← w.targetNamed actor)).target, w)
  | .viewPool pool owners actors =>
    let p ← w.poolNamed pool
    let tags ← actors.mapM fun name => do
      let a ← w.actorNamed name
      return (s!"@{name}", (w.actor a).owner)
    return (.pool (w.viewPool p (owners.map (fun owner => (owner, owner)) ++ tags)), w)
  | .viewSystem system => return (.system (w.viewSystem (← w.systemNamed system)), w)

/-- One call, after which what nobody holds is let go. -/
def call (c : Call) (w : World) : Response × World :=
  match w.answer c with
  | .ok (response, w) => (response, w.release)
  | .error reason => (.unknown reason, w)

/-! ### What a client gets to see -/

/-- The outcome of a handle that somebody awaits, if it is there. -/
def settledHandle (w : World) (x : String × HandleRef) : Option (String × Except Failure Json) :=
  (w.look x.2).map fun o => (x.1, o)

/-- Hands out the settled handles that somebody awaits, sorted by name. -/
def collect (w : World) : List (String × Except Failure Json) × World :=
  let settled := w.names.watched.filterMap w.settledHandle
  (settled.mergeSort fun x y => decide (x.1 ≤ y.1),
    { w with names.watched := w.names.watched.filter fun x => (w.settledHandle x).isNone })

/-- Hands out what was reported, in the order of the lines. -/
def takeNotices (w : World) : List Notice × World :=
  (w.notices.mergeSort fun m n => decide (m.line ≤ n.line), { w with notices := [] })

end World

/-! ### Sessions -/

/-- A step of a session. -/
structure Step where
  /-- The call. -/
  call : Call
  /-- How often it is made, each copy with its number; once and as it is where nothing is given. -/
  times : Option Nat := none

/-- What a client is told after a step. -/
structure Report where
  /-- The answer. -/
  response : Response
  /-- The handles that were settled. -/
  settled : List (String × Except Failure Json)
  /-- What was reported. -/
  notices : List Notice

namespace Step

/-- The calls of a step, in turn. -/
def calls (s : Step) : List Call :=
  match s.times with
  | none => [s.call]
  | some n => (List.range n).map fun i => s.call.numbered i

/-- Several calls, after each of which the world settles. The answer is that of the last one. -/
def runCalls (calls : List Call) (w : World) : Response × World :=
  calls.foldl (fun (_, w) c =>
    let (response, w) := w.call c
    (response, w.settle)) (.nothing, w)

/-- One step, and the report on it. -/
def run (s : Step) (w : World) : Report × World :=
  let (response, w) := runCalls s.calls w
  let (settled, w) := w.collect
  let (notices, w) := w.takeNotices
  ({ response, settled, notices }, w)

end Step

/-- The steps of a client. -/
abbrev Session := List Step

/-- The reports on all steps, from a world on. -/
def Session.runFrom : Session → World → List Report
  | [], _ => []
  | s :: rest, w =>
    let (report, w) := s.run w
    report :: Session.runFrom rest w

/-- The reports on all steps, in a world of its own. -/
def Session.run (session : Session) : List Report := session.runFrom {}

end Troupe
