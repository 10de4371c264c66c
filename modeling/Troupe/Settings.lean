import Troupe.Duration

/-!
# Settings

The settings of actors, worker pools and actor systems. Where a number of workers is not given, the
machine decides, and the settings say no more than that. Settings are read from JSON with every
field optional: what is not given keeps its default.

## Main definitions

* `Workers` — a number of workers, or the machine's own
* `ActorSettings`, `PoolSettings`, `SystemSettings` — the settings
* `PoolSettings.agrees` — equality, where it can be told on every machine
* `ActorSettings.toJson`, `ActorSettings.decoder`, `SystemSettings.toJson`,
  `SystemSettings.decoder` — the JSON forms
-/

namespace Troupe

/-- How many workers a pool has. -/
inductive Workers where
  /-- As many as the machine has processors. -/
  | perProcessor
  /-- A given number. -/
  | exactly (n : Nat)
  deriving Repr, DecidableEq, Inhabited

namespace Workers

/-- Whether a number was given. -/
def isGiven : Workers → Bool
  | .perProcessor => false
  | .exactly _ => true

/-- The JSON form, given what to write where the machine decides. -/
def toJson (machine : Json) : Workers → Json
  | .perProcessor => machine
  | .exactly n => .ofNat n

end Workers

/-! ### Actors -/

/-- The settings of an actor. -/
structure ActorSettings where
  /-- How long a close waits for the run loop before it aborts it. -/
  closeTimeout : Duration := .ofSecs 10
  deriving Repr, DecidableEq, Inhabited

namespace ActorSettings

/-- The JSON form. -/
def toJson (s : ActorSettings) : Json := .obj [("close_timeout", s.closeTimeout.toJson)]

/-- The fields read so far. -/
structure Draft where
  /-- The close timeout, once read. -/
  closeTimeout : Option Duration := none

/-- The settings of a draft. -/
def Draft.settings (d : Draft) : ActorSettings :=
  { closeTimeout := d.closeTimeout.getD ({} : ActorSettings).closeTimeout }

/-- The JSON shape. -/
def shape : Json.RecordShape Draft ActorSettings where
  fields :=
    [{ name := "close_timeout"
       given := (·.closeTimeout.isSome)
       decoder := Duration.decoder.map fun t d => { d with closeTimeout := some t } }]
  tolerant := true
  blank := {}
  complete d := some d.settings

/-- Reads settings of an actor. -/
def decoder : Json.Decoder ActorSettings := .record shape

end ActorSettings

/-! ### Pools -/

/-- The settings of a worker pool. -/
structure PoolSettings where
  /-- The name of the pool. -/
  name : String := "workpool"
  /-- The number of workers. -/
  workers : Workers := .perProcessor
  deriving Repr, DecidableEq, Inhabited

/-- Whether two settings are equal, if that does not depend on the machine. -/
def PoolSettings.agrees (s t : PoolSettings) : Option Bool :=
  if s.workers.isGiven == t.workers.isGiven then some (s == t) else none

/-! ### Systems -/

/-- The settings of an actor system. -/
structure SystemSettings where
  /-- The name of the system and of its default pool. -/
  name : String := "system"
  /-- The number of workers of the default pool. -/
  workers : Workers := .perProcessor
  /-- How long each pool may drain while the system terminates. -/
  grace : Duration := .ofSecs 30
  /-- The settings of the actors that the system creates. -/
  actor : ActorSettings := {}
  deriving Repr, DecidableEq, Inhabited

namespace SystemSettings

/-- The JSON form, given what to write for a number of workers that the machine decides. -/
def toJson (machine : Json) (s : SystemSettings) : Json :=
  .obj [("name", .str s.name), ("default_pool_workers", s.workers.toJson machine),
    ("pool_shutdown_timeout", s.grace.toJson), ("actor", s.actor.toJson)]

/-- Whether the settings are the defaults, if that does not depend on the machine. -/
def isDefault (s : SystemSettings) : Option Bool :=
  if s.workers.isGiven then none else some (s == {})

/-- The fields read so far. -/
structure Draft where
  /-- The name, once read. -/
  name : Option String := none
  /-- The number of workers, once read. -/
  workers : Option Nat := none
  /-- The grace period, once read. -/
  grace : Option Duration := none
  /-- The settings of actors, once read. -/
  actor : Option ActorSettings := none

/-- The settings of a draft. -/
def Draft.settings (d : Draft) : SystemSettings where
  name := d.name.getD ({} : SystemSettings).name
  workers := (d.workers.map .exactly).getD ({} : SystemSettings).workers
  grace := d.grace.getD ({} : SystemSettings).grace
  actor := d.actor.getD {}

/-- The JSON shape. -/
def shape : Json.RecordShape Draft SystemSettings where
  fields :=
    [{ name := "name"
       given := (·.name.isSome)
       decoder := Json.Decoder.text.map fun s d => { d with name := some s } },
     { name := "default_pool_workers"
       given := (·.workers.isSome)
       decoder := (Json.Decoder.count Json.wordMax).map fun n d => { d with workers := some n } },
     { name := "pool_shutdown_timeout"
       given := (·.grace.isSome)
       decoder := Duration.decoder.map fun t d => { d with grace := some t } },
     { name := "actor"
       given := (·.actor.isSome)
       decoder := ActorSettings.decoder.map fun a d => { d with actor := some a } }]
  tolerant := true
  blank := {}
  complete d := some d.settings

/-- Reads settings of a system. -/
def decoder : Json.Decoder SystemSettings := .record shape

end SystemSettings

end Troupe
