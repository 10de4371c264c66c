import Troupe.Actor

/-!
# Actor systems

A system knows actors by name and pools by index. A name leads to one actor at a time; taking a
name that is in use changes what the name leads to and leaves the earlier actor alone.

## Main definitions

* `Entry`, `Registry` — the actors by name
* `Registry.find?`, `Registry.insert`, `Registry.erase`, `Registry.names` — the operations
* `ActorSystem` — the state of a system

## Main results

* `Registry.find?_insert`, `Registry.find?_erase` — what the names lead to after a change
-/

namespace Troupe

/-- What a name leads to. -/
structure Entry where
  /-- The actor. -/
  actor : ActorId
  /-- Whether it can be invoked by name. -/
  invocable : Bool
  deriving Repr, DecidableEq, Inhabited

/-- The actors of a system by name. -/
structure Registry where
  /-- The names in use, each once. -/
  entries : List (String × Entry) := []
  deriving Repr, DecidableEq, Inhabited

namespace Registry

/-- What a name leads to. -/
def find? (r : Registry) (name : String) : Option Entry := r.entries.lookup name

/-- Makes a name lead to an entry. -/
def insert (name : String) (e : Entry) (r : Registry) : Registry :=
  ⟨r.entries.filter (·.1 != name) ++ [(name, e)]⟩

/-- Makes a name lead nowhere. -/
def erase (name : String) (r : Registry) : Registry := ⟨r.entries.filter (·.1 != name)⟩

/-- The names in use, sorted. -/
def names (r : Registry) : List String :=
  (r.entries.map (·.1)).mergeSort fun a b => decide (a ≤ b)

theorem find?_erase (r : Registry) (name key : String) :
    (r.erase name).find? key = if key = name then none else r.find? key :=
  lookup_filter_ne name key r.entries

theorem find?_insert (r : Registry) (name key : String) (e : Entry) :
    (r.insert name e).find? key = if key = name then some e else r.find? key := by
  simp only [find?, insert, List.lookup_append, lookup_filter_ne]
  by_cases h : key = name
  · simp [h]
  · simp [h, List.lookup_cons, beq_false_of_ne h]

end Registry

/-- The state of a system. -/
structure ActorSystem where
  /-- The name of the system. -/
  name : String
  /-- How long each pool may drain while the system terminates. -/
  grace : Duration
  /-- The settings of the actors that it creates. -/
  actorSettings : ActorSettings
  /-- The actors by name. -/
  registry : Registry := {}
  /-- The pools by index. -/
  pools : List PoolId
  /-- The pool that it was created with. -/
  defaultPool : PoolId
  /-- Whether it has been terminated. -/
  terminated : Bool := false
  /-- Whether anybody still holds it. -/
  held : Bool := true
  deriving Inhabited

end Troupe
