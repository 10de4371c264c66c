import Troupe.World.Members

/-!
# What attempts come to

An error undoes nothing: it comes back with the world as it was when the attempt failed. Attempts
are harmless all the same, since whatever can be refused is refused before anything is done. A
member is where this needs an argument. Its actor exists by the time that it gets its name, and if
it did not get it, the actor would have to be closed again. But the system has been looked at
before, and a new actor terminates no system.

## Main results

* `World.andThen_eq_ok`, `andThen_eq_error` — how attempts go on
* `World.createPool_eq_ok`, `createSystem_eq_ok`, `createActor_eq_ok`, `register_eq_ok`,
  `createMember_eq_ok`, `createChild_eq_ok`, `addPool_eq_ok` — what an attempt that succeeds does
* `World.createPool_eq_error`, `createSystem_eq_error`, `createActor_eq_error`,
  `register_eq_error`, `createMember_eq_error`, `createChild_eq_error`, `addPool_eq_error` — why an
  attempt fails, and that it has changed nothing
* `World.register_of_terminated`, `createMember_of_terminated`, `addPool_of_terminated` — a system
  that has been terminated refuses
-/

namespace Troupe

namespace World

variable {w w' : World} {s : SystemId} {a : ActorId} {name kind key : String} {invocable : Bool}

section Attempts

variable {ε α β : Type} {x : Attempt ε α} {f : α → World → Attempt ε β}

theorem andThen_eq_ok {b : β} :
    andThen x f = (.ok b, w') ↔ ∃ a w₁, x = (.ok a, w₁) ∧ f a w₁ = (.ok b, w') := by
  obtain ⟨_ | a, w₁⟩ := x <;> simp [andThen, and_assoc]

theorem andThen_eq_error {e : ε} :
    andThen x f = (.error e, w') ↔
      x = (.error e, w') ∨ ∃ a w₁, x = (.ok a, w₁) ∧ f a w₁ = (.error e, w') := by
  obtain ⟨_ | a, w₁⟩ := x <;> simp [andThen, and_assoc]

theorem attempt_eq_ok {y : Except ε (α × World)} {a : α} :
    w.attempt y = (.ok a, w') ↔ y = .ok (a, w') := by
  obtain _ | ⟨a, w₁⟩ := y <;> simp [attempt]

theorem attempt_eq_error {y : Except ε (α × World)} {e : ε} :
    w.attempt y = (.error e, w') ↔ y = .error e ∧ w' = w := by
  obtain _ | ⟨a, w₁⟩ := y <;> simp [attempt, eq_comm]

theorem wrapError_eq_ok {ε' : Type} {g : ε → ε'} {a : α} :
    wrapError g x = (.ok a, w') ↔ x = (.ok a, w') := by
  obtain ⟨_ | a, w₁⟩ := x <;> simp [wrapError]

theorem wrapError_eq_error {ε' : Type} {g : ε → ε'} {e : ε'} :
    wrapError g x = (.error e, w') ↔ ∃ e', x = (.error e', w') ∧ e = g e' := by
  obtain ⟨_ | a, w₁⟩ := x <;> simp [wrapError, eq_comm, and_right_comm]

end Attempts

/-! ### Looking first -/

theorem checkRunning_eq_ok {u : Unit} (h : w.checkRunning s = (.ok u, w')) :
    (w.system s).terminated = false ∧ w' = w := by
  rw [checkRunning] at h
  split at h
  · cases h
  · rename_i hterm
    cases h
    exact ⟨Bool.eq_false_iff.mpr hterm, rfl⟩

theorem checkRunning_eq_error {e : ActorError} (h : w.checkRunning s = (.error e, w')) :
    (w.system s).terminated = true ∧ e = .terminated (w.system s).name ∧ w' = w := by
  rw [checkRunning] at h
  split at h
  · rename_i hterm
    cases h
    exact ⟨hterm, rfl, rfl⟩
  · cases h

theorem checkRunning_of_terminated (h : (w.system s).terminated = true) :
    w.checkRunning s = (.error (.terminated (w.system s).name), w) := by
  rw [checkRunning, if_pos h]

/-! ### Pools and systems -/

section Pools

variable {size workers : Nat} {grace : Duration} {settings : ActorSettings} {p : PoolId}

theorem createPool_eq_ok (h : w.createPool name size = (.ok p, w')) :
    ∃ pool, Pool.create name size = .ok pool ∧ p = w.pools.length ∧
      w' = report (.poolStarted name size) { w with pools := w.pools ++ [{ pool }] } := by
  obtain ⟨pool, w₁, hcreate, h⟩ := andThen_eq_ok.mp h
  obtain ⟨hpool, rfl⟩ := Prod.mk.inj hcreate
  cases h
  exact ⟨pool, hpool, rfl, rfl⟩

/-- Every pool has a worker. -/
theorem createPool_eq_error {e : PoolError} (h : w.createPool name size = (.error e, w')) :
    size = 0 ∧ e = .invalidSize ∧ w' = w := by
  rcases andThen_eq_error.mp h with hcreate | ⟨_, _, -, h⟩
  · obtain ⟨hpool, rfl⟩ := Prod.mk.inj hcreate
    rw [Pool.create] at hpool
    split at hpool
    · rename_i hsize
      exact ⟨hsize, (Except.error.inj hpool).symm, rfl⟩
    · cases hpool
  · cases h

/-- A system comes with its default pool. -/
theorem createSystem_eq_ok (h : w.createSystem name workers grace settings = (.ok s, w')) :
    ∃ p w₁, w.createPool name workers = (.ok p, w₁) ∧ s = w₁.systems.length ∧
      w' = report (.systemCreated name) { w₁ with systems := w₁.systems ++
        [{ name, grace, actorSettings := settings, pools := [p], defaultPool := p }] } := by
  obtain ⟨p, w₁, hpool, h⟩ := andThen_eq_ok.mp h
  cases h
  exact ⟨p, w₁, wrapError_eq_ok.mp hpool, rfl, rfl⟩

theorem createSystem_eq_error {e : ActorError}
    (h : w.createSystem name workers grace settings = (.error e, w')) :
    workers = 0 ∧ e = .ofPool .invalidSize ∧ w' = w := by
  rcases andThen_eq_error.mp h with hpool | ⟨_, _, -, h⟩
  · obtain ⟨e', hcreate, rfl⟩ := wrapError_eq_error.mp hpool
    obtain ⟨hworkers, rfl, hw⟩ := createPool_eq_error hcreate
    exact ⟨hworkers, rfl, hw⟩
  · cases h

theorem addPool_eq_ok {index : Nat} (h : w.addPool s p = (.ok index, w')) :
    (w.system s).terminated = false ∧ ∃ notice,
      w' = report notice
        (w.onSystem s fun system => { system with pools := system.pools ++ [p] }) := by
  rw [addPool, andThen_eq_ok] at h
  obtain ⟨_, w₁, hcheck, h⟩ := h
  obtain ⟨hterm, rfl⟩ := checkRunning_eq_ok hcheck
  cases h
  exact ⟨hterm, _, rfl⟩

theorem addPool_eq_error {e : ActorError} (h : w.addPool s p = (.error e, w')) :
    (w.system s).terminated = true ∧ e = .terminated (w.system s).name ∧ w' = w := by
  rcases andThen_eq_error.mp h with hcheck | ⟨_, _, -, h⟩
  · exact checkRunning_eq_error hcheck
  · cases h

theorem addPool_of_terminated (h : (w.system s).terminated = true) (p : PoolId) :
    w.addPool s p = (.error (.terminated (w.system s).name), w) := by
  rw [addPool, checkRunning_of_terminated h]
  rfl

end Pools

/-! ### Actors and their names -/

/-- What a new actor is like. -/
theorem createActor_eq_ok {settings : ActorSettings}
    (h : w.createActor name kind settings = .ok (a, w')) :
    w.hosted = true ∧ a = w.actors.length ∧ ∃ owner, owner = s!"{name}#{Text.decimal a}" ∧
      w' = report (.actorCreated name owner) (report .runnerCreated
        { w with actors := w.actors ++ [{ name, owner, kind, settings }] }) := by
  rw [createActor] at h
  split at h
  · rename_i hhosted
    cases h
    exact ⟨hhosted, rfl, _, rfl, rfl⟩
  · cases h

theorem createActor_eq_error {settings : ActorSettings} {e : ActorError}
    (h : w.createActor name kind settings = .error e) :
    w.hosted = false ∧ e = .runtime "nothing is there to run it" := by
  rw [createActor] at h
  split at h
  · cases h
  · rename_i hhosted
    cases h
    exact ⟨Bool.eq_false_iff.mpr hhosted, rfl⟩

theorem register_eq_ok {u : Unit} (h : w.register s key a invocable = (.ok u, w')) :
    (w.system s).terminated = false ∧ ∃ notice, w' = report notice
      ((w.onActor a fun actor =>
        { actor with registration := some { system := s, key } }).onSystem s fun system =>
          { system with registry := system.registry.insert key { actor := a, invocable } }) := by
  rw [register, andThen_eq_ok] at h
  obtain ⟨_, w₁, hcheck, h⟩ := h
  obtain ⟨hterm, rfl⟩ := checkRunning_eq_ok hcheck
  cases h
  exact ⟨hterm, _, rfl⟩

theorem register_eq_error {e : ActorError} (h : w.register s key a invocable = (.error e, w')) :
    (w.system s).terminated = true ∧ e = .terminated (w.system s).name ∧ w' = w := by
  rcases andThen_eq_error.mp h with hcheck | ⟨_, _, -, h⟩
  · exact checkRunning_eq_error hcheck
  · cases h

theorem register_of_terminated (h : (w.system s).terminated = true) (key : String) (a : ActorId)
    (invocable : Bool) :
    w.register s key a invocable = (.error (.terminated (w.system s).name), w) := by
  rw [register, checkRunning_of_terminated h]
  rfl

theorem registerOrClose_eq_ok {u : Unit}
    (h : w.registerOrClose s key a invocable = (.ok u, w')) :
    w.register s key a invocable = (.ok u, w') := by
  rw [registerOrClose] at h
  split at h
  · rename_i hregister
    cases h
    exact hregister
  · cases h

/-- Only a system that has been terminated has an actor closed that was to get a name in it. -/
theorem terminated_of_registerOrClose {e : ActorError}
    (h : w.registerOrClose s key a invocable = (.error e, w')) :
    (w.system s).terminated = true := by
  rw [registerOrClose] at h
  split at h
  · cases h
  · rename_i hregister
    exact (register_eq_error hregister).1

/-- A member is an actor that gets a name. -/
theorem createMember_eq_ok (h : w.createMember s name kind invocable = (.ok a, w')) :
    ∃ w₁, w.createActor name kind (w.system s).actorSettings = .ok (a, w₁) ∧
      w₁.register s name a invocable = (.ok (), w') := by
  rw [createMember, andThen_eq_ok] at h
  obtain ⟨_, w₀, hcheck, h⟩ := h
  obtain ⟨-, rfl⟩ := checkRunning_eq_ok hcheck
  obtain ⟨b, w₁, hcreate, h⟩ := andThen_eq_ok.mp h
  obtain ⟨_, w₂, hregister, h⟩ := andThen_eq_ok.mp h
  cases h
  exact ⟨w₁, attempt_eq_ok.mp hcreate, registerOrClose_eq_ok hregister⟩

/-- **A member cannot be created** in a system that has been terminated, or where nothing runs it.
Where its actor can be created, it gets its name, so that no actor is left behind. -/
theorem createMember_eq_error {e : ActorError}
    (h : w.createMember s name kind invocable = (.error e, w')) :
    ((w.system s).terminated = true ∧ e = .terminated (w.system s).name ∨
      w.hosted = false ∧ e = .runtime "nothing is there to run it") ∧ w' = w := by
  rw [createMember, andThen_eq_error] at h
  rcases h with hcheck | ⟨_, w₀, hcheck, h⟩
  · obtain ⟨hterm, he, hw⟩ := checkRunning_eq_error hcheck
    exact ⟨.inl ⟨hterm, he⟩, hw⟩
  · obtain ⟨hrunning, rfl⟩ := checkRunning_eq_ok hcheck
    rcases andThen_eq_error.mp h with hcreate | ⟨b, w₁, hcreate, h⟩
    · obtain ⟨herror, hw⟩ := attempt_eq_error.mp hcreate
      exact ⟨.inr (createActor_eq_error herror), hw⟩
    · rcases andThen_eq_error.mp h with hregister | ⟨_, _, -, h⟩
      · -- The system would have been terminated by the creation of an actor.
        obtain ⟨-, -, _, -, rfl⟩ := createActor_eq_ok (attempt_eq_ok.mp hcreate)
        have hterm := terminated_of_registerOrClose hregister
        exact absurd (hrunning.symm.trans hterm) Bool.false_ne_true
      · cases h

theorem createMember_of_terminated (h : (w.system s).terminated = true) (name kind : String)
    (invocable : Bool) :
    w.createMember s name kind invocable = (.error (.terminated (w.system s).name), w) := by
  rw [createMember, checkRunning_of_terminated h]
  rfl

/-- A child is a member of the system of its parent. -/
theorem createChild_eq_ok {parent : ActorId} (h : w.createChild parent name kind = (.ok a, w')) :
    ∃ s w₁, w.systemOf parent = some s ∧ w.createMember s name kind false = (.ok a, w₁) ∧
      w' = (w₁.onActor a fun actor =>
        { actor with parent := some (w₁.actor parent).name }).onActor parent (·.adopt name) := by
  rw [createChild] at h
  cases hsystem : w.systemOf parent with
  | none =>
    rw [hsystem] at h
    cases h
  | some s =>
    rw [hsystem] at h
    obtain ⟨b, w₁, hcreate, h⟩ := andThen_eq_ok.mp h
    cases h
    exact ⟨s, w₁, rfl, hcreate, rfl⟩

/-- A child cannot be created if it cannot become a member, or if its parent is in no system. -/
theorem createChild_eq_error {parent : ActorId} {e : ActorError}
    (h : w.createChild parent name kind = (.error e, w')) :
    w.systemOf parent = none ∧ e = .detached (w.actor parent).name ∧ w' = w ∨
      ∃ s, w.systemOf parent = some s ∧ w.createMember s name kind false = (.error e, w') := by
  rw [createChild] at h
  cases hsystem : w.systemOf parent with
  | none =>
    rw [hsystem] at h
    cases h
    exact .inl ⟨rfl, rfl, rfl⟩
  | some s =>
    rw [hsystem] at h
    rcases andThen_eq_error.mp h with hmember | ⟨_, _, -, h⟩
    · exact .inr ⟨s, rfl, hmember⟩
    · cases h

theorem same_of_createChild_error {parent : ActorId} {e : ActorError}
    (h : w.createChild parent name kind = (.error e, w')) : w' = w := by
  rcases createChild_eq_error h with ⟨-, -, hw⟩ | ⟨s, -, hmember⟩
  · exact hw
  · exact (createMember_eq_error hmember).2

end World

end Troupe
