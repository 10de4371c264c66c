import Troupe.Proofs.Pool.Bookkeeping
import Troupe.World.Moves

/-!
# Scenes and deeds

Most of a world does not matter for the questions of who waits, who runs and who was told: neither
the lines that bodies work on nor clocks, gates and notices do. A scene is what is left without
them. A handle shows in it by what its channel holds, and is held by an envelope, by what a run
loop is inside of, or by a task.

What happens in a scene is made of deeds. A deed says exactly what may have been the case before it
and what it changes, and the deeds are few, so an invariant is proved by going through them once.
The functions on worlds are described by the deeds that they do, in order. Some deeds leave a mark,
which tells from outside what has been done.

## Main definitions

* `Lane`, `Scene` — what matters of an actor, and of a world
* `Mark`, `Deed`, `Deeds` — what happens in a scene
* `World.scene` — the scene of a world
-/

namespace Troupe

/-- The tag of the pool jobs of an actor. -/
def ownerTag (name : String) (a : ActorId) : String := s!"{name}#{Text.decimal a}"

/-! ### Lanes -/

/-- What matters of an actor. -/
structure Lane where
  /-- Its name. -/
  name : String
  /-- The tag of its pool jobs. -/
  owner : String
  /-- What waits, the next one first. -/
  queue : List Envelope
  /-- Whether the mailbox takes nothing more. -/
  shut : Bool
  /-- Whether a close has begun. -/
  closed : Bool
  /-- Whether the run loop is to stop. -/
  stopping : Bool
  /-- The run loop. -/
  loop : Loop
  /-- The pools it has used. -/
  pools : List PoolId
  deriving Inhabited

namespace Lane

/-- The handle of what the run loop is inside of. -/
def current (l : Lane) : List HandleId :=
  match l.loop with
  | .inside i => [i.handle]
  | _ => []

theorem current_of_inside {l : Lane} {i : Inside} (h : l.loop = .inside i) :
    l.current = [i.handle] := by
  rw [current, h]

/-- The handles of what waits. -/
def waiting (l : Lane) : List HandleId := l.queue.map Envelope.handle

/-- The handles that are still to be resolved, in the order of the mailbox. -/
def handles (l : Lane) : List HandleId := l.current ++ l.waiting

theorem mem_handles_of_inside {l : Lane} {i : Inside} (h : l.loop = .inside i) :
    i.handle ∈ l.handles := by
  rw [handles, current_of_inside h]
  exact List.mem_cons_self

/-- What the operation on the run loop waits for. -/
def wait? (l : Lane) : Option Wait := l.loop.course?.bind (·.wait)

/-- A relay is still in its place. -/
def Relays (l : Lane) (h : HandleId) (p : PoolId) (j : JobId) : Prop :=
  l.loop = .inside (.relay h p j) ∨ .relay h p j ∈ l.queue

theorem Relays.mem_handles {l : Lane} {h : HandleId} {p : PoolId} {j : JobId}
    (hr : l.Relays h p j) : h ∈ l.handles :=
  hr.elim mem_handles_of_inside fun hqueue =>
    List.mem_append_right _ (List.mem_map_of_mem (f := Envelope.handle) hqueue)

/-- Remembers that a pool was used. -/
def remember (p : PoolId) (l : Lane) : Lane :=
  if p ∈ l.pools then l else { l with pools := l.pools ++ [p] }

/-- Nothing but the pools changes. -/
theorem remember_eq (p : PoolId) (l : Lane) :
    l.remember p = { l with pools := (l.remember p).pools } := by
  rw [remember]
  split <;> rfl

theorem subset_pools_remember (p : PoolId) (l : Lane) : l.pools ⊆ (l.remember p).pools := by
  rw [remember]
  split
  · exact List.Subset.refl _
  · exact List.subset_append_left _ _

theorem mem_pools_remember (p : PoolId) (l : Lane) : p ∈ (l.remember p).pools := by
  rw [remember]
  split
  · assumption
  · exact List.mem_append_right _ (List.mem_singleton_self p)

/-- The lane of an actor that has just been created. -/
structure IsNew (l : Lane) : Prop where
  /-- Nothing waits. -/
  queue : l.queue = []
  /-- It takes envelopes. -/
  shut : l.shut = false
  /-- It is open. -/
  closed : l.closed = false
  /-- It is not to stop. -/
  stopping : l.stopping = false
  /-- It has not begun. -/
  loop : l.loop = .starting
  /-- It has used no pool. -/
  pools : l.pools = []

end Lane

/-- What matters of an actor. -/
def Actor.lane (a : Actor) : Lane where
  name := a.name
  owner := a.owner
  queue := a.mailbox.queue
  shut := a.mailbox.closed
  closed := a.closed
  stopping := a.stopping
  loop := a.loop
  pools := a.pools

/-- Where a run loop begins with an envelope. -/
def Envelope.inside : Envelope → Inside
  | .operation h body answer => .operation h { rest := body, answer }
  | .relay h p j => .relay h p j

@[simp] theorem Envelope.handle_inside (e : Envelope) : e.inside.handle = e.handle := by
  cases e <;> rfl

/-- The handle that a task is to resolve. -/
def Task.handle : Task → HandleId
  | .bypass _ h _ | .errand h _ | .invocation h _ _ _ | .termination h _ _ => h

/-! ### Scenes -/

/-- What matters of a world. -/
structure Scene where
  /-- The lanes of all actors. -/
  lanes : List Lane
  /-- What the channels of all operations hold. -/
  contents : List (Content (Except ActorError Json))
  /-- The tasks in progress. -/
  tasks : List (TaskId × Task)
  /-- The number of the next task. -/
  taskCount : Nat
  /-- The pools. -/
  pools : List (Pool Work Json)
  /-- The actors that clients or systems hold. -/
  held : List ActorId
  /-- The pools that clients or systems hold. -/
  wells : List PoolId

namespace Scene

/-- The lane of an actor. -/
def lane (s : Scene) (a : ActorId) : Lane := s.lanes[a]?.getD default

/-- What the channel of an operation holds. -/
def content (s : Scene) (h : HandleId) : Content (Except ActorError Json) :=
  s.contents[h]?.getD .lost

/-- A pool. -/
def pool (s : Scene) (p : PoolId) : Pool Work Json :=
  s.pools[p]?.getD { name := "", size := 0, crew := [], live := 0 }

/-- The handles that somebody is to resolve. -/
def holders (s : Scene) : List HandleId :=
  s.lanes.flatMap Lane.handles ++ s.tasks.map fun x => x.2.handle

/-- Whether anybody holds an actor. -/
def Holds (s : Scene) (a : ActorId) : Prop :=
  a ∈ s.held ∨ ∃ x ∈ s.tasks, x.2.holdsActor a = true

/-- Changes a lane. -/
def onLane (a : ActorId) (f : Lane → Lane) (s : Scene) : Scene :=
  { s with lanes := s.lanes.modify a f }

/-- Tells some run loops to stop. -/
def stopAll (A : ActorId → Bool) (s : Scene) : Scene :=
  { s with
    lanes := s.lanes.mapIdx fun a l => if A a then { l with stopping := true } else l }

/-- Changes what a channel holds. -/
def onContent (h : HandleId)
    (f : Content (Except ActorError Json) → Content (Except ActorError Json)) (s : Scene) :
    Scene :=
  { s with contents := s.contents.modify h f }

/-- Ends the producers of several channels. -/
def settleAll (hs : List HandleId) (c : Content (Except ActorError Json)) (s : Scene) : Scene :=
  hs.foldl (fun s h => s.onContent h (·.settle c)) s

/-- Something happens to a pool. -/
def onPool (p : PoolId) (e : Pool.Event Work Json) (s : Scene) : Scene :=
  { s with pools := s.pools.modify p (·.apply e) }

/-- A new handle. -/
def grow (c : Content (Except ActorError Json)) (s : Scene) : Scene :=
  { s with contents := s.contents ++ [c] }

/-- A task begins. -/
def spawn (t : Task) (s : Scene) : Scene :=
  { s with tasks := s.tasks ++ [(s.taskCount, t)], taskCount := s.taskCount + 1 }

/-- A task gets further. -/
def setTask (i : TaskId) (t : Task) (s : Scene) : Scene :=
  { s with tasks := s.tasks.map fun (k, old) => (k, if k = i then t else old) }

/-- A task ends. -/
def endTask (i : TaskId) (s : Scene) : Scene :=
  { s with tasks := s.tasks.filter (·.1 != i) }

variable {s : Scene}

/-! ### Looking at a scene after a change -/

theorem lane_onLane (a b : ActorId) (f : Lane → Lane) :
    (s.onLane a f).lane b =
      if b = a ∧ a < s.lanes.length then f (s.lane a) else s.lane b := by
  rw [lane, onLane, List.getElem?_modify]
  by_cases hb : a = b
  · subst hb
    by_cases hlt : a < s.lanes.length
    · simp [lane, hlt]
    · simp [lane, hlt]
  · simp [lane, hb, Ne.symm hb]

theorem lane_of_le {a : ActorId} (h : s.lanes.length ≤ a) : s.lane a = default := by
  simp [lane, List.getElem?_eq_none h]

/-- Only what a change makes of the lane itself matters. -/
theorem onLane_congr {a : ActorId} {f g : Lane → Lane} (h : f (s.lane a) = g (s.lane a)) :
    s.onLane a f = s.onLane a g := by
  have hlanes : s.lanes.modify a f = s.lanes.modify a g := by
    refine List.ext_getElem? fun b => ?_
    rw [List.getElem?_modify, List.getElem?_modify]
    split
    · rename_i hab
      subst hab
      cases hl : s.lanes[a]? with
      | none => rfl
      | some l => simpa [lane, hl] using h
    · rfl
  rw [onLane, onLane, hlanes]

@[simp] theorem length_lanes_onLane (a : ActorId) (f : Lane → Lane) :
    (s.onLane a f).lanes.length = s.lanes.length :=
  List.length_modify ..

theorem lane_stopAll (A : ActorId → Bool) (a : ActorId) :
    (s.stopAll A).lane a =
      if A a = true ∧ a < s.lanes.length then { s.lane a with stopping := true }
      else s.lane a := by
  rw [lane, stopAll, List.getElem?_mapIdx]
  by_cases hlt : a < s.lanes.length
  · cases A a <;> simp [lane, hlt]
  · simp [lane, hlt]

@[simp] theorem length_lanes_stopAll (A : ActorId → Bool) :
    (s.stopAll A).lanes.length = s.lanes.length :=
  List.length_mapIdx ..

theorem content_onContent (h k : HandleId)
    (f : Content (Except ActorError Json) → Content (Except ActorError Json)) :
    (s.onContent h f).content k =
      if k = h ∧ h < s.contents.length then f (s.content h) else s.content k := by
  rw [content, onContent, List.getElem?_modify]
  by_cases hk : h = k
  · subst hk
    by_cases hlt : h < s.contents.length
    · simp [content, hlt]
    · simp [content, hlt]
  · simp [content, hk, Ne.symm hk]

theorem content_of_le {h : HandleId} (hle : s.contents.length ≤ h) : s.content h = .lost := by
  simp [content, List.getElem?_eq_none hle]

theorem lt_of_content_empty {h : HandleId} (he : s.content h = .empty) :
    h < s.contents.length := by
  rcases Nat.lt_or_ge h s.contents.length with hlt | hge
  · exact hlt
  · rw [content_of_le hge] at he
    cases he

theorem content_grow (c : Content (Except ActorError Json)) (h : HandleId) :
    (s.grow c).content h = if h = s.contents.length then c else s.content h := by
  rw [content, grow, List.getElem?_append]
  rcases Nat.lt_trichotomy h s.contents.length with hlt | rfl | hgt
  · simp [hlt, Nat.ne_of_lt hlt, content]
  · simp
  · have hsub : h - s.contents.length ≠ 0 := Nat.sub_ne_zero_of_lt hgt
    simp [Nat.not_lt_of_gt hgt, Nat.ne_of_gt hgt, hsub, content_of_le (Nat.le_of_lt hgt)]

/-- Ending producers touches nothing but contents. -/
theorem settleAll_eq (hs : List HandleId) (c : Content (Except ActorError Json)) (s : Scene) :
    s.settleAll hs c = { s with contents := (s.settleAll hs c).contents } := by
  induction hs generalizing s with
  | nil => rfl
  | cons h hs ih => exact ih _

@[simp] theorem settleAll_frame (hs : List HandleId) (c : Content (Except ActorError Json)) :
    (s.settleAll hs c).lanes = s.lanes ∧ (s.settleAll hs c).tasks = s.tasks ∧
      (s.settleAll hs c).taskCount = s.taskCount ∧ (s.settleAll hs c).pools = s.pools ∧
      (s.settleAll hs c).held = s.held ∧ (s.settleAll hs c).wells = s.wells := by
  rw [settleAll_eq]
  exact ⟨rfl, rfl, rfl, rfl, rfl, rfl⟩

theorem lane_settleAll (hs : List HandleId) (c : Content (Except ActorError Json)) (s : Scene)
    (a : ActorId) : (s.settleAll hs c).lane a = s.lane a := by
  rw [lane, lane, (settleAll_frame hs c).1]

theorem content_settleAll (hs : List HandleId) (c : Content (Except ActorError Json))
    (s : Scene) (h : HandleId) :
    (s.settleAll hs c).content h = if h ∈ hs then (s.content h).settle c else s.content h := by
  induction hs generalizing s with
  | nil => simp [settleAll]
  | cons k hs ih =>
    show ((s.onContent k (·.settle c)).settleAll hs c).content h = _
    rw [ih, content_onContent]
    by_cases hk : h = k
    · subst hk
      by_cases hlt : h < s.contents.length
      · simp [hlt]
      · simp [hlt, content_of_le (Nat.le_of_not_lt hlt)]
    · simp [hk]

theorem pool_onPool (p q : PoolId) (e : Pool.Event Work Json) :
    (s.onPool p e).pool q =
      if q = p ∧ p < s.pools.length then (s.pool p).apply e else s.pool q := by
  rw [pool, onPool, List.getElem?_modify]
  by_cases hq : p = q
  · subst hq
    by_cases hlt : p < s.pools.length
    · simp [pool, hlt]
    · simp [pool, hlt]
  · simp [pool, hq, Ne.symm hq]

end Scene

/-! ### Deeds -/

/-- What a deed shows. -/
inductive Mark where
  /-- An envelope joins the mailbox of an actor. -/
  | admitted (actor : ActorId) (e : Envelope)
  /-- The run loop of an actor begins with an envelope. -/
  | entered (actor : ActorId) (e : Envelope)
  /-- The waiting operations of an actor are dropped. -/
  | cleared (actor : ActorId)
  /-- An actor is closed. -/
  | shut (actor : ActorId)
  /-- The run loop of an actor ends by itself. -/
  | quit (actor : ActorId)
  /-- The run loop of an actor is aborted. -/
  | aborted (actor : ActorId)
  /-- The run loop of an actor begins, or gets further with its envelope. -/
  | turned (actor : ActorId)
  /-- A task gets further or ends. -/
  | stepped (task : TaskId)
  /-- A handle is resolved from the beginning. -/
  | settled (handle : HandleId) (outcome : Except ActorError Json)
  /-- An outcome is taken. -/
  | drained (handle : HandleId)
  /-- A worker of a pool gets further. -/
  | worked (pool : PoolId)
  /-- The outcome of a job is taken. -/
  | collected (pool : PoolId) (job : JobId)
  /-- A job is submitted to a pool on behalf of an owner. -/
  | submitted (pool : PoolId) (owner : String)

/-- The actor whose run loop changes. -/
def Mark.loop? : Mark → Option ActorId
  | .entered a _ | .quit a | .aborted a | .turned a => some a
  | _ => none

/-- What shows of something that happens to a pool. -/
def Mark.ofEvent (p : PoolId) : Pool.Event Work Json → List Mark
  | .look _ | .advance _ _ | .finish _ _ => [.worked p]
  | .drain j => [.collected p j]
  | .submit (some owner) _ _ => [.submitted p owner]
  | _ => []

theorem Mark.mem_ofEvent {p : PoolId} {e : Pool.Event Work Json} {m : Mark} (h : m ∈ ofEvent p e) :
    m = .worked p ∨ (∃ j, m = .collected p j) ∨ ∃ owner, m = .submitted p owner := by
  unfold ofEvent at h
  split at h <;> simp_all

/-- What shows of taking the outcome of a handle. -/
def Mark.ofTake : HandleRef → Mark
  | .operation h => .drained h
  | .job p j => .collected p j

@[simp] theorem Mark.entered_ne_ofTake (a : ActorId) (e : Envelope) (r : HandleRef) :
    Mark.entered a e ≠ .ofTake r := by
  cases r <;> simp [ofTake]

/-- What happens in a scene. -/
inductive Deed : List Mark → Scene → Scene → Prop where
  /-- Clients and systems hold other actors and pools. An actor that is to stop gets no holder. -/
  | roster {s : Scene} {held : List ActorId} {wells : List PoolId}
      (hheld : ∀ a ∈ held, a ∈ s.held ∨ a < s.lanes.length ∧ (s.lane a).stopping = false)
      (hwells : ∀ p ∈ wells, p ∈ s.wells ∨ p < s.pools.length) :
      Deed [] s { s with held, wells }
  /-- An actor is created. -/
  | enroll {s : Scene} {l : Lane} (hl : l.IsNew) (htag : l.owner = ownerTag l.name s.lanes.length) :
      Deed [] s { s with lanes := s.lanes ++ [l] }
  /-- A pool is created. -/
  | found {s : Scene} {name : String} {size : Nat} {p : Pool Work Json}
      (hp : Pool.create name size = .ok p) : Deed [] s { s with pools := s.pools ++ [p] }
  /-- Something happens to a pool. -/
  | pool {s : Scene} (p : PoolId) (e : Pool.Event Work Json) :
      Deed (Mark.ofEvent p e) s (s.onPool p e)
  /-- Some run loops that nobody holds are told to stop. -/
  | stop {s : Scene} {A : ActorId → Bool} (hA : ∀ a, A a = true → ¬s.Holds a) :
      Deed [] s (s.stopAll A)
  /-- A handle is made that is resolved from the beginning. -/
  | settled {s : Scene} (o : Except ActorError Json) :
      Deed [.settled s.contents.length o] s (s.grow (.full o))
  /-- An outcome is taken. -/
  | drain {s : Scene} (h : HandleId) : Deed [.drained h] s (s.onContent h Content.drain)
  /-- A task begins, with a handle of its own. -/
  | begin {s : Scene} {t : Task} (ht : t.handle = s.contents.length) (hw : t.waits = [])
      (hk : ∀ a, t.holdsActor a = true → a ∈ s.held) : Deed [] s ((s.grow .empty).spawn t)
  /-- A task gets further. -/
  | setTask {s : Scene} {i : TaskId} {old t : Task} (hi : s.tasks.lookup i = some old)
      (hh : t.handle = old.handle) (hw : ∀ wait ∈ t.waits, (s.lane wait.actor).closed = true)
      (hk : ∀ a, t.holdsActor a = true → old.holdsActor a = true) :
      Deed [.stepped i] s (s.setTask i t)
  /-- A task ends, and resolves its handle. -/
  | endTask {s : Scene} {i : TaskId} {t : Task} (hi : s.tasks.lookup i = some t)
      (o : Except ActorError Json) :
      Deed [.stepped i] s ((s.settleAll [t.handle] (.full o)).endTask i)
  /-- An open actor uses a pool. -/
  | remember {s : Scene} {a : ActorId} {p : PoolId} (hopen : (s.lane a).closed = false)
      (hp : p < s.pools.length) : Deed [] s (s.onLane a (·.remember p))
  /-- An envelope joins the mailbox of an actor that is held, with a handle of its own. The job of a
  relay is in a pool that the actor uses, and on its behalf as long as it waits or runs. -/
  | accept {s : Scene} {a : ActorId} {e : Envelope} (ha : a < s.lanes.length) (hheld : a ∈ s.held)
      (hopen : (s.lane a).closed = false) (he : e.handle = s.contents.length)
      (hrelay : ∀ h p j, e = .relay h p j → p ∈ (s.lane a).pools ∧ p < s.pools.length ∧
        j < (s.pool p).channels.length ∧
        ∀ t ∈ (s.pool p).openLabels, t.1 = j → t.2 = some (s.lane a).owner) :
      Deed [.admitted a e] s ((s.grow .empty).onLane a fun l => { l with queue := l.queue ++ [e] })
  /-- The waiting operations of an actor are dropped. -/
  | clear {s : Scene} (a : ActorId) :
      Deed [.cleared a] s
        ((s.onLane a fun l => { l with queue := l.queue.filter (·.isRelay) }).settleAll
          (((s.lane a).queue.filter (!·.isRelay)).map Envelope.handle) .lost)
  /-- An actor is closed, once its waiting jobs are withdrawn. -/
  | shut {s : Scene} {a : ActorId} (ha : a < s.lanes.length) (hopen : (s.lane a).closed = false)
      (hjobs : ∀ p ∈ (s.lane a).pools, ∀ job ∈ (s.pool p).queue,
        job.owner ≠ some (s.lane a).owner) :
      Deed [.shut a] s
        ((s.onLane a fun l =>
          { l with queue := [], shut := true, closed := true, stopping := true }).settleAll
            (s.lane a).waiting .lost)
  /-- The run loop of a closed actor is aborted. -/
  | abort {s : Scene} {a : ActorId} (hclosed : (s.lane a).closed = true) :
      Deed [.aborted a] s
        ((s.onLane a fun l => { l with loop := .ended }).settleAll (s.lane a).current .lost)
  /-- A run loop begins. -/
  | start {s : Scene} {a : ActorId} (hloop : (s.lane a).loop = .starting) :
      Deed [.turned a] s (s.onLane a fun l => { l with loop := .idle })
  /-- A run loop ends by itself. -/
  | quit {s : Scene} {a : ActorId} (hloop : (s.lane a).loop = .idle)
      (hstop : (s.lane a).stopping = true) :
      Deed [.quit a] s
        ((s.onLane a fun l => { l with queue := [], loop := .ended }).settleAll
          (s.lane a).waiting .lost)
  /-- A run loop begins with the next envelope. -/
  | enter {s : Scene} {a : ActorId} {e : Envelope} {queue : List Envelope}
      (hloop : (s.lane a).loop = .idle) (hstop : (s.lane a).stopping = false)
      (hqueue : (s.lane a).queue = e :: queue) :
      Deed [.entered a e] s (s.onLane a fun l => { l with queue, loop := .inside e.inside })
  /-- An operation on a run loop gets further. It never waits for its own run loop. -/
  | proceed {s : Scene} {a : ActorId} {h : HandleId} {c c' : Course}
      (hloop : (s.lane a).loop = .inside (.operation h c))
      (hwait : ∀ wait, c'.wait = some wait → (s.lane wait.actor).closed = true ∧ wait.actor ≠ a) :
      Deed [.turned a] s (s.onLane a fun l => { l with loop := .inside (.operation h c') })
  /-- A run loop is done with an envelope. A relay is done once its job does not wait any more, or
  when the run loop is to stop. -/
  | finish {s : Scene} {a : ActorId} {i : Inside} (hloop : (s.lane a).loop = .inside i)
      (hrelay : ∀ h p j, i = .relay h p j →
        j ∉ (s.pool p).queuedIds ∨ (s.lane a).stopping = true)
      (o : Except ActorError Json) :
      Deed [.turned a] s
        ((s.settleAll [i.handle] (.full o)).onLane a fun l => { l with loop := .idle })

/-- What happens in a scene, deed after deed, with all marks in order. -/
inductive Deeds : List Mark → Scene → Scene → Prop where
  /-- Nothing happens. -/
  | refl (s : Scene) : Deeds [] s s
  /-- One deed comes first. -/
  | cons {ms ns : List Mark} {s t u : Scene} (d : Deed ms s t) (ds : Deeds ns t u) :
      Deeds (ms ++ ns) s u

variable {s t u : Scene} {ms ns : List Mark}

theorem Deed.deeds (d : Deed ms s t) : Deeds ms s t := by
  simpa using Deeds.cons d (.refl t)

theorem Deeds.trans (d : Deeds ms s t) (e : Deeds ns t u) : Deeds (ms ++ ns) s u := by
  induction d with
  | refl s => exact e
  | cons d _ ih =>
    rw [List.append_assoc]
    exact .cons d (ih e)

/-- Deeds without marks on both sides of others. -/
theorem Deeds.after (d : Deeds [] s t) (e : Deeds ms t u) : Deeds ms s u := d.trans e

theorem Deeds.before (d : Deeds ms s t) (e : Deeds [] t u) : Deeds ms s u := by
  simpa using d.trans e

theorem Deeds.of_eq (h : s = t) : Deeds [] s t := h ▸ .refl s

/-- What every deed keeps, all of them keep. -/
theorem Deeds.keep {P : Scene → Prop} (step : ∀ {ms s t}, Deed ms s t → P s → P t)
    (d : Deeds ms s t) (h : P s) : P t := by
  induction d with
  | refl s => exact h
  | cons d _ ih => exact ih (step d h)

/-! ### The scene of a world -/

namespace World

/-- The actors that clients or systems hold. -/
def heldActors (w : World) : List ActorId :=
  w.names.actors.map (·.2) ++ w.systems.flatMap fun s => s.registry.entries.map (·.2.actor)

/-- The pools that clients or systems hold, or get when they ask for the default pool. -/
def heldPools (w : World) : List PoolId :=
  w.names.pools.map (·.2) ++ (w.names.systems.map fun x => (w.system x.2).defaultPool) ++
    w.systems.flatMap (·.pools)

/-- What matters of a world. -/
def scene (w : World) : Scene where
  lanes := w.actors.map Actor.lane
  contents := w.channels.map (·.content)
  tasks := w.tasks
  taskCount := w.taskCount
  pools := w.pools.map (·.pool)
  held := w.heldActors
  wells := w.heldPools

end World

end Troupe
