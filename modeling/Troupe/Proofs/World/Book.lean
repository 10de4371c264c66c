import Troupe.Proofs.World.Answers
import Troupe.Proofs.World.Run

/-!
# The book of actors and systems

A close ends with an actor letting go of its target and leaving the system that it remembers. What
this comes to depends on little: whether the actor was closed, whether it holds its target, which
registration it remembers, and what the names of the systems lead to. The book is this part of a
world.

Most of what happens does not show in the book at all. It is discreet, and leaves what clients hold
alone, too; there is one lemma about this for every function of the world that is. What shows is one
of a few turns, and the functions that take one are described by the turns that they take, in order.

## Main definitions

* `Post`, `House`, `Book` — what matters of an actor, of a system, and of a world
* `Book.Turn`, `Book.turn`, `Book.turns` — what happens in a book
* `World.book` — the book of a world
* `World.Discreet` — what does not show in the book

## Main results

* `World.book_shutActor`, `book_finishClose`, `book_endWait` — the two parts of a close
* `World.book_register`, `book_createActor`, `book_release` — coming in and letting go
-/

namespace Troupe

/-- A name that leads nowhere need not be erased. -/
theorem Registry.erase_of_find?_eq_none {r : Registry} {name : String} (h : r.find? name = none) :
    r.erase name = r := by
  refine congrArg Registry.mk (List.filter_eq_self.mpr fun x hx => ?_)
  have := List.lookup_eq_none_iff.mp h x hx
  rw [bne_iff_ne] at this ⊢
  exact Ne.symm this

/-! ### Books -/

/-- What matters of an actor. -/
structure Post where
  /-- Whether a close has begun. -/
  closed : Bool
  /-- Whether it still holds its target. -/
  holdsTarget : Bool
  /-- The registration that it remembers. -/
  registration : Option Registration

/-- What matters of a system. -/
structure House where
  /-- The actors by name. -/
  registry : Registry
  /-- Whether it has been terminated. -/
  terminated : Bool
  /-- Whether anybody still holds it. -/
  held : Bool

/-- What matters of an actor. -/
def Actor.post (a : Actor) : Post :=
  { closed := a.closed, holdsTarget := a.holdsTarget, registration := a.registration }

/-- What matters of a system. -/
def ActorSystem.house (s : ActorSystem) : House :=
  { registry := s.registry, terminated := s.terminated, held := s.held }

/-- What matters of a world. -/
structure Book where
  /-- All actors. -/
  posts : List Post
  /-- All systems. -/
  houses : List House
  /-- The systems that clients hold. -/
  names : List (String × SystemId)
  /-- The number of the next wait. -/
  waitCount : Nat

namespace Book

/-- An actor. -/
def post (b : Book) (a : ActorId) : Post := b.posts[a]?.getD (default : Actor).post

/-- A system. -/
def house (b : Book) (s : SystemId) : House := b.houses[s]?.getD (default : ActorSystem).house

/-- The actor that a name leads to. -/
def leads (b : Book) (s : SystemId) (key : String) : Option ActorId :=
  ((b.house s).registry.find? key).map (·.actor)

/-- Changes an actor. -/
def onPost (a : ActorId) (f : Post → Post) (b : Book) : Book :=
  { b with posts := b.posts.modify a f }

/-- Changes a system. -/
def onHouse (s : SystemId) (f : House → House) (b : Book) : Book :=
  { b with houses := b.houses.modify s f }

/-- What happens in a book. -/
inductive Turn where
  /-- An actor comes into being. -/
  | joins
  /-- A system comes into being. -/
  | founds
  /-- A client keeps a system under a name. -/
  | binds (name : String) (system : SystemId)
  /-- A client lets go of a system. -/
  | drops (name : String)
  /-- An actor gets a name. -/
  | lists (system : SystemId) (key : String) (actor : ActorId) (invocable : Bool)
  /-- A name is freed. -/
  | strikes (system : SystemId) (key : String)
  /-- A system is terminated, and all its names are freed. -/
  | wipes (system : SystemId)
  /-- Some systems are let go of, and all their names are freed. -/
  | forgets (systems : SystemId → Bool)
  /-- A close begins. -/
  | shuts (actor : ActorId)
  /-- A wait gets its number. -/
  | waits
  /-- A close is completed: the actor lets go of its target and leaves its system. -/
  | leaves (actor : ActorId)

/-- The systems after an actor has left the one that it remembers. Its name there stays if it leads
to somebody else by now. -/
def housesWithout (b : Book) (a : ActorId) : List House :=
  match (b.post a).registration with
  | none => b.houses
  | some { system := s, key } =>
    if (b.house s).held && ((b.house s).registry.find? key).any (·.actor == a) then
      b.houses.modify s fun h => { h with registry := h.registry.erase key }
    else b.houses

/-- One turn. -/
def turn (b : Book) : Turn → Book
  | .joins => { b with
      posts := b.posts ++ [{ closed := false, holdsTarget := true, registration := none }] }
  | .founds => { b with
      houses := b.houses ++ [{ registry := {}, terminated := false, held := true }] }
  | .binds name s => { b with names := rebind name s b.names }
  | .drops name => { b with names := b.names.filter (·.1 != name) }
  | .lists s key a invocable =>
    (b.onPost a fun p => { p with registration := some { system := s, key } }).onHouse s
      fun h => { h with registry := h.registry.insert key { actor := a, invocable } }
  | .strikes s key => b.onHouse s fun h => { h with registry := h.registry.erase key }
  | .wipes s => b.onHouse s fun h => { h with terminated := true, registry := {} }
  | .forgets S => { b with
      houses := b.houses.mapIdx fun s h =>
        if h.held && S s then { h with held := false, registry := {} } else h }
  | .shuts a => b.onPost a fun p => { p with closed := true }
  | .waits => { b with waitCount := b.waitCount + 1 }
  | .leaves a => { b with
      posts := b.posts.modify a fun p => { p with holdsTarget := false, registration := none }
      houses := b.housesWithout a }

/-- Several turns. -/
def turns (ts : List Turn) (b : Book) : Book := ts.foldl turn b

/-- Some systems are let go of that no client holds. -/
def LetsGo (b b' : Book) : Prop := ∃ S, (∀ x ∈ b.names, S x.2 = false) ∧ b' = b.turn (.forgets S)

variable {b : Book}

theorem turns_append (ts us : List Turn) : b.turns (ts ++ us) = (b.turns ts).turns us :=
  List.foldl_append ..

theorem turns_concat (ts : List Turn) (t : Turn) : b.turns (ts ++ [t]) = (b.turns ts).turn t :=
  turns_append ts [t]

/-! ### Looking at a book after a change -/

theorem post_onPost (a c : ActorId) (f : Post → Post) :
    (b.onPost a f).post c = if c = a ∧ a < b.posts.length then f (b.post a) else b.post c := by
  rw [post, onPost, List.getElem?_modify]
  by_cases hc : a = c
  · subst hc
    by_cases hlt : a < b.posts.length
    · simp [post, hlt]
    · simp [post, hlt]
  · simp [post, hc, Ne.symm hc]

theorem house_onHouse (s k : SystemId) (f : House → House) :
    (b.onHouse s f).house k =
      if k = s ∧ s < b.houses.length then f (b.house s) else b.house k := by
  rw [house, onHouse, List.getElem?_modify]
  by_cases hk : s = k
  · subst hk
    by_cases hlt : s < b.houses.length
    · simp [house, hlt]
    · simp [house, hlt]
  · simp [house, hk, Ne.symm hk]

theorem length_turn (t : Turn) : b.posts.length ≤ (b.turn t).posts.length := by
  cases t <;> simp [turn, onPost, onHouse]

theorem length_turns (ts : List Turn) : b.posts.length ≤ (b.turns ts).posts.length := by
  induction ts generalizing b with
  | nil => exact Nat.le_refl _
  | cons t ts ih => exact Nat.le_trans (length_turn t) ih

/-- An actor that comes into being is open, as is one that nobody knows. -/
theorem post_joins (a : ActorId) : (b.turn .joins).post a = b.post a := by
  rcases Nat.lt_trichotomy a b.posts.length with hlt | rfl | hgt
  · simp [post, turn, List.getElem?_append_left hlt]
  · simp only [post, turn, List.getElem?_concat_length,
      List.getElem?_eq_none (Nat.le_refl b.posts.length)]
    rfl
  · rw [post, post, List.getElem?_eq_none (Nat.le_of_lt hgt), List.getElem?_eq_none]
    simpa [turn] using Nat.succ_le_of_lt hgt

theorem post_leaves (a c : ActorId) :
    (b.turn (.leaves c)).post a = if a = c ∧ c < b.posts.length then
      { b.post c with holdsTarget := false, registration := none } else b.post a :=
  post_onPost c a fun p => { p with holdsTarget := false, registration := none }

/-- Whoever is closed has been closed by a turn. -/
theorem closed_turns {ts : List Turn} {a : ActorId} (h : .shuts a ∈ ts → a < b.posts.length) :
    ((b.turns ts).post a).closed = true ↔ (b.post a).closed = true ∨ .shuts a ∈ ts := by
  induction ts generalizing b with
  | nil => simp [turns]
  | cons t ts ih =>
    rw [turns, List.foldl_cons, ← turns,
      ih fun hmem => Nat.lt_of_lt_of_le (h (List.mem_cons_of_mem _ hmem)) (length_turn t),
      List.mem_cons]
    cases t with
    | shuts c =>
      have hpost := b.post_onPost c a fun p => { p with closed := true }
      show ((b.onPost c _).post a).closed = true ∨ _ ↔ _
      rw [hpost]
      by_cases hc : a = c
      · subst hc
        simp [h List.mem_cons_self]
      · simp [hc]
    | lists s key c invocable =>
      have hpost := b.post_onPost c a fun p => { p with registration := some { system := s, key } }
      show ((b.onPost c _).post a).closed = true ∨ _ ↔ _
      rw [hpost]
      split
      · rename_i hc
        simp [hc.1]
      · simp
    | leaves c =>
      rw [post_leaves]
      split
      · rename_i hc
        simp [hc.1]
      · simp
    | joins => simp [post_joins]
    | founds | binds _ _ | drops _ | strikes _ _ | wipes _ | forgets _ | waits =>
      show (b.post a).closed = true ∨ _ ↔ _
      simp

/-- Whoever has let go of its target has left by a turn. -/
theorem holdsTarget_turns {ts : List Turn} {a : ActorId}
    (h : .leaves a ∈ ts → a < b.posts.length) :
    ((b.turns ts).post a).holdsTarget = false ↔
      (b.post a).holdsTarget = false ∨ .leaves a ∈ ts := by
  induction ts generalizing b with
  | nil => simp [turns]
  | cons t ts ih =>
    rw [turns, List.foldl_cons, ← turns,
      ih fun hmem => Nat.lt_of_lt_of_le (h (List.mem_cons_of_mem _ hmem)) (length_turn t),
      List.mem_cons]
    cases t with
    | leaves c =>
      rw [post_leaves]
      by_cases hc : a = c
      · subst hc
        simp [h List.mem_cons_self]
      · simp [hc]
    | lists s key c invocable =>
      have hpost := b.post_onPost c a fun p => { p with registration := some { system := s, key } }
      show ((b.onPost c _).post a).holdsTarget = false ∨ _ ↔ _
      rw [hpost]
      split
      · rename_i hc
        simp [hc.1]
      · simp
    | shuts c =>
      have hpost := b.post_onPost c a fun p => { p with closed := true }
      show ((b.onPost c _).post a).holdsTarget = false ∨ _ ↔ _
      rw [hpost]
      split
      · rename_i hc
        simp [hc.1]
      · simp
    | joins => simp [post_joins]
    | founds | binds _ _ | drops _ | strikes _ _ | wipes _ | forgets _ | waits =>
      show (b.post a).holdsTarget = false ∨ _ ↔ _
      simp

/-- A name that leads nowhere is freed in vain. -/
theorem turn_strikes_of_absent {s : SystemId} {key : String}
    (h : (b.house s).registry.find? key = none) : b.turn (.strikes s key) = b := by
  have hsame : b.houses.modify s (fun h => { h with registry := h.registry.erase key }) =
      b.houses := by
    refine List.ext_getElem? fun k => ?_
    rw [List.getElem?_modify]
    by_cases hk : s = k
    · subst hk
      cases hhouse : b.houses[s]? with
      | none => rfl
      | some house =>
        rw [Book.house, hhouse] at h
        have herase : house.registry.erase key = house.registry :=
          Registry.erase_of_find?_eq_none h
        simp [herase]
    · simp [hk]
  simp only [turn, onHouse, hsame]

/-- Where nothing is let go of, nothing changes. -/
@[simp] theorem turn_forgets_none : b.turn (.forgets fun _ => false) = b := by
  have hsame : (b.houses.mapIdx fun _ h => h) = b.houses := by
    refine List.ext_getElem? fun k => ?_
    rw [List.getElem?_mapIdx]
    exact Option.map_id' ..
  simp only [turn, Bool.and_false, Bool.false_eq_true, if_false, hsame]

theorem LetsGo.refl (b : Book) : b.LetsGo b :=
  ⟨fun _ => false, fun _ _ => rfl, turn_forgets_none.symm⟩

/-- Letting go of systems changes nothing about actors. -/
theorem LetsGo.post_eq {b' : Book} (h : b.LetsGo b') (a : ActorId) : b'.post a = b.post a := by
  obtain ⟨S, -, rfl⟩ := h
  rfl

end Book

/-! ### The book of a world -/

namespace World

/-- What matters of a world. -/
def book (w : World) : Book where
  posts := w.actors.map Actor.post
  houses := w.systems.map ActorSystem.house
  names := w.names.systems
  waitCount := w.waitCount

variable {w w' : World} {a : ActorId} {s : SystemId}

@[simp] theorem post_book (w : World) (a : ActorId) : w.book.post a = (w.actor a).post := by
  rw [Book.post, book, List.getElem?_map, actor]
  cases w.actors[a]? <;> rfl

@[simp] theorem house_book (w : World) (s : SystemId) : w.book.house s = (w.system s).house := by
  rw [Book.house, book, List.getElem?_map, system]
  cases w.systems[s]? <;> rfl

theorem map_modify_congr {α β : Type} {l : List α} {i : Nat} {f : α → α} {g : α → β} {x : α}
    (h : g (f (l[i]?.getD x)) = g (l[i]?.getD x)) : (l.modify i f).map g = l.map g := by
  refine List.ext_getElem? fun k => ?_
  rw [List.getElem?_map, List.getElem?_modify, List.getElem?_map]
  by_cases hk : i = k
  · subst hk
    cases hx : l[i]? with
    | none => rfl
    | some y => simpa [hx] using h
  · cases l[k]? <;> simp [hk]

theorem map_modify_eq {α β : Type} {l : List α} {i : Nat} {f : α → α} {g : α → β} {f' : β → β}
    (h : ∀ x, g (f x) = f' (g x)) : (l.modify i f).map g = (l.map g).modify i f' := by
  refine List.ext_getElem? fun k => ?_
  rw [List.getElem?_map, List.getElem?_modify, List.getElem?_modify, List.getElem?_map]
  cases l[k]? with
  | none => rfl
  | some x => by_cases hk : i = k <;> simp [hk, h]

/-- A change of an actor that does not show. -/
theorem book_onActor {f : Actor → Actor} (h : (f (w.actor a)).post = (w.actor a).post) :
    (w.onActor a f).book = w.book := by
  have hposts := map_modify_congr (l := w.actors) (f := f) (g := Actor.post) (x := default) h
  simp only [book, onActor, hposts]

/-- A change of an actor that shows. -/
theorem book_onActor_eq {f : Actor → Actor} {g : Post → Post}
    (h : ∀ actor, (f actor).post = g actor.post) : (w.onActor a f).book = w.book.onPost a g := by
  simp only [book, onActor, Book.onPost, map_modify_eq h]

/-- A change of a system that shows. -/
theorem book_onSystem_eq {f : ActorSystem → ActorSystem} {g : House → House}
    (h : ∀ system, (f system).house = g system.house) :
    (w.onSystem s f).book = w.book.onHouse s g := by
  simp only [book, onSystem, Book.onHouse, map_modify_eq h]

/-- A change of a system that does not show. -/
theorem book_onSystem {f : ActorSystem → ActorSystem}
    (h : ∀ system, (f system).house = system.house) : (w.onSystem s f).book = w.book := by
  rw [book_onSystem_eq (g := id) h, Book.onHouse, List.modify_id]

/-! ### What does not show -/

@[simp] theorem book_report (n : Notice) (w : World) : (w.report n).book = w.book := rfl

/-- What happens behind the scenes: names and systems are as they were, and so is all that matters
of actors. -/
structure Discreet (w w' : World) : Prop where
  /-- Clients hold what they held. -/
  names : w'.names = w.names
  /-- Nothing has happened to systems. -/
  systems : w'.systems = w.systems
  /-- Nothing that matters has happened to actors. -/
  posts : w'.actors.map Actor.post = w.actors.map Actor.post
  /-- No wait has got a number. -/
  waitCount : w'.waitCount = w.waitCount

theorem Discreet.refl (w : World) : w.Discreet w := ⟨rfl, rfl, rfl, rfl⟩

theorem Discreet.trans {w₁ : World} (h : w.Discreet w₁) (h' : w₁.Discreet w') : w.Discreet w' where
  names := h'.names.trans h.names
  systems := h'.systems.trans h.systems
  posts := h'.posts.trans h.posts
  waitCount := h'.waitCount.trans h.waitCount

/-- What happens behind the scenes does not show. -/
theorem Discreet.book (h : w.Discreet w') : w'.book = w.book := by
  simp only [World.book, h.names, h.systems, h.posts, h.waitCount]

theorem discreet_onActor {f : Actor → Actor} (h : (f (w.actor a)).post = (w.actor a).post) :
    w.Discreet (w.onActor a f) :=
  ⟨rfl, rfl, map_modify_congr h (x := default), rfl⟩

theorem discreet_report (n : Notice) (w : World) : w.Discreet (w.report n) := ⟨rfl, rfl, rfl, rfl⟩

theorem discreet_onPool (p : PoolId) (f : Pool Work Json → Pool Work Json) (w : World) :
    w.Discreet (w.onPool p f) := ⟨rfl, rfl, rfl, rfl⟩

theorem discreet_newHandle (c : Channel (Except ActorError Json)) (w : World) :
    w.Discreet (w.newHandle c).2 := ⟨rfl, rfl, rfl, rfl⟩

theorem discreet_lose (h : HandleId) (w : World) : w.Discreet (w.lose h) := ⟨rfl, rfl, rfl, rfl⟩

theorem discreet_spawn (t : Task) (w : World) : w.Discreet (w.spawn t) := ⟨rfl, rfl, rfl, rfl⟩

theorem discreet_setTask (t : TaskId) (task : Task) (w : World) : w.Discreet (w.setTask t task) :=
  ⟨rfl, rfl, rfl, rfl⟩

theorem discreet_endTask (t : TaskId) (w : World) : w.Discreet (w.endTask t) :=
  ⟨rfl, rfl, rfl, rfl⟩

theorem discreet_setLoop (a : ActorId) (l : Loop) (w : World) : w.Discreet (w.setLoop a l) :=
  discreet_onActor rfl

theorem discreet_resolve (h : HandleId) (o : Except ActorError Json) (w : World) :
    w.Discreet (w.resolve h o) := by
  rw [resolve]
  split <;> exact ⟨rfl, rfl, rfl, rfl⟩

theorem discreet_deafen (r : HandleRef) (w : World) : w.Discreet (w.deafen r) := by
  cases r <;> exact ⟨rfl, rfl, rfl, rfl⟩

theorem discreet_drain (r : HandleRef) (w : World) : w.Discreet (w.drain r) := by
  cases r <;> exact ⟨rfl, rfl, rfl, rfl⟩

theorem discreet_write (page : Page) (lines : Lines) (w : World) :
    w.Discreet (w.write page lines) := by
  cases page with
  | main a | side a => exact discreet_onActor rfl
  | pool _ | blank => exact ⟨rfl, rfl, rfl, rfl⟩

/-! ### Pools -/

theorem discreet_submitJob (p : PoolId) (owner : Option String) (urgent : Bool) (work : Work)
    (w : World) : w.Discreet (w.submitJob p owner urgent work).2 := by
  simp only [submitJob]
  split
  · exact (discreet_onPool ..).trans (discreet_report ..)
  · exact discreet_onPool ..

theorem discreet_cancelJobs (owner : String) (p : PoolId) (w : World) :
    w.Discreet (w.cancelJobs owner p).2 := by
  simp only [cancelJobs]
  split
  · exact discreet_onPool ..
  · exact (discreet_onPool ..).trans (discreet_report ..)

theorem discreet_cancelJobsIn (owner : String) (pools : List PoolId) (w : World) :
    w.Discreet (w.cancelJobsIn owner pools).2 := by
  induction pools generalizing w with
  | nil => exact .refl w
  | cons p pools ih => exact (discreet_cancelJobs owner p w).trans (ih _)

theorem discreet_withdrawJobs (a : ActorId) (w : World) : w.Discreet (w.withdrawJobs a).2 :=
  discreet_cancelJobsIn ..

theorem discreet_stopPool (p : PoolId) (w : World) : w.Discreet (w.stopPool p) :=
  (discreet_onPool ..).trans (discreet_report ..)

theorem discreet_stopPools (pools : List PoolId) (w : World) : w.Discreet (w.stopPools pools) := by
  induction pools generalizing w with
  | nil => exact .refl w
  | cons p pools ih => exact (discreet_stopPool p w).trans (ih _)

theorem discreet_emptyPool (p : PoolId) (w : World) : w.Discreet (w.emptyPool p).2 := by
  simp only [emptyPool]
  split
  · exact discreet_onPool ..
  · exact (discreet_onPool ..).trans (discreet_report ..)

theorem discreet_finishJob (p : PoolId) (place : Nat) (job : Job Work) (ending : Ending)
    (w : World) : w.Discreet (w.finishJob p place job ending) := by
  simp only [finishJob, reportJob]
  cases ending <;> split <;> exact ⟨rfl, rfl, rfl, rfl⟩

/-- Workers do not show. -/
theorem discreet_stepWorker {p : PoolId} {place : Nat} (h : w.stepWorker p place = some w') :
    w.Discreet w' := by
  rw [stepWorker] at h
  split at h
  · simp only [stepJob] at h
    split at h
    · cases h
      exact discreet_finishJob ..
    · split at h
      · cases h
        exact (discreet_write ..).trans (discreet_onPool ..)
      · cases h
        exact discreet_finishJob ..
      · cases h
  · obtain ⟨pool', _, rfl⟩ := Option.map_eq_some_iff.mp h
    exact discreet_onPool ..

theorem discreet_createPool {name : String} {size : Nat} {p : PoolId}
    (h : w.createPool name size = (.ok p, w')) : w.Discreet w' := by
  obtain ⟨pool, -, -, rfl⟩ := createPool_eq_ok h
  exact ⟨rfl, rfl, rfl, rfl⟩

/-! ### Mailboxes and run loops -/

theorem discreet_dropEnvelopes (es : List Envelope) (w : World) :
    w.Discreet (w.dropEnvelopes es) := by
  induction es generalizing w with
  | nil => exact .refl w
  | cons e es ih =>
    refine Discreet.trans ?_ (ih _)
    cases e with
    | operation h _ _ => exact discreet_lose h w
    | relay h p j => exact (discreet_lose h w).trans (discreet_deafen (.job p j) _)

theorem discreet_clear (a : ActorId) (w : World) : w.Discreet (w.clear a).2 :=
  (discreet_onActor (f := fun actor => { actor with mailbox := (w.actor a).mailbox.clear.2 })
    rfl).trans <| (discreet_dropEnvelopes ..).trans <| (discreet_withdrawJobs ..).trans <|
    discreet_report ..

theorem discreet_endLoop (a : ActorId) (w : World) : w.Discreet (w.endLoop a) := by
  have hended : w.Discreet (w.onActor a fun actor =>
      { actor with loop := .ended, mailbox := { actor.mailbox with queue := [] } }) :=
    discreet_onActor rfl
  exact hended.trans ((discreet_dropEnvelopes ..).trans (discreet_report ..))

theorem discreet_abortLoop (a : ActorId) (w : World) : w.Discreet (w.abortLoop a) := by
  have hended : w.Discreet (w.onActor a fun actor => { actor with loop := .ended }) :=
    discreet_onActor rfl
  refine hended.trans (Discreet.trans ?_ (discreet_report ..))
  split
  · exact discreet_lose ..
  · exact (discreet_lose ..).trans (discreet_deafen ..)
  · exact .refl _

theorem discreet_finishOperation (a : ActorId) (h : HandleId) (answer : Answer) (ending : Ending)
    (w : World) : w.Discreet (w.finishOperation a h answer ending) := by
  cases ending with
  | broke payload => exact (discreet_report ..).trans (discreet_resolve ..)
  | returned _ | failed _ => exact discreet_resolve ..

theorem discreet_enterNext (h : w.enterNext a = some w') : w.Discreet w' := by
  obtain ⟨_, _, rfl⟩ := Option.map_eq_some_iff.mp h
  exact discreet_onActor rfl

/-! ### Sending -/

theorem post_of_enqueue {e : Envelope} {actor actor' : Actor} (h : actor.enqueue e = some actor') :
    actor'.post = actor.post := by
  rw [Actor.enqueue] at h
  split at h
  · cases h
  · obtain ⟨_, _, rfl⟩ := Option.map_eq_some_iff.mp h
    rfl

/-- What an actor takes in comes with a handle. -/
theorem discreet_enqueue {e : Envelope} {actor : Actor} (h : (w.actor a).enqueue e = some actor) :
    w.Discreet ((w.newHandle {}).2.onActor a fun _ => actor) :=
  (discreet_newHandle {} w).trans (discreet_onActor (post_of_enqueue h))

theorem discreet_sendOrdered (a : ActorId) (body : List Action) (answer : Answer) (w : World) :
    w.Discreet (w.sendOrdered a body answer).2 := by
  rw [sendOrdered]
  split
  · rename_i hpush
    exact discreet_enqueue hpush
  · exact (discreet_report ..).trans (discreet_newHandle ..)

theorem discreet_sendBypass (a : ActorId) (body : List Action) (answer : Answer) (w : World) :
    w.Discreet (w.sendBypass a body answer).2 := by
  rw [sendBypass]
  split
  · exact (discreet_newHandle ..).trans (discreet_spawn ..)
  · exact discreet_newHandle ..

theorem discreet_sendOffload (a : ActorId) (p : PoolId) (urgent : Bool) (body : List Effect)
    (answer : Answer) (w : World) : w.Discreet (w.sendOffload a p urgent body answer).2 := by
  rw [sendOffload]
  split
  · have hremember : w.Discreet (w.onActor a (·.remember p)) := by
      refine discreet_onActor ?_
      rw [Actor.remember]
      split <;> rfl
    dsimp only
    split
    · rename_i hpush
      exact hremember.trans ((discreet_submitJob ..).trans (discreet_enqueue hpush))
    · exact hremember.trans <| (discreet_submitJob ..).trans <|
        (discreet_deafen ..).trans (discreet_newHandle ..)
  · exact discreet_newHandle ..

theorem discreet_invokeByName (s : SystemId) (key action args : String) (h : HandleId) (w : World) :
    w.Discreet (w.invokeByName s key action args h) := by
  rw [invokeByName]
  split
  · exact discreet_resolve ..
  · split
    · exact (discreet_sendOrdered ..).trans (discreet_spawn ..)
    · exact discreet_resolve ..

/-- Sending does nothing but hand out a handle, as far as it concerns names and systems. -/
theorem handed_of_send {x : Send} (h : w.send x = .ok w') :
    ∃ w₁ recipient r, w.Discreet w₁ ∧ w' = w₁.hand recipient r := by
  cases dispatches_of_send h with
  | ordered _ => exact ⟨_, _, _, discreet_sendOrdered .., rfl⟩
  | bypass _ => exact ⟨_, _, _, discreet_sendBypass .., rfl⟩
  | offload _ _ => exact ⟨_, _, _, discreet_sendOffload .., rfl⟩
  | job _ => exact ⟨_, _, _, discreet_submitJob .., rfl⟩

@[simp] theorem systems_hand (recipient : Recipient) (r : HandleRef) (w : World) :
    (w.hand recipient r).systems = w.systems := by
  cases recipient with
  | watched name => rfl
  | nobody => exact (discreet_deafen r w).systems
  | held name =>
    rw [hand]
    split
    · exact (discreet_deafen _ w).systems
    · rfl

@[simp] theorem book_hand (recipient : Recipient) (r : HandleRef) (w : World) :
    (w.hand recipient r).book = w.book := by
  cases recipient with
  | watched name => rfl
  | nobody => exact (discreet_deafen r w).book
  | held name =>
    cases hheld : w.names.held.lookup name with
    | none =>
      simp only [hand, hheld]
      rfl
    | some old =>
      simp only [hand, hheld]
      exact (discreet_deafen old w).book

theorem systems_send {x : Send} (h : w.send x = .ok w') : w'.systems = w.systems := by
  obtain ⟨w₁, recipient, r, hsent, rfl⟩ := handed_of_send h
  rw [systems_hand, hsent.systems]

/-- What is sent does not show. -/
theorem book_send {x : Send} (h : w.send x = .ok w') : w'.book = w.book := by
  obtain ⟨w₁, recipient, r, hsent, rfl⟩ := handed_of_send h
  rw [book_hand, hsent.book]

/-! ### Closes -/

@[simp] theorem book_newWait (a : ActorId) (system : Option SystemId) (w : World) :
    (w.newWait a system).2.book = w.book.turn .waits := rfl

/-- **What a close does at once** shows as one turn. -/
@[simp] theorem book_shutActor (a : ActorId) (w : World) :
    (w.shutActor a).book = w.book.turn (.shuts a) := by
  have hclosed : ∀ (w : World) (mailbox : Mailbox), (w.onActor a fun actor =>
      { actor with closed := true, stopping := true, mailbox }).book = w.book.turn (.shuts a) :=
    fun w mailbox => book_onActor_eq fun _ => rfl
  simp only [shutActor, (discreet_withdrawJobs ..).book, (discreet_dropEnvelopes ..).book]
  split <;> simp [hclosed]

theorem book_detach (a : ActorId) (w : World) :
    (w.detach a).book = { w.book with
      posts := w.book.posts.modify a fun p => { p with registration := none }
      houses := w.book.housesWithout a } := by
  rw [detach, Book.housesWithout, post_book]
  cases hreg : (w.actor a).registration with
  | none =>
    have hsame : (w.book.posts.modify a fun p => { p with registration := none }) =
        w.book.posts := by
      have := map_modify_congr (l := w.book.posts) (i := a) (f := fun p =>
        { p with registration := none }) (g := id) (x := (default : Actor).post) (by
          show ({ w.book.post a with registration := none } : Post) = w.book.post a
          rw [post_book, Actor.post, hreg])
      simpa using this
    simp only [Actor.post, hreg, hsame]
  | some registration =>
    obtain ⟨s, key⟩ := registration
    have hforgot : (w.onActor a fun actor => { actor with registration := none }).book =
        w.book.onPost a fun p => { p with registration := none } := book_onActor_eq fun _ => rfl
    simp only [Actor.post, hreg]
    have hsystem : (w.onActor a fun actor => { actor with registration := none }).system s =
        w.system s := rfl
    rw [hsystem, house_book, ActorSystem.house]
    split
    · rw [book_report, book_onSystem_eq (g := fun h => { h with registry := h.registry.erase key })
        fun _ => rfl, hforgot]
      rfl
    · exact hforgot

/-- **The second part of a close** shows as one turn. -/
@[simp] theorem book_finishClose (a : ActorId) (w : World) :
    (w.finishClose a).book = w.book.turn (.leaves a) := by
  have hreleased : (w.onActor a fun actor => { actor with holdsTarget := false }).book =
      w.book.onPost a fun p => { p with holdsTarget := false } := book_onActor_eq fun _ => rfl
  simp only [finishClose, book_report, book_detach, hreleased]
  have hposts : ((w.book.onPost a fun p => { p with holdsTarget := false }).posts.modify a fun p =>
      { p with registration := none }) = w.book.posts.modify a fun p =>
        { p with holdsTarget := false, registration := none } :=
    List.modify_modify_eq ..
  have hreg : ((w.book.onPost a fun p => { p with holdsTarget := false }).post a).registration =
      (w.book.post a).registration := by
    rw [Book.post_onPost]
    split <;> rfl
  have hhouses : (w.book.onPost a fun p => { p with holdsTarget := false }).housesWithout a =
      w.book.housesWithout a := by
    rw [Book.housesWithout, Book.housesWithout, hreg]
    rfl
  rw [hposts, hhouses]
  rfl

@[simp] theorem book_endWait (wait : Wait) (w : World) :
    (w.endWait wait).book = w.book.turn (.leaves wait.actor) := by
  rw [endWait, book_finishClose]
  split
  · rfl
  · rw [(discreet_abortLoop ..).book]

/-! ### Coming in and letting go -/

theorem book_createActor {name kind : String} {settings : ActorSettings}
    (h : w.createActor name kind settings = .ok (a, w')) :
    a = w.actors.length ∧ w'.book = w.book.turn .joins := by
  obtain ⟨-, rfl, _, -, rfl⟩ := createActor_eq_ok h
  refine ⟨rfl, ?_⟩
  simp only [book_report]
  simp only [book, Book.turn, List.map_append, List.map_cons, List.map_nil]
  rfl

theorem book_createSystem {name : String} {workers : Nat} {grace : Duration}
    {settings : ActorSettings}
    (h : w.createSystem name workers grace settings = (.ok s, w')) :
    s = w.systems.length ∧ w'.book = w.book.turn .founds := by
  obtain ⟨p, w₁, hpool, rfl, rfl⟩ := createSystem_eq_ok h
  have hsame := discreet_createPool hpool
  refine ⟨by rw [hsame.systems], ?_⟩
  rw [← hsame.book, book_report]
  simp only [book, Book.turn, List.map_append, List.map_cons, List.map_nil]
  rfl

theorem book_register {key : String} {invocable : Bool}
    (h : w.register s key a invocable = (.ok (), w')) :
    (w.system s).terminated = false ∧ w'.book = w.book.turn (.lists s key a invocable) := by
  obtain ⟨hterm, _, rfl⟩ := register_eq_ok h
  refine ⟨hterm, ?_⟩
  rw [book_report, book_onSystem_eq (g := fun h =>
    { h with registry := h.registry.insert key { actor := a, invocable } }) fun _ => rfl,
    book_onActor_eq (g := fun p => { p with registration := some { system := s, key } })
      fun _ => rfl]
  rfl

/-- **Letting go** shows as one turn. -/
@[simp] theorem book_release (w : World) :
    w.release.book = w.book.turn (.forgets fun s => !w.holdsSystem s) := by
  have hactors : w.release.actors.map Actor.post = w.actors.map Actor.post := by
    refine List.ext_getElem? fun a => ?_
    rw [release, releaseActors, List.getElem?_map, List.getElem?_mapIdx, List.getElem?_map]
    show _ = (w.releaseSystems.actors[a]?).map _
    cases w.releaseSystems.actors[a]? with
    | none => rfl
    | some actor =>
      simp only [Option.map_some]
      split <;> rfl
  have hsystems : w.release.systems.map ActorSystem.house =
      (w.systems.map ActorSystem.house).mapIdx fun s h =>
        if h.held && !w.holdsSystem s then { h with held := false, registry := {} } else h := by
    refine List.ext_getElem? fun s => ?_
    show ((w.releaseSystems.systems).map _)[s]? = _
    rw [releaseSystems, List.getElem?_map, List.getElem?_mapIdx, List.getElem?_mapIdx,
      List.getElem?_map]
    cases w.systems[s]? with
    | none => rfl
    | some system =>
      simp only [Option.map_some, ActorSystem.house]
      split <;> rfl
  simp only [book, hactors, hsystems]
  rfl

/-- What a client holds is not let go of. -/
theorem letsGo_of_release {b : Book} (h : w.book = b) : b.LetsGo w.release.book := by
  subst h
  refine ⟨fun s => !w.holdsSystem s, fun x hx => ?_, book_release w⟩
  have hheld : w.names.systems.any (·.2 == x.2) = true :=
    List.any_eq_true.mpr ⟨x, hx, beq_self_eq_true x.2⟩
  simp [holdsSystem, hheld]

end World

end Troupe
