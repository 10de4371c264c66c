import Troupe.Proofs.World.Waits

/-!
# What acts do to names

A name is given to an actor by the calls that create an actor in a system or attach one, and by
nothing else. A name is freed by an action that removes it, and a termination that begins frees all
names of its system. Both are decided by who stands for what before the act, so they are said from
outside: what an act does to names can be told from the world that it meets.

An act that does something to names shows it in the book, first of all. The turns that stand for it
are the prelude of the act; the closes that the act begins or completes come after them.

## Main definitions

* `World.registers?`, `World.removes?`, `World.terminates?` — what an act does to names, seen from
  outside
* `World.Prelude` — the turns of an act that are about names
* `World.Registers` — a call that shows in the book as its prelude

## Main results

* `World.registers_answer` — every call that succeeds shows as its prelude
* `World.prelude_of_course`, `World.prelude_of_stuck` — what courses do to names, and who is stuck
-/

namespace Troupe

namespace World

variable {w w' : World} {a : ActorId} {m : Mover} {act : Act}

/-! ### Names -/

/-- The name that an act gives to an actor in a system. -/
def registers? (w : World) : Act → Option (SystemId × String × ActorId)
  | .call (.createMember system _ name _ _) =>
    match w.systemNamed system with
    | .ok s =>
      if w.hosted && !(w.system s).terminated then some (s, name, w.actors.length) else none
    | .error _ => none
  | .call (.createChild parent _ name _) =>
    match w.actorNamed parent with
    | .ok p =>
      match w.systemOf p with
      | some s =>
        if w.hosted && !(w.system s).terminated then some (s, name, w.actors.length) else none
      | none => none
    | .error _ => none
  | .call (.attach system actor name _) =>
    match w.systemNamed system, w.actorNamed actor with
    | .ok s, .ok a =>
      if (w.system s).terminated then none else some (s, name.getD (w.actor a).name, a)
    | _, _ => none
  | _ => none

/-- The name that an act frees in a system, whether or not it was in use. -/
def removes? (w : World) : Act → Option (SystemId × String)
  | .move m =>
    match w.action? m with
    | some (.remove system name) => (w.systemNamed system).toOption.map fun s => (s, name)
    | _ => none
  | _ => none

/-- The system whose termination begins with an act. -/
def terminates? (w : World) : Act → Option SystemId
  | .move (.task t) =>
    match w.task? t with
    | some (.termination _ s .starting) => if (w.system s).terminated then none else some s
    | _ => none
  | _ => none

open Book (Turn)

/-- The turns of an act that are about names, or about new actors and systems. -/
inductive Prelude (w : World) (act : Act) : List Turn → Prop where
  /-- There are none. -/
  | nothing (hr : w.registers? act = none) (hm : w.removes? act = none)
    (ht : w.terminates? act = none) : Prelude w act []
  /-- An actor comes into being. -/
  | joins (hr : w.registers? act = none) (hm : w.removes? act = none)
    (ht : w.terminates? act = none) : Prelude w act [.joins]
  /-- A system comes into being, and a client keeps it. -/
  | founds {name : String} (hr : w.registers? act = none) (hm : w.removes? act = none)
    (ht : w.terminates? act = none) : Prelude w act [.founds, .binds name w.systems.length]
  /-- A client lets go of a system. -/
  | drops {name : String} (hr : w.registers? act = none) (hm : w.removes? act = none)
    (ht : w.terminates? act = none) : Prelude w act [.drops name]
  /-- An actor gets a name. -/
  | lists {s : SystemId} {key : String} {a : ActorId} {invocable : Bool}
    (hr : w.registers? act = some (s, key, a)) (hm : w.removes? act = none)
    (ht : w.terminates? act = none) (ha : a < w.actors.length) :
    Prelude w act [.lists s key a invocable]
  /-- An actor comes into being and gets a name. -/
  | member {s : SystemId} {key : String} {invocable : Bool}
    (hr : w.registers? act = some (s, key, w.actors.length)) (hm : w.removes? act = none)
    (ht : w.terminates? act = none) :
    Prelude w act [.joins, .lists s key w.actors.length invocable]
  /-- A name is freed. -/
  | strikes {s : SystemId} {key : String} (hr : w.registers? act = none)
    (hm : w.removes? act = some (s, key)) (ht : w.terminates? act = none) :
    Prelude w act [.strikes s key]
  /-- A termination begins. -/
  | wipes {s : SystemId} (hr : w.registers? act = none) (hm : w.removes? act = none)
    (ht : w.terminates? act = some s) : Prelude w act [.wipes s]

/-! ### Actions and moves -/

/-- The turns of an action that are about names. -/
def freed (w : World) : Action → List Turn
  | .remove system name => (w.systemNamed system).toOption.toList.map fun s => .strikes s name
  | _ => []

/-- The turns of a course that are about names. -/
theorem prelude_of_course {r : Runner} {c : Course} (hm : w.course? m = some (r, c)) :
    w.Prelude (.move m) ((c.action?.map w.freed).getD []) := by
  have ht : w.terminates? (.move m) = none := by
    cases m with
    | task t =>
      obtain ⟨task, ht, _, _, ⟨_, _, rfl, _⟩ | ⟨_, rfl, _⟩⟩ := task_of_course? hm <;>
        simp [terminates?, ht]
    | runLoop _ | worker _ _ | grace _ => rfl
  have hr : w.removes? (.move m) = match c.action? with
      | some (.remove system name) => (w.systemNamed system).toOption.map fun s => (s, name)
      | _ => none := by
    rw [removes?, action?_of_course? hm]
  cases haction : c.action? with
  | none =>
    rw [haction] at hr
    exact .nothing rfl hr ht
  | some action =>
    rw [haction] at hr
    cases action with
    | remove system name =>
      simp only at hr
      show w.Prelude _ ((w.systemNamed system).toOption.toList.map _)
      cases hs : (w.systemNamed system).toOption with
      | none =>
        rw [hs] at hr
        exact .nothing rfl hr ht
      | some s =>
        rw [hs] at hr
        exact .strikes rfl hr ht
    | effect _ | close _ | clear _ | pending _ | alive _ | send _ => exact .nothing rfl hr ht

theorem prelude_of_move (haction : w.action? m = none) (ht : w.terminates? (.move m) = none) :
    w.Prelude (.move m) [] := by
  refine .nothing rfl ?_ ht
  simp only [removes?, haction]

/-- What cannot move frees no names. -/
theorem prelude_of_stuck (h : w.step m = none) : w.Prelude (.move m) [] := by
  have hr : w.removes? (.move m) = none := by
    cases haction : w.action? m with
    | none => simp only [removes?, haction]
    | some action =>
      obtain ⟨e, rfl⟩ := effect_of_stuck h haction
      simp only [removes?, haction]
  refine .nothing rfl hr ?_
  cases m with
  | task t =>
    rw [terminates?]
    split
    · -- A termination can always begin.
      rename_i s ht
      exfalso
      simp only [step, stepTask, ht, Option.bind_some, stepTermination, Option.map_eq_none_iff] at h
      split at h <;> cases h
    · rfl
  | runLoop _ | worker _ _ | grace _ => rfl

/-! ### Calls -/

theorem book_createMember {s : SystemId} {name kind : String} {invocable : Bool}
    (h : w.createMember s name kind invocable = (.ok a, w')) :
    (w.hosted && !(w.system s).terminated) = true ∧
      w'.book = w.book.turns [.joins, .lists s name w.actors.length invocable] := by
  obtain ⟨w₁, hcreate, hregister⟩ := createMember_eq_ok h
  obtain ⟨rfl, hjoin⟩ := book_createActor hcreate
  obtain ⟨hterm, hlist⟩ := book_register hregister
  refine ⟨?_, by rw [hlist, hjoin]; rfl⟩
  obtain ⟨hhosted, -, _, -, rfl⟩ := createActor_eq_ok hcreate
  -- A new actor changes no system.
  have hsame : (w.system s).terminated = false := hterm
  rw [hhosted, hsame]
  rfl

/-- A member cannot be created where nothing runs it, or in a system that has been terminated. -/
theorem createMember_error {s : SystemId} {name kind : String} {invocable : Bool} {e : ActorError}
    (h : w.createMember s name kind invocable = (.error e, w')) :
    (w.hosted && !(w.system s).terminated) = false := by
  rcases (createMember_eq_error h).1 with ⟨hterm, -⟩ | ⟨hhosted, -⟩
  · rw [hterm]
    exact Bool.and_false _
  · rw [hhosted]
    exact Bool.false_and _

theorem book_addPool {s : SystemId} {p : PoolId} {index : Nat}
    (h : w.addPool s p = (.ok index, w')) : w'.book = w.book := by
  obtain ⟨-, _, rfl⟩ := addPool_eq_ok h
  exact book_onSystem (w := w) fun _ => rfl

/-- A call, before anything is let go, shows in the book as its prelude. -/
def Registers (w : World) (c : Call) (w' : World) : Prop :=
  ∃ ts, w'.book = w.book.turns ts ∧ w.Prelude (.call c) ts

section Answers

variable {c : Call} {s : SystemId} {r : Response}

/-- The name that goes to a new member of a system. -/
def memberName (w : World) (s : SystemId) (name : String) : Option (SystemId × String × ActorId) :=
  if w.hosted && !(w.system s).terminated then some (s, name, w.actors.length) else none

theorem memberName_of_error {name kind : String} {invocable : Bool} {e : ActorError}
    (hcreate : w.createMember s name kind invocable = (.error e, w')) :
    w.memberName s name = none := by
  rw [memberName, createMember_error hcreate]
  rfl

theorem registers?_createMember {system actor name kind : String} {invocable : Bool}
    (hs : w.systemNamed system = .ok s) :
    w.registers? (.call (.createMember system actor name kind invocable)) =
      w.memberName s name := by
  simp only [registers?, hs, memberName]

theorem registers?_createChild {parent actor name kind : String} (ha : w.actorNamed parent = .ok a)
    (hs : w.systemOf a = some s) :
    w.registers? (.call (.createChild parent actor name kind)) = w.memberName s name := by
  simp only [registers?, ha, hs, memberName]

theorem registers?_attach {system actor : String} {name : Option String} {invocable : Bool}
    (hs : w.systemNamed system = .ok s) (ha : w.actorNamed actor = .ok a) :
    w.registers? (.call (.attach system actor name invocable)) =
      if (w.system s).terminated then none
      else some (s, name.getD (w.actor a).name, a) := by
  simp only [registers?, hs, ha]

/-- Who only looks gives nobody a name. -/
theorem registers?_of_looks (hc : c.looks = true) : w.registers? (.call c) = none := by
  cases c <;> first | rfl | cases hc

/-- Who is refused gives nobody a name. -/
theorem registers?_of_refuses {f : Failure} (h : w.Refuses c f) :
    w.registers? (.call c) = none := by
  cases h with
  | createMember hs h => exact (registers?_createMember hs).trans (memberName_of_error h)
  | @createChild _ _ _ _ a _ ha h =>
    rcases createChild_eq_error h with ⟨hsystem, -⟩ | ⟨s, hsystem, hmember⟩
    · simp only [registers?, ha, hsystem]
    · exact (registers?_createChild ha hsystem).trans (memberName_of_error hmember)
  | attach hs ha h =>
    rw [registers?_attach hs ha, (register_eq_error h).1]
    rfl
  | createPool _ | createSystem _ | createActor _ | addPool _ _ _ => rfl

/-- Most calls show nothing. -/
theorem Registers.quiet (hr : w.registers? (.call c) = none) (hbook : w'.book = w.book) :
    w.Registers c w' :=
  ⟨[], hbook, .nothing hr rfl rfl⟩

theorem Registers.member {name kind : String} {invocable : Bool} {w₁ : World}
    (hr : w.registers? (.call c) = w.memberName s name)
    (hcreate : w.createMember s name kind invocable = (.ok a, w₁)) (hbook : w'.book = w₁.book) :
    w.Registers c w' := by
  obtain ⟨hok, hmember⟩ := book_createMember hcreate
  exact ⟨_, hbook.trans hmember, .member (by rw [hr, memberName, hok]; rfl) rfl rfl⟩

/-- **Every call that succeeds** shows as its prelude. -/
theorem registers_answer (hs : w.scene.Sound) (h : w.Replies c r w') :
    w.Registers c w' := by
  cases h with
  | refuses h => exact .quiet (registers?_of_refuses h) rfl
  | looks hc _ => exact .quiet (registers?_of_looks hc) rfl
  | @createSystem system _ _ _ _ _ _ h =>
    obtain ⟨hid, hbook⟩ := book_createSystem h
    refine ⟨[.founds, .binds system w.systems.length], ?_, .founds rfl rfl rfl⟩
    rw [← hid, Book.turns, List.foldl_cons, ← hbook]
    rfl
  | createActor h => exact ⟨[.joins], (book_createActor h).2, .joins rfl rfl rfl⟩
  | createMember hsystem h => exact .member (registers?_createMember hsystem) h rfl
  | createChild ha h =>
    obtain ⟨s, w₁, hsystem, hcreate, rfl⟩ := createChild_eq_ok h
    exact .member (registers?_createChild ha hsystem) hcreate
      ((book_onActor rfl).trans (book_onActor rfl))
  | @attach _ _ name invocable s a _ hsystem ha h =>
    obtain ⟨hterm, hbook⟩ := book_register h
    refine ⟨[.lists s (name.getD (w.actor a).name) a invocable], hbook,
      .lists ?_ rfl rfl (lt_of_held hs (held_of_actorNamed ha))⟩
    rw [registers?_attach hsystem ha, hterm]
    rfl
  | @dropSystem system => exact ⟨[.drops system], rfl, .drops rfl rfl rfl⟩
  | send h => exact .quiet rfl (book_send h)
  | createPool h => exact .quiet rfl (discreet_createPool h).book
  | invoke _ => exact .quiet rfl (discreet_invokeByName ..).book
  | cancel _ | cancelActor _ _ => exact .quiet rfl (discreet_cancelJobs ..).book
  | clear _ => exact .quiet rfl (discreet_clear ..).book
  | shutdown _ => exact .quiet rfl (discreet_stopPool ..).book
  | shutdownNow _ => exact .quiet rfl (discreet_emptyPool ..).book
  | addPool _ _ h => exact .quiet rfl (book_addPool h)
  | fail => exact .quiet rfl (book_hand ..)
  | take _ => exact .quiet rfl (discreet_drain ..).book
  | get _ _ | poolAt _ _ | defaultPool _ | remove _ | close _ | terminate _ | dropActor | openGate
  | advance | wait _ | await _ => exact .quiet rfl rfl

end Answers

/-- A call that fails gives nobody a name. -/
theorem registers?_of_error {c : Call} {reason : String} (h : w.answer c = .error reason) :
    w.registers? (.call c) = none := by
  cases c with
  | createMember system actor name kind invocable =>
    cases hsystem : w.systemNamed system with
    | error message => simp only [registers?, hsystem]
    | ok s => simp [answer, hsystem, bind, Except.bind, pure, Except.pure] at h
  | createChild parent actor name kind =>
    cases hparent : w.actorNamed parent with
    | error message => simp only [registers?, hparent]
    | ok p => simp [answer, hparent, bind, Except.bind, pure, Except.pure] at h
  | attach system actor name invocable =>
    cases hsystem : w.systemNamed system with
    | error message => simp only [registers?, hsystem]
    | ok s =>
      cases hactor : w.actorNamed actor with
      | error message => simp only [registers?, hsystem, hactor]
      | ok a => simp [answer, hsystem, hactor, bind, Except.bind, pure, Except.pure] at h
  | _ => rfl

end World

end Troupe
