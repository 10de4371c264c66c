import Mathlib.Data.List.Induction
import Troupe.Session.Basic

/-!
# Runs of a world

Clients make calls, whatever is able to move moves, and somebody looks at what has come out: a run
is any list of these, in any order. A session, in which the world settles after each call, is one
way to order them.

A run is watched through what is sent in it. Everything that is sent to an actor gets a handle, and
the handle shows at once whether the actor has refused it.

## Main definitions

* `World.Act`, `World.next`, `World.run` — what happens to a world
* `World.record` — what is seen in a run
* `Route`, `Sending` — how something is sent to an actor, and what comes of it at once
* `World.sending`, `World.sendings` — what an act sends, and what a run has sent
* `World.jobOwners` — on whose behalf a run has submitted jobs of their own
* `World.Clears` — an act that clears an actor
* `World.waits` — the ends of run loops that a mover waits for

## Main results

* `World.session_run` — a session leads to the world at the end of some run
-/

namespace Troupe

/-- The action that comes next, unless something is waited for. -/
def Course.action? (c : Course) : Option Action :=
  match c.wait with
  | none => c.rest.head?
  | some _ => none

namespace Course

variable {c : Course}

theorem action?_of_wait {wait : Wait} (h : c.wait = some wait) : c.action? = none := by
  rw [action?, h]

theorem action?_of_nil (h : c.rest = []) : c.action? = none := by
  cases hwait : c.wait <;> simp [action?, hwait, h]

theorem action?_of_cons {action : Action} {rest : List Action} (hw : c.wait = none)
    (h : c.rest = action :: rest) : c.action? = some action := by
  simp [action?, hw, h]

end Course

/-- The course that a task is inside of. -/
def Task.course? : Task → Option Course
  | .bypass _ _ course | .errand _ course => some course
  | _ => none

namespace World

/-- What happens to a world. -/
inductive Act where
  /-- A client makes a call. -/
  | call (c : Call)
  /-- Something moves, if it can. -/
  | move (m : Mover)
  /-- Settled handles and notices are handed out. -/
  | observe

/-- The world after an act. -/
def next (w : World) : Act → World
  | .call c => (w.call c).2
  | .move m => (w.step m).getD w
  | .observe => w.collect.2.takeNotices.2

theorem next_of_step {w w' : World} {m : Mover} (h : w.step m = some w') :
    w.next (.move m) = w' := by
  rw [next, h, Option.getD_some]

theorem next_of_stuck {w : World} {m : Mover} (h : w.step m = none) : w.next (.move m) = w := by
  rw [next, h, Option.getD_none]

theorem next_of_answer {w w' : World} {c : Call} {r : Response} (h : w.answer c = .ok (r, w')) :
    w.next (.call c) = w'.release := by
  simp only [next, call, h]

theorem next_of_unknown {w : World} {c : Call} {reason : String} (h : w.answer c = .error reason) :
    w.next (.call c) = w := by
  simp only [next, call, h]

/-- The world at the end of a run. -/
def run (acts : List Act) : World := acts.foldl next {}

theorem run_concat (acts : List Act) (act : Act) : run (acts ++ [act]) = (run acts).next act := by
  simp [run]

/-! ### Sessions are runs -/

theorem firstStep_next {w w' : World} {queue rest : List Mover}
    (h : w.firstStep queue = some (w', rest)) : ∃ m, w' = w.next (.move m) := by
  induction queue with
  | nil => cases h
  | cons m queue ih =>
    rw [firstStep] at h
    split at h
    · rename_i hstep
      cases h
      exact ⟨m, (next_of_step hstep).symm⟩
    · exact ih h

theorem turn_next {w w' : World} {queue rest : List Mover} (h : w.turn queue = some (rest, w')) :
    ∃ m, w' = w.next (.move m) := by
  rw [turn] at h
  split at h
  · rename_i hfirst
    cases h
    exact firstStep_next hfirst
  · obtain ⟨⟨u, _⟩, hfirst, heq⟩ := Option.map_eq_some_iff.mp h
    cases heq
    exact firstStep_next hfirst

/-- Settling is a list of moves. -/
theorem turns_foldl (n : Nat) (queue : List Mover) (w : World) :
    ∃ acts : List Act, turns n queue w = acts.foldl next w := by
  induction n generalizing queue w with
  | zero => exact ⟨[], rfl⟩
  | succ n ih =>
    rw [turns]
    split
    · rename_i rest w' hturn
      obtain ⟨m, rfl⟩ := turn_next hturn
      obtain ⟨acts, hacts⟩ := ih rest (w.next (.move m))
      exact ⟨.move m :: acts, hacts⟩
    · exact ⟨[], rfl⟩

theorem runCalls_foldl (calls : List Call) (w : World) :
    ∃ acts : List Act, (Step.runCalls calls w).2 = acts.foldl next w := by
  induction calls using List.reverseRecOn with
  | nil => exact ⟨[], rfl⟩
  | append_singleton calls c ih =>
    obtain ⟨acts, hacts⟩ := ih
    obtain ⟨moves, hmoves⟩ := turns_foldl (((Step.runCalls calls w).2.call c).2.weight)
      ((Step.runCalls calls w).2.call c).2.firstQueue ((Step.runCalls calls w).2.call c).2
    refine ⟨acts ++ .call c :: moves, ?_⟩
    rw [List.foldl_append, ← hacts, Step.runCalls, List.foldl_append]
    exact hmoves

/-- **Sessions are runs.** -/
theorem session_run (session : Session) :
    ∃ acts, session.foldl (fun w s => (s.run w).2) {} = run acts := by
  induction session using List.reverseRecOn with
  | nil => exact ⟨[], rfl⟩
  | append_singleton session s ih =>
    obtain ⟨acts, hacts⟩ := ih
    obtain ⟨more, hmore⟩ := runCalls_foldl s.calls (run acts)
    have hrun : run (acts ++ more) = (Step.runCalls s.calls (run acts)).2 :=
      (List.foldl_append ..).trans hmore.symm
    refine ⟨acts ++ more ++ [.observe], ?_⟩
    rw [run_concat, hrun, List.foldl_append, hacts]
    rfl

/-! ### What is seen -/

/-- What is seen in a run, given what is seen in each act. -/
def record {α : Type} (see : World → Act → List α) (acts : List Act) : List α :=
  (acts.foldl (fun (w, seen) act => (w.next act, seen ++ see w act)) (({} : World), [])).2

theorem record_concat {α : Type} (see : World → Act → List α) (acts : List Act) (act : Act) :
    record see (acts ++ [act]) = record see acts ++ see (run acts) act := by
  have hworld : ∀ acts : List Act, (acts.foldl (fun (x : World × List α) act =>
      (x.1.next act, x.2 ++ see x.1 act)) (({} : World), [])).1 = run acts := by
    intro acts
    induction acts using List.reverseRecOn with
    | nil => rfl
    | append_singleton acts act ih => rw [List.foldl_append, run_concat, ← ih]; rfl
  rw [record, List.foldl_append, ← hworld]
  rfl

/-- What has been seen is not taken back. -/
theorem record_isPrefix {α : Type} (see : World → Act → List α) (acts later : List Act) :
    record see acts <+: record see (acts ++ later) := by
  induction later using List.reverseRecOn with
  | nil => exact (List.append_nil acts).symm ▸ List.prefix_rfl
  | append_singleton later act ih =>
    rw [← List.append_assoc, record_concat]
    exact ih.trans (List.prefix_append _ _)

/-! ### What is done -/

/-- The action that a mover is about to perform on behalf of an operation or of a client. -/
def action? (w : World) : Mover → Option Action
  | .runLoop a => (w.actor a).loop.course?.bind Course.action?
  | .task t => ((w.task? t).bind Task.course?).bind Course.action?
  | _ => none

/-- What a mover waits for. -/
def waits (w : World) : Mover → List Wait
  | .runLoop a => ((w.actor a).loop.course?.bind (·.wait)).toList
  | .task t => (w.task? t).elim [] Task.waits
  | .worker _ _ | .grace _ => []

/-- An act clears an actor, on a call or from within an operation. -/
def Clears (w : World) (act : Act) (a : ActorId) : Prop :=
  ∃ name, w.actorNamed name = .ok a ∧
    (act = .call (.clear name) ∨ ∃ m, act = .move m ∧ w.action? m = some (.clear name))

end World

/-! ### What is sent -/

/-- How an operation is sent to an actor. -/
inductive Route where
  /-- Through the mailbox. -/
  | ordered
  /-- Past the mailbox. -/
  | bypass
  /-- To a pool, with a relay in the mailbox. -/
  | offloaded (pool : PoolId) (job : JobId)
  deriving DecidableEq

/-- The owner of a job that is sent to a pool on nobody's behalf but the sender's. -/
def Send.jobOwner? : Send → Option String
  | .job _ owner _ _ _ => owner
  | .operation _ _ _ _ _ | .offload _ _ _ _ _ _ => none

/-- Something that was sent to an actor. -/
structure Sending where
  /-- The actor. -/
  actor : ActorId
  /-- The handle. -/
  handle : HandleId
  /-- The route. -/
  route : Route
  /-- What the handle shows at once: nothing if the operation was accepted. -/
  answer : Option (Except ActorError Json)

namespace World

/-- To whom something is sent, and how. -/
def destination (w : World) (s : Send) : Option (ActorId × Route) :=
  match s with
  | .operation path actor _ _ _ =>
    (w.actorNamed actor).toOption.map fun a =>
      (a, match path with
        | .ordered => .ordered
        | .bypass => .bypass)
  | .offload actor pool _ _ _ _ =>
    match w.actorNamed actor, w.poolNamed pool with
    | .ok a, .ok p => some (a, .offloaded p (w.pool p).channels.length)
    | _, _ => none
  | .job _ _ _ _ _ => none

/-- The owner under which an act submits a job of its own, if it does. -/
def jobOwner? (w : World) : Act → Option String
  | .call (.send s) => s.jobOwner?
  | .move m =>
    match w.action? m with
    | some (.send s) => s.jobOwner?
    | _ => none
  | _ => none

/-- To whom an act sends something, with which handle, and how. -/
def target? (w : World) : Act → Option (ActorId × HandleId × Route)
  | .call (.send s) => (w.destination s).map fun (a, r) => (a, w.channels.length, r)
  | .call (.invoke system _ name _ _) =>
    match w.systemNamed system with
    | .ok s =>
      match (w.system s).registry.find? name with
      | some { actor, invocable := true } => some (actor, w.channels.length + 1, .ordered)
      | _ => none
    | .error _ => none
  | .move m =>
    match w.action? m with
    | some (.send s) => (w.destination s).map fun (a, r) => (a, w.channels.length, r)
    | _ => none
  | _ => none

/-- What an act sends to an actor. -/
def sending (w : World) (act : Act) : Option Sending :=
  (w.target? act).map fun (actor, handle, route) =>
    { actor, handle, route, answer := (w.next act).outcome? handle }

/-- What a run has sent to actors, in order. -/
def sendings (acts : List Act) : List Sending := record (fun w act => (w.sending act).toList) acts

/-- The owners under which jobs of their own were submitted in a run. -/
def jobOwners (acts : List Act) : List String := record (fun w act => (w.jobOwner? act).toList) acts

theorem jobOwners_concat (acts : List Act) (act : Act) :
    jobOwners (acts ++ [act]) = jobOwners acts ++ ((run acts).jobOwner? act).toList :=
  record_concat _ acts act

theorem sendings_concat (acts : List Act) (act : Act) :
    sendings (acts ++ [act]) = sendings acts ++ ((run acts).sending act).toList :=
  record_concat _ acts act

end World

end Troupe
