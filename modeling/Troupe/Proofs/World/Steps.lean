import Troupe.Proofs.World.Run

/-!
# What moves come to

An action is performed, a course advances, and a run loop or a task gets further: each of these is a
function that looks at much of the world before it does little. What it comes to is one of a few
facts, and each fact says what was found and what has been done about it.

The functions are opened here, so that what every move does or leaves alone can be proved by going
through the facts. When a move is not possible is said elsewhere.

## Main definitions

* `World.Misses` — an action whose name stands for nothing
* `World.Performs`, `World.Advances` — what an action and the move of a course come to
* `World.LoopSteps`, `World.RelaySteps` — what the moves of run loops come to
* `World.TaskSteps`, `World.TerminationSteps` — what the moves of tasks come to

## Main results

* `World.performs_of_perform`, `advances_of_stepCourse` — one action, and one move of a course
* `World.steps_of_stepLoop`, `steps_of_stepTask`, `steps_of_stepTermination` — one move
-/

namespace Troupe

namespace World

variable {w w' : World} {r : Runner}

/-! ### Courses -/

/-- A name that an action needs stands for nothing. -/
inductive Misses (w : World) : Action → String → Prop where
  /-- Nobody can be closed. -/
  | close {name message : String} (h : w.actorNamed name = .error message) :
    Misses w (.close name) message
  /-- Nobody can be cleared. -/
  | clear {name message : String} (h : w.actorNamed name = .error message) :
    Misses w (.clear name) message
  /-- Nobody's operations can be counted. -/
  | pending {name message : String} (h : w.actorNamed name = .error message) :
    Misses w (.pending name) message
  /-- Nobody can be looked at. -/
  | alive {name message : String} (h : w.actorNamed name = .error message) :
    Misses w (.alive name) message
  /-- There is no system to remove anybody from. -/
  | remove {system name message : String} (h : w.systemNamed system = .error message) :
    Misses w (.remove system name) message
  /-- What is to be sent cannot be. -/
  | send {s : Send} {message : String} (h : w.send s = .error message) : Misses w (.send s) message

/-- What an action comes to: how far its course gets, and the world after it. -/
inductive Performs (w : World) (r : Runner) (rest : Course) :
    Action → Progress → World → Prop where
  /-- A name stands for nothing, and the course breaks off. -/
  | misses {action : Action} {message : String} (h : w.Misses action message) :
    Performs w r rest action (.ends (.broke (.text message))) w
  /-- An effect has been had. -/
  | effect {e : Effect} {lines : Lines} {value : Json}
    (h : e.run w.gates (w.lines r.page) rest.value = .goesOn lines value) :
    Performs w r rest (.effect e) (.goesOn { rest with value }) (w.write r.page lines)
  /-- An effect has ended the course. -/
  | ends {e : Effect} {ending : Ending}
    (h : e.run w.gates (w.lines r.page) rest.value = .ends ending) :
    Performs w r rest (.effect e) (.ends ending) w
  /-- A close has begun. -/
  | close {name : String} {a : ActorId} (ha : w.actorNamed name = .ok a) :
    Performs w r rest (.close name)
      (.goesOn { rest with wait := (w.beginClose r.runLoop? none a).1 })
      (w.beginClose r.runLoop? none a).2
  /-- What waits for an actor has been dropped. -/
  | clear {name : String} {a : ActorId} (ha : w.actorNamed name = .ok a) :
    Performs w r rest (.clear name) (.goesOn { rest with value := .ofNat (w.clear a).1 })
      (w.clear a).2
  /-- The operations of an actor have been counted. -/
  | pending {name : String} {a : ActorId} (ha : w.actorNamed name = .ok a) :
    Performs w r rest (.pending name)
      (.goesOn { rest with value := .ofNat (w.actor a).pendingCount }) w
  /-- An actor has been looked at. -/
  | alive {name : String} {a : ActorId} (ha : w.actorNamed name = .ok a) :
    Performs w r rest (.alive name) (.goesOn { rest with value := .bool (w.actor a).isAlive }) w
  /-- A removal has begun. -/
  | remove {system name : String} {s : SystemId} {x : Progress × World}
    (hs : w.systemNamed system = .ok s) (hx : w.beginRemove r s name rest = x) :
    Performs w r rest (.remove system name) x.1 x.2
  /-- Something has been sent. -/
  | send {s : Send} {w' : World} (h : w.send s = .ok w') :
    Performs w r rest (.send s) (.goesOn rest) w'

/-- A name stands for nothing, or for what the action is about. -/
theorem named_cases {α : Type} {x : Except String α} {f : α → Progress × World}
    {y : Progress × World} (h : w.withNamed x f = y) :
    (∃ message, x = .error message ∧ (.ends (.broke (.text message)), w) = y) ∨
      ∃ a, x = .ok a ∧ f a = y := by
  cases x with
  | error message => exact .inl ⟨message, rfl, h⟩
  | ok a => exact .inr ⟨a, rfl, h⟩

/-- **One action** comes to one of these. -/
theorem performs_of_perform {action : Action} {rest : Course} {progress : Progress}
    (h : w.perform r action rest = some (progress, w')) :
    w.Performs r rest action progress w' := by
  cases action with
  | effect e =>
    simp only [perform] at h
    split at h
    · rename_i hrun
      cases h
      exact .effect hrun
    · rename_i hrun
      cases h
      exact .ends hrun
    · cases h
  | close name =>
    rcases named_cases (Option.some.inj h) with ⟨message, hx, heq⟩ | ⟨y, hx, heq⟩
    · cases heq
      exact .misses (.close hx)
    · cases heq
      exact .close hx
  | clear name =>
    rcases named_cases (Option.some.inj h) with ⟨message, hx, heq⟩ | ⟨y, hx, heq⟩
    · cases heq
      exact .misses (.clear hx)
    · cases heq
      exact .clear hx
  | pending name =>
    rcases named_cases (Option.some.inj h) with ⟨message, hx, heq⟩ | ⟨y, hx, heq⟩
    · cases heq
      exact .misses (.pending hx)
    · cases heq
      exact .pending hx
  | alive name =>
    rcases named_cases (Option.some.inj h) with ⟨message, hx, heq⟩ | ⟨y, hx, heq⟩
    · cases heq
      exact .misses (.alive hx)
    · cases heq
      exact .alive hx
  | remove system name =>
    rcases named_cases (Option.some.inj h) with ⟨message, hx, heq⟩ | ⟨s, hx, heq⟩
    · cases heq
      exact .misses (.remove hx)
    · exact .remove hx heq
  | send s =>
    rcases named_cases (Option.some.inj h) with ⟨message, hx, heq⟩ | ⟨y, hx, heq⟩
    · cases heq
      exact .misses (.send hx)
    · cases heq
      exact .send hx

/-- What one move of a course comes to. -/
inductive Advances (w : World) (r : Runner) (c : Course) : Progress → World → Prop where
  /-- A wait is over, and the close that it was for is completed. -/
  | waited {wait : Wait} (hw : c.wait = some wait) (hover : w.isOver wait = true) :
    Advances w r c (.goesOn { c with wait := none }) (w.endWait wait)
  /-- Nothing is left to do, and the body returns. -/
  | returns (hw : c.wait = none) (hrest : c.rest = []) :
    Advances w r c (.ends (.returned c.value)) w
  /-- The next action is performed. -/
  | performs {action : Action} {rest : List Action} {progress : Progress} {w' : World}
    (hw : c.wait = none) (hrest : c.rest = action :: rest)
    (h : w.Performs r { c with rest } action progress w') : Advances w r c progress w'

/-- **One move of a course** comes to one of these. -/
theorem advances_of_stepCourse {c : Course} {progress : Progress}
    (h : w.stepCourse r c = some (progress, w')) : w.Advances r c progress w' := by
  obtain ⟨rest, value, answer, wait⟩ := c
  cases wait with
  | some wait =>
    simp only [stepCourse] at h
    split at h
    · rename_i hover
      cases h
      exact .waited rfl hover
    · cases h
  | none =>
    cases rest with
    | nil =>
      cases h
      exact .returns rfl rfl
    | cons action rest => exact .performs rfl rfl (performs_of_perform h)

/-! ### Run loops -/

/-- What becomes of a relay: it waits neither for a job that has an outcome, nor once its actor is
to stop. -/
inductive RelaySteps (w : World) (a : ActorId) (h : HandleId) (p : PoolId) (j : JobId) :
    World → Prop where
  /-- It passes the outcome of the job on. -/
  | passesOn {o : Except PoolError Json} (ho : (w.pool p).outcome? j = some o) :
    RelaySteps w a h p j ((w.resolve h (o.mapError ActorError.ofPool)).setLoop a .idle)
  /-- It no longer waits for the job. -/
  | givesUp (ho : (w.pool p).outcome? j = none) (hs : (w.actor a).stopping = true) :
    RelaySteps w a h p j
      (((w.resolve h (.error (w.actor a).refusal)).deafen (.job p j)).setLoop a .idle)

theorem steps_of_stepRelay {a : ActorId} {k : HandleId} {p : PoolId} {j : JobId}
    (h : w.stepInside a (.relay k p j) = some w') : w.RelaySteps a k p j w' := by
  simp only [stepInside] at h
  split at h
  · rename_i ho
    cases h
    exact .passesOn ho
  · rename_i ho
    split at h
    · rename_i hstop
      cases h
      exact .givesUp ho hstop
    · cases h

/-- What a move of a run loop comes to. -/
inductive LoopSteps (w : World) (a : ActorId) : World → Prop where
  /-- It starts. -/
  | starts (hl : (w.actor a).loop = .starting) :
    LoopSteps w a ((w.report (.loopStarted (w.actor a).name)).setLoop a .idle)
  /-- It ends by itself. -/
  | quits (hl : (w.actor a).loop = .idle) (hs : (w.actor a).stopping = true) :
    LoopSteps w a (w.endLoop a)
  /-- It begins with the next envelope. -/
  | enters {w' : World} (hl : (w.actor a).loop = .idle) (hs : (w.actor a).stopping = false)
    (h : w.enterNext a = some w') : LoopSteps w a w'
  /-- Its operation goes on. -/
  | goesOn {h : HandleId} {c c' : Course} {w₁ : World}
    (hl : (w.actor a).loop = .inside (.operation h c))
    (hc : w.stepCourse (.runLoop a) c = some (.goesOn c', w₁)) :
    LoopSteps w a (w₁.setLoop a (.inside (.operation h c')))
  /-- Its operation ends. -/
  | ends {h : HandleId} {c : Course} {ending : Ending} {w₁ : World}
    (hl : (w.actor a).loop = .inside (.operation h c))
    (hc : w.stepCourse (.runLoop a) c = some (.ends ending, w₁)) :
    LoopSteps w a ((w₁.finishOperation a h c.answer ending).setLoop a .idle)
  /-- Its relay is done. -/
  | relays {h : HandleId} {p : PoolId} {j : JobId} {w' : World}
    (hl : (w.actor a).loop = .inside (.relay h p j)) (hr : w.RelaySteps a h p j w') :
    LoopSteps w a w'

/-- **One move of a run loop** comes to one of these. -/
theorem steps_of_stepLoop {a : ActorId} (h : w.stepLoop a = some w') : w.LoopSteps a w' := by
  rw [stepLoop] at h
  cases hloop : (w.actor a).loop with
  | starting =>
    rw [hloop] at h
    cases h
    exact .starts hloop
  | ended =>
    rw [hloop] at h
    cases h
  | idle =>
    simp only [hloop] at h
    split at h
    · rename_i hstop
      cases h
      exact .quits hloop hstop
    · rename_i hstop
      exact .enters hloop (by simpa using hstop) h
  | inside i =>
    rw [hloop] at h
    cases i with
    | operation k c =>
      obtain ⟨⟨progress, w₁⟩, hstep, rfl⟩ := Option.map_eq_some_iff.mp h
      cases progress with
      | goesOn c' => exact .goesOn hloop hstep
      | ends ending => exact .ends hloop hstep
    | relay k p j => exact .relays hloop (steps_of_stepRelay h)

/-! ### Tasks -/

/-- What one move of a termination comes to. -/
inductive TerminationSteps (w : World) (t : TaskId) (h : HandleId) (s : SystemId) :
    Stage → World → Prop where
  /-- The system has been terminated before. -/
  | tooLate (hterm : (w.system s).terminated = true) :
    TerminationSteps w t h s .starting
      (((w.report (.alreadyTerminated (w.system s).name)).resolve h (.ok .null)).endTask t)
  /-- The system is terminated, and its actors are being closed. -/
  | begins (hterm : (w.system s).terminated = false) :
    TerminationSteps w t h s .starting ((w.beginTermination s).2.setTask t
      (.termination h s (.closing (w.beginTermination s).1)))
  /-- All actors are closed, and the pools are shut down. -/
  | stopsPools : TerminationSteps w t h s (.closing []) ((w.stopPools (w.system s).pools).setTask t
      (.termination h s (.draining (w.system s).pools)))
  /-- The wait for an actor is over, and its close is completed. -/
  | completes {waits : List Wait} {x : Wait} (hx : waits.find? w.isOver = some x) :
    TerminationSteps w t h s (.closing waits) ((w.endWait x).setTask t
      (.termination h s (.closing (waits.filter (·.order != x.order)))))
  /-- Some pools have been drained. -/
  | drains {pools : List PoolId} (hp : pools.any (fun p => (w.pool p).isTerminated) = true) :
    TerminationSteps w t h s (.draining pools) (w.setTask t (.termination h s
      (.draining (pools.filter fun p => !(w.pool p).isTerminated))))
  /-- All pools have been drained. -/
  | ends : TerminationSteps w t h s (.draining [])
      (((w.report (.systemTerminated (w.system s).name)).resolve h (.ok .null)).endTask t)

/-- **One move of a termination** comes to one of these. -/
theorem steps_of_stepTermination {t : TaskId} {h : HandleId} {s : SystemId} {stage : Stage}
    (hstep : w.stepTermination t h s stage = some w') : w.TerminationSteps t h s stage w' := by
  cases stage with
  | starting =>
    simp only [stepTermination] at hstep
    split at hstep
    · rename_i hterm
      cases hstep
      exact .tooLate hterm
    · rename_i hterm
      cases hstep
      exact .begins (by simpa using hterm)
  | closing waits =>
    cases waits with
    | nil =>
      cases hstep
      exact .stopsPools
    | cons wait waits =>
      obtain ⟨x, hx, rfl⟩ := Option.map_eq_some_iff.mp hstep
      exact .completes hx
  | draining pools =>
    cases pools with
    | nil =>
      cases hstep
      exact .ends
    | cons p pools =>
      simp only [stepTermination] at hstep
      split at hstep
      · rename_i hp
        cases hstep
        exact .drains hp
      · cases hstep

/-- What one move of a task comes to. -/
inductive TaskSteps (w : World) (t : TaskId) : World → Prop where
  /-- An operation that went past the mailbox goes on. -/
  | bypassGoesOn {a : ActorId} {h : HandleId} {c c' : Course} {w₁ : World}
    (ht : w.task? t = some (.bypass a h c))
    (hc : w.stepCourse (.bypass a) c = some (.goesOn c', w₁)) :
    TaskSteps w t (w₁.setTask t (.bypass a h c'))
  /-- An operation that went past the mailbox ends. -/
  | bypassEnds {a : ActorId} {h : HandleId} {c : Course} {ending : Ending} {w₁ : World}
    (ht : w.task? t = some (.bypass a h c))
    (hc : w.stepCourse (.bypass a) c = some (.ends ending, w₁)) :
    TaskSteps w t ((w₁.finishOperation a h c.answer ending).endTask t)
  /-- A call of a client goes on. -/
  | errandGoesOn {h : HandleId} {c c' : Course} {w₁ : World} (ht : w.task? t = some (.errand h c))
    (hc : w.stepCourse .client c = some (.goesOn c', w₁)) :
    TaskSteps w t (w₁.setTask t (.errand h c'))
  /-- A call of a client ends. -/
  | errandEnds {h : HandleId} {c : Course} {ending : Ending} {w₁ : World}
    (ht : w.task? t = some (.errand h c)) (hc : w.stepCourse .client c = some (.ends ending, w₁)) :
    TaskSteps w t ((w₁.resolve h (c.answer.outcome ending)).endTask t)
  /-- An invocation by name is answered. -/
  | replies {h operation : HandleId} {a : ActorId} {s : SystemId} {o : Except ActorError Json}
    (ht : w.task? t = some (.invocation h operation a s)) (ho : w.outcome? operation = some o) :
    TaskSteps w t ((w.resolve h (.ok (replyOf o))).endTask t)
  /-- A termination gets further. -/
  | terminates {h : HandleId} {s : SystemId} {stage : Stage} {w' : World}
    (ht : w.task? t = some (.termination h s stage)) (hw : w.TerminationSteps t h s stage w') :
    TaskSteps w t w'

/-- **One move of a task** comes to one of these. -/
theorem steps_of_stepTask {t : TaskId} (h : w.stepTask t = some w') : w.TaskSteps t w' := by
  obtain ⟨task, ht, h⟩ := Option.bind_eq_some_iff.mp h
  cases task with
  | bypass a k c =>
    obtain ⟨⟨progress, w₁⟩, hstep, rfl⟩ := Option.map_eq_some_iff.mp h
    cases progress with
    | goesOn c' => exact .bypassGoesOn ht hstep
    | ends ending => exact .bypassEnds ht hstep
  | errand k c =>
    obtain ⟨⟨progress, w₁⟩, hstep, rfl⟩ := Option.map_eq_some_iff.mp h
    cases progress with
    | goesOn c' => exact .errandGoesOn ht hstep
    | ends ending => exact .errandEnds ht hstep
  | invocation k operation a s =>
    obtain ⟨o, ho, rfl⟩ := Option.map_eq_some_iff.mp h
    exact .replies ht ho
  | termination k s stage => exact .terminates ht (steps_of_stepTermination h)

end World

end Troupe
