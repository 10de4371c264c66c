import Troupe.Proofs.World.Steps

/-!
# Commissions and what becomes of them

What is sent to an actor comes with a body: a list of actions that some run loop, some task or some
worker is to perform. A commission is what was sent together with its body, and its history is
what has been done on behalf of that body in a run: which actions were performed, and how it ended.

A history is seen from outside. It is recorded act by act from what the mover of an act is working
on, so it would show a body that is run twice, or one that goes on after it has ended.

## Main definitions

* `Doing`, `Ran` — what is done on behalf of a body, and the histories of a body that runs once
* `World.operation?`, `World.doings`, `World.history` — what movers work on, and what they do
* `Commission`, `World.commissions` — what a run has sent, with the bodies

## Main results

* `World.perform_cases`, `World.stepCourse_cases` — what a course may do in one move
-/

namespace Troupe

/-! ### Histories -/

/-- What is done on behalf of a body. -/
inductive Doing where
  /-- An action is performed. -/
  | performs (action : Action)
  /-- The body ends. -/
  | ends (ending : Ending)

/-- An action may end a body early: by failing or breaking off, or because it names something that
is not there. -/
def Action.Cuts (action : Action) : Ending → Prop
  | .returned _ => False
  | .failed message => action = .effect (.fail message)
  | .broke payload => ∀ e, action = .effect e → e = .panic payload

/-- The histories of a body that runs once: its actions come in order, and after its end nothing
comes. -/
inductive Ran (body : List Action) : List Doing → Prop where
  /-- The first actions have been performed. -/
  | partly {done rest : List Action} (h : body = done ++ rest) : Ran body (done.map .performs)
  /-- All actions have been performed, and the body has returned. -/
  | returned (v : Json) : Ran body (body.map .performs ++ [.ends (.returned v)])
  /-- An action has ended the body. -/
  | cut {done rest : List Action} {action : Action} {ending : Ending}
    (h : body = done ++ action :: rest) (hc : action.Cuts ending) :
    Ran body ((done ++ [action]).map .performs ++ [.ends ending])

theorem Ran.nil {body : List Action} : Ran body [] :=
  @Ran.partly body [] body rfl

/-! ### What movers do -/

namespace World

variable {w w' : World}

/-- The operation that a mover works on, and on whose behalf. -/
def operation? (w : World) : Mover → Option (Runner × HandleId × Course)
  | .runLoop a =>
    match (w.actor a).loop with
    | .inside (.operation h course) => some (.runLoop a, h, course)
    | _ => none
  | .task t =>
    match w.task? t with
    | some (.bypass a h course) => some (.bypass a, h, course)
    | _ => none
  | _ => none

/-- What the next move of a course does. -/
def courseDoings (w : World) (r : Runner) (c : Course) : List Doing :=
  match w.stepCourse r c with
  | none => []
  | some (.goesOn _, _) => c.action?.toList.map .performs
  | some (.ends ending, _) => c.action?.toList.map .performs ++ [.ends ending]

/-- What the next move of a worker does with its job. -/
def jobDoings (w : World) (work : Work) : List Doing :=
  match work.rest with
  | [] => [.ends (.returned work.value)]
  | e :: _ =>
    match e.run w.gates (w.lines work.page) work.value with
    | .goesOn _ _ => [.performs (.effect e)]
    | .ends ending => [.performs (.effect e), .ends ending]
    | .waits => []

/-- The body that a mover works on, and what its next move does. -/
def doing? (w : World) : Mover → Option (HandleRef × List Doing)
  | .worker p place =>
    ((w.pool p).jobAt place).map fun job => (.job p job.id, w.jobDoings job.body)
  | m => (w.operation? m).map fun (r, h, course) => (.operation h, w.courseDoings r course)

/-- What an act does on behalf of a body. -/
def doings (r : HandleRef) (w : World) : Act → List Doing
  | .move m =>
    match w.doing? m with
    | some (site, ds) => if site = r then ds else []
    | none => []
  | .call _ | .observe => []

/-- What has been done on behalf of a body in a run. -/
def history (r : HandleRef) (acts : List Act) : List Doing := record (doings r) acts

theorem history_concat (r : HandleRef) (acts : List Act) (act : Act) :
    history r (acts ++ [act]) = history r acts ++ doings r (run acts) act :=
  record_concat _ acts act

end World

/-! ### Commissions -/

/-- What was sent to an actor, with its body and with what becomes of its value. -/
structure Commission extends Sending where
  /-- The body. -/
  body : List Action
  /-- What becomes of the value. -/
  kind : Answer

/-- The body of what is sent. -/
def Send.order : Send → List Action × Answer
  | .operation _ _ body answer _ => (body, answer)
  | .offload _ _ _ body answer _ => (body.map .effect, answer)
  | .job _ _ _ body _ => (body.map .effect, .value)

namespace Commission

/-- Where the body is to run: in the job that a pool has got for it, or else as the operation
itself. -/
def site (x : Commission) : HandleRef :=
  match x.route, x.answer with
  | .offloaded p j, none => .job p j
  | _, _ => .operation x.handle

/-- The outcome that an end of the body stands for. A pool hands it on in its own terms. -/
def outcomeOf (x : Commission) (ending : Ending) : Except ActorError Json :=
  match x.route with
  | .offloaded _ _ => (x.kind.jobOutcome ending).mapError ActorError.ofPool
  | .ordered | .bypass => x.kind.outcome ending

end Commission

namespace World

/-- The body of what an act sends. -/
def order (w : World) : Act → List Action × Answer
  | .call (.send s) => s.order
  | .call (.invoke _ _ _ action args) => (Action.ofInvocation action args, .reply)
  | .move m =>
    match w.action? m with
    | some (.send s) => s.order
    | _ => ([], .unit)
  | _ => ([], .unit)

/-- What an act sends to an actor, with the body. -/
def commission (w : World) (act : Act) : Option Commission :=
  (w.sending act).map fun x => { x with body := (w.order act).1, kind := (w.order act).2 }

/-- What a run has sent to actors, in order, with the bodies. -/
def commissions (acts : List Act) : List Commission :=
  record (fun w act => (w.commission act).toList) acts

theorem commissions_concat (acts : List Act) (act : Act) :
    commissions (acts ++ [act]) = commissions acts ++ ((run acts).commission act).toList :=
  record_concat _ acts act

/-- Every commission is a sending. -/
theorem map_commissions (acts : List Act) :
    (commissions acts).map Commission.toSending = sendings acts := by
  induction acts using List.reverseRecOn with
  | nil => rfl
  | append_singleton acts act ih =>
    rw [commissions_concat, sendings_concat, List.map_append, ih, commission]
    cases (run acts).sending act <;> rfl

theorem mem_sendings {acts : List Act} {x : Commission} (h : x ∈ commissions acts) :
    x.toSending ∈ sendings acts := by
  rw [← map_commissions]
  exact List.mem_map_of_mem h

/-! ### One move of a course -/

variable {w w' : World} {r : Runner} {c : Course} {progress : Progress}

/-- An effect that ends a body is the one that says so. -/
theorem cuts_of_run {e : Effect} {gates : List String} {lines : Lines} {value : Json}
    {ending : Ending} (h : e.run gates lines value = .ends ending) :
    (Action.effect e).Cuts ending := by
  cases e with
  | panic payload =>
    cases h
    rintro e he
    cases he
    rfl
  | fail message =>
    cases h
    rfl
  | gate name =>
    simp only [Effect.run] at h
    split at h <;> cases h
  | push _ | give _ | giveCount | giveAll | giveJoined => cases h

/-- **One action** leaves the rest of the course alone, or it ends the body and does nothing. -/
theorem perform_cases {action : Action} {rest : Course} (h : w.Performs r rest action progress w') :
    (∃ c, progress = .goesOn c ∧ c.rest = rest.rest ∧ c.answer = rest.answer) ∨
      ∃ ending, progress = .ends ending ∧ action.Cuts ending ∧ w' = w := by
  cases h with
  | misses h =>
    refine .inr ⟨_, rfl, fun e he => ?_, rfl⟩
    subst he
    cases h
  | ends h => exact .inr ⟨_, rfl, cuts_of_run h, rfl⟩
  | effect _ | close _ | clear _ | pending _ | alive _ | send _ => exact .inl ⟨_, rfl, rfl, rfl⟩
  | remove _ hx =>
    subst hx
    rw [beginRemove]
    split
    · exact .inl ⟨_, rfl, rfl, rfl⟩
    · exact .inl ⟨_, rfl, rfl, rfl⟩

/-- **One move of a course**: the action that comes next leaves the rest alone or ends the body;
where none is left, the body returns. A move that ends the body does nothing else. -/
theorem stepCourse_cases (h : w.stepCourse r c = some (progress, w')) :
    (∃ c', progress = .goesOn c' ∧ c.rest = c.action?.toList ++ c'.rest ∧ c'.answer = c.answer) ∨
      (∃ action rest ending, progress = .ends ending ∧ c.action? = some action ∧
        c.rest = action :: rest ∧ action.Cuts ending ∧ w' = w) ∨
      (progress = .ends (.returned c.value) ∧ c.action? = none ∧ c.rest = [] ∧ w' = w) := by
  cases advances_of_stepCourse h with
  | waited hw _ => exact .inl ⟨_, rfl, by rw [Course.action?_of_wait hw]; rfl, rfl⟩
  | returns _ hrest => exact .inr (.inr ⟨rfl, Course.action?_of_nil hrest, hrest, rfl⟩)
  | performs hw hrest hp =>
    have hnext := Course.action?_of_cons hw hrest
    rcases perform_cases hp with ⟨c', rfl, hc, hanswer⟩ | ⟨ending, rfl, hcut, hsame⟩
    · refine .inl ⟨c', rfl, ?_, hanswer⟩
      rw [hnext, hc, hrest]
      rfl
    · exact .inr (.inl ⟨_, _, ending, rfl, hnext, hrest, hcut, hsame⟩)

/-- A course that ends has left the world alone. -/
theorem eq_of_ends {ending : Ending} (h : w.stepCourse r c = some (.ends ending, w')) :
    w' = w := by
  rcases stepCourse_cases h with ⟨_, hgo, -⟩ | ⟨_, _, _, -, -, -, -, hsame⟩ | ⟨-, -, -, hsame⟩
  · cases hgo
  · exact hsame
  · exact hsame

end World

end Troupe
