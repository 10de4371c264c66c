import Troupe.Reply

/-!
# Operations

What clients ask of actors and pools. A body is a list of actions; it runs on the lines of some
target and ends with the value that was set last, unless an action ends it earlier. The actions of
a job touch nothing but its lines. The operation of an actor may also act on actors and systems,
which it names by the variables of the session that it belongs to.

## Main definitions

* `Lines`, `Target` — what bodies work on
* `Effect`, `Action`, `Send` — the actions of jobs, the actions of operations, the ways to send
* `Answer` — what becomes of the value of a body
* `Effect.run` — one effect on the lines
* `Action.ofInvocation` — the body of an action that is selected by name
* `Action.numbered`, `Send.numbered` — the copies of a body in a repetition
-/

namespace Troupe

/-- What a body works on. -/
abbrev Lines := List String

/-- What an actor wraps: lines for its operations, and lines for its pool jobs. -/
structure Target where
  /-- The lines of the operations. -/
  main : Lines := []
  /-- The lines of the pool jobs. -/
  side : Lines := []
  deriving Repr, DecidableEq, Inhabited

/-- What becomes of the value of a body. -/
inductive Answer where
  /-- Nothing; only that the body has run is of interest. -/
  | unit
  /-- The value itself. -/
  | value
  /-- The reply to an invocation. -/
  | reply
  deriving Repr, DecidableEq, Inhabited

/-- Who gets the handle of a call. -/
inductive Recipient where
  /-- Somebody awaits it under a name. -/
  | watched (name : String)
  /-- It is kept under a name. -/
  | held (name : String)
  /-- Nobody; it is dropped at once. -/
  | nobody
  deriving Repr, DecidableEq, Inhabited

/-- An action that touches nothing but the lines of its body. -/
inductive Effect where
  /-- Appends a line. -/
  | push (line : String)
  /-- Sets the value. -/
  | give (value : Json)
  /-- The value is the number of lines. -/
  | giveCount
  /-- The value is a copy of the lines. -/
  | giveAll
  /-- The value is the lines as one text. -/
  | giveJoined
  /-- Waits until a gate is open. -/
  | gate (name : String)
  /-- Breaks off. -/
  | panic (payload : Panic)
  /-- Ends with an error. -/
  | fail (message : String)
  deriving Repr, BEq, Inhabited

/-- How an operation reaches its actor. -/
inductive Path where
  /-- Through the mailbox. -/
  | ordered
  /-- At once, past the mailbox. -/
  | bypass
  deriving Repr, DecidableEq, Inhabited

mutual

/-- An action of an operation. -/
inductive Action where
  /-- An effect on the lines of the actor. -/
  | effect (e : Effect)
  /-- Awaits the close of an actor. -/
  | close (actor : String)
  /-- The value is the number of operations and jobs removed from an actor. -/
  | clear (actor : String)
  /-- The value is the length of an actor's mailbox. -/
  | pending (actor : String)
  /-- The value says whether an actor is alive. -/
  | alive (actor : String)
  /-- The value says whether a system had an actor under the name; awaits its close. -/
  | remove (system name : String)
  /-- Sends something without waiting for it. -/
  | send (s : Send)

/-- A way to send something to an actor or a pool. -/
inductive Send where
  /-- An operation for an actor. -/
  | operation (path : Path) (actor : String) (body : List Action) (answer : Answer)
      (recipient : Recipient)
  /-- A job for a pool on behalf of an actor, whose outcome comes through the mailbox. -/
  | offload (actor pool : String) (urgent : Bool) (body : List Effect) (answer : Answer)
      (recipient : Recipient)
  /-- A job for a pool. -/
  | job (pool : String) (owner : Option String) (urgent : Bool) (body : List Effect)
      (recipient : Recipient)

end

instance : Inhabited Action := ⟨.effect .giveCount⟩

instance : Inhabited Send := ⟨.job "" none false [] .nobody⟩

/-- How a body ends. -/
inductive Ending where
  /-- With a value. -/
  | returned (value : Json)
  /-- With an error. -/
  | failed (message : String)
  /-- By breaking off. -/
  | broke (payload : Panic)
  deriving Repr, BEq, Inhabited

/-! ### Running a body -/

/-- What one effect does: it ends the body, or leaves lines and a value. A gate is passed only if
it is open. -/
inductive Effect.Result where
  /-- The body goes on. -/
  | goesOn (lines : Lines) (value : Json)
  /-- The body ends. -/
  | ends (ending : Ending)
  /-- The body waits. -/
  | waits

/-- One effect on lines and value, given the open gates. -/
def Effect.run (openGates : List String) (lines : Lines) (value : Json) : Effect → Effect.Result
  | .push line => .goesOn (lines ++ [line]) value
  | .give v => .goesOn lines v
  | .giveCount => .goesOn lines (.ofNat lines.length)
  | .giveAll => .goesOn lines (.ofTexts lines)
  | .giveJoined => .goesOn lines (.str (", ".intercalate lines))
  | .gate name => if openGates.contains name then .goesOn lines value else .waits
  | .panic payload => .ends (.broke payload)
  | .fail message => .ends (.failed message)

/-- The value of a body as the payload of a reply. -/
def payload : Json → String
  | .str s => s
  | v => v.render

/-- What a body that returned hands to its handle. -/
def Answer.ofValue (v : Json) : Answer → Json
  | .unit => .null
  | .value => v
  | .reply => (Reply.ofSuccess (payload v)).toJson

/-- The outcome of an operation for its handle. -/
def Answer.outcome (answer : Answer) : Ending → Except ActorError Json
  | .returned v => .ok (answer.ofValue v)
  | .failed message =>
    if answer = .reply then .ok (Reply.failure message).toJson else .error (.operation message)
  | .broke payload => .error (.panicked payload.message)

/-- The outcome of a job for its handle. A job has no errors of its own, so one counts as a
break. -/
def Answer.jobOutcome (answer : Answer) : Ending → Except PoolError Json
  | .returned v => .ok (answer.ofValue v)
  | .failed message => .error (.panicked message)
  | .broke payload => .error (.panicked payload.message)

/-! ### Invocations -/

/-- The body of an action that is selected by name. -/
def Action.ofInvocation (action args : String) : List Action :=
  (match action with
    | "push" => [Effect.push args, .giveCount]
    | "count" => [.giveCount]
    | "join" => [.giveJoined]
    | "gate" => [.gate args, .give (.str "opened")]
    | "panic" => [.panic (.text args)]
    | "fail" => [.fail args]
    | other => [.fail s!"Unknown action {other}."]).map .effect

/-! ### Repetitions -/

/-- A text with its marks replaced by a number. -/
def numbered (n : Nat) (s : String) : String := s.replace "%" (Text.decimal n)

/-- The `n`th copy of an effect in a repetition. -/
def Effect.numbered (n : Nat) : Effect → Effect
  | .push line => .push (Troupe.numbered n line)
  | .give (.str s) => .give (.str (Troupe.numbered n s))
  | e => e

/-- The `n`th copy of a recipient in a repetition. -/
def Recipient.numbered (n : Nat) : Recipient → Recipient
  | .watched name => .watched s!"{name}.{n}"
  | .held name => .held s!"{name}.{n}"
  | .nobody => .nobody

/-- The `n`th copy of an action in a repetition. What it sends is left alone. -/
def Action.numbered (n : Nat) : Action → Action
  | .effect e => .effect (e.numbered n)
  | a => a

/-- The `n`th copy of a sending in a repetition. -/
def Send.numbered (n : Nat) : Send → Send
  | .operation path actor body answer recipient =>
    .operation path actor (body.map (·.numbered n)) answer (recipient.numbered n)
  | .offload actor pool urgent body answer recipient =>
    .offload actor pool urgent (body.map (·.numbered n)) answer (recipient.numbered n)
  | .job pool owner urgent body recipient =>
    .job pool owner urgent (body.map (·.numbered n)) (recipient.numbered n)

end Troupe
