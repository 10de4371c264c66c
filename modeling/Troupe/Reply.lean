import Troupe.Error

/-!
# Replies to invocations

An action that is selected by name answers with a text, and the answer says whether the action
succeeded. A failure of the actor itself takes the same form.

## Main definitions

* `Reply` — the answers, `Reply.success`, `Reply.failure`
* `Reply.ofResult`, `Reply.ofError` — the answer of an action, and of a failed call
* `Reply.toJson`, `Reply.decoder` — the JSON form
-/

namespace Troupe

/-- The answer to an invocation by name. -/
structure Reply where
  /-- Whether the action ran and succeeded. -/
  success : Bool
  /-- The result of the action, or what went wrong. -/
  payload : String
  deriving Repr, DecidableEq, Inhabited

namespace Reply

/-- The answer of an action that succeeded. -/
def ofSuccess (payload : String) : Reply := ⟨true, payload⟩

/-- The answer of an action that failed. -/
def failure (message : String) : Reply := ⟨false, message⟩

/-- The answer of an action. -/
def ofResult : Except String String → Reply
  | .ok payload => ofSuccess payload
  | .error message => failure message

/-- The answer when the actor failed. -/
def ofError (e : ActorError) : Reply := failure e.message

/-! ### JSON -/

/-- The JSON form of an answer. -/
def toJson (r : Reply) : Json := .obj [("success", .bool r.success), ("payload", .str r.payload)]

/-- The parts of an answer read so far. -/
structure Draft where
  /-- Whether the action succeeded, once read. -/
  success : Option Bool
  /-- The payload, once read. -/
  payload : Option String

/-- The JSON shape of an answer: both members are needed, and others are passed over. -/
def shape : Json.RecordShape Draft Reply where
  fields :=
    [{ name := "success"
       given := (·.success.isSome)
       decoder := Json.Decoder.boolean.map fun b d => { d with success := some b } },
     { name := "payload"
       given := (·.payload.isSome)
       decoder := Json.Decoder.text.map fun s d => { d with payload := some s } }]
  tolerant := true
  blank := ⟨none, none⟩
  complete draft := do return ⟨← draft.success, ← draft.payload⟩

/-- Reads an answer. -/
def decoder : Json.Decoder Reply := .record shape

end Reply

end Troupe
