import Troupe.Json.Skip

/-!
# Typed decoding

A decoder reads one value of a known shape from the front of a text. Reading is strictly from left
to right: the first thing that does not fit decides the fault, so a wrong shape that comes first
wins over text that is not JSON further on.

Records may be written as an object, in which every member appears at most once and in any order,
or as a list of their fields in order. Choices may be written as a bare name, or as an object with
the name as its only key.

## Main definitions

* `Json.Decoder` — a reader that consumes at least one character
* `Json.Decoder.boolean`, `text`, `count` — the plain shapes
* `Json.Field`, `Json.RecordShape`, `Json.Decoder.record` — records
* `Json.Alternative`, `Json.Decoder.choice` — choices
* `Json.Decoder.decode` — a whole text
-/

namespace Troupe.Json

open Text

/-- A reader that consumes at least one character whenever it succeeds. -/
structure Decoder (α : Type) where
  /-- Reads a value from the front of a text. -/
  read : List Char → Except Fault (α × List Char)
  /-- Something is consumed. -/
  shorter : ∀ {cs : List Char} {r : α × List Char}, read cs = .ok r → r.2.length < cs.length

/-- The fault of a value of the wrong shape. A plain value is read first, and its own fault wins;
a bracket is enough to tell. -/
def misfit : List Char → Fault
  | [] => .truncated
  | c :: cs =>
    let after {α : Type} : Except Fault α → Fault
      | .ok _ => .mismatch
      | .error e => e
    if c = 'n' then after (expectWord ['u', 'l', 'l'] cs)
    else if c = 't' then after (expectWord ['r', 'u', 'e'] cs)
    else if c = 'f' then after (expectWord ['a', 'l', 's', 'e'] cs)
    else if c = '"' then after (readText cs)
    else if c = '-' || isDigit c then after (readNumber (c :: cs))
    else if c = '[' || c = '\x7b' then .mismatch
    else .malformed

/-- Reads a value after the blanks before it, which must not be all that is left. -/
def onValue {α : Type} (read : Char → List Char → Except Fault (α × List Char)) (cs : List Char) :
    Except Fault (α × List Char) :=
  match skipBlanks cs with
  | [] => .error .truncated
  | c :: rest => read c rest

theorem length_onValue {α : Type} {read : Char → List Char → Except Fault (α × List Char)}
    (hread : ∀ {c cs r}, read c cs = .ok r → r.2.length ≤ cs.length) {cs : List Char}
    {r : α × List Char} (h : onValue read cs = .ok r) : r.2.length < cs.length := by
  have hcs := length_skipBlanks cs
  unfold onValue at h
  split at h
  · simp at h
  · rename_i heq
    have := hread h
    simp only [heq, List.length_cons] at hcs
    omega

/-- A reading that keeps a part of a longer one. -/
theorem length_map {α β : Type} {f : α → β} {m : Except Fault (α × List Char)}
    {r : β × List Char} {n : Nat}
    (h : (do let (a, rest) ← m; .ok (f a, rest) : Except Fault (β × List Char)) = .ok r)
    (hm : ∀ {a}, m = .ok a → a.2.length ≤ n) : r.2.length ≤ n := by
  cases m with
  | error e => simp [bind, Except.bind] at h
  | ok a =>
    simp only [bind, Except.bind] at h
    rw [← Except.ok.inj h]
    exact hm rfl

/-! ### Plain shapes -/

namespace Decoder

/-- Reads a truth value, first character first. -/
def readBoolean (c : Char) (cs : List Char) : Except Fault (Bool × List Char) :=
  if c = 't' then do return (true, ← expectWord ['r', 'u', 'e'] cs)
  else if c = 'f' then do return (false, ← expectWord ['a', 'l', 's', 'e'] cs)
  else .error (misfit (c :: cs))

/-- Reads a text, first character first. -/
def readString (c : Char) (cs : List Char) : Except Fault (String × List Char) :=
  if c = '"' then do
    let (s, rest) ← readText cs
    .ok (String.ofList s, rest)
  else .error (misfit (c :: cs))

/-- Reads the value that stands for nothing, first character first. -/
def readNull (c : Char) (cs : List Char) : Except Fault (Unit × List Char) :=
  if c = 'n' then do return ((), ← expectWord ['u', 'l', 'l'] cs)
  else .error (misfit (c :: cs))

/-- Reads a count of at most `limit`, first character first. -/
def readCount (limit : Nat) (c : Char) (cs : List Char) : Except Fault (Nat × List Char) :=
  if c = '-' || isDigit c then do
    let (n, rest) ← readNumber (c :: cs)
    match n with
    | some n => if n ≤ limit then .ok (n, rest) else .error .mismatch
    | none => .error .mismatch
  else .error (misfit (c :: cs))

theorem length_word {α : Type} {a : α} {ws cs : List Char} {r : α × List Char}
    (h : (do return (a, ← expectWord ws cs) : Except Fault (α × List Char)) = .ok r) :
    r.2.length ≤ cs.length := by
  cases hw : expectWord ws cs with
  | error e => simp [hw, bind, Except.bind] at h
  | ok rest =>
    simp only [hw, bind, Except.bind, pure, Except.pure] at h
    rw [← Except.ok.inj h]
    exact length_expectWord hw

theorem length_readBoolean {c : Char} {cs : List Char} {r : Bool × List Char}
    (h : readBoolean c cs = .ok r) : r.2.length ≤ cs.length := by
  unfold readBoolean at h
  split at h
  · exact length_word h
  · split at h
    · exact length_word h
    · simp at h

theorem length_readString {c : Char} {cs : List Char} {r : String × List Char}
    (h : readString c cs = .ok r) : r.2.length ≤ cs.length := by
  unfold readString at h
  split at h
  · exact length_map h fun ha => Nat.le_of_lt (length_readText ha)
  · simp at h

theorem length_readNull {c : Char} {cs : List Char} {r : Unit × List Char}
    (h : readNull c cs = .ok r) : r.2.length ≤ cs.length := by
  unfold readNull at h
  split at h
  · exact length_word h
  · simp at h

theorem length_readCount {limit : Nat} {c : Char} {cs : List Char} {r : Nat × List Char}
    (h : readCount limit c cs = .ok r) : r.2.length ≤ cs.length := by
  unfold readCount at h
  split at h
  · cases hn : readNumber (c :: cs) with
    | error e => simp [hn, bind, Except.bind] at h
    | ok p =>
      have hp := length_readNumber hn
      simp only [hn, bind, Except.bind] at h
      split at h
      · split at h
        · rw [← Except.ok.inj h]
          exact Nat.le_of_lt_succ hp
        · simp at h
      · simp at h
  · simp at h

/-- A truth value. -/
def boolean : Decoder Bool where
  read := onValue readBoolean
  shorter := length_onValue length_readBoolean

/-- A text. -/
def text : Decoder String where
  read := onValue readString
  shorter := length_onValue length_readString

/-- The value that stands for nothing. -/
def null : Decoder Unit where
  read := onValue readNull
  shorter := length_onValue length_readNull

/-- A count of at most `limit`. -/
def count (limit : Nat) : Decoder Nat where
  read := onValue (readCount limit)
  shorter := length_onValue length_readCount

/-- The same value seen through a function. -/
def map {α β : Type} (f : α → β) (d : Decoder α) : Decoder β where
  read cs := do
    let (a, rest) ← d.read cs
    .ok (f a, rest)
  shorter := by
    intro cs r h
    cases hd : d.read cs with
    | error e => simp [hd, bind, Except.bind] at h
    | ok p =>
      simp only [hd, bind, Except.bind] at h
      rw [← Except.ok.inj h]
      exact d.shorter hd

end Decoder

/-! ### Records -/

/-- One field of a record that is collected in a draft. -/
structure Field (σ : Type) where
  /-- The key of the field in an object. -/
  name : String
  /-- Whether the draft already has the field. -/
  given : σ → Bool
  /-- Reads the field and enters it into the draft. -/
  decoder : Decoder (σ → σ)

/-- The shape of a record of type `α`, collected in a draft of type `σ`. -/
structure RecordShape (σ α : Type) where
  /-- The fields, in the order in which a list gives them. -/
  fields : List (Field σ)
  /-- Whether members with other keys are passed over; otherwise they do not fit. -/
  tolerant : Bool
  /-- The draft without any field. -/
  blank : σ
  /-- The record of a draft, if the draft has all that it needs. -/
  complete : σ → Option α

namespace RecordShape

variable {σ α : Type}

/-- The colon between a key and its value. -/
def readColon (cs : List Char) : Except Fault (List Char) :=
  match skipBlanks cs with
  | [] => .error .truncated
  | ':' :: rest => .ok rest
  | _ => .error .malformed

/-- One member of an object, from behind the opening quote of its key on. -/
def readMember (shape : RecordShape σ α) (draft : σ) (cs : List Char) :
    Except Fault (σ × List Char) := do
  let (key, rest) ← readText cs
  match shape.fields.find? (·.name == String.ofList key) with
  | none =>
    if shape.tolerant then
      let rest ← readColon rest
      return (draft, ← passValue rest)
    else .error .mismatch
  | some field =>
    if field.given draft then .error .mismatch
    else
      let rest ← readColon rest
      let (enter, rest) ← field.decoder.read rest
      .ok (enter draft, rest)

/-- What precedes the next member of an object: nothing if the object ends here, otherwise what is
left behind the opening quote of the key. -/
def nextMember (first : Bool) (cs : List Char) :
    Except Fault (Option (List Char) × List Char) :=
  match skipBlanks cs with
  | [] => .error .truncated
  | '\x7d' :: rest => .ok (none, rest)
  | ',' :: rest =>
    if first then .error .malformed
    else match skipBlanks rest with
      | [] => .error .truncated
      | '"' :: rest => .ok (some rest, rest)
      | _ => .error .malformed
  | '"' :: rest => if first then .ok (some rest, rest) else .error .malformed
  | _ => .error .malformed

/-- What precedes the next item of a list: nothing if the list ends here, otherwise the item. -/
def nextItem (first : Bool) (cs : List Char) : Except Fault (Option (List Char)) :=
  match skipBlanks cs with
  | [] => .error .truncated
  | ']' :: _ => .ok none
  | c :: rest =>
    if first then .ok (some (c :: rest))
    else if c = ',' then
      match skipBlanks rest with
      | [] => .error .truncated
      | ']' :: _ => .error .malformed
      | _ => .ok (some rest)
    else .error .malformed

/-- The closing bracket of a list. -/
def closeList (cs : List Char) : Except Fault (List Char) :=
  match skipBlanks cs with
  | [] => .error .truncated
  | ']' :: rest => .ok rest
  | _ => .error .malformed

theorem length_readColon {cs rest : List Char} (h : readColon cs = .ok rest) :
    rest.length < cs.length := by
  have hcs := length_skipBlanks cs
  unfold readColon at h
  split at h
  · simp at h
  · rename_i heq
    rw [← Except.ok.inj h]
    simp only [heq, List.length_cons] at hcs
    omega
  · simp at h

theorem length_closeList {cs rest : List Char} (h : closeList cs = .ok rest) :
    rest.length < cs.length := by
  have hcs := length_skipBlanks cs
  unfold closeList at h
  split at h
  · simp at h
  · rename_i heq
    rw [← Except.ok.inj h]
    simp only [heq, List.length_cons] at hcs
    omega
  · simp at h

theorem length_readMember {shape : RecordShape σ α} {draft : σ} {cs : List Char}
    {r : σ × List Char} (h : shape.readMember draft cs = .ok r) : r.2.length < cs.length := by
  unfold readMember at h
  cases ht : readText cs with
  | error e => simp [ht, bind, Except.bind] at h
  | ok p =>
    have hp := length_readText ht
    simp only [ht, bind, Except.bind] at h
    split at h
    · split at h
      · split at h
        · simp at h
        · rename_i mid hmid
          have h1 := length_readColon hmid
          split at h
          · simp at h
          · rename_i hv
            have h2 := length_passValue hv
            rw [← Except.ok.inj h]
            dsimp only
            omega
      · simp at h
    · split at h
      · simp at h
      · split at h
        · simp at h
        · rename_i mid hmid
          have h1 := length_readColon hmid
          split at h
          · simp at h
          · rename_i hv
            have h2 := Decoder.shorter _ hv
            rw [← Except.ok.inj h]
            dsimp only
            omega

theorem length_nextMember {first : Bool} {cs : List Char} {r : Option (List Char) × List Char}
    (h : nextMember first cs = .ok r) :
    r.2.length < cs.length ∧ ∀ rest ∈ r.1, rest.length < cs.length := by
  have hcs := length_skipBlanks cs
  unfold nextMember at h
  split at h
  · simp at h
  · rename_i heq
    rw [← Except.ok.inj h]
    simp only [heq, List.length_cons] at hcs
    simp
    omega
  · rename_i rest heq
    have hrest := length_skipBlanks rest
    split at h
    · simp at h
    · split at h
      · simp at h
      · rename_i heq'
        rw [← Except.ok.inj h]
        simp only [heq, heq', List.length_cons] at hcs hrest
        simp
        omega
      · simp at h
  · rename_i heq
    split at h
    · rw [← Except.ok.inj h]
      simp only [heq, List.length_cons] at hcs
      simp
      omega
    · simp at h
  · simp at h

theorem length_nextItem {first : Bool} {cs rest : List Char}
    (h : nextItem first cs = .ok (some rest)) : rest.length ≤ cs.length := by
  have hcs := length_skipBlanks cs
  unfold nextItem at h
  split at h
  · simp at h
  · simp at h
  · rename_i heq
    split at h
    · rw [← Option.some.inj (Except.ok.inj h), ← heq]
      exact hcs
    · split at h
      · split at h
        · simp at h
        · simp at h
        · rw [← Option.some.inj (Except.ok.inj h)]
          simp only [heq, List.length_cons] at hcs
          omega
      · simp at h

/-- The members of an object up to its closing bracket. -/
def readMembers (shape : RecordShape σ α) (draft : σ) (first : Bool) (cs : List Char) :
    Except Fault (σ × List Char) :=
  match h : nextMember first cs with
  | .error e => .error e
  | .ok (none, rest) => .ok (draft, rest)
  | .ok (some rest, _) =>
    match h' : shape.readMember draft rest with
    | .error e => .error e
    | .ok (draft', rest') =>
      have _h1 := (length_nextMember h).2 rest rfl
      have _h2 := length_readMember h'
      readMembers shape draft' false rest'
termination_by cs.length
decreasing_by simp_all; omega

theorem length_readMembers {shape : RecordShape σ α} {draft : σ} {first : Bool} {cs : List Char}
    {r : σ × List Char} (h : shape.readMembers draft first cs = .ok r) :
    r.2.length < cs.length := by
  fun_induction readMembers shape draft first cs with
  | case1 => simp at h
  | case2 _ _ _ _ hn =>
    rw [← Except.ok.inj h]
    exact (length_nextMember hn).1
  | case3 => simp at h
  | case4 _ _ cs _ _ hn _ _ h' h1 h2 ih =>
    have := ih h
    dsimp only at h2
    omega

/-- The items of a list, one for each field until the list ends. -/
def readItems (draft : σ) (first : Bool) (cs : List Char) :
    List (Field σ) → Except Fault (σ × List Char)
  | [] => .ok (draft, cs)
  | field :: fields =>
    match nextItem first cs with
    | .error e => .error e
    | .ok none => .ok (draft, cs)
    | .ok (some rest) => do
      let (enter, rest) ← field.decoder.read rest
      readItems (enter draft) false rest fields

theorem length_readItems {draft : σ} {first : Bool} {cs : List Char} {fields : List (Field σ)}
    {r : σ × List Char} (h : readItems draft first cs fields = .ok r) :
    r.2.length ≤ cs.length := by
  induction fields generalizing draft first cs with
  | nil => cases h; exact Nat.le_refl _
  | cons field fields ih =>
    unfold readItems at h
    split at h
    · simp at h
    · cases h; exact Nat.le_refl _
    · rename_i rest hn
      have h1 := length_nextItem hn
      cases hd : field.decoder.read rest with
      | error e => simp [hd, bind, Except.bind] at h
      | ok p =>
        have h2 := field.decoder.shorter hd
        simp only [hd, bind, Except.bind] at h
        have h3 := ih h
        omega

/-- The record of a draft, or the fault of one that lacks something. -/
def finish (shape : RecordShape σ α) (draft : σ) (rest : List Char) :
    Except Fault (α × List Char) :=
  match shape.complete draft with
  | some a => .ok (a, rest)
  | none => .error .mismatch

theorem finish_ok {shape : RecordShape σ α} {draft : σ} {rest : List Char} {r : α × List Char}
    (h : shape.finish draft rest = .ok r) : r.2 = rest := by
  unfold finish at h
  split at h
  · rw [← Except.ok.inj h]
  · simp at h

/-- Reads a record, first character first. -/
def readRecord (shape : RecordShape σ α) (c : Char) (cs : List Char) :
    Except Fault (α × List Char) :=
  if c = '[' then do
    let (draft, rest) ← readItems shape.blank true cs shape.fields
    let (a, rest) ← shape.finish draft rest
    return (a, ← closeList rest)
  else if c = '\x7b' then do
    let (draft, rest) ← shape.readMembers shape.blank true cs
    shape.finish draft rest
  else .error (misfit (c :: cs))

theorem length_readRecord {shape : RecordShape σ α} {c : Char} {cs : List Char}
    {r : α × List Char} (h : shape.readRecord c cs = .ok r) : r.2.length ≤ cs.length := by
  unfold readRecord at h
  split at h
  · cases hi : readItems shape.blank true cs shape.fields with
    | error e => simp [hi, bind, Except.bind] at h
    | ok p =>
      have h1 := length_readItems hi
      simp only [hi, bind, Except.bind] at h
      split at h
      · simp at h
      · rename_i hf
        have h2 := finish_ok hf
        split at h
        · simp at h
        · rename_i hc
          have h3 := length_closeList hc
          rw [← Except.ok.inj h]
          rw [h2] at h3
          dsimp only
          omega
  · split at h
    · cases hm : shape.readMembers shape.blank true cs with
      | error e => simp [hm, bind, Except.bind] at h
      | ok p =>
        have h1 := length_readMembers hm
        simp only [hm, bind, Except.bind] at h
        rw [finish_ok h]
        omega
    · simp at h

end RecordShape

/-- A record of the given shape. -/
def Decoder.record {σ α : Type} (shape : RecordShape σ α) : Decoder α where
  read := onValue shape.readRecord
  shorter := length_onValue RecordShape.length_readRecord

/-! ### Choices -/

/-- One alternative of a choice: a bare name, or a name with a text. -/
inductive Alternative (α : Type) where
  /-- The name stands for the value. -/
  | bare (name : String) (value : α)
  /-- The name comes with a text that the value is made from. -/
  | texted (name : String) (make : String → α)

namespace Alternative

variable {α : Type}

/-- The name of an alternative. -/
def name : Alternative α → String
  | .bare name _ => name
  | .texted name _ => name

/-- What stands behind the name when an object gives the alternative. -/
def payload : Alternative α → Decoder α
  | .bare _ value => Decoder.null.map fun _ => value
  | .texted _ make => Decoder.text.map make

/-- The value of a name without anything behind it. -/
def alone : Alternative α → Option α
  | .bare _ value => some value
  | .texted _ _ => none

/-- The closing bracket of an object with a single member. -/
def closeObject (cs : List Char) : Except Fault (List Char) :=
  match skipBlanks cs with
  | [] => .error .truncated
  | '\x7d' :: rest => .ok rest
  | _ => .error .malformed

theorem length_closeObject {cs rest : List Char} (h : closeObject cs = .ok rest) :
    rest.length < cs.length := by
  have hcs := length_skipBlanks cs
  unfold closeObject at h
  split at h
  · simp at h
  · rename_i heq
    rw [← Except.ok.inj h]
    simp only [heq, List.length_cons] at hcs
    omega
  · simp at h

/-- Reads a choice, first character first. -/
def readChoice (alternatives : List (Alternative α)) (c : Char) (cs : List Char) :
    Except Fault (α × List Char) :=
  if c = '"' then do
    let (name, rest) ← readText cs
    match (alternatives.find? (·.name == String.ofList name)).bind alone with
    | some a => .ok (a, rest)
    | none => .error .mismatch
  else if c = '\x7b' then do
    let (name, rest) ← Decoder.text.read cs
    match alternatives.find? (·.name == name) with
    | none => .error .mismatch
    | some alternative =>
      let rest ← RecordShape.readColon rest
      let (a, rest) ← alternative.payload.read rest
      return (a, ← closeObject rest)
  else .error .malformed

theorem length_readChoice {alternatives : List (Alternative α)} {c : Char} {cs : List Char}
    {r : α × List Char} (h : readChoice alternatives c cs = .ok r) : r.2.length ≤ cs.length := by
  unfold readChoice at h
  split at h
  · cases ht : readText cs with
    | error e => simp [ht, bind, Except.bind] at h
    | ok p =>
      have hp := length_readText ht
      simp only [ht, bind, Except.bind] at h
      split at h
      · rw [← Except.ok.inj h]
        exact Nat.le_of_lt hp
      · simp at h
  · split at h
    · cases ht : Decoder.text.read cs with
      | error e => simp [ht, bind, Except.bind] at h
      | ok p =>
        have h1 := Decoder.text.shorter ht
        simp only [ht, bind, Except.bind] at h
        split at h
        · simp at h
        · rename_i alternative _
          split at h
          · simp at h
          · rename_i hc
            have h2 := RecordShape.length_readColon hc
            split at h
            · simp at h
            · rename_i hv
              have h3 := alternative.payload.shorter hv
              split at h
              · simp at h
              · rename_i ho
                have h4 := length_closeObject ho
                rw [← Except.ok.inj h]
                dsimp only
                omega
    · simp at h

end Alternative

/-- A choice between named alternatives. -/
def Decoder.choice {α : Type} (alternatives : List (Alternative α)) : Decoder α where
  read := onValue (Alternative.readChoice alternatives)
  shorter := length_onValue Alternative.length_readChoice

/-! ### Whole texts -/

/-- Decodes a whole text: one value, with nothing but blanks around it. -/
def Decoder.decode {α : Type} (d : Decoder α) (text : String) : Except Fault α := do
  let (a, rest) ← d.read text.toList
  match skipBlanks rest with
  | [] => .ok a
  | _ :: _ => .error .malformed

end Troupe.Json
