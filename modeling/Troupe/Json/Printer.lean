import Troupe.Json.Basic
import Troupe.Text.Decimal
import Troupe.Text.Quoted

/-!
# Compact JSON text

Values are written without blanks. In a text the quote, the backslash and the controls are escaped,
a control with a short form by that form, and every other character stands for itself.

## Main definitions

* `Json.escaped` — how one character is written inside a text
* `Json.written` — the characters of a value
* `Json.render` — the same as a string
-/

namespace Troupe.Json

open Text

/-- How a character is written inside a text. -/
def escaped (c : Char) : List Char :=
  if c = '"' then ['\\', '"']
  else if c = '\\' then ['\\', '\\']
  else if c = '\n' then ['\\', 'n']
  else if c = '\r' then ['\\', 'r']
  else if c = '\t' then ['\\', 't']
  else if c.toNat = 8 then ['\\', 'b']
  else if c.toNat = 12 then ['\\', 'f']
  else if c.toNat < 32 then ['\\', 'u', '0', '0', hexDigit (c.toNat / 16), hexDigit c.toNat]
  else [c]

/-- A text between its quotes. -/
def writtenText (s : String) : List Char := '"' :: s.toList.flatMap escaped ++ ['"']

/-- A number, with a point only if its scale asks for one. -/
def writtenNumber (mantissa : Int) (scale : Nat) : List Char :=
  let ds := digits mantissa.natAbs
  let ds := List.replicate (scale + 1 - ds.length) '0' ++ ds
  let body := if scale = 0 then ds
    else ds.take (ds.length - scale) ++ '.' :: ds.drop (ds.length - scale)
  if mantissa < 0 then '-' :: body else body

mutual

/-- The characters of a value. -/
def written : Json → List Char
  | .null => ['n', 'u', 'l', 'l']
  | .bool true => ['t', 'r', 'u', 'e']
  | .bool false => ['f', 'a', 'l', 's', 'e']
  | .num mantissa scale => writtenNumber mantissa scale
  | .str s => writtenText s
  | .arr items => '[' :: writtenItems items ++ [']']
  | .obj members => '\x7b' :: writtenMembers members ++ ['\x7d']

/-- The items of a list, separated by commas. -/
def writtenItems : List Json → List Char
  | [] => []
  | [v] => written v
  | v :: w :: rest => written v ++ ',' :: writtenItems (w :: rest)

/-- The members of an object, separated by commas. -/
def writtenMembers : List (String × Json) → List Char
  | [] => []
  | [(k, v)] => writtenText k ++ ':' :: written v
  | (k, v) :: m :: rest => writtenText k ++ ':' :: written v ++ ',' :: writtenMembers (m :: rest)

end

/-- The compact text of a value. -/
def render (v : Json) : String := String.ofList (written v)

end Troupe.Json
