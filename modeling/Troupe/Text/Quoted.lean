import Troupe.Text.Spelled

/-!
# Quoted text

The form in which a name appears inside the description of a value: between double quotes, with the
quote, the backslash and the common controls behind a backslash, and every other character that
cannot be seen by itself as `\u` with its code point in braces.

## Main definitions

* `Text.hexDigits` — lower-case hexadecimal, without leading zeros
* `Text.shown` — how one character appears
* `Text.quoted` — the whole text
-/

namespace Troupe.Text

/-- The lower-case hexadecimal digit of a number below sixteen. -/
def hexDigit (n : Nat) : Char :=
  if n % 16 < 10 then Char.ofNat ('0'.toNat + n % 16) else Char.ofNat ('a'.toNat + (n % 16 - 10))

/-- The hexadecimal digits of `n`, most significant first. -/
def hexDigits (n : Nat) : List Char :=
  if n < 16 then [hexDigit n] else hexDigits (n / 16) ++ [hexDigit n]
termination_by n

/-- How quoted text shows one character. -/
def shown (c : Char) : List Char :=
  if c = '"' then ['\\', '"']
  else if c = '\\' then ['\\', '\\']
  else if c = '\n' then ['\\', 'n']
  else if c = '\r' then ['\\', 'r']
  else if c = '\t' then ['\\', 't']
  else if c.toNat = 0 then ['\\', '0']
  else if isSpelled c then ['\\', 'u', '\x7b'] ++ hexDigits c.toNat ++ ['\x7d']
  else [c]

/-- The quoted form of a text. -/
def quoted (s : String) : String :=
  String.ofList ('"' :: s.toList.flatMap shown ++ ['"'])

end Troupe.Text
