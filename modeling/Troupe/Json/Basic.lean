/-!
# JSON values

The values that operations return and that errors, replies and settings are written as. Objects
keep their members in written order; a number is a whole mantissa over a power of ten.

## Main definitions

* `Json` — the values
* `Json.ofNat`, `Json.ofTexts` — the shapes that occur most
-/

namespace Troupe

/-- A JSON value. -/
inductive Json where
  /-- The value that stands for nothing. -/
  | null
  /-- A truth value. -/
  | bool (b : Bool)
  /-- The number `mantissa / 10 ^ scale`. -/
  | num (mantissa : Int) (scale : Nat)
  /-- A text. -/
  | str (s : String)
  /-- A list of values. -/
  | arr (items : List Json)
  /-- An object, members in written order. -/
  | obj (members : List (String × Json))
  deriving Repr, BEq, Inhabited

namespace Json

/-- A natural number. -/
def ofNat (n : Nat) : Json := .num n 0

/-- A list of texts. -/
def ofTexts (texts : List String) : Json := .arr (texts.map .str)

end Json

end Troupe
