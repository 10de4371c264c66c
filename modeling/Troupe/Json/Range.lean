/-!
# The range of double precision

A decimal literal `s * 10 ^ e` is within range if it does not round to infinity. The significand
and the power are each rounded to 53 significant bits before they are multiplied, and so is the
product; that is what decides the literals next to the limit.

## Main definitions

* `Json.nearest53` — rounding to 53 significant bits, a tie to the even neighbour
* `Json.exceedsDouble` — whether a literal is too large
-/

namespace Troupe.Json

/-- The nearest number with at most 53 significant bits; of two, the one with an even last bit. -/
def nearest53 (n : Nat) : Nat :=
  let k := n.log2 - 52
  let unit := 1 <<< k
  let q := n / unit
  let r := n % unit
  if 2 * r > unit ∨ (2 * r = unit ∧ q % 2 = 1) then (q + 1) * unit else q * unit

/-- Whether `s * 10 ^ e` rounds to infinity in double precision. -/
def exceedsDouble (s : Nat) (e : Int) : Bool :=
  if s = 0 ∨ e < 0 then false
  else if e > 308 then true
  else decide (1 <<< 1024 ≤ nearest53 (nearest53 s * nearest53 (Nat.pow 10 e.toNat)))

end Troupe.Json
