/-!
# Decimal text of natural numbers

Numbers are written in base ten without leading zeros. `digits` writes, `ofDigits` reads, and
reading undoes writing.

## Main definitions

* `Text.digit` — the digit of a number below ten
* `Text.digits` — the digits of a number, most significant first
* `Text.ofDigits` — the number that a list of digits denotes
* `Text.isDigit` — the ten characters that occur in them

## Main results

* `Text.ofDigits_digits` — reading the digits of a number gives the number
* `Text.isDigit_of_mem_digits` — nothing but digits is written
-/

namespace Troupe.Text

/-- The ten decimal digits. -/
def isDigit (c : Char) : Bool := '0' ≤ c && c ≤ '9'

/-- The value of a digit; meaningless for any other character. -/
def digitValue (c : Char) : Nat := c.toNat - '0'.toNat

/-- The digit of a number below ten. -/
def digit (n : Nat) : Char := Char.ofNat ('0'.toNat + n % 10)

/-- The decimal digits of `n`, most significant first. -/
def digits (n : Nat) : List Char :=
  if n < 10 then [digit n] else digits (n / 10) ++ [digit n]
termination_by n

/-- The number that a list of digits denotes; the empty list denotes zero. -/
def ofDigits (cs : List Char) : Nat :=
  cs.foldl (fun n c => 10 * n + digitValue c) 0

/-- The decimal text of `n`. -/
def decimal (n : Nat) : String := String.ofList (digits n)

/-! ### Laws -/

theorem digitValue_digit (n : Nat) : digitValue (digit n) = n % 10 := by
  have h : ∀ m < 10, digitValue (Char.ofNat ('0'.toNat + m)) = m := by decide
  exact h _ (Nat.mod_lt _ (by omega))

theorem isDigit_digit (n : Nat) : isDigit (digit n) = true := by
  have h : ∀ m < 10, isDigit (Char.ofNat ('0'.toNat + m)) = true := by decide
  exact h _ (Nat.mod_lt _ (by omega))

theorem ofDigits_append_singleton (cs : List Char) (c : Char) :
    ofDigits (cs ++ [c]) = 10 * ofDigits cs + digitValue c := by
  simp [ofDigits]

theorem ofDigits_digits (n : Nat) : ofDigits (digits n) = n := by
  fun_induction digits n with
  | case1 n h => simp [ofDigits, digitValue_digit]; omega
  | case2 n h ih => rw [ofDigits_append_singleton, ih, digitValue_digit]; omega

theorem isDigit_of_mem_digits {n : Nat} {c : Char} (h : c ∈ digits n) : isDigit c = true := by
  fun_induction digits n with
  | case1 n _ => simp_all [isDigit_digit]
  | case2 n _ ih =>
    rcases List.mem_append.1 h with h | h
    · exact ih h
    · simp_all [isDigit_digit]

end Troupe.Text
