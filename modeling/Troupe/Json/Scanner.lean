import Troupe.Json.Range
import Troupe.Text.Decimal

/-!
# Scanning JSON text

The leaves of reading: blanks, words, texts with their escapes, and numbers. Every function takes
the characters that are left and returns what remains after the part it read, or the reason why it
cannot go on.

A text that is read in full has its escapes resolved, so a half of a surrogate pair must find the
other half. A text that is passed over only needs escapes of the right form.

## Main definitions

* `Json.Fault` — why reading stops: the text is not JSON, ends early, or has the wrong shape
* `Json.readText`, `Json.passText` — a text after its opening quote, resolved or passed over
* `Json.readNumber`, `Json.passNumber` — a number, of which only counts of 64 bits are kept

## Main results

* `Json.length_readText`, `Json.length_readNumber`, … — reading leaves less than it was given
-/

namespace Troupe.Json

open Text

/-- Why reading a text stops. -/
inductive Fault where
  /-- The text is not JSON. -/
  | malformed
  /-- The text ends too early. -/
  | truncated
  /-- The text is JSON of another shape than the one asked for. -/
  | mismatch
  deriving Repr, DecidableEq

/-- The customary name of the kind of fault. -/
def Fault.category : Fault → String
  | .malformed => "Syntax"
  | .truncated => "Eof"
  | .mismatch => "Data"

/-! ### Blanks and words -/

/-- The four blanks that may stand between tokens. -/
def isBlank (c : Char) : Bool := c = ' ' || c = '\n' || c = '\t' || c = '\r'

/-- What is left after the blanks at the front. -/
def skipBlanks (cs : List Char) : List Char := cs.dropWhile isBlank

theorem length_skipBlanks (cs : List Char) : (skipBlanks cs).length ≤ cs.length :=
  (List.dropWhile_sublist _).length_le

/-- Reads exactly the given characters. -/
def expectWord : List Char → List Char → Except Fault (List Char)
  | [], cs => .ok cs
  | _ :: _, [] => .error .truncated
  | w :: ws, c :: cs => if c = w then expectWord ws cs else .error .malformed

theorem length_expectWord {ws cs rest : List Char} (h : expectWord ws cs = .ok rest) :
    rest.length ≤ cs.length := by
  fun_induction expectWord ws cs with
  | case1 cs => cases h; exact Nat.le_refl _
  | case2 => cases h
  | case3 ws c cs ih => exact Nat.le_succ_of_le (ih h)
  | case4 => cases h

/-! ### Texts -/

/-- The value of a hexadecimal digit of either case. -/
def hexValue (c : Char) : Option Nat :=
  if isDigit c then some (digitValue c)
  else if 'a' ≤ c && c ≤ 'f' then some (c.toNat - 'a'.toNat + 10)
  else if 'A' ≤ c && c ≤ 'F' then some (c.toNat - 'A'.toNat + 10)
  else none

/-- Reads four hexadecimal digits. Fewer than four bytes of text mean that it ends too early. -/
def readHex4 : List Char → Except Fault (Nat × List Char)
  | a :: b :: c :: d :: rest =>
    match hexValue a, hexValue b, hexValue c, hexValue d with
    | some a, some b, some c, some d => .ok (((a * 16 + b) * 16 + c) * 16 + d, rest)
    | _, _, _, _ => .error .malformed
  | cs => .error (if (String.ofList cs).utf8ByteSize < 4 then .truncated else .malformed)

/-- Whether a code unit opens a surrogate pair. -/
def opensPair (n : Nat) : Bool := 0xD800 ≤ n && n ≤ 0xDBFF

/-- Whether a code unit closes a surrogate pair. -/
def closesPair (n : Nat) : Bool := 0xDC00 ≤ n && n ≤ 0xDFFF

/-- The character of a surrogate pair. -/
def ofPair (high low : Nat) : Char :=
  Char.ofNat ((high - 0xD800) * 0x400 + (low - 0xDC00) + 0x10000)

/-- The second half of a surrogate pair, from its backslash on. -/
def readSecondHalf (high : Nat) : List Char → Except Fault (Char × List Char)
  | '\\' :: 'u' :: rest => do
    let (low, rest) ← readHex4 rest
    if closesPair low then .ok (ofPair high low, rest) else .error .malformed
  | [] | ['\\'] => .error .truncated
  | _ => .error .malformed

/-- The characters that stand for themselves or for a control after a backslash. -/
def shortEscape (c : Char) : Option Char :=
  if c = '"' || c = '\\' || c = '/' then some c
  else if c = 'b' then some '\x08'
  else if c = 'f' then some '\x0c'
  else if c = 'n' then some '\n'
  else if c = 'r' then some '\r'
  else if c = 't' then some '\t'
  else none

/-- An escape after its backslash. -/
def readEscape : List Char → Except Fault (Char × List Char)
  | [] => .error .truncated
  | 'u' :: rest => do
    let (n, rest) ← readHex4 rest
    if closesPair n then .error .malformed
    else if opensPair n then readSecondHalf n rest
    else .ok (Char.ofNat n, rest)
  | c :: rest =>
    match shortEscape c with
    | some d => .ok (d, rest)
    | none => .error .malformed

/-- An escape after its backslash, of which only the form matters. -/
def passEscape : List Char → Except Fault (List Char)
  | [] => .error .truncated
  | 'u' :: rest => return (← readHex4 rest).2
  | c :: rest => if (shortEscape c).isSome then .ok rest else .error .malformed

theorem length_readHex4 {cs : List Char} {r : Nat × List Char} (h : readHex4 cs = .ok r) :
    r.2.length < cs.length := by
  unfold readHex4 at h
  split at h
  · split at h
    · cases h; simp; omega
    · cases h
  · cases h

theorem length_readSecondHalf {high : Nat} {cs : List Char} {r : Char × List Char}
    (h : readSecondHalf high cs = .ok r) : r.2.length < cs.length := by
  unfold readSecondHalf at h
  split at h
  · rename_i rest
    cases h4 : readHex4 rest with
    | error e => simp [h4, bind, Except.bind] at h
    | ok p =>
      have hp := length_readHex4 h4
      simp only [h4, bind, Except.bind] at h
      split at h
      · rw [← Except.ok.inj h]
        simp only [List.length_cons]
        omega
      · simp at h
  · simp at h
  · simp at h
  · simp at h

theorem length_readEscape {cs : List Char} {r : Char × List Char} (h : readEscape cs = .ok r) :
    r.2.length < cs.length := by
  unfold readEscape at h
  split at h
  · simp at h
  · rename_i rest
    cases h4 : readHex4 rest with
    | error e => simp [h4, bind, Except.bind] at h
    | ok p =>
      have hp := length_readHex4 h4
      simp only [h4, bind, Except.bind] at h
      split at h
      · simp at h
      · split at h
        · have := length_readSecondHalf h
          simp only [List.length_cons]
          omega
        · rw [← Except.ok.inj h]
          simp only [List.length_cons]
          omega
  · split at h
    · rw [← Except.ok.inj h]
      simp
    · simp at h

theorem length_passEscape {cs rest : List Char} (h : passEscape cs = .ok rest) :
    rest.length < cs.length := by
  unfold passEscape at h
  split at h
  · cases h
  · rename_i cs
    cases h4 : readHex4 cs with
    | error e => rw [h4] at h; cases h
    | ok p =>
      have hp := length_readHex4 h4
      rw [h4] at h
      cases h
      simp; omega
  · split at h
    · cases h; simp
    · cases h

/-- The rest of a text after its opening quote, escapes resolved. -/
def readText (cs : List Char) : Except Fault (List Char × List Char) :=
  match cs with
  | [] => .error .truncated
  | '"' :: rest => .ok ([], rest)
  | '\\' :: rest =>
    match h : readEscape rest with
    | .error e => .error e
    | .ok (c, rest') => do
      have := length_readEscape h
      let (s, rest'') ← readText rest'
      .ok (c :: s, rest'')
  | c :: rest =>
    if c.toNat < 32 then .error .malformed else do
      let (s, rest') ← readText rest
      .ok (c :: s, rest')
termination_by cs.length
decreasing_by all_goals simp_all <;> omega

/-- The rest of a text after its opening quote, passed over. -/
def passText (cs : List Char) : Except Fault (List Char) :=
  match cs with
  | [] => .error .truncated
  | '"' :: rest => .ok rest
  | '\\' :: rest =>
    match h : passEscape rest with
    | .error e => .error e
    | .ok rest' =>
      have := length_passEscape h
      passText rest'
  | c :: rest => if c.toNat < 32 then .error .malformed else passText rest
termination_by cs.length
decreasing_by all_goals simp_all <;> omega

theorem length_readText {cs : List Char} {r : List Char × List Char} (h : readText cs = .ok r) :
    r.2.length < cs.length := by
  fun_induction readText cs generalizing r with
  | case1 => simp at h
  | case2 rest => rw [← Except.ok.inj h]; simp
  | case3 rest e he => simp at h
  | case4 rest c rest' he hlt ih =>
    cases h' : readText rest' with
    | error e => simp [h', bind, Except.bind] at h
    | ok p =>
      have := ih h'
      simp only [h', bind, Except.bind] at h
      rw [← Except.ok.inj h]
      simp only [List.length_cons] at hlt ⊢
      omega
  | case5 c rest _ _ hc => simp at h
  | case6 c rest _ _ hc ih =>
    cases h' : readText rest with
    | error e => simp [h', bind, Except.bind] at h
    | ok p =>
      have := ih h'
      simp only [h', bind, Except.bind] at h
      rw [← Except.ok.inj h]
      simp only [List.length_cons]
      omega

theorem length_passText {cs rest : List Char} (h : passText cs = .ok rest) :
    rest.length < cs.length := by
  fun_induction passText cs with
  | case1 => simp at h
  | case2 rest' => rw [← Except.ok.inj h]; simp
  | case3 rest' e he => simp at h
  | case4 rest' rest'' he hlt ih =>
    have := ih h
    simp only [List.length_cons]
    omega
  | case5 c rest' _ _ hc => simp at h
  | case6 c rest' _ _ hc ih =>
    have := ih h
    simp only [List.length_cons]
    omega

/-! ### Numbers -/

/-- The largest count of 64 bits. -/
def wordMax : Nat := 0xFFFFFFFFFFFFFFFF

/-- The largest exponent that is taken at its word. -/
def exponentMax : Nat := 0x7FFFFFFF

/-- Appends digits to a significand while it stays within 64 bits; also how many are left over. -/
def absorb : Nat → List Char → Nat × Nat
  | s, [] => (s, 0)
  | s, d :: ds =>
    if wordMax < 10 * s + digitValue d then (s, ds.length + 1)
    else absorb (10 * s + digitValue d) ds

/-- Whether the first character left is a digit. -/
def startsWithDigit : List Char → Bool
  | c :: _ => isDigit c
  | [] => false

/-- A number that is no count, if it is within range. -/
def inRange (s : Nat) (e : Int) (rest : List Char) : Except Fault (Option Nat × List Char) :=
  if exceedsDouble s e then .error .malformed else .ok (none, rest)

/-- The digits of an exponent after its sign, for the significand `s * 10 ^ e`. -/
def readPower (s : Nat) (e : Int) (down : Bool) (cs : List Char) :
    Except Fault (Option Nat × List Char) :=
  match cs with
  | [] => .error .truncated
  | c :: _ =>
    if !isDigit c then .error .malformed
    else
      let x := ofDigits (cs.takeWhile isDigit)
      let rest := cs.dropWhile isDigit
      if exponentMax < x then
        if s ≠ 0 && !down then .error .malformed else .ok (none, rest)
      else inRange s (if down then e - x else e + x) rest

/-- An exponent after its letter, for the significand `s * 10 ^ e`. -/
def readExponent (s : Nat) (e : Int) : List Char → Except Fault (Option Nat × List Char)
  | '+' :: cs => readPower s e false cs
  | '-' :: cs => readPower s e true cs
  | cs => readPower s e false cs

/-- The part of a number after its decimal digits, for the significand `s * 10 ^ e`. -/
def readPowerPart (s : Nat) (e : Int) : List Char → Except Fault (Option Nat × List Char)
  | 'e' :: cs => readExponent s e cs
  | 'E' :: cs => readExponent s e cs
  | cs => inRange s e cs

/-- The digits after the point, for a significand with `excess` digits that did not fit. -/
def readFraction (s excess : Nat) (cs : List Char) : Except Fault (Option Nat × List Char) :=
  let ds := cs.takeWhile isDigit
  let rest := cs.dropWhile isDigit
  if ds = [] then .error (if rest = [] then .truncated else .malformed)
  else
    let (s, left) := absorb s ds
    readPowerPart s (excess - (ds.length - left)) rest

/-- The part of a number after its whole digits, of which `excess` did not fit. -/
def readNumberTail (negative : Bool) (s excess : Nat) :
    List Char → Except Fault (Option Nat × List Char)
  | '.' :: cs => readFraction s excess cs
  | 'e' :: cs => readExponent s excess cs
  | 'E' :: cs => readExponent s excess cs
  | cs =>
    if excess = 0 then .ok (if negative then none else some s, cs) else inRange s excess cs

/-- The digits of a number, without its sign. -/
def readDigits (negative : Bool) (cs : List Char) : Except Fault (Option Nat × List Char) :=
  match cs with
  | '0' :: rest =>
    if startsWithDigit rest then .error .malformed else readNumberTail negative 0 0 rest
  | c :: _ =>
    if isDigit c then
      let (s, excess) := absorb 0 (cs.takeWhile isDigit)
      readNumberTail negative s excess (cs.dropWhile isDigit)
    else .error .malformed
  | [] => .error .malformed

/-- A number. The value is kept only if it is a count of at most 64 bits written without a point
and without an exponent. -/
def readNumber : List Char → Except Fault (Option Nat × List Char)
  | '-' :: cs => readDigits true cs
  | cs => readDigits false cs

/-- An exponent after its letter, passed over. -/
def passExponent (cs : List Char) : Except Fault (List Char) :=
  let cs := match cs with
    | '+' :: rest => rest
    | '-' :: rest => rest
    | cs => cs
  if startsWithDigit cs then .ok (cs.dropWhile isDigit) else .error .malformed

/-- What follows the digits of a number, passed over. -/
def passPowerPart : List Char → Except Fault (List Char)
  | 'e' :: cs => passExponent cs
  | 'E' :: cs => passExponent cs
  | cs => .ok cs

/-- What follows the whole digits of a number, passed over. -/
def passNumberTail : List Char → Except Fault (List Char)
  | '.' :: cs =>
    if startsWithDigit cs then passPowerPart (cs.dropWhile isDigit) else .error .malformed
  | cs => passPowerPart cs

/-- The digits of a number without its sign, passed over. -/
def passDigits (cs : List Char) : Except Fault (List Char) :=
  match cs with
  | '0' :: rest => if startsWithDigit rest then .error .malformed else passNumberTail rest
  | c :: rest => if isDigit c then passNumberTail (rest.dropWhile isDigit) else .error .malformed
  | [] => .error .malformed

/-- A number, passed over. -/
def passNumber : List Char → Except Fault (List Char)
  | '-' :: cs => passDigits cs
  | cs => passDigits cs

theorem length_dropWhile (p : Char → Bool) (cs : List Char) :
    (cs.dropWhile p).length ≤ cs.length :=
  (List.dropWhile_sublist _).length_le

theorem length_inRange {s : Nat} {e : Int} {cs : List Char} {r : Option Nat × List Char}
    (h : inRange s e cs = .ok r) : r.2.length ≤ cs.length := by
  unfold inRange at h
  split at h
  · simp at h
  · cases h
    exact Nat.le_refl _

theorem length_readPower {s : Nat} {e : Int} {down : Bool} {cs : List Char}
    {r : Option Nat × List Char} (h : readPower s e down cs = .ok r) :
    r.2.length ≤ cs.length := by
  unfold readPower at h
  split at h
  · simp at h
  · split at h
    · simp at h
    · have hd := length_dropWhile isDigit (by assumption)
      dsimp only at h
      split at h
      · split at h
        · simp at h
        · rw [← Except.ok.inj h]
          exact length_dropWhile _ _
      · exact Nat.le_trans (length_inRange h) (length_dropWhile _ _)

theorem length_readExponent {s : Nat} {e : Int} {cs : List Char} {r : Option Nat × List Char}
    (h : readExponent s e cs = .ok r) : r.2.length ≤ cs.length := by
  unfold readExponent at h
  split at h
  · exact Nat.le_succ_of_le (length_readPower h)
  · exact Nat.le_succ_of_le (length_readPower h)
  · exact length_readPower h

theorem length_readPowerPart {s : Nat} {e : Int} {cs : List Char} {r : Option Nat × List Char}
    (h : readPowerPart s e cs = .ok r) : r.2.length ≤ cs.length := by
  unfold readPowerPart at h
  split at h
  · exact Nat.le_succ_of_le (length_readExponent h)
  · exact Nat.le_succ_of_le (length_readExponent h)
  · exact length_inRange h

theorem length_readFraction {s excess : Nat} {cs : List Char} {r : Option Nat × List Char}
    (h : readFraction s excess cs = .ok r) : r.2.length ≤ cs.length := by
  unfold readFraction at h
  dsimp only at h
  split at h
  · simp at h
  · exact Nat.le_trans (length_readPowerPart h) (length_dropWhile _ _)

theorem length_readNumberTail {negative : Bool} {s excess : Nat} {cs : List Char}
    {r : Option Nat × List Char} (h : readNumberTail negative s excess cs = .ok r) :
    r.2.length ≤ cs.length := by
  unfold readNumberTail at h
  split at h
  · exact Nat.le_succ_of_le (length_readFraction h)
  · exact Nat.le_succ_of_le (length_readExponent h)
  · exact Nat.le_succ_of_le (length_readExponent h)
  · split at h
    · cases h
      exact Nat.le_refl _
    · exact length_inRange h

theorem length_readDigits {negative : Bool} {cs : List Char} {r : Option Nat × List Char}
    (h : readDigits negative cs = .ok r) : r.2.length < cs.length := by
  unfold readDigits at h
  split at h
  · split at h
    · simp at h
    · exact Nat.lt_succ_of_le (length_readNumberTail h)
  · rename_i c rest _
    split at h
    · rename_i hc
      dsimp only at h
      refine Nat.lt_of_le_of_lt (length_readNumberTail h) ?_
      rw [List.dropWhile_cons_of_pos hc]
      exact Nat.lt_succ_of_le (length_dropWhile _ _)
    · simp at h
  · simp at h

theorem length_readNumber {cs : List Char} {r : Option Nat × List Char}
    (h : readNumber cs = .ok r) : r.2.length < cs.length := by
  unfold readNumber at h
  split at h
  · exact Nat.lt_succ_of_lt (length_readDigits h)
  · exact length_readDigits h

theorem length_passExponent {cs rest : List Char} (h : passExponent cs = .ok rest) :
    rest.length ≤ cs.length := by
  have key : ∀ {ds : List Char}, (if startsWithDigit ds then .ok (ds.dropWhile isDigit)
      else .error .malformed : Except Fault (List Char)) = .ok rest →
      rest.length ≤ ds.length := by
    intro ds hds
    split at hds
    · rw [← Except.ok.inj hds]
      exact length_dropWhile _ _
    · simp at hds
  unfold passExponent at h
  split at h
  · exact Nat.le_succ_of_le (key h)
  · exact Nat.le_succ_of_le (key h)
  · exact key h

theorem length_passPowerPart {cs rest : List Char} (h : passPowerPart cs = .ok rest) :
    rest.length ≤ cs.length := by
  unfold passPowerPart at h
  split at h
  · exact Nat.le_succ_of_le (length_passExponent h)
  · exact Nat.le_succ_of_le (length_passExponent h)
  · cases h
    exact Nat.le_refl _

theorem length_passNumberTail {cs rest : List Char} (h : passNumberTail cs = .ok rest) :
    rest.length ≤ cs.length := by
  unfold passNumberTail at h
  split at h
  · split at h
    · exact Nat.le_succ_of_le (Nat.le_trans (length_passPowerPart h) (length_dropWhile _ _))
    · simp at h
  · exact length_passPowerPart h

theorem length_passDigits {cs rest : List Char} (h : passDigits cs = .ok rest) :
    rest.length < cs.length := by
  unfold passDigits at h
  split at h
  · split at h
    · simp at h
    · exact Nat.lt_succ_of_le (length_passNumberTail h)
  · split at h
    · exact Nat.lt_succ_of_le (Nat.le_trans (length_passNumberTail h) (length_dropWhile _ _))
    · simp at h
  · simp at h

theorem length_passNumber {cs rest : List Char} (h : passNumber cs = .ok rest) :
    rest.length < cs.length := by
  unfold passNumber at h
  split at h
  · exact Nat.lt_succ_of_lt (length_passDigits h)
  · exact length_passDigits h

end Troupe.Json
