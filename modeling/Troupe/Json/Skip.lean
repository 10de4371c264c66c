import Troupe.Json.Scanner

/-!
# Passing over a value

A value that nobody asked for is only checked for its form. The walk keeps the brackets that are
open in a list and moves one token at a time, so it takes any depth of nesting.

## Main definitions

* `Json.Bracket`, `Json.Place` — the open brackets, and what is expected next
* `Json.passToken` — one token
* `Json.passFrom`, `Json.passValue` — the walk, and the walk over one value

## Main results

* `Json.length_passValue` — a value is at least one character
-/

namespace Troupe.Json

open Text

/-- The kinds of brackets. -/
inductive Bracket where
  | list
  | object
  deriving DecidableEq, Repr

/-- What the walk expects next. -/
inductive Place where
  /-- A value. -/
  | value
  /-- The first item or member, or the closing bracket. -/
  | opened
  /-- A comma or the closing bracket, or nothing if no bracket is open. -/
  | after
  deriving DecidableEq, Repr

/-- The key of a member and its colon, passed over. -/
def passKey (cs : List Char) : Except Fault (List Char) := do
  match skipBlanks cs with
  | [] => .error .truncated
  | '"' :: rest =>
    let rest ← passText rest
    match skipBlanks rest with
    | [] => .error .truncated
    | ':' :: rest => .ok rest
    | _ => .error .malformed
  | _ => .error .malformed

/-- What precedes a value inside a bracket: nothing in a list, the key in an object. -/
def passLead : Bracket → List Char → Except Fault (List Char)
  | .list, cs => .ok cs
  | .object, cs => passKey cs

/-- Whether a character closes a bracket. -/
def Bracket.closedBy : Bracket → Char → Bool
  | .list, c => c = ']'
  | .object, c => c = '\x7d'

/-- One token of a value: the open brackets, the place, and what is left. Nothing is returned once
the value is complete. -/
def passToken : List Bracket → Place → List Char →
    Except Fault (Option (List Bracket × Place × List Char))
  | open', .value, cs =>
    match skipBlanks cs with
    | [] => .error .truncated
    | 'n' :: rest => return some (open', .after, ← expectWord ['u', 'l', 'l'] rest)
    | 't' :: rest => return some (open', .after, ← expectWord ['r', 'u', 'e'] rest)
    | 'f' :: rest => return some (open', .after, ← expectWord ['a', 'l', 's', 'e'] rest)
    | '"' :: rest => return some (open', .after, ← passText rest)
    | '[' :: rest => .ok (some (.list :: open', .opened, rest))
    | '\x7b' :: rest => .ok (some (.object :: open', .opened, rest))
    | c :: rest =>
      if c = '-' || isDigit c then return some (open', .after, ← passNumber (c :: rest))
      else .error .malformed
  | [], _, _ => .ok none
  | b :: open', .opened, cs =>
    match skipBlanks cs with
    | [] => .error .truncated
    | c :: rest =>
      if b.closedBy c then .ok (some (open', .after, rest))
      else return some (b :: open', .value, ← passLead b (c :: rest))
  | b :: open', .after, cs =>
    match skipBlanks cs with
    | [] => .error .truncated
    | c :: rest =>
      if b.closedBy c then .ok (some (open', .after, rest))
      else if c = ',' then return some (b :: open', .value, ← passLead b rest)
      else .error .malformed

/-- How far a place is from consuming a character. -/
def Place.rank : Place → Nat
  | .opened => 1
  | _ => 0

theorem length_passKey {cs rest : List Char} (h : passKey cs = .ok rest) :
    rest.length < cs.length := by
  unfold passKey at h
  have hcs := length_skipBlanks cs
  split at h
  · simp at h
  · rename_i cs' heq
    rw [heq] at hcs
    cases ht : passText cs' with
    | error e => simp [ht, bind, Except.bind] at h
    | ok mid =>
      have h1 := length_passText ht
      have h2 := length_skipBlanks mid
      simp only [ht, bind, Except.bind] at h
      split at h
      · simp at h
      · rename_i heq'
        rw [heq'] at h2
        rw [← Except.ok.inj h]
        simp only [List.length_cons] at hcs h2
        omega
      · simp at h
  · simp at h

theorem length_passLead {b : Bracket} {cs rest : List Char} (h : passLead b cs = .ok rest) :
    rest.length ≤ cs.length := by
  cases b with
  | list => cases h; exact Nat.le_refl _
  | object => exact Nat.le_of_lt (length_passKey h)

/-- A step of the walk that only passes something over. -/
private theorem map_after {m : Except Fault (List Char)} {o : List Bracket} {p : Place}
    {t : List Bracket × Place × List Char}
    (h : (do return some (o, p, ← m) : Except Fault (Option _)) = .ok (some t)) :
    ∃ rest, m = .ok rest ∧ t = (o, p, rest) := by
  cases m with
  | error e => simp [bind, Except.bind] at h
  | ok rest => exact ⟨rest, rfl, (Option.some.inj (Except.ok.inj h)).symm⟩

theorem passToken_shorter {open' : List Bracket} {place : Place} {cs : List Char}
    {t : List Bracket × Place × List Char} (h : passToken open' place cs = .ok (some t)) :
    2 * t.2.2.length + t.2.1.rank < 2 * cs.length + place.rank := by
  have hcs := length_skipBlanks cs
  unfold passToken at h
  split at h
  · split at h
    all_goals rename_i heq
    · simp at h
    · obtain ⟨rest, hr, rfl⟩ := map_after h
      have := length_expectWord hr
      simp only [heq, List.length_cons, Place.rank] at hcs ⊢
      omega
    · obtain ⟨rest, hr, rfl⟩ := map_after h
      have := length_expectWord hr
      simp only [heq, List.length_cons, Place.rank] at hcs ⊢
      omega
    · obtain ⟨rest, hr, rfl⟩ := map_after h
      have := length_expectWord hr
      simp only [heq, List.length_cons, Place.rank] at hcs ⊢
      omega
    · obtain ⟨rest, hr, rfl⟩ := map_after h
      have := length_passText hr
      simp only [heq, List.length_cons, Place.rank] at hcs ⊢
      omega
    · obtain rfl := Option.some.inj (Except.ok.inj h)
      simp only [heq, List.length_cons, Place.rank] at hcs ⊢
      omega
    · obtain rfl := Option.some.inj (Except.ok.inj h)
      simp only [heq, List.length_cons, Place.rank] at hcs ⊢
      omega
    · split at h
      · obtain ⟨rest, hr, rfl⟩ := map_after h
        have := length_passNumber hr
        simp only [heq, List.length_cons, Place.rank] at hcs this ⊢
        omega
      · simp at h
  · simp at h
  · split at h
    · simp at h
    · rename_i heq
      split at h
      · obtain rfl := Option.some.inj (Except.ok.inj h)
        simp only [heq, List.length_cons, Place.rank] at hcs ⊢
        omega
      · obtain ⟨rest, hr, rfl⟩ := map_after h
        have := length_passLead hr
        simp only [heq, List.length_cons, Place.rank] at hcs this ⊢
        omega
  · split at h
    · simp at h
    · rename_i heq
      split at h
      · obtain rfl := Option.some.inj (Except.ok.inj h)
        simp only [heq, List.length_cons, Place.rank] at hcs ⊢
        omega
      · split at h
        · obtain ⟨rest, hr, rfl⟩ := map_after h
          have := length_passLead hr
          simp only [heq, List.length_cons, Place.rank] at hcs ⊢
          omega
        · simp at h

/-- Walks on until the value is complete. -/
def passFrom (open' : List Bracket) (place : Place) (cs : List Char) :
    Except Fault (List Char) :=
  match h : passToken open' place cs with
  | .error e => .error e
  | .ok none => .ok cs
  | .ok (some (open'', place', rest)) =>
    have := passToken_shorter h
    passFrom open'' place' rest
termination_by 2 * cs.length + place.rank

/-- Passes over one value. -/
def passValue (cs : List Char) : Except Fault (List Char) := passFrom [] .value cs

theorem length_passFrom {open' : List Bracket} {place : Place} {cs rest : List Char}
    (h : passFrom open' place cs = .ok rest) :
    2 * rest.length ≤ 2 * cs.length + place.rank := by
  fun_induction passFrom open' place cs with
  | case1 => simp at h
  | case2 => rw [← Except.ok.inj h]; omega
  | case3 _ _ cs _ _ _ _ hlt ih =>
    have := ih h
    dsimp only at hlt
    omega

/-- Where a value is expected, one token never completes the walk. -/
theorem passToken_value {open' : List Bracket} {cs : List Char} :
    passToken open' .value cs ≠ .ok none := by
  have key : ∀ (m : Except Fault (List Char)),
      (do return some (open', Place.after, ← m) : Except Fault (Option _)) ≠ .ok none := by
    intro m
    cases m <;> simp [bind, Except.bind, pure, Except.pure]
  unfold passToken
  split
  · split
    all_goals first
      | exact key _
      | (split <;> first | exact key _ | simp)
      | simp
  all_goals simp_all

theorem length_passValue {cs rest : List Char} (h : passValue cs = .ok rest) :
    rest.length < cs.length := by
  unfold passValue passFrom at h
  split at h
  · simp at h
  · rename_i heq
    exact absurd heq passToken_value
  · rename_i ht
    have h1 := passToken_shorter ht
    have h2 := length_passFrom h
    have h0 : Place.value.rank = 0 := rfl
    dsimp only at h1
    omega

end Troupe.Json
