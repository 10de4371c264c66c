import Troupe.Json.Scanner

/-!
# The grammar of JSON texts

Which lists of characters are JSON, said without any reader: the productions of the grammar, one
constructor each. What a reader does on all of them is for other modules.

## Two grammars of texts

A text that is read in full has a meaning, so its characters are related to what they stand for: a
character may be written as itself or as one of its escapes, and outside the first plane as two
escapes that belong together. A text that nobody asks for only needs the right form, and there half
of such a pair may stand alone. `Spelling` is the first relation, `TextForm` the second.

## Main definitions

* `Json.Blank`, `Json.Ends` — blanks, and what may stand behind a value
* `Json.Spells`, `Json.Spelling` — how a character and a text may be written
* `Json.TextForm`, `Json.NumberForm` — texts and numbers of the right form
* `Json.Symbol`, `Json.Derives` — what the grammar derives

## Main results

* `Json.Spelling.textForm` — what can be read in full has the right form
* `Json.Derives.begins` — how a value begins
-/

namespace Troupe.Json

open Text

/-! ### Blanks -/

/-- Blanks only, maybe none. -/
def Blank (ws : List Char) : Prop := ∀ c ∈ ws, isBlank c = true

/-- What may stand behind a value: nothing, a blank, a comma or a closing bracket. -/
def Ends (rest : List Char) : Prop :=
  ∀ c ∈ rest.head?, isBlank c = true ∨ c ∈ [',', ']', '\x7d']

@[simp] theorem blank_nil : Blank [] := List.forall_mem_nil _

@[simp] theorem ends_nil : Ends [] := by simp [Ends]

@[simp] theorem ends_comma (rest : List Char) : Ends (',' :: rest) := by simp [Ends]

@[simp] theorem ends_bracket (rest : List Char) : Ends (']' :: rest) := by simp [Ends]

@[simp] theorem ends_brace (rest : List Char) : Ends ('\x7d' :: rest) := by simp [Ends]

theorem Blank.append {ws ws' : List Char} (h : Blank ws) (h' : Blank ws') : Blank (ws ++ ws') :=
  List.forall_mem_append.mpr ⟨h, h'⟩

/-- Blanks may stand behind a value if what comes next may. -/
theorem Ends.append {ws rest : List Char} (hw : Blank ws) (h : Ends rest) : Ends (ws ++ rest) := by
  cases ws with
  | nil => exact h
  | cons c ws => simp [Ends, hw c (List.mem_cons_self ..)]

/-! ### Texts -/

/-- The letters of the short escapes, with what they stand for. -/
def shortForms : List (Char × Char) :=
  [('"', '"'), ('\\', '\\'), ('/', '/'), ('b', '\x08'), ('f', '\x0c'), ('n', '\n'), ('r', '\r'),
    ('t', '\t')]

/-- Four hexadecimal digits and the number that they denote. -/
inductive Hex4 : List Char → Nat → Prop where
  | mk {a b c d : Char} {i j k l : Nat} (ha : hexValue a = some i) (hb : hexValue b = some j)
      (hc : hexValue c = some k) (hd : hexValue d = some l) :
      Hex4 [a, b, c, d] (((i * 16 + j) * 16 + k) * 16 + l)

/-- Whether a character may stand for itself inside a text. -/
def IsPlain (c : Char) : Prop := c ≠ '"' ∧ c ≠ '\\' ∧ 32 ≤ c.toNat

/-- How one character may be written inside a text. -/
inductive Spells : List Char → Char → Prop where
  /-- By itself. -/
  | plain {c : Char} (h : IsPlain c) : Spells [c] c
  /-- As a short escape. -/
  | short {e c : Char} (h : (e, c) ∈ shortForms) : Spells ['\\', e] c
  /-- By its number, if four digits are enough. -/
  | unit {ds : List Char} {c : Char} (h : Hex4 ds c.toNat) : Spells ('\\' :: 'u' :: ds) c
  /-- As two halves, if they are not. -/
  | pair {ds es : List Char} {high low : Nat} {c : Char} (hd : Hex4 ds high) (he : Hex4 es low)
      (hhigh : 0xD800 ≤ high ∧ high ≤ 0xDBFF) (hlow : 0xDC00 ≤ low ∧ low ≤ 0xDFFF)
      (hc : c.toNat = (high - 0xD800) * 0x400 + (low - 0xDC00) + 0x10000) :
      Spells ('\\' :: 'u' :: ds ++ '\\' :: 'u' :: es) c

/-- How a text may be written between its quotes. -/
inductive Spelling : List Char → List Char → Prop where
  /-- The empty text. -/
  | nil : Spelling [] []
  /-- One more character in front. -/
  | cons {cs t s : List Char} {c : Char} (h : Spells cs c) (ht : Spelling t s) :
      Spelling (cs ++ t) (c :: s)

/-- What has the form of a text between its quotes, whether or not it has a meaning. -/
inductive TextForm : List Char → Prop where
  /-- The empty text. -/
  | nil : TextForm []
  /-- A character by itself. -/
  | plain {c : Char} {t : List Char} (h : IsPlain c) (ht : TextForm t) : TextForm (c :: t)
  /-- A short escape. -/
  | short {e c : Char} {t : List Char} (h : (e, c) ∈ shortForms) (ht : TextForm t) :
      TextForm ('\\' :: e :: t)
  /-- A number of four digits, of whatever value. -/
  | unit {ds t : List Char} {n : Nat} (h : Hex4 ds n) (ht : TextForm t) :
      TextForm ('\\' :: 'u' :: ds ++ t)

/-- What can be read in full has the right form. -/
theorem Spelling.textForm {t s : List Char} (h : Spelling t s) : TextForm t := by
  induction h with
  | nil => exact .nil
  | cons h _ ih =>
    cases h with
    | plain h => exact .plain h ih
    | short h => exact .short h ih
    | unit h => exact .unit h ih
    | pair hd he => simpa using TextForm.unit hd (.unit he ih)

/-! ### Numbers -/

/-- At least one digit. -/
def Digits (ds : List Char) : Prop := ds ≠ [] ∧ ∀ c ∈ ds, isDigit c = true

/-- The whole part of a number: no zero in front of other digits. -/
def WholeForm (ds : List Char) : Prop := Digits ds ∧ ∀ es, ds = '0' :: es → es = []

/-- The part of a number from the point on, if there is one. -/
inductive FractionForm : List Char → Prop where
  | absent : FractionForm []
  | digits {ds : List Char} (h : Digits ds) : FractionForm ('.' :: ds)

/-- The part of a number from the letter of its exponent on, if there is one. -/
inductive PowerForm : List Char → Prop where
  | absent : PowerForm []
  | digits {e : Char} {sign ds : List Char} (he : e ∈ ['e', 'E'])
      (hs : sign ∈ [[], ['+'], ['-']]) (h : Digits ds) : PowerForm (e :: sign ++ ds)

/-- What has the form of a number, however large. -/
inductive NumberForm : List Char → Prop where
  | mk {sign whole fraction power : List Char} (hs : sign ∈ [[], ['-']]) (hw : WholeForm whole)
      (hf : FractionForm fraction) (hp : PowerForm power) :
      NumberForm (sign ++ whole ++ fraction ++ power)

/-! ### Values -/

/-- What the grammar speaks of. -/
inductive Symbol where
  /-- A value, without blanks around it. -/
  | value
  /-- One item or more of a list, with the commas and blanks between and around them. -/
  | items
  /-- One member of an object, with the blanks around it. -/
  | member
  /-- One member or more, with the commas between them. -/
  | members
  deriving DecidableEq

/-- What the grammar derives from a symbol. -/
inductive Derives : Symbol → List Char → Prop where
  /-- The value that stands for nothing. -/
  | null : Derives .value ['n', 'u', 'l', 'l']
  /-- A truth value. -/
  | yes : Derives .value ['t', 'r', 'u', 'e']
  /-- The other truth value. -/
  | no : Derives .value ['f', 'a', 'l', 's', 'e']
  /-- A number. -/
  | number {cs : List Char} (h : NumberForm cs) : Derives .value cs
  /-- A text. -/
  | text {t : List Char} (h : TextForm t) : Derives .value ('"' :: t ++ ['"'])
  /-- A list without items. -/
  | emptyList {ws : List Char} (hw : Blank ws) : Derives .value ('[' :: ws ++ [']'])
  /-- A list. -/
  | list {cs : List Char} (h : Derives .items cs) : Derives .value ('[' :: cs ++ [']'])
  /-- An object without members. -/
  | emptyObject {ws : List Char} (hw : Blank ws) : Derives .value ('\x7b' :: ws ++ ['\x7d'])
  /-- An object. -/
  | object {cs : List Char} (h : Derives .members cs) : Derives .value ('\x7b' :: cs ++ ['\x7d'])
  /-- The last item. -/
  | lastItem {ws v ws' : List Char} (hw : Blank ws) (h : Derives .value v) (hw' : Blank ws') :
      Derives .items (ws ++ v ++ ws')
  /-- An item before others. -/
  | item {ws v ws' cs : List Char} (hw : Blank ws) (h : Derives .value v) (hw' : Blank ws')
      (hcs : Derives .items cs) : Derives .items (ws ++ v ++ ws' ++ ',' :: cs)
  /-- A key and its value. -/
  | member {w₁ k w₂ w₃ v w₄ : List Char} (h₁ : Blank w₁) (hk : TextForm k) (h₂ : Blank w₂)
      (h₃ : Blank w₃) (h : Derives .value v) (h₄ : Blank w₄) :
      Derives .member (w₁ ++ '"' :: k ++ '"' :: w₂ ++ ':' :: w₃ ++ v ++ w₄)
  /-- The last member. -/
  | lastMember {cs : List Char} (h : Derives .member cs) : Derives .members cs
  /-- A member before others. -/
  | members {cs ds : List Char} (h : Derives .member cs) (hd : Derives .members ds) :
      Derives .members (cs ++ ',' :: ds)

/-! ### How a value begins -/

/-- The first character of a number is no blank. -/
theorem not_blank_of_number {c : Char} (hc : c = '-' ∨ isDigit c = true) : isBlank c = false := by
  rcases hc with rfl | hc
  · decide
  · cases hb : isBlank c with
    | false => rfl
    | true =>
      simp only [isBlank, Bool.or_eq_true, decide_eq_true_eq] at hb
      rcases hb with ((rfl | rfl) | rfl) | rfl <;> exact absurd hc (by decide)

theorem NumberForm.begins {cs : List Char} (h : NumberForm cs) :
    ∃ c t, cs = c :: t ∧ (c = '-' ∨ isDigit c = true) := by
  obtain ⟨hs, ⟨⟨hne, hall⟩, -⟩, -, -⟩ := h
  obtain ⟨c, ds, rfl⟩ := List.exists_cons_of_ne_nil hne
  simp only [List.mem_cons, List.not_mem_nil, or_false] at hs
  rcases hs with rfl | rfl
  · exact ⟨c, _, rfl, .inr (hall c (List.mem_cons_self ..))⟩
  · exact ⟨'-', _, rfl, .inl rfl⟩

/-- Behind its blanks, nothing that the grammar derives begins as a bracket that closes. -/
theorem Derives.begins {symbol : Symbol} {cs : List Char} (h : Derives symbol cs) :
    ∃ ws c t, Blank ws ∧ cs = ws ++ c :: t ∧ isBlank c = false ∧ c ≠ ']' ∧ c ≠ '\x7d' := by
  induction h with
  | null | yes | no | text _ | emptyList _ | list _ _ | emptyObject _ | object _ _ =>
    exact ⟨[], _, _, blank_nil, rfl, by decide, by decide, by decide⟩
  | number h =>
    obtain ⟨c, t, rfl, hc⟩ := h.begins
    refine ⟨[], c, t, blank_nil, rfl, not_blank_of_number hc, ?_, ?_⟩ <;>
      rintro rfl <;> exact absurd hc (by decide)
  | lastItem hw _ _ ih =>
    obtain ⟨ws, c, t, hw', rfl, hc⟩ := ih
    exact ⟨_, c, _, hw.append hw', by simp only [List.append_assoc, List.cons_append]; rfl, hc⟩
  | item hw _ _ _ ih =>
    obtain ⟨ws, c, t, hw', rfl, hc⟩ := ih
    exact ⟨_, c, _, hw.append hw', by simp only [List.append_assoc, List.cons_append]; rfl, hc⟩
  | member h₁ =>
    exact ⟨_, '"', _, h₁, by simp only [List.append_assoc, List.cons_append]; rfl, by decide,
      by decide, by decide⟩
  | lastMember _ ih => exact ih
  | members _ _ ih =>
    obtain ⟨ws, c, t, hw, rfl, hc⟩ := ih
    exact ⟨ws, c, _, hw, by simp only [List.append_assoc, List.cons_append]; rfl, hc⟩

end Troupe.Json
