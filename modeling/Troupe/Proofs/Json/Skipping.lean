import Troupe.Json.Skip
import Troupe.Proofs.Json.Leaves

/-!
# Every value can be passed over

A value that nobody asked for is walked over token by token, with the open brackets in a list. The
walk over whatever the grammar derives comes out behind it, with the brackets as they were: that is
said of each symbol of the grammar, for the place where the walk meets it, and proved along the
derivation. Neither the depth of the nesting nor the size of a number matters.

## Main definitions

* `Json.Passes` — what the walk does on what a symbol derives

## Main results

* `Json.passes_of_derives` — the walk comes out behind what the grammar derives
* `Json.passValue_of_derives` — a value is passed over
-/

namespace Troupe.Json

open Text

variable {open' : List Bracket} {place : Place} {b : Bracket} {ws cs mid rest : List Char}
  {c : Char}

/-! ### One token -/

theorem passFrom_token {o : List Bracket} {p : Place}
    (h : passToken open' place cs = .ok (some (o, p, rest))) :
    passFrom open' place cs = passFrom o p rest := by
  rw [passFrom]
  split
  · simp_all
  · simp_all
  · rename_i heq
    rw [h] at heq
    obtain ⟨rfl, rfl, rfl⟩ : _ ∧ _ ∧ _ := by simpa using heq
    rfl

theorem passFrom_done (cs : List Char) : passFrom [] .after cs = .ok cs := by
  have htoken : passToken [] .after cs = .ok none := rfl
  rw [passFrom]
  split <;> simp_all

/-- The walk goes on alike where it meets the same token, unless it is done. -/
theorem passFrom_congr (h : passToken open' place cs = passToken open' place mid)
    (hnone : passToken open' place mid ≠ .ok none) :
    passFrom open' place cs = passFrom open' place mid := by
  rw [passFrom, passFrom]
  split <;> rename_i heq <;> rw [h] at heq
  · split <;> simp_all
  · exact absurd heq hnone
  · split <;> simp_all

/-- Where a value is expected, blanks make no difference. -/
theorem passFrom_value_blanks (hw : Blank ws) (cs : List Char) :
    passFrom open' .value (ws ++ cs) = passFrom open' .value cs :=
  passFrom_congr (by simp only [passToken, skipBlanks_append hw]) passToken_value

theorem passFrom_text (h : passText cs = .ok rest) :
    passFrom open' .value ('"' :: cs) = passFrom open' .after rest := by
  refine passFrom_token ?_
  simp [passToken, skipBlanks_cons (show isBlank '"' = false by decide), h, bind, Except.bind,
    pure, Except.pure]

theorem passFrom_number (hc : c = '-' ∨ isDigit c = true) (h : passNumber (c :: cs) = .ok rest) :
    passFrom open' .value (c :: cs) = passFrom open' .after rest := by
  refine passFrom_token ?_
  simp only [passToken, skipBlanks_cons (not_blank_of_number hc)]
  -- A number begins as nothing else does.
  split
  case h_8 =>
    rename_i heq
    obtain ⟨rfl, rfl⟩ := List.cons.inj heq
    rw [if_pos (by simpa using hc), h]
    rfl
  case h_1 => simp_all
  all_goals
    rename_i heq
    obtain ⟨rfl, -⟩ := List.cons.inj heq
    exact absurd hc (by decide)

/-! ### Brackets -/

theorem Bracket.not_blank (h : b.closedBy c = true) : isBlank c = false := by
  cases b <;> simp only [closedBy, decide_eq_true_eq] at h <;> subst h <;> decide

theorem passFrom_close (hp : place ≠ .value) (hw : Blank ws) (hc : b.closedBy c = true) :
    passFrom (b :: open') place (ws ++ c :: cs) = passFrom open' .after cs := by
  refine passFrom_token ?_
  have hskip := skipBlanks_append_cons hw (Bracket.not_blank hc) cs
  cases place with
  | value => exact absurd rfl hp
  | opened | after => simp [passToken, hskip, hc]

theorem passFrom_comma (hw : Blank ws) (h : passLead b cs = .ok mid) :
    passFrom (b :: open') .after (ws ++ ',' :: cs) = passFrom (b :: open') .value mid := by
  refine passFrom_token ?_
  have hskip := skipBlanks_append_cons hw (show isBlank ',' = false by decide) cs
  have hopen : b.closedBy ',' = false := by cases b <;> rfl
  simp [passToken, hskip, hopen, h, bind, Except.bind, pure, Except.pure]

/-- Behind an opening bracket, whatever does not close it leads to a value. -/
theorem passFrom_opened (hskip : skipBlanks cs = c :: rest) (hc : b.closedBy c = false)
    (h : passLead b (c :: rest) = .ok mid) :
    passFrom (b :: open') .opened cs = passFrom (b :: open') .value mid := by
  refine passFrom_token ?_
  simp [passToken, hskip, hc, h, bind, Except.bind, pure, Except.pure]

/-- Blanks behind a value inside a bracket make no difference. -/
theorem passFrom_after_blanks (hw : Blank ws) (cs : List Char) :
    passFrom (b :: open') .after (ws ++ cs) = passFrom (b :: open') .after cs := by
  refine passFrom_congr (by simp only [passToken, skipBlanks_append hw]) ?_
  -- The walk is done only where no bracket is open.
  unfold passToken
  split
  · simp_all
  · simp_all
  · simp_all
  · split
    · simp
    · split
      · simp
      · split
        · cases passLead _ _ <;> simp [bind, Except.bind, pure, Except.pure]
        · simp

/-! ### Keys -/

theorem passKey_blanks (hw : Blank ws) (cs : List Char) : passKey (ws ++ cs) = passKey cs := by
  simp only [passKey, skipBlanks_append hw]

theorem passKey_of_form {k : List Char} (hk : TextForm k) (hw : Blank ws) (rest : List Char) :
    passKey ('"' :: (k ++ '"' :: (ws ++ ':' :: rest))) = .ok rest := by
  have hskip := skipBlanks_append_cons hw (show isBlank ':' = false by decide) rest
  simp [passKey, skipBlanks_cons (show isBlank '"' = false by decide), passText_of_form hk, hskip,
    bind, Except.bind]

/-! ### Whole values -/

/-- What the walk does on what a symbol derives, with any brackets open around it. -/
def Passes : Symbol → List Char → Prop
  | .value, v => ∀ (open' : List Bracket) (rest : List Char), Ends rest →
      passFrom open' .value (v ++ rest) = passFrom open' .after rest
  | .items, cs => ∀ (open' : List Bracket) (rest : List Char),
      passFrom (.list :: open') .value (cs ++ ']' :: rest) = passFrom open' .after rest
  | .member, cs => ∀ (open' : List Bracket) (rest : List Char), Ends rest →
      ∃ mid, passKey (cs ++ rest) = .ok mid ∧
        passFrom (.object :: open') .value mid = passFrom (.object :: open') .after rest
  | .members, cs => ∀ (open' : List Bracket) (rest : List Char),
      ∃ mid, passKey (cs ++ '\x7d' :: rest) = .ok mid ∧
        passFrom (.object :: open') .value mid = passFrom open' .after rest

/-- A list that is not empty is walked over if its items are. -/
theorem passFrom_list (hi : Derives .items cs) (h : Passes .items cs) (rest : List Char) :
    passFrom open' .value ('[' :: (cs ++ ']' :: rest)) = passFrom open' .after rest := by
  obtain ⟨ws, c, t, hw, rfl, hblank, hlist, -⟩ := hi.begins
  have hbegin := h open' rest
  rw [List.append_assoc, List.cons_append] at hbegin ⊢
  have hskip := skipBlanks_append_cons hw hblank (t ++ ']' :: rest)
  rw [passFrom_value_blanks hw] at hbegin
  calc passFrom open' .value ('[' :: (ws ++ c :: (t ++ ']' :: rest)))
      = passFrom (.list :: open') .opened (ws ++ c :: (t ++ ']' :: rest)) := passFrom_token rfl
    _ = passFrom (.list :: open') .value (c :: (t ++ ']' :: rest)) :=
        passFrom_opened hskip (by simpa [Bracket.closedBy] using hlist) rfl
    _ = passFrom open' .after rest := hbegin

/-- An object that is not empty is walked over if its members are. -/
theorem passFrom_object (hm : Derives .members cs) (h : Passes .members cs) (rest : List Char) :
    passFrom open' .value ('\x7b' :: (cs ++ '\x7d' :: rest)) = passFrom open' .after rest := by
  obtain ⟨ws, c, t, hw, rfl, hblank, -, hobject⟩ := hm.begins
  obtain ⟨mid, hkey, hbegin⟩ := h open' rest
  rw [List.append_assoc, List.cons_append] at hkey ⊢
  have hskip := skipBlanks_append_cons hw hblank (t ++ '\x7d' :: rest)
  rw [passKey_blanks hw] at hkey
  calc passFrom open' .value ('\x7b' :: (ws ++ c :: (t ++ '\x7d' :: rest)))
      = passFrom (.object :: open') .opened (ws ++ c :: (t ++ '\x7d' :: rest)) :=
        passFrom_token rfl
    _ = passFrom (.object :: open') .value mid :=
        passFrom_opened hskip (by simpa [Bracket.closedBy] using hobject) hkey
    _ = passFrom open' .after rest := hbegin

/-- **The walk comes out behind what the grammar derives.** -/
theorem passes_of_derives {symbol : Symbol} (h : Derives symbol cs) : Passes symbol cs := by
  induction h with
  | null | yes | no => exact fun _ _ _ => passFrom_token rfl
  | number h =>
    intro open' rest hr
    obtain ⟨c, t, rfl, hc⟩ := h.begins
    exact passFrom_number hc (passNumber_of_form h hr)
  | text h =>
    intro open' rest _
    simp only [List.cons_append, List.append_assoc, List.nil_append]
    exact passFrom_text (passText_of_form h rest)
  | emptyList hw =>
    intro open' rest _
    simp only [List.cons_append, List.append_assoc, List.nil_append]
    rw [passFrom_token (o := .list :: open') (p := .opened) rfl]
    exact passFrom_close (by simp) hw rfl
  | list hi ih =>
    intro open' rest _
    simp only [List.cons_append, List.append_assoc, List.nil_append]
    exact passFrom_list hi ih rest
  | emptyObject hw =>
    intro open' rest _
    simp only [List.cons_append, List.append_assoc, List.nil_append]
    rw [passFrom_token (o := .object :: open') (p := .opened) rfl]
    exact passFrom_close (by simp) hw rfl
  | object hm ih =>
    intro open' rest _
    simp only [List.cons_append, List.append_assoc, List.nil_append]
    exact passFrom_object hm ih rest
  | lastItem hw _ hw' ih =>
    intro open' rest
    rw [List.append_assoc, List.append_assoc, passFrom_value_blanks hw,
      ih (.list :: open') _ (.append hw' (ends_bracket rest))]
    exact passFrom_close (by simp) hw' rfl
  | item hw _ hw' _ ihv ihs =>
    intro open' rest
    simp only [List.append_assoc, List.cons_append]
    rw [passFrom_value_blanks hw, ihv (.list :: open') _ (.append hw' (ends_comma _)),
      passFrom_comma hw' rfl]
    exact ihs open' rest
  | member h₁ hk h₂ h₃ _ h₄ ih =>
    intro open' rest hr
    simp only [List.append_assoc, List.cons_append]
    refine ⟨_, by rw [passKey_blanks h₁, passKey_of_form hk h₂], ?_⟩
    rw [passFrom_value_blanks h₃, ih (.object :: open') _ (.append h₄ hr),
      passFrom_after_blanks h₄]
  | lastMember _ ih =>
    intro open' rest
    obtain ⟨mid, hkey, hvalue⟩ := ih open' ('\x7d' :: rest) (ends_brace rest)
    exact ⟨mid, hkey, hvalue.trans (passFrom_close (by simp) blank_nil rfl)⟩
  | members _ _ ihm ihs =>
    intro open' rest
    obtain ⟨mid, hkey, hvalue⟩ := ihm open' (',' :: _) (ends_comma _)
    obtain ⟨mid', hkey', hvalue'⟩ := ihs open' rest
    rw [List.append_assoc]
    have hcomma : passFrom (.object :: open') .after (',' :: _) = _ :=
      passFrom_comma (b := .object) blank_nil hkey'
    exact ⟨mid, hkey, hvalue.trans (hcomma.trans hvalue')⟩

/-- **A value is passed over**, with the blanks before it. -/
theorem passValue_of_derives (h : Derives .value cs) (hw : Blank ws) (hr : Ends rest) :
    passValue (ws ++ (cs ++ rest)) = .ok rest := by
  rw [passValue, passFrom_value_blanks hw, passes_of_derives h [] rest hr, passFrom_done]

end Troupe.Json
