import Troupe.Json.Printer
import Troupe.Proofs.Json.Grammar

/-!
# Reading the leaves

Blanks are skipped, a spelled text reads as what it spells, and what has the right form is passed
over. The readers take as much as they can, so a number is read in full only where its digits end;
a text ends by itself.

The text that is written for a value is one of the spellings, so what is written is read back.

## Main results

* `Json.skipBlanks_append` — blanks are skipped
* `Json.readText_of_spelling`, `Json.passText_of_form` — texts
* `Json.spelling_escaped` — the written form of a text spells the text
* `Json.readNumber_digits`, `Json.passNumber_of_form` — numbers
-/

namespace Troupe.Json

open Text

variable {ws cs ds t s rest : List Char} {c : Char}

/-! ### Blanks -/

theorem skipBlanks_append (hw : Blank ws) (cs : List Char) :
    skipBlanks (ws ++ cs) = skipBlanks cs :=
  List.dropWhile_append_of_pos hw

theorem skipBlanks_cons (hc : isBlank c = false) : skipBlanks (c :: cs) = c :: cs :=
  List.dropWhile_cons_of_neg (by simp [hc])

/-- The first character behind blanks that is none itself. -/
theorem skipBlanks_append_cons (hw : Blank ws) (hc : isBlank c = false) (cs : List Char) :
    skipBlanks (ws ++ c :: cs) = c :: cs := by
  rw [skipBlanks_append hw, skipBlanks_cons hc]

theorem skipBlanks_of_blank (hw : Blank ws) : skipBlanks ws = [] := by
  have := skipBlanks_append hw []
  rwa [List.append_nil] at this

/-! ### Texts -/

theorem shortEscape_of_mem {e : Char} (h : (e, c) ∈ shortForms) : shortEscape e = some c := by
  have all : ∀ p ∈ shortForms, shortEscape p.1 = some p.2 := by decide
  exact all _ h

/-- No short escape has the letter of the long ones. -/
theorem ne_of_mem_shortForms {e : Char} (h : (e, c) ∈ shortForms) : e ≠ 'u' := by
  have all : ∀ p ∈ shortForms, p.1 ≠ 'u' := by decide
  exact all _ h

theorem readHex4_append {n : Nat} (h : Hex4 ds n) (rest : List Char) :
    readHex4 (ds ++ rest) = .ok (n, rest) := by
  cases h with
  | mk ha hb hc hd => simp [readHex4, ha, hb, hc, hd]

/-- A character is outside the range of the halves of pairs. -/
theorem not_half (c : Char) : closesPair c.toNat = false ∧ opensPair c.toNat = false := by
  have hvalid : c.toNat < 0xD800 ∨ 0xDFFF < c.toNat ∧ c.toNat < 0x110000 := c.valid
  simp only [closesPair, opensPair, Bool.and_eq_false_iff, decide_eq_false_iff_not]
  omega

theorem readEscape_short {e : Char} (h : (e, c) ∈ shortForms) (rest : List Char) :
    readEscape (e :: rest) = .ok (c, rest) := by
  unfold readEscape
  split
  · simp_all
  · rename_i heq
    exact absurd (List.cons.inj heq).1 (ne_of_mem_shortForms h)
  · rename_i heq
    obtain ⟨rfl, rfl⟩ := List.cons.inj heq
    simp [shortEscape_of_mem h]

theorem readEscape_unit (h : Hex4 ds c.toNat) (rest : List Char) :
    readEscape ('u' :: (ds ++ rest)) = .ok (c, rest) := by
  simp [readEscape, readHex4_append h, not_half c, bind, Except.bind]

theorem readEscape_pair {es : List Char} {high low : Nat} (hd : Hex4 ds high) (he : Hex4 es low)
    (hhigh : 0xD800 ≤ high ∧ high ≤ 0xDBFF) (hlow : 0xDC00 ≤ low ∧ low ≤ 0xDFFF)
    (hc : c.toNat = (high - 0xD800) * 0x400 + (low - 0xDC00) + 0x10000) (rest : List Char) :
    readEscape ('u' :: (ds ++ '\\' :: 'u' :: (es ++ rest))) = .ok (c, rest) := by
  have hcloses : closesPair high = false := by
    simp only [closesPair, Bool.and_eq_false_iff, decide_eq_false_iff_not]
    omega
  have hopens : opensPair high = true := by simp [opensPair, hhigh]
  have hlow' : closesPair low = true := by simp [closesPair, hlow]
  have hpair : ofPair high low = c := by rw [ofPair, ← hc, Char.ofNat_toNat]
  simp [readEscape, readHex4_append hd, readHex4_append he, readSecondHalf, hcloses, hopens, hlow',
    hpair, bind, Except.bind]

theorem readText_quote (rest : List Char) : readText ('"' :: rest) = .ok ([], rest) := by
  rw [readText]

theorem readText_plain (h : IsPlain c) (hr : readText t = .ok (s, rest)) :
    readText (c :: t) = .ok (c :: s, rest) := by
  obtain ⟨hquote, hslash, hlow⟩ := h
  rw [readText.eq_def]
  split
  · simp_all
  · simp_all
  · simp_all
  · rename_i heq
    obtain ⟨rfl, rfl⟩ := List.cons.inj heq
    simp [Nat.not_lt.mpr hlow, hr, bind, Except.bind]

theorem readText_escape {cs' : List Char} (he : readEscape cs = .ok (c, cs'))
    (hr : readText cs' = .ok (s, rest)) : readText ('\\' :: cs) = .ok (c :: s, rest) := by
  rw [readText.eq_def]
  split
  · simp_all
  · simp_all
  · rename_i heq
    obtain ⟨-, rfl⟩ := List.cons.inj heq
    split
    · simp_all
    · rename_i heq'
      rw [he] at heq'
      obtain ⟨rfl, rfl⟩ := Prod.mk.inj (Except.ok.inj heq')
      simp [hr, bind, Except.bind]
  · rename_i hslash heq
    exact absurd (List.cons.inj heq).1.symm hslash

/-- **A spelled text** reads as what it spells. -/
theorem readText_of_spelling (h : Spelling t s) (rest : List Char) :
    readText (t ++ '"' :: rest) = .ok (s, rest) := by
  induction h with
  | nil => exact readText_quote rest
  | cons h _ ih =>
    rw [List.append_assoc]
    cases h with
    | plain h => exact readText_plain h ih
    | short h => exact readText_escape (readEscape_short h _) ih
    | unit h => exact readText_escape (readEscape_unit h _) ih
    | pair hd he hhigh hlow hc =>
      simp only [List.append_assoc, List.cons_append]
      exact readText_escape (readEscape_pair hd he hhigh hlow hc _) ih

theorem passText_plain (h : IsPlain c) (cs : List Char) : passText (c :: cs) = passText cs := by
  obtain ⟨hquote, hslash, hlow⟩ := h
  rw [passText.eq_def]
  split
  · simp_all
  · simp_all
  · simp_all
  · rename_i heq
    obtain ⟨rfl, rfl⟩ := List.cons.inj heq
    rw [if_neg (Nat.not_lt.mpr hlow)]

theorem passText_escape (he : passEscape cs = .ok rest) :
    passText ('\\' :: cs) = passText rest := by
  rw [passText.eq_def]
  split
  · simp_all
  · simp_all
  · rename_i heq
    obtain ⟨-, rfl⟩ := List.cons.inj heq
    split
    · simp_all
    · rename_i heq'
      rw [he] at heq'
      rw [Except.ok.inj heq']
  · rename_i hslash heq
    exact absurd (List.cons.inj heq).1.symm hslash

theorem passEscape_short {e : Char} (h : (e, c) ∈ shortForms) (rest : List Char) :
    passEscape (e :: rest) = .ok rest := by
  unfold passEscape
  split
  · simp_all
  · rename_i heq
    exact absurd (List.cons.inj heq).1 (ne_of_mem_shortForms h)
  · rename_i heq
    obtain ⟨rfl, rfl⟩ := List.cons.inj heq
    simp [shortEscape_of_mem h]

theorem passEscape_unit {n : Nat} (h : Hex4 ds n) (rest : List Char) :
    passEscape ('u' :: (ds ++ rest)) = .ok rest := by
  simp [passEscape, readHex4_append h, bind, Except.bind, pure, Except.pure]

/-- **What has the form of a text** is passed over. -/
theorem passText_of_form (h : TextForm t) (rest : List Char) :
    passText (t ++ '"' :: rest) = .ok rest := by
  induction h with
  | nil => rw [List.nil_append, passText]
  | plain h _ ih => rw [List.cons_append, passText_plain h, ih]
  | short h _ ih =>
    rw [List.cons_append, List.cons_append, passText_escape (passEscape_short h _), ih]
  | unit h _ ih =>
    rw [List.append_assoc, List.cons_append, List.cons_append,
      passText_escape (passEscape_unit h _), ih]

/-! ### The written form of a text -/

theorem hexValue_hexDigit (n : Nat) : hexValue (hexDigit n) = some (n % 16) := by
  have all : ∀ m < 16, hexValue (hexDigit m) = some m := by decide
  have hmod : hexDigit n = hexDigit (n % 16) := by simp [hexDigit]
  rw [hmod]
  exact all _ (Nat.mod_lt _ (by omega))

/-- The number of a control character in four digits. -/
theorem hex4_control (hc : c.toNat < 32) :
    Hex4 ['0', '0', hexDigit (c.toNat / 16), hexDigit c.toNat] c.toNat := by
  have h := Hex4.mk (a := '0') (b := '0') (i := 0) (j := 0) (by decide) (by decide)
    (hexValue_hexDigit (c.toNat / 16)) (hexValue_hexDigit c.toNat)
  have hn : ((0 * 16 + 0) * 16 + c.toNat / 16 % 16) * 16 + c.toNat % 16 = c.toNat := by omega
  rwa [hn] at h

theorem spells_escaped (c : Char) : Spells (escaped c) c := by
  have short : ∀ {e d : Char}, c = d → (e, d) ∈ shortForms → Spells ['\\', e] c :=
    fun hd he => .short (hd ▸ he)
  have ofToNat : ∀ {d : Char}, c.toNat = d.toNat → c = d := Char.toNat_inj.mp
  unfold escaped
  split
  · exact short ‹_› (by decide)
  · split
    · exact short ‹_› (by decide)
    · split
      · exact short ‹_› (by decide)
      · split
        · exact short ‹_› (by decide)
        · split
          · exact short ‹_› (by decide)
          · split
            · exact short (d := '\x08') (ofToNat ‹_›) (by decide)
            · split
              · exact short (d := '\x0c') (ofToNat ‹_›) (by decide)
              · split
                · exact .unit (hex4_control ‹_›)
                · exact .plain ⟨‹_›, ‹_›, Nat.not_lt.mp ‹_›⟩

/-- **The written form of a text** spells the text. -/
theorem spelling_escaped (s : List Char) : Spelling (s.flatMap escaped) s := by
  induction s with
  | nil => exact .nil
  | cons c s ih => exact .cons (spells_escaped c) ih

/-! ### Numbers

Every reader of digits goes on to the first character that is none, so each part of a number is
followed through with what stands behind it, from the end of the number to its sign. -/

/-- Behind a value there is neither a digit nor anything else that a number could go on with. -/
theorem Ends.stops (h : Ends rest) (hc : c ∈ rest.head?) :
    isDigit c = false ∧ c ∉ ['.', 'e', 'E'] := by
  rcases h c hc with hb | hb
  · simp only [isBlank, Bool.or_eq_true, decide_eq_true_eq] at hb
    rcases hb with ((rfl | rfl) | rfl) | rfl <;> decide
  · simp only [List.mem_cons, List.not_mem_nil, or_false] at hb
    rcases hb with rfl | rfl | rfl <;> decide

theorem Ends.startsWithDigit (h : Ends rest) : startsWithDigit rest = false := by
  cases rest with
  | nil => rfl
  | cons c rest => exact (h.stops rfl).1

theorem PowerForm.startsWithDigit {power : List Char} (hp : PowerForm power) (h : Ends rest) :
    startsWithDigit (power ++ rest) = false := by
  cases hp with
  | absent => exact h.startsWithDigit
  | digits he =>
    simp only [List.mem_cons, List.not_mem_nil, or_false] at he
    rcases he with rfl | rfl <;> rfl

theorem FractionForm.startsWithDigit {fraction : List Char} (hf : FractionForm fraction)
    (h : startsWithDigit rest = false) : startsWithDigit (fraction ++ rest) = false := by
  cases hf with
  | absent => exact h
  | digits => rfl

theorem takeWhile_digits (hd : ∀ c ∈ ds, isDigit c = true) (h : startsWithDigit rest = false) :
    (ds ++ rest).takeWhile isDigit = ds := by
  rw [List.takeWhile_append_of_pos hd]
  cases rest with
  | nil => simp
  | cons c rest => simp [show isDigit c = false from h]

theorem dropWhile_digits (hd : ∀ c ∈ ds, isDigit c = true) (h : startsWithDigit rest = false) :
    (ds ++ rest).dropWhile isDigit = rest := by
  rw [List.dropWhile_append_of_pos hd]
  cases rest with
  | nil => rfl
  | cons c rest => exact List.dropWhile_cons_of_neg (by simp [show isDigit c = false from h])

theorem Digits.startsWithDigit (hd : Digits ds) (rest : List Char) :
    startsWithDigit (ds ++ rest) = true := by
  obtain ⟨hne, hall⟩ := hd
  obtain ⟨c, ds, rfl⟩ := List.exists_cons_of_ne_nil hne
  exact hall c (List.mem_cons_self ..)

theorem passExponent_of_digits {sign : List Char} (hs : sign ∈ [[], ['+'], ['-']])
    (hd : Digits ds) (h : startsWithDigit rest = false) :
    passExponent (sign ++ (ds ++ rest)) = .ok rest := by
  have hstart := hd.startsWithDigit rest
  have hdrop := dropWhile_digits hd.2 h
  simp only [List.mem_cons, List.not_mem_nil, or_false] at hs
  rcases hs with rfl | rfl | rfl
  · rw [List.nil_append]
    unfold passExponent
    split
    · rename_i heq
      rw [heq] at hstart
      exact absurd hstart (by simp [Json.startsWithDigit, isDigit])
    · rename_i heq
      rw [heq] at hstart
      exact absurd hstart (by simp [Json.startsWithDigit, isDigit])
    · rw [if_pos hstart, hdrop]
  · simp [passExponent, hstart, hdrop]
  · simp [passExponent, hstart, hdrop]

theorem passPowerPart_of_form {power : List Char} (hp : PowerForm power) (h : Ends rest) :
    passPowerPart (power ++ rest) = .ok rest := by
  cases hp with
  | absent =>
    rw [List.nil_append]
    unfold passPowerPart
    split
    · exact absurd (h.stops rfl).2 (by simp)
    · exact absurd (h.stops rfl).2 (by simp)
    · rfl
  | digits he hs hd =>
    rw [List.cons_append, List.cons_append, List.append_assoc]
    have hexp := passExponent_of_digits hs hd h.startsWithDigit
    simp only [List.mem_cons, List.not_mem_nil, or_false] at he
    rcases he with rfl | rfl <;> exact hexp

theorem passNumberTail_of_form {fraction power : List Char} (hf : FractionForm fraction)
    (hp : PowerForm power) (h : Ends rest) :
    passNumberTail (fraction ++ (power ++ rest)) = .ok rest := by
  have hpower := passPowerPart_of_form hp h
  cases hf with
  | absent =>
    rw [List.nil_append]
    unfold passNumberTail
    split
    · rename_i heq
      cases hp with
      | absent => exact absurd (h.stops (congrArg List.head? heq)).2 (by simp)
      | digits he =>
        obtain ⟨rfl, -⟩ := List.cons.inj heq
        exact absurd he (by decide)
    · exact hpower
  | digits hd =>
    have hstop := hp.startsWithDigit h
    rw [List.cons_append]
    simp only [passNumberTail, hd.startsWithDigit, if_true, dropWhile_digits hd.2 hstop, hpower]

theorem passDigits_of_form {whole : List Char} (hw : WholeForm whole)
    (h : startsWithDigit rest = false) : passDigits (whole ++ rest) = passNumberTail rest := by
  obtain ⟨⟨hne, hall⟩, hzero⟩ := hw
  obtain ⟨c, ds, rfl⟩ := List.exists_cons_of_ne_nil hne
  have hc : isDigit c = true := hall c (List.mem_cons_self ..)
  rw [List.cons_append]
  unfold passDigits
  split
  · rename_i heq
    obtain ⟨rfl, rfl⟩ := List.cons.inj heq
    obtain rfl := hzero ds rfl
    rw [List.nil_append, h]
    simp
  · rename_i heq
    obtain ⟨rfl, rfl⟩ := List.cons.inj heq
    rw [if_pos hc, dropWhile_digits (fun d hd => hall d (List.mem_cons_of_mem _ hd)) h]
  · simp_all

/-- **What has the form of a number** is passed over. -/
theorem passNumber_of_form (hn : NumberForm cs) (h : Ends rest) :
    passNumber (cs ++ rest) = .ok rest := by
  obtain ⟨hs, hw, hf, hp⟩ := hn
  rename_i sign whole fraction power
  have hrest : passDigits (whole ++ (fraction ++ (power ++ rest))) = .ok rest := by
    rw [passDigits_of_form hw (hf.startsWithDigit (hp.startsWithDigit h)),
      passNumberTail_of_form hf hp h]
  simp only [List.append_assoc]
  simp only [List.mem_cons, List.not_mem_nil, or_false] at hs
  rcases hs with rfl | rfl
  · rw [List.nil_append]
    unfold passNumber
    split
    · rename_i heq
      have hstart := hw.1.startsWithDigit (fraction ++ (power ++ rest))
      rw [heq] at hstart
      exact absurd hstart (by simp [Json.startsWithDigit, isDigit])
    · exact hrest
  · exact hrest

/-! ### Counts -/

theorem digits_ne_nil (n : Nat) : digits n ≠ [] := by
  rw [digits]
  split <;> simp

theorem digits_digits (n : Nat) : Digits (digits n) :=
  ⟨digits_ne_nil n, fun _ => isDigit_of_mem_digits⟩

/-- Only zero is written with a zero in front. -/
theorem eq_zero_of_digits {n : Nat} {es : List Char} (h : digits n = '0' :: es) :
    n = 0 ∧ es = [] := by
  fun_induction digits n generalizing es with
  | case1 n hn =>
    obtain ⟨hd, rfl⟩ := List.cons.inj h
    have hv := digitValue_digit n
    rw [hd] at hv
    exact ⟨by simp [digitValue] at hv; omega, rfl⟩
  | case2 n hn ih =>
    obtain ⟨c, ds, hds⟩ := List.exists_cons_of_ne_nil (digits_ne_nil (n / 10))
    rw [hds] at h
    have hzero : digits (n / 10) = '0' :: ds := by rw [hds, (List.cons.inj h).1]
    have := (ih hzero).1
    omega

theorem le_foldl_digits (ds : List Char) (s : Nat) :
    s ≤ ds.foldl (fun n c => 10 * n + digitValue c) s := by
  induction ds generalizing s with
  | nil => exact Nat.le_refl s
  | cons c ds ih => exact Nat.le_trans (by omega) (ih (10 * s + digitValue c))

/-- All digits are absorbed if the number that they denote fits. -/
theorem absorb_of_le {s : Nat} (h : ds.foldl (fun n c => 10 * n + digitValue c) s ≤ wordMax) :
    absorb s ds = (ds.foldl (fun n c => 10 * n + digitValue c) s, 0) := by
  induction ds generalizing s with
  | nil => rfl
  | cons c ds ih =>
    have hle := Nat.le_trans (le_foldl_digits ds (10 * s + digitValue c)) h
    rw [absorb, if_neg (Nat.not_lt.mpr hle)]
    exact ih h

theorem readNumberTail_ends (n : Nat) (h : Ends rest) :
    readNumberTail false n 0 rest = .ok (some n, rest) := by
  unfold readNumberTail
  split
  · exact absurd (h.stops rfl).2 (by simp)
  · exact absurd (h.stops rfl).2 (by simp)
  · exact absurd (h.stops rfl).2 (by simp)
  · simp

/-- **The digits of a count** read as the count. -/
theorem readNumber_digits {n : Nat} (hn : n ≤ wordMax) (h : Ends rest) :
    readNumber (digits n ++ rest) = .ok (some n, rest) := by
  have hstop := h.startsWithDigit
  have hall := (digits_digits n).2
  have habsorb : absorb 0 (digits n) = (n, 0) := by
    have hof : (digits n).foldl (fun n c => 10 * n + digitValue c) 0 = n := ofDigits_digits n
    rw [absorb_of_le (by rw [hof]; exact hn), hof]
  obtain ⟨c, ds, hds⟩ := List.exists_cons_of_ne_nil (digits_ne_nil n)
  have hc : isDigit c = true := hall c (by rw [hds]; exact List.mem_cons_self ..)
  have htake := takeWhile_digits hall hstop
  have hdrop := dropWhile_digits hall hstop
  rw [hds, List.cons_append] at htake hdrop ⊢
  have hread : readDigits false (c :: (ds ++ rest)) = .ok (some n, rest) := by
    unfold readDigits
    split
    · rename_i heq
      obtain ⟨rfl, rfl⟩ := List.cons.inj heq
      obtain ⟨rfl, rfl⟩ := eq_zero_of_digits hds
      rw [List.nil_append, hstop]
      exact readNumberTail_ends 0 h
    · rename_i heq
      obtain ⟨rfl, rfl⟩ := List.cons.inj heq
      rw [if_pos hc, htake, hdrop, ← hds, habsorb]
      exact readNumberTail_ends n h
    · simp_all
  unfold readNumber
  split
  · rename_i heq
    obtain ⟨rfl, -⟩ := List.cons.inj heq
    exact absurd hc (by decide)
  · exact hread

end Troupe.Json
