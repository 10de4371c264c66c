import Mathlib.Data.List.Nodup
import Troupe.Json.Decoder
import Troupe.Json.Printer
import Troupe.Proofs.Json.Skipping

/-!
# What decoders read

`Decoder.Reads` is the contract of a decoder: it reads certain characters as a value wherever they
stand as a value, with blanks before them and whatever may follow a value behind them. The plain
decoders meet it for every spelling of what they are asked for.

A record is read from an object with any members. What a member does to the draft is told by its key
alone: a field is read with its own decoder and entered, and other members are passed over if the
shape says so. Which fields a draft has is therefore a matter of which keys have been met, in
whatever order. `RecordShape.Views` is how the modules about one record say that of its drafts, and
by `Views.collects` they need not look into an object.

## Main definitions

* `Json.Decoder.Reads` — the contract of a decoder
* `Json.TextOf`, `Json.ObjectText` — how a text is written, and an object by its members
* `Json.RecordShape.Enters`, `Collects` — what members do to a draft
* `Json.RecordShape.Views` — the drafts of a record by the keys that have been met

## Main results

* `Json.Decoder.Reads.decode` — from the contract to whole texts
* `Json.objectText_written` — what is written for an object is one of its texts
* `Json.RecordShape.reads_of_collects` — an object reads as the record of what it collects
* `Json.RecordShape.Views.collects` — what is collected depends on the keys alone
-/

namespace Troupe.Json

open Text

variable {α β σ : Type} {ws cs t v rest : List Char} {a : α}

/-- A text between its quotes. -/
inductive TextOf (s : String) : List Char → Prop where
  | mk {t : List Char} (h : Spelling t s.toList) : TextOf s ('"' :: t ++ ['"'])

theorem textOf_written (s : String) : TextOf s (written (.str s)) := by
  rw [written]
  exact .mk (spelling_escaped s.toList)

namespace Decoder

variable {d : Decoder α}

/-- The decoder reads these characters as this value, wherever they stand as a value. -/
def Reads (d : Decoder α) (v : List Char) (a : α) : Prop :=
  ∀ ws rest : List Char, Blank ws → Ends rest → d.read (ws ++ (v ++ rest)) = .ok (a, rest)

/-- **From the contract to whole texts.** -/
theorem Reads.decode (h : d.Reads v a) {before behind : List Char} (hb : Blank before)
    (hb' : Blank behind) : d.decode (String.ofList (before ++ v ++ behind)) = .ok a := by
  have hend : Ends behind := by simpa using Ends.append hb' ends_nil
  rw [Decoder.decode, String.toList_ofList, List.append_assoc, h _ _ hb hend]
  simp [bind, Except.bind, skipBlanks_of_blank hb']

/-! ### Plain shapes -/

theorem onValue_append {read : Char → List Char → Except Fault (α × List Char)} {c : Char}
    (hw : Blank ws) (hc : isBlank c = false) : onValue read (ws ++ c :: cs) = read c cs := by
  rw [onValue, skipBlanks_append_cons hw hc]

theorem Reads.map (h : d.Reads v a) (f : α → β) : (d.map f).Reads v (f a) := by
  intro ws rest hw hr
  simp [Decoder.map, h ws rest hw hr, bind, Except.bind]

/-- A text ends by itself, so anything may stand behind it. -/
theorem read_text {s : String} (h : Spelling t s.toList) (hw : Blank ws) (rest : List Char) :
    text.read (ws ++ '"' :: (t ++ '"' :: rest)) = .ok (s, rest) := by
  simp only [text]
  rw [onValue_append hw (by decide), readString, if_pos rfl, readText_of_spelling h]
  simp [bind, Except.bind]

theorem reads_text {s : String} (h : TextOf s v) : text.Reads v s := by
  intro ws rest hw _
  obtain ⟨h⟩ := h
  simpa using read_text h hw rest

theorem reads_count {n limit : Nat} (hn : n ≤ limit) (hw : n ≤ wordMax) :
    (count limit).Reads (digits n) n := by
  intro ws rest hws hr
  obtain ⟨c, ds, hds⟩ := List.exists_cons_of_ne_nil (digits_ne_nil n)
  have hc : isDigit c = true := (digits_digits n).2 c (by rw [hds]; exact List.mem_cons_self ..)
  have hread := readNumber_digits hw hr
  rw [hds, List.cons_append] at hread ⊢
  simp only [count]
  rw [onValue_append hws (not_blank_of_number (.inr hc)), readCount, if_pos (by simp [hc]), hread]
  simp [bind, Except.bind, hn]

theorem reads_boolean (b : Bool) : boolean.Reads (written (.bool b)) b := by
  intro ws rest hw _
  cases b <;> exact onValue_append hw (by decide)

end Decoder

/-! ### The texts of objects -/

/-- One member of an object, with the blanks around it: its key, and the text of its value. -/
inductive MemberText : String × List Char → List Char → Prop where
  | mk {w₁ k w₂ w₃ v w₄ : List Char} {key : String} (h₁ : Blank w₁) (hk : Spelling k key.toList)
      (h₂ : Blank w₂) (h₃ : Blank w₃) (h₄ : Blank w₄) :
      MemberText (key, v) (w₁ ++ '"' :: k ++ '"' :: w₂ ++ ':' :: w₃ ++ v ++ w₄)

/-- One member or more, separated by commas. -/
inductive MembersText : List (String × List Char) → List Char → Prop where
  /-- The last member. -/
  | last {m : String × List Char} {cs : List Char} (h : MemberText m cs) : MembersText [m] cs
  /-- A member before others. -/
  | cons {m : String × List Char} {ms : List (String × List Char)} {cs ds : List Char}
      (h : MemberText m cs) (hd : MembersText ms ds) : MembersText (m :: ms) (cs ++ ',' :: ds)

/-- An object with the given members, each by its key and the text of its value, in their order. -/
inductive ObjectText : List (String × List Char) → List Char → Prop where
  /-- No members. -/
  | empty {ws : List Char} (hw : Blank ws) : ObjectText [] ('\x7b' :: ws ++ ['\x7d'])
  /-- Some members. -/
  | members {ms : List (String × List Char)} {cs : List Char} (h : MembersText ms cs) :
      ObjectText ms ('\x7b' :: cs ++ ['\x7d'])

theorem memberText_written (k : String) (v : List Char) :
    MemberText (k, v) (writtenText k ++ ':' :: v) := by
  have hk := spelling_escaped k.toList
  simpa [writtenText] using MemberText.mk (v := v) blank_nil hk blank_nil blank_nil blank_nil

theorem membersText_written (m : String × Json) (ms : List (String × Json)) :
    MembersText ((m :: ms).map fun m => (m.1, written m.2)) (writtenMembers (m :: ms)) := by
  induction ms generalizing m with
  | nil => exact .last (memberText_written m.1 _)
  | cons m' ms ih =>
    have h := MembersText.cons (memberText_written m.1 (written m.2)) (ih m')
    simpa [writtenMembers] using h

/-- **What is written for an object** is one of its texts. -/
theorem objectText_written (ms : List (String × Json)) :
    ObjectText (ms.map fun m => (m.1, written m.2)) (written (.obj ms)) := by
  rw [written]
  cases ms with
  | nil => exact .empty blank_nil
  | cons m ms => exact .members (membersText_written m ms)

/-! ### Reading an object -/

namespace RecordShape

variable {shape : RecordShape σ α} {draft draft' : σ} {first : Bool} {key : String}
  {m : String × List Char} {ms : List (String × List Char)}

/-- What one member does to a draft. -/
inductive Enters (shape : RecordShape σ α) : σ → String × List Char → σ → Prop where
  /-- A field that the draft does not have is entered. -/
  | field {draft : σ} {key : String} {v : List Char} {f : Field σ} {enter : σ → σ}
      (hf : shape.fields.find? (·.name == key) = some f) (hg : f.given draft = false)
      (hv : f.decoder.Reads v enter) : Enters shape draft (key, v) (enter draft)
  /-- What is no field is passed over. -/
  | other {draft : σ} {key : String} {v : List Char}
      (hf : shape.fields.find? (·.name == key) = none) (ht : shape.tolerant = true)
      (hv : Derives .value v) : Enters shape draft (key, v) draft

/-- What members do to a draft, one after the other. -/
inductive Collects (shape : RecordShape σ α) : σ → List (String × List Char) → σ → Prop where
  | nil {draft : σ} : Collects shape draft [] draft
  | cons {draft mid draft' : σ} {m : String × List Char} {ms : List (String × List Char)}
      (h : shape.Enters draft m mid) (hs : Collects shape mid ms draft') :
      Collects shape draft (m :: ms) draft'

theorem readColon_append (hw : Blank ws) (rest : List Char) :
    readColon (ws ++ ':' :: rest) = .ok rest := by
  simp [readColon, skipBlanks_append_cons hw (show isBlank ':' = false by decide)]

theorem readMember_of_enters {k w w' : List Char} (h : shape.Enters draft (key, v) draft')
    (hk : Spelling k key.toList) (hw : Blank w) (hw' : Blank w') (hr : Ends rest) :
    shape.readMember draft (k ++ '"' :: (w ++ ':' :: (w' ++ (v ++ rest)))) =
      .ok (draft', rest) := by
  unfold readMember
  simp only [readText_of_spelling hk, bind, Except.bind, String.ofList_toList]
  cases h with
  | field hf hg hv => simp [hf, hg, readColon_append hw, hv _ _ hw' hr]
  | other hf ht hv =>
    simp [hf, ht, readColon_append hw, passValue_of_derives hv hw' hr, pure, Except.pure]

/-- What separates a member from what is before it. -/
def lead (first : Bool) : List Char := if first then [] else [',']

theorem nextMember_quote {w : List Char} (hw : Blank ws) (hw' : Blank w) (rest : List Char) :
    nextMember first (ws ++ (lead first ++ (w ++ '"' :: rest))) = .ok (some rest, rest) := by
  have hquote : isBlank '"' = false := by decide
  cases first with
  | true =>
    rw [lead, if_pos rfl, List.nil_append]
    simp [nextMember, skipBlanks_append hw, skipBlanks_append_cons hw' hquote]
  | false =>
    have hcomma : isBlank ',' = false := by decide
    simp [nextMember, lead, skipBlanks_append_cons hw hcomma, skipBlanks_append_cons hw' hquote]

theorem nextMember_brace (hw : Blank ws) (rest : List Char) :
    nextMember first (ws ++ '\x7d' :: rest) = .ok (none, rest) := by
  simp [nextMember, skipBlanks_append_cons hw (show isBlank '\x7d' = false by decide)]

theorem readMembers_brace (hw : Blank ws) (rest : List Char) :
    shape.readMembers draft first (ws ++ '\x7d' :: rest) = .ok (draft, rest) := by
  rw [readMembers]
  split <;> rename_i heq <;> rw [nextMember_brace hw] at heq <;> simp_all

theorem readMembers_member {mid : σ} {next behind : List Char} {x : List Char}
    (hn : nextMember first cs = .ok (some next, x))
    (hm : shape.readMember draft next = .ok (mid, behind)) :
    shape.readMembers draft first cs = shape.readMembers mid false behind := by
  rw [readMembers]
  split
  · simp_all
  · simp_all
  · rename_i heq
    rw [hn] at heq
    obtain ⟨rfl, rfl⟩ : _ ∧ _ := by simpa using heq
    split
    · simp_all
    · rename_i heq'
      rw [hm] at heq'
      obtain ⟨rfl, rfl⟩ : _ ∧ _ := by simpa using heq'
      rfl

theorem readMembers_of_enters {mid : σ} (hm : MemberText m cs) (h : shape.Enters draft m mid)
    (hw : Blank ws) (hr : Ends rest) :
    ∃ w, Blank w ∧ shape.readMembers draft first (ws ++ (lead first ++ (cs ++ rest))) =
      shape.readMembers mid false (w ++ rest) := by
  obtain ⟨h₁, hk, h₂, h₃, h₄⟩ := hm
  refine ⟨_, h₄, ?_⟩
  simp only [List.append_assoc, List.cons_append]
  exact readMembers_member (nextMember_quote hw h₁ _)
    (readMember_of_enters h hk h₂ h₃ (.append h₄ hr))

theorem readMembers_of_collects (hm : MembersText ms cs) (h : shape.Collects draft ms draft')
    (hw : Blank ws) (rest : List Char) :
    shape.readMembers draft first (ws ++ (lead first ++ (cs ++ '\x7d' :: rest))) =
      .ok (draft', rest) := by
  induction hm generalizing draft first ws with
  | last hm =>
    obtain ⟨h, -⟩ | ⟨h, ⟨⟩⟩ := h
    obtain ⟨w, hw', heq⟩ := readMembers_of_enters hm h hw (ends_brace rest)
    rw [heq, readMembers_brace hw']
  | cons hm _ ih =>
    cases h with
    | cons h hs =>
      rw [List.append_assoc, List.cons_append]
      obtain ⟨w, hw', heq⟩ := readMembers_of_enters hm h hw (ends_comma _)
      exact heq.trans (ih hs hw')

/-- **An object reads as the record of what it collects.** -/
theorem reads_of_collects (ho : ObjectText ms cs) (h : shape.Collects shape.blank ms draft)
    (ha : shape.complete draft = some a) : (Decoder.record shape).Reads cs a := by
  intro ws rest hw _
  have hmembers : ∃ cs', cs = '\x7b' :: (cs' ++ ['\x7d']) ∧
      shape.readMembers shape.blank true (cs' ++ '\x7d' :: rest) = .ok (draft, rest) := by
    cases ho with
    | empty hw' =>
      cases h with
      | nil => exact ⟨_, rfl, readMembers_brace hw' rest⟩
    | members hm => exact ⟨_, rfl, readMembers_of_collects hm h blank_nil rest⟩
  obtain ⟨cs', rfl, hread⟩ := hmembers
  simp only [Decoder.record, List.cons_append, List.append_assoc, List.nil_append]
  rw [Decoder.onValue_append hw (by decide), readRecord, if_neg (by decide), if_pos rfl, hread]
  simp [bind, Except.bind, finish, ha]

/-! ### Which keys have been met -/

/-- The drafts of a record, told by the keys that have been met, where `Told` says which texts tell
the value of a field. -/
structure Views (shape : RecordShape σ α) (Told : String → List Char → Prop)
    (view : List String → σ) : Prop where
  /-- Before any key the draft is blank. -/
  blank : view [] = shape.blank
  /-- A field whose key has not been met is not given. -/
  fresh : ∀ f ∈ shape.fields, ∀ ks, f.name ∉ ks → f.given (view ks) = false
  /-- A text that tells the value of a field enters it. -/
  enters : ∀ f ∈ shape.fields, ∀ v, Told f.name v →
    ∃ enter, f.decoder.Reads v enter ∧ ∀ ks, enter (view ks) = view (f.name :: ks)
  /-- Other keys make no difference. -/
  others : ∀ k, (∀ f ∈ shape.fields, f.name ≠ k) → ∀ ks, view (k :: ks) = view ks

variable {Told : String → List Char → Prop} {view : List String → σ}

/-- **What is collected depends on the keys alone**, if no field occurs twice, every field is told
by its text, and everything else is a value that may be passed over. -/
theorem Views.collects (h : shape.Views Told view) {ks : List String}
    (once : ∀ f ∈ shape.fields, (ks ++ ms.map Prod.fst).count f.name ≤ 1)
    (told : ∀ m ∈ ms, (∃ f ∈ shape.fields, f.name = m.1) → Told m.1 m.2)
    (other : ∀ m ∈ ms, (∀ f ∈ shape.fields, f.name ≠ m.1) →
      shape.tolerant = true ∧ Derives .value m.2) :
    shape.Collects (view ks) ms (view ((ms.map Prod.fst).reverse ++ ks)) := by
  induction ms generalizing ks with
  | nil => exact .nil
  | cons m ms ih =>
    obtain ⟨key, v⟩ := m
    -- The keys met so far are those before and the one of this member.
    have hrest : shape.Collects (view (key :: ks)) ms
        (view ((((key, v) :: ms).map Prod.fst).reverse ++ ks)) := by
      have hcount : ∀ f ∈ shape.fields, (key :: ks ++ ms.map Prod.fst).count f.name ≤ 1 := by
        intro f hf
        have hperm : (key :: ks ++ ms.map Prod.fst).Perm (ks ++ key :: ms.map Prod.fst) :=
          List.perm_middle.symm
        rw [hperm.count_eq]
        exact once f hf
      simpa using ih hcount (fun m hm => told m (List.mem_cons_of_mem _ hm))
        fun m hm => other m (List.mem_cons_of_mem _ hm)
    refine .cons ?_ hrest
    cases hfind : shape.fields.find? (·.name == key) with
    | none =>
      have hno : ∀ f ∈ shape.fields, f.name ≠ key := by simpa using List.find?_eq_none.mp hfind
      obtain ⟨htolerant, hvalue⟩ := other _ (List.mem_cons_self ..) hno
      rw [h.others key hno]
      exact .other hfind htolerant hvalue
    | some f =>
      have hf := List.mem_of_find?_eq_some hfind
      obtain rfl : f.name = key := by simpa using List.find?_some hfind
      have hnew : f.name ∉ ks := by
        intro hmem
        have hcount := once f hf
        rw [List.map_cons, List.count_append, List.count_cons_self] at hcount
        have := List.count_pos_iff.mpr hmem
        omega
      have htold : Told f.name v := told _ (List.mem_cons_self ..) ⟨f, hf, rfl⟩
      obtain ⟨enter, hreads, henter⟩ := h.enters f hf v htold
      rw [← henter]
      exact .field hfind (h.fresh f hf ks hnew) hreads

/-- The same for a record whose members are given up to their order. -/
theorem Views.collects_of_perm (h : shape.Views Told view) {fields : List (String × List Char)}
    (hp : ms.Perm fields) (nodup : (fields.map Prod.fst).Nodup)
    (told : ∀ m ∈ fields, (∃ f ∈ shape.fields, f.name = m.1) ∧ Told m.1 m.2) :
    ∃ ks, (∀ k, k ∈ ks ↔ k ∈ fields.map Prod.fst) ∧ shape.Collects shape.blank ms (view ks) := by
  refine ⟨(ms.map Prod.fst).reverse ++ [], fun k => ?_, h.blank ▸ h.collects ?_ ?_ ?_⟩
  · rw [List.append_nil, List.mem_reverse]
    exact (hp.map Prod.fst).mem_iff
  · intro f _
    rw [List.nil_append, (hp.map Prod.fst).count_eq]
    exact List.nodup_iff_count_le_one.mp nodup f.name
  · exact fun m hm _ => (told m (hp.mem_iff.mp hm)).2
  · intro m hm hno
    obtain ⟨f, hf, hname⟩ := (told m (hp.mem_iff.mp hm)).1
    exact absurd hname (hno f hf)

end RecordShape

end Troupe.Json
