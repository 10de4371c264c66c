import Troupe.Proofs.Json.Records
import Troupe.Reply

/-!
# Errors and replies survive JSON

A failure of an actor is written as its kind, alone or as the only key of an object with its text; a
reply is written as an object with its two parts. Whatever is written in one of these forms, with
any escapes, blanks and order of members, is read as the value that it was written for, and the
printer writes one of them. So a value can be told from its text, and reading a text and writing
the value again loses nothing but the choice of form.

## Main definitions

* `ActorError.Tagged`, `Reply.Listed` — the forms
* `Json.Survives` — what it means that values survive being written

## Main results

* `ActorError.reads_tagged`, `Reply.reads_listed` — the forms are read
* `Json.errors_and_replies_survive` — errors and replies survive JSON
-/

namespace Troupe

open Json

/-! ### Choices -/

namespace Json.Alternative

variable {α : Type} {alternatives : List (Alternative α)} {name : String} {a : α} {v cs : List Char}

theorem reads_bare (ha : (alternatives.find? (·.name == name)).bind alone = some a)
    (hv : TextOf name v) : (Decoder.choice alternatives).Reads v a := by
  intro ws rest hw _
  obtain ⟨h⟩ := hv
  simp only [Decoder.choice, List.cons_append, List.append_assoc, List.nil_append]
  rw [Decoder.onValue_append hw (by decide), readChoice, if_pos rfl, readText_of_spelling h]
  simp [bind, Except.bind, String.ofList_toList, ha]

theorem closeObject_append {ws : List Char} (hw : Blank ws) (rest : List Char) :
    closeObject (ws ++ '\x7d' :: rest) = .ok rest := by
  simp [closeObject, skipBlanks_append_cons hw (show isBlank '\x7d' = false by decide)]

theorem reads_tagged {alternative : Alternative α}
    (ha : alternatives.find? (·.name == name) = some alternative)
    (hv : alternative.payload.Reads v a) (ho : ObjectText [(name, v)] cs) :
    (Decoder.choice alternatives).Reads cs a := by
  intro ws rest hw _
  cases ho with
  | members hm =>
    cases hm with
    | last hm =>
      obtain ⟨h₁, hk, h₂, h₃, h₄⟩ := hm
      simp only [Decoder.choice, List.cons_append, List.append_assoc, List.nil_append]
      rw [Decoder.onValue_append hw (by decide), readChoice, if_neg (by decide), if_pos rfl,
        Decoder.read_text hk h₁]
      simp [bind, Except.bind, ha, RecordShape.readColon_append h₂,
        hv _ _ h₃ (.append h₄ (ends_brace rest)), closeObject_append h₄, pure, Except.pure]
    | cons _ hd => cases hd

end Json.Alternative

/-! ### Errors -/

namespace ActorError

/-- The text of a failure: its kind, alone or as the only key of what it carries. -/
def Tagged (e : ActorError) (cs : List Char) : Prop :=
  match e.detail with
  | none => TextOf e.kind cs
  | some s => ∃ v, TextOf s v ∧ ObjectText [(e.kind, v)] cs

theorem find_of_bare {e : ActorError} (h : e.detail = none) :
    (alternatives.find? (·.name == e.kind)).bind Alternative.alone = some e := by
  cases e <;> first | rfl | cases h

theorem find_of_texted {e : ActorError} {s : String} (h : e.detail = some s) :
    ∃ make, alternatives.find? (·.name == e.kind) = some (.texted e.kind make) ∧ make s = e := by
  cases e <;> cases h <;> exact ⟨_, rfl, rfl⟩

/-- **A failure in its form** is read as that failure. -/
theorem reads_tagged {e : ActorError} {cs : List Char} (h : e.Tagged cs) : decoder.Reads cs e := by
  unfold Tagged at h
  split at h
  · rename_i hd
    exact Alternative.reads_bare (find_of_bare hd) h
  · rename_i s hd
    obtain ⟨v, hv, ho⟩ := h
    obtain ⟨make, hfind, rfl⟩ := find_of_texted hd
    exact Alternative.reads_tagged hfind ((Decoder.reads_text hv).map make) ho

theorem tagged_written (e : ActorError) : e.Tagged (written e.toJson) := by
  cases hd : e.detail with
  | none =>
    simp only [Tagged, toJson, hd]
    exact textOf_written e.kind
  | some s =>
    simp only [Tagged, toJson, hd]
    exact ⟨_, textOf_written s, objectText_written [(e.kind, .str s)]⟩

end ActorError

/-! ### Replies -/

namespace Reply

/-- The text of a reply: an object with its two parts, in either order. -/
def Listed (r : Reply) (cs : List Char) : Prop :=
  ∃ v ms, TextOf r.payload v ∧ ms.Perm [("success", written (.bool r.success)), ("payload", v)] ∧
    ObjectText ms cs

/-- The draft of a reply after the given keys. -/
def view (r : Reply) (ks : List String) : Draft where
  success := if "success" ∈ ks then some r.success else none
  payload := if "payload" ∈ ks then some r.payload else none

/-- Which texts tell the parts of a reply. -/
def Told (r : Reply) (k : String) (v : List Char) : Prop :=
  (k = "success" → v = written (.bool r.success)) ∧ (k = "payload" → TextOf r.payload v)

theorem views (r : Reply) : shape.Views r.Told r.view where
  blank := rfl
  fresh := by simp +contextual [shape, view]
  enters := by
    simp only [shape, List.forall_mem_cons]
    refine ⟨fun v hv => ?_, fun v hv => ?_, List.forall_mem_nil _⟩
    · rw [hv.1 rfl]
      exact ⟨_, (Decoder.reads_boolean r.success).map _, fun ks => by simp [view]⟩
    · exact ⟨_, (Decoder.reads_text (hv.2 rfl)).map _, fun ks => by simp [view]⟩
  others := by
    simp only [shape, List.forall_mem_cons, view]
    rintro k ⟨hs, hp, -⟩ ks
    simp [hs, hp]

/-- **A reply in its form** is read as that reply. -/
theorem reads_listed {r : Reply} {cs : List Char} (h : r.Listed cs) : decoder.Reads cs r := by
  obtain ⟨v, ms, hv, hp, ho⟩ := h
  obtain ⟨ks, hks, hcollects⟩ := r.views.collects_of_perm hp (by simp) (by simp [shape, Told, hv])
  refine RecordShape.reads_of_collects ho hcollects ?_
  have hs : "success" ∈ ks := (hks _).mpr (by simp)
  have hpay : "payload" ∈ ks := (hks _).mpr (by simp)
  simp [shape, view, hs, hpay]

theorem listed_written (r : Reply) : r.Listed (written r.toJson) :=
  ⟨_, _, textOf_written r.payload, .refl _,
    objectText_written [("success", .bool r.success), ("payload", .str r.payload)]⟩

end Reply

/-! ### Survival -/

namespace Json

/-- What it means that values survive being written as JSON texts of a certain form. -/
structure Survives {α : Type} (decoder : Decoder α) (toJson : α → Json)
    (Form : α → List Char → Prop) : Prop where
  /-- What is written has the form. -/
  form : ∀ a, Form a (toJson a).render.toList
  /-- Whatever has the form is read as the value that it is the form of. -/
  accepted : ∀ a text, Form a text.toList → decoder.decode text = .ok a
  /-- What is written is read as the value that it was written for. -/
  returns : ∀ a, decoder.decode (toJson a).render = .ok a
  /-- Values with the same text are equal. -/
  injective : ∀ a b, (toJson a).render = (toJson b).render → a = b
  /-- What an accepted text stands for can be written and read again. -/
  settles : ∀ text a, decoder.decode text = .ok a → decoder.decode (toJson a).render = .ok a

theorem Survives.of_reads {α : Type} {decoder : Decoder α} {toJson : α → Json}
    {Form : α → List Char → Prop} (form : ∀ a, Form a (written (toJson a)))
    (reads : ∀ {a cs}, Form a cs → decoder.Reads cs a) : Survives decoder toJson Form := by
  have rendered : ∀ a, Form a (toJson a).render.toList := by
    intro a
    rw [render, String.toList_ofList]
    exact form a
  have accepted : ∀ a text, Form a text.toList → decoder.decode text = .ok a := by
    intro a text h
    have := (reads h).decode blank_nil blank_nil
    rwa [List.nil_append, List.append_nil, String.ofList_toList] at this
  have returns : ∀ a, decoder.decode (toJson a).render = .ok a :=
    fun a => accepted a _ (rendered a)
  refine ⟨rendered, accepted, returns, fun a b h => ?_, fun _ a _ => returns a⟩
  exact Except.ok.inj ((returns a).symm.trans (h ▸ returns b))

/-- **Errors and replies survive JSON.** -/
theorem errors_and_replies_survive :
    Survives ActorError.decoder ActorError.toJson ActorError.Tagged ∧
      Survives Reply.decoder Reply.toJson Reply.Listed :=
  ⟨.of_reads ActorError.tagged_written ActorError.reads_tagged,
    .of_reads Reply.listed_written Reply.reads_listed⟩

end Json

end Troupe
