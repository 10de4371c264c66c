import Troupe.Proofs.World.Phases

/-!
# Closes done in full

Where actors are not attached to systems later on, a name leads to an actor that remembers it, and
an actor that has let go of its target remembers none. With this the phase of a close decides
everything at once: a closed actor that nobody is closing any more has let go of its target, is in
no system and is found under no name, exactly if its close has not broken off.

## Main definitions

* `Book.Orderly` — names lead to actors that remember them
* `Act.attaches` — an actor that is there already gets a name

## Main results

* `World.orderly_run` — names are orderly where nobody is attached
* `World.released_iff_not_brokenOff` — which closes have been done in full
-/

namespace Troupe

/-! ### Names -/

namespace Book

variable {b : Book}

/-- What holds of names where an actor gets none but the one that it comes into being with. -/
structure Orderly (b : Book) : Prop where
  /-- A name leads to an actor that remembers it. -/
  remembers : ∀ {s key a}, b.leads s key = some a →
    (b.post a).registration = some { system := s, key }
  /-- An actor without a target remembers no name. -/
  forgotten : ∀ {a}, (b.post a).holdsTarget = false → (b.post a).registration = none

/-- A name is given to an actor that remembers none and holds its target. -/
def Fresh (b : Book) : Turn → Prop
  | .lists _ _ a _ =>
    a < b.posts.length ∧ (b.post a).registration = none ∧ (b.post a).holdsTarget = true
  | _ => True

/-- A turn that changes no names that lead somewhere else, and leaves actors alone. -/
theorem Orderly.fewer {b' : Book} (h : b.Orderly)
    (hpost : ∀ a, (b'.post a).registration = (b.post a).registration ∧
      (b'.post a).holdsTarget = (b.post a).holdsTarget)
    (hleads : ∀ {s key a}, b'.leads s key = some a → b.leads s key = some a) : b'.Orderly where
  remembers {s key a} hl := by
    rw [(hpost a).1]
    exact h.remembers (hleads hl)
  forgotten {a} hgone := by
    rw [(hpost a).2] at hgone
    rw [(hpost a).1]
    exact h.forgotten hgone

/-- A name is given to somebody who remembers none. -/
theorem Orderly.lists (h : b.Orderly) {k : SystemId} {name : String} {c : ActorId}
    {invocable : Bool} (hfair : b.Fair (.lists k name c invocable))
    (hfresh : b.Fresh (.lists k name c invocable)) :
    (b.turn (.lists k name c invocable)).Orderly := by
  obtain ⟨hlt, hnone, hholds⟩ := hfresh
  refine ⟨fun {s key a} hl => ?_, fun {a} hgone => ?_⟩
  · rw [leads_lists (lt_of_isLive hfair)] at hl
    split at hl
    · rename_i hname
      obtain ⟨rfl, rfl⟩ := hname
      obtain rfl : c = a := Option.some.inj hl
      rw [post_lists, if_pos ⟨rfl, hlt⟩]
    · have hreg := h.remembers hl
      rw [post_lists, if_neg]
      · exact hreg
      · rintro ⟨rfl, -⟩
        rw [hnone] at hreg
        cases hreg
  · rw [post_lists] at hgone ⊢
    split at hgone
    · rw [hholds] at hgone
      cases hgone
    · rename_i hc
      rw [if_neg hc]
      exact h.forgotten hgone

/-- Who leaves is not found under the name that it remembers. -/
theorem Orderly.leaves (hk : b.Kept) (h : b.Orderly) (c : ActorId) :
    (b.turn (.leaves c)).Orderly := by
  refine ⟨fun {s key a} hl => ?_, fun {a} hgone => ?_⟩
  · rw [leads_leaves] at hl
    split at hl
    · cases hl
    · rename_i hstays
      rw [post_leaves, if_neg]
      · exact h.remembers hl
      · rintro ⟨rfl, -⟩
        exact hstays ⟨h.remembers hl, hk.live_of_leads hl, hl⟩
  · rw [post_leaves] at hgone ⊢
    split
    · rfl
    · rename_i hc
      rw [if_neg hc] at hgone
      exact h.forgotten hgone

theorem Orderly.turn (h : b.Kept ∧ b.Orderly) {t : Turn} (ht : b.Fair t ∧ b.Fresh t) :
    (b.turn t).Kept ∧ (b.turn t).Orderly := by
  refine ⟨h.1.turn ht.1, ?_⟩
  obtain ⟨hk, h⟩ := h
  -- A turn after which fewer names lead somewhere.
  have fewer : ∀ {b' : Book} {p : SystemId → String → Prop}
      [∀ s key, Decidable (p s key)], b'.posts = b.posts →
      (∀ s key, b'.leads s key = if p s key then none else b.leads s key) → b'.Orderly := by
    intro b' p _ hposts hleads
    refine h.fewer (fun a => ?_) fun {s key a} hl => ?_
    · rw [post, post, hposts]
      exact ⟨rfl, rfl⟩
    · rw [hleads] at hl
      split at hl
      · cases hl
      · exact hl
  cases t with
  | joins => exact h.fewer (fun a => by rw [post_joins]; exact ⟨rfl, rfl⟩) id
  | founds =>
    refine h.fewer (fun _ => ⟨rfl, rfl⟩) fun {s key a} hl => ?_
    rwa [leads, house_founds] at hl
  | binds _ _ | drops _ | waits => exact h.fewer (fun _ => ⟨rfl, rfl⟩) id
  | shuts c => exact h.fewer (post_shuts c) id
  | strikes k name => exact fewer rfl fun s key => leads_strikes ..
  | wipes k => exact fewer rfl fun s key => leads_wipes ..
  | forgets S => exact fewer rfl fun s key => leads_forgets ..
  | lists k name c invocable => exact h.lists ht.1 ht.2
  | leaves c => exact h.leaves hk c

end Book

namespace World

variable {w : World} {act : Act} {a : ActorId} {s : SystemId} {key : String}

open Book (Turn)

/-- Whether an act gives a name to an actor that is there already. -/
def Act.attaches : Act → Bool
  | .call (.attach _ _ _ _) => true
  | _ => false

/-- Whoever gets a name otherwise comes into being with it. -/
theorem eq_length_of_registers? (hplain : act.attaches = false)
    (h : w.registers? act = some (s, key, a)) : a = w.actors.length := by
  unfold registers? at h
  split at h
  · split at h
    · split at h <;> cases h
      rfl
    · cases h
  · split at h
    · split at h
      · split at h <;> cases h
        rfl
      · cases h
    · cases h
  · cases hplain
  · cases h

theorem Prelude.fresh {ts : List Turn} (hplain : act.attaches = false) (h : w.Prelude act ts) :
    w.book.Along Book.Fresh ts := by
  have hlen : w.book.posts.length = w.actors.length := by simp [book]
  cases h with
  | lists hr _ _ ha =>
    rw [eq_length_of_registers? hplain hr] at ha
    exact absurd ha (Nat.lt_irrefl _)
  | member hr _ _ =>
    have hpost : w.book.post w.actors.length = (default : Actor).post := by
      rw [post_book, actor, List.getElem?_eq_none (Nat.le_refl _)]
      rfl
    refine ⟨trivial, ⟨?_, ?_⟩, trivial⟩
    · simp [Book.turn, book]
    · rw [Book.post_joins, hpost]
      exact ⟨rfl, rfl⟩
  | nothing _ _ _ => trivial
  | joins _ _ _ | drops _ _ _ | strikes _ _ _ | wipes _ _ _ => exact ⟨trivial, trivial⟩
  | founds _ _ _ => exact ⟨trivial, trivial, trivial⟩

/-- All turns of an act that attaches nobody give names to new actors. -/
theorem Conduct.fresh {ts : List Turn} (hplain : act.attaches = false) (h : w.Conduct act ts) :
    w.book.Along Book.Fresh ts := by
  refine h.along (Prelude.fresh hplain) fun ht => ?_
  rcases ht with rfl | ⟨_, rfl | rfl⟩ <;> trivial

theorem orderly_next (hs : w.scene.Sound) (hk : w.book.Kept) (hplain : act.attaches = false)
    (h : w.book.Orderly) : (w.next act).book.Orderly := by
  obtain ⟨ts, hconduct, S, hS, hbook⟩ := conduct_next hs act
  have hturns : (w.book.turns ts).Kept ∧ (w.book.turns ts).Orderly :=
    ((hconduct.fair hk).and (hconduct.fresh hplain)).keeps
      (I := fun b => b.Kept ∧ b.Orderly) (fun hb ht => Book.Orderly.turn hb ht) ⟨hk, h⟩
  rw [hbook]
  exact (Book.Orderly.turn (t := .forgets S) hturns ⟨hS, trivial⟩).2

/-- Where nobody is attached, names lead to actors that remember them. -/
theorem orderly_run (acts : List Act) (hplain : ∀ act ∈ acts, act.attaches = false) :
    (run acts).book.Orderly := by
  induction acts using List.reverseRecOn with
  | nil => exact ⟨fun h => (by cases h), fun h => (by cases h)⟩
  | append_singleton acts act ih =>
    rw [run_concat]
    exact orderly_next (sound_run acts) (kept_run acts) (hplain act (by simp))
      (ih fun act' hact' => hplain act' (List.mem_append_left _ hact'))

/-! ### Closes done in full -/

/-- **Which closes have been done in full.** Where nobody is attached, a closed actor that nobody is
closing any more has let go of its target, remembers no registration, and is not to be found in any
system, exactly if its close has not broken off. -/
theorem released_iff_not_brokenOff (acts : List Act) (hplain : ∀ act ∈ acts, act.attaches = false)
    (a : ActorId) (hclosed : ((run acts).actor a).closed = true)
    (hdone : ¬(run acts).IsClosing a) :
    (((run acts).actor a).holdsTarget = false ∧ ((run acts).actor a).registration = none ∧
      (run acts).systemOf a = none ∧
      ∀ s key entry, ((run acts).system s).registry.find? key = some entry → entry.actor ≠ a) ↔
    ¬BrokenOff acts a := by
  obtain ⟨p, hp, hbroken⟩ := phase_run acts a
  have horderly := orderly_run acts hplain
  rw [← hbroken]
  cases hp with
  | untouched hopen _ _ =>
    rw [hopen] at hclosed
    cases hclosed
  | underway _ hclosing _ => exact absurd hclosing hdone
  | brokenOff _ _ hholds => simp [hholds]
  | completed _ _ hgone =>
    have hreg : ((run acts).actor a).registration = none := by
      have := horderly.forgotten (a := a)
      rw [post_book] at this
      exact this hgone
    refine ⟨fun _ h => (by cases h), fun _ => ⟨hgone, hreg, ?_, ?_⟩⟩
    · rw [systemOf, hreg]
      rfl
    · rintro s key entry hfind rfl
      have hleads : (run acts).book.leads s key = some entry.actor := by
        rw [Book.leads, house_book]
        exact congrArg (Option.map (·.actor)) hfind
      have := horderly.remembers hleads
      rw [post_book] at this
      have hsome : ((run acts).actor entry.actor).registration = some ⟨s, key⟩ := this
      rw [hreg] at hsome
      cases hsome

/-- One actor is busy. An operation of a second one, which is in a hurry to be closed, closes the
first one and waits for it; the second one is closed meanwhile, and its time is up. Then the first
one gets done with everything. -/
def hurriedRun : List Act :=
  [.call (.createSystem "s" "sys" 1 (.ofSecs 30) { closeTimeout := .ofSecs 1 }),
    .call (.createMember "s" "b" "b" "log" false),
    .call (.createActor "a" "a" "log" { closeTimeout := .ofMillis 50 }),
    .call (.send (.operation .ordered "b" [.effect (.gate "g")] .value (.watched "x"))),
    .call (.send (.operation .ordered "a" [.close "b"] .value (.watched "y"))),
    .move (.worker 0 0), .move (.runLoop 0), .move (.runLoop 0), .move (.runLoop 1),
    .move (.runLoop 1), .move (.runLoop 1), .call (.close "a" "z"), .move (.task 0),
    .call (.advance 100), .move (.task 0), .move (.task 0), .call (.openGate "g"),
    .move (.runLoop 0), .move (.runLoop 0), .move (.runLoop 0)]

theorem not_isClosing_hurriedRun (a : ActorId) : ¬(run hurriedRun).IsClosing a := by
  have hnone : (run hurriedRun).waiting = [] := rfl
  rintro ⟨x, hx, -⟩
  rw [hnone] at hx
  cases hx

theorem attaches_hurriedRun : ∀ act ∈ hurriedRun, act.attaches = false := by decide

/-- The close of the first one has broken off, that of the second one is done. -/
theorem brokenOff_hurriedRun :
    (∀ act ∈ hurriedRun, act.attaches = false) ∧
    (∀ a, ¬(run hurriedRun).IsClosing a) ∧
    (((run hurriedRun).actor 0).closed = true ∧ BrokenOff hurriedRun 0) ∧
    ((run hurriedRun).actor 1).closed = true ∧ ¬BrokenOff hurriedRun 1 := by
  have hfirst := released_iff_not_brokenOff hurriedRun attaches_hurriedRun 0 rfl
    (not_isClosing_hurriedRun 0)
  have hsecond := released_iff_not_brokenOff hurriedRun attaches_hurriedRun 1 rfl
    (not_isClosing_hurriedRun 1)
  refine ⟨attaches_hurriedRun, not_isClosing_hurriedRun, ⟨rfl, ?_⟩, rfl,
    hsecond.mp ⟨rfl, rfl, rfl, ?_⟩⟩
  · by_contra hdone
    have hgone : ((run hurriedRun).actor 0).holdsTarget = false := (hfirst.mpr hdone).1
    cases hgone
  · intro s key entry hfind
    cases s with
    | zero =>
      have hregistry : ((run hurriedRun).system 0).registry =
          ⟨[("b", { actor := 0, invocable := false })]⟩ := rfl
      rw [hregistry, Registry.find?, List.lookup_cons] at hfind
      split at hfind <;> cases hfind
      decide
    | succ s => cases hfind

/-- **A close that is done in half**: everything has come to rest, and the first actor is closed,
and it has kept its target and its place in the system. -/
theorem closed_in_half :
    (∀ act ∈ hurriedRun, act.attaches = false) ∧ (run hurriedRun).isQuiet = true ∧
    ((run hurriedRun).actor 0).closed = true ∧ ¬(run hurriedRun).IsClosing 0 ∧
    ((run hurriedRun).actor 0).holdsTarget = true ∧ (run hurriedRun).systemOf 0 = some 0 ∧
    ((run hurriedRun).system 0).registry.find? "b" = some { actor := 0, invocable := false } :=
  ⟨attaches_hurriedRun, rfl, rfl, not_isClosing_hurriedRun 0, rfl, rfl, rfl⟩

end World

end Troupe
