import Troupe.Proofs.World.Names

/-!
# Phases of a close

A close marks its actor as closed at once. What is left to do, letting go of the target and leaving
the system, is done at the end of the wait, by whoever waits. So a close is done in full, or it is
under way, unless the one who waits does not get to the end of the wait: an operation on a run loop
which is aborted while the operation waits. The actor stays closed then, it keeps its target, and
since it is closed nobody closes it again.

An actor is in one of four phases, and the acts that lead from one phase to the next one are few.
The waits are tidy all the while: nobody waits for an actor that somebody else waits for.

## Main definitions

* `World.Tidy` — one wait for an actor, and one mover who has it
* `World.IsClosing` — a close is under way
* `World.BreaksOff`, `World.BrokenOff` — a close does not get to its end
* `World.InPhase` — how far the close of an actor has got

## Main results

* `World.tidy_run` — the waits of a run are tidy
* `World.phase_next`, `World.phase_run` — how the phases follow each other
* `World.isOpen_run` — an actor that has not been closed holds its target
-/

namespace Troupe

namespace World

variable {w : World} {act : Act} {a : ActorId} {m : Mover}

open Book (Turn)

/-! ### Tidy waits -/

/-- Nobody waits for an actor that somebody else waits for, or twice. -/
structure Tidy (w : World) : Prop where
  /-- There is one wait for an actor, and one mover who has it. -/
  sole : ∀ {m m' : Mover} {x y : Wait}, x ∈ w.waits m → y ∈ w.waits m' → x.actor = y.actor →
    m = m' ∧ x = y
  /-- The waits of a mover have different numbers. -/
  orders : ∀ m, ((w.waits m).map (·.order)).Nodup

theorem Tidy.congr {w' : World} (h : w.Tidy) (hwaits : ∀ m, w'.waits m = w.waits m) : w'.Tidy := by
  refine ⟨fun {m m' x y} hx hy heq => ?_, fun m => ?_⟩
  · rw [hwaits] at hx hy
    exact h.sole hx hy heq
  · rw [hwaits]
    exact h.orders m

theorem waits_of_ended (h : (w.actor a).loop = .ended) : w.waits (.runLoop a) = [] := by
  rw [waits, h]
  rfl

theorem eq_of_nodup_actors {ws : List Wait} (h : (ws.map (·.actor)).Nodup) {x y : Wait}
    (hx : x ∈ ws) (hy : y ∈ ws) (heq : x.actor = y.actor) : x = y :=
  List.inj_on_of_nodup_map h hx hy heq

theorem eq_of_nodup_orders {ws : List Wait} (h : (ws.map (·.order)).Nodup) {x y : Wait}
    (hx : x ∈ ws) (hy : y ∈ ws) (heq : x.order = y.order) : x = y :=
  List.inj_on_of_nodup_map h hx hy heq

/-! ### Completing a close -/

/-- A mover completes a close that it waits for. -/
structure Completion (w : World) (act : Act) (m : Mover) (x : Wait) : Prop where
  /-- It waits for it, -/
  mem : x ∈ w.waits m
  /-- and for everything else afterwards. -/
  mine : (w.next act).waits m = (w.waits m).filter (·.order != x.order)
  /-- The others wait on. -/
  others : ∀ m', m' ≠ m → m' ≠ .runLoop x.actor → (w.next act).waits m' = w.waits m'
  /-- The run loop of the closed actor has ended, -/
  ended : ((w.next act).actor x.actor).loop = .ended
  /-- but not the one that has waited for this. -/
  lives : ∀ b, m = .runLoop b → ((w.next act).actor b).loop ≠ .ended

namespace Completion

variable {x y : Wait} {m' : Mover}

/-- Waits only get fewer. -/
theorem sublist (h : w.Completion act m x) (m' : Mover) :
    ((w.next act).waits m').Sublist (w.waits m') := by
  by_cases hm : m' = m
  · rw [hm, h.mine]
    exact List.filter_sublist
  · by_cases hrun : m' = .runLoop x.actor
    · rw [hrun, waits_of_ended h.ended]
      exact List.nil_sublist _
    · rw [h.others m' hm hrun]

/-- The run loop of the closed actor waits for nothing. -/
theorem ne_runLoop (h : w.Completion act m x) (hy : y ∈ (w.next act).waits m') :
    m' ≠ .runLoop x.actor := by
  rintro rfl
  rw [waits_of_ended h.ended] at hy
  cases hy

/-- Who waits for somebody else goes on waiting. -/
theorem stays (h : w.Completion act m x) (htidy : w.Tidy) (hy : y ∈ w.waits m')
    (hne : y.actor ≠ x.actor) (hrun : m' ≠ .runLoop x.actor) : y ∈ (w.next act).waits m' := by
  by_cases hm : m' = m
  · subst hm
    rw [h.mine]
    refine List.mem_filter.mpr ⟨hy, bne_iff_ne.mpr fun heq => hne ?_⟩
    rw [eq_of_nodup_orders (htidy.orders m') hy h.mem heq]
  · rwa [h.others m' hm hrun]

end Completion

/-! ### Tidy waits of a run -/

/-- New waits are for actors that were open, so nobody waited for them. -/
theorem Tidy.begins {ts : List Turn} (h : w.Tidy) (hs : w.scene.Sound)
    (hopens : w.Opens ts ((w.next act).waits m))
    (hothers : ∀ m', m' ≠ m → (w.next act).waits m' = w.waits m') : (w.next act).Tidy := by
  have fresh : ∀ {m' x y}, m' ≠ m → x ∈ (w.next act).waits m → y ∈ (w.next act).waits m' →
      x.actor ≠ y.actor := by
    intro m' x y hne hx hy heq
    rw [hothers m' hne] at hy
    have hopen := (hopens.opened x hx).2
    rw [heq, (closed_of_waits hs hy).1] at hopen
    cases hopen
  refine ⟨fun {m₁ m₂ x y} hx hy heq => ?_, fun m' => ?_⟩
  · by_cases h₁ : m₁ = m
    · subst h₁
      by_cases h₂ : m₂ = m₁
      · subst h₂
        exact ⟨rfl, eq_of_nodup_actors hopens.actors hx hy heq⟩
      · exact absurd heq (fresh h₂ hx hy)
    · by_cases h₂ : m₂ = m
      · subst h₂
        exact absurd heq.symm (fresh h₁ hy hx)
      · rw [hothers _ h₁] at hx
        rw [hothers _ h₂] at hy
        exact h.sole hx hy heq
  · by_cases hm : m' = m
    · subst hm
      exact hopens.orders
    · rw [hothers _ hm]
      exact h.orders m'

/-- The waits stay tidy, whatever happens. -/
theorem Tidy.next (h : w.Tidy) (hs : w.scene.Sound) (act : Act) : (w.next act).Tidy := by
  obtain ⟨ts, hconduct, -⟩ := conduct_next hs act
  cases hconduct with
  | quiet _ hwaits | own _ _ _ _ hwaits => exact h.congr hwaits
  | begins _ _ _ hopens hothers => exact h.begins hs hopens hothers
  | completes _ _ hx hwaits hothers hended hlives =>
    have hsub := (Completion.mk hx hwaits hothers hended hlives).sublist
    exact ⟨fun hx hy heq => h.sole ((hsub _).subset hx) ((hsub _).subset hy) heq,
      fun m' => (h.orders m').sublist ((hsub m').map _)⟩

theorem Tidy.blank : ({} : World).Tidy := by
  have hnone : ∀ m, ({} : World).waits m = [] := by
    intro m
    cases m <;> rfl
  refine ⟨fun {m _ x _} hx => ?_, fun m => ?_⟩
  · rw [hnone m] at hx
    cases hx
  · rw [hnone m]
    exact .nil

/-- **The waits of a run are tidy.** -/
theorem tidy_run (acts : List Act) : (run acts).Tidy := by
  induction acts using List.reverseRecOn with
  | nil => exact .blank
  | append_singleton acts act ih =>
    rw [run_concat]
    exact ih.next (sound_run acts) act

/-! ### Closes that break off -/

/-- A close of an actor is under way. -/
def IsClosing (w : World) (a : ActorId) : Prop := ∃ x ∈ w.waiting, x.1.actor = a

/-- With an act, the run loop that waits for the end of a close ends itself. -/
def BreaksOff (w : World) (act : Act) (a : ActorId) : Prop :=
  ∃ b wait, (wait, .runLoop b) ∈ w.waiting ∧ wait.actor = a ∧
    ((w.next act).actor b).loop = .ended

/-- In a run, the close of an actor has broken off. -/
def BrokenOff (acts : List Act) (a : ActorId) : Prop :=
  ∃ before act after, acts = before ++ act :: after ∧ (run before).BreaksOff act a

theorem brokenOff_concat {acts : List Act} :
    BrokenOff (acts ++ [act]) a ↔ BrokenOff acts a ∨ (run acts).BreaksOff act a := by
  constructor
  · rintro ⟨before, act', after, hacts, h⟩
    rcases List.eq_nil_or_concat after with rfl | ⟨rest, last, rfl⟩
    · obtain ⟨rfl, hact⟩ := List.append_inj' hacts rfl
      obtain rfl : act = act' := (List.cons.inj hact).1
      exact .inr h
    · rw [List.concat_eq_append, ← List.cons_append, ← List.append_assoc] at hacts
      obtain ⟨rfl, -⟩ := List.append_inj' hacts rfl
      exact .inl ⟨before, act', rest, rfl, h⟩
  · rintro (⟨before, act', after, rfl, h⟩ | h)
    · exact ⟨before, act', after ++ [act], by simp, h⟩
    · exact ⟨acts, act, [], rfl, h⟩

theorem isClosing_iff (hs : w.scene.Sound) : w.IsClosing a ↔ ∃ m, ∃ x ∈ w.waits m, x.actor = a := by
  constructor
  · rintro ⟨⟨x, m⟩, hx, rfl⟩
    exact ⟨m, x, (mem_waiting_iff hs).mp hx, rfl⟩
  · rintro ⟨m, x, hx, rfl⟩
    exact ⟨(x, m), (mem_waiting_iff hs).mpr hx, rfl⟩

/-- Nothing breaks off where everybody waits on. -/
theorem not_breaksOff (hs : w.scene.Sound)
    (h : ∀ m, ∀ x ∈ w.waits m, x.actor = a → x ∈ (w.next act).waits m) :
    ¬w.BreaksOff act a := by
  rintro ⟨b, x, hx, rfl, hended⟩
  have := h _ x ((mem_waiting_iff hs).mp hx) rfl
  rw [waits_of_ended hended] at this
  cases this

/-! ### Phases -/

/-- How far the close of an actor has got. -/
inductive Phase where
  /-- It has not begun. -/
  | untouched
  /-- It is under way. -/
  | underway
  /-- It is done. -/
  | completed
  /-- It has broken off. -/
  | brokenOff
  deriving DecidableEq

/-- An actor is in a phase. -/
inductive InPhase (w : World) (a : ActorId) : Phase → Prop where
  /-- The actor is open. -/
  | untouched (hopen : (w.actor a).closed = false) (hidle : ¬w.IsClosing a)
    (hholds : (w.actor a).holdsTarget = true) : InPhase w a .untouched
  /-- Somebody waits for its run loop. -/
  | underway (hclosed : (w.actor a).closed = true) (hclosing : w.IsClosing a)
    (hholds : (w.actor a).holdsTarget = true) : InPhase w a .underway
  /-- Nobody waits any more, and the target has been let go. -/
  | completed (hclosed : (w.actor a).closed = true) (hidle : ¬w.IsClosing a)
    (hgone : (w.actor a).holdsTarget = false) : InPhase w a .completed
  /-- Nobody waits any more, and the target has not been let go. -/
  | brokenOff (hclosed : (w.actor a).closed = true) (hidle : ¬w.IsClosing a)
    (hholds : (w.actor a).holdsTarget = true) : InPhase w a .brokenOff

/-- How phases follow each other. -/
inductive Phase.Follows : Phase → Phase → Prop where
  /-- A phase lasts. -/
  | lasts (p : Phase) : Follows p p
  /-- A close begins. -/
  | begins : Follows .untouched .underway
  /-- An operation closes its own actor. -/
  | atOnce : Follows .untouched .completed
  /-- A close is completed. -/
  | completes : Follows .underway .completed
  /-- A close breaks off. -/
  | breaksOff : Follows .underway .brokenOff

theorem Prelude.not_mem {ts : List Turn} (h : w.Prelude act ts) :
    .shuts a ∉ ts ∧ .leaves a ∉ ts := by
  cases h <;> simp

/-- Who is closed after an act. -/
theorem closed_of_shows {ts : List Turn} (h : w.Shows act ts)
    (hshuts : .shuts a ∈ ts → a < w.actors.length) :
    ((w.next act).actor a).closed = true ↔ (w.actor a).closed = true ∨ .shuts a ∈ ts := by
  have hclosed : ((w.next act).actor a).closed = ((w.book.turns ts).post a).closed :=
    congrArg Post.closed (h.post_eq a)
  rw [hclosed, Book.closed_turns (by simpa [book] using hshuts), post_book]
  exact Iff.rfl

/-- What shows of an actor after an act. -/
theorem actor_of_shows {ts : List Turn} (h : w.Shows act ts)
    (hshuts : .shuts a ∈ ts → a < w.actors.length)
    (hleaves : .leaves a ∈ ts → a < w.actors.length) :
    (((w.next act).actor a).closed = true ↔ (w.actor a).closed = true ∨ .shuts a ∈ ts) ∧
      (((w.next act).actor a).holdsTarget = false ↔
        (w.actor a).holdsTarget = false ∨ .leaves a ∈ ts) := by
  have hholds : ((w.next act).actor a).holdsTarget = ((w.book.turns ts).post a).holdsTarget :=
    congrArg Post.holdsTarget (h.post_eq a)
  refine ⟨closed_of_shows h hshuts, ?_⟩
  rw [hholds, Book.holdsTarget_turns (by simpa [book] using hleaves), post_book]
  exact Iff.rfl

/-- An actor whose close does not get further stays in its phase. -/
theorem InPhase.lasts {p : Phase} (h : w.InPhase a p)
    (hclosed : ((w.next act).actor a).closed = (w.actor a).closed)
    (hholds : ((w.next act).actor a).holdsTarget = (w.actor a).holdsTarget)
    (hclosing : (w.next act).IsClosing a ↔ w.IsClosing a) : (w.next act).InPhase a p := by
  cases h with
  | untouched h₁ h₂ h₃ =>
    exact .untouched (hclosed.trans h₁) (mt hclosing.mp h₂) (hholds.trans h₃)
  | underway h₁ h₂ h₃ => exact .underway (hclosed.trans h₁) (hclosing.mpr h₂) (hholds.trans h₃)
  | completed h₁ h₂ h₃ =>
    exact .completed (hclosed.trans h₁) (mt hclosing.mp h₂) (hholds.trans h₃)
  | brokenOff h₁ h₂ h₃ =>
    exact .brokenOff (hclosed.trans h₁) (mt hclosing.mp h₂) (hholds.trans h₃)

theorem not_breaksOff_of_idle (hidle : ¬w.IsClosing a) : ¬w.BreaksOff act a :=
  fun ⟨_, _, hx, ha, _⟩ => hidle ⟨_, hx, ha⟩

/-- An open actor is untouched. -/
theorem InPhase.eq_untouched {p : Phase} (h : w.InPhase a p) (hopen : (w.actor a).closed = false) :
    p = .untouched := by
  cases h with
  | untouched _ _ _ => rfl
  | underway hclosed _ _ | completed hclosed _ _ | brokenOff hclosed _ _ =>
    rw [hopen] at hclosed
    cases hclosed

/-- An actor that is waited for has a close under way. -/
theorem InPhase.eq_underway {p : Phase} (h : w.InPhase a p) (hclosing : w.IsClosing a) :
    p = .underway := by
  cases h with
  | underway _ _ _ => rfl
  | untouched _ hidle _ | completed _ hidle _ | brokenOff _ hidle _ => exact absurd hclosing hidle

/-! ### One act -/

/-- With an act, an actor gets from a phase to one that follows it, and a close that is under way
breaks off exactly if the run loop that waits for its end ends itself. -/
def Passes (w : World) (act : Act) (a : ActorId) (p : Phase) : Prop :=
  ∃ p', (w.next act).InPhase a p' ∧ p.Follows p' ∧
    (w.BreaksOff act a ↔ p = .underway ∧ p' = .brokenOff)

namespace InPhase

variable {p : Phase} {ts us : List Turn}

/-- A phase that lasts, where nothing breaks off. -/
theorem passes (h : w.InPhase a p) (hshows : w.Shows act ts) (hshuts : .shuts a ∉ ts)
    (hleaves : .leaves a ∉ ts) (hclosing : (w.next act).IsClosing a ↔ w.IsClosing a)
    (hbreaks : ¬w.BreaksOff act a) : w.Passes act a p := by
  obtain ⟨hclosed, hholds⟩ := actor_of_shows hshows (fun h => absurd h hshuts)
    fun h => absurd h hleaves
  refine ⟨p, h.lasts ?_ ?_ hclosing, .lasts p, fun h => absurd h hbreaks, ?_⟩
  · exact Bool.eq_iff_iff.mpr (hclosed.trans (or_iff_left hshuts))
  · refine Bool.eq_iff_iff.mpr ?_
    rw [← not_iff_not, Bool.not_eq_true, Bool.not_eq_true, hholds, or_iff_left hleaves]
  · rintro ⟨rfl, hp⟩
    cases hp

/-- Who does not leave keeps the target. -/
theorem keeps (hshows : w.Shows act ts) (ha : a < w.actors.length) (hleaves : .leaves a ∉ ts)
    (hholds : (w.actor a).holdsTarget = true) : ((w.next act).actor a).holdsTarget = true := by
  by_contra hgone
  rw [Bool.not_eq_true, (actor_of_shows hshows (fun _ => ha) fun _ => ha).2,
    or_iff_left hleaves, hholds] at hgone
  cases hgone

/-- Some closes begin, maybe that of the actor. -/
theorem begins (h : w.InPhase a p) (hs : w.scene.Sound) (hshows : w.Shows act (ts ++ us))
    (hts : w.Prelude act ts) (hidle : w.waits m = [])
    (hopens : w.Opens us ((w.next act).waits m))
    (hothers : ∀ m', m' ≠ m → (w.next act).waits m' = w.waits m') : w.Passes act a p := by
  have hs' := sound_next hs act
  -- Who waited goes on waiting.
  have hold : ∀ m' x, x ∈ w.waits m' → x ∈ (w.next act).waits m' := by
    intro m' x hx
    by_cases hm : m' = m
    · rw [hm, hidle] at hx
      cases hx
    · rwa [hothers m' hm]
  have hbreaks : ¬w.BreaksOff act a := not_breaksOff hs fun m' x hx _ => hold m' x hx
  have hleaves : .leaves a ∉ ts ++ us := by
    rw [List.mem_append, not_or]
    refine ⟨hts.not_mem.2, fun hmem => ?_⟩
    rcases hopens.only _ hmem with h | ⟨_, _, h⟩ <;> cases h
  by_cases hnew : ∃ x ∈ (w.next act).waits m, x.actor = a
  · obtain ⟨x, hx, rfl⟩ := hnew
    obtain ⟨hlt, hopen⟩ := hopens.opened x hx
    obtain rfl := h.eq_untouched hopen
    obtain ⟨hclosed, _⟩ := actor_of_shows hshows (fun _ => hlt) fun _ => hlt
    cases h with
    | untouched _ _ hholds =>
      refine ⟨.underway, .underway (hclosed.mpr (.inr ?_)) ?_ (keeps hshows hlt hleaves hholds),
        .begins, fun h => absurd h hbreaks, by simp⟩
      · exact List.mem_append_right _ (hopens.shuts x hx)
      · exact (isClosing_iff hs').mpr ⟨m, x, hx, rfl⟩
  · refine h.passes hshows ?_ hleaves ?_ hbreaks
    · rw [List.mem_append, not_or]
      refine ⟨hts.not_mem.1, fun hmem => ?_⟩
      rcases hopens.only _ hmem with h | ⟨x, hx, h⟩
      · cases h
      · exact hnew ⟨x, hx, (Turn.shuts.inj h).symm⟩
    · rw [isClosing_iff hs, isClosing_iff hs']
      constructor
      · rintro ⟨m', x, hx, hxa⟩
        by_cases hm : m' = m
        · subst hm
          exact absurd ⟨x, hx, hxa⟩ hnew
        · exact ⟨m', x, hothers m' hm ▸ hx, hxa⟩
      · rintro ⟨m', x, hx, hxa⟩
        exact ⟨m', x, hold m' x hx, hxa⟩

/-- An operation closes its own actor, maybe this one. -/
theorem own {c : ActorId} (h : w.InPhase a p) (hs : w.scene.Sound)
    (hshows : w.Shows act (ts ++ [.shuts c, .leaves c])) (hts : w.Prelude act ts)
    (hlt : c < w.actors.length) (hopen : (w.actor c).closed = false)
    (hwaits : ∀ m, (w.next act).waits m = w.waits m) : w.Passes act a p := by
  have hs' := sound_next hs act
  have hbreaks : ¬w.BreaksOff act a := not_breaksOff hs fun m x hx _ => hwaits m ▸ hx
  have hclosing : (w.next act).IsClosing a ↔ w.IsClosing a := by
    simp only [isClosing_iff hs, isClosing_iff hs', hwaits]
  by_cases hc : a = c
  · subst hc
    obtain rfl := h.eq_untouched hopen
    obtain ⟨hclosed, hholds⟩ := actor_of_shows hshows (fun _ => hlt) fun _ => hlt
    cases h with
    | untouched _ hidle _ =>
      exact ⟨.completed, .completed (hclosed.mpr (.inr (by simp))) (mt hclosing.mp hidle)
        (hholds.mpr (.inr (by simp))), .atOnce, fun h => absurd h hbreaks, by simp⟩
  · refine h.passes hshows ?_ ?_ hclosing hbreaks
    · simpa [hts.not_mem.1] using hc
    · simpa [hts.not_mem.2] using hc

/-- The close of the actor is completed. -/
theorem completes {x : Wait} (h : w.InPhase x.actor p) (hs : w.scene.Sound) (htidy : w.Tidy)
    (hc : w.Completion act m x) (hshows : w.Shows act [.leaves x.actor]) :
    w.Passes act x.actor p := by
  obtain ⟨hxclosed, _⟩ := closed_of_waits hs hc.mem
  obtain rfl := h.eq_underway ((isClosing_iff hs).mpr ⟨m, x, hc.mem, rfl⟩)
  have hlt := lt_of_closed hxclosed
  obtain ⟨hclosed, hholds⟩ := actor_of_shows hshows (fun _ => hlt) fun _ => hlt
  refine ⟨.completed, .completed (hclosed.mpr (.inl hxclosed)) (fun hclosing => ?_)
    (hholds.mpr (.inr (by simp))), .completes, ?_, by simp⟩
  · obtain ⟨m', y, hy, hya⟩ := (isClosing_iff (sound_next hs act)).mp hclosing
    obtain ⟨rfl, rfl⟩ := htidy.sole hc.mem ((hc.sublist m').subset hy) hya.symm
    rw [hc.mine] at hy
    simpa using List.of_mem_filter hy
  · rintro ⟨b, y, hy, hya, hb⟩
    obtain ⟨rfl, -⟩ := htidy.sole hc.mem ((mem_waiting_iff hs).mp hy) hya.symm
    exact absurd hb (hc.lives b rfl)

/-- The one who waits for the end of the close has been closed himself, and his run loop has
ended. -/
theorem breaksOff {x y : Wait} (h : w.InPhase y.actor p) (hs : w.scene.Sound) (htidy : w.Tidy)
    (hc : w.Completion act m x) (hshows : w.Shows act [.leaves x.actor])
    (hy : y ∈ w.waits (.runLoop x.actor)) (hne : y.actor ≠ x.actor) : w.Passes act y.actor p := by
  obtain rfl := h.eq_underway ((isClosing_iff hs).mpr ⟨_, y, hy, rfl⟩)
  have hleaves : .leaves y.actor ∉ [Turn.leaves x.actor] := by simpa using hne
  have hlt := lt_of_closed (closed_of_waits hs hy).1
  obtain ⟨hclosed, _⟩ := actor_of_shows hshows (fun _ => hlt) fun _ => hlt
  cases h with
  | underway hyclosed _ hholds =>
    refine ⟨.brokenOff, .brokenOff (hclosed.mpr (.inl hyclosed)) (fun hclosing => ?_)
      (keeps hshows hlt hleaves hholds), .breaksOff, fun _ => ⟨rfl, rfl⟩, fun _ =>
      ⟨x.actor, y, (mem_waiting_iff hs).mpr hy, rfl, hc.ended⟩⟩
    obtain ⟨m', z, hz, hzy⟩ := (isClosing_iff (sound_next hs act)).mp hclosing
    exact hc.ne_runLoop hz (htidy.sole ((hc.sublist m').subset hz) hy hzy).1

/-- The close of another actor is completed. -/
theorem completes_other {x : Wait} (h : w.InPhase a p) (hs : w.scene.Sound) (htidy : w.Tidy)
    (hc : w.Completion act m x) (hshows : w.Shows act [.leaves x.actor]) (hne : a ≠ x.actor) :
    w.Passes act a p := by
  have hs' := sound_next hs act
  have hshuts : .shuts a ∉ [Turn.leaves x.actor] := by simp
  have hleaves : .leaves a ∉ [Turn.leaves x.actor] := by simpa using hne
  by_cases hclosing : w.IsClosing a
  · obtain ⟨m', y, hy, rfl⟩ := (isClosing_iff hs).mp hclosing
    by_cases hrun : m' = .runLoop x.actor
    · subst hrun
      exact h.breaksOff hs htidy hc hshows hy hne
    · have hstays := hc.stays htidy hy hne hrun
      refine h.passes hshows hshuts hleaves ⟨fun _ => hclosing, fun _ =>
        (isClosing_iff hs').mpr ⟨m', y, hstays, rfl⟩⟩ (not_breaksOff hs fun m'' z hz hzy => ?_)
      obtain ⟨rfl, rfl⟩ := htidy.sole hz hy hzy
      exact hstays
  · refine h.passes hshows hshuts hleaves ⟨fun hclosing' => ?_, fun h => absurd h hclosing⟩
      (not_breaksOff_of_idle hclosing)
    obtain ⟨m', y, hy, hya⟩ := (isClosing_iff hs').mp hclosing'
    exact (isClosing_iff hs).mpr ⟨m', y, (hc.sublist m').subset hy, hya⟩

end InPhase

/-- **An act takes an actor from one phase to the next.** -/
theorem phase_next (hs : w.scene.Sound) (htidy : w.Tidy) {p : Phase} (h : w.InPhase a p)
    (act : Act) : w.Passes act a p := by
  have hs' := sound_next hs act
  obtain ⟨ts, hconduct, hshows⟩ := conduct_next hs act
  cases hconduct with
  | quiet hts hwaits =>
    refine h.passes hshows hts.not_mem.1 hts.not_mem.2 ?_
      (not_breaksOff hs fun m x hx _ => hwaits m ▸ hx)
    simp only [isClosing_iff hs, isClosing_iff hs', hwaits]
  | begins hts _ hidle hopens hothers => exact h.begins hs hshows hts hidle hopens hothers
  | own hts _ hlt hopen hwaits => exact h.own hs hshows hts hlt hopen hwaits
  | @completes m x _ _ hx hwaits hothers hended hlives =>
    have hc := Completion.mk hx hwaits hothers hended hlives
    by_cases hxa : a = x.actor
    · subst hxa
      exact h.completes hs htidy hc hshows
    · exact h.completes_other hs htidy hc hshows hxa

/-- **In a run, every actor is in a phase**, and it is the last one exactly if its close has broken
off. -/
theorem phase_run (acts : List Act) (a : ActorId) :
    ∃ p, (run acts).InPhase a p ∧ (p = .brokenOff ↔ BrokenOff acts a) := by
  induction acts using List.reverseRecOn with
  | nil =>
    refine ⟨.untouched, .untouched rfl ?_ rfl, by simp, ?_⟩
    · rintro ⟨x, hx, -⟩
      cases hx
    · rintro ⟨before, act, after, hacts, -⟩
      simp at hacts
  | append_singleton acts act ih =>
    obtain ⟨p, hp, hbroken⟩ := ih
    obtain ⟨p', hp', hfollows, hbreaks⟩ := phase_next (sound_run acts) (tidy_run acts) hp act
    refine ⟨p', by rwa [run_concat], ?_⟩
    rw [brokenOff_concat, ← hbroken, hbreaks]
    cases hfollows <;> simp

/-- An actor that has not been closed holds its target. -/
theorem isOpen_run (acts : List Act) (hopen : ((run acts).actor a).closed = false) :
    ((run acts).actor a).isOpen = true := by
  obtain ⟨p, hp, -⟩ := phase_run acts a
  obtain rfl := hp.eq_untouched hopen
  cases hp with
  | untouched _ _ hholds => rw [Actor.isOpen, hopen, hholds]; rfl

end World

end Troupe
