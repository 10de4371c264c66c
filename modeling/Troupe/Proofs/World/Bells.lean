import Troupe.Proofs.World.Quiet

/-!
# Bells

A run loop that finds its mailbox empty does not look again until it is woken. Who puts an envelope
into the mailbox lets go of the queue before ringing the bell, so a ring may come late: the run loop
may have taken the envelope already, or it may have found nothing just before the envelope came and
be on its way to the bell. A bell that rings while nobody waits at it keeps one ring in mind, and
not more than one, however many envelopes have come.

This module describes worlds whose run loops wait at bells. An act does to the world what it always
does, and the ring for each envelope that an actor has accepted with it is still to come. Only a run
loop between two envelopes that is not to stop gets further by itself: it looks, it turns to the
bell, it waits. The worlds with bells are the worlds of runs, and each run is one in which every
ring comes at once.

What carries the argument is what must be true of a bell while something waits in the mailbox: the
run loop is to look, or a ring is still to come, or the run loop is on its way to a bell that has
one in mind.

## Main definitions

* `Bell`, `Bells`, `Bells.Move`, `Bells.run` — worlds with bells
* `Bell.Covers`, `Bells.Heeded` — no bell is silent while something waits
* `Bells.Prompt` — no ring is still to come
* `Bells.Quiet` — nobody can get any further

## Main results

* `Bells.exists_run`, `Bells.exists_moves` — worlds with bells and runs lead to the same worlds
* `Bells.Heeded.next`, `Bells.heeded_run` — the invariant is kept
* `Bells.enters_of_heeded` — who is between two envelopes gets to what waits
* `Bells.isQuiet_of_quiet`, `Bells.queued_of_quiet` — no wakeup is lost
-/

namespace Troupe

/-! ### One bell -/

/-- What a run loop between two envelopes is about to do. -/
inductive Ear where
  /-- It looks into its mailbox. -/
  | looks
  /-- It has found nothing there, and turns to its bell. -/
  | turns
  /-- It waits at its bell. -/
  | waits

/-- The bell of a mailbox, and who is to hear it. -/
structure Bell where
  /-- What the run loop does next, once it is between two envelopes. -/
  ear : Ear := .looks
  /-- Whether the bell has a ring in mind that nobody has heard. -/
  rung : Bool := false
  /-- The number of rings that are still to come. -/
  due : Nat := 0

namespace Bell

/-- The bell rings, if that is still to come. Who waits hears it; otherwise it is kept in mind. -/
def ring (b : Bell) : Bell :=
  if b.due = 0 then b
  else match b.ear with
    | .waits => { b with ear := .looks, due := b.due - 1 }
    | .looks | .turns => { b with rung := true, due := b.due - 1 }

/-- The run loop is at its bell: it looks once more if the bell has a ring in mind, and waits
otherwise. -/
def turn (b : Bell) : Bell :=
  if b.rung then { b with ear := .looks, rung := false } else { b with ear := .waits }

/-- Further rings are still to come. -/
def owe (n : Nat) (b : Bell) : Bell := { b with due := b.due + n }

/-- A bell is not silent while something waits in the mailbox. -/
def Covers (b : Bell) (waiting : List HandleId) : Prop :=
  waiting ≠ [] → b.ear = .looks ∨ 0 < b.due ∨ b.ear = .turns ∧ b.rung = true

variable {b : Bell} {waiting later : List HandleId}

theorem Covers.ring (h : b.Covers waiting) : b.ring.Covers waiting := by
  intro hne
  rw [Bell.ring]
  split
  · exact h hne
  · cases hear : b.ear with
    | waits => exact .inl rfl
    | looks => exact .inl rfl
    | turns => exact .inr (.inr ⟨rfl, rfl⟩)

/-- One ring is enough for one envelope. -/
theorem due_ring (h : b.due ≤ 1) : b.ring.due = 0 := by
  rw [Bell.ring]
  split
  · assumption
  · cases b.ear <;> exact Nat.sub_eq_zero_of_le h

theorem Covers.turn (h : b.Covers waiting) (hear : b.ear = .turns) : b.turn.Covers waiting := by
  intro hne
  rw [Bell.turn]
  split
  · exact .inl rfl
  · rename_i hrung
    rcases h hne with hlooks | hdue | ⟨-, hkept⟩
    · rw [hear] at hlooks
      cases hlooks
    · exact .inr (.inl hdue)
    · exact absurd hkept hrung

/-- With further rings to come, what waited before may still wait. -/
theorem Covers.owe (h : b.Covers waiting) (n : Nat) (hn : later ≠ [] → waiting ≠ [] ∨ 0 < n) :
    (b.owe n).Covers later := by
  intro hne
  rcases hn hne with hold | hpos
  · exact (h hold).imp_right (.imp_left fun hdue => Nat.lt_of_lt_of_le hdue (Nat.le_add_right ..))
  · exact .inr (.inl (Nat.lt_of_lt_of_le hpos (Nat.le_add_left ..)))

end Bell

/-! ### Worlds with bells -/

/-- A world, and the bells of its mailboxes. -/
structure Bells where
  /-- The world. -/
  world : World := {}
  /-- The bell of each actor. -/
  bell : ActorId → Bell := fun _ => {}

/-- What happens to a world with bells. -/
inductive Bells.Move where
  /-- An act, without the rings that belong to it. -/
  | act (act : World.Act)
  /-- The bell of an actor rings. -/
  | ring (actor : ActorId)

namespace World

/-- Whether a run loop listens: it is between two envelopes, and not to stop. -/
def listens (w : World) (a : ActorId) : Bool :=
  (w.actor a).loop matches .idle && !(w.actor a).stopping

/-- The actor whose run loop listens with an act. -/
def listener? (w : World) : Act → Option ActorId
  | .move (.runLoop a) => if w.listens a then some a else none
  | _ => none

variable {w : World} {a : ActorId} {act : Act}

theorem listens_iff :
    w.listens a = true ↔ (w.actor a).loop = .idle ∧ (w.actor a).stopping = false := by
  rw [listens]
  cases (w.actor a).loop <;> simp

theorem listener?_eq_some (h : w.listener? act = some a) :
    act = .move (.runLoop a) ∧ w.listens a = true := by
  unfold listener? at h
  split at h
  · split at h
    · rename_i hlistens
      cases h
      exact ⟨rfl, hlistens⟩
    · cases h
  · cases h

/-- A run loop between two envelopes sends nothing. -/
theorem accepts_of_listens (h : w.listens a = true) (b : ActorId) :
    w.accepts b (.move (.runLoop a)) = [] :=
  accepts_of_quiet (target?_of_course?_eq_none (by rw [(listens_iff.mp h).1]; rfl))

/-- A run loop that finds nothing gets no further. -/
theorem step_of_listens (h : w.listens a = true) (hnone : w.queued a = []) :
    w.step (.runLoop a) = none := by
  obtain ⟨hidle, hstop⟩ := listens_iff.mp h
  have hqueue : (w.actor a).mailbox.queue = [] := List.map_eq_nil_iff.mp hnone
  simp [step, stepLoop, hidle, hstop, enterNext, Mailbox.next, hqueue]

end World

namespace Bells

open World (Act)

variable {s : Bells} {a : ActorId}

/-- A change to one bell. -/
def onBell (a : ActorId) (f : Bell → Bell) (s : Bells) : Bells :=
  { s with bell := fun b => if b = a then f (s.bell b) else s.bell b }

/-- An act. A ring is to come for each envelope that an actor has accepted with it. -/
def act (act : Act) (s : Bells) : Bells where
  world := s.world.next act
  bell a := (s.bell a).owe (s.world.accepts a act).length

/-- A run loop between two envelopes looks into its mailbox, turns to its bell, or waits there. -/
def listen (a : ActorId) (s : Bells) : Bells :=
  match (s.bell a).ear with
  | .looks =>
    if s.world.queued a = [] then s.onBell a fun b => { b with ear := .turns }
    else s.act (.move (.runLoop a))
  | .turns => s.onBell a Bell.turn
  | .waits => s

/-- The next state. -/
def next (s : Bells) : Move → Bells
  | .act act =>
    match s.world.listener? act with
    | some a => s.listen a
    | none => s.act act
  | .ring a => s.onBell a Bell.ring

/-- The state at the end of a run. -/
def run (s : Bells) (moves : List Move) : Bells := moves.foldl next s

theorem run_nil : s.run [] = s := rfl

theorem run_cons (m : Move) (moves : List Move) : s.run (m :: moves) = (s.next m).run moves := rfl

theorem run_append (moves more : List Move) : s.run (moves ++ more) = (s.run moves).run more :=
  List.foldl_append ..

theorem bell_onBell (b : ActorId) (f : Bell → Bell) :
    (s.onBell a f).bell b = if b = a then f (s.bell b) else s.bell b := rfl

/-! ### The worlds of runs -/

/-- A move is an act of the world, or it leaves the world as it is. -/
theorem world_next (s : Bells) (m : Move) :
    (s.next m).world = s.world ∨ ∃ act, (s.next m).world = s.world.next act := by
  cases m with
  | ring a => exact .inl rfl
  | act act =>
    rw [next]
    split
    · rename_i a _
      rw [listen]
      split
      · split
        · exact .inl rfl
        · exact .inr ⟨.move (.runLoop a), rfl⟩
      · exact .inl rfl
      · exact .inl rfl
    · exact .inr ⟨act, rfl⟩

/-- **A world with bells** is the world of a run. -/
theorem exists_run (moves : List Move) : ∃ acts, (run {} moves).world = World.run acts := by
  induction moves using List.reverseRecOn with
  | nil => exact ⟨[], rfl⟩
  | append_singleton moves m ih =>
    obtain ⟨acts, hacts⟩ := ih
    rw [run_append]
    rcases world_next (run {} moves) m with hsame | ⟨act, hnext⟩
    · exact ⟨acts, hsame.trans hacts⟩
    · exact ⟨acts ++ [act], by rw [World.run_concat, ← hacts]; exact hnext⟩

/-! ### No bell is silent while something waits -/

/-- No bell is silent while something waits in its mailbox. -/
def Heeded (s : Bells) : Prop := ∀ a, (s.bell a).Covers (s.world.queued a)

theorem Heeded.onBell (h : s.Heeded) {f : Bell → Bell}
    (hf : (f (s.bell a)).Covers (s.world.queued a)) : (s.onBell a f).Heeded := by
  intro b
  rw [bell_onBell]
  split
  · rename_i hb
    subst hb
    exact hf
  · exact h b

/-- What is accepted has its ring to come. -/
theorem Heeded.act (h : s.Heeded) (hs : s.world.scene.Sound) (act : Act) : (s.act act).Heeded := by
  intro a
  refine (h a).owe _ fun hne => ?_
  cases World.shift_next hs a act with
  | joins _ haccepts _ _ =>
    rw [haccepts]
    exact .inr Nat.one_pos
  | enters _ _ _ _ hqueued =>
    rw [hqueued]
    exact .inl (List.cons_ne_nil _ _)
  | keeps _ _ hsub _ =>
    refine .inl fun hnil => hne ?_
    rw [hnil] at hsub
    exact List.sublist_nil.mp hsub

theorem Heeded.listen (h : s.Heeded) (hs : s.world.scene.Sound) (a : ActorId) :
    (s.listen a).Heeded := by
  rw [Bells.listen]
  split
  · split
    · rename_i hnil
      exact h.onBell fun hne => absurd hnil hne
    · exact h.act hs _
  · rename_i hear
    exact h.onBell ((h a).turn hear)
  · exact h

/-- **Every move keeps the invariant.** -/
theorem Heeded.next (h : s.Heeded) (hs : s.world.scene.Sound) (m : Move) : (s.next m).Heeded := by
  cases m with
  | act act =>
    rw [Bells.next]
    split
    · exact h.listen hs _
    · exact h.act hs act
  | ring a => exact h.onBell (h a).ring

theorem sound_run (moves : List Move) : (run {} moves).world.scene.Sound := by
  obtain ⟨acts, hacts⟩ := exists_run moves
  rw [hacts]
  exact World.sound_run acts

theorem heeded_run (moves : List Move) : (run {} moves).Heeded := by
  induction moves using List.reverseRecOn with
  | nil => exact fun a hne => absurd rfl hne
  | append_singleton moves m ih =>
    rw [run_append]
    exact ih.next (sound_run moves) m

/-! ### Quiet worlds -/

/-- No ring is still to come. -/
def Prompt (s : Bells) : Prop := ∀ a, (s.bell a).due = 0

/-- Nobody can get any further. -/
structure Quiet (s : Bells) : Prop where
  /-- Who does not listen cannot move. -/
  stuck : ∀ m ∈ s.world.runners ++ s.world.workers, s.world.listener? (.move m) = none →
    s.world.step m = none
  /-- Who listens waits at the bell. -/
  waits : ∀ a, s.world.listens a = true → (s.bell a).ear = .waits
  /-- No bell is to ring. -/
  prompt : s.Prompt

/-- Where somebody waits at a bell and no ring is to come, nothing waits in the mailbox. -/
theorem Heeded.queued_eq_nil (h : s.Heeded) (hear : (s.bell a).ear = .waits)
    (hdue : (s.bell a).due = 0) : s.world.queued a = [] := by
  by_contra hne
  rcases h a hne with hlooks | hpos | ⟨hturns, -⟩
  · rw [hear] at hlooks
    cases hlooks
  · exact absurd hdue (Nat.ne_of_gt hpos)
  · rw [hear] at hturns
    cases hturns

/-- **No wakeup is lost.** A world with bells in which nobody gets any further is quiet, so that
whoever waits at a bell would find nothing if he looked. -/
theorem isQuiet_of_quiet (moves : List Move) (h : (run {} moves).Quiet) :
    (run {} moves).world.isQuiet = true := by
  refine List.all_eq_true.mpr fun m hm => Option.isNone_iff_eq_none.mpr ?_
  cases hlistener : (run {} moves).world.listener? (.move m) with
  | none => exact h.stuck m hm hlistener
  | some a =>
    obtain ⟨hmove, hlistens⟩ := World.listener?_eq_some hlistener
    cases hmove
    exact World.step_of_listens hlistens
      ((heeded_run moves).queued_eq_nil (h.waits a hlistens) (h.prompt a))

/-- So where nobody gets any further, only an envelope that a run loop is inside of keeps others
waiting. -/
theorem queued_of_quiet (moves : List Move) (h : (run {} moves).Quiet)
    (hrun : (run {} moves).world.running? a = none) : (run {} moves).world.queued a = [] := by
  obtain ⟨acts, hacts⟩ := exists_run moves
  have hquiet := World.quiet_of_isQuiet (isQuiet_of_quiet moves h)
  have hhalts := World.halts_run acts
  rw [← hacts] at hhalts
  rw [World.queued, hquiet.queue_eq_nil hhalts hrun, List.map_nil]

/-! ### Rings that come at once -/

theorem Prompt.act (h : s.Prompt) {act : Act} (hnone : ∀ a, s.world.accepts a act = []) :
    (s.act act).Prompt := by
  intro a
  show (s.bell a).due + _ = 0
  rw [h a, hnone a]
  rfl

/-- **Who is between two envelopes gets to what waits**, in at most two moves of his own, once no
ring is still to come. -/
theorem enters_of_heeded (h : s.Heeded) (hprompt : s.Prompt) (hlistens : s.world.listens a = true)
    (hne : s.world.queued a ≠ []) :
    ∃ n ≤ 2, (s.run (.replicate n (.act (.move (.runLoop a))))).world =
        s.world.next (.move (.runLoop a)) ∧
      (s.run (.replicate n (.act (.move (.runLoop a))))).Prompt := by
  have hlistener : s.world.listener? (.move (.runLoop a)) = some a := if_pos hlistens
  have hnone := World.accepts_of_listens hlistens
  rcases h a hne with hlooks | hdue | ⟨hturns, hrung⟩
  · have hnext : s.next (.act (.move (.runLoop a))) = s.act (.move (.runLoop a)) := by
      simp only [next, hlistener, listen, hlooks, if_neg hne]
    refine ⟨1, by decide, ?_⟩
    rw [List.replicate_one, run_cons, run_nil, hnext]
    exact ⟨rfl, hprompt.act hnone⟩
  · exact absurd (hprompt a) (Nat.ne_of_gt hdue)
  · -- It turns to a bell that has a ring in mind, and looks once more.
    have hturn : s.next (.act (.move (.runLoop a))) = s.onBell a Bell.turn := by
      simp only [next, hlistener, listen, hturns]
    have hlooks : ((s.onBell a Bell.turn).bell a).ear = .looks := by
      simp [bell_onBell, Bell.turn, hrung]
    have hkept : (s.onBell a Bell.turn).Prompt := by
      intro b
      rw [bell_onBell]
      split
      · rw [Bell.turn]
        split <;> exact hprompt b
      · exact hprompt b
    have hnext : (s.onBell a Bell.turn).next (.act (.move (.runLoop a))) =
        (s.onBell a Bell.turn).act (.move (.runLoop a)) := by
      have hsame : (s.onBell a Bell.turn).world.listener? (.move (.runLoop a)) = some a :=
        hlistener
      have hwaits : (s.onBell a Bell.turn).world.queued a ≠ [] := hne
      simp only [next, hsame, listen, hlooks, if_neg hwaits]
    refine ⟨2, Nat.le_refl _, ?_⟩
    rw [List.replicate_succ, List.replicate_one, run_cons, run_cons, run_nil, hturn, hnext]
    exact ⟨rfl, hkept.act hnone⟩

/-- **An act** of the world is the act without its rings, followed by the rings. -/
theorem next_promptly (h : s.Heeded) (hprompt : s.Prompt) (act : Act) :
    ∃ moves, (s.run moves).world = s.world.next act ∧ (s.run moves).Prompt := by
  cases hlistener : s.world.listener? act with
  | some a =>
    obtain ⟨rfl, hlistens⟩ := World.listener?_eq_some hlistener
    by_cases hnil : s.world.queued a = []
    · exact ⟨[], (World.next_of_stuck (World.step_of_listens hlistens hnil)).symm, hprompt⟩
    · obtain ⟨n, -, hn⟩ := enters_of_heeded h hprompt hlistens hnil
      exact ⟨_, hn⟩
  | none =>
    have hact : s.next (.act act) = s.act act := by simp only [next, hlistener]
    have hdue : ∀ a, ((s.act act).bell a).due = (s.world.accepts a act).length := fun a =>
      (congrArg (· + _) (hprompt a)).trans (Nat.zero_add _)
    cases hsending : s.world.sending act with
    | none =>
      refine ⟨[.act act], ?_⟩
      rw [run_cons, run_nil, hact]
      exact ⟨rfl, fun a => by simp [hdue, World.accepts, hsending]⟩
    | some x =>
      refine ⟨[.act act, .ring x.actor], ?_⟩
      rw [run_cons, run_cons, run_nil, hact]
      refine ⟨rfl, fun a => ?_⟩
      show (((s.act act).onBell x.actor Bell.ring).bell a).due = 0
      rw [bell_onBell]
      split
      · -- At most one envelope has come, so one ring is enough.
        refine Bell.due_ring ((hdue a).trans_le ?_)
        simpa [World.accepts, hsending] using List.length_filter_le (·.joins a) [x]
      · rename_i hne
        simp [hdue, World.accepts, hsending, Sending.joins, Ne.symm hne]

/-- **Each run** is one in which every ring comes at once. -/
theorem exists_moves (acts : List Act) :
    ∃ moves, (run {} moves).world = World.run acts ∧ (run {} moves).Prompt := by
  induction acts using List.reverseRecOn with
  | nil => exact ⟨[], rfl, fun _ => rfl⟩
  | append_singleton acts act ih =>
    obtain ⟨moves, hworld, hprompt⟩ := ih
    obtain ⟨more, hmore, hstill⟩ := next_promptly (heeded_run moves) hprompt act
    refine ⟨moves ++ more, ?_, ?_⟩
    · rw [run_append, hmore, hworld, World.run_concat]
    · rw [run_append]
      exact hstill

/-- The operation comes when the run loop has found nothing and does not wait yet. The ring is kept
in mind, so the run loop looks once more. -/
example :
    (run {} [.act (.call (.createActor "d" "logger" "log" {})), .act (.move (.runLoop 0)),
      .act (.move (.runLoop 0)),
      .act (.call (.send (.operation .ordered "d" [] .value (.watched "x")))), .ring 0,
      .act (.move (.runLoop 0)), .act (.move (.runLoop 0))]).world.running? 0 = some 0 :=
  rfl

end Bells

end Troupe
