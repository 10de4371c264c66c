import Troupe.Proofs.World.LettingGo
import Troupe.Proofs.World.StaleNames

/-!
# Who keeps a name

A name in a system stays with the actor that it was given to until the name is given again or
removed, the system is terminated, the close of this actor is completed, or nobody holds the system
any more. In particular nothing that happens to other actors takes it away, whichever names they
have had. A removal that finds somebody uses the name up, so that between two registrations at most
one removal does.

Whoever loses a name to somebody else loses nothing but the name, as long as somebody else holds the
actor. If the registry was the last to hold it, it is let go of, as it would be by a client: its run
loop is told to stop, and begins with nothing more that waits.

## Main definitions

* `World.Departs` — an act completes the close of an actor
* `World.Unseats` — the ways in which an act takes a name from an actor
* `World.PassesOver` — what a registration leaves alone
* `World.gives`, `World.frees`, `World.tally` — registrations and removals, and how many there are

## Main results

* `World.known?_next`, `World.known?_run` — who keeps a name
* `World.passesOver` — what a registration leaves alone
* `World.seats_next` — what an act does to the balance of registrations and removals
* `World.mappings_hold` — all of it
* `World.discarded_of_replaced` — losing a name can be the end of an actor
-/

namespace Troupe

namespace Book

variable {b : Book} {s : SystemId} {key : String}

theorem known?_turns {e : Entry} {ts : List Turn} (h : b.known? s key = some e)
    (hts : ∀ t ∈ ts, ¬Unseats s key e.actor t) : (b.turns ts).known? s key = some e := by
  induction ts generalizing b with
  | nil => exact h
  | cons t ts ih =>
    exact ih (known?_turn h (hts t List.mem_cons_self)) fun u hu =>
      hts u (List.mem_cons_of_mem _ hu)

theorem known?_turns_eq_none {ts : List Turn} (h : b.known? s key = none)
    (hts : ∀ a invocable, .lists s key a invocable ∉ ts) : (b.turns ts).known? s key = none := by
  induction ts generalizing b with
  | nil => exact h
  | cons t ts ih =>
    refine ih (known?_turn_eq_none h fun a invocable heq => ?_) fun a invocable hmem =>
      hts a invocable (List.mem_cons_of_mem _ hmem)
    exact hts a invocable (heq ▸ List.mem_cons_self)

end Book

namespace World

variable {w w' : World} {act : Act} {m : Mover} {s : SystemId} {key : String} {a b : ActorId}
variable {ts : List Book.Turn}

open Book (Turn)

/-! ### What an act shows -/

/-- An act completes the close of an actor. -/
structure Departs (w : World) (act : Act) (a : ActorId) : Prop where
  /-- The actor is closed. -/
  closed : ((w.next act).actor a).closed = true
  /-- It held its target. -/
  held : (w.actor a).holdsTarget = true
  /-- It does not hold it any more. -/
  letsGo : ((w.next act).actor a).holdsTarget = false

theorem Conduct.departs (hs : w.scene.Sound) (hphase : ∀ a, ∃ p, w.InPhase a p)
    (h : w.Conduct act ts) (hshows : w.Shows act ts) (hmem : .leaves a ∈ ts) :
    w.Departs act a := by
  -- The actor is there and holds its target, and it is closed, before the act or by it.
  have hbefore : a < w.actors.length ∧ ((w.actor a).closed = true ∨ .shuts a ∈ ts) ∧
      (w.actor a).holdsTarget = true := by
    cases h with
    | quiet hts _ => exact absurd hmem hts.not_mem.2
    | begins hts _ _ hopens _ =>
      rcases List.mem_append.mp hmem with hmem | hmem
      · exact absurd hmem hts.not_mem.2
      · rcases hopens.only _ hmem with heq | ⟨_, _, heq⟩ <;> cases heq
    | own hts _ ha hopen _ =>
      rcases List.mem_append.mp hmem with hmem | hmem
      · exact absurd hmem hts.not_mem.2
      · obtain rfl : a = _ := by simpa using hmem
        exact ⟨ha, .inr (by simp), holds_of_phases hphase (.inl hopen)⟩
    | @completes m x _ _ hx _ _ _ _ =>
      obtain rfl : a = x.actor := by simpa using hmem
      have hclosed := (closed_of_waits hs hx).1
      exact ⟨lt_of_closed hclosed, .inl hclosed,
        holds_of_phases hphase (.inr ((isClosing_iff hs).mpr ⟨m, x, hx, rfl⟩))⟩
  obtain ⟨hlt, hclosed, hheld⟩ := hbefore
  obtain ⟨hcloses, hleaves⟩ := actor_of_shows hshows (fun _ => hlt) fun _ => hlt
  exact ⟨hcloses.mpr hclosed, hheld, hleaves.mpr (.inr hmem)⟩

/-! ### Keeping a name -/

/-- What a system knows under a name. -/
def known? (w : World) (s : SystemId) (key : String) : Option Entry :=
  (w.system s).registry.find? key

theorem known?_book (w : World) (s : SystemId) (key : String) :
    w.book.known? s key = w.known? s key := by
  rw [Book.known?, house_book]
  rfl

/-- The ways in which an act takes a name from an actor. -/
inductive Unseats (w : World) (act : Act) (s : SystemId) (key : String) (a : ActorId) : Prop where
  /-- The name is given to somebody. -/
  | given {c : ActorId} (hr : w.registers? act = some (s, key, c)) : Unseats w act s key a
  /-- The name is removed. -/
  | removed (hm : w.removes? act = some (s, key)) : Unseats w act s key a
  /-- The termination of the system begins. -/
  | terminated (ht : w.terminates? act = some s) : Unseats w act s key a
  /-- The close of the actor is completed. -/
  | closed (hc : w.Departs act a) : Unseats w act s key a
  /-- Nobody holds the system any more. -/
  | letGo (hheld : ((w.next act).system s).held = false) : Unseats w act s key a

theorem Conduct.unseats (hs : w.scene.Sound) (hphase : ∀ a, ∃ p, w.InPhase a p)
    (h : w.Conduct act ts) (hshows : w.Shows act ts) {t : Turn} (hmem : t ∈ ts)
    (ht : Book.Unseats s key a t) : w.Unseats act s key a := by
  cases ht with
  | lists c invocable => exact .given (h.registers?_of_lists hmem)
  | leaves => exact .closed (h.departs hs hphase hshows hmem)
  | strikes =>
    obtain ⟨us, hus, hmem⟩ := h.mem_prelude hmem (by simp)
    cases hus with
    | strikes _ hm _ =>
      obtain ⟨rfl, rfl⟩ : s = _ ∧ key = _ := by simpa using hmem
      exact .removed hm
    | _ => simp at hmem
  | wipes =>
    obtain ⟨us, hus, hmem⟩ := h.mem_prelude hmem (by simp)
    cases hus with
    | wipes _ _ ht =>
      obtain rfl : s = _ := by simpa using hmem
      exact .terminated ht
    | _ => simp at hmem
  | forgets _ =>
    obtain ⟨us, hus, hmem⟩ := h.mem_prelude hmem (by simp)
    cases hus <;> simp at hmem

/-- **Who has a name keeps it**, unless the act takes it away in one of these ways. -/
theorem known?_next (hs : w.scene.Sound) (hphase : ∀ a, ∃ p, w.InPhase a p) {e : Entry}
    (h : w.known? s key = some e) (act : Act) :
    (w.next act).known? s key = some e ∨ w.Unseats act s key e.actor := by
  obtain ⟨ts, hconduct, S, hS, hbook⟩ := conduct_next hs act
  by_cases hfree : ∃ t ∈ ts, Book.Unseats s key e.actor t
  · obtain ⟨t, hmem, ht⟩ := hfree
    exact .inr (hconduct.unseats hs hphase ⟨S, hS, hbook⟩ hmem ht)
  · have hkept : (w.book.turns ts).known? s key = some e :=
      Book.known?_turns ((known?_book ..).trans h) fun t hmem ht => hfree ⟨t, hmem, ht⟩
    cases hSs : S s with
    | false =>
      refine .inl ?_
      rw [← known?_book, hbook]
      refine Book.known?_turn hkept fun hun => ?_
      cases hun with
      | forgets hS => simp [hSs] at hS
    | true =>
      -- The system is there, so it is known not to be held.
      have hlt : s < (w.book.turns ts).houses.length := by
        by_contra hge
        rw [Book.known?_of_le (Nat.le_of_not_lt hge)] at hkept
        cases hkept
      have hheld : (w.next act).book.isLive s = false := by
        rw [hbook, Book.isLive_forgets, hSs]
        simp
      rw [Book.isLive_eq (by rw [hbook]; exact Nat.lt_of_lt_of_le hlt (Book.length_houses_turn _)),
        house_book] at hheld
      exact .inr (.letGo hheld)

/-- In a run, whoever has a name has it until an act takes it away. -/
theorem known?_run (before later : List Act) {e : Entry} (h : (run before).known? s key = some e) :
    (run (before ++ later)).known? s key = some e ∨
      ∃ l₁ act l₂, later = l₁ ++ act :: l₂ ∧ (run (before ++ l₁)).known? s key = some e ∧
        (run (before ++ l₁)).Unseats act s key e.actor := by
  induction later using List.reverseRecOn with
  | nil => exact .inl ((List.append_nil before).symm ▸ h)
  | append_singleton later act ih =>
    rcases ih with hkept | ⟨l₁, act', l₂, rfl, hkept, hun⟩
    · rw [← List.append_assoc, run_concat]
      exact (known?_next (sound_run _) (fun a => (phase_run _ a).imp fun _ h => h.1) hkept
        act).imp_right fun hun => ⟨later, act, [], rfl, hkept, hun⟩
    · exact .inr ⟨l₁, act', l₂ ++ [act], by simp, hkept, hun⟩

/-! ### Losing a name to somebody else -/

/-- An actor gets a name, and everything else is left alone: what handles say, jobs, what is in
progress past the mailboxes, and the other actors. Those that nobody holds any more are told to
stop, and the parent of a new actor gets to know it. -/
structure PassesOver (w w' : World) (a : ActorId) : Prop where
  /-- No handle is touched. -/
  channels : w'.channels = w.channels
  /-- No pool is touched. -/
  pools : w'.pools = w.pools
  /-- No task is touched. -/
  tasks : w'.tasks = w.tasks
  /-- The other actors stay as they are. -/
  others : ∀ b, b ≠ a → b < w.actors.length → w'.actor b = { w.actor b with
    children := (w'.actor b).children, stopping := (w'.actor b).stopping }
  /-- Nobody that is held is told to stop. -/
  unstopped : ∀ b, b ≠ a → b < w.actors.length → w'.holdsActor b = true →
    (w'.actor b).stopping = (w.actor b).stopping

/-- The same, before anything is let go of. -/
structure Enrolls (w w' : World) (a : ActorId) : Prop where
  /-- No handle is touched. -/
  channels : w'.channels = w.channels
  /-- No pool is touched. -/
  pools : w'.pools = w.pools
  /-- No task is touched. -/
  tasks : w'.tasks = w.tasks
  /-- The other actors stay as they are. -/
  others : ∀ b, b ≠ a → b < w.actors.length →
    w'.actor b = { w.actor b with children := (w'.actor b).children }

/-- Who is held is not told to stop. -/
theorem stopping_release (h : w.release.holdsActor a = true) :
    (w.release.actor a).stopping = (w.actor a).stopping := by
  have hheld : w.releaseSystems.holdsActor a = true := h
  have hsame : w.releaseSystems.actor a = w.actor a := rfl
  rw [← hsame, release, releaseActors, actor, actor, List.getElem?_mapIdx]
  cases w.releaseSystems.actors[a]? with
  | none => rfl
  | some actor => simp [hheld]

theorem Enrolls.release (h : w.Enrolls w' a) : w.PassesOver w'.release a where
  channels := h.channels
  pools := h.pools
  tasks := h.tasks
  others b hb hlt := by
    rw [actor_release, h.others b hb hlt]
  unstopped b hb hlt hheld := by
    rw [stopping_release hheld, h.others b hb hlt]

/-- Nothing has to change. -/
theorem Enrolls.same (hchannels : w'.channels = w.channels) (hpools : w'.pools = w.pools)
    (htasks : w'.tasks = w.tasks)
    (hothers : ∀ b, b ≠ a → b < w.actors.length → w'.actor b = w.actor b) : w.Enrolls w' a :=
  ⟨hchannels, hpools, htasks, fun b hb hlt => by rw [hothers b hb hlt]⟩

theorem enrolls_register {invocable : Bool} (h : w.register s key a invocable = (.ok (), w')) :
    w.Enrolls w' a := by
  obtain ⟨-, _, rfl⟩ := register_eq_ok h
  exact .same rfl rfl rfl fun b hb _ => actor_onActor_ne hb _ w

theorem enrolls_createMember {name kind : String} {invocable : Bool}
    (h : w.createMember s name kind invocable = (.ok a, w')) :
    a = w.actors.length ∧ w.Enrolls w' a := by
  obtain ⟨w₁, hcreate, hregister⟩ := createMember_eq_ok h
  have henrolls := enrolls_register hregister
  obtain ⟨-, rfl, _, -, rfl⟩ := createActor_eq_ok hcreate
  refine ⟨rfl, henrolls.channels, henrolls.pools, henrolls.tasks, fun b hb hlt => ?_⟩
  rw [henrolls.others b hb (by simpa [report] using Nat.lt_succ_of_lt hlt)]
  simp [actor, report, List.getElem?_append_left hlt]

/-- Whoever gets to know a child does nothing else. -/
theorem actor_adopt (parent b : ActorId) (name : String) (w : World) :
    (w.onActor parent (·.adopt name)).actor b = { w.actor b with
      children := ((w.onActor parent (·.adopt name)).actor b).children } := by
  rw [actor, actor, onActor, List.getElem?_modify]
  cases w.actors[b]? with
  | none => rfl
  | some actor => by_cases hb : parent = b <;> simp [hb, Actor.adopt]

theorem enrolls_createChild {parent : ActorId} {name kind : String}
    (h : w.createChild parent name kind = (.ok a, w')) :
    a = w.actors.length ∧ w.Enrolls w' a := by
  obtain ⟨s, w₁, _, hcreate, rfl⟩ := createChild_eq_ok h
  obtain ⟨hid, henrolls⟩ := enrolls_createMember hcreate
  refine ⟨hid, henrolls.channels, henrolls.pools, henrolls.tasks, fun b hb hlt => ?_⟩
  rw [actor_adopt, actor_onActor_ne hb, henrolls.others b hb hlt]

/-- A client that keeps what is created touches nothing of this. -/
theorem Enrolls.bindMade {name : String} (h : w.Enrolls w' a) :
    w.Enrolls (w'.bindMade name a) a :=
  ⟨h.channels, h.pools, h.tasks, h.others⟩

theorem eq_of_memberName {name : String} {k : SystemId}
    (h : w.memberName k name = some (s, key, a)) : a = w.actors.length := by
  rw [memberName] at h
  split at h <;> cases h
  rfl

/-- A call that gives a name, before anything is let go of. -/
theorem enrolls_answer {c : Call} {r : Response} (h : w.Replies c r w')
    (hr : w.registers? (.call c) = some (s, key, a)) : w.Enrolls w' a := by
  cases h with
  | refuses h =>
    rw [registers?_of_refuses h] at hr
    cases hr
  | looks hc _ =>
    rw [registers?_of_looks hc] at hr
    cases hr
  | createMember hsystem hcreate =>
    obtain ⟨hid, henrolls⟩ := enrolls_createMember hcreate
    rw [registers?_createMember hsystem] at hr
    rw [eq_of_memberName hr, ← hid]
    exact henrolls.bindMade
  | createChild hparent hcreate =>
    obtain ⟨hid, henrolls⟩ := enrolls_createChild hcreate
    obtain ⟨_, _, hsystem, -, -⟩ := createChild_eq_ok hcreate
    rw [registers?_createChild hparent hsystem] at hr
    rw [eq_of_memberName hr, ← hid]
    exact henrolls.bindMade
  | attach hsystem hactor hregister =>
    rw [registers?_attach hsystem hactor] at hr
    split at hr <;> cases hr
    exact enrolls_register hregister
  | _ => cases hr

/-- **A registration leaves everything else alone.** -/
theorem passesOver (h : w.registers? act = some (s, key, a)) : w.PassesOver (w.next act) a := by
  cases act with
  | call c =>
    cases hanswer : w.answer c with
    | error reason =>
      rw [registers?_of_error hanswer] at h
      cases h
    | ok x =>
      obtain ⟨r, w'⟩ := x
      rw [next_of_answer hanswer]
      exact (enrolls_answer (replies_of_answer hanswer) h).release
  | move _ | observe => cases h

/-! ### Removals -/

/-- The value that the course of a mover carries. -/
def value? (w : World) (m : Mover) : Option Json := (w.course? m).map (·.2.value)

/-- **A removal returns whether it found somebody.** -/
theorem value?_of_removes? (hs : w.scene.Sound) (hm : w.removes? (.move m) = some (s, key)) :
    (w.next (.move m)).value? m = some (.bool (w.known? s key).isSome) := by
  obtain ⟨system, r, c, rest, hc, hwait, hrest, hsystem⟩ := of_removes? hm
  have hstep : w.stepCourse r c = some (w.beginRemove r s key { c with rest }) := by
    simp only [stepCourse, hwait, hrest, perform, withNamed, hsystem]
  rw [beginRemove] at hstep
  rw [value?, known?]
  cases hfind : (w.system s).registry.find? key with
  | none =>
    rw [hfind] at hstep
    rw [course?_of_goesOn hs hc hstep]
    rfl
  | some entry =>
    rw [hfind] at hstep
    rw [course?_of_goesOn hs hc hstep]
    rfl

/-! ### Registrations and removals -/

/-- An act registers somebody under a name. -/
def gives (s : SystemId) (key : String) (w : World) (act : Act) : Bool :=
  (w.registers? act).any fun (k, name, _) => k == s && name == key

/-- An act removes a name, and the removal is to return true. -/
def frees (s : SystemId) (key : String) (w : World) : Act → Bool
  | .move m =>
    w.removes? (.move m) == some (s, key) &&
      ((w.next (.move m)).value? m).any (· matches .bool true)
  | _ => false

/-- The number of acts of some kind in a stretch of a run. -/
def tally (see : World → Act → Bool) : World → List Act → Nat
  | _, [] => 0
  | w, act :: acts => (see w act).toNat + tally see (w.next act) acts

theorem frees_iff (hs : w.scene.Sound) :
    frees s key w act = true ↔
      w.removes? act = some (s, key) ∧ (w.known? s key).isSome = true := by
  cases act with
  | move m =>
    rw [frees, Bool.and_eq_true, beq_iff_eq]
    refine and_congr_right fun hm => ?_
    rw [value?_of_removes? hs hm]
    cases (w.known? s key).isSome <;> simp
  | call _ | observe => simp [frees, removes?]

/-- A name that is not given goes to nobody, and one that is freed is free. -/
theorem known?_next_eq_none (hs : w.scene.Sound) (hgives : gives s key w act = false)
    (h : w.known? s key = none ∨ w.removes? act = some (s, key)) :
    (w.next act).known? s key = none := by
  obtain ⟨ts, hconduct, S, hS, hbook⟩ := conduct_next hs act
  have hlists : ∀ a invocable, .lists s key a invocable ∉ ts := by
    intro a invocable hmem
    rw [gives, hconduct.registers?_of_lists hmem] at hgives
    simp at hgives
  rw [← known?_book, hbook]
  refine Book.known?_turn_eq_none ?_ fun _ _ => by simp
  rcases h with hnone | hm
  · exact Book.known?_turns_eq_none ((known?_book ..).trans hnone) hlists
  · obtain ⟨us, vs, rfl, hus, -⟩ := hconduct.split
    cases hus with
    | strikes _ hm' _ =>
      obtain ⟨rfl, rfl⟩ : s = _ ∧ key = _ := by simpa using hm.symm.trans hm'
      rw [List.singleton_append, Book.turns, List.foldl_cons, ← Book.turns]
      refine Book.known?_turns_eq_none ?_ fun a invocable hmem =>
        hlists a invocable (List.mem_append_right _ hmem)
      rw [Book.known?_strikes, if_pos ⟨rfl, rfl⟩]
    | _ => simp_all

/-- **A removal that finds somebody uses the name up**, and only a registration brings it back. -/
theorem seats_next (hs : w.scene.Sound) (s : SystemId) (key : String) (act : Act) :
    (frees s key w act).toNat + ((w.next act).known? s key).isSome.toNat ≤
      (w.known? s key).isSome.toNat + (gives s key w act).toNat := by
  have hle := Bool.toNat_le ((w.next act).known? s key).isSome
  cases hgives : gives s key w act with
  | true =>
    -- Only calls give names, and only moves free them.
    have hfrees : frees s key w act = false := by
      cases act with
      | move m => cases hgives
      | call _ | observe => rfl
    simp only [hfrees, Bool.toNat_false, Bool.toNat_true]
    omega
  | false =>
    cases hfrees : frees s key w act with
    | true =>
      obtain ⟨hm, hsome⟩ := (frees_iff hs).mp hfrees
      rw [known?_next_eq_none hs hgives (.inr hm), hsome]
      rfl
    | false =>
      cases hentry : w.known? s key with
      | none => rw [known?_next_eq_none hs hgives (.inl hentry)]; rfl
      | some e => simpa using hle

/-- The balance of a stretch of a run. -/
theorem seats_run (before later : List Act) :
    tally (frees s key) (run before) later + ((run (before ++ later)).known? s key).isSome.toNat ≤
      ((run before).known? s key).isSome.toNat + tally (gives s key) (run before) later := by
  induction later generalizing before with
  | nil => simp [tally]
  | cons act later ih =>
    have hstep := seats_next (sound_run before) s key act
    have hrest := ih (before ++ [act])
    rw [run_concat, List.append_assoc, List.singleton_append] at hrest
    simp only [tally]
    omega

/-! ### All of it -/

/-- **Mappings hold.** A name stays with an actor until the name is given or removed, the
termination of the system begins, the close of this very actor is completed, or nobody holds the
system any more. A registration leaves handles, jobs and tasks alone, and all actors but the one
that it is about; in particular nobody who loses the name is closed, or loses anything of its
mailbox. Only whom nobody holds any more is told to stop, and comes to its end: nothing that waits
is begun with, and it is discarded when the run loop ends. Between any two points of a run there
are at most as many removals of a name that return true as there are registrations under it, and
one more if it led somewhere in the beginning. -/
theorem mappings_hold (before later : List Act) (s : SystemId) (key : String) :
    let w := run before
    let w' := run (before ++ later)
    (∀ e, w.known? s key = some e → w'.known? s key = some e ∨
      ∃ l₁ act l₂, later = l₁ ++ act :: l₂ ∧ (run (before ++ l₁)).known? s key = some e ∧
        (run (before ++ l₁)).Unseats act s key e.actor) ∧
    (∀ act a, w.registers? act = some (s, key, a) →
      w.PassesOver (w.next act) a ∧
        ∀ b < w.actors.length, (w.next act).holdsActor b = false →
          LetGo b (before ++ [act]) later) ∧
    tally (frees s key) w later + (w'.known? s key).isSome.toNat ≤
      (w.known? s key).isSome.toNat + tally (gives s key) w later := by
  intro w w'
  refine ⟨fun e h => known?_run before later h,
    fun act a h => ⟨passesOver h, fun b hb hheld => letGo_run _ later ?_ ?_⟩,
    seats_run before later⟩
  · have hle := (grows_run before [act]).lanes
    rw [length_lanes_scene, length_lanes_scene] at hle
    exact Nat.lt_of_lt_of_le hb hle
  · rw [run_concat]
    exact hheld

/-- An actor is inside of an operation at a gate, and another operation is behind it. -/
def keptRun : List Act :=
  [.call (.createSystem "s" "sys" 1 (.ofSecs 30) {}),
    .call (.createMember "s" "b" "b" "log" false),
    .call (.send (.operation .ordered "b" [.effect (.gate "g")] .value (.watched "u"))),
    .call (.send (.operation .ordered "b" [.effect (.give (.ofNat 1))] .value (.watched "v"))),
    .move (.runLoop 0), .move (.runLoop 0)]

/-- Another actor gets its name. -/
def replacing : Act := .call (.createMember "s" "c" "b" "log" false)

/-- It gets the name back, and the name is removed twice. -/
def keptLater : List Act :=
  [replacing, .call (.attach "s" "b" none false), .call (.remove "s" "r" "b"), .move (.task 0),
    .call (.remove "s" "q" "b"), .move (.task 1)]

/-- The same, but the client lets go of the actor. -/
def leftRun : List Act := keptRun ++ [.call (.dropActor "b")]

/-- The gate opens, and the actor goes on as far as it can. -/
def leftLater : List Act :=
  [.call (.openGate "g"), .move (.runLoop 0), .move (.runLoop 0), .move (.runLoop 0),
    .move (.runLoop 0), .move (.runLoop 0)]

/-- The actor loses its name and nothing else, as the client holds it. Only one of the removals
finds somebody. If the client has let go of it, the actor is let go of with its name. -/
theorem mappings_hold_keptRun :
    (run keptRun).known? 0 "b" = some { actor := 0, invocable := false } ∧
    (run keptRun).registers? replacing = some (0, "b", 1) ∧
    (run (keptRun ++ keptLater)).known? 0 "b" = none ∧
    (∃ l₁ act l₂, keptLater = l₁ ++ act :: l₂ ∧
      (run (keptRun ++ l₁)).known? 0 "b" = some { actor := 0, invocable := false } ∧
      (run (keptRun ++ l₁)).Unseats act 0 "b" 0) ∧
    (run keptRun).PassesOver ((run keptRun).next replacing) 1 ∧
    ((run keptRun).next replacing).holdsActor 0 = true ∧
    tally (frees 0 "b") (run keptRun) keptLater = 1 ∧
    tally (gives 0 "b") (run keptRun) keptLater = 2 ∧
    (run leftRun).queued 0 = [1] ∧ ((run leftRun).next replacing).holdsActor 0 = false ∧
    LetGo 0 (leftRun ++ [replacing]) leftLater := by
  have hentry : (run keptRun).known? 0 "b" = some { actor := 0, invocable := false } := rfl
  have hgiven : (run keptRun).registers? replacing = some (0, "b", 1) := rfl
  have hnone : (run (keptRun ++ keptLater)).known? 0 "b" = none := rfl
  have hleft : (run leftRun).registers? replacing = some (0, "b", 1) := rfl
  obtain ⟨hkeeps, hpasses, -⟩ := mappings_hold keptRun keptLater 0 "b"
  obtain ⟨-, hlets, -⟩ := mappings_hold leftRun leftLater 0 "b"
  refine ⟨hentry, hgiven, hnone, (hkeeps _ hentry).resolve_left ?_, (hpasses _ _ hgiven).1, rfl,
    rfl, rfl, rfl, rfl, (hlets _ _ hleft).2 0 (by decide) rfl⟩
  rw [hnone]
  simp

/-- **Losing a name can be the end of an actor**, if nobody else holds it: the operation behind is
discarded, and would have returned otherwise. And names are lost with the system itself, once nobody
holds it. -/
theorem discarded_of_replaced :
    (run leftRun).known? 0 "b" = some { actor := 0, invocable := false } ∧
    (run leftRun).registers? replacing = some (0, "b", 1) ∧
    (run (leftRun ++ leftLater)).outcome? 1 = some (.ok (.ofNat 1)) ∧
    (run (leftRun ++ replacing :: leftLater)).outcome? 1 = some (.error .discarded) ∧
    ((run (leftRun ++ replacing :: leftLater)).actor 0).closed = false ∧
    (run (leftRun ++ [.call (.dropSystem "s")])).known? 0 "b" = none ∧
    ((run (leftRun ++ [.call (.dropSystem "s")])).actor 0).holdsTarget = true :=
  ⟨rfl, rfl, rfl, rfl, rfl, rfl, rfl⟩

end World

end Troupe
