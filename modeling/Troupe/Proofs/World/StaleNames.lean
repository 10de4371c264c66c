import Troupe.Proofs.World.Closes
import Troupe.Proofs.World.Quiet

/-!
# Names that lead to closed actors

A closed actor should not be found under any name. The close of an actor frees one name: the one
that the actor remembers, which is the last one that it was given. So to know where closed actors
are still found it is enough to know, for each name, whom it was given to last, whether this was
done when the actor had let go of its target already, and whether the actor has been given another
name after that while it held its target. This is the tenancy of the name, and it is found out by
watching the acts of a run.

Freeing a name ends the tenancy, as does the end of its system. The close of the tenant does not:
the result says when the name outlasts it.

## Main definitions

* `Tenancy` — whom a name was given to last
* `World.tenancy` — the tenancy of a name at the end of a run
* `Book.Tells` — what tenancies say about names

## Main results

* `World.tells_run` — names lead where their tenancies say
* `World.stale_names` — which names lead to closed actors
* `World.closed_but_found` — a run with a name that does
-/

namespace Troupe

/-- Whom a name was given to last. -/
structure Tenancy where
  /-- The actor. -/
  actor : ActorId
  /-- Whether it had let go of its target by then. -/
  late : Bool
  /-- Whether it has been given another name since, while it held its target. -/
  elsewhere : Bool

namespace Tenancy

/-- The tenancy after its actor, or some other one, has been given another name. -/
def renamed (a : ActorId) (holdsTarget : Bool) (x : Tenancy) : Tenancy :=
  if x.actor = a ∧ holdsTarget = true then { x with elsewhere := true } else x

/-- Whether the name outlasts a close of the actor that is completed. -/
def outlasts (x : Tenancy) : Bool := x.late || x.elsewhere

@[simp] theorem actor_renamed (a : ActorId) (holdsTarget : Bool) (x : Tenancy) :
    (x.renamed a holdsTarget).actor = x.actor := by
  rw [renamed]
  split <;> rfl

@[simp] theorem late_renamed (a : ActorId) (holdsTarget : Bool) (x : Tenancy) :
    (x.renamed a holdsTarget).late = x.late := by
  rw [renamed]
  split <;> rfl

/-- Another name makes no difference as long as the actor holds its target. -/
theorem outlasts_renamed {a : ActorId} {holdsTarget : Bool} {x : Tenancy} {p : Prop}
    (h : x.actor = a → holdsTarget = true → p) :
    p ∨ (x.renamed a holdsTarget).outlasts = true ↔ p ∨ x.outlasts = true := by
  rw [renamed]
  split
  · rename_i hx
    simp [h hx.1 hx.2]
  · rfl

end Tenancy

/-! ### Tenancies in books -/

namespace Book

variable {b : Book} {s : SystemId} {key : String} {t : Option Tenancy}

/-- What becomes of a tenancy with a turn. -/
def retain (b : Book) (s : SystemId) (key : String) (t : Option Tenancy) : Turn → Option Tenancy
  | .lists k name a _ =>
    if k = s ∧ name = key then
      some { actor := a, late := !(b.post a).holdsTarget, elsewhere := false }
    else t.map (·.renamed a (b.post a).holdsTarget)
  | .strikes k name => if k = s ∧ name = key then none else t
  | .wipes k => if k = s then none else t
  | .forgets S => if S s then none else t
  | _ => t

/-- What becomes of a tenancy with several turns. -/
def retainAll (s : SystemId) (key : String) : List Turn → Book → Option Tenancy → Option Tenancy
  | [], _, t => t
  | u :: us, b, t => retainAll s key us (b.turn u) (b.retain s key t u)

theorem retainAll_append (ts us : List Turn) (b : Book) (t : Option Tenancy) :
    retainAll s key (ts ++ us) b t = retainAll s key us (b.turns ts) (retainAll s key ts b t) := by
  induction ts generalizing b t with
  | nil => rfl
  | cons u ts ih => exact ih (b.turn u) (b.retain s key t u)

/-- What the tenancy of a name says about the name. -/
structure Tells (b : Book) (s : SystemId) (key : String) (t : Option Tenancy) : Prop where
  /-- The name leads to the tenant as long as it holds its target, and if the name outlasts this. -/
  leads : ∀ a, b.leads s key = some a ↔
    ∃ x, t = some x ∧ x.actor = a ∧ ((b.post a).holdsTarget = true ∨ x.outlasts = true)
  /-- A tenant that holds its target did so when it was given the name, and remembers it unless it
  has been given another one. -/
  holder : ∀ x, t = some x → (b.post x.actor).holdsTarget = true → x.late = false ∧
    ((b.post x.actor).registration = some { system := s, key } ↔ x.elsewhere = false)
  /-- The system is live. -/
  live : ∀ x, t = some x → b.isLive s = true

/-- Names are given to actors that are there, and whoever leaves holds its target. -/
def Firm (b : Book) : Turn → Prop
  | .lists _ _ a _ => a < b.posts.length
  | .leaves a => a < b.posts.length ∧ (b.post a).holdsTarget = true
  | _ => True

/-- A turn that has nothing to do with the name. -/
theorem Tells.congr {b' : Book} (h : b.Tells s key t)
    (hpost : ∀ a, (b'.post a).registration = (b.post a).registration ∧
      (b'.post a).holdsTarget = (b.post a).holdsTarget)
    (hleads : b'.leads s key = b.leads s key) (hlive : b.isLive s = true → b'.isLive s = true) :
    b'.Tells s key t where
  leads a := by rw [hleads, (hpost a).2, h.leads]
  holder x hx hholds := by
    rw [(hpost _).2] at hholds
    rw [(hpost _).1]
    exact h.holder x hx hholds
  live x hx := hlive (h.live x hx)

/-- A name that has been freed. -/
theorem Tells.freed (hleads : b.leads s key = none) : b.Tells s key none where
  leads a := by simp [hleads]
  holder x hx := by cases hx
  live x hx := by cases hx

/-- The name is given to somebody. -/
theorem tells_given {a : ActorId} (hs : b.isLive s = true) (ha : a < b.posts.length)
    (invocable : Bool) :
    (b.turn (.lists s key a invocable)).Tells s key
      (some { actor := a, late := !(b.post a).holdsTarget, elsewhere := false }) where
  leads c := by
    rw [leads_lists (lt_of_isLive hs), if_pos ⟨rfl, rfl⟩, post_lists]
    constructor
    · intro heq
      obtain rfl : a = c := Option.some.inj heq
      refine ⟨_, rfl, rfl, ?_⟩
      rw [if_pos ⟨rfl, ha⟩]
      cases (b.post a).holdsTarget <;> simp [Tenancy.outlasts]
    · rintro ⟨x, hx, rfl, -⟩
      cases hx
      rfl
  holder x hx hholds := by
    cases hx
    rw [post_lists, if_pos ⟨rfl, ha⟩] at hholds ⊢
    have hheld : (b.post a).holdsTarget = true := hholds
    simp [hheld]
  live x _ := by rw [isLive_lists, hs]

/-- A name does not change who holds a target. -/
theorem holdsTarget_lists (k : SystemId) (name : String) (a : ActorId) (invocable : Bool)
    (c : ActorId) : ((b.turn (.lists k name a invocable)).post c).holdsTarget =
      (b.post c).holdsTarget := by
  rw [post_lists]
  split
  · rename_i hc
    rw [hc.1]
  · rfl

/-- Another name is given to somebody. -/
theorem Tells.lists (h : b.Tells s key t) {k : SystemId} {name : String} {a : ActorId}
    (hk : b.isLive k = true) (ha : a < b.posts.length) (invocable : Bool)
    (hne : ¬(k = s ∧ name = key)) :
    (b.turn (.lists k name a invocable)).Tells s key
      (t.map (·.renamed a (b.post a).holdsTarget)) := by
  have hleads : (b.turn (.lists k name a invocable)).leads s key = b.leads s key := by
    rw [leads_lists (lt_of_isLive hk), if_neg fun heq => hne ⟨heq.1.symm, heq.2.symm⟩]
  refine ⟨fun c => ?_, fun x hx hheld => ?_, fun x hx => ?_⟩
  · rw [hleads, h.leads, holdsTarget_lists]
    -- Where the tenant is given another name, it holds its target.
    have houtlasts : ∀ x : Tenancy, x.actor = c →
        ((b.post c).holdsTarget = true ∨
            (x.renamed a (b.post a).holdsTarget).outlasts = true ↔
          (b.post c).holdsTarget = true ∨ x.outlasts = true) := by
      rintro x rfl
      refine Tenancy.outlasts_renamed fun hxa hheld => ?_
      rwa [hxa]
    constructor
    · rintro ⟨x, rfl, hx, hor⟩
      exact ⟨_, rfl, by simpa using hx, (houtlasts x hx).mpr hor⟩
    · rintro ⟨x', hx', hx, hor⟩
      obtain ⟨x, rfl, rfl⟩ := Option.map_eq_some_iff.mp hx'
      rw [Tenancy.actor_renamed] at hx
      exact ⟨x, rfl, hx, (houtlasts x hx).mp hor⟩
  · obtain ⟨x, rfl, rfl⟩ := Option.map_eq_some_iff.mp hx
    rw [Tenancy.actor_renamed] at hheld ⊢
    rw [holdsTarget_lists] at hheld
    obtain ⟨hlate, hreg⟩ := h.holder x rfl hheld
    refine ⟨(Tenancy.late_renamed ..).trans hlate, ?_⟩
    rw [post_lists, Tenancy.renamed]
    by_cases hxa : x.actor = a
    · rw [← hxa, if_pos ⟨rfl, hxa ▸ ha⟩, if_pos ⟨rfl, hheld⟩]
      simpa using hne
    · rw [if_neg fun heq => hxa heq.1, if_neg fun heq => hxa heq.1]
      exact hreg
  · obtain ⟨y, rfl, rfl⟩ := Option.map_eq_some_iff.mp hx
    rw [isLive_lists, h.live y rfl]

/-- The tenant leaves. It remembers the name unless it has been given another one, so the name is
freed unless it outlasts this. -/
theorem Tells.leads_of_tenant {x : Tenancy} (h : b.Tells s key (some x))
    (hholds : (b.post x.actor).holdsTarget = true) :
    (b.turn (.leaves x.actor)).leads s key = if x.outlasts then some x.actor else none := by
  have hl : b.leads s key = some x.actor := (h.leads _).mpr ⟨x, rfl, rfl, .inl hholds⟩
  obtain ⟨hlate, hreg⟩ := h.holder x rfl hholds
  rw [leads_leaves]
  cases helse : x.elsewhere with
  | false =>
    rw [if_pos ⟨hreg.mpr helse, h.live x rfl, hl⟩]
    simp [Tenancy.outlasts, hlate, helse]
  | true =>
    have hstays : (b.post x.actor).registration ≠ some { system := s, key } := fun heq => by
      rw [hreg.mp heq] at helse
      cases helse
    rw [if_neg fun heq => hstays heq.1, hl]
    simp [Tenancy.outlasts, helse]

/-- Somebody else leaves. -/
theorem Tells.leads_of_other (h : b.Tells s key t) {a : ActorId}
    (hne : ∀ x, t = some x → x.actor ≠ a) :
    (b.turn (.leaves a)).leads s key = b.leads s key := by
  have hother : b.leads s key ≠ some a := fun hl => by
    obtain ⟨x, hx, hxa, -⟩ := (h.leads a).mp hl
    exact hne x hx hxa
  rw [leads_leaves, if_neg fun heq => hother heq.2.2]

/-- Somebody leaves. -/
theorem Tells.leaves (h : b.Tells s key t) {a : ActorId} (ha : a < b.posts.length)
    (hholds : (b.post a).holdsTarget = true) : (b.turn (.leaves a)).Tells s key t := by
  have hleft : ((b.turn (.leaves a)).post a).holdsTarget = false := by
    rw [post_leaves, if_pos ⟨rfl, ha⟩]
  have hothers : ∀ c, c ≠ a → (b.turn (.leaves a)).post c = b.post c := fun c hc => by
    rw [post_leaves, if_neg fun heq => hc heq.1]
  refine ⟨fun c => ?_, fun x hx hheld => ?_, fun x hx => ?_⟩
  · by_cases hother : ∀ x, t = some x → x.actor ≠ a
    · rw [h.leads_of_other hother, h.leads]
      refine exists_congr fun y => and_congr_right fun hy => and_congr_right fun hyc => ?_
      rw [← hyc, hothers _ (hother y hy)]
    · obtain ⟨x, rfl, rfl⟩ : ∃ x, t = some x ∧ x.actor = a := by simpa using hother
      rw [h.leads_of_tenant hholds]
      constructor
      · intro hl
        split at hl <;> cases hl
        exact ⟨x, rfl, rfl, .inr ‹_›⟩
      · rintro ⟨y, hy, rfl, hor⟩
        cases hy
        rw [hleft] at hor
        rw [if_pos (hor.resolve_left (by simp))]
  · by_cases hxa : x.actor = a
    · rw [hxa, hleft] at hheld
      cases hheld
    · rw [hothers _ hxa] at hheld ⊢
      exact h.holder x hx hheld
  · rw [isLive_leaves, h.live x hx]

/-- **A turn** and what it does to the tenancy of a name. -/
theorem Tells.turn (h : b.Tells s key t) (hk : b.Kept) {u : Turn} (hfair : b.Fair u)
    (hfirm : b.Firm u) : (b.turn u).Tells s key (b.retain s key t u) := by
  cases u with
  | joins => exact h.congr (fun a => by rw [post_joins]; exact ⟨rfl, rfl⟩) rfl id
  | founds =>
    refine h.congr (fun _ => ⟨rfl, rfl⟩) (by rw [Book.leads, house_founds]; rfl) fun hlive => ?_
    rw [isLive_founds, hlive]
    rfl
  | binds _ _ | drops _ | waits => exact h.congr (fun _ => ⟨rfl, rfl⟩) rfl id
  | shuts c => exact h.congr (post_shuts c) rfl id
  | lists k name a invocable =>
    rw [retain]
    split
    · rename_i hname
      obtain ⟨rfl, rfl⟩ := hname
      exact tells_given hfair hfirm invocable
    · rename_i hne
      exact h.lists hfair hfirm invocable hne
  | strikes k name =>
    rw [retain]
    split
    · rename_i hname
      obtain ⟨rfl, rfl⟩ := hname
      exact .freed (by rw [leads_strikes, if_pos ⟨rfl, rfl⟩])
    · rename_i hne
      refine h.congr (fun _ => ⟨rfl, rfl⟩) ?_ fun hlive => by rw [isLive_strikes, hlive]
      rw [leads_strikes, if_neg fun heq => hne ⟨heq.1.symm, heq.2.symm⟩]
  | wipes k =>
    rw [retain]
    split
    · rename_i hks
      subst hks
      exact .freed (by rw [leads_wipes, if_pos rfl])
    · rename_i hne
      refine h.congr (fun _ => ⟨rfl, rfl⟩) ?_ fun hlive => by rw [isLive_wipes, hlive]
      rw [leads_wipes, if_neg fun heq => hne heq.symm]
  | forgets S =>
    rw [retain]
    cases hS : S s with
    | true =>
      refine .freed ?_
      rw [leads_forgets]
      split
      · rfl
      · rename_i hcond
        refine hk.unheld ?_
        by_contra hlive
        exact hcond ⟨by simpa using hlive, hS⟩
    | false =>
      refine h.congr (fun _ => ⟨rfl, rfl⟩) ?_ fun hlive => ?_
      · rw [leads_forgets, if_neg fun heq => (by rw [hS] at heq; cases heq.2)]
      · rw [isLive_forgets, hlive, hS]
        rfl
  | leaves a => exact h.leaves hfirm.1 hfirm.2

/-- What tenancies say holds after several turns. -/
theorem Tells.turns {ts : List Turn} (h : b.Tells s key t) (hk : b.Kept)
    (hfair : b.Along Fair ts) (hfirm : b.Along Firm ts) :
    (b.turns ts).Tells s key (retainAll s key ts b t) := by
  induction ts generalizing b t with
  | nil => exact h
  | cons u ts ih =>
    exact ih (h.turn hk hfair.1 hfirm.1) (hk.turn hfair.1) hfair.2 hfirm.2

/-- Closes leave tenancies alone. -/
theorem retainAll_closes {us : List Turn}
    (h : ∀ u ∈ us, u = .waits ∨ ∃ a, u = .shuts a ∨ u = .leaves a) (b : Book)
    (t : Option Tenancy) : retainAll s key us b t = t := by
  induction us generalizing b with
  | nil => rfl
  | cons u us ih =>
    have hu : b.retain s key t u = t := by
      rcases h u List.mem_cons_self with rfl | ⟨_, rfl | rfl⟩ <;> rfl
    rw [retainAll, hu]
    exact ih (fun v hv => h v (List.mem_cons_of_mem _ hv)) _

end Book

/-! ### Tenancies in runs -/

namespace World

variable {w : World} {act : Act} {a : ActorId} {s : SystemId} {key : String} {t : Option Tenancy}

open Book (Turn)

/-- Whether a system is there and somebody holds it. -/
def isLive (w : World) (s : SystemId) : Bool := w.systems[s]?.any (·.held)

theorem isLive_book (w : World) (s : SystemId) : w.book.isLive s = w.isLive s := by
  rw [Book.isLive, book, List.getElem?_map, isLive]
  cases w.systems[s]? <;> rfl

/-- What becomes of the tenancy of a name as an act gives and frees names. -/
def retitle (w : World) (s : SystemId) (key : String) (act : Act) (t : Option Tenancy) :
    Option Tenancy :=
  match w.registers? act with
  | some (k, name, a) =>
    if k = s ∧ name = key then
      some { actor := a, late := !(w.actor a).holdsTarget, elsewhere := false }
    else t.map (·.renamed a (w.actor a).holdsTarget)
  | none =>
    if w.removes? act = some (s, key) ∨ w.terminates? act = some s then none else t

/-- The tenancy of a name at the end of a run. It does not outlast the system. -/
def tenancy (s : SystemId) (key : String) (acts : List Act) : Option Tenancy :=
  (acts.foldl (fun (w, t) act =>
    (w.next act, if (w.next act).isLive s then w.retitle s key act t else none))
    (({} : World), (none : Option Tenancy))).2

theorem tenancy_concat (acts : List Act) (act : Act) :
    tenancy s key (acts ++ [act]) = if ((run acts).next act).isLive s then
      (run acts).retitle s key act (tenancy s key acts) else none := by
  have hworld : ∀ acts : List Act, (acts.foldl (fun (x : World × Option Tenancy) act =>
      (x.1.next act, if (x.1.next act).isLive s then x.1.retitle s key act x.2 else none))
      (({} : World), none)).1 = run acts := by
    intro acts
    induction acts using List.reverseRecOn with
    | nil => rfl
    | append_singleton acts act ih => rw [List.foldl_append, run_concat, ← ih]; rfl
  rw [tenancy, List.foldl_append, ← hworld]
  rfl

theorem Prelude.retainAll_eq {ts : List Turn} (h : w.Prelude act ts) :
    Book.retainAll s key ts w.book t = w.retitle s key act t := by
  cases h with
  | nothing hr hm ht | joins hr hm ht | founds hr hm ht | drops hr hm ht =>
    simp only [retitle, hr, hm, ht]
    rfl
  | lists hr _ _ _ =>
    simp only [retitle, hr, Book.retainAll, Book.retain, post_book]
    rfl
  | member hr _ _ =>
    simp only [retitle, hr, Book.retainAll, Book.retain, Book.post_joins, post_book]
    rfl
  | strikes hr hm ht =>
    simp only [retitle, hr, hm, ht, Book.retainAll, Book.retain]
    simp
  | wipes hr hm ht =>
    simp only [retitle, hr, hm, ht, Book.retainAll, Book.retain]
    simp

theorem Conduct.retainAll_eq {ts : List Turn} (h : w.Conduct act ts) :
    Book.retainAll s key ts w.book t = w.retitle s key act t := by
  cases h with
  | quiet hts _ => exact hts.retainAll_eq
  | begins hts _ _ hopens _ =>
    rw [Book.retainAll_append, Book.retainAll_closes fun u hu => ?_, hts.retainAll_eq]
    exact (hopens.only u hu).imp_right fun ⟨x, _, heq⟩ => ⟨x.actor, .inl heq⟩
  | own hts _ _ _ _ =>
    rw [Book.retainAll_append, hts.retainAll_eq]
    rfl
  | completes hts _ _ _ _ _ _ => exact hts.retainAll_eq

/-- Before a close is done, the actor holds its target. -/
theorem holds_of_phases (hphase : ∀ a, ∃ p, w.InPhase a p)
    (h : (w.actor a).closed = false ∨ w.IsClosing a) : (w.actor a).holdsTarget = true := by
  obtain ⟨p, hp⟩ := hphase a
  cases hp with
  | untouched _ _ hholds | underway _ _ hholds | brokenOff _ _ hholds => exact hholds
  | completed hclosed hidle _ =>
    rcases h with h | h
    · rw [hclosed] at h
      cases h
    · exact absurd h hidle

/-- The turns of an act are firm. -/
theorem Conduct.firm {ts : List Turn} (hs : w.scene.Sound) (hphase : ∀ a, ∃ p, w.InPhase a p)
    (h : w.Conduct act ts) : w.book.Along Book.Firm ts := by
  have hlen : w.book.posts.length = w.actors.length := by simp [book]
  have prelude : ∀ {ts}, w.Prelude act ts → w.book.Along Book.Firm ts := by
    intro ts hts
    cases hts with
    | lists _ _ _ ha => exact ⟨Nat.lt_of_lt_of_eq ha hlen.symm, trivial⟩
    | member _ _ _ =>
      refine ⟨trivial, ?_, trivial⟩
      simp [Book.Firm, Book.turn, book]
    | nothing _ _ _ => trivial
    | joins _ _ _ | drops _ _ _ | strikes _ _ _ | wipes _ _ _ => exact ⟨trivial, trivial⟩
    | founds _ _ _ => exact ⟨trivial, trivial, trivial⟩
  cases h with
  | quiet hts _ => exact prelude hts
  | begins hts _ _ hopens _ =>
    refine Book.along_append.mpr ⟨prelude hts, Book.along_of_forall fun u hu b => ?_⟩
    rcases hopens.only u hu with rfl | ⟨_, _, rfl⟩ <;> trivial
  | @own ts a hts _ ha hopen _ =>
    refine Book.along_append.mpr ⟨prelude hts, trivial, ⟨?_, ?_⟩, trivial⟩
    · refine Nat.lt_of_lt_of_le (Nat.lt_of_lt_of_eq ha hlen.symm) ?_
      rw [← Book.turns_concat]
      exact Book.length_turns _
    · have hheld := holds_of_phases hphase (.inl hopen)
      rw [← Book.turns_concat, ← Bool.not_eq_false, Book.holdsTarget_turns, post_book]
      · rw [not_or]
        refine ⟨by simpa [Actor.post] using hheld, ?_⟩
        simpa using hts.not_mem.2
      · exact fun _ => Nat.lt_of_lt_of_eq ha hlen.symm
  | @completes m x _ _ hx _ _ _ _ =>
    have hclosing : w.IsClosing x.actor := (isClosing_iff hs).mpr ⟨m, x, hx, rfl⟩
    refine ⟨⟨?_, ?_⟩, trivial⟩
    · rw [hlen]
      exact lt_of_closed (closed_of_waits hs hx).1
    · rw [post_book]
      exact holds_of_phases hphase (.inr hclosing)

/-- An act, and what it does to the tenancy of a name. -/
theorem tells_next (hs : w.scene.Sound) (hk : w.book.Kept) (hphase : ∀ a, ∃ p, w.InPhase a p)
    (h : w.book.Tells s key t) (act : Act) :
    (w.next act).book.Tells s key
      (if (w.next act).isLive s then w.retitle s key act t else none) := by
  obtain ⟨ts, hconduct, S, hS, hbook⟩ := conduct_next hs act
  have hturns := h.turns hk (hconduct.fair hk) (hconduct.firm hs hphase)
  rw [hconduct.retainAll_eq] at hturns
  have hkept : (w.book.turns ts).Kept := (hconduct.fair hk).keeps (fun hb ht => hb.turn ht) hk
  have hafter := hturns.turn (u := .forgets S) hkept hS trivial
  rw [← hbook] at hafter
  -- Where the system is let go of, or was not live, there is no tenancy.
  suffices heq : (if (w.next act).isLive s then w.retitle s key act t else none) =
      (w.book.turns ts).retain s key (w.retitle s key act t) (.forgets S) by rwa [heq]
  have hlive : (w.next act).isLive s = ((w.book.turns ts).isLive s && !S s) := by
    rw [← isLive_book, hbook, Book.isLive_forgets]
  rw [hlive, Book.retain]
  cases hSs : S s with
  | true => simp
  | false =>
    cases hl : (w.book.turns ts).isLive s with
    | true => simp
    | false =>
      cases htitle : w.retitle s key act t with
      | none => simp
      | some x =>
        have := hturns.live x htitle
        rw [hl] at this
        cases this

/-- **Names lead where their tenancies say.** -/
theorem tells_run (s : SystemId) (key : String) (acts : List Act) :
    (run acts).book.Tells s key (tenancy s key acts) := by
  induction acts using List.reverseRecOn with
  | nil => exact .freed rfl
  | append_singleton acts act ih =>
    rw [run_concat, tenancy_concat]
    exact tells_next (sound_run acts) (kept_run acts)
      (fun a => (phase_run acts a).imp fun _ h => h.1) ih act

/-! ### Closed actors under names -/

/-- A system knows the actor under a name exactly if the actor is open: its run loop is there then,
because the name keeps it. -/
theorem knowsActor_iff (acts : List Act) {entry : Entry}
    (hfind : ((run acts).system s).registry.find? key = some entry) :
    (run acts).knowsActor s key = true ↔ ((run acts).actor entry.actor).closed = false := by
  have hs := sound_run acts
  rw [knowsActor, hfind, Option.any_some, Actor.isAlive]
  constructor
  · intro halive
    simp only [Bool.and_eq_true, Bool.not_eq_true'] at halive
    exact halive.1.1
  · intro hopen
    have hholds := holds_of_phases (fun a => (phase_run acts a).imp fun _ h => h.1) (.inl hopen)
    have hloop : ((run acts).actor entry.actor).loop.hasEnded = false := by
      cases hended : ((run acts).actor entry.actor).loop with
      | starting | idle | inside _ => rfl
      | ended =>
        have hletGo := hs.letGo entry.actor
        rw [lane_scene] at hletGo
        exact absurd (.inl (held_of_find? hfind)) (hletGo (stopping_run acts (.inr hended)) hopen)
    simp [hopen, hloop, hholds]

/-- **Which names lead to closed actors.** A system knows the actor under a name exactly if it is
open. A name still leads to a closed actor that nobody is closing any more exactly if the name was
given to it last, and this was done when the actor had let go of its target already, or the actor
was given another name after that, or its close has broken off. -/
theorem stale_names (acts : List Act) :
    (∀ s key entry, ((run acts).system s).registry.find? key = some entry →
      ((run acts).knowsActor s key = true ↔ ((run acts).actor entry.actor).closed = false)) ∧
    ∀ a, ((run acts).actor a).closed = true → ¬(run acts).IsClosing a → ∀ s key,
      ((((run acts).system s).registry.find? key).map (·.actor) = some a ↔
        ∃ x, tenancy s key acts = some x ∧ x.actor = a ∧
          (x.late = true ∨ x.elsewhere = true ∨ BrokenOff acts a)) := by
  refine ⟨fun s key entry hfind => knowsActor_iff acts hfind, fun a hclosed hdone s key => ?_⟩
  have htells := (tells_run s key acts).leads a
  rw [Book.leads, house_book, post_book] at htells
  refine htells.trans ?_
  -- A closed actor that nobody is closing holds its target if its close has broken off.
  have hholds : ((run acts).actor a).post.holdsTarget = true ↔ BrokenOff acts a := by
    obtain ⟨p, hp, hbroken⟩ := phase_run acts a
    rw [← hbroken]
    cases hp with
    | untouched hopen _ _ =>
      rw [hopen] at hclosed
      cases hclosed
    | underway _ hclosing _ => exact absurd hclosing hdone
    | completed _ _ hgone => simp [Actor.post, hgone]
    | brokenOff _ _ hheld => simp [Actor.post, hheld]
  refine exists_congr fun x => and_congr_right fun _ => and_congr_right fun _ => ?_
  rw [hholds, Tenancy.outlasts, Bool.or_eq_true]
  constructor
  · rintro (h | h | h)
    · exact .inr (.inr h)
    · exact .inl h
    · exact .inr (.inl h)
  · rintro (h | h | h)
    · exact .inr (.inl h)
    · exact .inr (.inr h)
    · exact .inl h

/-- An actor gets two names in a system, one after the other, and is closed. -/
def aliasedRun : List Act :=
  [.call (.createActor "a" "a" "log" {}),
    .call (.createSystem "s" "sys" 1 (.ofSecs 30) {}),
    .call (.attach "s" "a" (some "x") false), .call (.attach "s" "a" (some "y") false),
    .call (.close "a" "z"), .move (.worker 0 0), .move (.task 0), .move (.runLoop 0),
    .move (.runLoop 0), .move (.task 0), .move (.task 0)]

theorem not_isClosing_aliasedRun : ¬(run aliasedRun).IsClosing 0 := by
  have hnone : (run aliasedRun).waiting = [] := rfl
  rintro ⟨x, hx, -⟩
  rw [hnone] at hx
  cases hx

/-- The first name outlasts the actor, because of the second one. -/
theorem stale_names_aliasedRun :
    ((run aliasedRun).actor 0).closed = true ∧ ¬(run aliasedRun).IsClosing 0 ∧
    ((run aliasedRun).knowsActor 0 "x" = true ↔
      ((run aliasedRun).actor 0).closed = false) ∧
    ∃ x, tenancy 0 "x" aliasedRun = some x ∧ x.actor = 0 ∧
      (x.late = true ∨ x.elsewhere = true ∨ BrokenOff aliasedRun 0) :=
  ⟨rfl, not_isClosing_aliasedRun,
    (stale_names aliasedRun).1 0 "x" { actor := 0, invocable := false } rfl,
    ((stale_names aliasedRun).2 0 rfl not_isClosing_aliasedRun 0 "x").mp rfl⟩

/-- **A closed actor that is found**: everything has come to rest, and a live system leads to a
closed actor under the first one of its names. -/
theorem closed_but_found :
    (run aliasedRun).isQuiet = true ∧ (run aliasedRun).waiting = [] ∧
    (run aliasedRun).isLive 0 = true ∧ ((run aliasedRun).system 0).registry.names = ["x"] ∧
    (run aliasedRun).knowsActor 0 "x" = false ∧
    (run aliasedRun).findActor 0 "x" "log" = some 0 ∧
    ((run aliasedRun).actor 0).closed = true :=
  ⟨rfl, rfl, rfl, List.mergeSort_singleton "x", rfl, rfl, rfl⟩

end World

end Troupe
