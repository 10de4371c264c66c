import Troupe.Proofs.World.Registrations

/-!
# What acts do to closes

An act does one of few things to the waits of all movers: nothing at all; or its mover, which had
none, gets some, for actors that were open; or its mover completes the close of one of them. What an
act does to names comes before this. All of it shows in the book, where at the end the systems that
nobody holds are let go of.

## Main definitions

* `World.Opens` — the closes that begin
* `World.Asks` — what an action of a course asks for
* `World.Conduct` — the turns of an act, with what happens to the waits

## Main results

* `World.conduct_course`, `World.conduct_stepTermination` — those who close
* `World.conduct_next` — whatever happens is one of the conducts
-/

namespace Troupe

namespace World

variable {w w' : World} {a : ActorId} {m : Mover} {act : Act}

open Book (Turn)

/-! ### The limits of closes -/

/-- The time up to which a close that begins now waits for the run loop of an actor. -/
def limit (w : World) (a : ActorId) : Nat :=
  w.clock + (w.actor a).settings.closeTimeout.ceilMillis

@[simp] theorem limit_report (n : Notice) (w : World) (a : ActorId) :
    (w.report n).limit a = w.limit a := rfl

theorem limit_onActor {f : Actor → Actor} (hf : ∀ x, (f x).settings = x.settings) (a b : ActorId)
    (w : World) : (w.onActor a f).limit b = w.limit b := by
  rw [limit, limit, actor, onActor, List.getElem?_modify, actor]
  cases w.actors[b]? with
  | none => rfl
  | some x =>
    by_cases hb : a = b
    · simp [hb, hf]
    · simp [hb]

/-- What a close does at once takes no time. -/
theorem limit_shutActor (a b : ActorId) (w : World) : (w.shutActor a).limit b = w.limit b := by
  have hfinal : ∀ (es : List Envelope) (w : World),
      ((w.dropEnvelopes es).withdrawJobs a).2.limit b = w.limit b := by
    intro es w
    obtain ⟨_, _, h⟩ := dropEnvelopes_frame es w
    obtain ⟨_, _, h'⟩ := cancelJobsIn_frame ((w.dropEnvelopes es).actor a).owner
      ((w.dropEnvelopes es).actor a).pools (w.dropEnvelopes es)
    rw [withdrawJobs, h', h]
    rfl
  have hclosed : ∀ (w : World) (mailbox : Mailbox), (w.onActor a fun actor =>
      { actor with closed := true, stopping := true, mailbox }).limit b = w.limit b := by
    intro w mailbox
    rw [limit_onActor]
    exact fun _ => rfl
  simp only [shutActor, hfinal]
  split <;> simp [hclosed]

/-! ### Closes that begin -/

/-- The closes that begin, by turns, with what is to be waited for. -/
structure Opens (w : World) (ts : List Turn) (waits : List Wait) : Prop where
  /-- Nothing else happens. -/
  only : ∀ t ∈ ts, t = .waits ∨ ∃ x ∈ waits, t = .shuts x.actor
  /-- The actors are closed by it. -/
  shuts : ∀ x ∈ waits, .shuts x.actor ∈ ts
  /-- They were open. -/
  opened : ∀ x ∈ waits, x.actor < w.actors.length ∧ (w.actor x.actor).closed = false
  /-- No actor is closed twice. -/
  actors : (waits.map (·.actor)).Nodup
  /-- The waits have different numbers. -/
  orders : (waits.map (·.order)).Nodup
  /-- They last until the limit. -/
  due : ∀ x ∈ waits, x.deadline = w.limit x.actor

theorem Opens.nil (w : World) : w.Opens [] [] :=
  ⟨by simp, by simp, by simp, .nil, .nil, by simp⟩

/-- **The first part of a close** in all its cases: it does nothing if the actor is closed; the one
on whose run loop it is asked for does not wait; everybody else waits. -/
theorem beginClose_cases (runLoop : Option ActorId) (system : Option SystemId) (a : ActorId)
    (w : World) :
    ((w.actor a).closed = true ∧ (w.beginClose runLoop system a).1 = none ∧
      (w.beginClose runLoop system a).2.book = w.book) ∨
    ((w.actor a).closed = false ∧ runLoop = some a ∧ (w.beginClose runLoop system a).1 = none ∧
      (w.beginClose runLoop system a).2.book = w.book.turns [.shuts a, .leaves a]) ∨
    ((w.actor a).closed = false ∧ runLoop ≠ some a ∧
      ∃ x, (w.beginClose runLoop system a).1 = some x ∧ x.actor = a ∧ x.order = w.waitCount ∧
        x.deadline = w.limit a ∧
        (w.beginClose runLoop system a).2.book = w.book.turns [.shuts a, .waits]) := by
  have hcount : (w.shutActor a).waitCount = w.waitCount :=
    congrArg Book.waitCount (book_shutActor a w)
  rw [beginClose]
  cases hclosed : (w.actor a).closed with
  | true => exact .inl ⟨by simp, rfl, rfl⟩
  | false =>
    simp only [Bool.false_eq_true, if_false]
    by_cases hself : runLoop = some a
    · rw [if_pos hself]
      exact .inr (.inl ⟨by simp, hself, rfl, by simp [Book.turns]⟩)
    · rw [if_neg hself]
      exact .inr (.inr ⟨by simp, hself, _, rfl, rfl, hcount, limit_shutActor a a w,
        by simp [Book.turns]⟩)

theorem Opens.single {x : Wait} (ha : x.actor < w.actors.length)
    (hopen : (w.actor x.actor).closed = false) (hdue : x.deadline = w.limit x.actor) :
    w.Opens [.shuts x.actor, .waits] [x] :=
  ⟨by simp, by simp, by simpa using ⟨ha, hopen⟩, by simp, by simp, by simpa using hdue⟩

/-- One close before others. -/
theorem Opens.cons {w₁ : World} {x : Wait} {ts : List Turn} {waits : List Wait}
    (h : w₁.Opens ts waits) (ha : x.actor < w.actors.length)
    (hopen : (w.actor x.actor).closed = false) (hclosed : (w₁.actor x.actor).closed = true)
    (hback : ∀ b, b < w₁.actors.length → (w₁.actor b).closed = false →
      b < w.actors.length ∧ (w.actor b).closed = false)
    (hlimit : ∀ b, w₁.limit b = w.limit b) (hdue : x.deadline = w.limit x.actor)
    (horder : ∀ y ∈ waits, x.order < y.order) :
    w.Opens ([.shuts x.actor, .waits] ++ ts) (x :: waits) := by
  refine ⟨fun t ht => ?_, fun y hy => ?_, fun y hy => ?_, ?_, ?_, fun y hy => ?_⟩
  · rcases List.mem_append.mp ht with ht | ht
    · simp only [List.mem_cons, List.not_mem_nil, or_false] at ht
      rcases ht with rfl | rfl
      · exact .inr ⟨x, List.mem_cons_self, rfl⟩
      · exact .inl rfl
    · exact (h.only t ht).imp_right fun ⟨y, hy, heq⟩ => ⟨y, List.mem_cons_of_mem _ hy, heq⟩
  · rcases List.mem_cons.mp hy with rfl | hy
    · simp
    · exact List.mem_append_right _ (h.shuts y hy)
  · rcases List.mem_cons.mp hy with rfl | hy
    · exact ⟨ha, hopen⟩
    · exact hback _ (h.opened y hy).1 (h.opened y hy).2
  · refine List.nodup_cons.mpr ⟨fun hmem => ?_, h.actors⟩
    obtain ⟨y, hy, heq⟩ := List.mem_map.mp hmem
    have := (h.opened y hy).2
    rw [heq, hclosed] at this
    cases this
  · refine List.nodup_cons.mpr ⟨fun hmem => ?_, h.orders⟩
    obtain ⟨y, hy, heq⟩ := List.mem_map.mp hmem
    exact Nat.ne_of_gt (horder y hy) heq
  · rcases List.mem_cons.mp hy with rfl | hy
    · exact hdue
    · exact (h.due y hy).trans (hlimit _)

/-- The same closes seen from an earlier world. -/
theorem Opens.back {w₁ : World} {ts : List Turn} {waits : List Wait} (h : w₁.Opens ts waits)
    (hback : ∀ b, b < w₁.actors.length → (w₁.actor b).closed = false →
      b < w.actors.length ∧ (w.actor b).closed = false)
    (hlimit : ∀ b, w₁.limit b = w.limit b) : w.Opens ts waits :=
  ⟨h.only, h.shuts, fun x hx => hback _ (h.opened x hx).1 (h.opened x hx).2, h.actors, h.orders,
    fun x hx => (h.due x hx).trans (hlimit _)⟩

/-- The first part of a close takes no time. -/
theorem limit_beginClose (system : Option SystemId) (a b : ActorId) (w : World) :
    (w.beginClose none system a).2.limit b = w.limit b := by
  rw [beginClose]
  split
  · rfl
  · exact limit_shutActor a b w

/-- Who is open after the first part of a close was open before. -/
theorem open_of_beginClose (hs : w.scene.Sound) (ha : a < w.actors.length) (b : ActorId)
    (hb : b < (w.beginClose none none a).2.actors.length)
    (hopen : ((w.beginClose none none a).2.actor b).closed = false) :
    b < w.actors.length ∧ (w.actor b).closed = false := by
  obtain ⟨_, d, _, _⟩ := deeds_beginClose hs ha none none
  have hposts : (w.beginClose none none a).2.book.posts.length = w.book.posts.length := by
    rcases beginClose_cases none none a w with ⟨_, _, h⟩ | ⟨_, h, _⟩ | ⟨_, _, _, _, _, _, _, h⟩
    · rw [h]
    · cases h
    · rw [h]
      exact List.length_modify ..
  have hlen : (w.beginClose none none a).2.actors.length = w.actors.length := by
    simpa [book] using hposts
  refine ⟨hlen ▸ hb, ?_⟩
  by_contra hclosed
  rw [closed_of_deeds d (by simpa using hclosed)] at hopen
  cases hopen

/-- Closing several actors, some of them maybe twice. -/
theorem opens_beginCloses (actors : List ActorId) (hs : w.scene.Sound)
    (ha : ∀ a ∈ actors, a < w.actors.length) :
    ∃ ts, (w.beginCloses actors).2.book = w.book.turns ts ∧
      w.Opens ts (w.beginCloses actors).1 ∧
      ∀ x ∈ (w.beginCloses actors).1, w.waitCount ≤ x.order := by
  induction actors generalizing w with
  | nil => exact ⟨[], rfl, .nil w, by simp [beginCloses]⟩
  | cons a actors ih =>
    have hlt := ha a List.mem_cons_self
    obtain ⟨_, d, _, _⟩ := deeds_beginClose hs hlt none none
    have hback := open_of_beginClose hs hlt
    have hcases := beginClose_cases none none a w
    have hlimit := fun b => limit_beginClose none a b w
    set w₁ := (w.beginClose none none a).2 with hw₁
    obtain ⟨ts, hbook, hopens, horder⟩ := ih (hs.deeds d) fun b hb =>
      lt_of_deeds d (ha b (List.mem_cons_of_mem _ hb))
    show ∃ ts, (w₁.beginCloses actors).2.book = _ ∧
      w.Opens ts ((w.beginClose none none a).1.toList ++ (w₁.beginCloses actors).1) ∧
      ∀ x ∈ (w.beginClose none none a).1.toList ++ (w₁.beginCloses actors).1, w.waitCount ≤ x.order
    rcases hcases with ⟨_, hx, h⟩ | ⟨_, h, _⟩ | ⟨hopen, _, x, hx, rfl, hn, hdue, h⟩
    · have hcount : w₁.waitCount = w.waitCount := congrArg Book.waitCount h
      rw [hx]
      exact ⟨ts, hbook.trans (by rw [h]), hopens.back hback hlimit,
        fun y hy => hcount ▸ horder y hy⟩
    · cases h
    · have hcount : w₁.waitCount = w.waitCount + 1 := congrArg Book.waitCount h
      rw [hx]
      refine ⟨[.shuts x.actor, .waits] ++ ts, ?_,
        hopens.cons hlt hopen (closed_beginClose hs hlt none none) hback hlimit hdue fun y hy => ?_,
        fun y hy => ?_⟩
      · rw [Book.turns_append, ← h, hbook]
      · have := horder y hy
        omega
      · rcases List.mem_cons.mp hy with rfl | hy
        · exact Nat.le_of_eq hn.symm
        · have := horder y hy
          omega

/-! ### Actions -/

/-- What an action of a course, or the end of it, asks for: nothing, that the actor on whose run
loop it is closes, or that another one is closed, which is then waited for. -/
inductive Asks (w : World) (r : Runner) : List Turn → List Wait → Prop where
  /-- Nothing is closed. -/
  | nothing : Asks w r [] []
  /-- The own actor is closed. -/
  | own {a : ActorId} (hr : r = .runLoop a) (ha : a < w.actors.length)
    (hopen : (w.actor a).closed = false) : Asks w r [.shuts a, .leaves a] []
  /-- Another actor is closed. -/
  | other {x : Wait} (ha : x.actor < w.actors.length) (hopen : (w.actor x.actor).closed = false)
    (hdue : x.deadline = w.limit x.actor) : Asks w r [.shuts x.actor, .waits] [x]

theorem asks_beginClose {r : Runner} (ha : a < w.actors.length) (system : Option SystemId) :
    ∃ us, (w.beginClose r.runLoop? system a).2.book = w.book.turns us ∧
      w.Asks r us (w.beginClose r.runLoop? system a).1.toList := by
  rcases beginClose_cases r.runLoop? system a w with
    ⟨_, hnone, hbook⟩ | ⟨hopen, hr, hnone, hbook⟩ | ⟨hopen, _, x, hx, rfl, _, hdue, hbook⟩
  · rw [hnone]
    exact ⟨[], hbook, .nothing⟩
  · rw [hnone]
    cases r with
    | runLoop b =>
      obtain rfl : b = a := Option.some.inj hr
      exact ⟨_, hbook, .own rfl ha hopen⟩
    | bypass _ | client => cases hr
  · rw [hx]
    exact ⟨_, hbook, .other ha hopen hdue⟩

/-- A name is freed, and the actor behind it is closed. -/
theorem book_beginRemove (hs : w.scene.Sound) {r : Runner} {s : SystemId} {name : String}
    {rest : Course} {progress : Progress} (hrest : rest.wait = none)
    (h : w.beginRemove r s name rest = (progress, w')) :
    ∃ us, w'.book = w.book.turns ([.strikes s name] ++ us) ∧ w.Asks r us progress.waits := by
  rw [beginRemove] at h
  cases hfind : (w.system s).registry.find? name with
  | none =>
    rw [hfind] at h
    cases h
    have hwaits : Progress.waits (.goesOn { rest with value := .bool false }) = [] := by
      simp [Progress.waits, hrest]
    refine ⟨[], ?_, hwaits ▸ .nothing⟩
    show w.book = w.book.turn (.strikes s name)
    rw [Book.turn_strikes_of_absent (by rw [house_book]; exact hfind)]
  | some entry =>
    rw [hfind] at h
    have ha := lt_of_held hs (held_of_find? hfind)
    set w₁ := w.onSystem s fun system =>
      { system with registry := system.registry.erase name } with hw₁
    set w₂ := w₁.report (.removing name (w₁.system s).name)
    have hstrike : w₁.book = w.book.turn (.strikes s name) := book_onSystem_eq fun _ => rfl
    obtain ⟨us, hbook, hasks⟩ := asks_beginClose (w := w₂) (r := r) ha (some s)
    cases h
    refine ⟨us, ?_, ?_⟩
    · rw [Book.turns_append]
      exact hbook.trans (congrArg _ hstrike)
    · -- Whether actors are open does not depend on the name.
      have hsame : ∀ {us : List Turn} {ws : List Wait}, w₂.Asks r us ws → w.Asks r us ws := by
        rintro us ws (_ | ⟨hr, ha, hopen⟩ | ⟨ha, hopen, hdue⟩)
        · exact .nothing
        · exact .own hr ha hopen
        · exact .other ha hopen hdue
      exact hsame hasks

/-- **One action.** -/
theorem book_perform (hs : w.scene.Sound) {r : Runner} {action : Action} {rest : Course}
    {progress : Progress} (h : w.Performs r rest action progress w') (hrest : rest.wait = none) :
    ∃ us, w'.book = w.book.turns (w.freed action ++ us) ∧ w.Asks r us progress.waits := by
  -- A course that does not begin to wait asks for nothing.
  have goesOn : ∀ {c : Course}, c.wait = none → w.Asks r [] (Progress.goesOn c).waits := by
    intro c hc
    rw [show (Progress.goesOn c).waits = [] from (congrArg Option.toList hc)]
    exact .nothing
  cases h with
  | misses h =>
    refine ⟨[], ?_, .nothing⟩
    cases h with
    | remove hs => simp [freed, hs, Except.toOption, Book.turns]
    | close _ | clear _ | pending _ | alive _ | send _ => rfl
  | effect _ => exact ⟨[], (discreet_write ..).book, goesOn hrest⟩
  | ends _ => exact ⟨[], rfl, .nothing⟩
  | close ha => exact asks_beginClose (lt_of_held hs (held_of_actorNamed ha)) none
  | clear _ => exact ⟨[], (discreet_clear ..).book, goesOn hrest⟩
  | pending _ | alive _ => exact ⟨[], rfl, goesOn hrest⟩
  | @remove system name s x hsystem hx =>
    have hfreed : w.freed (.remove system name) = [.strikes s name] := by
      rw [freed, hsystem]
      rfl
    rw [hfreed]
    exact book_beginRemove hs hrest hx
  | send hsend => exact ⟨[], book_send hsend, goesOn hrest⟩

/-! ### Moves of courses -/

/-- An act shows in the book as some turns, after which some systems are let go of. -/
def Shows (w : World) (act : Act) (ts : List Turn) : Prop :=
  (w.book.turns ts).LetsGo (w.next act).book

/-- What shows of an actor is what the turns make of it. -/
theorem Shows.post_eq {ts : List Turn} (h : w.Shows act ts) (a : ActorId) :
    ((w.next act).actor a).post = (w.book.turns ts).post a := by
  rw [← post_book]
  exact Book.LetsGo.post_eq h a

theorem shows_of_letsGo {b : Book} {ts : List Turn} (h : b.LetsGo (w.next act).book)
    (hb : b = w.book.turns ts) : w.Shows act ts := by
  rwa [Shows, ← hb]

theorem shows_of_release {ts : List Turn} (hnext : w.next act = w'.release)
    (hbook : w'.book = w.book.turns ts) : w.Shows act ts := by
  rw [Shows, hnext]
  exact letsGo_of_release hbook

/-- The turns of an act, with what happens to the waits of all movers. -/
inductive Conduct (w : World) (act : Act) : List Turn → Prop where
  /-- Nobody's waits change. -/
  | quiet {ts : List Turn} (hts : w.Prelude act ts)
    (hwaits : ∀ m, (w.next act).waits m = w.waits m) : Conduct w act ts
  /-- A mover without waits begins some closes. -/
  | begins {ts us : List Turn} {m : Mover} (hts : w.Prelude act ts) (hact : act = .move m)
    (hidle : w.waits m = []) (hopens : w.Opens us ((w.next act).waits m))
    (hothers : ∀ m', m' ≠ m → (w.next act).waits m' = w.waits m') : Conduct w act (ts ++ us)
  /-- An operation closes its own actor. -/
  | own {ts : List Turn} {a : ActorId} (hts : w.Prelude act ts) (hact : act = .move (.runLoop a))
    (ha : a < w.actors.length) (hopen : (w.actor a).closed = false)
    (hwaits : ∀ m, (w.next act).waits m = w.waits m) : Conduct w act (ts ++ [.shuts a, .leaves a])
  /-- A mover completes a close that it waits for. The run loop of the closed actor has ended then,
  so whatever it waited for is not completed by it. -/
  | completes {m : Mover} {x : Wait} (hts : w.Prelude act []) (hact : act = .move m)
    (hx : x ∈ w.waits m)
    (hwaits : (w.next act).waits m = (w.waits m).filter (·.order != x.order))
    (hothers : ∀ m', m' ≠ m → m' ≠ .runLoop x.actor → (w.next act).waits m' = w.waits m')
    (hended : ((w.next act).actor x.actor).loop = .ended)
    (hown : ∀ b, m = .runLoop b → ((w.next act).actor b).loop ≠ .ended) :
    Conduct w act [.leaves x.actor]

/-- First come names, then closes. -/
theorem Conduct.split {ts : List Turn} (h : w.Conduct act ts) : ∃ us vs, ts = us ++ vs ∧
    w.Prelude act us ∧ ∀ t ∈ vs, t = .waits ∨ ∃ a, t = .shuts a ∨ t = .leaves a := by
  cases h with
  | quiet hts _ => exact ⟨ts, [], (List.append_nil ts).symm, hts, by simp⟩
  | begins hts _ _ hopens _ =>
    refine ⟨_, _, rfl, hts, fun t ht => (hopens.only t ht).imp_right ?_⟩
    rintro ⟨x, -, rfl⟩
    exact ⟨x.actor, .inl rfl⟩
  | own hts _ _ _ _ => exact ⟨_, _, rfl, hts, by simp⟩
  | completes hts _ _ _ _ _ _ => exact ⟨[], _, rfl, hts, by simp⟩

/-- What is not part of a close is about names. -/
theorem Conduct.mem_prelude {ts : List Turn} {t : Turn} (h : w.Conduct act ts) (hmem : t ∈ ts)
    (ht : t ≠ .waits ∧ ∀ a, t ≠ .shuts a ∧ t ≠ .leaves a) : ∃ us, w.Prelude act us ∧ t ∈ us := by
  obtain ⟨us, vs, rfl, hus, hvs⟩ := h.split
  refine ⟨us, hus, (List.mem_append.mp hmem).resolve_right fun hmem => ?_⟩
  rcases hvs t hmem with heq | ⟨a, heq | heq⟩
  · exact ht.1 heq
  · exact (ht.2 a).1 heq
  · exact (ht.2 a).2 heq

/-- Whoever does not move waits on, if the mover does not wait. -/
theorem waits_others (hs : w.scene.Sound) (hidle : w.waits m = [])
    (hgrace : ∀ t, m ≠ .grace t) (m' : Mover) (hne : m' ≠ m) :
    (w.next (.move m)).waits m' = w.waits m' := by
  refine waits_next hs (fun h => hne (Act.move.inj h).symm)
    (fun t _ h => hgrace t (Act.move.inj h)) ?_
  rintro a m'' wait _ h hwait
  cases h
  rw [hidle] at hwait
  cases hwait

theorem ne_grace_of_course? {r : Runner} {c : Course} (hm : w.course? m = some (r, c))
    (t : TaskId) : m ≠ .grace t := by
  rintro rfl
  cases hm

/-- A course that does not wait goes on with what its next action asks for, or ends. -/
theorem conduct_asked (hs : w.scene.Sound) {r : Runner} {c : Course} {progress : Progress}
    {w₁ : World} {us : List Turn} (hm : w.course? m = some (r, c)) (hnone : c.wait = none)
    (hgo : GoesOn w₁ (w.next (.move m)) m progress.waits) (hasks : w.Asks r us progress.waits)
    (hturns : w₁.book = w.book.turns ((c.action?.map w.freed).getD [] ++ us)) :
    ∃ ts, w.Conduct (.move m) ts ∧ w.Shows (.move m) ts := by
  have hprelude := prelude_of_course hm
  have hidle : w.waits m = [] := by
    rw [waits_of_course? hm, hnone]
    rfl
  have hothers := waits_others hs hidle (ne_grace_of_course? hm)
  have same : progress.waits = [] → ∀ m', (w.next (.move m)).waits m' = w.waits m' := by
    intro hend m'
    by_cases hne : m' = m
    · rw [hne, hgo.waits, hidle, hend]
    · exact hothers m' hne
  refine ⟨_, ?_, shows_of_letsGo hgo.letsGo hturns⟩
  generalize hws : progress.waits = ws at hasks
  cases hasks with
  | nothing =>
    rw [List.append_nil]
    exact .quiet hprelude (same hws)
  | @own a hr ha hopen =>
    have hself : m = .runLoop a := by
      cases m with
      | runLoop b => rw [Runner.runLoop.inj ((loop_of_course? hm).1.symm.trans hr)]
      | task t =>
        obtain ⟨_, _, _, hrun, _⟩ := task_of_course? hm
        rw [hr] at hrun
        cases hrun
      | worker _ _ | grace _ => cases hm
    exact .own hprelude (congrArg Act.move hself) ha hopen (same hws)
  | @other x ha hopen hdue =>
    refine .begins hprelude rfl hidle ?_ hothers
    rw [hgo.waits, hws]
    exact .single ha hopen hdue

/-- A course whose wait is over completes the close. -/
theorem conduct_awaited (hs : w.scene.Sound) {r : Runner} {c : Course} {x : Wait}
    (hm : w.course? m = some (r, c)) (hwait : c.wait = some x)
    (hgo : GoesOn (w.endWait x) (w.next (.move m)) m []) :
    ∃ ts, w.Conduct (.move m) ts ∧ w.Shows (.move m) ts := by
  have hmine : w.waits m = [x] := by
    rw [waits_of_course? hm, hwait]
    rfl
  have hx : x ∈ w.waits m := by
    rw [hmine]
    exact List.mem_singleton_self x
  obtain ⟨hclosed, hne⟩ := closed_of_waits hs hx
  have hprelude : w.Prelude (.move m) [] := by
    simpa [Course.action?_of_wait hwait] using prelude_of_course hm
  refine ⟨[.leaves x.actor], .completes hprelude rfl hx ?_ (fun m' hm' hrun => ?_) ?_ hgo.lives,
    shows_of_letsGo hgo.letsGo (book_endWait ..)⟩
  · rw [hgo.waits, hmine]
    simp
  · refine waits_next hs (fun h => hm' (Act.move.inj h).symm)
      (fun t _ h => ne_grace_of_course? hm t (Act.move.inj h)) ?_
    rintro a m'' y rfl h hy heq
    cases h
    rw [hmine] at hy
    obtain rfl : y = x := List.mem_singleton.mp hy
    exact hrun (by rw [heq])
  · rw [hgo.others x.actor hne]
    exact loop_endWait hclosed

/-- **The move of a course.** -/
theorem conduct_course (hs : w.scene.Sound) {r : Runner} {c : Course} {progress : Progress}
    {w₁ : World} (hm : w.course? m = some (r, c))
    (hstep : w.stepCourse r c = some (progress, w₁)) :
    ∃ ts, w.Conduct (.move m) ts ∧ w.Shows (.move m) ts := by
  have hgo := next_of_course hs hm hstep
  cases advances_of_stepCourse hstep with
  | waited hwait _ => exact conduct_awaited hs hm hwait hgo
  | returns hwait hrest =>
    exact conduct_asked hs hm hwait hgo .nothing (by rw [Course.action?_of_nil hrest]; rfl)
  | performs hwait hrest hp =>
    obtain ⟨us, hturns, hasks⟩ := book_perform hs hp hwait
    exact conduct_asked hs hm hwait hgo hasks
      (by rw [Course.action?_of_cons hwait hrest]; exact hturns)

/-! ### Other moves -/

/-- A move that does not show, of a mover that does not wait. -/
theorem conduct_silent (hs : w.scene.Sound) {w₁ : World} (hnext : w.next (.move m) = w₁.release)
    (hquiet : w.Discreet w₁) (hprelude : w.Prelude (.move m) []) (hidle : w.waits m = [])
    (hmine : w₁.waits m = []) (hgrace : ∀ t, m ≠ .grace t) :
    ∃ ts, w.Conduct (.move m) ts ∧ w.Shows (.move m) ts := by
  refine ⟨[], .quiet hprelude fun m' => ?_, shows_of_release hnext hquiet.book⟩
  by_cases hne : m' = m
  · rw [hne, hnext, waits_release, hidle, hmine]
  · exact waits_others hs hidle hgrace m' hne

theorem waits_onActor {f : Actor → Actor} (hf : ∀ x, (f x).loop.course?.bind (·.wait) = none)
    (hidle : w.waits (.runLoop a) = []) : (w.onActor a f).waits (.runLoop a) = [] := by
  by_cases ha : a < w.actors.length
  · rw [waits, actor_onActor_self w ha, hf]
    rfl
  · have hsame : (w.onActor a f).actors = w.actors := by
      rw [onActor, List.modify_eq_self (Nat.le_of_not_lt ha)]
    rwa [waits, actor, hsame]

/-- **A run loop.** -/
theorem conduct_stepLoop (hs : w.scene.Sound) (h : w.stepLoop a = some w') :
    ∃ ts, w.Conduct (.move (.runLoop a)) ts ∧ w.Shows (.move (.runLoop a)) ts := by
  have hnext := next_of_stepLoop h
  -- Outside of operations a run loop waits for nothing.
  have silent : (w.actor a).loop.course? = none → w.Discreet w' → w'.waits (.runLoop a) = [] →
      ∃ ts, w.Conduct (.move (.runLoop a)) ts ∧ w.Shows (.move (.runLoop a)) ts := by
    intro hnone hquiet hmine
    refine conduct_silent hs hnext hquiet (prelude_of_move ?_ rfl) ?_ hmine (by simp)
    · rw [action?, hnone]
      rfl
    · rw [waits, hnone]
      rfl
  have hidle : (w.actor a).loop.course? = none → w.waits (.runLoop a) = [] := by
    intro hnone
    rw [waits, hnone]
    rfl
  cases steps_of_stepLoop h with
  | starts hl =>
    have hnone : (w.actor a).loop.course? = none := by rw [hl]; rfl
    exact silent hnone ((discreet_report ..).trans (discreet_setLoop ..))
      (waits_onActor (fun _ => rfl) (hidle hnone))
  | quits hl _ =>
    have hnone : (w.actor a).loop.course? = none := by rw [hl]; rfl
    refine silent hnone (discreet_endLoop ..) ?_
    have hended := waits_onActor (f := fun actor =>
      { actor with loop := .ended, mailbox := { actor.mailbox with queue := [] } })
      (fun _ => rfl) (hidle hnone)
    rwa [endLoop, waits, actor, report, actors_dropEnvelopes]
  | enters hl _ henter =>
    have hnone : (w.actor a).loop.course? = none := by rw [hl]; rfl
    refine silent hnone (discreet_enterNext henter) ?_
    obtain ⟨⟨e, mailbox⟩, _, rfl⟩ := Option.map_eq_some_iff.mp henter
    refine waits_onActor (fun x => ?_) (hidle hnone)
    cases e <;> rfl
  | goesOn hl hc | ends hl hc =>
    exact conduct_course hs (by rw [course?, hl]; rfl) hc
  | @relays k _ _ _ hl hr =>
    have hnone : (w.actor a).loop.course? = none := by rw [hl]; rfl
    have hresolve : ∀ o, (w.resolve k o).waits (.runLoop a) = [] := fun o => by
      rw [waits, actor, actors_resolve]
      exact hidle hnone
    cases hr with
    | passesOn _ =>
      exact silent hnone ((discreet_resolve ..).trans (discreet_setLoop ..))
        (waits_onActor (fun _ => rfl) (hresolve _))
    | givesUp _ _ =>
      exact silent hnone ((discreet_resolve ..).trans <| (discreet_deafen ..).trans <|
        discreet_setLoop ..) (waits_onActor (fun _ => rfl) (hresolve (.error (w.actor a).refusal)))

/-- A termination begins. -/
theorem book_beginTermination (hs : w.scene.Sound) (s : SystemId) :
    ∃ us, (w.beginTermination s).2.book = w.book.turns ([.wipes s] ++ us) ∧
      w.Opens us (w.beginTermination s).1 := by
  set w₁ := (w.report (.terminating (w.system s).name)).onSystem s fun system =>
    { system with terminated := true, registry := {} } with hw₁
  have hforget : Deeds [] w.scene w₁.scene :=
    deeds_onSystem_forget (fun _ => List.nil_subset _) (fun _ => rfl) fun _ => rfl
  have hlt : ∀ a ∈ (w.system s).registry.entries.map (·.2.actor), a < w₁.actors.length :=
    lt_of_entries hs s
  obtain ⟨us, hbook, hopens, _⟩ := opens_beginCloses
    (w := w₁.report (.closingActors (w.system s).registry.entries.length)) _
    (hs.deeds hforget) hlt
  have hwipe : w₁.book = w.book.turn (.wipes s) := book_onSystem_eq fun _ => rfl
  refine ⟨us, ?_, hopens.back (fun b hb hopen => ⟨hb, hopen⟩) fun _ => rfl⟩
  rw [Book.turns_append]
  exact hbook.trans (congrArg _ hwipe)

@[simp] theorem tasks_stopPools (pools : List PoolId) (w : World) :
    (w.stopPools pools).tasks = w.tasks := by
  induction pools generalizing w with
  | nil => rfl
  | cons p pools ih => exact ih _

section Terminations

variable {t : TaskId} {h : HandleId} {s : SystemId} {stage : Stage}

theorem removes?_of_termination (ht : w.task? t = some (.termination h s stage)) :
    w.action? (.task t) = none ∧ w.removes? (.move (.task t)) = none := by
  have hnone : w.action? (.task t) = none := by simp [action?, ht, Task.course?]
  exact ⟨hnone, by simp only [removes?, hnone]⟩

/-- What a termination waits for. -/
theorem waits_of_termination (ht : w.task? t = some (.termination h s stage)) :
    w.waits (.task t) = (Task.termination h s stage).waits := by
  rw [waits, ht]
  rfl

/-- A termination begins. -/
theorem conduct_beginTermination (hs : w.scene.Sound)
    (ht : w.task? t = some (.termination h s .starting))
    (hterm : (w.system s).terminated ≠ true)
    (hnext : w.next (.move (.task t)) = ((w.beginTermination s).2.setTask t
      (.termination h s (.closing (w.beginTermination s).1))).release) :
    ∃ ts, w.Conduct (.move (.task t)) ts ∧ w.Shows (.move (.task t)) ts := by
  have hidle := waits_of_termination ht
  obtain ⟨us, hbook, hopens⟩ := book_beginTermination hs s
  obtain ⟨ms, d, hms, _⟩ := deeds_beginTermination hs s
  have ht₁ : (w.beginTermination s).2.task? t = some (.termination h s .starting) :=
    d.lookup_eq (fun hm => by obtain ⟨a, ha⟩ := hms _ hm; cases ha) ht
  have hprelude : w.Prelude (.move (.task t)) [.wipes s] :=
    .wipes rfl (removes?_of_termination ht).2 (by simp [terminates?, ht, hterm])
  refine ⟨[Turn.wipes s] ++ us, .begins hprelude rfl hidle ?_ (waits_others hs hidle (by simp)),
    shows_of_release hnext hbook⟩
  rw [hnext, waits_release, waits_setTask ht₁]
  exact hopens

/-- A termination completes one of its closes. -/
theorem conduct_closing (hs : w.scene.Sound) {pending : List Wait} {x : Wait}
    (ht : w.task? t = some (.termination h s (.closing pending))) (hx : x ∈ pending)
    (hnext : w.next (.move (.task t)) = ((w.endWait x).setTask t
      (.termination h s (.closing (pending.filter (·.order != x.order))))).release) :
    ∃ ts, w.Conduct (.move (.task t)) ts ∧ w.Shows (.move (.task t)) ts := by
  have hmine := waits_of_termination ht
  have hxw : x ∈ w.waits (.task t) := by
    rw [hmine]
    exact hx
  obtain ⟨hclosed, _⟩ := closed_of_waits hs hxw
  obtain ⟨ms, d, hms⟩ := deeds_endWait hclosed
  have ht₁ : (w.endWait x).task? t = some (.termination h s (.closing pending)) :=
    d.lookup_eq (fun hm => by cases hms _ hm) ht
  have hprelude := prelude_of_move (removes?_of_termination ht).1 (by simp [terminates?, ht])
  refine ⟨[.leaves x.actor], .completes hprelude rfl hxw ?_ (fun m' hm' hrun => ?_) ?_ (by simp),
    shows_of_release hnext (book_endWait ..)⟩
  · rw [hnext, waits_release, waits_setTask ht₁, hmine]
    rfl
  · cases m' with
    | runLoop b =>
      -- Only the loop that was waited for has ended.
      have hsame : (w.endWait x).waits (.runLoop b) = w.waits (.runLoop b) := by
        refine waits_of_deeds d (fun y hy c hc hloop => ?_) (by simp)
        cases hc
        rw [hms y hy] at hloop
        exact hrun (congrArg Mover.runLoop (Option.some.inj hloop).symm)
      rw [hnext, waits_release]
      exact hsame
    | task u => exact waits_next hs (fun h => hm' (Act.move.inj h).symm) (by simp) (by simp)
    | worker _ _ | grace _ => rfl
  · rw [hnext, loop_release]
    exact loop_endWait hclosed

/-- **A termination.** -/
theorem conduct_stepTermination (hs : w.scene.Sound)
    (ht : w.task? t = some (.termination h s stage)) (hstep : w.TerminationSteps t h s stage w')
    (hnext : w.next (.move (.task t)) = w'.release) :
    ∃ ts, w.Conduct (.move (.task t)) ts ∧ w.Shows (.move (.task t)) ts := by
  have hmine := waits_of_termination ht
  have hprelude : w.terminates? (.move (.task t)) = none → w.Prelude (.move (.task t)) [] :=
    prelude_of_move (removes?_of_termination ht).1
  cases hstep with
  | tooLate hterm =>
    exact conduct_silent hs hnext ((discreet_report ..).trans <| (discreet_resolve ..).trans <|
      discreet_endTask ..) (hprelude (by simp [terminates?, ht, hterm])) hmine
      (waits_endTask ..) (by simp)
  | begins hterm => exact conduct_beginTermination hs ht (by simp [hterm]) hnext
  | stopsPools =>
    have ht₁ : (w.stopPools (w.system s).pools).task? t =
        some (.termination h s (.closing [])) := by
      rw [task?, tasks_stopPools]
      exact ht
    exact conduct_silent hs hnext ((discreet_stopPools ..).trans (discreet_setTask ..))
      (hprelude (by simp [terminates?, ht])) hmine (waits_setTask ht₁ _) (by simp)
  | completes hx => exact conduct_closing hs ht (List.mem_of_find?_eq_some hx) hnext
  | drains _ =>
    exact conduct_silent hs hnext (discreet_setTask ..) (hprelude (by simp [terminates?, ht]))
      hmine (waits_setTask ht _) (by simp)
  | ends =>
    exact conduct_silent hs hnext ((discreet_report ..).trans <| (discreet_resolve ..).trans <|
      discreet_endTask ..) (hprelude (by simp [terminates?, ht])) hmine (waits_endTask ..)
      (by simp)

end Terminations

/-- **A task.** -/
theorem conduct_stepTask (hs : w.scene.Sound) {t : TaskId} (h : w.stepTask t = some w') :
    ∃ ts, w.Conduct (.move (.task t)) ts ∧ w.Shows (.move (.task t)) ts := by
  have hnext := next_of_stepTask h
  cases steps_of_stepTask h with
  | bypassGoesOn ht hc | bypassEnds ht hc | errandGoesOn ht hc | errandEnds ht hc =>
    exact conduct_course hs (by simp [course?, ht]) hc
  | replies ht _ =>
    refine conduct_silent hs hnext ((discreet_resolve ..).trans (discreet_endTask ..))
      (prelude_of_move ?_ ?_) ?_ ?_ (by simp)
    · simp [action?, ht, Task.course?]
    · simp [terminates?, ht]
    · rw [waits, ht]
      rfl
    · rw [waits, task?_endTask]
      rfl
  | terminates ht hw => exact conduct_stepTermination hs ht hw hnext

/-- **The end of a grace period.** -/
theorem conduct_expireGrace (hs : w.scene.Sound) {t : TaskId} (h : w.expireGrace t = some w') :
    ∃ ts, w.Conduct (.move (.grace t)) ts ∧ w.Shows (.move (.grace t)) ts := by
  have hnext : w.next (.move (.grace t)) = w'.release := next_of_step (by simp [step, h])
  simp only [expireGrace] at h
  split at h
  · rename_i hd s p pools ht
    split at h
    · cases h
    · cases h
      refine ⟨[], .quiet (prelude_of_move rfl rfl) fun m => ?_,
        shows_of_release hnext ((discreet_emptyPool ..).trans <|
          (discreet_report ..).trans <| discreet_setTask ..).book⟩
      have hempty : Deeds [] w.scene (w.emptyPool p).2.scene := by
        rw [scene_emptyPool]
        exact (Deed.pool p .shutdownNow).deeds
      have ht₁ : (w.emptyPool p).2.task? t = some (.termination hd s (.draining (p :: pools))) :=
        hempty.lookup_eq (by simp) ht
      cases m with
      | runLoop a =>
        refine waits_next hs (by simp) (by simp) ?_
        rintro b m' x - hact hx
        cases hact
        cases hx
      | task u =>
        by_cases hu : u = t
        · subst hu
          rw [hnext, waits_release, waits, task?_setTask (w := report _ _) ht₁, waits, ht]
          rfl
        · refine waits_next hs (by simp) (fun v hv hact => ?_) (by simp)
          cases hact
          exact hu (Mover.task.inj hv)
      | worker _ _ | grace _ => rfl
  · cases h

/-! ### All acts -/

/-- **Whatever happens** is one of the conducts, and shows in the book. -/
theorem conduct_next (hs : w.scene.Sound) (act : Act) :
    ∃ ts, w.Conduct act ts ∧ w.Shows act ts := by
  cases act with
  | observe => exact ⟨[], .quiet (.nothing rfl rfl rfl) fun m => by cases m <;> rfl,
      .refl _⟩
  | call c =>
    cases hanswer : w.answer c with
    | error reason =>
      have hnext := next_of_unknown hanswer
      refine ⟨[], .quiet (.nothing (registers?_of_error hanswer) rfl rfl) fun m => by rw [hnext],
        ?_⟩
      rw [Shows, hnext]
      exact .refl _
    | ok x =>
      obtain ⟨r, w'⟩ := x
      have hnext := next_of_answer hanswer
      obtain ⟨ts, hbook, hts⟩ := registers_answer hs (replies_of_answer hanswer)
      exact ⟨ts, .quiet hts fun m => waits_next hs (by simp) (by simp) (by simp),
        shows_of_release hnext hbook⟩
  | move m =>
    cases hstep : w.step m with
    | none =>
      have hnext := next_of_stuck hstep
      refine ⟨[], .quiet (prelude_of_stuck hstep) fun m => by rw [hnext], ?_⟩
      rw [Shows, hnext]
      exact .refl _
    | some w' =>
      cases m with
      | runLoop a =>
        obtain ⟨_, hloop, _⟩ := Option.map_eq_some_iff.mp hstep
        exact conduct_stepLoop hs hloop
      | task t =>
        obtain ⟨_, htask, _⟩ := Option.map_eq_some_iff.mp hstep
        exact conduct_stepTask hs htask
      | worker p place =>
        obtain ⟨_, hworker, rfl⟩ := Option.map_eq_some_iff.mp hstep
        exact conduct_silent hs (next_of_step hstep) (discreet_stepWorker hworker)
          (prelude_of_move rfl rfl) rfl rfl (by simp)
      | grace t =>
        obtain ⟨_, hgrace, _⟩ := Option.map_eq_some_iff.mp hstep
        exact conduct_expireGrace hs hgrace

end World

end Troupe
