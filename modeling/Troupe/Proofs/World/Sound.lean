import Troupe.Proofs.World.Scene

/-!
# Sound scenes

A handle is unresolved exactly while one envelope, one run loop or one task is to resolve it. That
is the account of the handles, and everything that is said later about who is told what rests on
it. Around it stand facts of two kinds: the handles of a lane are in the order in which they were
made, and what is closed or let go stays so.

## Main definitions

* `Scene.Accounts` — each unresolved handle has one holder, and no other handle has any
* `Scene.Sound` — the invariant of all scenes

## Main results

* `Scene.Sound.blank` — the scene of a new world is sound
* `Scene.Sound.deed`, `Scene.Sound.deeds` — deeds keep a scene sound
-/

namespace Troupe

/-- Whether the producer is still at work. -/
def Content.isEmpty {α : Type} : Content α → Bool
  | .empty => true
  | _ => false

theorem Content.isEmpty_iff {α : Type} {c : Content α} : c.isEmpty = true ↔ c = .empty := by
  cases c <;> simp [isEmpty]

@[simp] theorem Content.isEmpty_drain {α : Type} (c : Content α) : c.drain.isEmpty = c.isEmpty := by
  cases c <;> rfl

namespace Scene

variable {s t : Scene} {ms : List Mark}

/-! ### Accounts -/

/-- Each unresolved handle has one holder, and no other handle has any. -/
def Accounts (s : Scene) : Prop :=
  ∀ h, s.holders.count h = if (s.content h).isEmpty then 1 else 0

theorem Accounts.mem_holders (hs : s.Accounts) {h : HandleId} :
    h ∈ s.holders ↔ s.content h = .empty := by
  have hcount := hs h
  rw [← Content.isEmpty_iff, ← List.count_pos_iff, hcount]
  split <;> simp_all

theorem Accounts.congr (hs : s.Accounts)
    (hcount : ∀ h, t.holders.count h = s.holders.count h)
    (hcontent : ∀ h, (t.content h).isEmpty = (s.content h).isEmpty) : t.Accounts := by
  intro h
  rw [hcount, hcontent]
  exact hs h

/-- A new holder for a new handle. -/
theorem Accounts.grow (hs : s.Accounts)
    (hcount : ∀ h, t.holders.count h = s.holders.count h + [s.contents.length].count h)
    (hcontent : ∀ h, t.content h = (s.grow .empty).content h) : t.Accounts := by
  intro h
  rw [hcount, hcontent, content_grow, hs h]
  by_cases hh : h = s.contents.length
  · subst hh
    simp [content_of_le, Content.isEmpty]
  · have hzero : [s.contents.length].count h = 0 :=
      List.count_eq_zero_of_not_mem (by simpa using hh)
    rw [if_neg hh, hzero, Nat.add_zero]

/-- Holders go when their handles are resolved. -/
theorem Accounts.settle (hs : s.Accounts) {hs' : List HandleId}
    {c : Content (Except ActorError Json)} (hc : c ≠ .empty)
    (hcount : ∀ h, t.holders.count h + hs'.count h = s.holders.count h)
    (hcontent : ∀ h, t.content h = (s.settleAll hs' c).content h) : t.Accounts := by
  intro h
  rw [hcontent, content_settleAll]
  have hcount := hcount h
  rw [hs h] at hcount
  by_cases hh : h ∈ hs'
  · have hpos := List.count_pos_iff.mpr hh
    have hempty : (s.content h).isEmpty = true := by
      by_contra hne
      rw [if_neg hne] at hcount
      omega
    rw [if_pos hempty] at hcount
    rw [if_pos hh, Content.isEmpty_iff.mp hempty, Content.settle_empty,
      if_neg (mt Content.isEmpty_iff.mp hc)]
    omega
  · rw [List.count_eq_zero_of_not_mem hh, Nat.add_zero] at hcount
    rw [if_neg hh, hcount]

/-! ### Holders -/

theorem count_holders (s : Scene) (h : HandleId) :
    s.holders.count h =
      (s.lanes.flatMap Lane.handles).count h + (s.tasks.map fun x => x.2.handle).count h := by
  rw [holders, List.count_append]

/-- What a change of one lane does to the handles of all lanes. -/
theorem count_handles_modify {lanes : List Lane} {a : ActorId} (ha : a < lanes.length)
    (f : Lane → Lane) (h : HandleId) :
    ((lanes.modify a f).flatMap Lane.handles).count h + lanes[a].handles.count h =
      (lanes.flatMap Lane.handles).count h + (f lanes[a]).handles.count h := by
  have hold : lanes = lanes.take a ++ lanes[a] :: lanes.drop (a + 1) := by
    rw [List.getElem_cons_drop, List.take_append_drop]
  have hnew : lanes.modify a f = lanes.take a ++ f lanes[a] :: lanes.drop (a + 1) := by
    rw [List.modify_eq_set, List.set_eq_take_append_cons_drop, if_pos ha]
    simp [ha]
  rw [hnew]
  conv => rhs; arg 1; rw [hold]
  simp only [List.flatMap_append, List.flatMap_cons, List.count_append]
  omega

theorem lane_eq_getElem {a : ActorId} (ha : a < s.lanes.length) : s.lane a = s.lanes[a] := by
  simp [lane, ha]

theorem mem_holders_of_lane {a : ActorId} {h : HandleId} (hh : h ∈ (s.lane a).handles) :
    h ∈ s.holders := by
  by_cases ha : a < s.lanes.length
  · rw [lane_eq_getElem ha] at hh
    exact List.mem_append_left _ (List.mem_flatMap.mpr ⟨_, List.getElem_mem ha, hh⟩)
  · rw [lane_of_le (Nat.le_of_not_lt ha)] at hh
    cases hh

theorem mem_holders_of_task {x : TaskId × Task} (hx : x ∈ s.tasks) : x.2.handle ∈ s.holders :=
  List.mem_append_right _ (List.mem_map_of_mem hx)

/-! ### Tasks -/

theorem mem_of_lookup {tasks : List (TaskId × Task)} {i : TaskId} {t : Task}
    (h : tasks.lookup i = some t) : (i, t) ∈ tasks := by
  obtain ⟨l, r, rfl, _⟩ := List.lookup_eq_some_iff.mp h
  simp

/-- A task that is found by its number stands alone under it. -/
theorem split_of_lookup {tasks : List (TaskId × Task)} {i : TaskId} {t : Task}
    (h : tasks.lookup i = some t) (hn : (tasks.map (·.1)).Nodup) :
    ∃ l r, tasks = l ++ (i, t) :: r ∧ (∀ x ∈ l, x.1 ≠ i) ∧ ∀ x ∈ r, x.1 ≠ i := by
  obtain ⟨l, r, rfl, hl⟩ := List.lookup_eq_some_iff.mp h
  refine ⟨l, r, rfl, fun x hx => ?_, fun x hx heq => ?_⟩
  · have := hl x hx
    simp_all [Ne.symm]
  · rw [List.map_append, List.map_cons, List.nodup_append] at hn
    have hnot := (List.nodup_cons.mp hn.2.1).1
    exact hnot (List.mem_map.mpr ⟨x, hx, heq⟩)

/-! ### The invariant -/

/-- What holds of all scenes. -/
structure Sound (s : Scene) : Prop where
  /-- Each unresolved handle has one holder, and no other handle has any. -/
  accounts : s.Accounts
  /-- The handles of a lane are in the order in which they were made. -/
  sorted : ∀ a, (s.lane a).handles.Pairwise (· < ·)
  /-- The mailbox of an actor takes nothing more exactly if the actor is closed. -/
  shut : ∀ a, (s.lane a).shut = (s.lane a).closed
  /-- Nothing waits for a closed actor. -/
  emptied : ∀ a, (s.lane a).closed = true → (s.lane a).queue = []
  /-- Run loops wait for other closed actors only. -/
  waits : ∀ a wait, (s.lane a).wait? = some wait →
    (s.lane wait.actor).closed = true ∧ wait.actor ≠ a
  /-- Tasks wait for closed actors only. -/
  taskWaits : ∀ x ∈ s.tasks, ∀ wait ∈ x.2.waits, (s.lane wait.actor).closed = true
  /-- The numbers of tasks differ. -/
  tasks_nodup : (s.tasks.map (·.1)).Nodup
  /-- The numbers of tasks are below the next one. -/
  tasks_lt : ∀ x ∈ s.tasks, x.1 < s.taskCount
  /-- Who is held is there. -/
  held_lt : ∀ a ∈ s.held, a < s.lanes.length
  /-- A pool that is held is there. -/
  wells_lt : ∀ p ∈ s.wells, p < s.pools.length
  /-- Nobody holds an actor that is told to stop but not closed. -/
  letGo : ∀ a, (s.lane a).stopping = true → (s.lane a).closed = false → ¬s.Holds a
  /-- Runs lead to the pools. -/
  pools : ∀ p ∈ s.pools, p.Reachable

/-- The scene of a new world. -/
def blank : Scene where
  lanes := []
  contents := []
  tasks := []
  taskCount := 0
  pools := []
  held := []
  wells := []

theorem Sound.blank : Scene.blank.Sound := by
  refine ⟨fun h => ?_, fun a => ?_, fun a => rfl, fun a ha => ?_, fun a wait hw => ?_, ?_, ?_, ?_,
    ?_, ?_, fun a ha => ?_, ?_⟩
  · simp [holders, content, Scene.blank, Content.isEmpty]
  · exact .nil
  all_goals first | cases ha | cases hw | simp [Scene.blank]

/-- What is in a lane is unresolved. -/
theorem Sound.content_of_handles (hs : s.Sound) {a : ActorId} {h : HandleId}
    (hh : h ∈ (s.lane a).handles) : s.content h = .empty :=
  hs.accounts.mem_holders.mp (mem_holders_of_lane hh)

theorem Sound.lt_of_handles (hs : s.Sound) {a : ActorId} {h : HandleId}
    (hh : h ∈ (s.lane a).handles) : h < s.contents.length :=
  lt_of_content_empty (hs.content_of_handles hh)

theorem lt_of_closed {a : ActorId} (h : (s.lane a).closed = true) : a < s.lanes.length := by
  rcases Nat.lt_or_ge a s.lanes.length with hlt | hge
  · exact hlt
  · rw [lane_of_le hge] at h
    cases h

theorem lt_of_loop {a : ActorId} (h : (s.lane a).loop ≠ .starting) : a < s.lanes.length := by
  rcases Nat.lt_or_ge a s.lanes.length with hlt | hge
  · exact hlt
  · rw [lane_of_le hge] at h
    exact absurd rfl h

/-! ### Deeds on lanes -/

/-- One lane changes, and maybe contents do. -/
structure Reworks (s : Scene) (a : ActorId) (f : Lane → Lane) (t : Scene) : Prop where
  /-- The lane changes. -/
  lanes : t.lanes = s.lanes.modify a f
  /-- No task changes. -/
  tasks : t.tasks = s.tasks
  /-- No task is new. -/
  taskCount : t.taskCount = s.taskCount
  /-- No pool changes. -/
  pools : t.pools = s.pools
  /-- The same actors are held. -/
  held : t.held = s.held
  /-- The same pools are held. -/
  wells : t.wells = s.wells

variable {a : ActorId} {f : Lane → Lane}

theorem Reworks.lane (ht : Reworks s a f t) (b : ActorId) :
    t.lane b = if b = a ∧ a < s.lanes.length then f (s.lane a) else s.lane b := by
  rw [← lane_onLane, Scene.lane, Scene.lane, ht.lanes, onLane]

theorem Reworks.count_holders (ht : Reworks s a f t) (ha : a < s.lanes.length) (h : HandleId) :
    t.holders.count h + (s.lane a).handles.count h =
      s.holders.count h + (f (s.lane a)).handles.count h := by
  have := count_handles_modify ha f h
  rw [Scene.count_holders, Scene.count_holders, ht.lanes, ht.tasks, lane_eq_getElem ha]
  omega

/-- A lane that may take the place of another one. -/
structure Fits (s : Scene) (a : ActorId) (l : Lane) : Prop where
  /-- Its mailbox takes nothing more exactly if it is closed. -/
  shut : l.shut = l.closed
  /-- What is closed stays closed. -/
  closed : (s.lane a).closed = true → l.closed = true
  /-- Nothing waits once it is closed. -/
  emptied : l.closed = true → l.queue = []
  /-- It waits for other closed actors only. -/
  waits : ∀ wait, l.wait? = some wait → (s.lane wait.actor).closed = true ∧ wait.actor ≠ a
  /-- It is told to stop only with a close. -/
  stop : l.stopping = true → l.closed = false →
    (s.lane a).stopping = true ∧ (s.lane a).closed = false

theorem Sound.fits (hs : s.Sound) (a : ActorId) : s.Fits a (s.lane a) :=
  ⟨hs.shut a, fun h => h, hs.emptied a, hs.waits a, fun h₁ h₂ => ⟨h₁, h₂⟩⟩

/-- A change of one lane keeps a scene sound. -/
theorem Sound.rework (hs : s.Sound) (ht : Reworks s a f t) (hl : s.Fits a (f (s.lane a)))
    (hsorted : (f (s.lane a)).handles.Pairwise (· < ·)) (hacc : t.Accounts) : t.Sound := by
  have closed : ∀ b, (s.lane b).closed = true → (t.lane b).closed = true := by
    intro b hb
    rw [ht.lane]
    split
    · rename_i hab
      exact hl.closed (hab.1 ▸ hb)
    · exact hb
  have holds : ∀ b, t.Holds b → s.Holds b := by
    intro b hb
    rwa [Holds, ht.held, ht.tasks] at hb
  refine ⟨hacc, fun b => ?_, fun b => ?_, fun b => ?_, fun b wait => ?_, ?_, ?_, ?_, ?_, ?_,
    fun b => ?_, ?_⟩
  · rw [ht.lane]
    split
    · exact hsorted
    · exact hs.sorted b
  · rw [ht.lane]
    split
    · exact hl.shut
    · exact hs.shut b
  · rw [ht.lane]
    split
    · exact hl.emptied
    · exact hs.emptied b
  · rw [ht.lane b]
    split
    · rename_i hab
      intro hw
      obtain ⟨hc, hne⟩ := hl.waits wait hw
      exact ⟨closed _ hc, hab.1 ▸ hne⟩
    · intro hw
      obtain ⟨hc, hne⟩ := hs.waits b wait hw
      exact ⟨closed _ hc, hne⟩
  · rw [ht.tasks]
    exact fun x hx wait hw => closed _ (hs.taskWaits x hx wait hw)
  · rw [ht.tasks]
    exact hs.tasks_nodup
  · rw [ht.tasks, ht.taskCount]
    exact hs.tasks_lt
  · rw [ht.held, ht.lanes, List.length_modify]
    exact hs.held_lt
  · rw [ht.wells, ht.pools]
    exact hs.wells_lt
  · rw [ht.lane]
    split
    · rename_i hab
      intro h₁ h₂ hb
      obtain ⟨h₁, h₂⟩ := hl.stop h₁ h₂
      exact hs.letGo a h₁ h₂ (hab.1 ▸ holds b hb)
    · exact fun h₁ h₂ hb => hs.letGo b h₁ h₂ (holds b hb)
  · rw [ht.pools]
    exact hs.pools

/-- A change of one lane that resolves nothing. -/
theorem Sound.onLane (hs : s.Sound) (hl : s.Fits a (f (s.lane a)))
    (hhandles : (f (s.lane a)).handles = (s.lane a).handles) : (s.onLane a f).Sound := by
  have ht : Reworks s a f (s.onLane a f) := ⟨rfl, rfl, rfl, rfl, rfl, rfl⟩
  refine hs.rework ht hl (hhandles ▸ hs.sorted a) (hs.accounts.congr (fun h => ?_) fun h => rfl)
  rcases Nat.lt_or_ge a s.lanes.length with ha | ha
  · have := ht.count_holders ha h
    rw [hhandles] at this
    omega
  · rw [Scene.onLane, List.modify_eq_self ha]

/-- A change of one lane that resolves some of its handles. -/
theorem Sound.resolve (hs : s.Sound) {hs' : List HandleId} {c : Content (Except ActorError Json)}
    (ht : Reworks s a f t) (hl : s.Fits a (f (s.lane a)))
    (hsub : (f (s.lane a)).handles.Sublist (s.lane a).handles)
    (hcount : ∀ h, (f (s.lane a)).handles.count h + hs'.count h = (s.lane a).handles.count h)
    (hc : c ≠ .empty) (hcontent : ∀ h, t.content h = (s.settleAll hs' c).content h) :
    t.Sound := by
  refine hs.rework ht hl ((hs.sorted a).sublist hsub)
    (hs.accounts.settle hc (fun h => ?_) hcontent)
  rcases Nat.lt_or_ge a s.lanes.length with ha | ha
  · have := ht.count_holders ha h
    have := hcount h
    omega
  · -- There is no such actor, so nothing changes.
    have hzero := hcount h
    have hnone : (s.lane a).handles = [] := by rw [lane_of_le ha]; rfl
    rw [hnone, List.count_nil] at hzero
    rw [holders, holders, ht.lanes, ht.tasks, List.modify_eq_self ha]
    omega

theorem reworks_settleAll (s : Scene) (a : ActorId) (f : Lane → Lane) (hs : List HandleId)
    (c : Content (Except ActorError Json)) : Reworks s a f ((s.onLane a f).settleAll hs c) := by
  obtain ⟨h₁, h₂, h₃, h₄, h₅, h₆⟩ := settleAll_frame (s := s.onLane a f) hs c
  exact ⟨h₁, h₂, h₃, h₄, h₅, h₆⟩

theorem content_onLane_settleAll (s : Scene) (a : ActorId) (f : Lane → Lane) (hs : List HandleId)
    (c : Content (Except ActorError Json)) (h : HandleId) :
    ((s.onLane a f).settleAll hs c).content h = (s.settleAll hs c).content h := by
  rw [content_settleAll, content_settleAll]
  rfl

theorem count_map_filter_add (l : List Envelope) (h : HandleId) :
    ((l.filter (·.isRelay)).map Envelope.handle).count h +
      ((l.filter (!·.isRelay)).map Envelope.handle).count h =
        (l.map Envelope.handle).count h := by
  induction l with
  | nil => rfl
  | cons e l ih =>
    cases he : e.isRelay <;> simp only [List.filter_cons, he, Bool.not_true, Bool.not_false,
      Bool.false_eq_true, if_true, if_false, List.map_cons, List.count_cons] <;> omega

theorem Sound.clear (hs : s.Sound) (a : ActorId) :
    ((s.onLane a fun l => { l with queue := l.queue.filter (·.isRelay) }).settleAll
      (((s.lane a).queue.filter (!·.isRelay)).map Envelope.handle) .lost).Sound := by
  refine hs.resolve (reworks_settleAll ..) ?_ ?_ (fun h => ?_) (by simp)
    fun h => content_onLane_settleAll ..
  · have base := hs.fits a
    exact ⟨base.shut, base.closed, fun hc => by simp [base.emptied hc], base.waits, base.stop⟩
  · exact (List.Sublist.refl _).append ((List.filter_sublist).map _)
  · have := count_map_filter_add (s.lane a).queue h
    simp only [Lane.handles, Lane.current, Lane.waiting, List.count_append]
    omega

theorem Sound.close (hs : s.Sound) (a : ActorId) :
    ((s.onLane a fun l =>
      { l with queue := [], shut := true, closed := true, stopping := true }).settleAll
        (s.lane a).waiting .lost).Sound := by
  refine hs.resolve (reworks_settleAll ..) ?_ ?_ (fun h => ?_) (by simp)
    fun h => content_onLane_settleAll ..
  · exact ⟨rfl, fun _ => rfl, fun _ => rfl, (hs.fits a).waits, fun _ hc => by cases hc⟩
  · exact (List.Sublist.refl _).append (List.nil_sublist _)
  · simp [Lane.handles, Lane.current, Lane.waiting]

theorem Sound.abort (hs : s.Sound) (a : ActorId) :
    ((s.onLane a fun l => { l with loop := .ended }).settleAll (s.lane a).current .lost).Sound := by
  refine hs.resolve (reworks_settleAll ..) ?_ ?_ (fun h => ?_) (by simp)
    fun h => content_onLane_settleAll ..
  · have base := hs.fits a
    exact ⟨base.shut, base.closed, base.emptied, fun wait hw => (by cases hw), base.stop⟩
  · exact List.sublist_append_right _ _
  · simp only [Lane.handles, Lane.current, Lane.waiting, List.count_append]
    simp [Nat.add_comm]

theorem Sound.quit (hs : s.Sound) {a : ActorId} (hloop : (s.lane a).loop = .idle) :
    ((s.onLane a fun l => { l with queue := [], loop := .ended }).settleAll
      (s.lane a).waiting .lost).Sound := by
  refine hs.resolve (reworks_settleAll ..) ?_ (List.nil_sublist _) (fun h => ?_) (by simp)
    fun h => content_onLane_settleAll ..
  · have base := hs.fits a
    exact ⟨base.shut, base.closed, fun _ => rfl, fun wait hw => (by cases hw), base.stop⟩
  · simp [Lane.handles, Lane.current, Lane.waiting, hloop]

theorem Sound.start (hs : s.Sound) {a : ActorId} (hloop : (s.lane a).loop = .starting) :
    (s.onLane a fun l => { l with loop := .idle }).Sound := by
  refine hs.onLane ?_ (by simp [Lane.handles, Lane.current, Lane.waiting, hloop])
  have base := hs.fits a
  exact ⟨base.shut, base.closed, base.emptied, fun wait hw => (by cases hw), base.stop⟩

theorem Sound.enter (hs : s.Sound) {a : ActorId} {e : Envelope} {queue : List Envelope}
    (hloop : (s.lane a).loop = .idle) (hqueue : (s.lane a).queue = e :: queue) :
    (s.onLane a fun l => { l with queue, loop := .inside e.inside }).Sound := by
  refine hs.onLane ?_ (by simp [Lane.handles, Lane.current, Lane.waiting, hloop, hqueue])
  have base := hs.fits a
  refine ⟨base.shut, base.closed, fun hc => ?_, fun wait hw => ?_, base.stop⟩
  · have := base.emptied hc
    rw [hqueue] at this
    cases this
  · cases e <;> cases hw

theorem Sound.proceed (hs : s.Sound) {a : ActorId} {h : HandleId} {c c' : Course}
    (hloop : (s.lane a).loop = .inside (.operation h c))
    (hwait : ∀ wait, c'.wait = some wait → (s.lane wait.actor).closed = true ∧ wait.actor ≠ a) :
    (s.onLane a fun l => { l with loop := .inside (.operation h c') }).Sound := by
  refine hs.onLane ?_ (by simp [Lane.handles, Lane.current, Lane.waiting, hloop, Inside.handle])
  have base := hs.fits a
  exact ⟨base.shut, base.closed, base.emptied, hwait, base.stop⟩

theorem Sound.finish (hs : s.Sound) {a : ActorId} {i : Inside}
    (hloop : (s.lane a).loop = .inside i) (o : Except ActorError Json) :
    ((s.settleAll [i.handle] (.full o)).onLane a fun l => { l with loop := .idle }).Sound := by
  have ht : Reworks s a (fun l => { l with loop := .idle })
      ((s.settleAll [i.handle] (.full o)).onLane a fun l => { l with loop := .idle }) := by
    obtain ⟨h₁, h₂, h₃, h₄, h₅, h₆⟩ := settleAll_frame (s := s) [i.handle] (.full o)
    exact ⟨congrArg (List.modify · a _) h₁, h₂, h₃, h₄, h₅, h₆⟩
  refine hs.resolve ht ?_ ?_ (fun h => ?_) (by simp) fun h => rfl
  · have base := hs.fits a
    exact ⟨base.shut, base.closed, base.emptied, fun wait hw => (by cases hw), base.stop⟩
  · exact List.sublist_append_right _ _
  · simp only [Lane.handles, Lane.current, Lane.waiting, hloop, List.count_append, List.count_nil]
    omega

theorem Sound.remember (hs : s.Sound) (a : ActorId) (p : PoolId) :
    (s.onLane a (·.remember p)).Sound := by
  have base := hs.fits a
  refine hs.onLane ?_ (by rw [Lane.remember_eq]; rfl)
  rw [Lane.remember_eq]
  exact ⟨base.shut, base.closed, base.emptied, base.waits, base.stop⟩

theorem Sound.accept (hs : s.Sound) {a : ActorId} {e : Envelope} (ha : a < s.lanes.length)
    (hopen : (s.lane a).closed = false) (he : e.handle = s.contents.length) :
    ((s.grow .empty).onLane a fun l => { l with queue := l.queue ++ [e] }).Sound := by
  have ht : Reworks s a (fun l => { l with queue := l.queue ++ [e] })
      ((s.grow .empty).onLane a fun l => { l with queue := l.queue ++ [e] }) :=
    ⟨rfl, rfl, rfl, rfl, rfl, rfl⟩
  have hhandles : ({ s.lane a with queue := (s.lane a).queue ++ [e] } : Lane).handles =
      (s.lane a).handles ++ [s.contents.length] := by
    simp [Lane.handles, Lane.current, Lane.waiting, he]
  refine hs.rework ht ?_ ?_ (hs.accounts.grow (fun h => ?_) fun h => rfl)
  · have base := hs.fits a
    exact ⟨base.shut, base.closed, fun hc => absurd hc (by simp [hopen]), base.waits,
      base.stop⟩
  · rw [hhandles, List.pairwise_append]
    refine ⟨hs.sorted a, List.pairwise_singleton .., fun h hh k hk => ?_⟩
    rw [List.mem_singleton.mp hk]
    exact hs.lt_of_handles hh
  · have := ht.count_holders ha h
    rw [hhandles, List.count_append] at this
    omega

/-! ### Deeds elsewhere -/

theorem Sound.roster (hs : s.Sound) {held : List ActorId} {wells : List PoolId}
    (hheld : ∀ a ∈ held, a ∈ s.held ∨ a < s.lanes.length ∧ (s.lane a).stopping = false)
    (hwells : ∀ p ∈ wells, p ∈ s.wells ∨ p < s.pools.length) :
    ({ s with held, wells } : Scene).Sound := by
  refine ⟨hs.accounts, hs.sorted, hs.shut, hs.emptied, hs.waits, hs.taskWaits, hs.tasks_nodup,
    hs.tasks_lt, fun a ha => ?_, fun p hp => ?_, fun a hstop hopen hholds => ?_, hs.pools⟩
  · exact (hheld a ha).elim (hs.held_lt a) And.left
  · exact (hwells p hp).elim (hs.wells_lt p) id
  · have hstop' : (s.lane a).stopping = true := hstop
    refine hs.letGo a hstop hopen (hholds.imp (fun ha => ?_) id)
    exact (hheld a ha).elim id fun h => absurd hstop' (by simp [h.2])

theorem Sound.enroll (hs : s.Sound) {l : Lane} (hl : l.IsNew) :
    ({ s with lanes := s.lanes ++ [l] } : Scene).Sound := by
  -- The new lane is in the same shape as one that is not there.
  have lane : ∀ a, ({ s with lanes := s.lanes ++ [l] } : Scene).lane a =
      if a = s.lanes.length then l else s.lane a := by
    intro a
    rw [Scene.lane, List.getElem?_append]
    rcases Nat.lt_trichotomy a s.lanes.length with hlt | rfl | hgt
    · simp [hlt, Nat.ne_of_lt hlt, Scene.lane]
    · simp
    · have hsub : a - s.lanes.length ≠ 0 := Nat.sub_ne_zero_of_lt hgt
      simp [Nat.not_lt_of_gt hgt, Nat.ne_of_gt hgt, hsub, lane_of_le (Nat.le_of_lt hgt)]
  have hnone : l.handles = [] := by
    simp [Lane.handles, Lane.current, Lane.waiting, hl.loop, hl.queue]
  have closed : ∀ a, (s.lane a).closed = true →
      (({ s with lanes := s.lanes ++ [l] } : Scene).lane a).closed = true := by
    intro a ha
    rwa [lane, if_neg (Nat.ne_of_lt (lt_of_closed ha))]
  refine ⟨hs.accounts.congr (fun h => ?_) fun h => rfl, fun a => ?_, fun a => ?_, fun a => ?_,
    fun a wait => ?_, fun x hx wait hw => closed _ (hs.taskWaits x hx wait hw), hs.tasks_nodup,
    hs.tasks_lt, fun a ha => ?_, hs.wells_lt, fun a => ?_, hs.pools⟩
  · simp [holders, hnone]
  · rw [lane]
    split
    · rw [hnone]
      exact .nil
    · exact hs.sorted a
  · rw [lane]
    split
    · rw [hl.shut, hl.closed]
    · exact hs.shut a
  · rw [lane]
    split
    · exact fun _ => hl.queue
    · exact hs.emptied a
  · rw [lane a]
    split
    · intro hw
      simp [Lane.wait?, hl.loop, Loop.course?] at hw
    · exact fun hw => (hs.waits a wait hw).imp_left (closed _)
  · rw [List.length_append]
    exact Nat.lt_add_right 1 (hs.held_lt a ha)
  · rw [lane]
    split
    · intro hstop
      rw [hl.stopping] at hstop
      cases hstop
    · exact hs.letGo a

theorem Sound.found (hs : s.Sound) {p : Pool Work Json} (hp : p.Reachable) :
    ({ s with pools := s.pools ++ [p] } : Scene).Sound := by
  refine ⟨hs.accounts, hs.sorted, hs.shut, hs.emptied, hs.waits, hs.taskWaits, hs.tasks_nodup,
    hs.tasks_lt, hs.held_lt, fun q hq => ?_, hs.letGo, fun q hq => ?_⟩
  · rw [List.length_append]
    exact Nat.lt_add_right 1 (hs.wells_lt q hq)
  · rcases List.mem_append.mp hq with hq | hq
    · exact hs.pools q hq
    · exact List.mem_singleton.mp hq ▸ hp

theorem Sound.onPool (hs : s.Sound) (p : PoolId) (e : Pool.Event Work Json) :
    (s.onPool p e).Sound := by
  refine ⟨hs.accounts, hs.sorted, hs.shut, hs.emptied, hs.waits, hs.taskWaits, hs.tasks_nodup,
    hs.tasks_lt, hs.held_lt, fun q hq => ?_, hs.letGo, fun q hq => ?_⟩
  · rw [Scene.onPool, List.length_modify]
    exact hs.wells_lt q hq
  · obtain ⟨k, hk⟩ := List.mem_iff_getElem?.mp hq
    rw [Scene.onPool, List.getElem?_modify] at hk
    obtain ⟨old, hold, rfl⟩ := Option.map_eq_some_iff.mp hk
    split
    · exact (hs.pools old (List.mem_of_getElem? hold)).apply e
    · exact hs.pools old (List.mem_of_getElem? hold)

theorem Sound.stopAll (hs : s.Sound) {A : ActorId → Bool} (hA : ∀ a, A a = true → ¬s.Holds a) :
    (s.stopAll A).Sound := by
  have same : ∀ a, ((s.stopAll A).lane a).shut = (s.lane a).shut ∧
      ((s.stopAll A).lane a).closed = (s.lane a).closed ∧
      ((s.stopAll A).lane a).queue = (s.lane a).queue ∧
      ((s.stopAll A).lane a).loop = (s.lane a).loop := by
    intro a
    rw [lane_stopAll]
    split <;> exact ⟨rfl, rfl, rfl, rfl⟩
  have handles : ∀ a, ((s.stopAll A).lane a).handles = (s.lane a).handles := by
    intro a
    simp only [Lane.handles, Lane.current, Lane.waiting, same a]
  have hlanes : (s.stopAll A).lanes.map Lane.handles = s.lanes.map Lane.handles := by
    refine List.ext_getElem (by simp) fun i hi hj => ?_
    have := handles i
    rw [lane_eq_getElem (by simpa using hi), lane_eq_getElem (by simpa using hj)] at this
    simpa using this
  refine ⟨hs.accounts.congr (fun h => ?_) fun h => rfl, fun a => ?_, fun a => ?_, fun a => ?_,
    fun a wait => ?_, fun x hx wait hw => ?_, hs.tasks_nodup, hs.tasks_lt, fun a ha => ?_,
    hs.wells_lt, fun a => ?_, hs.pools⟩
  · rw [holders, List.flatMap_def, hlanes, ← List.flatMap_def]
    rfl
  · rw [handles]
    exact hs.sorted a
  · rw [(same a).1, (same a).2.1]
    exact hs.shut a
  · rw [(same a).2.1, (same a).2.2.1]
    exact hs.emptied a
  · rw [Lane.wait?, (same a).2.2.2, (same _).2.1]
    exact hs.waits a wait
  · rw [(same _).2.1]
    exact hs.taskWaits x hx wait hw
  · rw [length_lanes_stopAll]
    exact hs.held_lt a ha
  · rw [(same a).2.1, lane_stopAll]
    split
    · rename_i ha
      exact fun _ _ => hA a ha.1
    · exact hs.letGo a

theorem Sound.settled (hs : s.Sound) (o : Except ActorError Json) : (s.grow (.full o)).Sound := by
  refine ⟨hs.accounts.congr (fun h => rfl) fun h => ?_, hs.sorted, hs.shut, hs.emptied, hs.waits,
    hs.taskWaits, hs.tasks_nodup, hs.tasks_lt, hs.held_lt, hs.wells_lt, hs.letGo, hs.pools⟩
  rw [content_grow]
  split
  · rename_i hh
    rw [hh, content_of_le (Nat.le_refl _)]
    rfl
  · rfl

theorem Sound.drain (hs : s.Sound) (h : HandleId) : (s.onContent h Content.drain).Sound := by
  refine ⟨hs.accounts.congr (fun k => rfl) fun k => ?_, hs.sorted, hs.shut, hs.emptied, hs.waits,
    hs.taskWaits, hs.tasks_nodup, hs.tasks_lt, hs.held_lt, hs.wells_lt, hs.letGo, hs.pools⟩
  rw [content_onContent]
  split
  · rename_i hk
    rw [Content.isEmpty_drain, hk.1]
  · rfl

theorem Sound.begin (hs : s.Sound) {t : Task} (ht : t.handle = s.contents.length)
    (hw : t.waits = []) (hk : ∀ a, t.holdsActor a = true → a ∈ s.held) :
    ((s.grow .empty).spawn t).Sound := by
  refine ⟨hs.accounts.grow (fun h => ?_) fun h => rfl, hs.sorted, hs.shut, hs.emptied, hs.waits,
    fun x hx => ?_, ?_, fun x hx => ?_, hs.held_lt, hs.wells_lt, fun a hstop hopen hholds => ?_,
    hs.pools⟩
  · rw [Scene.count_holders, Scene.count_holders]
    show (s.lanes.flatMap Lane.handles).count h +
      ((s.tasks ++ [(s.taskCount, t)]).map fun x => x.2.handle).count h = _
    rw [List.map_append, List.count_append, List.map_singleton, ht, Nat.add_assoc]
  · rcases List.mem_append.mp hx with hx | hx
    · exact hs.taskWaits x hx
    · rw [List.mem_singleton.mp hx, hw]
      intro wait hwait
      cases hwait
  · show ((s.tasks ++ [(s.taskCount, t)]).map (·.1)).Nodup
    rw [List.map_append, List.nodup_append]
    refine ⟨hs.tasks_nodup, List.nodup_singleton _, ?_⟩
    rintro i hi j hj rfl
    obtain ⟨x, hx, rfl⟩ := List.mem_map.mp hi
    exact absurd (hs.tasks_lt x hx) (by simp [List.mem_singleton.mp hj])
  · show x.1 < s.taskCount + 1
    rcases List.mem_append.mp hx with hx | hx
    · exact Nat.lt_succ_of_lt (hs.tasks_lt x hx)
    · rw [List.mem_singleton.mp hx]
      exact Nat.lt_succ_self _
  · refine hs.letGo a hstop hopen ?_
    rcases hholds with hheld | ⟨x, hx, hxa⟩
    · exact .inl hheld
    · rcases List.mem_append.mp hx with hx | hx
      · exact .inr ⟨x, hx, hxa⟩
      · rw [List.mem_singleton.mp hx] at hxa
        exact .inl (hk a hxa)

theorem Sound.setTask (hs : s.Sound) {i : TaskId} {old t : Task}
    (hi : s.tasks.lookup i = some old) (hh : t.handle = old.handle)
    (hw : ∀ wait ∈ t.waits, (s.lane wait.actor).closed = true)
    (hk : ∀ a, t.holdsActor a = true → old.holdsActor a = true) : (s.setTask i t).Sound := by
  obtain ⟨l, r, hsplit, hl, hr⟩ := split_of_lookup hi hs.tasks_nodup
  have htasks : (s.setTask i t).tasks = l ++ (i, t) :: r := by
    have same : ∀ x : TaskId × Task, x.1 ≠ i → (x.1, if x.1 = i then t else x.2) = x :=
      fun x hx => by rw [if_neg hx]
    show s.tasks.map _ = _
    rw [hsplit, List.map_append, List.map_cons, List.map_congr_left fun x hx => same x (hl x hx),
      List.map_congr_left fun x hx => same x (hr x hx)]
    simp
  have mem : ∀ {x}, x ∈ (s.setTask i t).tasks → x ∈ s.tasks ∨ x = (i, t) := by
    intro x hx
    rw [htasks] at hx
    rw [hsplit]
    simp only [List.mem_append, List.mem_cons] at hx ⊢
    tauto
  have hids : (s.setTask i t).tasks.map (·.1) = s.tasks.map (·.1) := by
    rw [htasks, hsplit]
    simp
  refine ⟨hs.accounts.congr (fun h => ?_) fun h => rfl, hs.sorted, hs.shut, hs.emptied, hs.waits,
    fun x hx => ?_, hids ▸ hs.tasks_nodup, fun x hx => ?_, hs.held_lt, hs.wells_lt,
    fun a hstop hopen hholds => ?_, hs.pools⟩
  · rw [Scene.count_holders, Scene.count_holders, htasks, hsplit]
    simp [hh, Scene.setTask]
  · rcases mem hx with hx | rfl
    · exact hs.taskWaits x hx
    · exact hw
  · rcases mem hx with hx | rfl
    · exact hs.tasks_lt x hx
    · exact hs.tasks_lt (i, old) (mem_of_lookup hi)
  · refine hs.letGo a hstop hopen (hholds.imp id ?_)
    rintro ⟨x, hx, hxa⟩
    rcases mem hx with hx | rfl
    · exact ⟨x, hx, hxa⟩
    · exact ⟨(i, old), mem_of_lookup hi, hk a hxa⟩

/-- A task that ends takes its handle along. -/
theorem Sound.count_holders_endTask (hs : s.Sound) {i : TaskId} {t : Task}
    (hi : s.tasks.lookup i = some t) (h : HandleId) :
    (s.endTask i).holders.count h + [t.handle].count h = s.holders.count h := by
  obtain ⟨l, r, hsplit, hl, hr⟩ := split_of_lookup hi hs.tasks_nodup
  have htasks : s.tasks.filter (·.1 != i) = l ++ r := by
    rw [hsplit, List.filter_append, List.filter_cons_of_neg (by simp)]
    rw [List.filter_eq_self.mpr fun x hx => by simpa using hl x hx,
      List.filter_eq_self.mpr fun x hx => by simpa using hr x hx]
  rw [Scene.count_holders, Scene.count_holders]
  show (s.lanes.flatMap Lane.handles).count h +
    ((s.tasks.filter (·.1 != i)).map fun x => x.2.handle).count h + _ = _
  rw [htasks, hsplit]
  simp only [List.map_append, List.map_cons, List.count_append, List.count_cons, List.count_nil]
  omega

theorem Sound.endTask (hs : s.Sound) {i : TaskId} {t : Task} (hi : s.tasks.lookup i = some t)
    (o : Except ActorError Json) : ((s.settleAll [t.handle] (.full o)).endTask i).Sound := by
  have hcount := hs.count_holders_endTask hi
  have hsub : (s.tasks.filter (·.1 != i)).Sublist s.tasks := List.filter_sublist
  rw [settleAll_eq]
  refine ⟨hs.accounts.settle (c := .full o) (by simp) hcount fun h => rfl,
    hs.sorted, hs.shut, hs.emptied, hs.waits,
    fun x hx => hs.taskWaits x (hsub.subset hx), hs.tasks_nodup.sublist (hsub.map _),
    fun x hx => hs.tasks_lt x (hsub.subset hx), hs.held_lt, hs.wells_lt,
    fun a hstop hopen hholds => hs.letGo a hstop hopen (hholds.imp id ?_), hs.pools⟩
  rintro ⟨x, hx, hxa⟩
  exact ⟨x, hsub.subset hx, hxa⟩

/-- **Every deed keeps a scene sound.** -/
theorem Sound.deed (hs : s.Sound) (d : Deed ms s t) : t.Sound := by
  cases d with
  | roster hheld hwells => exact hs.roster hheld hwells
  | enroll hl => exact hs.enroll hl
  | found hp => exact hs.found (.create hp)
  | pool p e => exact hs.onPool p e
  | stop hA => exact hs.stopAll hA
  | settled o => exact hs.settled o
  | drain h => exact hs.drain h
  | begin ht hw hk => exact hs.begin ht hw hk
  | setTask hi hh hw hk => exact hs.setTask hi hh hw hk
  | endTask hi o => exact hs.endTask hi o
  | remember _ _ => exact hs.remember _ _
  | accept ha _ hopen he _ => exact hs.accept ha hopen he
  | clear a => exact hs.clear a
  | shut _ _ _ => exact hs.close _
  | abort _ => exact hs.abort _
  | start hloop => exact hs.start hloop
  | quit hloop _ => exact hs.quit hloop
  | enter hloop _ hqueue => exact hs.enter hloop hqueue
  | proceed hloop hwait => exact hs.proceed hloop hwait
  | finish hloop _ o => exact hs.finish hloop o

theorem Sound.deeds (hs : s.Sound) (d : Deeds ms s t) : t.Sound :=
  d.keep (fun d hs => Sound.deed hs d) hs

end Scene

end Troupe
