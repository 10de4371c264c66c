import Troupe.Proofs.World.Growth

/-!
# What marks tell

Deeds leave marks for what later arguments ask about. Where there is no mark, nothing has happened:
the run loop of an actor does what it did, and a task is where it was. Where there are marks, they
say everything: the mailbox of an actor at the end is what the marks make of it.

## Main definitions

* `Mark.onQueue` — what a mark makes of the mailbox of an actor

## Main results

* `Deeds.queue_eq` — the mailbox is what the marks make of it
* `Deeds.loop_eq`, `Deeds.lookup_eq` — no mark, no change
* `Deeds.full` — an outcome stays until it is taken
* `Deeds.opened_of_shut` — a mark of a close is left when an open actor is closed
-/

namespace Troupe

variable {s t : Scene} {ms : List Mark} {a : ActorId}

/-! ### Run loops -/

theorem Scene.loop_onLane {b : ActorId} {f : Lane → Lane} (h : b ≠ a ∨ ∀ l, (f l).loop = l.loop) :
    ((s.onLane b f).lane a).loop = (s.lane a).loop := by
  rw [lane_onLane]
  split
  · rename_i hb
    rcases h with h | h
    · exact absurd hb.1.symm h
    · rw [h, hb.1]
  · rfl

/-- Of the lane of a new actor nobody knew more than that nothing has happened there. -/
theorem Scene.lane_enroll {l : Lane} (hl : l.IsNew) (a : ActorId) :
    (({ s with lanes := s.lanes ++ [l] } : Scene).lane a).loop = (s.lane a).loop ∧
      (({ s with lanes := s.lanes ++ [l] } : Scene).lane a).queue = (s.lane a).queue := by
  rcases Nat.lt_trichotomy a s.lanes.length with hlt | rfl | hgt
  · simp [lane, List.getElem?_append_left hlt]
  · rw [lane_of_le (s := s) (Nat.le_refl _)]
    simp only [lane, List.getElem?_concat_length, Option.getD_some]
    exact ⟨hl.loop, hl.queue⟩
  · rw [lane_of_le (s := s) (Nat.le_of_lt hgt), lane_of_le (by simpa using Nat.succ_le_of_lt hgt)]
    exact ⟨rfl, rfl⟩

theorem Deed.loop_eq (d : Deed ms s t) (h : ∀ m ∈ ms, m.loop? ≠ some a) :
    (t.lane a).loop = (s.lane a).loop := by
  -- A deed that changes the loop of an actor has its mark.
  have other : ∀ {b : ActorId} {m : Mark}, m ∈ ms → m.loop? = some b → b ≠ a := by
    rintro b m hm hb rfl
    exact h m hm hb
  cases d with
  | roster _ _ | found _ | pool _ _ | settled _ | drain _ | begin _ _ _ | setTask _ _ _ _ => rfl
  | enroll hl => exact (Scene.lane_enroll hl a).1
  | stop _ =>
    rw [Scene.lane_stopAll]
    split <;> rfl
  | endTask _ _ =>
    show ((Scene.settleAll _ _ s).lane a).loop = _
    rw [Scene.lane_settleAll]
  | remember _ _ =>
    refine Scene.loop_onLane (.inr fun l => ?_)
    rw [Lane.remember_eq]
  | accept _ _ _ _ _ => exact Scene.loop_onLane (s := s.grow .empty) (.inr fun _ => rfl)
  | clear _ | shut _ _ _ =>
    rw [Scene.lane_settleAll]
    exact Scene.loop_onLane (.inr fun _ => rfl)
  | abort _ | quit _ _ =>
    rw [Scene.lane_settleAll]
    exact Scene.loop_onLane (.inl (other (List.mem_singleton_self _) rfl))
  | start _ | enter _ _ _ | proceed _ _ =>
    exact Scene.loop_onLane (.inl (other (List.mem_singleton_self _) rfl))
  | finish _ _ _ =>
    rw [Scene.loop_onLane (.inl (other (List.mem_singleton_self _) rfl)), Scene.lane_settleAll]

/-- Without a mark a run loop does what it did. -/
theorem Deeds.loop_eq (d : Deeds ms s t) (h : ∀ m ∈ ms, m.loop? ≠ some a) :
    (t.lane a).loop = (s.lane a).loop := by
  induction d with
  | refl s => rfl
  | cons d _ ih =>
    rw [ih fun m hm => h m (List.mem_append_right _ hm),
      d.loop_eq fun m hm => h m (List.mem_append_left _ hm)]

/-- A run loop that has ended stays so. -/
theorem Deed.ended (d : Deed ms s t) (h : (s.lane a).loop = .ended) :
    (t.lane a).loop = .ended := by
  by_cases hm : ∀ m ∈ ms, m.loop? ≠ some a
  · exact (d.loop_eq hm).trans h
  · -- A run loop that has a mark had not ended, unless the mark is that of its end.
    simp only [ne_eq, not_forall, not_not] at hm
    obtain ⟨m, hm, hloop⟩ := hm
    have hlt := Scene.lt_of_loop (s := s) (a := a) (by rw [h]; simp)
    cases d with
    | pool p e =>
      rcases Mark.mem_ofEvent hm with rfl | ⟨_, rfl⟩ | ⟨_, rfl⟩ <;> cases hloop
    | abort _ =>
      obtain rfl := List.mem_singleton.mp hm
      obtain rfl := Option.some.inj hloop
      rw [Scene.lane_settleAll, Scene.lane_onLane, if_pos ⟨rfl, hlt⟩]
    | start hloop' | enter hloop' _ _ | quit hloop' _ | proceed hloop' _ | finish hloop' _ _ =>
      obtain rfl := List.mem_singleton.mp hm
      obtain rfl := Option.some.inj hloop
      rw [h] at hloop'
      cases hloop'
    | roster _ _ | enroll _ _ | found _ | stop _ | begin _ _ _ | remember _ _ => cases hm
    | settled _ | drain _ | setTask _ _ _ _ | endTask _ _ | accept _ _ _ _ _ | clear _
    | shut _ _ _ =>
      obtain rfl := List.mem_singleton.mp hm
      cases hloop

/-- What has ended stays so. -/
theorem Deeds.ended (d : Deeds ms s t) (h : (s.lane a).loop = .ended) :
    (t.lane a).loop = .ended := by
  induction d with
  | refl s => exact h
  | cons d _ ih => exact ih (d.ended h)

/-! ### Tasks -/

theorem Scene.lookup_setTask {tasks : List (TaskId × Task)} {i k : TaskId} {t : Task} (h : i ≠ k) :
    (tasks.map fun (x : TaskId × Task) => (x.1, if x.1 = k then t else x.2)).lookup i =
      tasks.lookup i := by
  induction tasks with
  | nil => rfl
  | cons x tasks ih =>
    obtain ⟨j, old⟩ := x
    rw [List.map_cons, List.lookup_cons, List.lookup_cons, ih]
    by_cases hj : i = j
    · subst hj
      simp [h]
    · rw [beq_false_of_ne hj]

theorem Scene.lookup_endTask {tasks : List (TaskId × Task)} {i k : TaskId} (h : i ≠ k) :
    (tasks.filter (·.1 != k)).lookup i = tasks.lookup i := by
  induction tasks with
  | nil => rfl
  | cons x tasks ih =>
    obtain ⟨j, old⟩ := x
    by_cases hj : j = k
    · subst hj
      rw [List.filter_cons_of_neg (by simp), ih, List.lookup_cons, beq_false_of_ne h]
    · rw [List.filter_cons_of_pos (by simpa using hj), List.lookup_cons, List.lookup_cons, ih]

theorem Deed.lookup_eq {i : TaskId} {task : Task} (d : Deed ms s t) (h : .stepped i ∉ ms)
    (hi : s.tasks.lookup i = some task) : t.tasks.lookup i = some task := by
  cases d with
  | roster _ _ | enroll _ | found _ | pool _ _ | stop _ | settled _ | drain _ | remember _ _ =>
    exact hi
  | accept _ _ _ _ _ | start _ | enter _ _ _ | proceed _ _ => exact hi
  | begin _ _ _ =>
    show (s.tasks ++ _).lookup i = _
    rw [List.lookup_append, hi, Option.some_or]
  | setTask _ _ _ _ => exact (Scene.lookup_setTask (by simpa using h)).trans hi
  | endTask _ _ =>
    refine (Scene.lookup_endTask (by simpa using h)).trans ?_
    rwa [(Scene.settleAll_frame _ _).2.1]
  | clear _ | shut _ _ _ | abort _ | quit _ _ => rwa [(Scene.settleAll_frame _ _).2.1]
  | finish _ _ _ =>
    show (Scene.settleAll _ _ s).tasks.lookup i = _
    rwa [(Scene.settleAll_frame _ _).2.1]

/-- Without a mark a task is where it was. -/
theorem Deeds.lookup_eq {i : TaskId} {task : Task} (d : Deeds ms s t) (h : .stepped i ∉ ms)
    (hi : s.tasks.lookup i = some task) : t.tasks.lookup i = some task := by
  induction d with
  | refl s => exact hi
  | cons d _ ih =>
    rw [List.mem_append, not_or] at h
    exact ih h.2 (d.lookup_eq h.1 hi)

/-! ### Mailboxes -/

/-- What a mark makes of the mailbox of an actor. -/
def Mark.onQueue (a : ActorId) (queue : List Envelope) : Mark → List Envelope
  | .admitted b e => if b = a then queue ++ [e] else queue
  | .entered b _ => if b = a then queue.tail else queue
  | .cleared b => if b = a then queue.filter (·.isRelay) else queue
  | .shut b | .quit b => if b = a then [] else queue
  | _ => queue

theorem Mark.onQueue_ofTake (r : HandleRef) (queue : List Envelope) :
    Mark.onQueue a queue (.ofTake r) = queue := by
  cases r <;> rfl

theorem Scene.queue_onLane {b : ActorId} {f : Lane → Lane}
    (hf : s.lanes.length ≤ b → (f default).queue = []) :
    ((s.onLane b f).lane a).queue =
      if b = a then (f (s.lane a)).queue else (s.lane a).queue := by
  rw [lane_onLane]
  by_cases hb : b = a
  · subst hb
    rcases Nat.lt_or_ge b s.lanes.length with hlt | hge
    · simp [hlt]
    · rw [if_neg fun h => Nat.not_lt_of_le hge h.2, if_pos rfl, lane_of_le hge, hf hge]
      rfl
  · rw [if_neg fun h => hb h.1.symm, if_neg hb]

theorem Deed.queue_eq (d : Deed ms s t) :
    (t.lane a).queue = ms.foldl (Mark.onQueue a) (s.lane a).queue := by
  have same : ∀ {s : Scene} {b : ActorId} {f : Lane → Lane}, (∀ l, (f l).queue = l.queue) →
      ((s.onLane b f).lane a).queue = (s.lane a).queue := by
    intro s b f hf
    rw [Scene.queue_onLane fun _ => hf _, hf]
    split <;> rfl
  have there : ∀ {s : Scene} {b : ActorId} {f : Lane → Lane}, b < s.lanes.length →
      ((s.onLane b f).lane a).queue = if b = a then (f (s.lane a)).queue else (s.lane a).queue :=
    fun hb => Scene.queue_onLane fun hge => absurd hb (Nat.not_lt_of_le hge)
  cases d with
  | roster _ _ | found _ | settled _ | drain _ | begin _ _ _ | setTask _ _ _ _ => rfl
  | pool p e =>
    cases e with
    | submit owner _ _ => cases owner <;> rfl
    | _ => rfl
  | enroll hl => exact (Scene.lane_enroll hl a).2
  | stop _ =>
    rw [Scene.lane_stopAll]
    split <;> rfl
  | endTask _ _ =>
    show ((Scene.settleAll _ _ s).lane a).queue = _
    rw [Scene.lane_settleAll]
    rfl
  | remember _ _ =>
    refine same fun l => ?_
    rw [Lane.remember_eq]
  | accept hb _ _ _ _ => exact there (s := s.grow .empty) hb
  | clear _ =>
    rw [Scene.lane_settleAll]
    exact Scene.queue_onLane fun _ => rfl
  | shut _ _ _ | quit _ _ =>
    rw [Scene.lane_settleAll]
    exact Scene.queue_onLane fun _ => rfl
  | abort _ =>
    rw [Scene.lane_settleAll]
    exact same fun _ => rfl
  | start _ | proceed _ _ => exact same fun _ => rfl
  | enter hloop _ hqueue =>
    rw [there (Scene.lt_of_loop (by rw [hloop]; simp))]
    show _ = if _ then _ else _
    split
    · rename_i hb
      rw [← hb, hqueue]
      rfl
    · rfl
  | finish hloop _ o =>
    refine (same (f := fun l => { l with loop := .idle }) fun _ => rfl).trans ?_
    rw [Scene.lane_settleAll]
    rfl

/-- **The mailbox is what the marks make of it.** -/
theorem Deeds.queue_eq (d : Deeds ms s t) :
    (t.lane a).queue = ms.foldl (Mark.onQueue a) (s.lane a).queue := by
  induction d with
  | refl s => rfl
  | cons d _ ih => rw [List.foldl_append, ih, d.queue_eq]

/-- What waits has waited before, or has joined. -/
theorem Mark.mem_onQueue {queue : List Envelope} {m : Mark} {e : Envelope}
    (h : e ∈ m.onQueue a queue) : e ∈ queue ∨ m = .admitted a e := by
  cases m with
  | admitted b e' =>
    rw [onQueue] at h
    split at h
    · rename_i hb
      refine (List.mem_append.mp h).imp_right fun h => ?_
      rw [hb, List.mem_singleton.mp h]
    · exact .inl h
  | entered b e' =>
    rw [onQueue] at h
    split at h
    · exact .inl (List.mem_of_mem_tail h)
    · exact .inl h
  | cleared b =>
    rw [onQueue] at h
    split at h
    · exact .inl (List.mem_filter.mp h).1
    · exact .inl h
  | shut b | quit b =>
    rw [onQueue] at h
    split at h
    · cases h
    · exact .inl h
  | aborted _ | turned _ | stepped _ | settled _ _ | drained _ | worked _ | collected _ _
  | submitted _ _ => exact .inl h

theorem Deed.mem_waiting {e : Envelope} (d : Deed ms s t) (h : e ∈ (t.lane a).queue) :
    e ∈ (s.lane a).queue ∨ .admitted a e ∈ ms := by
  rw [d.queue_eq] at h
  clear d
  generalize (s.lane a).queue = queue at h ⊢
  induction ms generalizing queue with
  | nil => exact .inl h
  | cons m ms ih =>
    rcases ih _ h with h | h
    · refine (Mark.mem_onQueue h).imp_right ?_
      rintro rfl
      exact List.mem_cons_self
    · exact .inr (List.mem_cons_of_mem _ h)

/-! ### Outcomes and closes -/

theorem Deed.full {h : HandleId} {o : Except ActorError Json} (d : Deed ms s t)
    (hd : .drained h ∉ ms) (hh : s.content h = .full o) : t.content h = .full o := by
  have settle : ∀ hs c, (s.settleAll hs c).content h = .full o := by
    intro hs c
    rw [Scene.content_settleAll, hh]
    split <;> rfl
  have hlt : h ≠ s.contents.length := by
    rintro rfl
    rw [Scene.content_of_le (Nat.le_refl _)] at hh
    cases hh
  have grow : ∀ c, (s.grow c).content h = .full o := by
    intro c
    rw [Scene.content_grow, if_neg hlt, hh]
  cases d with
  | roster _ _ | enroll _ | found _ | pool _ _ | stop _ | setTask _ _ _ _ | remember _ _ => exact hh
  | start _ | enter _ _ _ | proceed _ _ => exact hh
  | settled _ | begin _ _ _ | accept _ _ _ _ _ => exact grow _
  | drain k =>
    rw [Scene.content_onContent, if_neg fun hk => hd (by simp [hk.1])]
    exact hh
  | endTask _ _ | finish _ _ _ => exact settle _ _
  | clear _ | shut _ _ _ | abort _ | quit _ _ =>
    rw [Scene.content_onLane_settleAll]
    exact settle _ _

/-- An outcome stays until it is taken. -/
theorem Deeds.full {h : HandleId} {o : Except ActorError Json} (d : Deeds ms s t)
    (hd : .drained h ∉ ms) (hh : s.content h = .full o) : t.content h = .full o := by
  induction d with
  | refl s => exact hh
  | cons d _ ih =>
    rw [List.mem_append, not_or] at hd
    exact ih hd.2 (d.full hd.1 hh)

/-- A handle that is resolved from the beginning shows its outcome. -/
theorem Deeds.full_of_settled {h : HandleId} {o : Except ActorError Json} (d : Deeds ms s t)
    (hd : .drained h ∉ ms) (hm : .settled h o ∈ ms) : t.content h = .full o := by
  induction d with
  | refl s => cases hm
  | cons d ds ih =>
    rw [List.mem_append, not_or] at hd
    rcases List.mem_append.mp hm with hm | hm
    · refine ds.full hd.2 ?_
      cases d with
      | settled o' =>
        obtain ⟨rfl, rfl⟩ : h = _ ∧ o = o' := by simpa using hm
        rw [Scene.content_grow, if_pos rfl]
      | pool p e => simpa using Mark.mem_ofEvent hm
      | _ => simp at hm
    · exact ih hd.2 hm

/-- An actor is closed once, from open to closed. -/
theorem Deeds.opened_of_shut (d : Deeds ms s t) (h : .shut a ∈ ms) :
    (s.lane a).closed = false ∧ (t.lane a).closed = true := by
  induction d with
  | refl s => cases h
  | cons d ds ih =>
    rename_i ns _ s u t
    have hgrows := Scene.Grows.of_deed d
    rcases List.mem_append.mp h with h | h
    · cases d with
      | shut hlt hopen _ =>
        obtain rfl : a = _ := by simpa using h
        refine ⟨hopen, (Scene.Grows.of_deeds ds).closed ?_⟩
        rw [Scene.lane_settleAll, Scene.lane_onLane, if_pos ⟨rfl, hlt⟩]
      | pool p e => simpa using Mark.mem_ofEvent h
      | _ => simp at h
    · obtain ⟨hopen, hclosed⟩ := ih h
      refine ⟨?_, hclosed⟩
      by_contra hne
      have := hgrows.closed (a := a) (by simpa using hne)
      rw [hopen] at this
      cases this

end Troupe
