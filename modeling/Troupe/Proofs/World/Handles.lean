import Troupe.Proofs.World.Marks

/-!
# Where handles are

The handle of an envelope stays with the lane of its actor until it is resolved: it waits in the
mailbox, then the run loop is inside of it, and in between it goes nowhere else. What a run loop is
inside of changes only with a mark; and an envelope that leaves the mailbox without being entered is
lost.

## Main results

* `Scene.Sound.lane_eq`, `Scene.Sound.ne_of_task` — an unresolved handle is in one place
* `Deeds.mem_handles` — an unresolved handle stays in its lane
* `Deed.resolves` — who resolves a handle with an outcome
* `Deeds.settled_before` — what is resolved gets no other outcome
* `Deeds.current_eq` — without a mark, a run loop stays inside of what it is inside of, or is done
* `Deeds.inside_or_lost` — a run loop stays inside of its envelope, or the envelope is lost
* `Deeds.lost_of_dropped` — what is dropped is lost
-/

namespace Troupe

variable {s t : Scene} {ms : List Mark} {a : ActorId} {h : HandleId}

namespace Scene

/-! ### One place -/

theorem Sound.nodup_holders (hs : s.Sound) : s.holders.Nodup := by
  refine List.nodup_iff_count_le_one.mpr fun h => ?_
  rw [hs.accounts h]
  split <;> omega

/-- A handle is in one lane. -/
theorem Sound.lane_eq (hs : s.Sound) {b : ActorId} (ha : h ∈ (s.lane a).handles)
    (hb : h ∈ (s.lane b).handles) : a = b := by
  have lt : ∀ {a}, h ∈ (s.lane a).handles → a < s.lanes.length := by
    intro a ha
    by_contra hge
    rw [lane_of_le (Nat.le_of_not_lt hge)] at ha
    cases ha
  have hpairs := (List.nodup_flatMap.mp (List.nodup_append.mp hs.nodup_holders).1).2
  -- Two different lanes have no handle in common.
  have main : ∀ {a b}, h ∈ (s.lane a).handles → h ∈ (s.lane b).handles → ¬a < b := by
    intro a b ha hb hlt
    have hdisjoint := List.pairwise_iff_getElem.mp hpairs a b (lt ha) (lt hb) hlt
    rw [lane_eq_getElem (lt ha)] at ha
    rw [lane_eq_getElem (lt hb)] at hb
    exact hdisjoint ha hb
  exact Nat.le_antisymm (Nat.le_of_not_lt (main hb ha)) (Nat.le_of_not_lt (main ha hb))

/-- A handle in a lane is that of no task. -/
theorem Sound.ne_of_task (hs : s.Sound) (ha : h ∈ (s.lane a).handles) {x : TaskId × Task}
    (hx : x ∈ s.tasks) : x.2.handle ≠ h := by
  rintro rfl
  by_cases hlt : a < s.lanes.length
  · rw [lane_eq_getElem hlt] at ha
    exact (List.nodup_append.mp hs.nodup_holders).2.2 _
      (List.mem_flatMap.mpr ⟨_, List.getElem_mem hlt, ha⟩) _ (List.mem_map_of_mem hx) rfl
  · rw [lane_of_le (Nat.le_of_not_lt hlt)] at ha
    cases ha

/-! ### The same place -/

/-- A handle stays in its lane while others are resolved. -/
theorem mem_handles_of_modify {b : ActorId} {f : Lane → Lane} {hs : List HandleId}
    (ht : t.lanes = s.lanes.modify b f)
    (hf : ∀ k ∈ (s.lane b).handles, k ∈ (f (s.lane b)).handles ∨ k ∈ hs)
    (hmem : h ∈ (s.lane a).handles) (hh : h ∉ hs) : h ∈ (t.lane a).handles := by
  have hlane : t.lane a = (s.onLane b f).lane a := by rw [lane, lane, ht, onLane]
  rw [hlane, lane_onLane]
  split
  · rename_i hb
    rw [hb.1] at hmem
    exact (hf h hmem).resolve_right hh
  · exact hmem

/-- What is resolved is not unresolved. -/
theorem not_mem_of_settleAll {hs : List HandleId} {c : Content (Except ActorError Json)}
    (hc : c ≠ .empty) (he : (s.settleAll hs c).content h = .empty) : h ∉ hs := by
  intro hh
  rw [content_settleAll, if_pos hh] at he
  cases hold : s.content h with
  | empty =>
    rw [hold, Content.settle_empty] at he
    exact hc he
  | full o | drained | lost =>
    rw [hold, Content.settle_of_ne (by simp)] at he
    cases he

theorem mem_handles_settleAll {b : ActorId} {f : Lane → Lane} {hs : List HandleId}
    {c : Content (Except ActorError Json)} (hc : c ≠ .empty)
    (hf : ∀ k ∈ (s.lane b).handles, k ∈ (f (s.lane b)).handles ∨ k ∈ hs)
    (hmem : h ∈ (s.lane a).handles) (he : ((s.onLane b f).settleAll hs c).content h = .empty) :
    h ∈ (((s.onLane b f).settleAll hs c).lane a).handles := by
  rw [content_onLane_settleAll] at he
  exact mem_handles_of_modify (settleAll_frame hs c).1 hf hmem (not_mem_of_settleAll hc he)

end Scene

theorem Deed.mem_handles (d : Deed ms s t) (hmem : h ∈ (s.lane a).handles)
    (he : t.content h = .empty) : h ∈ (t.lane a).handles := by
  -- A change of one lane that keeps all its handles.
  have onLane : ∀ {s : Scene} {b : ActorId} {f : Lane → Lane}, h ∈ (s.lane a).handles →
      (∀ k ∈ (s.lane b).handles, k ∈ (f (s.lane b)).handles) →
      h ∈ ((s.onLane b f).lane a).handles :=
    fun hmem hf => Scene.mem_handles_of_modify rfl (fun k hk => .inl (hf k hk)) hmem
      List.not_mem_nil
  cases d with
  | roster _ _ | found _ | pool _ _ | settled _ | drain _ | begin _ _ _ | setTask _ _ _ _ =>
    exact hmem
  | enroll hl =>
    obtain ⟨hloop, hqueue⟩ := Scene.lane_enroll (s := s) hl a
    simp only [Lane.handles, Lane.current, Lane.waiting] at hmem ⊢
    rwa [hloop, hqueue]
  | stop _ =>
    rw [Scene.lane_stopAll]
    split <;> exact hmem
  | endTask _ _ =>
    show h ∈ ((Scene.settleAll _ _ s).lane a).handles
    rwa [Scene.lane_settleAll]
  | remember _ _ =>
    refine onLane hmem fun k hk => ?_
    rwa [Lane.remember_eq]
  | accept _ _ _ _ _ =>
    refine onLane (s := s.grow .empty) hmem fun k hk => ?_
    exact (List.mem_append.mp hk).elim (List.mem_append_left _) fun hk =>
      List.mem_append_right _ (List.map_subset _ (List.subset_append_left _ _) hk)
  | clear b =>
    refine Scene.mem_handles_settleAll (by simp) (fun k hk => ?_) hmem he
    rcases List.mem_append.mp hk with hk | hk
    · exact .inl (List.mem_append_left _ hk)
    · obtain ⟨e, hmem, rfl⟩ := List.mem_map.mp hk
      cases hrelay : e.isRelay with
      | true =>
        exact .inl (List.mem_append_right _
          (List.mem_map_of_mem (List.mem_filter.mpr ⟨hmem, hrelay⟩)))
      | false =>
        exact .inr (List.mem_map_of_mem (List.mem_filter.mpr ⟨hmem, by simp [hrelay]⟩))
  | shut _ _ _ =>
    refine Scene.mem_handles_settleAll (by simp) (fun k hk => ?_) hmem he
    exact (List.mem_append.mp hk).imp_left (List.mem_append_left _)
  | abort _ =>
    refine Scene.mem_handles_settleAll (by simp) (fun k hk => ?_) hmem he
    exact (List.mem_append.mp hk).symm.imp_left (List.mem_append_right _)
  | quit hloop _ =>
    refine Scene.mem_handles_settleAll (by simp) (fun k hk => .inr ?_) hmem he
    simpa [Lane.handles, Lane.current, hloop] using hk
  | start hloop =>
    refine onLane hmem fun k hk => ?_
    simpa [Lane.handles, Lane.current, Lane.waiting, hloop] using hk
  | enter hloop _ hqueue =>
    refine onLane hmem fun k hk => ?_
    simpa [Lane.handles, Lane.current, Lane.waiting, hloop, hqueue] using hk
  | proceed hloop _ =>
    refine onLane hmem fun k hk => ?_
    simpa [Lane.handles, Lane.current, Lane.waiting, hloop, Inside.handle] using hk
  | finish hloop _ o =>
    have hne := Scene.not_mem_of_settleAll (by simp) he
    refine Scene.mem_handles_of_modify (congrArg (List.modify · _ _) (Scene.settleAll_frame _ _).1)
      (fun k hk => ?_) hmem hne
    simp only [Lane.handles, Lane.current, hloop] at hk
    exact (List.mem_append.mp hk).symm.imp_left (List.mem_append_right _)

/-- **An unresolved handle stays in its lane.** -/
theorem Deeds.mem_handles (d : Deeds ms s t) (hlt : h < s.contents.length)
    (hmem : h ∈ (s.lane a).handles) (he : t.content h = .empty) : h ∈ (t.lane a).handles := by
  induction d with
  | refl s => exact hmem
  | cons d ds ih =>
    have hgrows := Scene.Grows.of_deed d
    have hlt' := Nat.lt_of_lt_of_le hlt hgrows.contents
    refine ih hlt' (d.mem_handles hmem ?_) he
    by_contra hne
    exact (Scene.Grows.of_deeds ds).resolved h hlt' hne he

/-! ### Who resolves a handle -/

/-- A handle gets an outcome from the run loop that is inside of its envelope, or from its task. -/
theorem Deed.resolves (d : Deed ms s t) (he : s.content h = .empty) :
    t.content h = .empty ∨ t.content h = .lost ∨
      (∃ x ∈ s.tasks, x.2.handle = h ∧ .stepped x.1 ∈ ms) ∨
      ∃ b i, (s.lane b).loop = .inside i ∧ i.handle = h ∧ .turned b ∈ ms := by
  have grow : ∀ c, (s.grow c).content h = .empty := by
    intro c
    rw [Scene.content_grow, if_neg (Nat.ne_of_lt (Scene.lt_of_content_empty he)), he]
  have lose : ∀ hs, (s.settleAll hs .lost).content h = .empty ∨
      (s.settleAll hs .lost).content h = .lost := by
    intro hs
    rw [Scene.content_settleAll, he]
    split
    · exact .inr rfl
    · exact .inl rfl
  cases d with
  | roster _ _ | enroll _ | found _ | pool _ _ | stop _ | setTask _ _ _ _ | remember _ _ =>
    exact .inl he
  | start _ | enter _ _ _ | proceed _ _ => exact .inl he
  | settled _ | begin _ _ _ | accept _ _ _ _ _ => exact .inl (grow _)
  | drain k =>
    refine .inl ?_
    rw [Scene.content_onContent]
    split
    · rename_i hk
      rw [← hk.1, he]
      rfl
    · exact he
  | endTask hi o =>
    rename_i i task
    by_cases hh : task.handle = h
    · exact .inr (.inr (.inl ⟨_, Scene.mem_of_lookup hi, hh, List.mem_singleton_self _⟩))
    · refine .inl ?_
      show (s.settleAll [task.handle] (.full o)).content h = .empty
      rw [Scene.content_settleAll, if_neg (by simpa using Ne.symm hh), he]
  | finish hloop _ o =>
    rename_i b i _
    by_cases hh : i.handle = h
    · exact .inr (.inr (.inr ⟨_, i, hloop, hh, List.mem_singleton_self _⟩))
    · refine .inl ?_
      show (s.settleAll [i.handle] (.full o)).content h = .empty
      rw [Scene.content_settleAll, if_neg (by simpa using Ne.symm hh), he]
  | clear _ | shut _ _ _ | abort _ | quit _ _ =>
    rw [Scene.content_onLane_settleAll]
    exact (lose _).imp_right .inl

/-- What is resolved changes only by being taken. -/
theorem Deed.settled_before {c : Content (Except ActorError Json)} (d : Deed ms s t)
    (hlt : h < s.contents.length) (hne : s.content h ≠ .empty) (hc : c ≠ .drained)
    (ht : t.content h = c) : s.content h = c := by
  have settle : ∀ {hs c'}, (s.settleAll hs c').content h = c → s.content h = c := by
    intro hs c' ht
    rw [Scene.content_settleAll, Content.settle_of_ne hne] at ht
    simpa using ht
  have grow : ∀ {c'}, (s.grow c').content h = c → s.content h = c := by
    intro c' ht
    rwa [Scene.content_grow, if_neg (Nat.ne_of_lt hlt)] at ht
  cases d with
  | roster _ _ | enroll _ | found _ | pool _ _ | stop _ | setTask _ _ _ _ | remember _ _ => exact ht
  | start _ | enter _ _ _ | proceed _ _ => exact ht
  | settled _ | begin _ _ _ | accept _ _ _ _ _ => exact grow ht
  | drain k =>
    rw [Scene.content_onContent] at ht
    split at ht
    · rename_i hk
      rw [hk.1]
      cases hold : s.content k with
      | full _ =>
        rw [hold] at ht
        exact absurd ht.symm hc
      | empty | drained | lost =>
        rw [hold] at ht
        exact ht
    · exact ht
  | endTask _ _ | finish _ _ _ => exact settle ht
  | clear _ | shut _ _ _ | abort _ | quit _ _ =>
    rw [Scene.content_onLane_settleAll] at ht
    exact settle ht

/-- **What is resolved** gets no other outcome, and is not lost later. -/
theorem Deeds.settled_before {c : Content (Except ActorError Json)} (d : Deeds ms s t)
    (hlt : h < s.contents.length) (hne : s.content h ≠ .empty) (hc : c ≠ .drained)
    (ht : t.content h = c) : s.content h = c := by
  induction d with
  | refl s => exact ht
  | cons d _ ih =>
    have hgrows := Scene.Grows.of_deed d
    exact d.settled_before hlt hne hc
      (ih (Nat.lt_of_lt_of_le hlt hgrows.contents) (hgrows.resolved h hlt hne) ht)

/-! ### What a run loop is inside of -/

theorem Scene.current_onLane {b : ActorId} {f : Lane → Lane}
    (hf : (f (s.lane b)).current = (s.lane b).current ∨ (f (s.lane b)).current = []) :
    ((s.onLane b f).lane a).current = (s.lane a).current ∨
      ((s.onLane b f).lane a).current = [] := by
  rw [lane_onLane]
  split
  · rename_i hb
    rwa [hb.1]
  · exact .inl rfl

theorem Deed.current_eq (d : Deed ms s t) (hne : ∀ e, .entered a e ∉ ms) :
    (t.lane a).current = (s.lane a).current ∨ (t.lane a).current = [] := by
  cases d with
  | roster _ _ | found _ | pool _ _ | settled _ | drain _ | begin _ _ _ | setTask _ _ _ _ =>
    exact .inl rfl
  | enroll hl =>
    refine .inl ?_
    rw [Lane.current, Lane.current, (Scene.lane_enroll hl a).1]
  | stop _ =>
    rw [Scene.lane_stopAll]
    split <;> exact .inl rfl
  | endTask _ _ =>
    refine .inl (congrArg Lane.current ?_)
    exact Scene.lane_settleAll _ _ s a
  | remember _ _ =>
    refine Scene.current_onLane (.inl ?_)
    rw [Lane.remember_eq]
    rfl
  | accept _ _ _ _ _ => exact Scene.current_onLane (s := s.grow .empty) (.inl rfl)
  | clear _ | shut _ _ _ =>
    rw [Scene.lane_settleAll]
    exact Scene.current_onLane (.inl rfl)
  | abort _ | quit _ _ =>
    rw [Scene.lane_settleAll]
    exact Scene.current_onLane (.inr rfl)
  | start _ => exact Scene.current_onLane (.inr rfl)
  | proceed hloop _ =>
    refine Scene.current_onLane (.inl ?_)
    rw [Lane.current, Lane.current, hloop]
    rfl
  | enter _ _ _ =>
    rename_i b e _ _ _ _
    rw [Scene.lane_onLane, if_neg fun h => hne e (by simp [h.1])]
    exact .inl rfl
  | finish _ _ o =>
    rename_i b i _ _
    have := Scene.current_onLane (s := s.settleAll [i.handle] (.full o)) (a := a) (b := b)
      (f := fun l => { l with loop := .idle }) (.inr rfl)
    rwa [Scene.lane_settleAll] at this

/-- **Without a mark**, a run loop stays inside of what it is inside of, or is done with it. -/
theorem Deeds.current_eq (d : Deeds ms s t) (hne : ∀ e, .entered a e ∉ ms) :
    (t.lane a).current = (s.lane a).current ∨ (t.lane a).current = [] := by
  induction d with
  | refl s => exact .inl rfl
  | cons d _ ih =>
    have hfirst := d.current_eq fun e he => hne e (List.mem_append_left _ he)
    rcases ih fun e he => hne e (List.mem_append_right _ he) with h | h
    · rwa [h]
    · exact .inr h

theorem Deed.loop_of_entered {e : Envelope} (d : Deed ms s t) (hm : .entered a e ∈ ms) :
    (t.lane a).loop = .inside e.inside := by
  cases d with
  | enter hloop _ _ =>
    obtain ⟨rfl, rfl⟩ := Mark.entered.inj (List.mem_singleton.mp hm)
    have hlt := Scene.lt_of_loop (s := s) (a := a) (by rw [hloop]; simp)
    rw [Scene.lane_onLane, if_pos ⟨rfl, hlt⟩]
  | pool p e => simpa using Mark.mem_ofEvent hm
  | _ => simp at hm

/-- A run loop that has just begun with an envelope is inside of it. -/
theorem Deeds.loop_of_entered {e : Envelope} (d : Deeds ms s t) (hms : ms = [.entered a e]) :
    (t.lane a).loop = .inside e.inside := by
  induction d with
  | refl s => cases hms
  | cons d ds ih =>
    rename_i ns₁ ns₂ s u t
    cases ns₁ with
    | nil => exact ih hms
    | cons m ns =>
      obtain ⟨rfl, hrest⟩ := List.cons_eq_cons.mp hms
      obtain ⟨rfl, rfl⟩ := List.append_eq_nil_iff.mp hrest
      rw [ds.loop_eq (by simp)]
      exact d.loop_of_entered List.mem_cons_self

theorem Deeds.current_of_entered {e : Envelope} (d : Deeds ms s t) (hms : ms = [.entered a e]) :
    (t.lane a).current = [e.handle] := by
  rw [Lane.current_of_inside (d.loop_of_entered hms), Envelope.handle_inside]

theorem Deed.inside_or_lost {i : Inside} (hs : s.Sound) (d : Deed ms s t)
    (hm : ∀ m ∈ ms, m.loop? = some a → m = .aborted a) (hloop : (s.lane a).loop = .inside i) :
    (t.lane a).loop = .inside i ∨ t.content i.handle = .lost := by
  by_cases hab : .aborted a ∈ ms
  · cases d with
    | abort hclosed =>
      obtain rfl := Mark.aborted.inj (List.mem_singleton.mp hab)
      refine .inr ?_
      rw [Scene.content_onLane_settleAll, Scene.content_settleAll, Lane.current_of_inside hloop,
        if_pos (List.mem_singleton_self _),
        hs.content_of_handles (Lane.mem_handles_of_inside hloop)]
      rfl
    | pool p e => simpa using Mark.mem_ofEvent hab
    | _ => simp at hab
  · refine .inl ((d.loop_eq fun m hmem heq => ?_).trans hloop)
    exact hab (hm m hmem heq ▸ hmem)

/-- A run loop stays inside of its envelope, or the envelope is lost. -/
theorem Deeds.inside_or_lost {i : Inside} (hs : s.Sound) (d : Deeds ms s t)
    (hm : ∀ m ∈ ms, m.loop? = some a → m = .aborted a) (hloop : (s.lane a).loop = .inside i) :
    (t.lane a).loop = .inside i ∨ t.content i.handle = .lost := by
  induction d with
  | refl s => exact .inl hloop
  | cons d ds ih =>
    have hlt := hs.lt_of_handles (Lane.mem_handles_of_inside hloop)
    rcases d.inside_or_lost hs (fun m hmem => hm m (List.mem_append_left _ hmem)) hloop with hi | hl
    · exact ih (hs.deed d) (fun m hmem => hm m (List.mem_append_right _ hmem)) hi
    · exact .inr ((Scene.Grows.of_deeds ds).lost _
        (Nat.lt_of_lt_of_le hlt (Scene.Grows.of_deed d).contents) hl)

/-! ### What is dropped -/

theorem Deed.lost_of_dropped {e : Envelope} (hs : s.Sound) (d : Deed ms s t)
    (hne : ∀ e, .entered a e ∉ ms) (hmem : e ∈ (s.lane a).queue) :
    e ∈ (t.lane a).queue ∨ t.content e.handle = .lost := by
  have hempty : s.content e.handle = .empty :=
    hs.content_of_handles (List.mem_append_right _ (List.mem_map_of_mem hmem))
  -- A change of one lane that drops some envelopes and loses them.
  have drops : ∀ {b : ActorId} {f : Lane → Lane} {hs : List HandleId},
      (∀ k ∈ (s.lane b).queue, k ∈ (f (s.lane b)).queue ∨ k.handle ∈ hs) →
      e ∈ (((s.onLane b f).settleAll hs .lost).lane a).queue ∨
        ((s.onLane b f).settleAll hs .lost).content e.handle = .lost := by
    intro b f hs hf
    rw [Scene.lane_settleAll, Scene.lane_onLane]
    split
    · rename_i hb
      rw [hb.1] at hmem
      refine (hf e hmem).imp_right fun hh => ?_
      rw [Scene.content_onLane_settleAll, Scene.content_settleAll, if_pos hh, hempty]
      rfl
    · exact .inl hmem
  have keeps : ∀ {s : Scene} {b : ActorId} {f : Lane → Lane}, e ∈ (s.lane a).queue →
      (∀ k ∈ (s.lane b).queue, k ∈ (f (s.lane b)).queue) →
      e ∈ ((s.onLane b f).lane a).queue := by
    intro s b f hmem hf
    rw [Scene.lane_onLane]
    split
    · rename_i hb
      rw [hb.1] at hmem
      exact hf e hmem
    · exact hmem
  cases d with
  | roster _ _ | found _ | pool _ _ | settled _ | drain _ | begin _ _ _ | setTask _ _ _ _ =>
    exact .inl hmem
  | enroll hl =>
    refine .inl ?_
    rwa [(Scene.lane_enroll hl a).2]
  | stop _ =>
    rw [Scene.lane_stopAll]
    split <;> exact .inl hmem
  | endTask _ _ =>
    refine .inl ?_
    show e ∈ ((Scene.settleAll _ _ s).lane a).queue
    rwa [Scene.lane_settleAll]
  | remember _ _ =>
    refine .inl (keeps hmem fun k hk => ?_)
    rwa [Lane.remember_eq]
  | accept _ _ _ _ _ =>
    refine .inl (keeps (s := s.grow .empty) hmem fun k hk => ?_)
    exact List.mem_append_left _ hk
  | clear b =>
    refine drops fun k hk => ?_
    cases hrelay : k.isRelay with
    | true => exact .inl (List.mem_filter.mpr ⟨hk, hrelay⟩)
    | false => exact .inr (List.mem_map_of_mem (List.mem_filter.mpr ⟨hk, by simp [hrelay]⟩))
  | shut _ _ _ | quit _ _ => exact drops fun k hk => .inr (List.mem_map_of_mem hk)
  | abort _ => exact drops fun k hk => .inl hk
  | start _ | proceed _ _ => exact .inl (keeps hmem fun k hk => hk)
  | enter _ _ _ =>
    rename_i b e _ _ _ _
    rw [Scene.lane_onLane, if_neg fun h => hne e (by simp [h.1])]
    exact .inl hmem
  | finish _ _ o =>
    refine .inl (keeps ?_ fun k hk => hk)
    rwa [Scene.lane_settleAll]

/-- **What is dropped is lost.** -/
theorem Deeds.lost_of_dropped {e : Envelope} (hs : s.Sound) (d : Deeds ms s t)
    (hne : ∀ e, .entered a e ∉ ms) (hmem : e ∈ (s.lane a).queue) :
    e ∈ (t.lane a).queue ∨ t.content e.handle = .lost := by
  induction d with
  | refl s => exact .inl hmem
  | cons d ds ih =>
    have hlt : e.handle < _ :=
      hs.lt_of_handles (List.mem_append_right _ (List.mem_map_of_mem hmem))
    rcases d.lost_of_dropped hs (fun e he => hne e (List.mem_append_left _ he)) hmem with hk | hk
    · exact ih (hs.deed d) (fun e he => hne e (List.mem_append_right _ he)) hk
    · refine .inr ((Scene.Grows.of_deeds ds).lost e.handle ?_ hk)
      exact Nat.lt_of_lt_of_le hlt (Scene.Grows.of_deed d).contents

end Troupe
