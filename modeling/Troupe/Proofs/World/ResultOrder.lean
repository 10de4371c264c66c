import Troupe.Proofs.World.OrderedPath

/-!
# The order of results

Jobs of several pools finish in any order, and some are withdrawn or refused before others have
begun. Their outcomes still come out in the order in which the operations were sent: a relay hands
over the outcome of its job only when its turn comes, so whatever is resolved with an outcome was
the first unresolved handle of its actor.

A later operation can be known earlier in two ways only. It was discarded, which is no outcome; or
the actor refused it when it was sent, so that it never went into the mailbox.

## Main definitions

* `World.InOrder` — what a later sending may show while an earlier one shows nothing

## Main results

* `Deeds.later` — what happens does not bring a later handle to the fore
* `World.results_in_order` — all pairs of sendings, in all runs
-/

namespace Troupe

variable {s t : Scene} {ms : List Mark} {a : ActorId}

/-! ### One deed -/

/-- Of two handles of a lane, the later one gets no outcome. -/
theorem Deed.later (hs : s.Sound) (d : Deed ms s t) {x y : HandleId} (hlt : x < y)
    (hx : x ∈ (s.lane a).handles) (hy : y ∈ (s.lane a).handles) :
    t.content y = .empty ∨ t.content y = .lost := by
  have hpending := hs.content_of_handles hy
  rcases d.resolves hpending with h | h | ⟨task, htask, h, _⟩ | ⟨b, i, hloop, h, _⟩
  · exact .inl h
  · exact .inr h
  · exact absurd h (hs.ne_of_task hy htask)
  · -- The run loop is inside of the later one, so the earlier one is not in the lane.
    have hcurrent : (s.lane b).current = [y] := by rw [Lane.current_of_inside hloop, h]
    obtain rfl := hs.lane_eq hy (b := b) (List.mem_append_left _ (by simp [hcurrent]))
    have hsorted := hs.sorted a
    rw [Lane.handles, hcurrent, List.singleton_append] at hsorted hx
    rcases List.mem_cons.mp hx with rfl | hx
    · exact absurd hlt (Nat.lt_irrefl _)
    · exact absurd (List.rel_of_pairwise_cons hsorted hx) (Nat.lt_asymm hlt)

/-- **What happens does not bring a later handle to the fore.** -/
theorem Deeds.later (hs : s.Sound) (d : Deeds ms s t) {x y : HandleId} (hlt : x < y)
    (hx : x ∈ (s.lane a).handles) (hy : y ∈ (s.lane a).handles) (he : t.content x = .empty) :
    t.content y = .empty ∨ t.content y = .lost := by
  induction d with
  | refl s => exact .inl (hs.content_of_handles hy)
  | cons d ds ih =>
    rename_i u _
    have hgrows := Scene.Grows.of_deed d
    have hrest := Scene.Grows.of_deeds ds
    have hxlt := Nat.lt_of_lt_of_le (hs.lt_of_handles hx) hgrows.contents
    have hylt := Nat.lt_of_lt_of_le (hs.lt_of_handles hy) hgrows.contents
    have hxe : u.content x = .empty := by
      by_contra hne
      exact hrest.resolved x hxlt hne he
    rcases d.later hs hlt hx hy with hye | hyl
    · exact ih (hs.deed d) (d.mem_handles hx hxe) (d.mem_handles hy hye) he
    · exact .inr (hrest.lost y hylt hyl)

namespace World

variable {w : World} {act : Act}

/-! ### One act -/

/-- What is sent through a mailbox goes into it, or is refused at once. -/
theorem sending_next (hs : w.scene.Sound) {z : Sending} (hz : w.sending act = some z)
    (hroute : z.route ≠ .bypass) : z.actor < w.actors.length ∧ w.channels.length ≤ z.handle ∧
      z.handle < (w.next act).channels.length ∧
      (z.handle ∈ ((w.next act).scene.lane z.actor).handles ∨
        (w.next act).scene.content z.handle ≠ .empty ∧
          z.answer = some (.error (.closed (w.actor z.actor).name))) := by
  obtain ⟨ms, ns, d, hms, hns⟩ := deeds_next hs act
  obtain ⟨⟨a, h, r⟩, ht, rfl⟩ := Option.map_eq_some_iff.mp hz
  obtain ⟨hheld, hnew⟩ := of_target? ht
  refine ⟨lt_of_held hs hheld, hnew, ?_⟩
  rw [← length_contents_scene]
  cases hms.answers ht with
  | refused =>
    have hfull := hns.full_of_settled d
    rw [content_scene] at hfull
    refine ⟨?_, .inr ⟨by simp [content_scene, hfull], ?_⟩⟩
    · by_contra hge
      rw [← content_scene, Scene.content_of_le (Nat.le_of_not_lt hge)] at hfull
      cases hfull
    simp only [outcome?, Channel.peek, hfull, lane_scene]
    rfl
  | past hr _ => exact absurd hr hroute
  | admitted he hr _ =>
    have hmem : h ∈ ((w.next act).scene.lane a).handles := by
      refine List.mem_append_right _ ?_
      rw [Lane.waiting, hns.queue_eq d, onQueue_ofAdmission]
      simp [he]
    exact ⟨(hs.deeds d).lt_of_handles hmem, .inl hmem⟩

/-- What a later sending may show while an earlier one shows nothing: nothing, or that it was
discarded, or that it was refused when it was sent. Discarded means that its producer was lost; an
outcome that was already taken, after which a look shows the same, does not count. -/
def InOrder (w : World) (x y : Sending) : Prop :=
  w.outcome? x.handle = none →
    w.outcome? y.handle = none ∨ (w.channel y.handle).content = .lost ∨
      y.answer = some (.error (.closed (w.actor y.actor).name))

/-! ### Runs -/

/-- What is known of the sendings of a run while it goes on. -/
structure Ledger (acts : List Act) : Prop where
  /-- They have gone to actors. -/
  there : ∀ x ∈ sendings acts, x.route ≠ .bypass → x.actor < (run acts).actors.length
  /-- They have handles. -/
  made : ∀ x ∈ sendings acts, x.route ≠ .bypass → x.handle < (run acts).channels.length
  /-- What is unresolved is in its lane. -/
  placed : ∀ x ∈ sendings acts, x.route ≠ .bypass → (run acts).scene.content x.handle = .empty →
    x.handle ∈ ((run acts).scene.lane x.actor).handles
  /-- They come out in order. -/
  order : (sendings acts).Pairwise fun x y => x.actor = y.actor → x.route ≠ .bypass →
    y.route ≠ .bypass → x.handle < y.handle ∧ (run acts).InOrder x y

/-- A pair that is in order stays so. -/
theorem InOrder.next (hs : w.scene.Sound) {x y : Sending} (act : Act) (hlt : x.handle < y.handle)
    (hactor : x.actor = y.actor) (hthere : y.actor < w.actors.length)
    (hmade : y.handle < w.channels.length)
    (hx : w.scene.content x.handle = .empty → x.handle ∈ (w.scene.lane x.actor).handles)
    (hy : w.scene.content y.handle = .empty → y.handle ∈ (w.scene.lane y.actor).handles)
    (h : w.InOrder x y) : (w.next act).InOrder x y := by
  obtain ⟨ms, ns, d, _⟩ := deeds_next hs act
  have hgrows := Scene.Grows.of_deeds d
  intro hempty
  rw [outcome?_eq_none_iff] at hempty
  have hold : w.scene.content x.handle = .empty := by
    by_contra hne
    refine hgrows.resolved x.handle ?_ hne hempty
    rw [length_contents_scene]
    exact Nat.lt_trans hlt hmade
  rw [outcome?_eq_none_iff, ← content_scene]
  rcases h (outcome?_eq_none_iff.mpr hold) with h | h | h
  · have hy := hy (outcome?_eq_none_iff.mp h)
    rw [← hactor] at hy
    exact (d.later hs hlt (hx hold) hy hempty).imp_right .inl
  · rw [← content_scene] at h
    exact .inr (.inl (hgrows.lost y.handle (by rwa [length_contents_scene]) h))
  · have hname := (hgrows.lane y.actor (by rwa [length_lanes_scene])).name
    rw [lane_scene, lane_scene] at hname
    refine .inr (.inr (h.trans ?_))
    rw [show ((w.next act).actor y.actor).name = (w.actor y.actor).name from hname]

theorem Ledger.next {acts : List Act} (h : Ledger acts) (act : Act) : Ledger (acts ++ [act]) := by
  have hs := sound_run acts
  obtain ⟨ms, ns, d, _⟩ := deeds_next hs act
  have hgrows := Scene.Grows.of_deeds d
  have hlanes : (run acts).actors.length ≤ ((run acts).next act).actors.length := by
    simpa using hgrows.lanes
  have hcontents : (run acts).channels.length ≤ ((run acts).next act).channels.length := by
    simpa using hgrows.contents
  have hnew : ∀ z ∈ ((run acts).sending act).toList, z.route ≠ .bypass → _ :=
    fun z hz hr => sending_next hs (Option.mem_toList.mp hz) hr
  refine ⟨?_, ?_, ?_, ?_⟩
  · intro x hx hr
    rw [run_concat]
    rw [sendings_concat] at hx
    rcases List.mem_append.mp hx with hx | hx
    · exact Nat.lt_of_lt_of_le (h.there x hx hr) hlanes
    · exact Nat.lt_of_lt_of_le (hnew x hx hr).1 hlanes
  · intro x hx hr
    rw [run_concat]
    rw [sendings_concat] at hx
    rcases List.mem_append.mp hx with hx | hx
    · exact Nat.lt_of_lt_of_le (h.made x hx hr) hcontents
    · exact (hnew x hx hr).2.2.1
  · intro x hx hr hempty
    rw [run_concat] at hempty ⊢
    rw [sendings_concat] at hx
    rcases List.mem_append.mp hx with hx | hx
    · have hlt : x.handle < (run acts).scene.contents.length := by simpa using h.made x hx hr
      refine d.mem_handles hlt (h.placed x hx hr ?_) hempty
      by_contra hne
      exact hgrows.resolved x.handle hlt hne hempty
    · exact (hnew x hx hr).2.2.2.resolve_right fun hrefused => hrefused.1 hempty
  · rw [sendings_concat, run_concat, List.pairwise_append]
    refine ⟨?_, ?_, ?_⟩
    · refine h.order.imp_of_mem fun {x y} hx hy hxy hactor hrx hry => ?_
      obtain ⟨hlt, horder⟩ := hxy hactor hrx hry
      exact ⟨hlt, horder.next hs act hlt hactor (h.there y hy hry) (h.made y hy hry)
        (h.placed x hx hrx) (h.placed y hy hry)⟩
    · cases (run acts).sending act <;> simp
    · intro x hx y hy hactor hrx hry
      obtain ⟨hthere, hle, _, hplace⟩ := hnew y hy hry
      refine ⟨Nat.lt_of_lt_of_le (h.made x hx hrx) hle, fun _ => ?_⟩
      rcases hplace with hmem | ⟨_, hanswer⟩
      · exact .inl (outcome?_eq_none_iff.mpr ((hs.deeds d).content_of_handles hmem))
      · have hname := (hgrows.lane y.actor (by rwa [length_lanes_scene])).name
        rw [lane_scene, lane_scene] at hname
        refine .inr (.inr (hanswer.trans ?_))
        rw [show (((run acts).next act).actor y.actor).name = ((run acts).actor y.actor).name
          from hname]

theorem ledger_run (acts : List Act) : Ledger acts := by
  induction acts using List.reverseRecOn with
  | nil =>
    have hnil : sendings [] = [] := rfl
    refine ⟨?_, ?_, ?_, ?_⟩ <;> simp [hnil]
  | append_singleton acts act ih => exact ih.next act

/-- **The order of results.** Of two sendings to one actor through its mailbox, the later one shows
nothing while the earlier one shows nothing, unless it was discarded or refused. -/
theorem results_in_order (acts : List Act) :
    (sendings acts).Pairwise fun x y => x.actor = y.actor → x.route ≠ .bypass →
      y.route ≠ .bypass → (run acts).InOrder x y :=
  (ledger_run acts).order.imp fun h hactor hrx hry => (h hactor hrx hry).2

end World

end Troupe
