import Mathlib.Data.List.DropRight
import Troupe.Proofs.Pool.Sparing
import Troupe.Proofs.World.LateStart
import Troupe.Proofs.World.Quiet

/-!
# Actors that share pools

Actors may have equal names, and they share pools without a thought. What keeps their jobs apart is
the tag: the name of the actor and its number, with a mark between them. A name may hold the mark
and digits as well, but the number is what follows the last mark, so two tags never coincide.

Clearing and closing an actor go by that tag, and by the handles in its mailbox. What they do to
pools concerns the jobs of one owner, and a handle is in one mailbox at most. So nothing that
belongs to another actor, to another owner or to nobody is touched.

## Main definitions

* `World.Spares` — what touches nothing but one actor, its jobs and what waits for it

## Main results

* `ownerTag_inj`, `World.owner_run` — actors have tags of their own
* `World.spares_clear`, `World.spares_beginClose` — clearing and closing spare everybody else
* `World.actors_isolated` — the same for a run, with what was sent to another actor
-/

namespace Troupe

/-! ### Tags -/

/-- The digits at the end of a text that is put together like a tag. -/
theorem rtakeWhile_digits (cs : List Char) (n : Nat) :
    (cs ++ '#' :: Text.digits n).rtakeWhile Text.isDigit = Text.digits n := by
  have hall : ∀ ds : List Char, (∀ c ∈ ds, Text.isDigit c = true) →
      (cs ++ '#' :: ds).rtakeWhile Text.isDigit = ds := by
    intro ds hds
    induction ds using List.reverseRecOn with
    | nil => exact List.rtakeWhile_concat_neg _ _ _ (by decide)
    | append_singleton ds c ih =>
      rw [← List.cons_append, ← List.append_assoc,
        List.rtakeWhile_concat_pos _ _ _ (hds c (by simp)),
        ih fun c hc => hds c (List.mem_append_left _ hc)]
  exact hall _ fun c hc => Text.isDigit_of_mem_digits hc

theorem toList_ownerTag (name : String) (a : ActorId) :
    (ownerTag name a).toList = name.toList ++ '#' :: Text.digits a := by
  have hparts : ownerTag name a = name ++ "#" ++ Text.decimal a := rfl
  simp [hparts, Text.decimal]

/-- **Tags do not coincide**, whatever the names are. -/
theorem ownerTag_inj {name other : String} {a b : ActorId}
    (h : ownerTag name a = ownerTag other b) : a = b := by
  have hlist := congrArg String.toList h
  rw [toList_ownerTag, toList_ownerTag] at hlist
  have hdigits : Text.digits a = Text.digits b := by
    rw [← rtakeWhile_digits name.toList a, hlist, rtakeWhile_digits]
  rw [← Text.ofDigits_digits a, hdigits, Text.ofDigits_digits]

variable {s t : Scene} {ms : List Mark}

/-- Every actor has the tag that is made of its name and its number. -/
def Scene.Tagged (s : Scene) : Prop :=
  ∀ a < s.lanes.length, (s.lane a).owner = ownerTag (s.lane a).name a

/-- An actor is created with its tag, or no actor is new. -/
theorem Deed.lanes_cases (d : Deed ms s t) : t.lanes.length = s.lanes.length ∨
    ∃ l : Lane, l.IsNew ∧ l.owner = ownerTag l.name s.lanes.length ∧
      t.lanes = s.lanes ++ [l] := by
  cases d with
  | enroll hl htag => exact .inr ⟨_, hl, htag, rfl⟩
  | roster _ _ | found _ | pool _ _ | settled _ | drain _ | begin _ _ _ | setTask _ _ _ _ =>
    exact .inl rfl
  | stop _ => exact .inl (Scene.length_lanes_stopAll _)
  | endTask _ _ => exact .inl (congrArg List.length (Scene.settleAll_frame _ _).1)
  | remember _ _ | start _ | enter _ _ _ | proceed _ _ => exact .inl (Scene.length_lanes_onLane ..)
  | accept _ _ _ _ _ => exact .inl (Scene.length_lanes_onLane (s := s.grow .empty) ..)
  | clear _ | shut _ _ _ | abort _ | quit _ _ =>
    exact .inl ((congrArg List.length (Scene.settleAll_frame _ _).1).trans
      (Scene.length_lanes_onLane ..))
  | finish _ _ _ =>
    exact .inl ((Scene.length_lanes_onLane ..).trans
      (congrArg List.length (Scene.settleAll_frame _ _).1))

theorem Deed.tagged (d : Deed ms s t) (hs : s.Tagged) : t.Tagged := by
  have old : ∀ a < s.lanes.length, (t.lane a).owner = ownerTag (t.lane a).name a := by
    intro a ha
    have hlane := (Scene.Grows.of_deed d).lane a ha
    rw [hlane.owner, hlane.name]
    exact hs a ha
  intro a ha
  rcases d.lanes_cases with hlen | ⟨l, _, htag, hlanes⟩
  · exact old a (hlen ▸ ha)
  · rw [hlanes, List.length_append, List.length_singleton] at ha
    rcases Nat.lt_succ_iff_lt_or_eq.mp ha with hlt | rfl
    · exact old a hlt
    · have hnew : t.lane s.lanes.length = l := by simp [Scene.lane, hlanes]
      rw [hnew]
      exact htag

namespace World

/-- In every run all actors have their tags, and all relays are escorted. -/
theorem tagged_run (acts : List Act) : (run acts).scene.Tagged ∧ (run acts).scene.AllEscorted := by
  refine ⟨keep_run (fun _ d => d.tagged) [] acts fun a ha => ?_,
    keep_run (fun _ d => d.allEscorted) [] acts fun a h p j hr => ?_⟩
  · exact absurd ha (Nat.not_lt_zero a)
  · rcases hr with hr | hr <;> cases hr

/-- **Actors have tags of their own.** -/
theorem owner_run (acts : List Act) {a b : ActorId} (ha : a < (run acts).actors.length)
    (hb : b < (run acts).actors.length) (hne : a ≠ b) :
    ((run acts).actor a).owner ≠ ((run acts).actor b).owner := by
  have htag := (tagged_run acts).1
  have tag : ∀ c < (run acts).actors.length,
      ((run acts).actor c).owner = ownerTag ((run acts).actor c).name c := by
    intro c hc
    have := htag c (by simpa using hc)
    rwa [lane_scene] at this
  rw [tag a ha, tag b hb]
  exact fun h => hne (ownerTag_inj h)

/-! ### Dropping and withdrawing -/

variable {w : World} {a : ActorId}

theorem channel_dropEnvelopes {es : List Envelope} {h : HandleId}
    (hh : h ∉ es.map Envelope.handle) : (w.dropEnvelopes es).channel h = w.channel h := by
  induction es generalizing w with
  | nil => rfl
  | cons e es ih =>
    simp only [List.map_cons, List.mem_cons, not_or] at hh
    refine (ih hh.2).trans ?_
    cases e with
    | operation k body answer =>
      have hne : k ≠ h := fun heq => hh.1 heq.symm
      simp [dropEnvelope, lose, onChannel, channel, hne]
    | relay k p j =>
      have hne : k ≠ h := fun heq => hh.1 heq.symm
      simp [dropEnvelope, lose, deafen, onPool, onChannel, channel, hne]

/-! ### Sparing everybody else -/

/-- What touches nothing but one actor, its jobs and what waits for it. -/
structure Spares (a : ActorId) (w w' : World) : Prop where
  /-- Other actors stay as they are. -/
  actor : ∀ b ≠ a, w'.actor b = w.actor b
  /-- So do all tasks. -/
  tasks : w'.tasks = w.tasks
  /-- Nothing happens to a handle that does not wait for the actor. -/
  channel : ∀ h ∉ w.queued a, w'.channel h = w.channel h
  /-- The jobs of others are spared in all pools. -/
  pool : ∀ p, (w.pool p).Spares (w.actor a).owner (w'.pool p)

theorem Spares.refl (a : ActorId) (w : World) : w.Spares a w :=
  ⟨fun _ _ => rfl, rfl, fun _ _ => rfl, fun _ => .refl _ _⟩

/-- What happens to the pools of a scene when an actor is closed concerns its jobs only, if its
relays are escorted. The same holds of a part of it. -/
theorem spares_onPools (hs : w.scene.Sound) (he : w.scene.AllEscorted)
    {es : List (PoolId × Pool.Event Work Json)} (hes : es ⊆ closings (w.scene.lane a))
    (p : PoolId) :
    (w.pool p).Spares (w.actor a).owner ((w.scene.onPools es).pool p) := by
  rw [← pool_scene]
  rcases Nat.lt_or_ge p w.scene.pools.length with hp | hp
  · rw [Scene.pool_onPools es w.scene hp]
    have hr : (w.scene.pool p).Reachable := by
      rw [pool_scene]
      exact reachable_pool hs (by simpa using hp)
    refine hr.spares_run fun e hmem => ?_
    obtain ⟨⟨q, e'⟩, hx, rfl⟩ := List.mem_map.mp hmem
    obtain ⟨hin, hq⟩ := List.mem_filter.mp hx
    obtain rfl : q = p := by simpa using hq
    rcases List.mem_append.mp (hes hin) with hx | hx
    · obtain ⟨env, henv, hx⟩ := List.mem_flatMap.mp hx
      cases env with
      | operation _ _ _ => cases hx
      | relay h r j =>
        obtain ⟨rfl, rfl⟩ := Prod.mk.inj (List.mem_singleton.mp hx)
        have howned := (he a h q j (.inr henv)).owned
        rwa [lane_scene] at howned
    · obtain ⟨r, _, hx⟩ := List.mem_map.mp hx
      obtain ⟨rfl, rfl⟩ := Prod.mk.inj hx
      rw [lane_scene]
      rfl
  · rw [Scene.pool_onPools_of_le es w.scene hp]
    exact .refl _ _

theorem pool_onLane_settleAll (s : Scene) (f : Lane → Lane) (hs : List HandleId) (p : PoolId) :
    ((s.onLane a f).settleAll hs .lost).pool p = s.pool p := by
  rw [Scene.pool, (Scene.settleAll_frame _ _).2.2.2.1, Scene.onLane, Scene.pool]

/-- An actor changes, envelopes of its mailbox are dropped, and then only pools change. -/
theorem Spares.of_frame {f : Actor → Actor} {w₁ w' : World} {es : List Envelope}
    (hactors : w₁.actors = (w.onActor a f).actors) (htasks : w₁.tasks = w.tasks)
    (hchannels : w₁.channels = w.channels)
    (hes : es ⊆ (w.actor a).mailbox.queue) (hactors' : w'.actors = (w₁.dropEnvelopes es).actors)
    (htasks' : w'.tasks = (w₁.dropEnvelopes es).tasks)
    (hchannels' : w'.channels = (w₁.dropEnvelopes es).channels)
    (hpool : ∀ p, (w.pool p).Spares (w.actor a).owner (w'.pool p)) : w.Spares a w' := by
  obtain ⟨channels, pools, hdrop⟩ := dropEnvelopes_frame es w₁
  refine ⟨fun b hne => ?_, ?_, fun h hh => ?_, hpool⟩
  · rw [World.actor, hactors', hdrop]
    show w₁.actors[b]?.getD default = _
    rw [hactors]
    exact actor_onActor_ne hne f w
  · rw [htasks', hdrop]
    exact htasks
  · have hkept : (w₁.dropEnvelopes es).channel h = w₁.channel h :=
      channel_dropEnvelopes fun hmem => hh ((List.map_subset _ hes) hmem)
    rw [World.channel, hchannels', ← World.channel, hkept, World.channel, hchannels, World.channel]

/-- **Clearing an actor** spares everybody else. -/
theorem spares_clear (hs : w.scene.Sound) (he : w.scene.AllEscorted) (a : ActorId) :
    w.Spares a (w.clear a).2 := by
  set es := (w.actor a).mailbox.queue.filter (!·.isRelay)
  set w₁ := w.onActor a fun actor => { actor with mailbox := (w.actor a).mailbox.clear.2 }
  obtain ⟨_, _, hcancel⟩ := cancelJobsIn_frame ((w₁.dropEnvelopes es).actor a).owner
    ((w₁.dropEnvelopes es).actor a).pools (w₁.dropEnvelopes es)
  have hclear : ∃ notice, (w.clear a).2 = ((w₁.dropEnvelopes es).withdrawJobs a).2.report notice :=
    ⟨_, rfl⟩
  obtain ⟨notice, hclear⟩ := hclear
  rw [withdrawJobs, hcancel] at hclear
  have htasks : w₁.tasks = w.tasks := rfl
  refine .of_frame rfl htasks rfl (List.filter_subset_self _)
    (by rw [hclear]; rfl) (by rw [hclear]; rfl) (by rw [hclear]; rfl) fun p => ?_
  rw [← pool_scene (w.clear a).2, scene_clear, Scene.onPools_settleAll, Scene.onPools_onLane,
    pool_onLane_settleAll]
  exact spares_onPools hs he (List.subset_append_right _ _) p

/-- **What a close does at once** spares everybody else. -/
theorem spares_shutActor (hs : w.scene.Sound) (he : w.scene.AllEscorted) (a : ActorId) :
    w.Spares a (w.shutActor a) := by
  set es := (w.actor a).mailbox.queue
  obtain ⟨w₁, hactors, htasks, hchannels, hshut⟩ : ∃ w₁ : World,
      w₁.actors = (w.onActor a fun actor => { actor with
        closed := true, stopping := true, mailbox := (w.actor a).mailbox.close.2 }).actors ∧
      w₁.tasks = w.tasks ∧ w₁.channels = w.channels ∧
      w.shutActor a = ((w₁.dropEnvelopes es).withdrawJobs a).2 := by
    refine ⟨_, ?_, ?_, ?_, rfl⟩
    all_goals
      split
      · rfl
      · rfl
  obtain ⟨_, _, hcancel⟩ := cancelJobsIn_frame ((w₁.dropEnvelopes es).actor a).owner
    ((w₁.dropEnvelopes es).actor a).pools (w₁.dropEnvelopes es)
  rw [withdrawJobs, hcancel] at hshut
  refine .of_frame hactors htasks hchannels (List.Subset.refl _)
    (by rw [hshut]) (by rw [hshut]) (by rw [hshut]) fun p => ?_
  rw [← pool_scene (w.shutActor a), scene_shutActor, pool_onLane_settleAll]
  exact spares_onPools hs he (List.Subset.refl _) p

/-- Only the actor itself changes. -/
theorem Spares.onward {w₁ w₂ : World} (h : w.Spares a w₁)
    (hactor : ∀ b ≠ a, w₂.actor b = w₁.actor b) (htasks : w₂.tasks = w₁.tasks)
    (hchannels : w₂.channels = w₁.channels) (hpools : w₂.pools = w₁.pools) : w.Spares a w₂ := by
  refine ⟨fun b hne => (hactor b hne).trans (h.actor b hne), htasks.trans h.tasks,
    fun k hk => ?_, fun p => ?_⟩
  · rw [World.channel, hchannels]
    exact h.channel k hk
  · have hsame : World.pool w₂ p = World.pool w₁ p := by rw [World.pool, hpools, World.pool]
    rw [hsame]
    exact h.pool p

/-- The second part of a close. -/
theorem Spares.finishClose {w₁ : World} (h : w.Spares a w₁) : w.Spares a (w₁.finishClose a) := by
  have hdetach : ∀ w₁ : World, w.Spares a w₁ → w.Spares a (w₁.detach a) := by
    intro w₁ h
    rw [detach]
    split
    · exact h
    · have hone : w.Spares a (w₁.onActor a fun actor => { actor with registration := none }) :=
        h.onward (fun b hne => actor_onActor_ne hne _ w₁) rfl rfl rfl
      simp only
      split
      · exact hone.onward (fun _ _ => rfl) rfl rfl rfl
      · exact hone
  refine (hdetach (w₁.onActor a fun actor => { actor with holdsTarget := false }) ?_).onward
    (fun _ _ => rfl) rfl rfl rfl
  exact h.onward (fun b hne => actor_onActor_ne hne _ w₁) rfl rfl rfl

/-- **The first part of a close** spares everybody else, wherever it is asked for. -/
theorem spares_beginClose (hs : w.scene.Sound) (he : w.scene.AllEscorted)
    (runLoop : Option ActorId) (system : Option SystemId) (a : ActorId) :
    w.Spares a (w.beginClose runLoop system a).2 := by
  have hshut := spares_shutActor hs he a
  rw [beginClose]
  split
  · exact (Spares.refl a w).onward (fun _ _ => rfl) rfl rfl rfl
  · dsimp only
    split
    · exact hshut.finishClose
    · exact hshut.onward (fun _ _ => rfl) rfl rfl rfl

/-! ### Runs -/

/-- What was sent to one actor does not wait for another one. -/
theorem not_queued_of_sending {acts : List Act} {x : Sending} (hx : x ∈ sendings acts)
    (hne : x.actor ≠ a) : x.handle ∉ (run acts).queued a := by
  intro hmem
  have hs := sound_run acts
  rw [queued_eq] at hmem
  have hhandles : x.handle ∈ ((run acts).scene.lane a).handles := List.mem_append_right _ hmem
  have hempty := hs.content_of_handles hhandles
  by_cases hroute : x.route = .bypass
  · obtain ⟨t, course, ht⟩ := task_of_bypass hx hroute (outcome?_eq_none_iff.mpr hempty)
    exact hs.ne_of_task hhandles (Scene.mem_of_lookup ht) rfl
  · exact hne (hs.lane_eq ((ledger_run acts).placed x hx hroute hempty) hhandles)

/-- **Actors that share pools do not get in each other's way.** Two actors have different tags,
whatever their names are. Clearing one of them, and what closing it does at once, leaves the other
one as it is, with its mailbox and its tasks, and all handles of what was sent to it. In every pool
the jobs that do not belong to the first one, those of the other one as well as those of other
owners or of nobody, wait in the same order or go on running, their handles stay as they are, and
other owners have as many jobs waiting and on record as before. -/
theorem actors_isolated (acts : List Act) {a b : ActorId} (ha : a < (run acts).actors.length)
    (hb : b < (run acts).actors.length) (hne : a ≠ b) :
    let w := run acts
    let tag := (w.actor a).owner
    tag ≠ (w.actor b).owner ∧
      ∀ w', w' = (w.clear a).2 ∨ (∃ runLoop system, w' = (w.beginClose runLoop system a).2) →
        w'.actor b = w.actor b ∧ w'.tasks = w.tasks ∧
        (∀ x ∈ sendings acts, x.actor = b → w'.channel x.handle = w.channel x.handle) ∧
        ∀ p, (w'.pool p).queue.filter (·.owner ≠ some tag) =
              (w.pool p).queue.filter (·.owner ≠ some tag) ∧
          (w'.pool p).running = (w.pool p).running ∧
          (∀ job ∈ (w.pool p).queue ++ (w.pool p).running, job.owner ≠ some tag →
            (w'.pool p).channel job.id = (w.pool p).channel job.id) ∧
          ∀ name ≠ tag, (w'.pool p).pendingCount name = (w.pool p).pendingCount name ∧
            (w'.pool p).outstandingCount name = (w.pool p).outstandingCount name := by
  intro w tag
  have hs : w.scene.Sound := sound_run acts
  have he : w.scene.AllEscorted := (tagged_run acts).2
  refine ⟨owner_run acts ha hb hne, fun w' hw' => ?_⟩
  have hspares : w.Spares a w' := by
    rcases hw' with rfl | ⟨runLoop, system, rfl⟩
    · exact spares_clear hs he a
    · exact spares_beginClose hs he runLoop system a
  refine ⟨hspares.actor b (Ne.symm hne), hspares.tasks, fun x hx hto => ?_, fun p => ?_⟩
  · exact hspares.channel _ (not_queued_of_sending hx (by rw [hto]; exact Ne.symm hne))
  · have hp := hspares.pool p
    exact ⟨hp.queue, Pool.running_of_crew hp.crew, hp.channel, fun name hname =>
      ⟨hp.pending name hname, congrArg List.length (hp.ids name hname)⟩⟩

/-- Two actors of one name share a pool with one worker, which is busy at a gate. -/
def sharedRun : List Act :=
  [.call (.createActor "a" "n#1" "log" {}), .call (.createActor "b" "n#1" "log" {}),
    .call (.createPool "p" "crew" 1),
    .call (.send (.offload "a" "p" false [.gate "g"] .value (.watched "x"))),
    .call (.send (.offload "a" "p" false [.push "first"] .value (.watched "y"))),
    .call (.send (.offload "b" "p" false [.push "second"] .value (.watched "z"))),
    .move (.worker 0 0)]

/-- The job of the other one goes on waiting. -/
theorem actors_isolated_sharedRun :
    let w := run sharedRun
    let w' := (w.clear 0).2
    (w.actor 0).name = (w.actor 1).name ∧ (w.actor 0).owner ≠ (w.actor 1).owner ∧
      w'.actor 1 = w.actor 1 ∧ (w'.pool 0).running = (w.pool 0).running ∧
      (w.pool 0).queuedIds = [1, 2] ∧ 2 ∈ (w'.pool 0).queuedIds ∧
      (w'.pool 0).pendingCount (w.actor 1).owner = (w.pool 0).pendingCount (w.actor 1).owner := by
  intro w w'
  have hlt : 0 < (run sharedRun).actors.length ∧ 1 < (run sharedRun).actors.length := by decide
  obtain ⟨htags, hspares⟩ := actors_isolated sharedRun hlt.1 hlt.2 (by decide)
  obtain ⟨hactor, _, _, hpool⟩ := hspares w' (.inl rfl)
  obtain ⟨hqueue, hrunning, _, hcounts⟩ := hpool 0
  obtain ⟨job, hjob, hid, howner⟩ : ∃ job ∈ (w.pool 0).queue, job.id = 2 ∧
      job.owner = some (w.actor 1).owner :=
    ⟨_, List.mem_cons_of_mem _ List.mem_cons_self, rfl, rfl⟩
  have hother : job.owner ≠ some (w.actor 0).owner := by
    rw [howner]
    exact fun h => htags (Option.some.inj h).symm
  have hwaits : job ∈ (w'.pool 0).queue.filter (·.owner ≠ some (w.actor 0).owner) := by
    rw [hqueue]
    exact List.mem_filter.mpr ⟨hjob, by simpa using hother⟩
  refine ⟨rfl, htags, hactor, hrunning, rfl, ?_, (hcounts _ (Ne.symm htags)).1⟩
  exact Pool.mem_queuedIds.mpr ⟨job, (List.mem_filter.mp hwaits).1, hid⟩

end World

end Troupe
