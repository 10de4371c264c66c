import Troupe.Proofs.Pool.Termination
import Troupe.Proofs.World.Charters
import Troupe.Proofs.World.Dismissals
import Troupe.Proofs.World.Offloads

/-!
# The end of a system

To terminate a system is to forbid it everything, to dismiss its actors, and to shut its pools down,
in this order. The first part takes effect at once: from then on the system has no actors, and
nobody gets in any more. So the pools that the termination meets when it comes to them are those
that belonged to the system when it began, and they are all it has to deal with.

A pool is dealt with when its workers have left, or when its grace period is over and what waits
there has been dropped. Either way nothing waits and nothing can come, and this stays so. What is
still running then has overrun the grace period.

## Main definitions

* `World.joins?` — the system that a call would bring something to
* `World.Overran` — a job was still running when the grace period of its pool was over
* `World.DealtWith` — a pool, as far as a termination goes, once it is over with it
* `World.Underway` — how far a termination has got

## Main results

* `World.barred_next` — a system that has been terminated has no actors, and gets none
* `World.answer_of_terminated` — nobody gets in
* `World.DealtWith.concat`, `Underway.concat` — a termination gets further with its pools
* `World.released_run` — what nobody holds has been let go of
* `World.next_of_terminated` — further terminations change nothing
* `World.termination_settles` — what is true of a system once it is being terminated
-/

namespace Troupe

/-! ### Without actors -/

namespace Book

variable {b : Book} {s : SystemId}

theorem terminated_onHouse {k : SystemId} {f : House → House}
    (hf : ∀ x, x.terminated = true → (f x).terminated = true)
    (h : (b.house s).terminated = true) : ((b.onHouse k f).house s).terminated = true := by
  rw [house_onHouse]
  split
  · rename_i hk
    exact hf _ (hk.1 ▸ h)
  · exact h

/-- To be terminated is for good. -/
theorem terminated_turn (t : Turn) (h : (b.house s).terminated = true) :
    ((b.turn t).house s).terminated = true := by
  cases t with
  | founds => rwa [house_founds]
  | lists k key a invocable => exact terminated_onHouse (b := b.onPost a _) (fun _ hx => hx) h
  | strikes k key => exact terminated_onHouse (fun _ hx => hx) h
  | wipes k => exact terminated_onHouse (fun _ _ => rfl) h
  | forgets S =>
    rw [house, turn, List.getElem?_mapIdx]
    rw [house] at h
    cases hhouse : b.houses[s]? with
    | none => rwa [hhouse] at h
    | some x =>
      rw [hhouse] at h
      simp only [Option.map_some, Option.getD_some]
      split <;> exact h
  | leaves a =>
    show ((b.housesWithout a)[s]?.getD (default : ActorSystem).house).terminated = true
    rw [housesWithout]
    split
    · exact h
    · split
      · exact terminated_onHouse (fun _ hx => hx) h
      · exact h
  | joins | binds _ _ | drops _ | shuts _ | waits => exact h

/-- A system has been terminated, and it has no actors. -/
structure Barred (b : Book) (s : SystemId) : Prop where
  /-- It has been terminated. -/
  terminated : (b.house s).terminated = true
  /-- No name leads anywhere. -/
  deserted : ∀ key, b.leads s key = none

/-- A system that has been terminated remains without actors if no name is given there. -/
theorem Barred.turn (h : b.Barred s) {t : Turn}
    (ht : ∀ key a invocable, t ≠ .lists s key a invocable) : (b.turn t).Barred s := by
  refine ⟨terminated_turn t h.terminated, fun key => ?_⟩
  have hnone := Option.map_eq_none_iff.mp (h.deserted key)
  rw [leads_eq, known?_turn_eq_none hnone fun a invocable => ht key a invocable]
  rfl

theorem Barred.turns (h : b.Barred s) {ts : List Turn}
    (hts : ∀ key a invocable, .lists s key a invocable ∉ ts) : (b.turns ts).Barred s := by
  induction ts generalizing b with
  | nil => exact h
  | cons t ts ih =>
    refine ih (h.turn fun key a invocable heq => ?_) fun key a invocable hmem => ?_
    · exact hts key a invocable (heq ▸ List.mem_cons_self)
    · exact hts key a invocable (List.mem_cons_of_mem _ hmem)

end Book

namespace World

variable {w : World} {s : SystemId} {act : Act}

open Book (Turn)

/-- Names are given only in systems that have not been terminated. -/
theorem running_of_registers? {key : String} {a : ActorId}
    (h : w.registers? act = some (s, key, a)) : (w.system s).terminated = false := by
  unfold registers? at h
  split at h
  · split at h
    · split at h <;> cases h
      rename_i hcond
      simpa using (Bool.and_eq_true_iff.mp hcond).2
    · cases h
  · split at h
    · split at h
      · split at h <;> cases h
        rename_i hcond
        simpa using (Bool.and_eq_true_iff.mp hcond).2
      · cases h
    · cases h
  · split at h
    · split at h
      · cases h
      · rename_i hcond
        cases h
        simpa using hcond
    · cases h
  · cases h

/-- **A system that has been terminated** has no actors, and gets none. -/
theorem barred_next (hs : w.scene.Sound) (h : w.book.Barred s) (act : Act) :
    (w.next act).book.Barred s := by
  obtain ⟨ts, hconduct, S, -, hshows⟩ := conduct_next hs act
  rw [hshows]
  refine Book.Barred.turn (h.turns fun key a invocable hmem => ?_) (by simp)
  have hterm := h.terminated
  rw [house_book, ActorSystem.house] at hterm
  rw [running_of_registers? (hconduct.registers?_of_lists hmem)] at hterm
  cases hterm

variable {t : TaskId} {h : HandleId}

/-- The first termination of a system begins. -/
theorem next_of_begins (ht : w.task? t = some (.termination h s .starting))
    (hnew : (w.system s).terminated = false) :
    w.next (.move (.task t)) = ((w.beginTermination s).2.setTask t
      (.termination h s (.closing (w.beginTermination s).1))).release :=
  next_of_stepTask (by simp [stepTask, ht, stepTermination, hnew])

/-- A termination frees all names when it begins. -/
theorem barred_of_begins (hs : w.scene.Sound) (hlt : s < w.systems.length)
    (ht : w.task? t = some (.termination h s .starting))
    (hnew : (w.system s).terminated = false) : (w.next (.move (.task t))).book.Barred s := by
  obtain ⟨us, hbook, hopens⟩ := book_beginTermination hs s
  have hwiped : (w.book.turn (.wipes s)).Barred s := by
    refine ⟨?_, fun key => by rw [Book.leads_wipes, if_pos rfl]⟩
    have hhouse := w.book.house_onHouse s s fun x => { x with terminated := true, registry := {} }
    show ((w.book.onHouse s _).house s).terminated = true
    rw [hhouse, if_pos ⟨rfl, by simpa [book] using hlt⟩]
  rw [next_of_begins ht hnew, book_release, (discreet_setTask ..).book, hbook, Book.turns_append]
  refine Book.Barred.turn (hwiped.turns fun key a invocable hmem => ?_) (by simp)
  rcases hopens.only _ hmem with h | ⟨_, _, h⟩ <;> cases h

/-! ### Coming in -/

/-- The system that a call would bring an actor or a pool to. -/
def joins? (w : World) : Call → Option SystemId
  | .createMember system _ _ _ _ => (w.systemNamed system).toOption
  | .createChild parent _ _ _ => (w.actorNamed parent).toOption.bind w.systemOf
  | .attach system actor _ _ =>
    (w.actorNamed actor).toOption.bind fun _ => (w.systemNamed system).toOption
  | .addPool system pool =>
    (w.poolNamed pool).toOption.bind fun _ => (w.systemNamed system).toOption
  | _ => none

theorem eq_ok_of_toOption {ε α : Type} {x : Except ε α} {a : α} (h : x.toOption = some a) :
    x = .ok a := by
  cases x with
  | error e => cases h
  | ok b => rw [Option.some.inj h]

/-- **Nobody gets into a system that has been terminated.** -/
theorem answer_of_terminated (hterm : (w.system s).terminated = true) {c : Call}
    (hc : w.joins? c = some s) :
    w.answer c = .ok (.failed (.actor (.terminated (w.system s).name)), w) := by
  have hmember := createMember_of_terminated hterm
  unfold joins? at hc
  split at hc
  · have hsystem := eq_ok_of_toOption hc
    simp [answer, hsystem, hmember, created, bind, Except.bind, pure, Except.pure]
  · obtain ⟨a, hactor, hsystem⟩ := Option.bind_eq_some_iff.mp hc
    have hparent := eq_ok_of_toOption hactor
    simp [answer, hparent, createChild, hsystem, hmember, andThen, created, bind, Except.bind,
      pure, Except.pure]
  · obtain ⟨a, hactor, hsystem⟩ := Option.bind_eq_some_iff.mp hc
    simp [answer, eq_ok_of_toOption hactor, eq_ok_of_toOption hsystem,
      register_of_terminated hterm, created, bind, Except.bind, pure, Except.pure]
  · obtain ⟨p, hpool, hsystem⟩ := Option.bind_eq_some_iff.mp hc
    simp [answer, eq_ok_of_toOption hpool, eq_ok_of_toOption hsystem,
      addPool_of_terminated hterm, bind, Except.bind, pure, Except.pure]
  · cases hc

/-! ### Letting go -/

/-- What nobody holds has been let go of. -/
structure Released (w : World) : Prop where
  /-- Somebody holds every system that is held. -/
  systems : ∀ s system, w.systems[s]? = some system → system.held = true → w.holdsSystem s = true
  /-- Somebody holds every actor whose run loop is not to stop. -/
  actors : ∀ a actor, w.actors[a]? = some actor → actor.stopping = false → w.holdsActor a = true

theorem Released.release_eq (h : w.Released) : w.release = w := by
  have hsystems : w.releaseSystems = w := by
    have hsame : (w.systems.mapIdx fun s system => if system.held && !w.holdsSystem s then
        { system with held := false, registry := {} } else system) = w.systems := by
      refine List.ext_getElem? fun s => ?_
      rw [List.getElem?_mapIdx]
      cases hget : w.systems[s]? with
      | none => rfl
      | some system =>
        have hholds := h.systems s system hget
        cases hheld : system.held <;> simp_all
    rw [releaseSystems, hsame]
  have hsame : (w.actors.mapIdx fun a actor => if !actor.stopping && !w.holdsActor a then
      { actor with stopping := true } else actor) = w.actors := by
    refine List.ext_getElem? fun a => ?_
    rw [List.getElem?_mapIdx]
    cases hget : w.actors[a]? with
    | none => rfl
    | some actor =>
      have hholds := h.actors a actor hget
      cases hstops : actor.stopping <;> simp_all
  rw [release, hsystems, releaseActors, hsame]

theorem loopWaits_release (w : World) : w.release.loopWaits = w.loopWaits := by
  have hloops : w.release.actors.map Actor.loop = w.actors.map Actor.loop := by
    refine List.ext_getElem? fun a => ?_
    rw [release, releaseActors, List.getElem?_map, List.getElem?_mapIdx, List.getElem?_map]
    show Option.map _ (Option.map _ w.actors[a]?) = _
    cases w.actors[a]? with
    | none => rfl
    | some actor =>
      simp only [Option.map_some]
      split <;> rfl
  have hwaits : ∀ w : World, w.loopWaits =
      (w.actors.map Actor.loop).filterMap fun l => l.course?.bind (·.wait) := by
    intro w
    rw [loopWaits, List.filterMap_map]
    rfl
  rw [hwaits, hwaits, hloops]

/-- Letting go once is enough. -/
theorem released_release (w : World) : w.release.Released where
  systems s system hget hheld := by
    have hholds : w.release.holdsSystem s = w.holdsSystem s := by
      simp only [holdsSystem, loopWaits_release]
      rfl
    rw [hholds]
    have hsystems : w.release.systems[s]? = w.systems[s]?.map fun system =>
        if system.held && !w.holdsSystem s then { system with held := false, registry := {} }
        else system := List.getElem?_mapIdx ..
    rw [hsystems] at hget
    obtain ⟨old, _, rfl⟩ := Option.map_eq_some_iff.mp hget
    split at hheld
    · cases hheld
    · rename_i hcond
      simp only [hheld, Bool.true_and, Bool.not_eq_true, Bool.not_eq_false'] at hcond
      exact hcond
  actors a actor hget hruns := by
    show w.releaseSystems.holdsActor a = true
    have hactors : w.release.actors[a]? = w.actors[a]?.map fun actor =>
        if !actor.stopping && !w.releaseSystems.holdsActor a then { actor with stopping := true }
        else actor := List.getElem?_mapIdx ..
    rw [hactors] at hget
    obtain ⟨old, _, rfl⟩ := Option.map_eq_some_iff.mp hget
    split at hruns
    · cases hruns
    · rename_i hcond
      simp only [hruns, Bool.not_false, Bool.true_and, Bool.not_eq_true,
        Bool.not_eq_false'] at hcond
      exact hcond

/-- **What nobody holds has been let go of**, whenever something has happened. -/
theorem released_run (acts : List Act) : (run acts).Released := by
  induction acts using List.reverseRecOn with
  | nil =>
    refine ⟨fun s system hget => ?_, fun a actor hget => ?_⟩
    · cases hget
    · cases hget
  | append_singleton acts act ih =>
    rw [run_concat]
    cases act with
    | observe => exact ⟨ih.systems, ih.actors⟩
    | call c =>
      rw [next, call]
      split
      · exact released_release _
      · exact ih
    | move m =>
      rw [next]
      cases hstep : (run acts).step m with
      | none => exact ih
      | some w' =>
        cases m <;>
          (obtain ⟨w₁, _, rfl⟩ := Option.map_eq_some_iff.mp hstep
           exact released_release w₁)

/-! ### Pools -/

variable {p : PoolId} {acts : List Act}

/-- What happens to a pool is a list of events. -/
theorem events_next (hs : w.scene.Sound) (act : Act) (hp : p < w.pools.length) :
    ∃ es, (w.next act).pool p = (w.pool p).run es := by
  obtain ⟨ms, d, -⟩ := fits_next hs act
  obtain ⟨es, hpool, -⟩ := d.pool_eq (p := p) (by simpa using hp)
  rw [pool_scene, pool_scene] at hpool
  exact ⟨es, hpool⟩

theorem length_pools_next (hs : w.scene.Sound) (act : Act) :
    w.pools.length ≤ (w.next act).pools.length := by
  obtain ⟨ms, d, -⟩ := fits_next hs act
  have hlen := d.keep (P := fun u => w.scene.pools.length ≤ u.pools.length)
    (fun d hle => Nat.le_trans hle d.length_pools) (Nat.le_refl _)
  simpa using hlen

/-- A grace period runs out: the termination drains the pool, and workers are left. -/
structure Expires (w : World) (t : TaskId) (p : PoolId) : Prop where
  /-- It is the turn of the pool. -/
  drains : ∃ h s rest, w.task? t = some (.termination h s (.draining (p :: rest)))
  /-- Its workers have not left. -/
  staffed : (w.pool p).isTerminated = false

/-- In a run, a job was still running when the grace period of its pool was over. -/
def Overran (acts : List Act) (t : TaskId) (p : PoolId) (j : JobId) : Prop :=
  ∃ before after, acts = before ++ .move (.grace t) :: after ∧ (run before).Expires t p ∧
    j ∈ ((run before).pool p).runningIds

theorem Overran.concat {j : JobId} (h : Overran acts t p j) (act : Act) :
    Overran (acts ++ [act]) t p j := by
  obtain ⟨before, after, rfl, hexpires, hj⟩ := h
  exact ⟨before, after ++ [act], by simp, hexpires, hj⟩

/-- A termination is over with a pool: nothing waits and nothing can come, and whatever is still
running has overrun the grace period. -/
structure DealtWith (acts : List Act) (t : TaskId) (p : PoolId) : Prop where
  /-- The pool is there. -/
  lt : p < (run acts).pools.length
  /-- Nothing waits, and nothing can come. -/
  emptied : ((run acts).pool p).Emptied
  /-- Whatever is still running has overrun. -/
  overran : ∀ j ∈ ((run acts).pool p).runningIds, Overran acts t p j

/-- **What has been dealt with** remains so. -/
theorem DealtWith.concat (h : DealtWith acts t p) (act : Act) : DealtWith (acts ++ [act]) t p := by
  have hs := sound_run acts
  obtain ⟨es, hpool⟩ := events_next hs act h.lt
  obtain ⟨hempty, hids⟩ := h.emptied.run (reachable_pool hs h.lt) es
  rw [← hpool] at hempty hids
  refine ⟨?_, ?_, fun j hj => ?_⟩
  · rw [run_concat]
    exact Nat.lt_of_lt_of_le h.lt (length_pools_next hs act)
  · rwa [run_concat]
  · rw [run_concat] at hj
    exact (h.overran j (hids j hj)).concat act

/-- A pool that all workers have left is dealt with. -/
theorem dealtWith_of_terminated (hp : p < (run acts).pools.length)
    (hterm : ((run acts).pool p).isTerminated = true) : DealtWith acts t p := by
  obtain ⟨hempty, hrunning⟩ := (reachable_pool (sound_run acts) hp).emptied hterm
  refine ⟨hp, hempty, fun j hj => ?_⟩
  rw [Pool.runningIds, hrunning] at hj
  cases hj

theorem pool_emptyPool (hp : p < w.pools.length) :
    (w.emptyPool p).2.pool p = (w.pool p).shutdownNow.2 := by
  have hpool := pool_onPool hp fun _ => (w.pool p).shutdownNow.2
  simp only [emptyPool]
  split <;> exact hpool

/-- **A grace period that runs out**: what waits in the pool is dropped, and the termination goes on
with the next pool. -/
theorem next_of_expires {s : SystemId} {rest : List PoolId}
    (ht : w.task? t = some (.termination h s (.draining (p :: rest))))
    (hstaffed : (w.pool p).isTerminated = false) :
    (w.next (.move (.grace t))).pool p = (w.emptyPool p).2.pool p ∧
      (w.next (.move (.grace t))).task? t = some (.termination h s (.draining rest)) := by
  obtain ⟨n, hstep⟩ : ∃ n, w.expireGrace t = some (((w.emptyPool p).2.report n).setTask t
      (.termination h s (.draining rest))) := by
    simp only [expireGrace, ht, hstaffed]
    exact ⟨_, rfl⟩
  have hnext : w.next (.move (.grace t)) = (((w.emptyPool p).2.report n).setTask t
      (.termination h s (.draining rest))).release :=
    next_of_step (by rw [step, hstep]; rfl)
  have htask : ((w.emptyPool p).2.report n).task? t =
      some (.termination h s (.draining (p :: rest))) := by
    have htasks : (w.emptyPool p).2.tasks = w.tasks := by
      simp only [emptyPool]
      split <;> rfl
    rw [← ht, task?, task?, ← htasks]
    rfl
  rw [hnext, pool_release, task?_release]
  exact ⟨rfl, task?_setTask htask _⟩

/-- A pool whose grace period runs out is dealt with. -/
theorem dealtWith_of_expires (hp : p < (run acts).pools.length)
    (hexpires : (run acts).Expires t p) : DealtWith (acts ++ [.move (.grace t)]) t p := by
  obtain ⟨h, s, rest, ht⟩ := hexpires.drains
  have hpool := (next_of_expires ht hexpires.staffed).1.trans (pool_emptyPool hp)
  have hrunning : ((run acts).pool p).shutdownNow.2.runningIds =
      ((run acts).pool p).runningIds := by
    rw [Pool.runningIds, Pool.running_of_woken (Pool.discards_frame _ _).2.1, Pool.runningIds]
  refine ⟨?_, ?_, fun j hj => ?_⟩
  · rw [run_concat]
    exact Nat.lt_of_lt_of_le hp (length_pools_next (sound_run acts) _)
  · rw [run_concat, hpool]
    exact Pool.emptied_shutdownNow _
  · rw [run_concat, hpool, hrunning] at hj
    exact ⟨acts, [], rfl, hexpires, hj⟩

/-! ### How far a termination has got -/

/-- Nothing joins a system that has been terminated. -/
theorem joining_of_terminated (hterm : (w.system s).terminated = true) (act : Act) :
    w.joining s act = [] := by
  unfold joining
  split
  · split
    · refine if_neg ?_
      rintro ⟨rfl, hok⟩
      rw [addPool_of_terminated hterm] at hok
      cases hok
    · rfl
  · rfl

theorem tasks_endWait (x : Wait) (w : World) : (w.endWait x).tasks = w.tasks := by
  have hfinish : ∀ (a : ActorId) (w : World), (w.finishClose a).tasks = w.tasks := by
    intro a w
    show ((w.onActor a _).detach a).tasks = _
    rw [detach]
    split
    · rfl
    · dsimp only
      split <;> rfl
  rw [endWait, hfinish]
  split
  · rfl
  · simp only [abortLoop]
    split <;> rfl

/-- How far a termination has got with the pools of its system. -/
inductive Underway (acts : List Act) (t : TaskId) (h : HandleId) (s : SystemId)
    (pools : List PoolId) : Prop where
  /-- It waits for actors. -/
  | closing {waits : List Wait}
    (ht : (run acts).task? t = some (.termination h s (.closing waits)))
    (hpools : ((run acts).system s).pools = pools) : Underway acts t h s pools
  /-- It has shut the pools down, and it is over with those that it does not drain any more. -/
  | draining {rest : List PoolId}
    (ht : (run acts).task? t = some (.termination h s (.draining rest)))
    (hdone : ∀ p ∈ pools, p ∈ rest ∨ DealtWith acts t p) : Underway acts t h s pools
  /-- It is over with all pools. -/
  | done (hdone : ∀ p ∈ pools, DealtWith acts t p) : Underway acts t h s pools

section Underway

variable {pools : List PoolId} {act : Act}

/-- A termination that does not move is as far as it was. -/
theorem Underway.lasts (u : Underway acts t h s pools)
    (hsame : (run (acts ++ [act])).task? t = (run acts).task? t)
    (hpools : ((run (acts ++ [act])).system s).pools = ((run acts).system s).pools) :
    Underway (acts ++ [act]) t h s pools := by
  cases u with
  | closing ht hp => exact .closing (hsame.trans ht) (hpools.trans hp)
  | draining ht hdone =>
    exact .draining (hsame.trans ht) fun p hp => (hdone p hp).imp_right (·.concat act)
  | done hdone => exact .done fun p hp => (hdone p hp).concat act

/-- A move that is not possible leaves a termination as far as it was. -/
theorem Underway.stays (u : Underway acts t h s pools) {m : Mover}
    (hnone : (run acts).step m = none) : Underway (acts ++ [.move m]) t h s pools := by
  refine u.lasts ?_ ?_ <;> rw [run_concat, next_of_stuck hnone]

/-- What a task makes of itself is there after its move. -/
theorem task?_concat {w' : World} (hstep : (run acts).stepTask t = some w') :
    (run (acts ++ [.move (.task t)])).task? t = w'.task? t := by
  rw [run_concat, next_of_stepTask hstep, task?_release]

/-- A termination that waits for actors moves: it ends a wait that is over, or it shuts the pools
down. -/
theorem underway_closing {waits : List Wait}
    (ht : (run acts).task? t = some (.termination h s (.closing waits)))
    (hp : ((run acts).system s).pools = pools)
    (hpools : ((run (acts ++ [.move (.task t)])).system s).pools = pools) :
    Underway (acts ++ [.move (.task t)]) t h s pools := by
  cases waits with
  | nil =>
    have hstep : (run acts).stepTask t = some (((run acts).stopPools pools).setTask t
        (.termination h s (.draining pools))) := by
      simp [stepTask, ht, stepTermination, hp]
    have ht₁ : ((run acts).stopPools pools).task? t = some (.termination h s (.closing [])) := by
      rw [task?, tasks_stopPools]
      exact ht
    exact .draining ((task?_concat hstep).trans (task?_setTask ht₁ _)) fun p hp => .inl hp
  | cons first waits =>
    cases hfind : (first :: waits).find? (run acts).isOver with
    | none =>
      exact (Underway.closing ht hp).stays (by simp [step, stepTask, ht, stepTermination, hfind])
    | some x =>
      have hstep : (run acts).stepTask t = some (((run acts).endWait x).setTask t
          (.termination h s (.closing ((first :: waits).filter (·.order != x.order))))) := by
        simp [stepTask, ht, stepTermination, hfind]
      have ht₁ : ((run acts).endWait x).task? t =
          some (.termination h s (.closing (first :: waits))) := by
        rw [task?, tasks_endWait]
        exact ht
      exact .closing ((task?_concat hstep).trans (task?_setTask ht₁ _)) hpools

/-- A termination that drains pools moves: it goes on without those whose workers have all left. -/
theorem underway_draining {rest : List PoolId} (hlt : ∀ p ∈ pools, p < (run acts).pools.length)
    (ht : (run acts).task? t = some (.termination h s (.draining rest)))
    (hdone : ∀ p ∈ pools, p ∈ rest ∨ DealtWith acts t p) :
    Underway (acts ++ [.move (.task t)]) t h s pools := by
  cases rest with
  | nil => exact .done fun p hp => ((hdone p hp).resolve_left (by simp)).concat _
  | cons q rest =>
    by_cases hany : (q :: rest).any (fun p => ((run acts).pool p).isTerminated) = true
    · have hstep : (run acts).stepTask t = some ((run acts).setTask t (.termination h s
          (.draining ((q :: rest).filter fun p => !((run acts).pool p).isTerminated)))) := by
        simp only [stepTask, ht, Option.bind_some, stepTermination, hany, if_true]
      refine .draining ((task?_concat hstep).trans (task?_setTask ht _)) fun p hp => ?_
      rcases hdone p hp with hrest | hold
      · cases hterm : ((run acts).pool p).isTerminated with
        | true => exact .inr ((dealtWith_of_terminated (hlt p hp) hterm).concat _)
        | false => exact .inl (List.mem_filter.mpr ⟨hrest, by simp [hterm]⟩)
      · exact .inr (hold.concat _)
    · refine (Underway.draining ht hdone).stays ?_
      simp only [step, stepTask, ht, Option.bind_some, stepTermination, hany]
      rfl

/-- The grace period of the first pool that a termination drains runs out. -/
theorem underway_grace {rest : List PoolId}
    (ht : (run acts).task? t = some (.termination h s (.draining rest)))
    (hdone : ∀ p ∈ pools, p ∈ rest ∨ DealtWith acts t p) :
    Underway (acts ++ [.move (.grace t)]) t h s pools := by
  have u : Underway acts t h s pools := .draining ht hdone
  cases rest with
  | nil => exact u.stays (by simp [step, expireGrace, ht])
  | cons q rest =>
    cases hterm : ((run acts).pool q).isTerminated with
    | true => exact u.stays (by simp [step, expireGrace, ht, hterm])
    | false =>
      have hq : q < (run acts).pools.length := by
        by_contra hge
        rw [pool_of_le (Nat.le_of_not_lt hge)] at hterm
        cases hterm
      obtain ⟨-, hrest⟩ := next_of_expires ht hterm
      rw [← run_concat] at hrest
      refine .draining hrest fun p hp => ?_
      rcases hdone p hp with hmem | hold
      · rcases List.mem_cons.mp hmem with rfl | hmem
        · exact .inr (dealtWith_of_expires hq ⟨⟨h, s, rest, ht⟩, hterm⟩)
        · exact .inl hmem
      · exact .inr (hold.concat _)

/-- **A termination gets further.** -/
theorem Underway.concat (u : Underway acts t h s pools)
    (hlt : ∀ p ∈ pools, p < (run acts).pools.length)
    (hpools : ((run (acts ++ [act])).system s).pools = ((run acts).system s).pools) :
    Underway (acts ++ [act]) t h s pools := by
  -- What others do leaves the task alone.
  have lasts : ∀ {stage}, (run acts).task? t = some (.termination h s stage) →
      act ≠ .move (.task t) → act ≠ .move (.grace t) → Underway (acts ++ [act]) t h s pools := by
    intro stage ht htask hgrace
    refine u.lasts ?_ hpools
    rw [run_concat, task_next (sound_run acts) ht ⟨htask, hgrace⟩, ht]
  cases u with
  | done hdone => exact .done fun p hp => (hdone p hp).concat _
  | closing ht hp =>
    by_cases htask : act = .move (.task t)
    · subst htask
      exact underway_closing ht hp (hpools.trans hp)
    · by_cases hgrace : act = .move (.grace t)
      · subst hgrace
        exact (Underway.closing ht hp).stays (by simp [step, expireGrace, ht])
      · exact lasts ht htask hgrace
  | draining ht hdone =>
    by_cases htask : act = .move (.task t)
    · subst htask
      exact underway_draining hlt ht hdone
    · by_cases hgrace : act = .move (.grace t)
      · subst hgrace
        exact underway_grace ht hdone
      · exact lasts ht htask hgrace

end Underway

/-- **What is true of a termination** from the time when it begins. -/
theorem underway_run (before later : List Act) (hlt : s < (run before).systems.length)
    (ht : (run before).task? t = some (.termination h s .starting))
    (hnew : ((run before).system s).terminated = false) :
    let acts := before ++ .move (.task t) :: later
    (run acts).book.Barred s ∧ s < (run acts).systems.length ∧
      ((run acts).system s).charter = ((run before).system s).charter ∧
      Underway acts t h s ((run before).system s).pools := by
  dsimp only
  induction later using List.reverseRecOn with
  | nil =>
    have hs := sound_run before
    have hcharter := charter_next (.move (.task t)) hlt
    rw [show (run before).joining s (.move (.task t)) = [] from rfl, List.append_nil] at hcharter
    obtain ⟨ms, d, hms, _⟩ := deeds_beginTermination hs s
    have ht₁ : ((run before).beginTermination s).2.task? t = some (.termination h s .starting) :=
      d.lookup_eq (fun hm => by obtain ⟨a, ha⟩ := hms _ hm; cases ha) ht
    have htask : ((run before).next (.move (.task t))).task? t =
        some (.termination h s (.closing ((run before).beginTermination s).1)) := by
      rw [next_of_begins ht hnew, task?_release]
      exact task?_setTask ht₁ _
    rw [← run_concat] at hcharter htask
    rw [run_concat]
    refine ⟨barred_of_begins hs hlt ht hnew, ?_, ?_, ?_⟩
    · exact Nat.lt_of_lt_of_le hlt (length_systems_next _ _)
    · rw [← run_concat]
      exact hcharter
    · exact .closing htask (congrArg Charter.pools hcharter)
  | append_singleton later act ih =>
    obtain ⟨hbarred, hthere, hcharter, u⟩ := ih
    set acts := before ++ .move (.task t) :: later with hacts
    have hs := sound_run acts
    have hterm : ((run acts).system s).terminated = true := by
      have := hbarred.terminated
      rwa [house_book] at this
    have hsame : ((run (acts ++ [act])).system s).charter = ((run acts).system s).charter := by
      rw [run_concat, charter_next act hthere, joining_of_terminated hterm, List.append_nil]
      rfl
    have hrun : before ++ .move (.task t) :: (later ++ [act]) = acts ++ [act] := by simp [hacts]
    rw [hrun]
    refine ⟨?_, ?_, hsame.trans hcharter, ?_⟩
    · rw [run_concat]
      exact barred_next hs hbarred act
    · rw [run_concat]
      exact Nat.lt_of_lt_of_le hthere (length_systems_next _ _)
    · have hpools : ((run acts).system s).pools = ((run before).system s).pools :=
        congrArg Charter.pools hcharter
      refine u.concat (fun p hp => ?_) (congrArg Charter.pools hsame)
      rw [← hpools] at hp
      exact lt_of_heldPool hs (held_of_systemPools hp)

/-! ### Further terminations -/

/-- Nothing changes but that a call is over, and that the system is perhaps not held any more. -/
structure InVain (w w' : World) (t : TaskId) (h : HandleId) (s : SystemId) : Prop where
  /-- The call succeeds. -/
  outcome : w'.outcome? h = some (.ok .null)
  /-- No other handle is touched. -/
  channels : ∀ k, k ≠ h → w'.channel k = w.channel k
  /-- The call is over. -/
  tasks : w'.tasks = w.tasks.filter (·.1 != t)
  /-- The actors are as they were. -/
  actors : w'.actors = w.actors
  /-- The pools are as they were. -/
  pools : w'.pools = w.pools
  /-- The systems are as they were, apart from who holds them. -/
  systems : ∀ k, w'.system k = w.system k ∨ k = s ∧ w'.system k = { w.system k with held := false }

theorem registry_eq_of_barred (hb : w.book.Barred s) : (w.system s).registry = {} := by
  have hfind : ∀ key, (w.system s).registry.find? key = none := by
    intro key
    have hnone := hb.deserted key
    rw [Book.leads, house_book, Option.map_eq_none_iff] at hnone
    exact hnone
  generalize (w.system s).registry = r at hfind
  obtain ⟨_ | ⟨⟨key, e⟩, entries⟩⟩ := r
  · rfl
  · have := hfind key
    simp [Registry.find?] at this

section Vain

variable {w₁ : World}

/-- Where everybody but one deserted system is held as before, only that system is let go of. -/
theorem systems_release_of (hr : w.Released) (hb : w.book.Barred s)
    (hsystems : w₁.systems = w.systems)
    (hholds : ∀ k, k ≠ s → w.holdsSystem k = true → w₁.holdsSystem k = true) {k : SystemId}
    {system : ActorSystem} (hget : w.systems[k]? = some system) :
    w₁.release.systems[k]? = some system ∨
      k = s ∧ w₁.release.systems[k]? = some { system with held := false } := by
  have hmap : w₁.release.systems[k]? = w.systems[k]?.map fun system =>
      if system.held && !w₁.holdsSystem k then { system with held := false, registry := {} }
      else system := by
    rw [← hsystems]
    exact List.getElem?_mapIdx ..
  rw [hmap, hget, Option.map_some]
  split
  · rename_i hcond
    simp only [Bool.and_eq_true, Bool.not_eq_true'] at hcond
    by_cases hk : k = s
    · subst hk
      have hempty := registry_eq_of_barred hb
      rw [World.system, hget, Option.getD_some] at hempty
      exact .inr ⟨rfl, by rw [← hempty]⟩
    · have := hholds k hk (hr.systems k system hget hcond.1)
      rw [hcond.2] at this
      cases this
  · exact .inl rfl

/-- Where every actor is held as before, no run loop is told to stop. -/
theorem actors_release_of (hr : w.Released) (hactors : w₁.actors = w.actors)
    (hholds : ∀ a, w.holdsActor a = true → w₁.releaseSystems.holdsActor a = true) :
    w₁.release.actors = w.actors := by
  have hmap : ∀ a : ActorId, w₁.release.actors[a]? = w.actors[a]?.map fun actor =>
      if !actor.stopping && !w₁.releaseSystems.holdsActor a then { actor with stopping := true }
      else actor := by
    intro a
    rw [← hactors]
    exact List.getElem?_mapIdx ..
  refine List.ext_getElem? fun a => ?_
  rw [hmap]
  cases hget : w.actors[a]? with
  | none => rfl
  | some actor =>
    cases hstops : actor.stopping with
    | true => simp [hstops]
    | false => simp [hholds a (hr.actors a actor hget hstops)]

section Ended

variable (hs : w.scene.Sound) (ht : w.task? t = some (.termination h s .starting))
  (htasks : w₁.tasks = w.tasks.filter (·.1 != t)) (hnames : w₁.names = w.names)
  (hactors : w₁.actors = w.actors)

include hs ht htasks

/-- Where a task has ended, what others have is there as before. -/
theorem any_tasks_of_ended {f : Task → Bool} (hf : f (.termination h s .starting) = false)
    (hany : w.tasks.any (fun x => f x.2) = true) : w₁.tasks.any (fun x => f x.2) = true := by
  obtain ⟨x, hx, hfx⟩ := List.any_eq_true.mp hany
  rw [htasks]
  refine List.any_eq_true.mpr ⟨x, List.mem_filter.mpr ⟨hx, ?_⟩, hfx⟩
  rw [bne_iff_ne]
  rintro rfl
  have hget := task?_of_mem hs hx
  rw [ht] at hget
  rw [← Option.some.inj hget, hf] at hfx
  cases hfx

include hnames hactors

/-- A termination that has not begun holds its system and nothing else. -/
theorem holdsSystem_of_ended {k : SystemId} (hk : k ≠ s) (hheld : w.holdsSystem k = true) :
    w₁.holdsSystem k = true := by
  have hwaits : w₁.loopWaits = w.loopWaits := by rw [loopWaits, hactors, loopWaits]
  have hfree : (Task.termination h s .starting).holdsSystem k = false := by
    simp [Task.holdsSystem, Ne.symm hk]
  rw [holdsSystem, Bool.or_eq_true, Bool.or_eq_true] at hheld ⊢
  rw [hnames, hwaits]
  exact hheld.imp_left (.imp_right (any_tasks_of_ended hs ht htasks hfree))

theorem holdsActor_of_ended (hr : w.Released) (hb : w.book.Barred s)
    (hsystems : w₁.systems = w.systems) {a : ActorId} (hheld : w.holdsActor a = true) :
    w₁.releaseSystems.holdsActor a = true := by
  rw [holdsActor, Bool.or_eq_true, Bool.or_eq_true] at hheld ⊢
  refine hheld.imp (.imp (fun hname => ?_) fun hentry => ?_)
    (any_tasks_of_ended hs ht htasks rfl)
  · rw [← hnames] at hname
    exact hname
  · obtain ⟨system, hmem, hentry⟩ := List.any_eq_true.mp hentry
    obtain ⟨k, hk⟩ := List.mem_iff_getElem?.mp hmem
    rcases systems_release_of hr hb hsystems
      (fun k => holdsSystem_of_ended hs ht htasks hnames hactors) hk with hsame | ⟨_, hsame⟩
    · exact List.any_eq_true.mpr ⟨_, List.mem_of_getElem? hsame, hentry⟩
    · exact List.any_eq_true.mpr ⟨_, List.mem_of_getElem? hsame, hentry⟩

end Ended

/-- **Further terminations** change nothing. -/
theorem next_of_terminated (hs : w.scene.Sound) (hr : w.Released) (hb : w.book.Barred s)
    (ht : w.task? t = some (.termination h s .starting)) :
    w.InVain (w.next (.move (.task t))) t h s := by
  have hterm : (w.system s).terminated = true := by
    have := hb.terminated
    rwa [house_book] at this
  set w₀ := w.report (.alreadyTerminated (w.system s).name) with hw₀
  set w₁ := (w₀.resolve h (.ok .null)).endTask t with hw₁
  have hnext : w.next (.move (.task t)) = w₁.release :=
    next_of_stepTask (by simp [stepTask, ht, stepTermination, hterm, hw₁, hw₀])
  have hchannel : ∀ k, w₁.release.channel k = (w₀.resolve h (.ok .null)).channel k := fun k => by
    rw [channel_release, hw₁]
    rfl
  obtain ⟨hsystems, hactors, hnames, hpools, htasks⟩ : w₁.systems = w.systems ∧
      w₁.actors = w.actors ∧ w₁.names = w.names ∧ w₁.pools = w.pools ∧
      w₁.tasks = w.tasks.filter (·.1 != t) := by
    rw [hw₁, endTask, resolve]
    split <;> exact ⟨rfl, rfl, rfl, rfl, rfl⟩
  have hholds : ∀ k, k ≠ s → w.holdsSystem k = true → w₁.holdsSystem k = true := fun k =>
    holdsSystem_of_ended hs ht htasks hnames hactors
  have hruns : w₁.release.actors = w.actors := actors_release_of hr hactors fun a =>
    holdsActor_of_ended hs ht htasks hnames hactors hr hb hsystems
  rw [hnext]
  refine ⟨?_, fun k hk => ?_, htasks, hruns, hpools, fun k => ?_⟩
  · rw [outcome?, hchannel, ← outcome?]
    refine outcome?_resolve ?_ (.ok .null)
    rw [hw₀, scene_report]
    exact content_of_task hs ht
  · rw [hchannel, channel_resolve_ne hk]
    rfl
  · rw [system, system]
    cases hget : w.systems[k]? with
    | none =>
      have hnone : w₁.release.systems[k]? = none := by
        rw [List.getElem?_eq_none_iff] at hget ⊢
        show (w₁.systems.mapIdx _).length ≤ k
        rwa [List.length_mapIdx, hsystems]
      rw [hnone]
      exact .inl rfl
    | some x =>
      rcases systems_release_of hr hb hsystems hholds hget with hsame | ⟨hk, hsame⟩
      · exact .inl (by rw [hsame])
      · exact .inr ⟨hk, by rw [hsame]; rfl⟩

end Vain

/-! ### All of it -/

theorem DealtWith.append (hd : DealtWith acts t p) (more : List Act) :
    DealtWith (acts ++ more) t p := by
  induction more using List.reverseRecOn with
  | nil => rwa [List.append_nil]
  | append_singleton more act ih =>
    rw [← List.append_assoc]
    exact ih.concat act

/-- **Terminations settle everything for good.** Let the first termination of a system begin. From
then on no name leads anywhere in the system, every call that would bring an actor or a pool to it
fails and changes nothing, and further terminations of it change nothing. The pools of the system
are its default pool and those that have joined it before. When the termination has resolved, each
of them has been shut down with nothing waiting, and this stays so: in any history of such a pool,
every job that it has ever accepted has been executed or withdrawn, or it is running and was running
when the grace period of the pool was over. -/
theorem termination_settles (before later : List Act) (hlt : s < (run before).systems.length)
    (ht : (run before).task? t = some (.termination h s .starting))
    (hnew : ((run before).system s).terminated = false) :
    let acts := before ++ .move (.task t) :: later
    let w := run acts
    (w.system s).registry.entries = [] ∧
    (∀ c, w.joins? c = some s → w.call c = (.failed (.actor (.terminated (w.system s).name)), w)) ∧
    (∀ t' h', w.task? t' = some (.termination h' s .starting) →
      w.InVain (w.next (.move (.task t'))) t' h' s) ∧
    (w.system s).pools = ((run before).system s).defaultPool :: record (joining s) before ∧
    (w.outcome? h ≠ none → ∀ more, ∀ p ∈ (w.system s).pools,
      let q := (run (acts ++ more)).pool p
      q.stopped = true ∧ q.queue = [] ∧
      ∀ {name : String} {size : Nat} {p₀ : Pool Work Json} {es : List (Pool.Event Work Json)},
        Pool.create name size = .ok p₀ → (p₀.play es).1 = q → ∀ j ∈ (p₀.play es).2.accepted,
          Pool.Stands q (p₀.play es).2 j .finished ∨ Pool.Stands q (p₀.play es).2 j .withdrawn ∨
          Pool.Stands q (p₀.play es).2 j .running ∧ Overran (acts ++ more) t p j) := by
  intro acts w
  have hs : w.scene.Sound := sound_run acts
  obtain ⟨hbarred, -, hcharter, u⟩ := underway_run before later hlt ht hnew
  have hterm : (w.system s).terminated = true := by
    have := hbarred.terminated
    rwa [house_book] at this
  have hpools : (w.system s).pools = ((run before).system s).pools :=
    congrArg Charter.pools hcharter
  refine ⟨by rw [registry_eq_of_barred hbarred], fun c hc => ?_,
    fun t' h' ht' => next_of_terminated hs (released_run acts) hbarred ht', ?_,
    fun hresolved more p hp => ?_⟩
  · have hrelease : w.release = w := (released_run acts).release_eq
    simp only [call, answer_of_terminated hterm hc, hrelease]
  · have hget : ((run before).system s).charter ∈ (run before).charters[s]? := by
      rw [charter_eq, List.getElem?_eq_getElem (by simpa using hlt)]
      rfl
    rw [hpools]
    exact pools_run before _ hget
  · have dealt : ∀ p ∈ ((run before).system s).pools, DealtWith acts t p := by
      -- A termination that is in progress has not resolved.
      have unresolved : ∀ {stage}, w.task? t = some (.termination h s stage) → False := fun ht =>
        hresolved (outcome?_eq_none_iff.mpr (content_of_task hs ht))
      cases u with
      | closing ht _ => exact (unresolved ht).elim
      | draining ht _ => exact (unresolved ht).elim
      | done hdone => exact hdone
    have hdone := (dealt p (hpools ▸ hp)).append more
    refine ⟨hdone.emptied.stopped, hdone.emptied.queue, fun {name size p₀ es} hcreate hq j hj => ?_⟩
    have hconserved := (Pool.Conserved.create hcreate).play es
    rw [hq] at hconserved
    exact (hdone.emptied.stands hconserved hj).imp_right
      (.imp_right fun h => ⟨h.1, hdone.overran j h.2⟩)

/-- A pool joins a system twice. One of its jobs waits at a gate and another one waits for it, and
the termination of the system is asked for. -/
def crowdedRun : List Act :=
  [.call (.createSystem "s" "sys" 1 (.ofSecs 30) {}), .call (.createPool "p" "crew" 1),
    .call (.addPool "s" "p"), .call (.addPool "s" "p"),
    .call (.send (.job "p" none false [.gate "g"] (.watched "u"))),
    .call (.send (.job "p" none false [] (.watched "v"))), .move (.worker 1 0),
    .call (.terminate "s" "t")]

/-- The default pool drains in time, and the other one does not. -/
def crowdedLater : List Act :=
  [.move (.task 0), .move (.worker 0 0), .move (.task 0), .move (.grace 0), .move (.grace 0),
    .move (.task 0)]

/-- The termination has resolved. The job at the gate is still running, and has overrun the grace
period; the other one has been withdrawn. -/
theorem termination_settles_crowdedRun :
    let acts := crowdedRun ++ .move (.task 0) :: crowdedLater
    let w := run acts
    (0 < (run crowdedRun).systems.length ∧ ((run crowdedRun).system 0).terminated = false ∧
      (run crowdedRun).task? 0 = some (.termination 0 0 .starting)) ∧
    w.outcome? 0 = some (.ok .null) ∧ (w.system 0).pools = [0, 1, 1] ∧
    (w.pool 1).outcome? 0 = none ∧ (w.pool 1).outcome? 1 = some (.error .cancelled) ∧
    (w.call (.addPool "s" "p")).1 = .failed (.actor (.terminated "sys")) ∧
    (w.pool 1).stopped = true ∧ Overran acts 0 1 0 := by
  intro acts w
  have htask : (run crowdedRun).task? 0 = some (.termination 0 0 .starting) := rfl
  obtain ⟨-, hcalls, -, -, hresolved⟩ :=
    termination_settles crowdedRun crowdedLater (s := 0) (t := 0) (h := 0) (by decide) htask rfl
  have hover : w.outcome? 0 = some (.ok .null) := rfl
  have hmem : 1 ∈ (w.system 0).pools := by decide
  have hpool := hresolved (by simp [w, acts, hover]) [] 1 hmem
  rw [List.append_nil] at hpool
  obtain ⟨hstopped, -, hjobs⟩ := hpool
  have hpools : 1 < w.pools.length := by decide
  obtain ⟨name, size, p₀, es, hcreate, hplay⟩ := reachable_pool (sound_run acts) hpools
  have hruns : 0 ∈ (w.pool 1).runningIds := by decide
  have hconserved := (Pool.Conserved.create hcreate).play es
  rw [hplay] at hconserved
  have hoverran : Overran acts 0 1 0 := by
    rcases hjobs hcreate hplay 0 (hconserved.running 0 hruns) with h | h | h
    · cases h.eq_running hruns
    · cases h.eq_running hruns
    · exact h.2
  have hcall := hcalls (.addPool "s" "p") (by decide)
  rw [show (w.system 0).name = "sys" by decide] at hcall
  exact ⟨⟨by decide, rfl, htask⟩, hover, by decide, rfl, rfl, congrArg Prod.fst hcall, hstopped,
    hoverran⟩

end World

end Troupe
