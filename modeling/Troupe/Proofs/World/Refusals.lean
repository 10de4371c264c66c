import Troupe.Proofs.Pool.Bookkeeping
import Troupe.Proofs.World.Finality
import Troupe.Proofs.World.Phases
import Troupe.Proofs.World.Terminations

/-!
# Refusals

Who is refused leaves no trace but the refusal. For most of what can be asked this is a matter of
looking first. A pool does not look first: it puts a job on record before it knows whether it still
accepts jobs, and takes the record back if it does not. What it takes back is what it has put there,
because the number of the job is on record nowhere else.

An actor that is closed looks before it remembers a pool, and a system that has been terminated
before it gives a name. So a call that fails has changed nothing at all, and why it fails can be
told from the world that it meets.

## Main definitions

* `Pool.refusing` — a pool that has turned one more job away
* `Pool.Declines`, `World.Declines` — what can be told of it, and of the world around it
* `World.Excludes` — an actor or a pool cannot get to where a call would bring it
* `World.Fails` — why a call fails

## Main results

* `Pool.Reachable.submit_of_stopped` — a stopped pool turns jobs away
* `World.declines_submitJob`, `declines_sendOffload` — so it does in a world, to actors, too
* `World.answer_of_excluded`, `World.fails_of_answer` — calls that fail, and why
* `World.refusals_traceless` — all of it, in every state that a run leads to
-/

namespace Troupe

/-! ### Jobs -/

namespace Pool

variable {β ρ : Type} {p : Pool β ρ}

/-- A pool that has turned one more job away. -/
def refusing (p : Pool β ρ) : Pool β ρ :=
  { p with channels := p.channels ++ [.settled (.error (.shutdown p.name))] }

/-- A pool turns a job away: the handle of the job names the pool, and nothing else has changed. -/
structure Declines (p : Pool β ρ) (x : JobId × Pool β ρ) : Prop where
  /-- The handle of the job shows why. -/
  outcome : x.2.outcome? x.1 = some (.error (.shutdown p.name))
  /-- The handles that were there show what they showed. -/
  others : ∀ id < p.channels.length, x.2.outcome? id = p.outcome? id
  /-- Nothing but handles may have changed. -/
  rest : x.2 = { p with channels := x.2.channels }
  /-- The same jobs wait. -/
  queue : x.2.queue = p.queue
  /-- The same jobs are on record. -/
  owners : x.2.owners = p.owners
  /-- As many jobs of every owner wait. -/
  pending : ∀ owner, x.2.pendingCount owner = p.pendingCount owner
  /-- As many jobs of every owner are on record. -/
  outstanding : ∀ owner, x.2.outstandingCount owner = p.outstandingCount owner

theorem declines_refusing (p : Pool β ρ) : p.Declines (p.channels.length, p.refusing) where
  outcome := by simp [outcome?, channel, refusing, Channel.settled, Channel.peek]
  others id hid := by simp [outcome?, channel, refusing, List.getElem?_append_left hid]
  rest := rfl
  queue := rfl
  owners := rfl
  pending _ := rfl
  outstanding _ := rfl

/-- **A stopped pool turns jobs away**, whoever submits them and however urgent they are. -/
theorem Reachable.submit_of_stopped (h : p.Reachable) (hs : p.stopped = true)
    (owner : Option String) (urgent : Bool) (body : β) :
    p.submit owner urgent body = (p.channels.length, p.refusing) := by
  have hchannel : ∀ c : Channel (Except PoolError ρ),
      (p.channels ++ [({} : Channel _)]).modify p.channels.length (fun _ => c) =
        p.channels ++ [c] := by
    intro c
    rw [List.modify_eq_set_get _ (by simp), List.set_append_right _ _ (Nat.le_refl _)]
    simp
  cases owner with
  | none => simp [submit, hs, release, onChannel, refusing, hchannel]
  | some name =>
    have hnew : p.channels.length ∉ p.owners.ids name := fun hid =>
      Nat.lt_irrefl _ (h.lt_of_recorded hid)
    simp [submit, hs, release, onChannel, refusing, hchannel, h.proper.release_register hnew]

end Pool

namespace World

variable {w w' : World} {a : ActorId} {p : PoolId}

theorem lt_of_stopped (h : (w.pool p).stopped = true) : p < w.pools.length := by
  by_contra hge
  rw [pool_of_le (Nat.le_of_not_lt hge)] at h
  cases h

/-- A pool of a world turns a job away: something may be reported, and nothing else has changed. -/
structure Declines (w : World) (p : PoolId) (x : JobId × World) : Prop where
  /-- The pool turns the job away. -/
  pool : (w.pool p).Declines (x.1, x.2.pool p)
  /-- This is all that happens. -/
  rest : ∃ notices, x.2 = { w.onPool p fun _ => x.2.pool p with notices }

theorem declines_submitJob (hs : w.scene.Sound) (hstopped : (w.pool p).stopped = true)
    (owner : Option String) (urgent : Bool) (work : Work) :
    w.Declines p (w.submitJob p owner urgent work) := by
  have hp := lt_of_stopped hstopped
  have hsubmit := (reachable_pool hs hp).submit_of_stopped hstopped owner urgent work
  have hpool := pool_submitJob hp owner urgent work
  refine ⟨?_, ?_⟩
  · rw [submitJob_fst, hpool, hsubmit]
    exact Pool.declines_refusing _
  · rw [hpool]
    simp only [submitJob, hstopped, if_true]
    exact ⟨_, rfl⟩

/-- The pool turns the jobs of actors away, too. -/
theorem declines_sendOffload (hs : w.scene.Sound) (ha : a < w.actors.length)
    (hopen : (w.actor a).isOpen = true) (hstopped : (w.pool p).stopped = true) (urgent : Bool)
    (body : List Effect) (answer : Answer) :
    (w.pool p).Declines
      ((w.pool p).channels.length, (w.sendOffload a p urgent body answer).2.pool p) := by
  have hp := lt_of_stopped hstopped
  have hclosed := closed_of_isOpen hopen
  set w₁ := w.onActor a (·.remember p) with hw₁
  set owner := some (w₁.actor a).owner with howner
  set work : Work := { rest := body, answer, page := .side a } with hwork
  have hpool : (w₁.submitJob p owner urgent work).2.pool p = (w.pool p).refusing := by
    rw [pool_submitJob (w := w₁) hp]
    exact congrArg Prod.snd ((reachable_pool hs hp).submit_of_stopped hstopped owner urgent work)
  have hoffload : (w.sendOffload a p urgent body answer).2.pool p = (w.pool p).refusing := by
    rw [sendOffload, if_pos hopen]
    dsimp only
    split
    · exact hpool
    · rename_i hnone
      -- The actor was open when the job was submitted, and it is so still.
      have hscene := scene_submitJob (w := w₁) p owner urgent work
      rw [hw₁, scene_remember] at hscene
      have hsound := hs.deeds ((Deed.remember hclosed (p := p) (by simpa using hp)).deeds.after
        (Deed.pool p (.submit owner urgent work)).deeds)
      rw [← hscene] at hsound
      have hshut := closed_of_enqueue hsound hnone
      rw [hscene] at hshut
      change ((w.scene.onLane a (·.remember p)).lane a).closed = true at hshut
      rw [Scene.lane_onLane, if_pos ⟨rfl, by simpa using ha⟩, Lane.remember_eq, hclosed] at hshut
      cases hshut
  rw [hoffload]
  exact Pool.declines_refusing _

/-! ### Calls that fail -/

/-- An actor or a pool cannot get to where a call would bring it. -/
inductive Excludes (w : World) : Call → ActorError → Prop where
  /-- Nobody gets into a system that has been terminated. -/
  | terminated {c : Call} {s : SystemId} (hc : w.joins? c = some s)
    (hterm : (w.system s).terminated = true) : Excludes w c (.terminated (w.system s).name)
  /-- The children of an actor go to its system, and it is in none that is held. -/
  | detached {parent actor name kind : String} {a : ActorId} (ha : w.actorNamed parent = .ok a)
    (hs : w.systemOf a = none) :
    Excludes w (.createChild parent actor name kind) (.detached (w.actor a).name)

/-- Why a call fails. -/
inductive Fails (w : World) : Call → Failure → Prop where
  /-- It would bring something to where it cannot get. -/
  | excluded {c : Call} {e : ActorError} (h : w.Excludes c e) : Fails w c (.actor e)
  /-- Nothing is there to run an actor. -/
  | unhosted {c : Call} (hw : w.hosted = false) :
    Fails w c (.actor (.runtime "nothing is there to run it"))
  /-- A pool is asked for without any worker. -/
  | idlePool {pool name : String} : Fails w (.createPool pool name 0) (.pool .invalidSize)
  /-- A system is asked for whose default pool has no worker. -/
  | idleSystem {system name : String} {grace : Duration} {settings : ActorSettings} :
    Fails w (.createSystem system name 0 grace settings) (.actor (.ofPool .invalidSize))

variable {c : Call} {e : ActorError} {f : Failure} {s : SystemId}

/-- **A call that would bring something to where it cannot get** fails, and changes nothing. -/
theorem answer_of_excluded (h : w.Excludes c e) : w.answer c = .ok (.failed (.actor e), w) := by
  cases h with
  | terminated hc hterm => exact answer_of_terminated hterm hc
  | detached ha hs =>
    simp [answer, ha, createChild, hs, created, bind, Except.bind, pure, Except.pure]

theorem fails_of_createMember {name kind : String} {invocable : Bool}
    (hc : w.joins? c = some s) (h : w.createMember s name kind invocable = (.error e, w')) :
    w.Fails c (.actor e) := by
  rcases (createMember_eq_error h).1 with ⟨hterm, rfl⟩ | ⟨hhosted, rfl⟩
  · exact .excluded (.terminated hc hterm)
  · exact .unhosted hhosted

theorem fails_of_createChild {parent actor name kind : String} (ha : w.actorNamed parent = .ok a)
    (h : w.createChild a name kind = (.error e, w')) :
    w.Fails (.createChild parent actor name kind) (.actor e) := by
  rcases createChild_eq_error h with ⟨hsystem, rfl, -⟩ | ⟨s, hsystem, hmember⟩
  · exact .excluded (.detached ha hsystem)
  · refine fails_of_createMember ?_ hmember
    rw [joins?, ha]
    exact hsystem

theorem fails_of_refuses (h : w.Refuses c f) : w.Fails c f := by
  cases h with
  | createPool h =>
    obtain ⟨rfl, rfl, -⟩ := createPool_eq_error h
    exact .idlePool
  | createSystem h =>
    obtain ⟨rfl, rfl, -⟩ := createSystem_eq_error h
    exact .idleSystem
  | createActor h =>
    obtain ⟨hhosted, rfl⟩ := createActor_eq_error h
    exact .unhosted hhosted
  | createMember hsystem h => exact fails_of_createMember (by rw [joins?, hsystem]; rfl) h
  | createChild ha h => exact fails_of_createChild ha h
  | attach hsystem ha h =>
    obtain ⟨hterm, rfl, -⟩ := register_eq_error h
    exact .excluded (.terminated (by rw [joins?, hsystem, ha]; rfl) hterm)
  | addPool hsystem hp h =>
    obtain ⟨hterm, rfl, -⟩ := addPool_eq_error h
    exact .excluded (.terminated (by rw [joins?, hsystem, hp]; rfl) hterm)

/-- **A call that fails has changed nothing**, and it fails for a reason. -/
theorem fails_of_answer (h : w.Replies c (.failed f) w') : w' = w ∧ w.Fails c f := by
  generalize hr : Response.failed f = r at h
  cases h with
  | refuses h =>
    cases hr
    exact ⟨rfl, fails_of_refuses h⟩
  | looks _ hne => exact absurd hr.symm (hne f)
  | take _ | wait _ =>
    rename_i x _
    cases hlook : w.look x <;> rw [hlook] at hr <;> cases hr
  | _ => cases hr

/-! ### All of it -/

/-- **Refused calls leave no trace.** In every state that a run leads to, and for pools by
themselves too: a pool that has been shut down turns away whatever is submitted to it, and all that
has changed in it is the handle of the job, which names the pool. A closed actor turns away whatever
is sent to it, in whatever way, and all that has changed in the world is the handle. A call that
would bring an actor or a pool into a system that has been terminated fails and names the system, an
actor without a system that is held gets no children and is told its own name, and no call that
fails, for these or other reasons, has changed anything in the world. -/
theorem refusals_traceless (acts : List Act) :
    let w := run acts
    (∀ {β ρ : Type} (q : Pool β ρ), q.Reachable → q.stopped = true → ∀ owner urgent body,
      q.Declines (q.submit owner urgent body)) ∧
    (∀ p, (w.pool p).stopped = true →
      (∀ owner urgent work, w.Declines p (w.submitJob p owner urgent work)) ∧
      ∀ a < w.actors.length, (w.actor a).closed = false → ∀ urgent body answer,
        (w.pool p).Declines
          ((w.pool p).channels.length, (w.sendOffload a p urgent body answer).2.pool p)) ∧
    (∀ a, (w.actor a).closed = true →
      (∀ body answer, w.TurnsAway a (w.sendOrdered a body answer) ∧
        w.TurnsAway a (w.sendBypass a body answer)) ∧
      ∀ p urgent body answer, w.TurnsAway a (w.sendOffload a p urgent body answer)) ∧
    (∀ c e, w.Excludes c e → w.call c = (.failed (.actor e), w)) ∧
    ∀ c f, (w.call c).1 = .failed f → (w.call c).2 = w ∧ w.Fails c f := by
  intro w
  have hs : w.scene.Sound := sound_run acts
  have hrelease : w.release = w := (released_run acts).release_eq
  refine ⟨fun q hr hstopped owner urgent body => ?_, fun p hstopped => ⟨?_, ?_⟩,
    fun a hclosed => ⟨fun body answer => ⟨?_, ?_⟩, ?_⟩, fun c e h => ?_, fun c f h => ?_⟩
  · rw [hr.submit_of_stopped hstopped]
    exact q.declines_refusing
  · exact declines_submitJob hs hstopped
  · exact fun a ha hopen => declines_sendOffload hs ha (isOpen_run acts hopen) hstopped
  · exact turnsAway_sendOrdered hclosed body answer
  · exact turnsAway_sendBypass hclosed body answer
  · exact turnsAway_sendOffload hclosed
  · rw [call, answer_of_excluded h]
    exact congrArg _ hrelease
  · rw [call] at h ⊢
    cases hanswer : w.answer c with
    | error reason =>
      rw [hanswer] at h
      cases h
    | ok x =>
      obtain ⟨response, w'⟩ := x
      rw [hanswer] at h
      obtain rfl : response = .failed f := h
      obtain ⟨rfl, hfails⟩ := fails_of_answer (replies_of_answer hanswer)
      exact ⟨hrelease, hfails⟩

/-- A job of an owner waits in a pool that is shut down, an actor of a system is closed, and the
system is terminated. Another actor has never been in a system. -/
def refusedRun : List Act :=
  [.call (.createSystem "s" "sys" 1 (.ofSecs 30) {}),
    .call (.createMember "s" "a" "doer" "log" true), .call (.createActor "b" "loner" "log" {}),
    .call (.createPool "p" "crew" 1),
    .call (.send (.job "p" (some "o") false [] (.watched "u"))), .call (.shutdown "p"),
    .call (.close "a" "z"), .move (.task 0), .call (.terminate "s" "t"), .move (.task 1)]

/-- Everybody is refused: an urgent job of the owner, one that an actor sends, what is sent to the
closed actor, and whoever wants to join the system or have children. The one job of the owner
waits on, and is the only one on record. -/
theorem refusals_traceless_refusedRun :
    let w := run refusedRun
    let x := w.submitJob 1 (some "o") true default
    let y := (w.sendOffload 1 1 true [] .value).2.pool 1
    (w.pool 1).stopped = true ∧ (w.actor 0).closed = true ∧ (w.actor 1).closed = false ∧
      (w.system 0).terminated = true ∧
      (x.2.pool 1).outcome? x.1 = some (.error (.shutdown "crew")) ∧
      (x.2.pool 1).pendingCount "o" = 1 ∧ (x.2.pool 1).outstandingCount "o" = 1 ∧
      y.outcome? 1 = some (.error (.shutdown "crew")) ∧ y.owners = (w.pool 1).owners ∧
      w.TurnsAway 0 (w.sendOffload 0 1 true [] .value) ∧
      w.call (.createMember "s" "c" "late" "log" true) =
        (.failed (.actor (.terminated "sys")), w) ∧
      w.call (.createChild "b" "c" "child" "log") = (.failed (.actor (.detached "loner")), w) ∧
      (w.call (.createPool "q" "idle" 0)).2 = w := by
  intro w x y
  obtain ⟨-, hpools, hactors, hexcluded, hfails⟩ := refusals_traceless refusedRun
  have hstopped : (w.pool 1).stopped = true := rfl
  have hclosed : (w.actor 0).closed = true := rfl
  have hterm : (w.system 0).terminated = true := rfl
  have hopen : (w.actor 1).closed = false := rfl
  obtain ⟨hsubmits, hoffloads⟩ := hpools 1 hstopped
  have hx := (hsubmits (some "o") true default).pool
  have hy := hoffloads 1 (by decide) hopen true [] .value
  refine ⟨hstopped, hclosed, hopen, hterm, hx.outcome, ?_, ?_, hy.outcome, hy.owners,
    (hactors 0 hclosed).2 1 true [] .value, ?_, ?_, ?_⟩
  · rw [hx.pending]
    rfl
  · rw [hx.outstanding]
    rfl
  · exact hexcluded _ _ (.terminated (s := 0) rfl hterm)
  · exact hexcluded _ _ (.detached (a := 1) rfl rfl)
  · exact (hfails _ _ rfl).1

end World

end Troupe
