import Troupe.Proofs.World.Deadlines
import Troupe.Proofs.World.OrderedPath
import Troupe.Proofs.World.Phases

/-!
# Dismissals

To terminate a system or to remove a name from it is to dismiss actors. The call closes them and
goes on only when they are gone: their run loops have ended, they have let go of their targets, and
they are in no system. A termination shuts no pool down before that.

This is so for the actors that the call closes itself. A close that is asked for again does nothing,
so an actor that somebody else is closing already is passed over. The call does not wait for it,
however far the other close has got, and may be over while the actor is still busy.

## Main definitions

* `World.Dismisses` — a call that is to close an actor begins
* `World.Attends` — a mover waits for an actor
* `World.Returned` — a call is over as far as an actor goes
* `World.Left` — an actor has let go of its target and left its system

## Main results

* `World.attends_iff` — whom a call waits for
* `World.attends_next` — what becomes of a wait
* `World.dismissal` — what is true of a dismissed actor once the call is over
* `World.passed_over` — a run with calls that are over too early
-/

namespace Troupe

variable {s t : Scene} {ms : List Mark}

/-! ### The handle of a task -/

/-- A task has begun, and if it is still in progress it is to resolve the handle. -/
def Scene.Owes (s : Scene) (i : TaskId) (h : HandleId) : Prop :=
  i < s.taskCount ∧ ∀ x ∈ s.tasks, x.1 = i → x.2.handle = h

/-- A task never resolves another handle, and its number is not used again. -/
theorem Deed.owes {i : TaskId} {h : HandleId} (d : Deed ms s t) (ho : s.Owes i h) :
    t.Owes i h := by
  have settled : ∀ (hs : List HandleId) (c : Content (Except ActorError Json)) {u : Scene},
      u.Owes i h → (u.settleAll hs c).Owes i h := by
    intro hs c u hu
    rw [Scene.settleAll_eq]
    exact hu
  cases d with
  | roster _ _ | enroll _ _ | found _ | pool _ _ | stop _ | settled _ | drain _ | remember _ _ =>
    exact ho
  | accept _ _ _ _ _ | start _ | enter _ _ _ | proceed _ _ => exact ho
  | clear _ | shut _ _ _ | abort _ | quit _ _ => exact settled _ _ (u := s.onLane _ _) ho
  | finish _ _ _ => exact settled _ _ ho
  | begin _ _ _ =>
    refine ⟨Nat.lt_succ_of_lt ho.1, fun x hx hxi => ?_⟩
    rcases List.mem_append.mp hx with hx | hx
    · exact ho.2 x hx hxi
    · obtain rfl := List.mem_singleton.mp hx
      exact absurd hxi (Nat.ne_of_gt ho.1)
  | setTask hk hh _ _ =>
    refine ⟨ho.1, fun x hx hxi => ?_⟩
    obtain ⟨y, hy, rfl⟩ := List.mem_map.mp hx
    dsimp only at hxi ⊢
    split
    · rename_i hyk
      exact hh.trans (ho.2 _ (Scene.mem_of_lookup hk) (hyk.symm.trans hxi))
    · exact ho.2 y hy hxi
  | endTask _ _ =>
    obtain ⟨hlt, hhandle⟩ := settled _ _ ho
    exact ⟨hlt, fun x hx => hhandle x (List.mem_of_mem_filter hx)⟩

namespace World

variable {w : World} {act : Act} {m : Mover} {a : ActorId}

open Book (Turn)

/-- **A task whose handle is resolved is over**, so it waits for nobody. -/
theorem waits_of_resolved (before later : List Act) {i : TaskId} {task : Task}
    (ht : (run before).task? i = some task)
    (hresolved : (run (before ++ later)).outcome? task.handle ≠ none) :
    (run (before ++ later)).waits (.task i) = [] := by
  have howes : (run (before ++ later)).scene.Owes i task.handle := by
    have hs := sound_run before
    refine keep_run (fun _ d => d.owes) before later
      ⟨hs.tasks_lt _ (Scene.mem_of_lookup ht), ?_⟩
    rintro ⟨k, other⟩ hx rfl
    have hother := task?_of_mem hs hx
    rw [ht] at hother
    obtain rfl := Option.some.inj hother
    rfl
  have hs := sound_run (before ++ later)
  rw [waits]
  cases ht' : (run (before ++ later)).task? i with
  | none => rfl
  | some task' =>
    have hmem := Scene.mem_of_lookup ht'
    have hempty := hs.accounts.mem_holders.mp (Scene.mem_holders_of_task hmem)
    rw [howes.2 _ hmem rfl] at hempty
    exact absurd (outcome?_eq_none_iff.mpr hempty) hresolved

/-! ### Pools -/

theorem stopped_onPool {p q : PoolId} {f : Pool Work Json → Pool Work Json}
    (hf : ∀ x, (f x).stopped = x.stopped) :
    ((w.onPool q f).pool p).stopped = (w.pool p).stopped := by
  rw [pool, onPool, pool, List.getElem?_modify]
  cases w.pools[p]? with
  | none => rfl
  | some x => by_cases hq : q = p <;> simp [hq, hf]

theorem pools_finishClose (a : ActorId) (w : World) : (w.finishClose a).pools = w.pools := by
  show ((w.onActor a _).detach a).pools = _
  rw [detach]
  split
  · rfl
  · dsimp only
    split <;> rfl

/-- To complete a close shuts no pool down. -/
theorem stopped_endWait (x : Wait) (w : World) (p : PoolId) :
    ((w.endWait x).pool p).stopped = (w.pool p).stopped := by
  rw [endWait, pool, pools_finishClose, ← pool]
  split
  · rfl
  · simp only [abortLoop]
    split
    · rfl
    · exact stopped_onPool (f := (·.deafen _)) fun _ => rfl
    · rfl

/-- **Whoever waits shuts no pool down.** -/
theorem stopped_of_waits {x : Wait} (hx : x ∈ w.waits m) (p : PoolId) :
    ((w.next (.move m)).pool p).stopped = (w.pool p).stopped := by
  have hends := endsWait_of_waits hx
  rw [next]
  generalize w.step m = w' at hends
  cases hends with
  | stuck _ => rfl
  | loop _ _ _ | task _ _ _ =>
    rw [Option.getD_some, pool_release]
    exact stopped_endWait _ w p

/-! ### Leaving -/

/-- A name that shows in the book is the one that the act gives. -/
theorem Conduct.registers?_of_lists {ts : List Turn} {s : SystemId} {key : String}
    {invocable : Bool} (h : w.Conduct act ts) (hmem : .lists s key a invocable ∈ ts) :
    w.registers? act = some (s, key, a) := by
  obtain ⟨us, hus, hmem⟩ := h.mem_prelude hmem (by simp)
  cases hus with
  | lists hr _ _ _ | member hr _ _ => simp_all
  | _ => simp at hmem

/-- **An actor is registered where it was, or where the act registers it.** -/
theorem registration_next (hs : w.scene.Sound) (act : Act) {r : Registration}
    (h : ((w.next act).actor a).registration = some r) :
    (w.actor a).registration = some r ∨ w.registers? act = some (r.system, r.key, a) := by
  obtain ⟨ts, hconduct, hshows⟩ := conduct_next hs act
  have hpost : ((w.book.turns ts).post a).registration = some r := by
    rw [← hshows.post_eq]
    exact h
  refine (Book.registration_turns hpost).imp (fun hr => ?_) fun ⟨_, hmem⟩ =>
    hconduct.registers?_of_lists hmem
  rwa [post_book] at hr

/-- An actor whose close shows as completed has let go of its target and is in no system. -/
theorem left_of_shows (ts : List Turn) (h : w.Shows act (ts ++ [.leaves a]))
    (ha : a < w.actors.length) : ((w.next act).actor a).holdsTarget = false ∧
      ((w.next act).actor a).registration = none := by
  have hlen : a < (w.book.turns ts).posts.length :=
    Nat.lt_of_lt_of_le (by simpa [book] using ha) (Book.length_turns ts)
  have hpost := h.post_eq a
  rw [Book.turns_concat, Book.post_leaves, if_pos ⟨rfl, hlen⟩] at hpost
  exact ⟨congrArg Post.holdsTarget hpost, congrArg Post.registration hpost⟩

/-- In the later part of a run, an actor has let go of its target, and it is in no system but one
in which it has been registered since. -/
structure Left (before later : List Act) (a : ActorId) : Prop where
  /-- It has let go of its target. -/
  target : ((run (before ++ later)).actor a).holdsTarget = false
  /-- It remembers no registration but one that it has got since. -/
  registration : ∀ r, ((run (before ++ later)).actor a).registration = some r →
    ∃ mid act rest, later = mid ++ act :: rest ∧
      (run (before ++ mid)).registers? act = some (r.system, r.key, a)

/-- Who has left does not get its target back. -/
theorem Left.concat {before later : List Act} (h : Left before later a) (act : Act) :
    Left before (later ++ [act]) a := by
  have hrun : run (before ++ (later ++ [act])) = (run (before ++ later)).next act := by
    rw [← List.append_assoc, run_concat]
  have hs := sound_run (before ++ later)
  refine ⟨?_, fun r hr => ?_⟩
  · obtain ⟨p, hp, -⟩ := phase_run (before ++ later) a
    obtain ⟨p', hp', hfollows, -⟩ := phase_next hs (tidy_run _) hp act
    have htarget := h.target
    rw [hrun]
    cases hp with
    | untouched _ _ hholds | underway _ _ hholds | brokenOff _ _ hholds =>
      rw [htarget] at hholds
      cases hholds
    | completed _ _ _ =>
      cases hfollows with
      | lasts _ =>
        cases hp' with
        | completed _ _ hgone => exact hgone
  · rw [hrun] at hr
    rcases registration_next hs act hr with hold | hnew
    · obtain ⟨mid, act', rest, rfl, hgiven⟩ := h.registration r hold
      exact ⟨mid, act', rest ++ [act], by simp, hgiven⟩
    · exact ⟨later, act, [], rfl, hnew⟩

/-! ### Waiting for an actor -/

/-- A mover waits for an actor. -/
def Attends (w : World) (m : Mover) (a : ActorId) : Prop := ∃ x ∈ w.waits m, x.actor = a

/-- **The close of an open actor.** Whoever closes it with an act waits for it, unless it is closed
on its own run loop, and leaves at once. -/
theorem attends_of_closes (hs : w.scene.Sound) (h : w.Closes act a) :
    (∃ m, act = .move m ∧ (w.next act).Attends m a) ∨
      act = .move (.runLoop a) ∧ ((w.next act).actor a).holdsTarget = false ∧
        ((w.next act).actor a).registration = none := by
  obtain ⟨hopen, hclosed⟩ := h
  obtain ⟨ts, hconduct, hshows⟩ := conduct_next hs act
  have hshut : (.shuts a ∈ ts → a < w.actors.length) → .shuts a ∈ ts := fun hlt =>
    ((closed_of_shows hshows hlt).mp hclosed).resolve_left (by simp [hopen])
  cases hconduct with
  | quiet hts _ =>
    have hnot : .shuts a ∉ ts := hts.not_mem.1
    exact absurd (hshut fun h => absurd h hnot) hnot
  | @begins ts us m hts hact _ hopens _ =>
    have hus : .shuts a ∈ ts ++ us → ∃ x ∈ (w.next act).waits m, x.actor = a := by
      intro hmem
      rcases hopens.only _ ((List.mem_append.mp hmem).resolve_left hts.not_mem.1) with
        h | ⟨x, hx, h⟩
      · cases h
      · exact ⟨x, hx, (Turn.shuts.inj h).symm⟩
    refine .inl ⟨m, hact, hus (hshut fun hmem => ?_)⟩
    obtain ⟨x, hx, rfl⟩ := hus hmem
    exact (hopens.opened x hx).1
  | @own ts c hts hact hlt _ _ =>
    have hc : .shuts a ∈ ts ++ [.shuts c, .leaves c] → a = c := by
      intro hmem
      simpa [hts.not_mem.1] using hmem
    obtain rfl := hc (hshut fun hmem => hc hmem ▸ hlt)
    exact .inr ⟨hact, left_of_shows (ts ++ [.shuts a]) (by simpa using hshows) hlt⟩
  | completes _ _ _ _ _ _ _ => simpa using hshut (by simp)

/-- **What becomes of a wait**: it goes on, or the one who waits is broken off, or the actor is
gone. -/
theorem attends_next (hs : w.scene.Sound) (htidy : w.Tidy) (h : w.Attends m a) (act : Act) :
    (w.next act).Attends m a ∨ ((∃ b, m = .runLoop b) ∧ w.BreaksOff act a) ∨
      ((w.next act).actor a).loop = .ended ∧ ((w.next act).actor a).holdsTarget = false ∧
        ((w.next act).actor a).registration = none := by
  obtain ⟨x, hx, rfl⟩ := h
  obtain ⟨ts, hconduct, hshows⟩ := conduct_next hs act
  cases hconduct with
  | quiet _ hwaits | own _ _ _ _ hwaits => exact .inl ⟨x, hwaits m ▸ hx, rfl⟩
  | @begins _ _ m' _ _ hidle _ hothers =>
    have hne : m ≠ m' := by
      rintro rfl
      rw [hidle] at hx
      cases hx
    exact .inl ⟨x, hothers m hne ▸ hx, rfl⟩
  | @completes m' y _ _ hy hwaits hothers hended hlives =>
    have hc := Completion.mk hy hwaits hothers hended hlives
    by_cases hxy : x.actor = y.actor
    · obtain ⟨rfl, rfl⟩ := htidy.sole hx hy hxy
      have hlt := lt_of_closed (closed_of_waits hs hx).1
      exact .inr (.inr ⟨hended, left_of_shows [] hshows hlt⟩)
    · by_cases hrun : m = .runLoop y.actor
      · subst hrun
        exact .inr (.inl ⟨⟨_, rfl⟩, y.actor, x, (mem_waiting_iff hs).mpr hx, rfl, hended⟩)
      · exact .inl ⟨x, hc.stays htidy hx hxy hrun, rfl⟩

/-! ### Dismissals -/

/-- With its next move, a mover begins a call that is to close an actor. -/
inductive Dismisses (w : World) (m : Mover) (a : ActorId) : Prop where
  /-- It terminates a system in which the actor has a name. -/
  | termination {s : SystemId} {key : String} (h : w.terminates? (.move m) = some s)
    (hname : ((w.system s).registry.find? key).map (·.actor) = some a)
  /-- It removes a name of the actor. -/
  | removal {s : SystemId} {key : String} (h : w.removes? (.move m) = some (s, key))
    (hname : ((w.system s).registry.find? key).map (·.actor) = some a)

theorem of_terminates? {s : SystemId} (h : w.terminates? (.move m) = some s) :
    ∃ t hd, m = .task t ∧ w.task? t = some (.termination hd s .starting) ∧
      (w.system s).terminated = false := by
  cases m with
  | task t =>
    rw [terminates?] at h
    split at h
    · rename_i hd k ht
      split at h
      · cases h
      · rename_i hterm
        obtain rfl := Option.some.inj h
        exact ⟨t, hd, rfl, ht, by simpa using hterm⟩
    · cases h
  | runLoop _ | worker _ _ | grace _ => cases h

theorem of_removes? {s : SystemId} {key : String} (h : w.removes? (.move m) = some (s, key)) :
    ∃ system r c rest, w.course? m = some (r, c) ∧ c.wait = none ∧
      c.rest = .remove system key :: rest ∧ w.systemNamed system = .ok s := by
  rw [removes?] at h
  split at h
  · rename_i system name haction
    obtain ⟨k, hk, heq⟩ := Option.map_eq_some_iff.mp h
    obtain ⟨rfl, rfl⟩ := Prod.mk.inj heq
    obtain ⟨r, c, hc, hnext⟩ := course?_of_action? haction
    rw [Course.action?] at hnext
    split at hnext
    · rename_i hwait
      obtain ⟨rest, hrest⟩ := List.head?_eq_some_iff.mp hnext
      refine ⟨system, r, c, rest, hc, hwait, hrest, ?_⟩
      cases hsystem : w.systemNamed system with
      | ok s =>
        rw [hsystem] at hk
        rw [Option.some.inj hk]
      | error _ =>
        rw [hsystem] at hk
        cases hk
    · cases hnext
  · cases h

theorem closed_release (w : World) (a : ActorId) :
    (w.release.actor a).closed = (w.actor a).closed := by
  rw [actor_release]

/-- Who begins a call waits for nothing yet. -/
theorem Dismisses.idle (h : w.Dismisses m a) : w.waits m = [] := by
  cases h with
  | termination h _ =>
    obtain ⟨t, hd, rfl, ht, -⟩ := of_terminates? h
    exact waits_of_termination ht
  | removal h _ =>
    obtain ⟨_, _, _, _, hc, hwait, -, -⟩ := of_removes? h
    rw [waits_of_course? hc, hwait]
    rfl

/-- Who is dismissed is closed then, if it was not closed before. -/
theorem Dismisses.closed (hs : w.scene.Sound) (h : w.Dismisses m a) :
    ((w.next (.move m)).actor a).closed = true := by
  cases h with
  | @termination s _ h hname =>
    obtain ⟨entry, hfind, rfl⟩ := Option.map_eq_some_iff.mp hname
    obtain ⟨t, hd, rfl, ht, hterm⟩ := of_terminates? h
    obtain ⟨_, _, _, _, hclosed⟩ := deeds_beginTermination hs s
    obtain ⟨key, hmem⟩ := mem_of_find? hfind
    have hstep : w.stepTask t = some ((w.beginTermination s).2.setTask t
        (.termination hd s (.closing (w.beginTermination s).1))) := by
      simp [stepTask, ht, stepTermination, hterm]
    rw [next_of_stepTask hstep, closed_release]
    exact hclosed _ hmem
  | @removal s key h hname =>
    obtain ⟨entry, hfind, rfl⟩ := Option.map_eq_some_iff.mp hname
    obtain ⟨system, r, c, rest, hc, hwait, hrest, hsystem⟩ := of_removes? h
    have hstep : w.stepCourse r c = some (w.beginRemove r s key { c with rest }) := by
      simp only [stepCourse, hwait, hrest, perform, withNamed, hsystem]
    obtain ⟨_, _, _, _, hclosed⟩ := @deeds_beginRemove w hs r s key { c with rest } hwait
    have hsame := Book.LetsGo.post_eq (next_of_course hs hc hstep).letsGo entry.actor
    rw [post_book, post_book] at hsame
    exact (congrArg Post.closed hsame).trans (hclosed entry hfind)

/-- **Whom a call waits for**: for the actor that it dismisses, exactly if nobody has closed it
before and the call is not made on its own run loop. -/
theorem attends_iff (hs : w.scene.Sound) (h : w.Dismisses m a) :
    (w.next (.move m)).Attends m a ↔ (w.actor a).closed = false ∧ m ≠ .runLoop a := by
  constructor
  · rintro ⟨x, hx, rfl⟩
    refine ⟨?_, (closed_of_waits (sound_next hs _) hx).2⟩
    obtain ⟨ts, hconduct, -⟩ := conduct_next hs (.move m)
    cases hconduct with
    | quiet _ hwaits | own _ _ _ _ hwaits =>
      rw [hwaits, h.idle] at hx
      cases hx
    | begins _ hact _ hopens _ =>
      obtain rfl := Act.move.inj hact
      exact (hopens.opened x hx).2
    | completes _ hact hy _ _ _ _ =>
      obtain rfl := Act.move.inj hact
      rw [h.idle] at hy
      cases hy
  · rintro ⟨hopen, hne⟩
    rcases attends_of_closes hs ⟨hopen, h.closed hs⟩ with ⟨m', hact, hattends⟩ | ⟨hact, -⟩
    · obtain rfl := Act.move.inj hact
      exact hattends
    · exact absurd (Act.move.inj hact) hne

/-- At the end of a run, a call of a mover is over as far as an actor goes: it does not wait for
the actor any more, and it has not been broken off while it did. -/
def Returned (acts : List Act) (m : Mover) (a : ActorId) : Prop :=
  ¬(run acts).Attends m a ∧ ∀ b, m = .runLoop b → ¬BrokenOff acts a

/-- An actor that is closed is waited for until it is gone, or until the one who waits is broken
off. -/
theorem gone_or_attends (before after : List Act) (h : (run before).Closes (.move m) a) :
    let acts := before ++ .move m :: after
    (run acts).Attends m a ∨ ((∃ b, m = .runLoop b) ∧ BrokenOff acts a) ∨
      (m ≠ .runLoop a → ((run acts).actor a).loop = .ended) ∧
        Left before (.move m :: after) a := by
  dsimp only
  induction after using List.reverseRecOn with
  | nil =>
    have hs := sound_run before
    have hrun := run_concat before (.move m)
    rcases attends_of_closes hs h with ⟨m', hact, hattends⟩ |
      ⟨hact, htarget, hregistration⟩
    · obtain rfl := Act.move.inj hact
      exact .inl (hrun ▸ hattends)
    · refine .inr (.inr ⟨fun hne => absurd (Act.move.inj hact) hne, hrun ▸ htarget, fun r hr => ?_⟩)
      rw [hrun, hregistration] at hr
      cases hr
  | append_singleton after act ih =>
    have hacts : before ++ .move m :: (after ++ [act]) = before ++ .move m :: after ++ [act] := by
      simp
    have hs := sound_run (before ++ .move m :: after)
    rw [hacts, run_concat, brokenOff_concat]
    rcases ih with hattends | ⟨hm, hbroken⟩ | ⟨hended, hleft⟩
    · refine (attends_next hs (tidy_run _) hattends act).imp_right
        (.imp (fun ⟨hm, hbreaks⟩ => ⟨hm, .inr hbreaks⟩) fun ⟨hended, htarget, hregistration⟩ => ?_)
      refine ⟨fun _ => hended, ?_, fun r hr => ?_⟩
      · rw [hacts, run_concat]
        exact htarget
      · rw [hacts, run_concat, hregistration] at hr
        cases hr
    · exact .inr (.inl ⟨hm, .inl hbroken⟩)
    · refine .inr (.inr ⟨fun hne => ?_, hleft.concat act⟩)
      obtain ⟨ms, ns, d, -⟩ := deeds_next hs act
      have := d.ended (a := a) (by rw [lane_scene]; exact hended hne)
      rwa [lane_scene] at this

/-- **Dismissals.** Let a mover begin a termination or a removal that is to close an actor. It waits
for the actor exactly if nobody has closed it before, and the call is not made on the run loop of
the actor. In this case, from the time when the call is over on, the run loop of the actor has ended
(unless it makes the call itself), and the actor has let go of its target and is in no system but
one in which it has been registered since. A call on behalf of a client is over when its handle is
resolved, and a termination is over as far as its actors go before it shuts any pool down. -/
theorem dismissal (before after : List Act) (m : Mover) (a : ActorId)
    (h : (run before).Dismisses m a) :
    let acts := before ++ .move m :: after
    ((run (before ++ [.move m])).Attends m a ↔
      ((run before).actor a).closed = false ∧ m ≠ .runLoop a) ∧
    (((run before).actor a).closed = false → Returned acts m a →
      (m ≠ .runLoop a → ((run acts).actor a).loop = .ended) ∧
        Left before (.move m :: after) a) ∧
    ∀ t task, m = .task t → (run before).task? t = some task →
      ((run acts).outcome? task.handle ≠ none → Returned acts m a) ∧
      ∀ p, ((run acts).pool p).stopped = false →
        (((run acts).next (.move m)).pool p).stopped = true → Returned acts m a := by
  refine ⟨?_, fun hopen hreturned => ?_, ?_⟩
  · rw [run_concat]
    exact attends_iff (sound_run before) h
  · have hcloses : (run before).Closes (.move m) a := ⟨hopen, h.closed (sound_run before)⟩
    refine ((gone_or_attends before after hcloses).resolve_left hreturned.1).resolve_left ?_
    rintro ⟨⟨b, hb⟩, hbroken⟩
    exact hreturned.2 b hb hbroken
  · rintro t task rfl ht
    refine ⟨fun hresolved => ⟨?_, by simp⟩, fun p hruns hstopped => ⟨?_, by simp⟩⟩
    · rintro ⟨x, hx, -⟩
      rw [waits_of_resolved before _ ht hresolved] at hx
      cases hx
    · rintro ⟨x, hx, -⟩
      rw [stopped_of_waits hx, hruns] at hstopped
      cases hstopped

/-- The termination of a system with one actor is asked for. -/
def terminatedRun : List Act :=
  [.call (.createSystem "s" "sys" 1 (.ofSecs 30) {}),
    .call (.createMember "s" "b" "b" "log" false), .call (.terminate "s" "t")]

/-- The run loop of the actor ends, and the termination gets on with its pools. -/
def terminatedLater : List Act :=
  [.move (.runLoop 0), .move (.runLoop 0), .move (.task 0)]

/-- The termination is over as far as the actor goes when it is about to shut the pool down, and the
actor is gone. -/
theorem dismissal_terminatedRun :
    let acts := terminatedRun ++ .move (.task 0) :: terminatedLater
    ((run terminatedRun).Dismisses (.task 0) 0 ∧ ((run terminatedRun).actor 0).closed = false) ∧
    ((run acts).pool 0).stopped = false ∧
    (((run acts).next (.move (.task 0))).pool 0).stopped = true ∧
    Returned acts (.task 0) 0 ∧ ((run acts).actor 0).loop = .ended ∧
    Left terminatedRun (.move (.task 0) :: terminatedLater) 0 := by
  have hname : (((run terminatedRun).system 0).registry.find? "b").map (·.actor) = some 0 := rfl
  have hdismisses : (run terminatedRun).Dismisses (.task 0) 0 := .termination rfl hname
  obtain ⟨_, hgone, hover⟩ := dismissal terminatedRun terminatedLater (.task 0) 0 hdismisses
  have hreturned := (hover 0 _ rfl rfl).2 0 rfl rfl
  obtain ⟨hended, hleft⟩ := hgone rfl hreturned
  exact ⟨⟨hdismisses, rfl⟩, rfl, rfl, hreturned, hended (by simp), hleft⟩

/-- Two actors of a system are busy, and a client is closing both. Then the name of one is removed,
and the system is terminated. -/
def hastyRun : List Act :=
  [.call (.createSystem "s" "sys" 1 (.ofSecs 30) {}),
    .call (.createMember "s" "b" "b" "log" false), .call (.createMember "s" "c" "c" "log" false),
    .call (.send (.operation .ordered "b" [.effect (.gate "g")] .value (.watched "u"))),
    .call (.send (.operation .ordered "c" [.effect (.gate "k")] .value (.watched "v"))),
    .move (.runLoop 0), .move (.runLoop 0), .move (.runLoop 1), .move (.runLoop 1),
    .call (.close "b" "x"), .move (.task 0), .call (.close "c" "y"), .move (.task 1),
    .call (.remove "s" "z" "c"), .call (.terminate "s" "t")]

/-- The removal and the termination get as far as they can. -/
def hastyLater : List Act :=
  [.move (.task 2), .move (.task 2), .move (.task 3), .move (.task 3), .move (.worker 0 0),
    .move (.task 3), .move (.task 3)]

/-- **Calls that are over too early.** The removal has resolved with true, and the termination has
resolved and has shut the pool down. Both actors are still inside of their operations, hold their
targets, and remember the system. -/
theorem passed_over :
    let w := run hastyRun
    let w' := run (hastyRun ++ hastyLater)
    w.Dismisses (.task 2) 1 ∧ w.Dismisses (.task 3) 0 ∧
    w'.outcome? 4 = some (.ok (.bool true)) ∧ w'.outcome? 5 = some (.ok .null) ∧
    (w'.pool 0).stopped = true ∧
    ((w'.actor 0).loop.hasEnded = false ∧ (w'.actor 0).holdsTarget = true ∧
      w'.systemOf 0 = some 0) ∧
    (w'.actor 1).loop.hasEnded = false ∧ (w'.actor 1).holdsTarget = true ∧
      w'.systemOf 1 = some 0 := by
  have hb : (((run hastyRun).system 0).registry.find? "b").map (·.actor) = some 0 := rfl
  have hc : (((run hastyRun).system 0).registry.find? "c").map (·.actor) = some 1 := rfl
  exact ⟨.removal rfl hc, .termination rfl hb, rfl, rfl, rfl, ⟨rfl, rfl, rfl⟩, rfl, rfl, rfl⟩

end World

end Troupe
