import Troupe.Proofs.World.Finality

/-!
# Invocations by name

An invocation by name asks for an action of whatever actor has a name in a system. Its reply comes
from far away: the name is looked up, the action goes through the mailbox of the actor as an
operation with a handle of its own, the run loop performs it, and a task waits for the outcome and
turns it into a reply. What is said here is that none of them adds a success or hides one.

An invocation is followed from the call on, whatever comes later. The name counts at the call only,
so what happens to the registration afterwards makes no difference; what happens to the actor does,
but it can only make the operation fail. Two handles are at work. Nobody keeps either of them, so an
outcome that is there stays there, and the task is bound to find it.

## Main definitions

* `Invocation`, `Invocation.Reaches` — an invocation by name, and the operation that it sends
* `Invocation.Answered` — what a reply says about the name and the action
* `Commission.HasTurn` — an operation is run in its turn
* `Invocation.Truthful` — what is true of an invocation by name

## Main results

* `World.outcome?_next` — nobody takes the outcome of a handle that is not kept
* `World.answering_next` — the task of an invocation waits, or it has told what it found
* `World.hasTurn_of_doings` — whatever is done for an ordered operation is done in its turn
* `World.invocations_truthful` — invocations by name tell the truth
-/

namespace Troupe

theorem Reply.toJson_injective : Function.Injective Reply.toJson := by
  rintro ⟨success, payload⟩ ⟨success', payload'⟩ h
  simpa [toJson] using h

/-- An invocation by name, as a client makes it. -/
structure Invocation where
  /-- The name that the client has for the system. -/
  system : String
  /-- The name under which the reply is awaited. -/
  waiter : String
  /-- The name of the actor in the system. -/
  name : String
  /-- The action. -/
  action : String
  /-- The arguments of the action. -/
  args : String

namespace Invocation

open World

/-- The call. -/
def act (i : Invocation) : Act := .call (.invoke i.system i.waiter i.name i.action i.args)

/-- What the actor is to perform. -/
def body (i : Invocation) : List Action := Action.ofInvocation i.action i.args

/-- The operation that an invocation by name sends to an actor that accepts invocations. Its handle
comes after that of the invocation itself. -/
structure Reaches (i : Invocation) (w : World) (s : SystemId) (x : Commission) : Prop where
  /-- The name leads to the actor, which accepts invocations. -/
  entry : (w.system s).registry.find? i.name = some { actor := x.actor, invocable := true }
  /-- The handle is new. -/
  handle : x.handle = w.channels.length + 1
  /-- The operation goes through the mailbox. -/
  route : x.route = .ordered
  /-- What its handle shows at once. -/
  answer : x.answer = (w.next i.act).outcome? x.handle
  /-- The body performs the action. -/
  body : x.body = i.body
  /-- The value becomes a reply. -/
  kind : x.kind = .reply

theorem Reaches.site {i : Invocation} {w : World} {s : SystemId} {x : Commission}
    (h : i.Reaches w s x) : x.site = .operation x.handle := by
  rw [Commission.site, h.route]

/-- What a reply says, at the end of a run that goes on from an invocation by name: which name was
there at the call, and what has become of the action. -/
inductive Answered (i : Invocation) (s : SystemId) (before acts : List Act) : Reply → Prop where
  /-- The system knew no actor under the name. -/
  | missing (hentry : ((run before).system s).registry.find? i.name = none) :
    Answered i s before acts (.ofError (.notFound i.name))
  /-- The actor did not accept invocations. -/
  | barred {a : ActorId}
    (hentry : ((run before).system s).registry.find? i.name =
      some { actor := a, invocable := false }) :
    Answered i s before acts (.failure s!"Actor {i.name} does not accept invocations.")
  /-- All of the action was performed, once and in order, and it has returned. -/
  | returned {x : Commission} {u : Json} (hx : i.Reaches (run before) s x)
    (hall : history x.site acts = i.body.map .performs ++ [.ends (.returned u)]) :
    Answered i s before acts (.ofSuccess (payload u))
  /-- The action has failed with a message of its own. -/
  | failed {x : Commission} {message : String} (hx : i.Reaches (run before) s x)
    (hfailed : x.Failed acts message) : Answered i s before acts (.failure message)
  /-- The action has broken off. -/
  | panicked {x : Commission} {payload : Panic} (hx : i.Reaches (run before) s x)
    (hbroke : x.BrokeOff acts payload) :
    Answered i s before acts (.ofError (.panicked payload.message))
  /-- The actor was closed at the call, and nothing of the action is performed. -/
  | closed {x : Commission} (hx : i.Reaches (run before) s x)
    (hclosed : ((run before).actor x.actor).closed = true) (hnever : history x.site acts = []) :
    Answered i s before acts (.ofError (.closed ((run before).actor x.actor).name))
  /-- The action has not come to an end, and was dropped. -/
  | discarded {x : Commission} (hx : i.Reaches (run before) s x)
    (hends : ∀ ending, .ends ending ∉ history x.site acts) :
    Answered i s before acts (.ofError .discarded)

end Invocation

namespace World

variable {w : World} {act : Act} {h : HandleId} {s : SystemId} {i : Invocation} {x : Commission}
  {o : Except ActorError Json}

/-! ### Handles that nobody keeps -/

/-- A handle that is there, and that no client keeps. -/
structure Unkept (w : World) (h : HandleId) : Prop where
  /-- It has been made. -/
  made : h < w.channels.length
  /-- No name stands for it. -/
  unnamed : .operation h ∉ w.kept

theorem Unkept.next (hs : w.scene.Sound) (hh : w.Unkept h) (act : Act) :
    (w.next act).Unkept h :=
  ⟨Nat.lt_of_lt_of_le hh.made (length_channels_next hs act),
    not_kept_next (r := .operation h) hs hh.made hh.unnamed act⟩

/-- **Nobody takes the outcome** of a handle that no client keeps. -/
theorem outcome?_next (hs : w.scene.Sound) (hh : w.Unkept h) (ho : w.outcome? h = some o)
    (act : Act) : (w.next act).outcome? h = some o := by
  obtain ⟨ms, d, hms⟩ := fits_next hs act
  have hdrained : .drained h ∉ ms := by
    intro hmem
    obtain ⟨name, _, hname⟩ := hms _ hmem
    exact hh.unnamed (mem_kept_of_handleNamed hname)
  by_cases hfull : w.scene.content h = .full o
  · exact outcome?_of_full (d.full hdrained hfull)
  · obtain ⟨hne, rfl⟩ := (outcome?_cases ho).resolve_left hfull
    have hlt : h < w.scene.contents.length := by simpa using hh.made
    have hstays := (Scene.Grows.of_deeds d).resolved h hlt hne
    have hsome := mt outcome?_eq_none_iff.mp hstays
    obtain ⟨o', ho'⟩ := Option.ne_none_iff_exists'.mp hsome
    -- It shows no other outcome, since it would have shown it before.
    rcases outcome?_cases ho' with hfull' | ⟨_, rfl⟩
    · have hbefore := outcome?_of_full (full_next hs act hh.made hne hfull')
      rw [ho', ← hbefore, ho]
    · exact ho'

/-! ### The call -/

theorem systemEntry_expecting (waiter : String) (w : World) (s : SystemId) (name : String) :
    ((w.expecting waiter).system s).registry.find? name = (w.system s).registry.find? name := rfl

/-- A reply that is known at once is told at once. -/
theorem outcome?_of_invoke (hsystem : w.systemNamed i.system = .ok s)
    (hreply : (w.expecting i.waiter).invokeByName s i.name i.action i.args w.channels.length =
      (w.expecting i.waiter).resolve w.channels.length o) :
    (w.next i.act).outcome? w.channels.length = some o := by
  have hscene := scene_resolve_inBackground i.waiter o w
  refine outcome?_of_full ?_
  rw [Invocation.act, next_of_invoke hsystem, hreply, content_scene, channel_release,
    ← content_scene]
  show ((w.inBackground i.waiter fun h => resolve h o).2.scene).content _ = _
  rw [hscene, Scene.content_grow, if_pos (by simp)]

theorem outcome?_of_missing (hsystem : w.systemNamed i.system = .ok s)
    (hentry : (w.system s).registry.find? i.name = none) :
    (w.next i.act).outcome? w.channels.length =
      some (.ok (Reply.ofError (.notFound i.name)).toJson) := by
  refine outcome?_of_invoke hsystem ?_
  rw [invokeByName, systemEntry_expecting, hentry]

theorem outcome?_of_barred {a : ActorId} (hsystem : w.systemNamed i.system = .ok s)
    (hentry : (w.system s).registry.find? i.name = some { actor := a, invocable := false }) :
    (w.next i.act).outcome? w.channels.length =
      some (.ok (Reply.failure s!"Actor {i.name} does not accept invocations.").toJson) := by
  refine outcome?_of_invoke hsystem ?_
  rw [invokeByName, systemEntry_expecting, hentry]
  rfl

/-- What can be invoked is sent an operation. -/
theorem exists_reaches {a : ActorId}
    (hentry : (w.system s).registry.find? i.name = some { actor := a, invocable := true }) :
    ∃ x, i.Reaches w s x :=
  ⟨{ actor := a
     handle := w.channels.length + 1
     route := .ordered
     answer := (w.next i.act).outcome? (w.channels.length + 1)
     body := i.body
     kind := .reply }, hentry, rfl, rfl, rfl, rfl, rfl⟩

theorem commission_of_reaches (hsystem : w.systemNamed i.system = .ok s) (hx : i.Reaches w s x) :
    w.commission i.act = some x := by
  have ht : w.target? i.act = some (x.actor, x.handle, .ordered) := by
    rw [hx.handle]
    simp only [Invocation.act, target?, hsystem, hx.entry]
  have hsending : w.sending i.act = some x.toSending := by
    simp only [sending, ht, Option.map_some, ← hx.answer, ← hx.route]
  rw [commission, hsending, Option.map_some]
  show some { x with body := i.body, kind := .reply } = _
  rw [← hx.body, ← hx.kind]

theorem length_expecting (waiter : String) (w : World) :
    (w.expecting waiter).channels.length = w.channels.length + 1 := by
  simp [expecting, hand, newHandle]

/-- **An operation is refused** at once only if the actor is closed. -/
theorem closed_of_answer (hs : w.scene.Sound) (hsystem : w.systemNamed i.system = .ok s)
    (hx : i.Reaches w s x) (ho : x.answer = some o) :
    (w.actor x.actor).closed = true ∧ o = .error (.closed (w.actor x.actor).name) := by
  have hlen := (length_expecting i.waiter w).trans hx.handle.symm
  set w₀ := w.expecting i.waiter with hw₀
  have hchannel : (w.next i.act).channel x.handle =
      (w₀.sendOrdered x.actor i.body .reply).2.channel x.handle := by
    rw [Invocation.act, next_of_invocable hsystem hx.entry]
    rfl
  rw [hx.answer, outcome?, hchannel, ← hlen, sendOrdered] at ho
  cases henqueue : (w₀.actor x.actor).enqueue (.operation w₀.channels.length i.body .reply) with
  | some actor =>
    -- The envelope waits, so the handle shows nothing.
    have hopen : (w₀.newHandle {}).2.outcome? w₀.channels.length = some o := by
      rw [henqueue] at ho
      exact ho
    simp [newHandle, outcome?, channel, Channel.peek] at hopen
  | none =>
    have hclosed := closed_of_enqueue hs (a := x.actor) henqueue
    rw [lane_scene] at hclosed
    have hrefused := channel_refuse x.actor
      (w₀.report (.operationRefused (w₀.actor x.actor).refusal.message))
    refine ⟨hclosed, ?_⟩
    rw [henqueue, Channel.peek] at ho
    simp only [show (w₀.report _).channels.length = w₀.channels.length from rfl] at hrefused
    rw [hrefused] at ho
    exact (Option.some.inj ho).symm

/-! ### The task -/

/-- The task of an invocation waits for the outcome of its operation, or it has told it. -/
inductive Answering (w : World) (h : HandleId) (x : Commission) (s : SystemId) : Prop where
  /-- The task is there. -/
  | waits {t : TaskId} (ht : w.task? t = some (.invocation h x.handle x.actor s))
  /-- The task has told the outcome. -/
  | told {o : Except ActorError Json} (ho : w.outcome? x.handle = some o)
    (hreply : w.outcome? h = some (.ok (replyOf o)))

theorem answering_invoke (hs : w.scene.Sound) (hsystem : w.systemNamed i.system = .ok s)
    (hx : i.Reaches w s x) : (w.next i.act).Answering w.channels.length x s := by
  set w₀ := w.expecting i.waiter with hw₀
  set w₁ := (w₀.sendOrdered x.actor i.body .reply).2 with hw₁
  have hhandle : (w₀.sendOrdered x.actor i.body .reply).1 = x.handle := by
    rw [hx.handle, ← length_expecting i.waiter w, sendOrdered]
    split <;> rfl
  have hnew : w₁.task? w₁.taskCount = none := by
    have hsame : w₁.tasks = w.tasks ∧ w₁.taskCount = w.taskCount := by
      rw [hw₁, sendOrdered]
      split <;> exact ⟨rfl, rfl⟩
    rw [task?, hsame.1, hsame.2]
    exact task?_taskCount hs
  refine .waits (t := w₁.taskCount) ?_
  rw [Invocation.act, next_of_invocable hsystem hx.entry, task?_release, ← hhandle]
  exact task?_spawn hnew _

/-- **The task tells what it finds.** -/
theorem outcome?_of_answering (hs : w.scene.Sound) {t : TaskId} (hne : x.handle ≠ h)
    (ht : w.task? t = some (.invocation h x.handle x.actor s))
    (ho : w.outcome? x.handle = some o) :
    (w.next (.move (.task t))).outcome? h = some (.ok (replyOf o)) ∧
      (w.next (.move (.task t))).outcome? x.handle = some o := by
  have hnext : w.next (.move (.task t)) =
      ((w.resolve h (.ok (replyOf o))).endTask t).release :=
    next_of_stepTask (by simp [stepTask, ht, ho])
  have hchannel : ∀ k, (w.next (.move (.task t))).channel k =
      (w.resolve h (.ok (replyOf o))).channel k := fun k => by
    rw [hnext, channel_release]
    rfl
  have hempty : w.scene.content h = .empty := content_of_task hs ht
  refine ⟨?_, ?_⟩
  · rw [outcome?, hchannel, ← outcome?]
    exact outcome?_resolve hempty _
  · rw [outcome?, hchannel, channel_resolve_ne hne]
    exact ho

theorem answering_next (hs : w.scene.Sound) (hne : x.handle ≠ h) (hh : w.Unkept h)
    (hk : w.Unkept x.handle) (hw : w.Answering h x s) (act : Act) :
    (w.next act).Answering h x s := by
  cases hw with
  | told ho hreply =>
    exact .told (outcome?_next hs hk ho act) (outcome?_next hs hh hreply act)
  | waits ht =>
    rename_i t
    by_cases hmoves : act = .move (.task t)
    · subst hmoves
      cases ho : w.outcome? x.handle with
      | none =>
        rw [next_of_stuck (by simp [step, stepTask, ht, ho])]
        exact .waits ht
      | some o =>
        obtain ⟨hreply, hsame⟩ := outcome?_of_answering hs hne ht ho
        exact .told hsame hreply
    · by_cases hgrace : act = .move (.grace t)
      · -- An invocation has no grace period.
        subst hgrace
        rw [next_of_stuck (by simp [step, expireGrace, ht])]
        exact .waits ht
      · exact .waits (task_next hs ht ⟨hmoves, hgrace⟩)

/-! ### Following an invocation -/

theorem length_invokeByName (s : SystemId) (key action args : String) (h : HandleId) (w : World) :
    w.channels.length ≤ (w.invokeByName s key action args h).channels.length := by
  have resolved : ∀ o, (w.resolve h o).channels.length = w.channels.length := fun o => by
    rw [resolve]
    split <;> exact List.length_modify ..
  rw [invokeByName]
  split
  · exact Nat.le_of_eq (resolved _).symm
  · rename_i a _ _
    split
    · obtain ⟨c, hc, _⟩ := issues_sendOrdered a (Action.ofInvocation action args) .reply w
      show w.channels.length ≤ (w.sendOrdered a _ _).2.channels.length
      simp [hc]
    · exact Nat.le_of_eq (resolved _).symm

/-- No client keeps the handles of an invocation. -/
theorem unkept_invoke {before : List Act} (hsystem : (run before).systemNamed i.system = .ok s)
    (hnew : (run before).channels.length ≤ h)
    (hlt : h < ((run before).next i.act).channels.length) : ((run before).next i.act).Unkept h := by
  refine ⟨hlt, fun hkept => Nat.not_lt_of_le hnew (hasMade_of_kept before (.operation h) ?_)⟩
  have hnext := @next_of_invoke (run before) i.system i.waiter i.name i.action i.args s hsystem
  rw [Invocation.act, hnext, kept_congr (steady_release _).names,
    kept_congr (discreet_invokeByName ..).names]
    at hkept
  exact hkept

theorem unkept_own {before : List Act} (hsystem : (run before).systemNamed i.system = .ok s) :
    ((run before).next i.act).Unkept (run before).channels.length := by
  refine unkept_invoke hsystem (Nat.le_refl _) ?_
  rw [Invocation.act, next_of_invoke hsystem]
  refine Nat.lt_of_lt_of_le ?_ (length_invokeByName ..)
  rw [length_expecting]
  exact Nat.lt_succ_self _

theorem unkept_run (acts later : List Act) (hh : (run acts).Unkept h) :
    (run (acts ++ later)).Unkept h := by
  induction later using List.reverseRecOn with
  | nil => rwa [List.append_nil]
  | append_singleton later act ih =>
    rw [← List.append_assoc, run_concat]
    exact ih.next (sound_run _) act

/-- An outcome that nobody takes is there for ever. -/
theorem outcome?_run (acts later : List Act) (hh : (run acts).Unkept h)
    (ho : (run acts).outcome? h = some o) : (run (acts ++ later)).outcome? h = some o := by
  induction later using List.reverseRecOn with
  | nil => rwa [List.append_nil]
  | append_singleton later act ih =>
    rw [← List.append_assoc, run_concat]
    exact outcome?_next (sound_run _) (unkept_run acts later hh) ih act

theorem mem_commissions_of_sent {before : List Act} {act : Act}
    (hx : (run before).commission act = some x) (later : List Act) :
    x ∈ commissions (before ++ act :: later) := by
  rw [List.append_cons]
  refine (record_isPrefix _ (before ++ [act]) later).subset ?_
  show x ∈ commissions (before ++ [act])
  rw [commissions_concat, hx]
  exact List.mem_append_right _ (List.mem_singleton_self x)

/-- What is known of an invocation while a run goes on. -/
structure Followed (x : Commission) (h : HandleId) (s : SystemId) (acts : List Act) : Prop where
  /-- The operation was sent. -/
  sent : x ∈ commissions acts
  /-- No client keeps the handle of the invocation, -/
  own : (run acts).Unkept h
  /-- or that of the operation. -/
  operation : (run acts).Unkept x.handle
  /-- An action that has ended is known to have ended so. -/
  ended : ∀ ending, .ends ending ∈ history x.site acts →
    (run acts).outcome? x.handle = some (x.kind.outcome ending)
  /-- The task waits, or it has told the outcome. -/
  answering : (run acts).Answering h x s

theorem followed_invoke {before : List Act} (hsystem : (run before).systemNamed i.system = .ok s)
    (hx : i.Reaches (run before) s x) :
    Followed x (run before).channels.length s (before ++ [i.act]) := by
  have hs := sound_run before
  have hcommission := commission_of_reaches hsystem hx
  have hnew : (run before).channels.length ≤ x.handle := hx.handle ▸ Nat.le_succ _
  have hlt := (whereabouts_sent hs hcommission hx.site).lt (sound_next hs i.act)
  refine ⟨mem_commissions_of_sent hcommission [], ?_, ?_, fun ending hmem => ?_, ?_⟩
  · rw [run_concat]
    exact unkept_own hsystem
  · rw [run_concat]
    exact unkept_invoke hsystem hnew hlt
  · -- A call does nothing for anybody.
    rw [hx.site, history_concat, history_of_le before hnew] at hmem
    cases hmem
  · rw [run_concat]
    exact answering_invoke hs hsystem hx

theorem Followed.concat {acts : List Act} (hroute : x.route = .ordered) (hne : x.handle ≠ h)
    (hf : Followed x h s acts) (act : Act) : Followed x h s (acts ++ [act]) := by
  have hs := sound_run acts
  have hsite : x.site = .operation x.handle := by rw [Commission.site, hroute]
  refine ⟨?_, ?_, ?_, fun ending hmem => ?_, ?_⟩
  · rw [commissions_concat]
    exact List.mem_append_left _ hf.sent
  · rw [run_concat]
    exact hf.own.next hs act
  · rw [run_concat]
    exact hf.operation.next hs act
  · rw [history_concat] at hmem
    rw [run_concat]
    rcases List.mem_append.mp hmem with hold | hends
    · exact outcome?_next hs hf.operation (hf.ended ending hold) act
    · rw [hsite] at hends
      cases settles_of_whereabouts hs (whereabouts_run acts x hf.sent hsite) hends with
      | ordered _ _ houtcome _ => exact houtcome
      | bypass hr _ _ _ | offloaded hr _ _ _ =>
        rw [hroute] at hr
        cases hr
  · rw [run_concat]
    exact answering_next hs hne hf.own hf.operation hf.answering act

theorem followed_run {before : List Act} (hsystem : (run before).systemNamed i.system = .ok s)
    (hx : i.Reaches (run before) s x) (later : List Act) :
    Followed x (run before).channels.length s (before ++ i.act :: later) := by
  rw [List.append_cons]
  induction later using List.reverseRecOn with
  | nil =>
    rw [List.append_nil]
    exact followed_invoke hsystem hx
  | append_singleton later act ih =>
    rw [← List.append_assoc]
    exact ih.concat hx.route (hx.handle ▸ Nat.succ_ne_self _) act

/-! ### What replies say -/

/-- What the action of an invocation ends with is a value, or a break. -/
theorem outcome_reply (ending : Ending) : (∃ v, Answer.reply.outcome ending = .ok v) ∨
    ∃ message, Answer.reply.outcome ending = .error (.panicked message) := by
  cases ending with
  | returned v => exact .inl ⟨_, rfl⟩
  | failed message => exact .inl ⟨_, rfl⟩
  | broke payload => exact .inr ⟨_, rfl⟩

/-- **The outcome of the operation** says what the reply to the invocation says. -/
theorem answered_of_outcome {before acts : List Act}
    (hsystem : (run before).systemNamed i.system = .ok s) (hx : i.Reaches (run before) s x)
    (hf : Followed x h s acts) (ho : (run acts).outcome? x.handle = some o) :
    ∃ r : Reply, replyOf o = r.toJson ∧ i.Answered s before acts r := by
  have hstays : ¬x.IsOffloaded := by
    rintro ⟨p, j, hroute⟩
    rw [hx.route] at hroute
    cases hroute
  have hreports := reports_of_whereabouts acts hf.sent hx.site ho
  -- An action that has ended leaves no room for a refusal or a loss.
  have unended : (∀ v, o ≠ .ok v) → (∀ message, o ≠ .error (.panicked message)) →
      ∀ ending, .ends ending ∉ history x.site acts := by
    intro hok hpanicked ending hmem
    have hended := hf.ended ending hmem
    rw [ho, hx.kind] at hended
    obtain rfl := Option.some.inj hended
    rcases outcome_reply ending with ⟨v, hv⟩ | ⟨message, hmessage⟩
    · exact hok v hv
    · exact hpanicked message hmessage
  cases o with
  | ok v =>
    rcases hreports with ⟨u, hall, rfl⟩ | ⟨_, message, hfailed, rfl⟩
    · refine ⟨.ofSuccess (payload u), ?_, .returned hx (hx.body ▸ hall)⟩
      rw [replyOf, hx.kind, Answer.ofValue]
    · exact ⟨.failure message, rfl, .failed hx hfailed⟩
  | error e =>
    cases e with
    | panicked message =>
      rcases hreports with ⟨payload, hbroke, rfl⟩ | ⟨hoff, _⟩
      · exact ⟨_, rfl, .panicked hx hbroke⟩
      · exact absurd hoff hstays
    | closed name =>
      have hfull := (outcome?_cases ho).resolve_right fun hlost => by cases hlost.2
      have htold := (whereabouts_run acts x hf.sent hx.site).told (sound_run acts) hfull
      rw [← hx.site] at htold
      rcases htold with ⟨hanswer, _⟩ | ⟨ending, hmem, _⟩
      · obtain ⟨hclosed, hname⟩ := closed_of_answer (sound_run before) hsystem hx hanswer
        cases hname
        have hnever := (history_of_refused acts x hf.sent (by rw [hanswer]; simp)).2
        rw [← hx.site] at hnever
        exact ⟨_, rfl, .closed hx hclosed hnever⟩
      · exact absurd hmem (unended (by simp) (by simp) ending)
    | discarded => exact ⟨_, rfl, .discarded hx (unended (by simp) (by simp))⟩
    | operation message => exact absurd hx.kind hreports.2.1
    | cancelled | rejected _ => exact absurd hreports.1 hstays
    | notFound _ | detached _ | runtime _ | terminated _ => exact hreports.elim

end World

/-! ### In turn -/

open World

/-- An operation has its turn at the end of a run: its actor is inside of it, for the first time;
whatever the actor had accepted `before` is over, or was dropped; and nothing that it has accepted
later has been begun with. -/
structure Commission.HasTurn (x : Commission) (before acts : List Act) : Prop where
  /-- The run loop of its actor is inside of it, -/
  running : (run acts).running? x.actor = some x.handle
  /-- and has not come out of it before. -/
  first : x.handle ∉ ended x.actor acts
  /-- What was accepted before is over, or was dropped. -/
  earlier : ∀ h ∈ accepted x.actor before, h ∈ ended x.actor acts ∨ h ∈ dropped x.actor acts
  /-- What is accepted after it has not been begun with. -/
  later : ∀ h ∈ started x.actor acts, h ∈ accepted x.actor before ∨ h = x.handle

namespace World

variable {w : World} {h : HandleId} {x : Commission}

/-- What an actor gets to work on was accepted when it was sent. -/
theorem accepted_of_running {before later : List Act} {act : Act}
    (hx : (run before).commission act = some x) (hroute : x.route = .ordered)
    (hrunning : (run (before ++ act :: later)).running? x.actor = some x.handle) :
    accepted x.actor (before ++ [act]) = accepted x.actor before ++ [x.handle] := by
  obtain ⟨ht, _⟩ := target?_of_commission hx
  have hlt := (whereabouts_sent (sound_run before) hx
    (by rw [Commission.site, hroute])).lt (sound_next (sound_run before) act)
  rw [List.append_cons] at hrunning
  have hempty : (run (before ++ act :: later)).scene.content x.handle = .empty := by
    rw [List.append_cons]
    refine (sound_run _).content_of_handles (a := x.actor) (List.mem_append_left _ ?_)
    rw [← toList_running?, hrunning]
    exact List.mem_singleton_self _
  rw [accepted_concat, accepts_of_empty ht (by rw [hroute]; simp)]
  rw [List.append_cons] at hempty
  rw [← run_concat] at hlt ⊢
  exact empty_before _ later hlt hempty

/-- An ordered operation that its actor is inside of has its turn. -/
theorem hasTurn_of_running {before later : List Act} {act : Act}
    (hx : (run before).commission act = some x) (hroute : x.route = .ordered)
    (hrunning : (run (before ++ act :: later)).running? x.actor = some x.handle) :
    x.HasTurn before (before ++ act :: later) := by
  have haccepted := accepted_of_running hx hroute hrunning
  have hnew := (of_target? (target?_of_commission hx).1).2
  set acts := before ++ act :: later with hacts
  have hlog := log_run x.actor acts
  have hstarted : started x.actor acts = ended x.actor acts ++ [x.handle] := by
    rw [hlog.current, hrunning]
    rfl
  -- It is the last of what was started, and comes before what waits.
  have hsorted := hlog.increasing.sublist hlog.order
  rw [hstarted, List.append_assoc] at hsorted
  obtain ⟨_, hqueued, hended⟩ := List.pairwise_append.mp hsorted
  have hfirst : ∀ h ∈ ended x.actor acts, h < x.handle := fun h hh =>
    hended h hh x.handle List.mem_cons_self
  refine ⟨hrunning, fun hmem => Nat.lt_irrefl _ (hfirst _ hmem), fun h hh => ?_, fun h hh => ?_⟩
  · have hlt : h < x.handle := Nat.lt_of_lt_of_le ((log_run x.actor before).made h hh) hnew
    have hplace := hlog.places.mem_iff.mp ((accepted_isPrefix x.actor before _).subset hh)
    rw [hstarted] at hplace
    simp only [List.mem_append, List.mem_singleton] at hplace
    rcases hplace with ((hdone | rfl) | hwaits) | hdropped
    · exact .inl hdone
    · exact absurd hlt (Nat.lt_irrefl _)
    · exact absurd hlt (Nat.lt_asymm (List.rel_of_pairwise_cons hqueued hwaits))
    · exact .inr hdropped
  · rw [hstarted] at hh
    refine (List.mem_append.mp hh).imp (fun hdone => ?_) List.mem_singleton.mp
    have hmem : h ∈ accepted x.actor acts := by
      refine hlog.order.subset (List.mem_append_left _ ?_)
      rw [hstarted]
      exact List.mem_append_left _ hdone
    obtain ⟨rest, hrest⟩ := accepted_isPrefix x.actor (before ++ [act]) later
    rw [← List.append_cons, ← hacts, haccepted, List.append_assoc] at hrest
    have hincreasing := hlog.increasing
    rw [← hrest] at hmem hincreasing
    -- What comes after it in the order of acceptance is greater.
    have hgreater := (List.pairwise_append.mp hincreasing).2.1
    rcases List.mem_append.mp hmem with hbefore | hafter
    · exact hbefore
    · rcases List.mem_cons.mp hafter with rfl | hlater
      · exact absurd (hfirst _ hdone) (Nat.lt_irrefl _)
      · exact absurd (hfirst _ hdone) (Nat.lt_asymm (List.rel_of_pairwise_cons hgreater hlater))

/-- Whoever works on an ordered operation is the run loop of its actor. -/
theorem Whereabouts.running? {ds : List Doing} (hs : w.scene.Sound) (h : w.Whereabouts x ds)
    (hroute : x.route = .ordered) (hw : w.WorksOn (.operation x.handle)) :
    w.running? x.actor = some x.handle := by
  cases h with
  | waits _ hmem =>
    obtain ⟨m, _, hd⟩ := hw
    obtain ⟨r, c, hm, _⟩ := doing?_eq_some.mp hd
    exact absurd hm (operation?_of_waiting hs hmem)
  | resolved _ hne _ _ => exact absurd (content_of_worksOn hs hw) hne
  | @runs m r _ c hr hm _ _ =>
    obtain rfl : Runner.runLoop x.actor = r := by simpa [Commission.runner?, hroute] using hr
    cases m with
    | runLoop a =>
      obtain ⟨heq, hloop⟩ := loop_of_operation? hm
      obtain rfl := Runner.runLoop.inj heq
      rw [World.running?, hloop]
      rfl
    | task t =>
      obtain ⟨_, hbypass, _⟩ := task?_of_operation? hm
      cases hbypass
    | worker _ _ | grace _ => cases hm

/-- A run in which a handle has been made goes on from the act that made it. -/
theorem exists_eq_append_of_made {before later upto rest : List Act} {act act' : Act}
    (hnew : (run before).channels.length ≤ h) (hmade : h < (run upto).channels.length)
    (hsplit : before ++ act :: later = upto ++ act' :: rest) :
    ∃ mid, upto = before ++ act :: mid := by
  have hlate : ∀ mid, before ≠ upto ++ mid := by
    rintro mid rfl
    have hgrows := (grows_run upto mid).contents
    rw [length_contents_scene, length_contents_scene] at hgrows
    exact Nat.not_lt_of_le (Nat.le_trans hgrows hnew) hmade
  rcases List.append_eq_append_iff.mp hsplit with ⟨mid, hmid, hrest⟩ | ⟨mid, hmid, _⟩
  · cases mid with
    | nil => exact absurd (by simpa using hmid.symm) (hlate [])
    | cons first mid =>
      obtain ⟨rfl, _⟩ := List.cons.inj hrest
      exact ⟨mid, hmid⟩
  · exact absurd hmid (hlate mid)

/-- **Whatever is done for an ordered operation is done in its turn.** -/
theorem hasTurn_of_doings {before later upto rest : List Act} {act act' : Act}
    (hx : (run before).commission act = some x) (hroute : x.route = .ordered)
    (hsplit : before ++ act :: later = upto ++ act' :: rest)
    (hdoes : doings x.site (run upto) act' ≠ []) : x.HasTurn before upto := by
  have hs := sound_run upto
  have hsite : x.site = .operation x.handle := by rw [Commission.site, hroute]
  have hw : (run upto).WorksOn (.operation x.handle) := hsite ▸ worksOn_of_doings hdoes
  have hmade := Scene.lt_of_content_empty (content_of_worksOn hs hw)
  rw [length_contents_scene] at hmade
  obtain ⟨mid, rfl⟩ :=
    exists_eq_append_of_made (of_target? (target?_of_commission hx).1).2 hmade hsplit
  have hplace := whereabouts_run _ x (mem_commissions_of_sent hx mid) hsite
  exact hasTurn_of_running hx hroute (hplace.running? hs hroute hw)

end World

/-! ### Telling the truth -/

namespace Invocation

variable {i : Invocation} {s : SystemId} {before acts : List Act} {r : Reply} {x : Commission}

/-- A reply that is a success says that the action has returned. -/
theorem Answered.returns (h : i.Answered s before acts r) (hsuccess : r.success = true) :
    ∃ x u, i.Reaches (run before) s x ∧
      history x.site acts = i.body.map .performs ++ [.ends (.returned u)] ∧
      r = .ofSuccess (payload u) := by
  cases h with
  | returned hx hall => exact ⟨_, _, hx, hall, rfl⟩
  | missing _ | barred _ | failed _ _ | panicked _ _ | closed _ _ _ | discarded _ _ =>
    cases hsuccess

/-- An action that has returned is replied to with its value. -/
theorem Answered.eq_ofSuccess (h : i.Answered s before acts r) (hx : i.Reaches (run before) s x)
    {u : Json} (hall : history x.site acts = i.body.map .performs ++ [.ends (.returned u)]) :
    r = .ofSuccess (payload u) := by
  have hsame : ∀ {y : Commission}, i.Reaches (run before) s y → y.site = x.site := fun hy => by
    rw [hy.site, hx.site, hy.handle, hx.handle]
  have hentry := hx.entry
  -- A history has one end only.
  have hlast : ∀ {ds : List Doing} {ending : Ending},
      history x.site acts = ds ++ [.ends ending] → ending = .returned u := by
    intro ds ending hother
    have := congrArg List.getLast? (hother.symm.trans hall)
    simpa using this
  cases h with
  | missing hnone =>
    rw [hnone] at hentry
    cases hentry
  | barred hbarred =>
    rw [hbarred] at hentry
    cases hentry
  | returned hy hother =>
    rw [hsame hy] at hother
    obtain rfl := Ending.returned.inj (hlast hother)
    rfl
  | failed hy hfailed =>
    obtain ⟨_, _, _, hother⟩ := hfailed
    rw [hsame hy] at hother
    cases hlast hother
  | panicked hy hbroke =>
    obtain ⟨_, _, _, _, _, hother⟩ := hbroke
    rw [hsame hy] at hother
    cases hlast hother
  | closed hy _ hnever =>
    rw [hsame hy, hall] at hnever
    simp at hnever
  | discarded hy hends =>
    refine absurd ?_ (hends (.returned u))
    rw [hsame hy, hall]
    exact List.mem_append_right _ (List.mem_singleton_self _)

/-- **What is true of an invocation by name** that was made after some acts, at the end of a run
that goes on from it. The handle of the invocation was the next one at the call. -/
structure Truthful (i : Invocation) (s : SystemId) (before acts : List Act) : Prop where
  /-- Whatever the handle shows is a reply, and the reply says what has happened. -/
  replies : ∀ o, (run acts).outcome? (run before).channels.length = some o →
    ∃ r : Reply, o = .ok r.toJson ∧ i.Answered s before acts r
  /-- The reply is a success exactly if someone was there to ask, and all of the action was
  performed and returned the payload. -/
  succeeds : ∀ p, (run acts).outcome? (run before).channels.length =
      some (.ok (Reply.ofSuccess p).toJson) ↔
    (run acts).outcome? (run before).channels.length ≠ none ∧
      ∃ x u, i.Reaches (run before) s x ∧
        history x.site acts = i.body.map .performs ++ [.ends (.returned u)] ∧ payload u = p
  /-- The action is performed once at most, and in order. -/
  once : ∀ x, i.Reaches (run before) s x → Ran i.body (history x.site acts)
  /-- Whatever is done for it is done in its turn. -/
  inTurn : ∀ x, i.Reaches (run before) s x → ∀ upto act rest, acts = upto ++ act :: rest →
    doings x.site (run upto) act ≠ [] → x.HasTurn before upto
  /-- When it ends, its handle shows what it has ended with. -/
  ended : ∀ x, i.Reaches (run before) s x → ∀ ending, .ends ending ∈ history x.site acts →
    (run acts).outcome? x.handle = some (Answer.reply.outcome ending)
  /-- As long as there is no reply the task of the invocation is there, and as soon as the handle of
  the action shows something, its next move is to reply. -/
  pending : (run acts).outcome? (run before).channels.length = none →
    ∃ x t, i.Reaches (run before) s x ∧
      (run acts).task? t = some (.invocation (run before).channels.length x.handle x.actor s) ∧
      ∀ o, (run acts).outcome? x.handle = some o →
        (run (acts ++ [.move (.task t)])).outcome? (run before).channels.length =
          some (.ok (replyOf o))
  /-- A reply stays what it is. -/
  final : ∀ o, (run acts).outcome? (run before).channels.length = some o →
    ∀ later, (run (acts ++ later)).outcome? (run before).channels.length = some o

end Invocation

namespace World

variable {i : Invocation} {s : SystemId} {before : List Act}

/-- There is a reply, or the task waits for the outcome of the action. -/
theorem answered_run (hsystem : (run before).systemNamed i.system = .ok s) (later : List Act) :
    (∃ r : Reply, (run (before ++ i.act :: later)).outcome? (run before).channels.length =
        some (.ok r.toJson) ∧ i.Answered s before (before ++ i.act :: later) r) ∨
      (run (before ++ i.act :: later)).outcome? (run before).channels.length = none ∧
        ∃ x t, i.Reaches (run before) s x ∧ (run (before ++ i.act :: later)).task? t =
          some (.invocation (run before).channels.length x.handle x.actor s) := by
  -- A reply that is there at once stays there.
  have atOnce : ∀ {r : Reply}, ((run before).next i.act).outcome? (run before).channels.length =
      some (.ok r.toJson) → (run (before ++ i.act :: later)).outcome?
        (run before).channels.length = some (.ok r.toJson) := by
    intro r hr
    rw [List.append_cons]
    refine outcome?_run (before ++ [i.act]) later ?_ ?_
    · rw [run_concat]
      exact unkept_own hsystem
    · rw [run_concat]
      exact hr
  cases hentry : ((run before).system s).registry.find? i.name with
  | none => exact .inl ⟨_, atOnce (outcome?_of_missing hsystem hentry), .missing hentry⟩
  | some entry =>
    obtain ⟨a, invocable⟩ := entry
    cases invocable with
    | false => exact .inl ⟨_, atOnce (outcome?_of_barred hsystem hentry), .barred hentry⟩
    | true =>
      obtain ⟨x, hx⟩ := exists_reaches (i := i) hentry
      have hf := followed_run hsystem hx later
      cases hf.answering with
      | waits ht =>
        exact .inr ⟨outcome?_eq_none_iff.mpr (content_of_task (sound_run _) ht), x, _, hx, ht⟩
      | told ho hreply =>
        obtain ⟨r, hr, hanswered⟩ := answered_of_outcome hsystem hx hf ho
        exact .inl ⟨r, by rw [hreply, hr], hanswered⟩

/-- **Invocations by name tell the truth**, whatever comes before the call and after it. -/
theorem invocations_truthful (before later : List Act) (i : Invocation) (s : SystemId)
    (hsystem : (run before).systemNamed i.system = .ok s) :
    i.Truthful s before (before ++ i.act :: later) := by
  have hrun := answered_run hsystem later
  have hfollowed := fun x hx => @followed_run s i x before hsystem hx later
  have hown : (run (before ++ i.act :: later)).Unkept (run before).channels.length := by
    rw [List.append_cons]
    refine unkept_run (before ++ [i.act]) later ?_
    rw [run_concat]
    exact unkept_own hsystem
  set acts := before ++ i.act :: later with hacts
  refine ⟨fun o ho => ?_, fun p => ⟨fun hp => ?_, fun hp => ?_⟩, fun x hx => ?_,
    fun x hx upto act rest hsplit hdoes => ?_, fun x hx ending hends => ?_, fun hnone => ?_,
    fun o ho more => outcome?_run acts more hown ho⟩
  · rcases hrun with ⟨r, hr, hanswered⟩ | ⟨hnone, _⟩
    · exact ⟨r, Option.some.inj (ho.symm.trans hr), hanswered⟩
    · rw [hnone] at ho
      cases ho
  · refine ⟨by simp [hp], ?_⟩
    rcases hrun with ⟨r, hr, hanswered⟩ | ⟨hnone, _⟩
    · obtain rfl : r = .ofSuccess p :=
        Reply.toJson_injective (Except.ok.inj (Option.some.inj (hr.symm.trans hp)))
      obtain ⟨x, u, hx, hall, heq⟩ := hanswered.returns rfl
      exact ⟨x, u, hx, hall, (congrArg Reply.payload heq).symm⟩
    · rw [hnone] at hp
      cases hp
  · obtain ⟨hsome, x, u, hx, hall, rfl⟩ := hp
    rcases hrun with ⟨r, hr, hanswered⟩ | ⟨hnone, _⟩
    · rw [hr, hanswered.eq_ofSuccess hx hall]
    · exact absurd hnone hsome
  · have hran := (whereabouts_run acts x (hfollowed x hx).sent hx.site).ran
    rwa [hx.body, ← hx.site] at hran
  · exact hasTurn_of_doings (commission_of_reaches hsystem hx) hx.route (hacts ▸ hsplit) hdoes
  · rw [← hx.kind]
    exact (hfollowed x hx).ended ending hends
  · rcases hrun with ⟨r, hr, _⟩ | ⟨_, x, t, hx, ht⟩
    · rw [hr] at hnone
      cases hnone
    · refine ⟨x, t, hx, ht, fun o ho => ?_⟩
      rw [run_concat]
      have hne : x.handle ≠ (run before).channels.length := hx.handle ▸ Nat.succ_ne_self _
      exact (outcome?_of_answering (sound_run acts) hne ht ho).1

/-- An actor is known under another name than its own, and something waits for it. -/
def knownRun : List Act :=
  [.call (.createSystem "s" "sys" 1 (.ofSecs 30) {}),
    .call (.createActor "a" "own" "log" {}), .call (.attach "s" "a" (some "x") true),
    .call (.send (.operation .ordered "a" [.effect .giveCount] .value (.watched "w")))]

/-- It is to pass a gate. -/
def passing : Invocation where
  system := "s"
  waiter := "r"
  name := "x"
  action := "gate"
  args := "g"

/-- Another actor gets the name, the gate opens, and the first one goes on as far as it can. -/
def knownLater : List Act :=
  .call (.createMember "s" "c" "x" "log" true) :: .call (.openGate "g") ::
    List.replicate 8 (.move (.runLoop 0)) ++ [.move (.task 0)]

theorem invocations_truthful_knownRun :
    (run knownRun).systemNamed "s" = .ok 0 ∧
      (run (knownRun ++ passing.act :: knownLater)).outcome? 1 =
        some (.ok (Reply.ofSuccess "opened").toJson) ∧
      passing.Truthful 0 knownRun (knownRun ++ passing.act :: knownLater) :=
  ⟨rfl, rfl, invocations_truthful knownRun knownLater passing 0 rfl⟩

end World

end Troupe
