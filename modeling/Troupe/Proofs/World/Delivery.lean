import Troupe.Proofs.World.Progress
import Troupe.Proofs.World.ResultOrder
import Troupe.Proofs.World.Waits

/-!
# What is sent arrives

An act that sends something to an actor leaves it where it is to run: as an envelope in the
mailbox, as a task, or as a job of a pool; or else its handle shows at once that the actor refused
it. Whatever the act does after sending, which is to hand out the handle and to take its mover one
step further, leaves this as it is.

## Main definitions

* `World.Arrived` — where something is right after it was sent
* `World.Trails` — what the rest of the act does not touch
* `World.Sends` — how an act sends something

## Main results

* `World.arrived_send`, `World.arrived_next` — what is sent arrives, and is there after the act
* `World.whereabouts_sent`, `World.whereabouts_run` — operations are followed from the beginning
-/

namespace Troupe

namespace World

variable {w w₁ w₂ w₃ : World} {a : ActorId} {h : HandleId} {r : Route}

/-! ### Arriving -/

/-- Where something is right after it was sent. -/
inductive Arrived (w : World) (a : ActorId) (body : List Action) (kind : Answer) (w₁ : World) :
    Route → Prop where
  /-- The actor refused it. -/
  | refused {r : Route} {name : String}
    (hc : (w₁.channel w.channels.length).content = .full (.error (.closed name))) :
    Arrived w a body kind w₁ r
  /-- Its envelope waits. -/
  | ordered (hmem : .operation w.channels.length body kind ∈ (w₁.actor a).mailbox.queue) :
    Arrived w a body kind w₁ .ordered
  /-- A task has begun. -/
  | bypass {t : TaskId} (hnew : w.task? t = none)
    (ht : w₁.task? t = some (.bypass a w.channels.length { rest := body, answer := kind })) :
    Arrived w a body kind w₁ .bypass
  /-- A job has been submitted. -/
  | offloaded {p : PoolId} {owner : Option String} {urgent : Bool} {work : Work}
    (hp : p < w.pools.length) (hbody : work.rest.map .effect = body) (hkind : work.answer = kind)
    (hpool : w₁.pool p = ((w.pool p).submit owner urgent work).2) :
    Arrived w a body kind w₁ (.offloaded p (w.pool p).channels.length)

theorem queue_of_enqueue {e : Envelope} {actor actor' : Actor}
    (h : actor.enqueue e = some actor') :
    actor'.mailbox.queue = actor.mailbox.queue ++ [e] := by
  rw [Actor.enqueue, Mailbox.push] at h
  split at h
  · cases h
  · split at h <;> cases h
    rfl

theorem channel_refuse (a : ActorId) (w : World) :
    ((w.refuse a).2.channel w.channels.length).content =
      .full (.error (.closed (w.actor a).name)) := by
  simp [refuse, newHandle, channel, Channel.settled, Actor.refusal]

theorem arrived_sendOrdered (ha : a < w.actors.length) (body : List Action) (kind : Answer) :
    w.Arrived a body kind (w.sendOrdered a body kind).2 .ordered := by
  rw [sendOrdered]
  split
  · rename_i actor hpush
    refine .ordered ?_
    show _ ∈ (((w.newHandle {}).2.onActor a fun _ => actor).actor a).mailbox.queue
    rw [actor_onActor_self (w.newHandle {}).2 ha, queue_of_enqueue hpush]
    exact List.mem_append_right _ (List.mem_singleton_self _)
  · exact .refused (channel_refuse a _)

/-- The number of the next task is new. -/
theorem task?_taskCount (hs : w.scene.Sound) : w.task? w.taskCount = none :=
  List.lookup_eq_none_iff.mpr fun x hx =>
    bne_iff_ne.mpr (Nat.ne_of_lt (hs.tasks_lt x hx)).symm

theorem task?_spawn (hnew : w.task? w.taskCount = none) (task : Task) :
    (w.spawn task).task? w.taskCount = some task := by
  show (w.tasks ++ [(w.taskCount, task)]).lookup w.taskCount = _
  rw [List.lookup_append, show w.tasks.lookup w.taskCount = none from hnew, Option.none_or]
  simp

theorem arrived_sendBypass (hs : w.scene.Sound) (a : ActorId) (body : List Action)
    (kind : Answer) : w.Arrived a body kind (w.sendBypass a body kind).2 .bypass := by
  rw [sendBypass]
  split
  · have hnew := task?_taskCount hs
    exact .bypass hnew (task?_spawn (w := (w.newHandle {}).2) hnew _)
  · exact .refused (channel_refuse a w)

theorem pool_submitJob {p : PoolId} (hp : p < w.pools.length) (owner : Option String)
    (urgent : Bool) (work : Work) :
    (w.submitJob p owner urgent work).2.pool p = ((w.pool p).submit owner urgent work).2 := by
  rw [← pool_scene, scene_submitJob, Scene.pool_onPool, if_pos ⟨rfl, by simpa using hp⟩,
    pool_scene]
  rfl

theorem arrived_sendOffload {p : PoolId} (hp : p < w.pools.length) (a : ActorId) (urgent : Bool)
    (body : List Effect) (kind : Answer) :
    w.Arrived a (body.map .effect) kind (w.sendOffload a p urgent body kind).2
      (.offloaded p (w.pool p).channels.length) := by
  rw [sendOffload]
  split
  · set w₁ := (w.onActor a (·.remember p)).submitJob p
      (some ((w.onActor a (·.remember p)).actor a).owner) urgent
      { rest := body, answer := kind, page := .side a } with hw₁
    have hlen : w₁.2.channels.length = w.channels.length := by
      rw [← length_contents_scene, hw₁, scene_submitJob, scene_remember, ← length_contents_scene w]
      rfl
    have hpool : w₁.2.pool p = ((w.pool p).submit _ urgent _).2 :=
      pool_submitJob (w := w.onActor a (·.remember p)) hp _ _ _
    dsimp only
    split
    · exact .offloaded hp rfl rfl hpool
    · have hrefused := channel_refuse a (w₁.2.deafen (.job p w₁.1))
      rw [show (w₁.2.deafen (.job p w₁.1)).channels.length = w.channels.length from hlen]
        at hrefused
      exact .refused hrefused
  · exact .refused (channel_refuse a w)

/-! ### Staying -/

/-- What the rest of an act does not touch: mailboxes, what handles hold, the jobs of pools, and
the tasks that were not there before. -/
structure Trails (w w₁ w₂ : World) : Prop where
  /-- No mailbox changes. -/
  mailbox : ∀ b, (w₂.actor b).mailbox = (w₁.actor b).mailbox
  /-- Handles show the same. -/
  content : ∀ h, (w₂.channel h).content = (w₁.channel h).content
  /-- New tasks stay. -/
  task : ∀ t task, w.task? t = none → w₁.task? t = some task → w₂.task? t = some task
  /-- The same jobs wait. -/
  queue : ∀ p, (w₂.pool p).queue = (w₁.pool p).queue
  /-- The handles of jobs show the same. -/
  job : ∀ p j, (w₂.pool p).content j = (w₁.pool p).content j

theorem Trails.trans (h : w.Trails w₁ w₂) (k : w.Trails w₂ w₃) : w.Trails w₁ w₃ :=
  ⟨fun b => (k.mailbox b).trans (h.mailbox b), fun i => (k.content i).trans (h.content i),
    fun t task hw h₁ => k.task t task hw (h.task t task hw h₁),
    fun p => (k.queue p).trans (h.queue p), fun p j => (k.job p j).trans (h.job p j)⟩

theorem Trails.release (w w₁ : World) : w.Trails w₁ w₁.release :=
  ⟨mailbox_release w₁, fun _ => rfl, fun _ _ _ => id, fun _ => rfl, fun _ _ => rfl⟩

theorem Trails.setLoop (w w₁ : World) (a : ActorId) (l : Loop) : w.Trails w₁ (w₁.setLoop a l) :=
  ⟨fun b => mailbox_setLoop w₁ a b l, fun _ => rfl, fun _ _ _ => id, fun _ => rfl, fun _ _ => rfl⟩

/-- The task that sends may get further. -/
theorem Trails.setTask {t : TaskId} {old : Task} (ht : w.task? t = some old) (w₁ : World)
    (new : Task) : w.Trails w₁ (w₁.setTask t new) := by
  refine ⟨fun _ => rfl, fun _ => rfl, fun k task hk h₁ => ?_, fun _ => rfl, fun _ _ => rfl⟩
  have hne : k ≠ t := by
    rintro rfl
    rw [ht] at hk
    cases hk
  exact (Scene.lookup_setTask hne).trans h₁

theorem Trails.spawn (w w₁ : World) (t : Task) : w.Trails w₁ (w₁.spawn t) := by
  refine ⟨fun _ => rfl, fun _ => rfl, fun k task _ h₁ => ?_, fun _ => rfl, fun _ _ => rfl⟩
  show (w₁.tasks ++ _).lookup k = _
  rw [List.lookup_append, show w₁.tasks.lookup k = some task from h₁, Option.some_or]

theorem Trails.deafen (w w₁ : World) (ref : HandleRef) : w.Trails w₁ (w₁.deafen ref) := by
  cases ref with
  | operation k =>
    refine ⟨fun _ => rfl, fun i => ?_, fun _ _ _ => id, fun _ => rfl, fun _ _ => rfl⟩
    rw [← content_scene, scene_deafen_operation, content_scene]
  | job q j =>
    have hpool : ∀ p, (w₁.deafen (.job q j)).pool p =
        if p = q ∧ q < w₁.scene.pools.length then (w₁.pool q).deafen j else w₁.pool p := by
      intro p
      rw [← pool_scene, scene_deafen_job, Scene.pool_onPool, pool_scene, pool_scene]
      rfl
    refine ⟨fun _ => rfl, fun _ => rfl, fun _ _ _ => id, fun p => ?_, fun p i => ?_⟩
    · rw [hpool]
      split
      · rename_i hp
        rw [hp.1]
        rfl
      · rfl
    · rw [hpool]
      split
      · rename_i hp
        rw [hp.1, Pool.deafen, Pool.content_onChannel]
        split <;> rfl
      · rfl

theorem Trails.hand (w w₁ : World) (recipient : Recipient) (ref : HandleRef) :
    w.Trails w₁ (w₁.hand recipient ref) := by
  have names : ∀ (v : World) (d : Directory), w.Trails v { v with names := d } := fun v d =>
    ⟨fun _ => rfl, fun _ => rfl, fun _ _ _ => id, fun _ => rfl, fun _ _ => rfl⟩
  cases recipient with
  | watched name => exact names w₁ _
  | nobody => exact .deafen w w₁ ref
  | held name =>
    cases hheld : w₁.names.held.lookup name with
    | none =>
      simp only [World.hand, hheld]
      exact names w₁ _
    | some old =>
      simp only [World.hand, hheld]
      exact (Trails.deafen w w₁ old).trans (names _ _)

/-! ### What an act sends -/

/-- **What is sent arrives.** -/
theorem arrived_send (hs : w.scene.Sound) {s : Send} (hsend : w.send s = .ok w₂)
    (hdest : w.destination s = some (a, r)) :
    ∃ w₁, w.Arrived a s.order.1 s.order.2 w₁ r ∧ w.Trails w₁ w₂ := by
  cases dispatches_of_send hsend with
  | @ordered _ body answer _ b ha =>
    obtain ⟨rfl, rfl⟩ : b = a ∧ Route.ordered = r := by
      simpa [destination, ha, Except.toOption] using hdest
    exact ⟨_, arrived_sendOrdered (lt_of_held hs (held_of_actorNamed ha)) body answer, .hand ..⟩
  | @bypass _ body answer _ b ha =>
    obtain ⟨rfl, rfl⟩ : b = a ∧ Route.bypass = r := by
      simpa [destination, ha, Except.toOption] using hdest
    exact ⟨_, arrived_sendBypass hs b body answer, .hand ..⟩
  | @offload _ _ urgent body answer _ b p ha hp =>
    obtain ⟨rfl, rfl⟩ : b = a ∧ Route.offloaded p _ = r := by
      simpa [destination, ha, hp] using hdest
    exact ⟨_, arrived_sendOffload (lt_of_heldPool hs (held_of_poolNamed hp)) b urgent body answer,
      .hand ..⟩
  | job _ => cases hdest

theorem send_of_destination {s : Send} (h : w.destination s = some (a, r)) :
    ∃ w₁, w.send s = .ok w₁ := by
  cases hsend : w.send s with
  | error message =>
    rw [destination_of_error hsend] at h
    cases h
  | ok w₁ => exact ⟨w₁, rfl⟩

theorem stepCourse_of_send {s : Send} {runner : Runner} {c : Course}
    (haction : c.action? = some (.send s)) (hsend : w.send s = .ok w₁) :
    w.stepCourse runner c = some (.goesOn { c with rest := c.rest.tail }, w₁) := by
  simp only [stepCourse_of_action? haction, perform, hsend, withNamed]

/-- A mover that goes on leaves the rest as its course leaves it. -/
theorem trails_goesOn {m : Mover} {runner : Runner} {c c' : Course}
    (hm : w.course? m = some (runner, c)) (hstep : w.stepCourse runner c = some (.goesOn c', w₁)) :
    w.Trails w₁ (w.next (.move m)) := by
  rcases next_of_goesOn hm hstep with ⟨a, _, _, hnext⟩ | ⟨t, old, new, ht, hnext⟩
  · rw [hnext]
    exact (Trails.setLoop w w₁ a _).trans (.release w _)
  · rw [hnext]
    exact (Trails.setTask ht w₁ new).trans (.release w _)

/-- A mover that sends gets one step further. -/
theorem trails_move {m : Mover} {s : Send} (haction : w.action? m = some (.send s))
    (hsend : w.send s = .ok w₁) : w.Trails w₁ (w.next (.move m)) := by
  obtain ⟨runner, c, hm, hc⟩ := course?_of_action? haction
  exact trails_goesOn hm (stepCourse_of_send hc hsend)

/-- The world in which somebody awaits a new handle under a name. -/
def expecting (handle : String) (w : World) : World :=
  (w.newHandle {}).2.hand (.watched handle) (.operation w.channels.length)

/-- An invocation by name has a handle of its own. -/
theorem next_of_invoke {system handle name action args : String} {s : SystemId}
    (hsystem : w.systemNamed system = .ok s) :
    w.next (.call (.invoke system handle name action args)) =
      ((w.expecting handle).invokeByName s name action args w.channels.length).release := by
  have hanswer : w.answer (.invoke system handle name action args) =
      .ok (.nothing,
        (w.expecting handle).invokeByName s name action args w.channels.length) := by
    simp only [answer, hsystem, bind, Except.bind, pure, Except.pure]
    rfl
  exact next_of_answer hanswer

/-- What can be invoked is sent an ordered operation, and a task waits for the outcome. -/
theorem next_of_invocable {system handle name action args : String} {s : SystemId}
    (hsystem : w.systemNamed system = .ok s)
    (hfind : (w.system s).registry.find? name = some { actor := a, invocable := true }) :
    w.next (.call (.invoke system handle name action args)) =
      (((w.expecting handle).sendOrdered a (Action.ofInvocation action args) .reply).2.spawn
        (.invocation w.channels.length
          ((w.expecting handle).sendOrdered a (Action.ofInvocation action args) .reply).1
            a s)).release := by
  have hsame : ((w.expecting handle).system s).registry.find? name =
      (w.system s).registry.find? name := rfl
  rw [next_of_invoke hsystem, invokeByName, hsame, hfind]
  rfl

/-- What an invocation by name sends arrives, as an ordered operation, after the invocation has got
a handle of its own. -/
theorem arrived_invoke (hs : w.scene.Sound) {system handle name action args : String}
    {s : SystemId} (hsystem : w.systemNamed system = .ok s)
    (hfind : (w.system s).registry.find? name = some { actor := a, invocable := true }) :
    ∃ w₀ w₁ : World, w₀.Arrived a (Action.ofInvocation action args) .reply w₁ .ordered ∧
      w₀.Trails w₁ (w.next (.call (.invoke system handle name action args))) ∧
      w₀.channels.length = w.channels.length + 1 ∧ w₀.pools = w.pools := by
  have ha := lt_of_held hs (held_of_find? hfind)
  refine ⟨w.expecting handle, _,
    arrived_sendOrdered (w := w.expecting handle) ha (Action.ofInvocation action args) .reply,
    ?_, ?_, rfl⟩
  · rw [next_of_invocable hsystem hfind]
    exact (Trails.spawn ..).trans (.release ..)
  · simp [expecting, hand, newHandle]

/-- How an act sends something to an actor. -/
inductive Sends (w : World) (a : ActorId) : Act → HandleId → Route → Prop where
  /-- By name; what comes after the sending does not touch what was sent. -/
  | byName {act : Act} {r : Route} (s : Send) (w₁ : World) (hsend : w.send s = .ok w₁)
    (hdest : w.destination s = some (a, r)) (horder : w.order act = s.order)
    (hrest : w.Trails w₁ (w.next act)) : Sends w a act w.channels.length r
  /-- By an invocation, which has a handle of its own. -/
  | invokes {system handle name action args : String} {s : SystemId}
    (hsystem : w.systemNamed system = .ok s)
    (hfind : (w.system s).registry.find? name = some { actor := a, invocable := true }) :
    Sends w a (.call (.invoke system handle name action args)) (w.channels.length + 1) .ordered

theorem sends_of_target? {act : Act} (ht : w.target? act = some (a, h, r)) :
    w.Sends a act h r := by
  unfold target? at ht
  split at ht
  · rename_i s
    obtain ⟨⟨b, r'⟩, hdest, heq⟩ := Option.map_eq_some_iff.mp ht
    cases heq
    obtain ⟨w₁, hsend⟩ := send_of_destination hdest
    have hnext : w.next (.call (.send s)) = w₁.release := by
      simp [next, call, answer, hsend, bind, Except.bind, pure, Except.pure]
    exact .byName s w₁ hsend hdest rfl (hnext ▸ .release w w₁)
  · split at ht
    · rename_i s hsystem
      split at ht
      · rename_i b hfind
        cases ht
        exact .invokes hsystem hfind
      · cases ht
    · cases ht
  · rename_i m
    split at ht
    · rename_i s haction
      obtain ⟨⟨b, r'⟩, hdest, heq⟩ := Option.map_eq_some_iff.mp ht
      cases heq
      obtain ⟨w₁, hsend⟩ := send_of_destination hdest
      exact .byName s w₁ hsend hdest (by simp only [order, haction]) (trails_move haction hsend)
    · cases ht
  · cases ht

/-- **What an act sends is there after the act.** -/
theorem arrived_next (hs : w.scene.Sound) {act : Act} (ht : w.target? act = some (a, h, r)) :
    ∃ w₀ w₁ : World, w₀.Arrived a (w.order act).1 (w.order act).2 w₁ r ∧ w₀.Trails w₁ (w.next act) ∧
      w₀.channels.length = h ∧ w₀.pools = w.pools := by
  cases sends_of_target? ht with
  | byName s w₂ hsend hdest horder hrest =>
    obtain ⟨w₁, harrived, htrails⟩ := arrived_send hs hsend hdest
    exact ⟨w, w₁, horder ▸ harrived, htrails.trans hrest, rfl, rfl⟩
  | invokes hsystem hfind => exact arrived_invoke hs hsystem hfind

/-! ### Operations from the beginning -/

variable {act : Act} {x : Commission}

theorem sending_of_commission (h : w.commission act = some x) :
    w.sending act = some x.toSending ∧ x.body = (w.order act).1 ∧ x.kind = (w.order act).2 := by
  obtain ⟨z, hz, rfl⟩ := Option.map_eq_some_iff.mp h
  exact ⟨hz, rfl, rfl⟩

theorem target?_of_commission (h : w.commission act = some x) :
    w.target? act = some (x.actor, x.handle, x.route) ∧
      x.answer = (w.next act).outcome? x.handle := by
  obtain ⟨⟨b, k, r⟩, ht, hz⟩ := Option.map_eq_some_iff.mp (sending_of_commission h).1
  obtain ⟨rfl, rfl, rfl, hanswer⟩ := Sending.mk.inj hz
  exact ⟨ht, hanswer.symm⟩

/-- Whether something failed in a given way is decidable, whatever values it could have. -/
instance decidableEqSomeError {ε α : Type} [DecidableEq ε] (e : ε) :
    (o : Option (Except ε α)) → Decidable (o = some (.error e))
  | some (.error e') => decidable_of_iff (e' = e) (by simp)
  | some (.ok _) => isFalse (by simp)
  | none => isFalse (by simp)

/-- Whether something gave the null value is decidable. -/
instance decidableEqSomeNull {ε : Type} :
    (o : Option (Except ε Json)) → Decidable (o = some (.ok .null))
  | some (.ok .null) => isTrue rfl
  | some (.ok (.bool _)) | some (.ok (.num _ _)) | some (.ok (.str _)) | some (.ok (.arr _))
  | some (.ok (.obj _)) | some (.error _) | none => isFalse (by simp)

theorem outcome?_of_full {o : Except ActorError Json} (h' : w.scene.content h = .full o) :
    w.outcome? h = some o := by
  rw [content_scene] at h'
  rw [outcome?, Channel.peek, h']

theorem outcome?_of_channels (hsame : w₁.channels = w.channels) :
    w₁.outcome? h = w.outcome? h := by
  rw [outcome?, outcome?, channel, channel, hsame]

theorem outcome?_resolve (he : w.scene.content h = .empty) (o : Except ActorError Json) :
    (w.resolve h o).outcome? h = some o := by
  refine outcome?_of_full ?_
  rw [scene_resolve, Scene.content_settleAll, if_pos (List.mem_singleton_self h), he]
  rfl

theorem channel_resolve_ne {k : HandleId} (hne : k ≠ h) (o : Except ActorError Json) :
    (w.resolve h o).channel k = w.channel k := by
  have hother : ∀ w : World, (w.onChannel h (·.send o)).channel k = w.channel k := fun w => by
    simp [channel, onChannel, Ne.symm hne]
  rw [resolve, hother]
  split <;> rfl

/-- **An operation is followed from the beginning.** -/
theorem whereabouts_sent (hs : w.scene.Sound) (hx : w.commission act = some x)
    (hsite : x.site = .operation x.handle) : (w.next act).Whereabouts x [] := by
  obtain ⟨hz, hbody, hkind⟩ := sending_of_commission hx
  obtain ⟨ht, hanswer⟩ := target?_of_commission hx
  obtain ⟨w₀, w₁, harrived, htrails, hlen, _⟩ := arrived_next hs ht
  rw [← hbody, ← hkind] at harrived
  generalize hroute : x.route = r at harrived
  cases harrived with
  | refused hc =>
    rename_i name
    have hfull : (w.next act).scene.content x.handle = .full (.error (.closed name)) := by
      rw [content_scene, ← hlen, htrails.content]
      exact hc
    have hlt : x.handle < (w.next act).channels.length := by
      by_contra hge
      rw [Scene.content_of_le (by simpa using hge)] at hfull
      cases hfull
    refine .resolved hlt (by rw [hfull]; simp) .nil fun o ho => .inl ⟨?_, name, ?_⟩
    · exact hanswer.trans (outcome?_of_full ho)
    · rw [hfull] at ho
      exact (Content.full.inj ho).symm
  | ordered hmem =>
    refine .waits hroute ?_
    rw [htrails.mailbox, ← hlen]
    exact hmem
  | bypass hnew htask =>
    rename_i t
    have hafter := htrails.task t _ hnew htask
    have hrunner : x.runner? = some (.bypass x.actor) := by simp [Commission.runner?, hroute]
    refine .begun (m := .task t) hrunner ?_
    rw [operation?, hafter, ← hlen]
  | offloaded _ _ _ _ =>
    -- No job was made for it, so it was refused.
    have hnone : x.answer ≠ none := by
      intro hnone
      rw [Commission.site, hroute, hnone] at hsite
      cases hsite
    obtain ⟨_, _, hlt, hplace⟩ := sending_next hs hz (by rw [hroute]; simp)
    have hrefused := hplace.resolve_left fun hmem => hnone (by
      rw [hanswer, outcome?_eq_none_iff]
      exact (sound_next hs act).content_of_handles hmem)
    refine .resolved hlt hrefused.1 .nil fun o ho => .inl ⟨?_, (w.actor x.actor).name, ?_⟩
    · exact hanswer.trans (outcome?_of_full ho)
    · have := hanswer.symm.trans hrefused.2
      rw [outcome?_of_full ho] at this
      exact Option.some.inj this

theorem history_of_le (acts : List Act) {h : HandleId} (hle : (run acts).channels.length ≤ h) :
    history (.operation h) acts = [] := by
  induction acts using List.reverseRecOn with
  | nil => rfl
  | append_singleton acts act ih =>
    have hs := sound_run acts
    rw [run_concat] at hle
    have hold := Nat.le_trans (length_channels_next hs act) hle
    have hlost := Scene.content_of_le (s := (run acts).scene) (by simpa using hold)
    rw [history_concat, ih hold, doings_of_resolved hs (by rw [hlost]; simp)]
    rfl

/-- **In a run** every operation is where its history says. -/
theorem whereabouts_run (acts : List Act) : ∀ x ∈ commissions acts,
    x.site = .operation x.handle →
      (run acts).Whereabouts x (history (.operation x.handle) acts) := by
  induction acts using List.reverseRecOn with
  | nil =>
    intro x hx
    cases hx
  | append_singleton acts act ih =>
    intro x hx hsite
    have hs := sound_run acts
    rw [run_concat, history_concat]
    rw [commissions_concat] at hx
    rcases List.mem_append.mp hx with hx | hx
    · exact whereabouts_next hs (ih x hx hsite) act
    · have hx := Option.mem_toList.mp hx
      have hnew := (of_target? (target?_of_commission hx).1).2
      have hlost := Scene.content_of_le (s := (run acts).scene) (by simpa using hnew)
      rw [history_of_le acts hnew, doings_of_resolved hs (by rw [hlost]; simp)]
      exact whereabouts_sent hs hx hsite

end World

end Troupe
