import Troupe.Proofs.World.Phases
import Troupe.Proofs.World.Resolutions

/-!
# Operations past the mailbox

An operation that is sent past the mailbox becomes a task, and the task is all there is of it: its
envelope is in no mailbox, no run loop is inside of it, and it holds the target itself. So after an
open actor has accepted it, nothing that happens to the actor, its system or its pools matters to
it. The task is there until the body has ended, and the end of the body is what the handle shows.

Two things can hold it up, and both are its own: a gate that is closed, and a close that the
operation itself awaits.

## Main definitions

* `Commission.Delivers` — an outcome that is the value of the body, or how the body has broken off
* `Commission.Independent` — what is true of an operation past the mailbox, at the end of a run

## Main results

* `World.bypass_sent` — an open actor accepts, and the task is there with the whole body
* `World.fresh_or_begun` — nothing but its own move begins with the body
* `World.bypasses_deliver` — all of it, for every later course of events
-/

namespace Troupe

open World

/-! ### Outcomes of a body -/

/-- An outcome that the body has come to: its value, or how it has broken off or failed. -/
inductive Commission.Delivers (x : Commission) (acts : List Act) :
    Except ActorError Json → Prop where
  /-- All of the body has been performed, and it has returned. -/
  | value (u : Json) (h : history x.site acts = x.body.map .performs ++ [.ends (.returned u)]) :
    Delivers x acts (.ok (x.kind.ofValue u))
  /-- The body has broken off. -/
  | panic (payload : Panic) (h : x.BrokeOff acts payload) :
    Delivers x acts (.error (.panicked payload.message))
  /-- An action of an invocation has failed, and the value is a reply that says so. -/
  | reply (message : String) (hkind : x.kind = .reply) (h : x.Failed acts message) :
    Delivers x acts (.ok (Reply.failure message).toJson)
  /-- The body has ended itself with an error. Clients ask that of ordered operations only. -/
  | failure (message : String) (hkind : x.kind ≠ .reply) (h : x.Failed acts message) :
    Delivers x acts (.error (.operation message))

/-- The outcomes of an operation that was refused or dropped. -/
def ActorError.IsWithheld : ActorError → Prop
  | .closed _ | .discarded | .cancelled | .rejected _ => True
  | _ => False

namespace Commission

variable {x : Commission} {acts : List Act} {o : Except ActorError Json}

theorem Delivers.not_withheld (h : x.Delivers acts o) {e : ActorError} (ho : o = .error e) :
    ¬e.IsWithheld := by
  cases h with
  | value u _ => cases ho
  | reply _ _ _ => cases ho
  | panic payload _ =>
    cases ho
    exact id
  | failure message _ _ =>
    cases ho
    exact id

/-- What a body past the mailbox has ended with is delivered. -/
theorem Own.delivers (hroute : x.route = .bypass) (hran : Ran x.body (history x.site acts))
    (h : x.Own acts o) : x.Delivers acts o := by
  obtain ⟨ending, hmem, rfl⟩ := h
  have houtcome : x.outcomeOf ending = x.kind.outcome ending := by rw [outcomeOf, hroute]
  rw [houtcome]
  rcases hran.of_ends hmem with ⟨u, rfl, hall⟩ | ⟨done, action, rest, hbody, hcut, hhistory⟩
  · exact .value u hall
  · cases ending with
    | returned u => cases hcut
    | broke payload => exact .panic payload ⟨done, action, rest, hbody, hcut, hhistory⟩
    | failed message =>
      obtain rfl : action = .effect (.fail message) := hcut
      have hfailed : x.Failed acts message := ⟨done, rest, hbody, hhistory⟩
      by_cases hkind : x.kind = .reply
      · simp only [Answer.outcome, hkind, if_true]
        exact .reply message hkind hfailed
      · simp only [Answer.outcome, hkind, if_false]
        exact .failure message hkind hfailed

end Commission

namespace World

variable {w : World} {act : Act} {a : ActorId} {h : HandleId} {x : Commission}

/-! ### Sending -/

/-- What is sent past a mailbox by name is sent, and then its handle is handed out. -/
theorem trails_sendBypass {s : Send} {w₁ : World} (hsend : w.send s = .ok w₁)
    (hdest : w.destination s = some (a, .bypass)) :
    w.Trails (w.sendBypass a s.order.1 s.order.2).2 w₁ := by
  cases dispatches_of_send hsend with
  | ordered ha => simp [destination, ha, Except.toOption] at hdest
  | @bypass _ _ _ _ b ha =>
    obtain rfl : b = a := by simpa [destination, ha, Except.toOption] using hdest
    exact .hand ..
  | offload ha hp => simp [destination, ha, hp] at hdest
  | job _ => cases hdest

/-- The task of an operation past the mailbox with which nothing has been done. -/
def freshTask (x : Commission) : Task :=
  .bypass x.actor x.handle { rest := x.body, answer := x.kind }

/-- **An open actor accepts** what is sent past its mailbox: it is a task. -/
theorem bypass_sent (hs : w.scene.Sound) (hx : w.commission act = some x)
    (hroute : x.route = .bypass) (hopen : (w.actor x.actor).isOpen = true) :
    ∃ t, (w.next act).task? t = some (freshTask x) := by
  obtain ⟨-, hbody, hkind⟩ := sending_of_commission hx
  obtain ⟨ht, -⟩ := target?_of_commission hx
  rw [hroute] at ht
  have hnew := task?_taskCount hs
  generalize hlen : x.handle = k at ht
  cases sends_of_target? ht with
  | byName s w₁ hsend hdest horder hrest =>
    refine ⟨w.taskCount, ((trails_sendBypass hsend hdest).trans hrest).task _ _ hnew ?_⟩
    rw [sendBypass, if_pos hopen, ← horder, ← hbody, ← hkind, freshTask, hlen]
    exact task?_spawn (w := (w.newHandle {}).2) hnew _

/-! ### Beginning -/

/-- The first move of a task begins with the body. -/
theorem doings_of_fresh {t : TaskId} (ht : w.task? t = some (freshTask x))
    (hstep : w.step (.task t) ≠ none) : doings (.operation x.handle) w (.move (.task t)) ≠ [] := by
  have hm := operation?_of_bypass ht
  rw [doings_of_operation? hm, courseDoings]
  have hmoves : w.stepCourse (.bypass x.actor) { rest := x.body, answer := x.kind } ≠ none :=
    fun hnone => hstep ((operation?_stuck hm).mpr hnone)
  cases hcourse : w.stepCourse (.bypass x.actor) { rest := x.body, answer := x.kind } with
  | none => exact absurd hcourse hmoves
  | some y =>
    obtain ⟨progress, w'⟩ := y
    cases progress with
    | ends ending => simp
    | goesOn c' =>
      cases hbody : x.body with
      | nil =>
        rw [hbody] at hcourse
        cases hcourse
      | cons action rest => simp [Course.action?]

/-- Only a gate holds up the first move of a task. -/
theorem atGate_of_fresh (hs : w.scene.Sound) {t : TaskId} (ht : w.task? t = some (freshTask x))
    (hstuck : w.step (.task t) = none) : w.AtGate (.task t) :=
  (held_up hs (operation?_of_bypass ht) hstuck).resolve_right fun h => h.1 rfl

/-- A task with which nothing has been done stays as it is, until its own move begins with it. -/
theorem fresh_next (hs : w.scene.Sound) {t : TaskId} (ht : w.task? t = some (freshTask x))
    (act : Act) : doings (.operation x.handle) w act ≠ [] ∨
      (w.next act).task? t = some (freshTask x) := by
  by_cases hact : act = .move (.task t)
  · subst hact
    cases hstep : w.step (.task t) with
    | none =>
      rw [next_of_stuck hstep]
      exact .inr ht
    | some w' => exact .inl (doings_of_fresh ht (by simp [hstep]))
  · exact .inr (bypass_next hs ht hact)

/-- **An operation past the mailbox** has been begun with, or its task is there with the whole
body. -/
theorem fresh_or_begun (acts later : List Act) (hx : (run acts).commission act = some x)
    (hroute : x.route = .bypass) (hopen : ((run acts).actor x.actor).isOpen = true) :
    history x.site (acts ++ act :: later) ≠ [] ∨
      ∃ t, (run (acts ++ act :: later)).task? t = some (freshTask x) := by
  have hsite : x.site = .operation x.handle := by rw [Commission.site, hroute]
  induction later using List.reverseRecOn with
  | nil =>
    rw [run_concat]
    exact .inr (bypass_sent (sound_run acts) hx hroute hopen)
  | append_singleton later e ih =>
    rw [← List.cons_append, ← List.append_assoc, history_concat, run_concat]
    rcases ih with hbegun | ⟨t, ht⟩
    · exact .inl fun hnil => hbegun (List.append_eq_nil_iff.mp hnil).1
    · rcases fresh_next (sound_run _) ht e with hmoves | hstays
      · rw [hsite]
        exact .inl fun hnil => hmoves (List.append_eq_nil_iff.mp hnil).2
      · exact .inr ⟨t, hstays⟩

end World

/-! ### What becomes of an operation past the mailbox -/

/-- **What is true of an operation past the mailbox**, at the end of a run. -/
structure Commission.Independent (x : Commission) (acts : List Act) : Prop where
  /-- As long as nothing has been done for it, its task is there with the whole body, and unless
  the body begins at a closed gate, the next move of the task begins with it. -/
  begins : history x.site acts = [] → (run acts).outcome? x.handle = none →
    ∃ t, (run acts).task? t = some (freshTask x) ∧
      (¬(run acts).AtGate (.task t) → doings x.site (run acts) (.move (.task t)) ≠ [])
  /-- As long as it is unresolved, its task works through the body, and can move unless it waits at
  a closed gate or for a close in progress. -/
  goesOn : (run acts).outcome? x.handle = none →
    ∃ t course done, (run acts).task? t = some (.bypass x.actor x.handle course) ∧
      x.body = done ++ course.rest ∧ history x.site acts = done.map .performs ∧
      ((run acts).step (.task t) = none →
        (run acts).AtGate (.task t) ∨ (run acts).Awaits (.task t))
  /-- It is not dropped. -/
  kept : (run acts).scene.content x.handle ≠ .lost
  /-- When the body ends, the handle shows what it has ended with. -/
  ends : ∀ act ending, .ends ending ∈ doings x.site (run acts) act →
    ((run acts).next act).outcome? x.handle = some (x.kind.outcome ending)
  /-- Nothing else resolves the handle: it takes a move of the task, and the outcome is that of the
  body. -/
  resolves : ∀ act o, (run acts).Resolves act x.handle o →
    (∃ t course, act = .move (.task t) ∧
      (run acts).task? t = some (.bypass x.actor x.handle course)) ∧ x.Delivers (acts ++ [act]) o
  /-- Whatever the handle shows is the outcome of the body, until somebody takes it. -/
  shows : ∀ o, (run acts).scene.content x.handle = .full o → x.Delivers acts o
  /-- The outcome is not one of those that stand for an operation that was refused or dropped. -/
  faithful : ∀ e, (run acts).scene.content x.handle = .full (.error e) → ¬e.IsWithheld
  /-- When nothing moves and it is unresolved, its task waits at a closed gate or for a close in
  progress. -/
  rests : (run acts).isQuiet = true → (run acts).outcome? x.handle = none →
    ∃ t course, (run acts).task? t = some (.bypass x.actor x.handle course) ∧
      ((run acts).AtGate (.task t) ∨ (run acts).Awaits (.task t))

namespace World

variable {act : Act} {x : Commission} {o : Except ActorError Json}

/-- What is there as a task is resolved by its own move. -/
theorem task_of_resolves (acts : List Act) (hx : x ∈ commissions acts) (hroute : x.route = .bypass)
    (h : (run acts).Resolves act x.handle o) : ∃ t course, act = .move (.task t) ∧
      (run acts).task? t = some (.bypass x.actor x.handle course) := by
  have hs := sound_run acts
  obtain ⟨t, course, ht⟩ := task_of_bypass (mem_sendings hx) hroute h.1
  refine ⟨t, course, ?_, ht⟩
  by_contra hact
  have hstays := operation?_of_bypass (bypass_next hs ht hact)
  exact h.contents.2 (content_of_operation? (sound_next hs act) hstays)

/-- What is not lost when it is sent past the mailbox is not lost later. -/
theorem never_lost_of_bypass (acts later : List Act) (hx : x ∈ commissions acts)
    (hroute : x.route = .bypass) (hkept : (run acts).scene.content x.handle ≠ .lost) :
    (run (acts ++ later)).scene.content x.handle ≠ .lost := by
  induction later using List.reverseRecOn with
  | nil => rwa [List.append_nil]
  | append_singleton later e ih =>
    have hmem := (record_isPrefix _ acts later).subset hx
    rw [← List.append_assoc, run_concat]
    intro hlost
    by_cases hempty : (run (acts ++ later)).scene.content x.handle = .empty
    · exact kept_of_bypass _ hmem hroute (outcome?_eq_none_iff.mpr hempty) e hlost
    · have hlt := hasMade_run _ hmem
      rw [Commission.site, hroute] at hlt
      exact ih (settled_before (sound_run _) e hlt hempty (by simp) hlost)

/-- What an operation past the mailbox shows is the outcome of its body. -/
theorem shows_of_bypass (acts : List Act) (hx : x ∈ commissions acts) (hroute : x.route = .bypass)
    (hanswer : x.answer = none) (hfull : (run acts).scene.content x.handle = .full o) :
    x.Delivers acts o := by
  have hsite : x.site = .operation x.handle := by rw [Commission.site, hroute]
  have hplace := whereabouts_run acts x hx hsite
  rcases hplace.told (sound_run acts) hfull with ⟨hnow, -⟩ | hown
  · rw [hanswer] at hnow
    cases hnow
  · rw [← hsite] at hplace hown
    exact Commission.Own.delivers hroute hplace.ran hown

/-- **An accepted operation past the mailbox always delivers its own outcome.** An operation that is
sent past the mailbox of an open actor is accepted, and whatever happens afterwards, it is begun
with regardless of the mailbox and the run loop, it is not dropped, its handle resolves with the
outcome of its body, and if it is unresolved when nothing moves, it waits at a closed gate or for a
close in progress. -/
theorem bypasses_deliver (acts : List Act) (act : Act) (x : Commission)
    (hx : (run acts).commission act = some x) (hroute : x.route = .bypass)
    (hopen : ((run acts).actor x.actor).closed = false) :
    x.answer = none ∧ ∀ later, x.Independent (acts ++ act :: later) := by
  have hsite : x.site = .operation x.handle := by rw [Commission.site, hroute]
  have hsent := isOpen_run acts hopen
  have hempty : (run (acts ++ [act])).scene.content x.handle = .empty := by
    obtain ⟨t, ht⟩ := bypass_sent (sound_run acts) hx hroute hsent
    rw [run_concat]
    exact content_of_operation? (sound_next (sound_run acts) act) (operation?_of_bypass ht)
  have hanswer : x.answer = none := by
    rw [(target?_of_commission hx).2, ← run_concat]
    exact outcome?_eq_none_iff.mpr hempty
  refine ⟨hanswer, fun later => ?_⟩
  have hnow : x ∈ commissions (acts ++ [act]) := by
    rw [commissions_concat, hx]
    exact List.mem_append_right _ (List.mem_singleton_self x)
  have hlater : acts ++ act :: later = acts ++ [act] ++ later := List.append_cons ..
  have hmem : x ∈ commissions (acts ++ act :: later) := by
    rw [hlater]
    exact (record_isPrefix _ _ later).subset hnow
  have hs := sound_run (acts ++ act :: later)
  have hplace := whereabouts_run _ x hmem hsite
  have shows : ∀ o, (run (acts ++ act :: later)).scene.content x.handle = .full o →
      x.Delivers (acts ++ act :: later) o := fun o hfull =>
    shows_of_bypass _ hmem hroute hanswer hfull
  refine ⟨fun hnothing hnone => ?_, fun hnone => ?_, ?_, fun e ending hends => ?_,
    fun e o hres => ⟨task_of_resolves _ hmem hroute hres, ?_⟩, shows,
    fun e hfull => (shows _ hfull).not_withheld rfl, fun hquiet hnone => ?_⟩
  · obtain ⟨t, ht⟩ := (fresh_or_begun acts later hx hroute hsent).resolve_left fun h => h hnothing
    refine ⟨t, ht, fun hgate => ?_⟩
    rw [hsite]
    exact doings_of_fresh ht fun hstuck => hgate (atGate_of_fresh hs ht hstuck)
  · obtain ⟨t, course, done, ht, hbody, hhistory⟩ := course_of_bypass hmem hroute hnone
    refine ⟨t, course, done, ht, hbody, hhistory, fun hstuck => ?_⟩
    exact (held_up hs (operation?_of_bypass ht) hstuck).imp_right And.right
  · rw [hlater]
    exact never_lost_of_bypass _ later hnow hroute (by simp [hempty])
  · rw [hsite] at hends
    cases settles_of_whereabouts hs hplace hends with
    | bypass _ _ houtcome _ => exact houtcome
    | ordered hr _ _ _ | offloaded hr _ _ _ =>
      rw [hroute] at hr
      cases hr
  · have hown := own_of_bypass _ hmem hroute hanswer hres
    refine hown.delivers hroute ?_
    rw [hsite]
    exact (whereabouts_run _ x ((record_isPrefix _ _ [e]).subset hmem) hsite).ran
  · obtain ⟨t, course, ht⟩ := task_of_bypass (mem_sendings hmem) hroute hnone
    exact ⟨t, course, ht, (quiet_of_isQuiet hquiet).atGate_or_awaits hs (operation?_of_bypass ht)⟩

/-- An actor is inside of an operation that waits at a gate, and another one waits behind it. -/
def gatedActorRun : List Act :=
  [.call (.createActor "a" "n" "log" {}),
    .call (.send (.operation .ordered "a" [.effect (.gate "g")] .value (.watched "u"))),
    .call (.send (.operation .ordered "a" [.effect (.push "behind")] .value (.watched "v"))),
    .move (.runLoop 0), .move (.runLoop 0)]

/-- Something is sent past the mailbox. -/
def urgentAct : Act :=
  .call (.send (.operation .bypass "a" [.effect (.push "now"), .effect .giveCount] .value
    (.watched "x")))

/-- What is sent. -/
def urgentCommission : Commission where
  actor := 0
  handle := 2
  route := .bypass
  answer := none
  body := [.effect (.push "now"), .effect .giveCount]
  kind := .value

/-- The actor is cleared and closed, and its run loop is aborted. -/
def teardown : List Act :=
  [.call (.clear "a"), .call (.close "a" "z"), .move (.task 1), .call (.advance 10001),
    .move (.task 1)]

/-- Everything else that was sent to the actor is dropped. What went past the mailbox has not even
begun by then; its task is there with the whole body, and it comes to its value. -/
theorem bypasses_deliver_teardown :
    let acts := gatedActorRun ++ urgentAct :: teardown
    let later := teardown ++ [.move (.task 0), .move (.task 0), .move (.task 0)]
    (run gatedActorRun).commission urgentAct = some urgentCommission ∧
      ((run acts).actor 0).loop.hasEnded = true ∧
      (run acts).outcome? 0 = some (.error .discarded) ∧
      (run acts).outcome? 1 = some (.error .discarded) ∧
      (∃ t, (run acts).task? t = some (freshTask urgentCommission)) ∧
      (run (gatedActorRun ++ urgentAct :: later)).outcome? 2 = some (.ok (.ofNat 1)) ∧
      urgentCommission.Independent (gatedActorRun ++ urgentAct :: later) := by
  have hsent : (run gatedActorRun).commission urgentAct = some urgentCommission := rfl
  obtain ⟨-, hindependent⟩ := bypasses_deliver gatedActorRun urgentAct urgentCommission hsent rfl
    rfl
  refine ⟨hsent, rfl, rfl, rfl, ?_, rfl, hindependent _⟩
  obtain ⟨t, ht, -⟩ := (hindependent teardown).begins rfl rfl
  exact ⟨t, ht⟩

end World

end Troupe
