import Troupe.Proofs.World.Delivery
import Troupe.Proofs.World.Steadiness

/-!
# The handles that clients keep

A client can take the outcome out of a handle only if it keeps the handle under a name, and what it
keeps it has got from sending something. So nobody can take the outcome of the job of an offloaded
operation: the client has got the handle of the operation, and the job is known to the relay alone.

## Main definitions

* `World.kept` — the handles that clients keep
* `World.Brings`, `World.Issues` — a handle that is new, and that is not lost

## Main results

* `World.mem_kept_send`, `mem_kept_next` — a handle that is kept was kept before, or is new
-/

namespace Troupe

namespace World

variable {w w' w₁ : World} {a : ActorId}

/-! ### Keeping -/

/-- The handles that clients keep. -/
def kept (w : World) : List HandleRef := w.names.held.map (·.2)

theorem kept_congr (h : w'.names = w.names) : w'.kept = w.kept := by
  rw [kept, h, kept]

theorem mem_kept_hand {recipient : Recipient} {r s : HandleRef}
    (h : r ∈ (w.hand recipient s).kept) : r ∈ w.kept ∨ r = s := by
  cases recipient with
  | watched name => exact .inl h
  | nobody => exact .inl (kept_congr (discreet_deafen s w).names ▸ h)
  | held name =>
    have hheld : (w.hand (.held name) s).names.held = rebind name s w.names.held := by
      cases hlookup : w.names.held.lookup name <;> simp [hand, hlookup, (discreet_deafen _ w).names]
    rw [kept, hheld, rebind, List.map_append] at h
    refine (List.mem_append.mp h).imp (fun h => ?_) List.mem_singleton.mp
    obtain ⟨x, hx, rfl⟩ := List.mem_map.mp h
    exact List.mem_map_of_mem (List.mem_filter.mp hx).1

/-- A handle that is new: that of an operation or, if nothing goes to an actor, of a job. -/
def Brings (w w' : World) (toNobody : Prop) : HandleRef → Prop
  | .operation h => w.channels.length ≤ h ∧ (w'.channel h).content ≠ .lost
  | .job p j => toNobody ∧ j = (w.pool p).channels.length ∧ (w'.pool p).content j ≠ .lost

theorem Brings.imp {toNobody toNobody' : Prop} (h : toNobody → toNobody') {r : HandleRef}
    (hr : w.Brings w' toNobody r) : w.Brings w' toNobody' r := by
  cases r with
  | operation k => exact hr
  | job p j => exact hr.imp_left h

/-- The rest of an act leaves what it brings with it. -/
theorem Brings.trails {w₂ : World} {toNobody : Prop} {r : HandleRef}
    (hr : w.Brings w₁ toNobody r) (h : w.Trails w₁ w₂) : w.Brings w₂ toNobody r := by
  cases r with
  | operation k =>
    rw [Brings, h.content]
    exact hr
  | job p j =>
    rw [Brings, h.job]
    exact hr

/-- One handle more, which is open or resolved. -/
def Issues (w w₁ : World) : Prop := ∃ c, w₁.channels = w.channels ++ [c] ∧ c.content ≠ .lost

theorem Issues.not_lost (h : w.Issues w₁) : (w₁.channel w.channels.length).content ≠ .lost := by
  obtain ⟨c, hc, hne⟩ := h
  simpa [channel, hc] using hne

theorem issues_refuse (a : ActorId) (w : World) : w.Issues (w.refuse a).2 :=
  ⟨.settled (.error (w.actor a).refusal), rfl, by simp [Channel.settled]⟩

theorem issues_sendOrdered (a : ActorId) (body : List Action) (answer : Answer) (w : World) :
    w.Issues (w.sendOrdered a body answer).2 := by
  rw [sendOrdered]
  split
  · exact ⟨{}, rfl, by simp⟩
  · exact issues_refuse a (w.report _)

theorem issues_sendBypass (a : ActorId) (body : List Action) (answer : Answer) (w : World) :
    w.Issues (w.sendBypass a body answer).2 := by
  rw [sendBypass]
  split
  · exact ⟨{}, rfl, by simp⟩
  · exact issues_refuse a w

theorem issues_sendOffload (a : ActorId) (p : PoolId) (urgent : Bool) (body : List Effect)
    (answer : Answer) (w : World) : w.Issues (w.sendOffload a p urgent body answer).2 := by
  rw [sendOffload]
  split
  · set w₁ := w.onActor a (·.remember p)
    set x := w₁.submitJob p (some (w₁.actor a).owner) urgent
      { rest := body, answer, page := .side a } with hx
    have hsame : x.2.channels = w.channels := by
      simp only [hx, submitJob]
      split <;> rfl
    dsimp only
    split
    · refine ⟨{}, ?_, by simp⟩
      rw [← hsame]
      rfl
    · have hissues := issues_refuse a (x.2.deafen (.job p x.1))
      rwa [Issues, show (x.2.deafen (.job p x.1)).channels = w.channels from hsame] at hissues
  · exact issues_refuse a w

/-- **Sending** makes a client keep the handle of what was sent, and no other one: the handle of an
operation, or that of a new job. -/
theorem mem_kept_send (hs : w.scene.Sound) {s : Send} (h : w.send s = .ok w') {r : HandleRef}
    (hr : r ∈ w'.kept) : r ∈ w.kept ∨ w.Brings w' (w.destination s = none) r := by
  -- The three ways to send leave the names to the handing out of the handle.
  have sent : ∀ {x : HandleId × World} {recipient : Recipient}, x.2.names = w.names →
      x.1 = w.channels.length → w.Issues x.2 → r ∈ (x.2.hand recipient (.operation x.1)).kept →
      r ∈ w.kept ∨ w.Brings (x.2.hand recipient (.operation x.1)) (w.destination s = none) r := by
    intro x recipient hnames hnew hissues hmem
    rw [← kept_congr hnames]
    refine (mem_kept_hand hmem).imp_right fun hr => Brings.trails ?_ (.hand w x.2 ..)
    rw [hr, hnew]
    exact ⟨Nat.le_refl _, hissues.not_lost⟩
  cases dispatches_of_send h with
  | @ordered _ body answer _ _ ha =>
    exact sent (discreet_sendOrdered ..).names
      (deeds_sendOrdered hs (held_of_actorNamed ha) body answer).1 (issues_sendOrdered ..) hr
  | @bypass _ body answer _ a _ =>
    exact sent (discreet_sendBypass ..).names (deeds_sendBypass body answer a w).1
      (issues_sendBypass ..) hr
  | @offload _ _ urgent body answer _ _ _ ha hp =>
    exact sent (discreet_sendOffload ..).names
      (deeds_sendOffload hs (held_of_actorNamed ha)
        (lt_of_heldPool hs (held_of_poolNamed hp)) urgent body answer).1
      (issues_sendOffload ..) hr
  | @job _ _ _ _ recipient _ hp =>
    refine (mem_kept_hand hr).imp (fun hold => ?_) (fun hnew => ?_)
    · rwa [sendJob, kept_congr (discreet_submitJob ..).names] at hold
    · rw [sendJob, submitJob_fst] at hnew
      subst hnew
      refine ⟨rfl, rfl, ?_⟩
      rw [(Trails.hand w _ recipient _).job, sendJob,
        pool_submitJob (lt_of_heldPool hs (held_of_poolNamed hp)), Pool.content_submit, if_pos rfl]
      split <;> simp

/-! ### Calls -/

/-- A handle that is moved or dropped. -/
theorem mem_kept_filter {held : List (String × HandleRef)} {f : String × HandleRef → Bool}
    {r : HandleRef} (h : r ∈ (held.filter f).map (·.2)) : r ∈ held.map (·.2) := by
  obtain ⟨x, hx, heq⟩ := List.mem_map.mp h
  exact List.mem_map.mpr ⟨x, (List.mem_filter.mp hx).1, heq⟩

theorem names_createSystem {name : String} {workers : Nat} {grace : Duration}
    {settings : ActorSettings} {s : SystemId}
    (h : w.createSystem name workers grace settings = (.ok s, w')) : w'.names = w.names := by
  obtain ⟨p, w₁, hpool, rfl, rfl⟩ := createSystem_eq_ok h
  exact (discreet_createPool hpool).names

theorem names_addPool {s : SystemId} {p : PoolId} {index : Nat}
    (h : w.addPool s p = (.ok index, w')) : w'.names = w.names := by
  obtain ⟨-, _, rfl⟩ := addPool_eq_ok h
  rfl

/-- **A call** makes a client keep the handle of what it makes, and no other one. -/
theorem mem_kept_answer (hs : w.scene.Sound) {c : Call} {response : Response}
    (h : w.Replies c response w') {r : HandleRef} (hr : r ∈ w'.kept) :
    r ∈ w.kept ∨ w.Brings w' (w.target? (.call c) = none) r := by
  -- Most calls leave what is kept as it is.
  have quiet : w'.kept = w.kept → r ∈ w.kept ∨ w.Brings w' (w.target? (.call c) = none) r :=
    fun hkept => .inl (hkept ▸ hr)
  cases h with
  | send hsend =>
    exact (mem_kept_send hs hsend hr).imp_right (.imp fun hd => by rw [target?, hd]; rfl)
  | fail =>
    rename_i recipient e
    have hissues : w.Issues (w.newHandle (.settled (.error e))).2 :=
      ⟨_, rfl, by simp [Channel.settled]⟩
    refine (mem_kept_hand hr).imp_right fun hr => Brings.trails ?_ (.hand w ..)
    rw [hr]
    exact ⟨Nat.le_refl _, hissues.not_lost⟩
  | wait _ | await _ => exact .inl (mem_kept_filter hr)
  | createPool h => exact quiet (kept_congr (discreet_createPool h).names :)
  | createSystem h => exact quiet (kept_congr (names_createSystem h) :)
  | createActor h => exact quiet (kept_congr (steady_createActor h).names :)
  | createMember _ h => exact quiet (kept_congr (steady_createMember h).names :)
  | createChild _ h => exact quiet (kept_congr (steady_createChild h).names :)
  | attach _ _ h => exact quiet (kept_congr (steady_register h).names)
  | @invoke _ handle name action args s _ =>
    exact quiet (kept_congr (discreet_invokeByName s name action args w.channels.length
      (w.expecting handle)).names :)
  | cancel _ | cancelActor _ _ => exact quiet (kept_congr (discreet_cancelJobs ..).names)
  | clear _ => exact quiet (kept_congr (discreet_clear ..).names)
  | shutdown _ => exact quiet (kept_congr (discreet_stopPool ..).names)
  | shutdownNow _ => exact quiet (kept_congr (discreet_emptyPool ..).names)
  | addPool _ _ h => exact quiet (kept_congr (names_addPool h))
  | take _ => exact quiet (kept_congr (discreet_drain ..).names)
  | refuses _ | looks _ _ | get _ _ | poolAt _ _ | defaultPool _ | remove _ | close _ | terminate _
  | dropActor | dropSystem | openGate | advance => exact quiet rfl

/-! ### All acts -/

/-- **An act** makes a client keep a handle that is new, and no other one. -/
theorem mem_kept_next (hs : w.scene.Sound) {act : Act} {r : HandleRef}
    (hr : r ∈ (w.next act).kept) :
    r ∈ w.kept ∨ w.Brings (w.next act) (w.target? act = none) r := by
  cases act with
  | observe => exact .inl hr
  | call c =>
    cases hanswer : w.answer c with
    | error reason =>
      rw [next_of_unknown hanswer] at hr
      exact .inl hr
    | ok x =>
      rw [next_of_answer hanswer] at hr ⊢
      exact mem_kept_answer hs (replies_of_answer hanswer) hr
  | move m =>
    cases hstep : w.step m with
    | none =>
      rw [next_of_stuck hstep] at hr
      exact .inl hr
    | some w' =>
      rw [next_of_step hstep] at hr
      -- What a client keeps after a move it has kept before, or it is the handle of what was sent.
      cases steady_step hstep with
      | nothing hsteady =>
        rw [kept_congr hsteady.names] at hr
        exact .inl hr
      | @sends s w₁ haction hsend hsteady =>
        rw [kept_congr hsteady.names] at hr
        have htarget : w.destination s = none → w.target? (.move m) = none := fun hd => by
          simp only [target?, haction, hd, Option.map_none]
        exact (mem_kept_send hs hsend hr).imp_right fun hnew =>
          (hnew.imp htarget).trails (trails_move haction hsend)

end World

end Troupe
