import Troupe.Proofs.World.Closing
import Troupe.Proofs.World.Sending
import Troupe.Proofs.World.Steps

/-!
# Operations in progress, deed by deed

What one action does depends on the action, but not on whether it is performed on a run loop, past
the mailbox or for a client. The only difference is in closing: on the run loop of the actor that it
closes an operation does not wait.

## Main definitions

* `World.Does` — the marks of an action
* `World.Sensible` — how far a course gets

## Main results

* `World.deeds_perform`, `deeds_stepCourse` — one action, and the next move of a course
-/

namespace Troupe

namespace World

variable {w w' : World}

/-- The marks of an action. -/
def Does (w : World) (ms : List Mark) : Action → Prop
  | .send s =>
    match w.destination s with
    | none => ms = [] ∨ ∃ p owner, s.jobOwner? = some owner ∧ ms = [.submitted p owner]
    | some (a, r) => w.scene.Answers a w.channels.length r ms
  | .clear name => ms = [] ∨ ∃ a, w.actorNamed name = .ok a ∧ ms = [.cleared a]
  | _ => ∀ m ∈ ms, ∃ a, m = .shut a

/-- A course gets as far as it can: what it waits for is the run loop of another closed actor. -/
def Sensible (r : Runner) (w : World) : Progress → Prop
  | .goesOn c => ∀ wait, c.wait = some wait →
    (w.actor wait.actor).closed = true ∧ r.runLoop? ≠ some wait.actor
  | .ends _ => True

theorem does_nil (w : World) (action : Action)
    (h : ∀ s, action = .send s → w.destination s = none) :
    w.Does [] action := by
  cases action with
  | send s =>
    simp only [Does, h s rfl, true_or]
  | clear name => exact .inl rfl
  | effect _ | close _ | pending _ | alive _ | remove _ _ =>
    intro m hm
    cases hm

/-- A course that begins to close an actor. -/
theorem deeds_beginRemove (hs : w.scene.Sound) {r : Runner} {s : SystemId} {name : String}
    {rest : Course} (hrest : rest.wait = none) :
    ∃ ms, Deeds ms w.scene (w.beginRemove r s name rest).2.scene ∧ (∀ m ∈ ms, ∃ a, m = .shut a) ∧
      Sensible r (w.beginRemove r s name rest).2 (w.beginRemove r s name rest).1 ∧
      ∀ entry, (w.system s).registry.find? name = some entry →
        ((w.beginRemove r s name rest).2.actor entry.actor).closed = true := by
  rw [beginRemove]
  cases hfind : (w.system s).registry.find? name with
  | none =>
    refine ⟨[], .refl _, by simp, fun wait hwait => ?_, by simp⟩
    rw [show rest.wait = some wait from hwait] at hrest
    cases hrest
  | some entry =>
    have ha := lt_of_held hs (held_of_find? hfind)
    have hforget : Deeds [] w.scene (w.onSystem s fun system =>
        { system with registry := system.registry.erase name }).scene :=
      deeds_onSystem_forget (fun _ => List.filter_subset_self _) (fun _ => rfl) fun _ => rfl
    set w₁ := w.onSystem s fun system =>
      { system with registry := system.registry.erase name } with hw₁
    have hs₁ := hs.deeds hforget
    obtain ⟨ms, hclose, hshut, hwait⟩ := deeds_beginClose
      (w := w₁.report (.removing name (w₁.system s).name)) hs₁ ha r.runLoop? (some s)
    refine ⟨ms, hforget.after hclose, fun m hm => ⟨_, hshut m hm⟩, hwait, ?_⟩
    rintro _ ⟨⟩
    exact closed_beginClose (w := w₁.report (.removing name (w₁.system s).name)) hs₁ ha _ _

/-- A course without a wait gets as far as it can. -/
theorem sensible_of_wait {r : Runner} {c : Course} (h : c.wait = none) :
    Sensible r w (.goesOn c) := by
  intro wait hwait
  rw [h] at hwait
  cases hwait

/-- What cannot be sent is sent to nobody. -/
theorem destination_of_misses {action : Action} {message : String} (h : w.Misses action message)
    (s : Send) (hs : action = .send s) : w.destination s = none := by
  cases h with
  | send h =>
    cases hs
    exact destination_of_error h
  | close _ | clear _ | pending _ | alive _ | remove _ => cases hs

/-- **One action.** -/
theorem deeds_perform (hs : w.scene.Sound) {r : Runner} {action : Action} {rest : Course}
    {progress : Progress} (h : w.Performs r rest action progress w') (hrest : rest.wait = none) :
    ∃ ms, Deeds ms w.scene w'.scene ∧ w.Does ms action ∧ Sensible r w' progress := by
  cases h with
  | misses h => exact ⟨[], .refl _, does_nil w _ (destination_of_misses h), trivial⟩
  | effect _ =>
    exact ⟨[], .of_eq (scene_write _ _).symm, does_nil w _ (by simp), sensible_of_wait hrest⟩
  | ends _ => exact ⟨[], .refl _, does_nil w _ (by simp), trivial⟩
  | close ha =>
    obtain ⟨ms, hclose, hshut, hwait⟩ :=
      deeds_beginClose hs (lt_of_held hs (held_of_actorNamed ha)) r.runLoop? none
    exact ⟨ms, hclose, fun m hm => ⟨_, hshut m hm⟩, hwait⟩
  | clear ha =>
    exact ⟨[.cleared _], deeds_clear _ w, .inr ⟨_, ha, rfl⟩, sensible_of_wait hrest⟩
  | pending _ | alive _ =>
    exact ⟨[], .refl _, does_nil w _ (by simp), sensible_of_wait hrest⟩
  | remove _ heq =>
    obtain ⟨ms, hdeeds, hshut, hsensible, _⟩ := deeds_beginRemove hs hrest
    rw [heq] at hdeeds hsensible
    exact ⟨ms, hdeeds, hshut, hsensible⟩
  | send hsend =>
    obtain ⟨ms, hdeeds, hmarks⟩ := deeds_send hs hsend
    exact ⟨ms, hdeeds, hmarks, sensible_of_wait hrest⟩

/-- **The next move of a course.** It aborts at most what it waits for. -/
theorem deeds_stepCourse (hs : w.scene.Sound) {r : Runner} {c : Course} {progress : Progress}
    (hwait : ∀ wait, c.wait = some wait → (w.actor wait.actor).closed = true)
    (h : w.stepCourse r c = some (progress, w')) :
    ∃ ms, Deeds ms w.scene w'.scene ∧ Sensible r w' progress ∧
      match c.action? with
      | some action => w.Does ms action
      | none => ∀ m ∈ ms, ∃ wait, c.wait = some wait ∧ m = .aborted wait.actor := by
  cases advances_of_stepCourse h with
  | @waited wait hw _ =>
    obtain ⟨ms, hdeeds, hms⟩ := deeds_endWait (hwait wait hw)
    rw [Course.action?_of_wait hw]
    exact ⟨ms, hdeeds, sensible_of_wait rfl, fun m hm => ⟨wait, hw, hms m hm⟩⟩
  | returns _ hrest =>
    rw [Course.action?_of_nil hrest]
    exact ⟨[], .refl _, trivial, fun m hm => absurd hm List.not_mem_nil⟩
  | performs hw hrest hp =>
    obtain ⟨ms, hdeeds, hdoes, hsensible⟩ := deeds_perform hs hp hw
    rw [Course.action?_of_cons hw hrest]
    exact ⟨ms, hdeeds, hsensible, hdoes⟩

end World

end Troupe
