import Troupe.Proofs.World.Names
import Troupe.Proofs.World.Steadiness

/-!
# The pools of systems

Actors come to a system and leave it again, and pools only come. What a system is founded with, its
name and its default pool, stays as it is, and a pool that has once joined a system belongs to it
for good, however often it joins and whatever other systems it belongs to. The charter of a system
is this part of it. Nothing changes a charter but a pool that joins, which is a call of a client
that the system has accepted.

## Main definitions

* `World.joining` — the pool that joins a system with an act

## Main results

* `World.charters_answer` — what calls do to charters
* `World.charter_next` — what an act does to the charter of a system
* `World.pools_run` — the pools of a system are its default pool and those that have joined
-/

namespace Troupe

namespace World

variable {w w' : World} {a : ActorId} {s : SystemId}

theorem charter_eq (w : World) (s : SystemId) :
    (w.system s).charter = w.charters[s]?.getD (default : ActorSystem).charter := by
  rw [system, charters, List.getElem?_map]
  cases w.systems[s]? <;> rfl

@[simp] theorem length_charters (w : World) : w.charters.length = w.systems.length :=
  List.length_map ..

/-! ### Calls -/

theorem charters_addPool {p : PoolId} {index : Nat} (h : w.addPool s p = (.ok index, w')) :
    w'.charters = w.charters.modify s fun c => { c with pools := c.pools ++ [p] } := by
  obtain ⟨-, _, rfl⟩ := addPool_eq_ok h
  exact map_modify_eq fun _ => rfl

/-- The pool that joins a system with an act. -/
def joining (s : SystemId) (w : World) : Act → List PoolId
  | .call (.addPool system pool) =>
    match w.systemNamed system, w.poolNamed pool with
    | .ok k, .ok p => if k = s ∧ (w.addPool k p).1.isOk then [p] else []
    | _, _ => []
  | _ => []

/-- What an act does to charters: nothing, or a system is founded, or a pool joins one. -/
inductive Chartering (w : World) (act : Act) : List Charter → Prop where
  /-- Nothing changes. -/
  | same (hj : ∀ s, w.joining s act = []) : Chartering w act w.charters
  /-- A system is founded. -/
  | founds (name : String) (p : PoolId) (hj : ∀ s, w.joining s act = []) :
    Chartering w act (w.charters ++ [{ name, pools := [p], defaultPool := p }])
  /-- A pool joins a system. -/
  | joins {s : SystemId} {p : PoolId} {name : String} (hs : w.systemNamed name = .ok s)
    (hj : ∀ k, w.joining k act = if s = k then [p] else []) :
    Chartering w act (w.charters.modify s fun c => { c with pools := c.pools ++ [p] })

theorem charters_createSystem {name : String} {workers : Nat} {grace : Duration}
    {settings : ActorSettings}
    (h : w.createSystem name workers grace settings = (.ok s, w')) :
    ∃ p, w'.charters = w.charters ++ [{ name, pools := [p], defaultPool := p }] := by
  obtain ⟨p, w₁, hpool, rfl, rfl⟩ := createSystem_eq_ok h
  refine ⟨p, ?_⟩
  rw [← (discreet_createPool hpool).steady.charters]
  simp [charters, report, ActorSystem.charter]

/-- Nothing joins a system with a call that only looks. -/
theorem joining_of_looks {c : Call} (hc : c.looks = true) (s : SystemId) :
    w.joining s (.call c) = [] := by
  cases c <;> first | rfl | cases hc

theorem joining_addPool {system pool : String} {k : SystemId} {p : PoolId}
    (hs : w.systemNamed system = .ok k) (hp : w.poolNamed pool = .ok p) (s : SystemId) :
    w.joining s (.call (.addPool system pool)) =
      if k = s ∧ (w.addPool k p).1.isOk then [p] else [] := by
  simp only [joining, hs, hp]

/-- Nothing joins a system with a call that is refused. -/
theorem joining_of_refuses {c : Call} {f : Failure} (h : w.Refuses c f) (s : SystemId) :
    w.joining s (.call c) = [] := by
  cases h with
  | addPool hs hp h => simp [joining_addPool hs hp, h, Except.isOk, Except.toBool]
  | createPool _ | createSystem _ | createActor _ | createMember _ _ | createChild _ _
  | attach _ _ _ => rfl

/-- What leaves the charters as they are. -/
theorem Chartering.steady {act : Act} (hj : ∀ s, w.joining s act = [])
    (h : w'.charters = w.charters) : w.Chartering act w'.charters :=
  h ▸ .same hj

/-- **Every call** changes the charters in one of these ways. -/
theorem charters_answer {c : Call} {r : Response} (h : w.Replies c r w') :
    w.Chartering (.call c) w'.charters := by
  cases h with
  | refuses h => exact .same (joining_of_refuses h)
  | looks hc _ => exact .same (joining_of_looks hc)
  | @createSystem _ name _ _ _ _ w₁ h =>
    obtain ⟨p, hcharters⟩ := charters_createSystem h
    show w.Chartering _ w₁.charters
    rw [hcharters]
    exact .founds name p fun _ => rfl
  | addPool hs hp h =>
    rw [charters_addPool h]
    exact .joins hs fun s => by simp [joining_addPool hs hp, h, Except.isOk, Except.toBool]
  | send h => exact .steady (fun _ => rfl) (charters_congr (systems_send h))
  | createPool h => exact .steady (fun _ => rfl) (discreet_createPool h).steady.charters
  | createActor h => exact .steady (fun _ => rfl) (steady_createActor h).charters
  | createMember _ h => exact .steady (fun _ => rfl) (steady_createMember h).charters
  | createChild _ h => exact .steady (fun _ => rfl) (steady_createChild h).charters
  | attach _ _ h => exact .steady (fun _ => rfl) (steady_register h).charters
  | invoke _ => exact .steady (fun _ => rfl) (discreet_invokeByName ..).steady.charters
  | cancel _ | cancelActor _ _ =>
    exact .steady (fun _ => rfl) (discreet_cancelJobs ..).steady.charters
  | clear _ => exact .steady (fun _ => rfl) (discreet_clear ..).steady.charters
  | shutdown _ => exact .steady (fun _ => rfl) (discreet_stopPool ..).steady.charters
  | shutdownNow _ => exact .steady (fun _ => rfl) (discreet_emptyPool ..).steady.charters
  | fail => exact .steady (fun _ => rfl) (charters_congr (systems_hand ..))
  | take _ => exact .steady (fun _ => rfl) (discreet_drain ..).steady.charters
  | get _ _ | poolAt _ _ | defaultPool _ | remove _ | close _ | terminate _ | dropActor
  | dropSystem | openGate | advance | wait _ | await _ => exact .same fun _ => rfl

/-! ### All acts -/

/-- **An act** changes the charters in one of these ways. -/
theorem charters_next (w : World) (act : Act) : w.Chartering act (w.next act).charters := by
  cases act with
  | observe => exact .same fun _ => rfl
  | move m =>
    cases hstep : w.step m with
    | none =>
      rw [next_of_stuck hstep]
      exact .same fun _ => rfl
    | some w' =>
      rw [next_of_step hstep, (steady_step hstep).charters]
      exact .same fun _ => rfl
  | call c =>
    cases hanswer : w.answer c with
    | ok x =>
      rw [next_of_answer hanswer, (steady_release _).charters]
      exact charters_answer (replies_of_answer hanswer)
    | error reason =>
      rw [next_of_unknown hanswer]
      refine .same fun s => ?_
      cases c with
      | addPool system pool =>
        cases hsystem : w.systemNamed system with
        | error message => simp only [joining, hsystem]
        | ok k =>
          cases hpool : w.poolNamed pool with
          | error message => simp only [joining, hsystem, hpool]
          | ok p =>
            simp only [answer, hsystem, hpool, bind, Except.bind] at hanswer
            split at hanswer <;> cases hanswer
      | _ => rfl

/-- **What an act does to the charter of a system**: nothing, unless a pool joins. -/
theorem charter_next (act : Act) (hs : s < w.systems.length) :
    ((w.next act).system s).charter =
      { (w.system s).charter with pools := (w.system s).pools ++ w.joining s act } := by
  have hlt : s < w.charters.length := by simpa using hs
  have hget : w.charters[s]? = some (w.system s).charter := by
    rw [charter_eq, List.getElem?_eq_getElem hlt]
    rfl
  have hnext := charters_next w act
  rw [charter_eq]
  generalize (w.next act).charters = cs at hnext
  cases hnext with
  | same hj => simp [hget, hj, ActorSystem.charter]
  | founds name p hj => simp [List.getElem?_append_left hlt, hget, hj, ActorSystem.charter]
  | @joins k p name _ hj =>
    rw [List.getElem?_modify, hj]
    by_cases hk : k = s <;> simp [hget, hk, ActorSystem.charter]

/-- A system to which a pool comes is there. -/
theorem lt_of_joining (hk : w.book.Kept) {act : Act} (h : w.joining s act ≠ []) :
    s < w.systems.length := by
  have hlive : ∀ {name : String} {k : SystemId}, w.systemNamed name = .ok k →
      k < w.systems.length := by
    intro name k hsystem
    have := Book.lt_of_isLive (live_of_systemNamed hk hsystem)
    simpa [book] using this
  unfold joining at h
  split at h
  · split at h
    · rename_i hsystem _
      split at h
      · rename_i hcond
        exact hcond.1 ▸ hlive hsystem
      · exact absurd rfl h
    · exact absurd rfl h
  · exact absurd rfl h

/-- No system goes away. -/
theorem length_systems_next (w : World) (act : Act) :
    w.systems.length ≤ (w.next act).systems.length := by
  have hnext := charters_next w act
  rw [← length_charters, ← length_charters]
  generalize (w.next act).charters = cs at hnext
  cases hnext <;> simp

/-- Nothing has joined a system that is not there. -/
theorem joined_of_le (acts : List Act) (h : (run acts).systems.length ≤ s) :
    record (joining s) acts = [] := by
  induction acts using List.reverseRecOn with
  | nil => rfl
  | append_singleton acts act ih =>
    rw [run_concat] at h
    have hle := Nat.le_trans (length_systems_next _ act) h
    rw [record_concat, ih hle, List.nil_append]
    by_contra hne
    exact Nat.not_lt_of_le hle (lt_of_joining (kept_run acts) hne)

/-- **The pools of a system** are its default pool and those that have joined it, in order. -/
theorem pools_run (acts : List Act) : ∀ c ∈ (run acts).charters[s]?,
    c.pools = c.defaultPool :: record (joining s) acts := by
  induction acts using List.reverseRecOn with
  | nil => simp [run, charters]
  | append_singleton acts act ih =>
    intro c hc
    have hnext := charters_next (run acts) act
    rw [run_concat] at hc
    rw [record_concat]
    rw [Option.mem_def] at hc
    generalize ((run acts).next act).charters = cs at hnext hc
    cases hnext with
    | same hj => rw [hj, List.append_nil, ih c hc]
    | founds name p hj =>
      rw [hj, List.append_nil]
      rcases Nat.lt_or_ge s (run acts).charters.length with hlt | hge
      · rw [List.getElem?_append_left hlt] at hc
        exact ih c hc
      · rw [joined_of_le acts (by simpa using hge)]
        rw [List.getElem?_append_right hge] at hc
        obtain ⟨-, rfl⟩ : s - (run acts).charters.length = 0 ∧ _ = c := by
          simpa [List.getElem?_singleton] using hc
        rfl
    | @joins k p name _ hj =>
      rw [List.getElem?_modify] at hc
      obtain ⟨c', hc', rfl⟩ := Option.map_eq_some_iff.mp hc
      have hold := ih c' hc'
      rw [hj]
      split
      · simp [hold]
      · simpa using hold

end World

end Troupe
