import Troupe.Proofs.World.Calls
import Troupe.Proofs.World.Handles

/-!
# The ordered path

What goes through the mailbox of an actor, ordered operations and the relays of offloaded ones, is
run one after another in the order in which it was accepted. A run is looked at from outside, act by
act: what an act has accepted, what the run loop was inside of before and is inside of after it, and
what waited before it and does so no longer. This leaves it to the proof that nothing else takes
part: neither what an operation sends, clears or closes, its own actor included, nor what others do
at the same time.

The step is one equation between the two ends of the mailbox. What is started, with what waits
afterwards, is what was kept of the mailbox, with what was accepted; and whatever was not kept has a
reason.

## Main definitions

* `World.accepted`, `World.started`, `World.ended`, `World.dropped` — what has happened in a run
* `World.DropReason` — why something that waited does not wait any more
* `World.Shift` — what an act does to the mailbox of an actor

## Main results

* `World.shift_next` — whatever happens does one of three things to the mailbox
* `World.ordered_path` — order, one at a time, and what was skipped
-/

namespace Troupe

namespace World

/-! ### What is seen from outside -/

/-- The handle of what the run loop of an actor is inside of. -/
def running? (w : World) (a : ActorId) : Option HandleId :=
  match (w.actor a).loop with
  | .inside i => some i.handle
  | _ => none

/-- The handles of what waits for an actor, the next one first. -/
def queued (w : World) (a : ActorId) : List HandleId :=
  (w.actor a).mailbox.queue.map Envelope.handle

/-- What the run loop of an actor has begun with in an act. -/
def starts (a : ActorId) (w : World) (act : Act) : List HandleId :=
  if (w.next act).running? a = w.running? a then [] else ((w.next act).running? a).toList

/-- What the run loop of an actor has come out of in an act. -/
def ends (a : ActorId) (w : World) (act : Act) : List HandleId :=
  if (w.next act).running? a = w.running? a then [] else (w.running? a).toList

/-- What has left the mailbox of an actor in an act without being started. -/
def drops (a : ActorId) (w : World) (act : Act) : List HandleId :=
  (w.queued a).filter fun h => h ∉ w.starts a act ++ (w.next act).queued a

end World

/-- Whether a sending was accepted into the mailbox of an actor. -/
def Sending.joins (a : ActorId) (x : Sending) : Bool :=
  x.actor == a && x.route != .bypass && x.answer.isNone

namespace World

/-- What an act has brought into the mailbox of an actor. -/
def accepts (a : ActorId) (w : World) (act : Act) : List HandleId :=
  ((w.sending act).toList.filter (·.joins a)).map (·.handle)

/-- What was accepted into the mailbox of an actor in a run, in order. -/
def accepted (a : ActorId) (acts : List Act) : List HandleId :=
  ((sendings acts).filter (·.joins a)).map (·.handle)

/-- What the run loop of an actor has begun with in a run, in order. -/
def started (a : ActorId) (acts : List Act) : List HandleId := record (starts a) acts

/-- What the run loop of an actor has come out of in a run, in order. -/
def ended (a : ActorId) (acts : List Act) : List HandleId := record (ends a) acts

/-- What has left the mailbox of an actor in a run without being started. -/
def dropped (a : ActorId) (acts : List Act) : List HandleId := record (drops a) acts

/-- Why something that waited for an actor was dropped in an act. -/
inductive DropReason (a : ActorId) (w : World) (act : Act) (h : HandleId) : Prop where
  /-- The actor was cleared, and it is an ordered operation. -/
  | cleared {e : Envelope} (hact : w.Clears act a) (he : e ∈ (w.actor a).mailbox.queue)
    (hh : e.handle = h) (hrelay : e.isRelay = false)
  /-- The actor was closed. -/
  | closed (hopen : (w.actor a).closed = false) (hclosed : ((w.next act).actor a).closed = true)
  /-- Nobody held the actor any more, and its run loop ended by itself. -/
  | letGo (hact : act = .move (.runLoop a)) (hstop : (w.actor a).stopping = true)
    (hopen : (w.actor a).closed = false) (hheld : w.holdsActor a = false)

/-! ### One act -/

/-- What an act does to the mailbox of an actor. -/
inductive Shift (a : ActorId) (w : World) (act : Act) : Prop where
  /-- An envelope joins. -/
  | joins {h : HandleId} (hstarts : w.starts a act = []) (haccepts : w.accepts a act = [h])
    (hqueued : (w.next act).queued a = w.queued a ++ [h]) (hnew : w.channels.length ≤ h)
  /-- The run loop begins with the next envelope. -/
  | enters {h : HandleId} (hact : act = .move (.runLoop a)) (hidle : w.running? a = none)
    (hstarts : w.starts a act = [h]) (haccepts : w.accepts a act = [])
    (hqueued : w.queued a = h :: (w.next act).queued a)
  /-- Some envelopes are dropped, all others stay. -/
  | keeps (hstarts : w.starts a act = []) (haccepts : w.accepts a act = [])
    (hqueued : ((w.next act).queued a).Sublist (w.queued a))
    (hdropped : ∀ h ∈ w.queued a, h ∉ (w.next act).queued a →
      DropReason a w act h ∧ ((w.next act).channel h).content = .lost)

variable {w : World} {a : ActorId} {act : Act}

theorem running?_eq_some {k : HandleId} :
    w.running? a = some k ↔ ∃ i, (w.actor a).loop = .inside i ∧ i.handle = k := by
  rw [running?]
  split
  · rename_i i hloop
    simp [hloop]
  · rename_i hloop
    exact ⟨fun h => by simp at h, fun ⟨i, hi, _⟩ => absurd hi (hloop i)⟩

theorem toList_running? (w : World) (a : ActorId) :
    (w.running? a).toList = (w.scene.lane a).current := by
  rw [lane_scene]
  rw [running?, Lane.current]
  show _ = match (w.actor a).loop with
    | .inside i => [i.handle]
    | _ => []
  cases (w.actor a).loop <;> rfl

theorem queued_eq (w : World) (a : ActorId) : w.queued a = (w.scene.lane a).waiting := by
  rw [lane_scene]
  rfl

theorem handle_mem_waiting {e : Envelope} (h : e ∈ (w.actor a).mailbox.queue) :
    e.handle ∈ (w.scene.lane a).waiting := by
  rw [← queued_eq]
  exact List.mem_map_of_mem h

theorem starts_eq_nil (h : ((w.next act).scene.lane a).current = (w.scene.lane a).current ∨
    ((w.next act).scene.lane a).current = []) : w.starts a act = [] := by
  rw [starts]
  rw [← toList_running?, ← toList_running?] at h
  split
  · rfl
  · rename_i hne
    refine h.elim (fun h => absurd ?_ hne) id
    cases hold : w.running? a <;> cases hnew : (w.next act).running? a <;> simp_all

theorem accepts_of_quiet (h : w.target? act = none) : w.accepts a act = [] := by
  simp [accepts, sending, h]

theorem outcome?_eq_none_iff {h : HandleId} : w.outcome? h = none ↔ w.scene.content h = .empty := by
  rw [content_scene, outcome?, Channel.peek]
  cases (w.channel h).content <;> simp

/-- What is sent through the mailbox is accepted if its handle is not resolved at once. -/
theorem accepts_of_empty {h : HandleId} {r : Route} (ht : w.target? act = some (a, h, r))
    (hr : r ≠ .bypass) (he : (w.next act).scene.content h = .empty) : w.accepts a act = [h] := by
  simp [accepts, sending, ht, Sending.joins, hr, outcome?_eq_none_iff.mpr he]

theorem accepts_of_ne {b : ActorId} {h : HandleId} {r : Route} (ht : w.target? act = some (b, h, r))
    (hne : b ≠ a ∨ r = .bypass ∨ (w.next act).scene.content h ≠ .empty) : w.accepts a act = [] := by
  rcases hne with hne | rfl | hne
  · simp [accepts, sending, ht, Sending.joins, hne]
  · simp [accepts, sending, ht, Sending.joins]
  · have hsome := mt outcome?_eq_none_iff.mp hne
    simp [accepts, sending, ht, Sending.joins, hsome]

/-- What a mover leaves on itself tells nothing about mailboxes. -/
theorem Follows.cases {ns : List Mark} (h : w.Follows act ns) :
    ∀ m ∈ ns, (∃ b, m = .turned b) ∨ (∃ t, m = .stepped t) ∨ ∃ p, m = .worked p := by
  intro m hm
  cases act with
  | call c | observe =>
    rw [show ns = [] from h] at hm
    cases hm
  | move mover =>
    cases mover with
    | runLoop b => exact .inl ⟨b, h.1 m hm⟩
    | task t | grace t => exact .inr (.inl ⟨t, h m hm⟩)
    | worker p place => exact .inr (.inr ⟨p, h m hm⟩)

theorem Follows.not_mem {ns : List Mark} (h : w.Follows act ns) {m : Mark}
    (hm : (∀ b, m ≠ .turned b) ∧ (∀ t, m ≠ .stepped t) ∧ ∀ p, m ≠ .worked p) : m ∉ ns := by
  intro hmem
  rcases h.cases m hmem with ⟨b, hb⟩ | ⟨t, ht⟩ | ⟨p, hp⟩
  · exact hm.1 b hb
  · exact hm.2.1 t ht
  · exact hm.2.2 p hp

theorem Follows.onQueue {ns : List Mark} (h : w.Follows act ns) (queue : List Envelope) :
    ns.foldl (Mark.onQueue a) queue = queue := by
  have hcases := h.cases
  clear h
  induction ns generalizing queue with
  | nil => rfl
  | cons m ns ih =>
    have hm : Mark.onQueue a queue m = queue := by
      rcases hcases m List.mem_cons_self with ⟨b, rfl⟩ | ⟨t, rfl⟩ | ⟨p, rfl⟩ <;> rfl
    rw [List.foldl_cons, hm, ih queue fun m hm => hcases m (List.mem_cons_of_mem _ hm)]

/-- The marks of closes and aborts empty a mailbox or leave it alone. -/
theorem onQueue_of_closes {ms : List Mark} (h : ∀ m ∈ ms, (∃ b, m = .shut b) ∨ ∃ b, m = .aborted b)
    (queue : List Envelope) : ms.foldl (Mark.onQueue a) queue = queue ∨
      .shut a ∈ ms ∧ ms.foldl (Mark.onQueue a) queue = [] := by
  induction ms generalizing queue with
  | nil => exact .inl rfl
  | cons m ms ih =>
    have ih := ih fun m hm => h m (List.mem_cons_of_mem _ hm)
    rw [List.foldl_cons]
    by_cases hm : m = .shut a
    · subst hm
      have hnil : Mark.onQueue a queue (.shut a) = [] := by simp [Mark.onQueue]
      rw [hnil]
      exact .inr ⟨List.mem_cons_self, (ih []).elim id (·.2)⟩
    · have hsame : Mark.onQueue a queue m = queue := by
        rcases h m List.mem_cons_self with ⟨b, rfl⟩ | ⟨b, rfl⟩
        · exact if_neg fun hb => hm (by rw [hb])
        · rfl
      rw [hsame]
      exact (ih queue).imp_right (.imp_left (List.mem_cons_of_mem _))

/-- What is admitted joins the mailbox. -/
theorem onQueue_ofAdmission (b : ActorId) (owner : String) (e : Envelope) (queue : List Envelope) :
    (Mark.ofAdmission b owner e).foldl (Mark.onQueue a) queue =
      if b = a then queue ++ [e] else queue := by
  cases e <;> rfl

/-- The mailbox after an act is what the marks on others make of it. -/
theorem Follows.queue_eq {ms ns : List Mark} {t : Scene} (hns : w.Follows act ns)
    (d : Deeds (ms ++ ns) w.scene t) (a : ActorId) :
    (t.lane a).queue = ms.foldl (Mark.onQueue a) (w.scene.lane a).queue := by
  rw [d.queue_eq, List.foldl_append, hns.onQueue]

/-- What was refused is resolved, and nothing else has happened to it. -/
theorem Follows.full_of_settled {ns : List Mark} {t : Scene} {h : HandleId}
    {o : Except ActorError Json} (hns : w.Follows act ns)
    (d : Deeds ([.settled h o] ++ ns) w.scene t) : t.content h = .full o :=
  d.full_of_settled (fun hm => (List.mem_append.mp hm).elim (by simp) (hns.not_mem (by simp)))
    (by simp)

section

variable (hs : w.scene.Sound) {ms ns : List Mark}
  (d : Deeds (ms ++ ns) w.scene (w.next act).scene) (hns : w.Follows act ns)

include hs d hns

/-- If no envelope is entered, nothing is started, and what is dropped is lost. -/
theorem Shift.of_sublist (hne : ∀ e, .entered a e ∉ ms) (haccepts : w.accepts a act = [])
    (hsub : (((w.next act).scene.lane a).queue).Sublist (w.scene.lane a).queue)
    (hreason : ∀ e ∈ (w.scene.lane a).queue, e ∉ ((w.next act).scene.lane a).queue →
      DropReason a w act e.handle) : Shift a w act := by
  have hne' : ∀ e, .entered a e ∉ ms ++ ns := fun e he =>
    (List.mem_append.mp he).elim (hne e) (hns.not_mem (by simp))
  refine .keeps (starts_eq_nil (d.current_eq hne')) haccepts ?_ fun h hh hnot => ?_
  · rw [queued_eq, queued_eq]
    exact hsub.map _
  · rw [queued_eq] at hh hnot
    obtain ⟨e, he, rfl⟩ := List.mem_map.mp hh
    refine ⟨hreason e he fun hmem => hnot (List.mem_map_of_mem hmem), ?_⟩
    rw [← content_scene]
    exact (d.lost_of_dropped hs hne' he).resolve_left fun hmem => hnot (List.mem_map_of_mem hmem)

/-- A mailbox that stays as it is. -/
theorem Shift.of_queue_eq (hne : ∀ e, .entered a e ∉ ms) (haccepts : w.accepts a act = [])
    (hsame : ((w.next act).scene.lane a).queue = (w.scene.lane a).queue) : Shift a w act := by
  refine .of_sublist hs d hns hne haccepts (hsame ▸ List.Sublist.refl _) fun e he hnot => ?_
  rw [hsame] at hnot
  exact absurd he hnot

/-- What is sent to an actor joins its mailbox, or does not reach it. -/
theorem Shift.of_answers {b : ActorId} {h : HandleId} {r : Route}
    (ht : w.target? act = some (b, h, r)) (hms : w.scene.Answers b h r ms) : Shift a w act := by
  have hqueue := hns.queue_eq d a
  cases hms with
  | refused =>
    refine .of_queue_eq hs d hns (by simp) (accepts_of_ne ht (.inr (.inr ?_))) hqueue
    simp [hns.full_of_settled d]
  | past hr _ => exact .of_queue_eq hs d hns (by simp) (accepts_of_ne ht (.inr (.inl hr))) hqueue
  | admitted he hr _ =>
    rename_i e _
    rw [onQueue_ofAdmission] at hqueue
    have hne : ∀ e', .entered a e' ∉ Mark.ofAdmission b (w.scene.lane b).owner e := by
      simp [Mark.mem_ofAdmission]
    by_cases hb : b = a
    · subst hb
      have hjoined : ((w.next act).scene.lane b).queue = (w.scene.lane b).queue ++ [e] := by
        rw [hqueue]
        exact if_pos rfl
      have hempty : (w.next act).scene.content h = .empty := by
        refine (hs.deeds d).content_of_handles (a := b) (List.mem_append_right _ ?_)
        rw [Lane.waiting, hjoined]
        simp [he]
      have hroute : r ≠ .bypass := by
        rw [← hr]
        cases e <;> simp [Envelope.route]
      have hne' : ∀ e', .entered b e' ∉ Mark.ofAdmission b (w.scene.lane b).owner e ++ ns :=
        fun e' he => (List.mem_append.mp he).elim (hne e') (hns.not_mem (by simp))
      refine .joins (starts_eq_nil (d.current_eq hne')) (accepts_of_empty ht hroute hempty) ?_
        (of_target? ht).2
      rw [queued_eq, queued_eq, Lane.waiting, Lane.waiting, hjoined]
      simp [he]
    · exact .of_queue_eq hs d hns hne (accepts_of_ne ht (.inl hb)) (hqueue.trans (if_neg hb))

/-- A clear drops the waiting operations of one actor. -/
theorem Shift.of_cleared {b : ActorId} (hms : ms = [.cleared b]) (ht : w.target? act = none)
    (hclears : w.Clears act b) : Shift a w act := by
  subst hms
  have hqueue := hns.queue_eq d a
  by_cases hb : b = a
  · subst hb
    have hkept : ((w.next act).scene.lane b).queue =
        (w.scene.lane b).queue.filter (·.isRelay) := by
      rw [hqueue]
      exact if_pos rfl
    refine .of_sublist hs d hns (by simp) (accepts_of_quiet ht) (hkept ▸ List.filter_sublist)
      fun e he hnot => ?_
    have hrelay : e.isRelay = false := by
      by_contra hrelay
      rw [hkept] at hnot
      exact hnot (List.mem_filter.mpr ⟨he, by simpa using hrelay⟩)
    rw [lane_scene] at he
    exact .cleared hclears he rfl hrelay
  · exact .of_queue_eq hs d hns (by simp) (accepts_of_quiet ht) (hqueue.trans (if_neg hb))

/-- A close empties the mailboxes of the actors that it closes. -/
theorem Shift.of_closes (ht : w.target? act = none)
    (hms : ∀ m ∈ ms, (∃ a, m = .shut a) ∨ ∃ a, m = .aborted a) : Shift a w act := by
  have hqueue := hns.queue_eq d a
  have hne : ∀ e, .entered a e ∉ ms := by
    intro e he
    rcases hms _ he with ⟨b, hb⟩ | ⟨b, hb⟩ <;> cases hb
  rcases onQueue_of_closes (a := a) hms (w.scene.lane a).queue with hsame | ⟨hshut, hnil⟩
  · exact .of_queue_eq hs d hns hne (accepts_of_quiet ht) (hqueue.trans hsame)
  · refine .of_sublist hs d hns hne (accepts_of_quiet ht) ?_ fun e he _ => ?_
    · rw [hqueue, hnil]
      exact List.nil_sublist _
    · obtain ⟨hopen, hclosed⟩ := d.opened_of_shut (List.mem_append_left _ hshut)
      rw [lane_scene] at hopen
      rw [lane_scene] at hclosed
      exact .closed hopen hclosed

/-- A run loop that ends by itself leaves an empty mailbox, and nobody holds its actor. -/
theorem Shift.of_quit {b : ActorId} (hms : ms = [.quit b]) (ht : w.target? act = none)
    (hact : act = .move (.runLoop b)) (hstop : (w.scene.lane b).stopping = true) :
    Shift a w act := by
  subst hms
  have hqueue := hns.queue_eq d a
  by_cases hb : b = a
  · subst hb
    have hnil : ((w.next act).scene.lane b).queue = [] := by
      rw [hqueue]
      exact if_pos rfl
    refine .of_sublist hs d hns (by simp) (accepts_of_quiet ht) (hnil ▸ List.nil_sublist _)
      fun e he _ => ?_
    -- Something waited, so the actor was not closed; hence it was told to stop for lack of holders.
    have hopen : (w.scene.lane b).closed = false := by
      by_contra hclosed
      rw [hs.emptied b (by simpa using hclosed)] at he
      cases he
    have hheld := hs.letGo b hstop hopen
    rw [holds_scene_iff] at hheld
    rw [lane_scene] at hstop hopen
    exact .letGo hact hstop hopen (by simpa using hheld)
  · exact .of_queue_eq hs d hns (by simp) (accepts_of_quiet ht) (hqueue.trans (if_neg hb))

/-- A run loop begins with the first of what waits. -/
theorem Shift.of_entered {b : ActorId} {e : Envelope} {queue : List Envelope}
    (hms : ms = [.entered b e]) (ht : w.target? act = none) (hact : act = .move (.runLoop b))
    (hloop : (w.scene.lane b).loop = .idle) (hnext : (w.scene.lane b).queue = e :: queue) :
    Shift a w act := by
  subst hms
  have hqueue := hns.queue_eq d a
  by_cases hb : b = a
  · subst hb
    obtain rfl : ns = [] := by
      subst hact
      refine hns.2 ?_
      rw [lane_scene] at hloop
      exact hloop
    have hidle : w.running? b = none := by
      have := toList_running? w b
      rwa [Lane.current, hloop, Option.toList_eq_nil_iff] at this
    have hinside : (w.next act).running? b = some e.handle := by
      have := toList_running? (w.next act) b
      rwa [d.current_of_entered rfl, Option.toList_eq_singleton_iff] at this
    refine .enters (h := e.handle) hact hidle ?_ (accepts_of_quiet ht) ?_
    · rw [starts, hidle, hinside]
      rfl
    · rw [queued_eq, queued_eq, Lane.waiting, Lane.waiting, hqueue, hnext]
      simp [Mark.onQueue]
  · refine .of_queue_eq hs d hns (fun e' he => hb ?_) (accepts_of_quiet ht)
      (hqueue.trans (if_neg hb))
    simp only [List.mem_singleton, Mark.entered.injEq] at he
    exact he.1.symm

end

/-- **One act** does one of three things to the mailbox of an actor. -/
theorem shift_next (hs : w.scene.Sound) (a : ActorId) (act : Act) : Shift a w act := by
  obtain ⟨ms, ns, d, hms, hns⟩ := deeds_next hs act
  cases hms with
  | sends ht hms => exact .of_answers hs d hns ht hms
  | enters ht hact hloop _ hnext => exact .of_entered hs d hns rfl ht hact hloop hnext
  | quits ht hact _ hstop => exact .of_quit hs d hns rfl ht hact hstop
  | clears ht h => exact .of_cleared hs d hns rfl ht h
  | closes ht hms =>
    refine .of_closes hs d hns ht fun m hm => ?_
    obtain ⟨_, _, hm⟩ := hms m hm
    exact hm.cases
  | takes ht _ _ =>
    exact .of_queue_eq hs d hns (by simp) (accepts_of_quiet ht)
      ((hns.queue_eq d a).trans (Mark.onQueue_ofTake _ _))
  | submits ht _ | fails ht =>
    exact .of_queue_eq hs d hns (by simp) (accepts_of_quiet ht) (hns.queue_eq d a)

theorem nodup_queued (hs : w.scene.Sound) (a : ActorId) : (w.queued a).Nodup := by
  rw [queued_eq]
  exact ((hs.sorted a).sublist (List.sublist_append_right _ _)).imp Nat.ne_of_lt

theorem eq_of_waiting (hs : w.scene.Sound) {e e' : Envelope}
    (he : e ∈ (w.actor a).mailbox.queue) (he' : e' ∈ (w.actor a).mailbox.queue)
    (heq : e.handle = e'.handle) : e = e' :=
  List.inj_on_of_nodup_map (nodup_queued hs a) he he' heq

/-- What a run loop is inside of was sent before everything that waits. -/
theorem lt_of_waiting (hs : w.scene.Sound) {i : Inside} (hloop : (w.actor a).loop = .inside i)
    {k : HandleId} (hk : k ∈ w.queued a) : i.handle < k := by
  have hsorted := hs.sorted a
  rw [Lane.handles, ← queued_eq, lane_scene, Lane.current_of_inside hloop] at hsorted
  exact List.rel_of_pairwise_cons hsorted hk

/-- What is left of a list, and what is not. -/
theorem perm_of_sublist {l kept : List HandleId} (hn : l.Nodup) (h : kept.Sublist l) :
    l.Perm (kept ++ l.filter (· ∉ kept)) := by
  have hkept : (l.filter (· ∈ kept)).Perm kept := by
    refine (List.perm_ext_iff_of_nodup (hn.filter _) (hn.sublist h)).mpr fun x => ?_
    simpa using fun hx => h.subset hx
  have hsplit := List.filter_append_perm (fun x => decide (x ∈ kept)) l
  simp only [← decide_not] at hsplit
  exact hsplit.symm.trans (hkept.append_right _)

/-- **The two ends of a mailbox.** What is started, with what waits afterwards, is what was kept,
with what was accepted. -/
theorem Shift.ends_eq (h : Shift a w act) (hn : (w.queued a).Nodup) :
    ∃ kept : List HandleId, kept.Sublist (w.queued a) ∧
      w.starts a act ++ (w.next act).queued a = kept ++ w.accepts a act ∧
      (w.queued a).Perm (kept ++ w.drops a act) := by
  cases h with
  | joins hstarts haccepts hqueued hnew =>
    refine ⟨w.queued a, List.Sublist.refl _, by rw [hstarts, haccepts, hqueued]; rfl, ?_⟩
    have hnone : w.drops a act = [] := by
      refine List.filter_eq_nil_iff.mpr fun x hx => ?_
      simp [hqueued, hx]
    rw [hnone, List.append_nil]
  | enters hact hidle hstarts haccepts hqueued =>
    refine ⟨w.queued a, List.Sublist.refl _, by rw [hstarts, haccepts, hqueued]; simp, ?_⟩
    have hnone : w.drops a act = [] := by
      refine List.filter_eq_nil_iff.mpr fun x hx => ?_
      rw [hqueued] at hx
      simpa [hstarts] using (List.mem_cons.mp hx).resolve_left
    rw [hnone, List.append_nil]
  | keeps hstarts haccepts hqueued hdropped =>
    refine ⟨(w.next act).queued a, hqueued, by rw [hstarts, haccepts]; simp, ?_⟩
    have := perm_of_sublist hn hqueued
    rwa [drops, hstarts]

/-- What is dropped has a reason, and is lost. -/
theorem Shift.of_drops (h : Shift a w act) {k : HandleId} (hk : k ∈ w.drops a act) :
    DropReason a w act k ∧ ((w.next act).channel k).content = .lost := by
  obtain ⟨hqueued, hnot⟩ := List.mem_filter.mp hk
  simp only [List.mem_append, decide_eq_true_eq, not_or] at hnot
  cases h with
  | joins _ _ hjoined _ =>
    rw [hjoined] at hnot
    exact absurd (List.mem_append_left _ hqueued) hnot.2
  | enters _ _ hstarts _ hentered =>
    rw [hstarts] at hnot
    rw [hentered] at hqueued
    exact ((List.mem_cons.mp hqueued).elim (fun h => hnot.1 (by simp [h])) hnot.2).elim
  | keeps _ _ _ hdropped => exact hdropped k hqueued hnot.2

/-- What is accepted has a new handle. -/
theorem Shift.le_of_accepts (h : Shift a w act) :
    w.accepts a act = [] ∨ ∃ k, w.accepts a act = [k] ∧ w.channels.length ≤ k ∧
      k ∈ (w.next act).queued a := by
  cases h with
  | joins _ haccepts hqueued hnew => exact .inr ⟨_, haccepts, hnew, by simp [hqueued]⟩
  | enters _ _ _ haccepts _ | keeps _ haccepts _ _ => exact .inl haccepts

/-- What the run loop has come out of is resolved. -/
theorem content_of_ends (hs : w.scene.Sound) {h : HandleId} (hh : h ∈ w.ends a act) :
    (w.next act).scene.content h ≠ .empty := by
  intro hempty
  obtain ⟨ms, ns, d, _⟩ := deeds_next hs act
  rw [ends] at hh
  split at hh
  · cases hh
  · rename_i hne
    have hcurrent : h ∈ (w.scene.lane a).current := by rwa [← toList_running?]
    have hlt := hs.lt_of_handles (List.mem_append_left _ hcurrent)
    -- It would have to wait again, but what waits has waited before or is new.
    have houtside : w.starts a act = [] → h ∉ (w.next act).queued a → False := by
      intro hstarts hnot
      rw [starts, if_neg hne, toList_running?] at hstarts
      have := d.mem_handles hlt (List.mem_append_left _ hcurrent) hempty
      rw [Lane.handles, hstarts, List.nil_append, ← queued_eq] at this
      exact hnot this
    have hnot : h ∉ w.queued a := by
      intro hmem
      rw [queued_eq] at hmem
      exact Nat.lt_irrefl h ((List.pairwise_append.mp (hs.sorted a)).2.2 h hcurrent h hmem)
    cases shift_next hs a act with
    | joins hstarts _ hqueued hnew =>
      refine houtside hstarts fun hmem => ?_
      rw [hqueued] at hmem
      refine (List.mem_append.mp hmem).elim hnot fun hmem => ?_
      rw [List.mem_singleton.mp hmem, length_contents_scene] at hlt
      exact Nat.not_lt_of_le hnew hlt
    | enters _ hidle _ _ _ => simp [hidle] at hh
    | keeps hstarts _ hqueued _ => exact houtside hstarts fun hmem => hnot (hqueued.subset hmem)

/-! ### Runs -/

/-- What is known of a run while it goes on. -/
structure Log (a : ActorId) (acts : List Act) : Prop where
  /-- Handles are accepted in the order in which they are made. -/
  increasing : (accepted a acts).Pairwise (· < ·)
  /-- What was accepted has been made. -/
  made : ∀ h ∈ accepted a acts, h < (run acts).channels.length
  /-- What was started, and then what waits, are in the order of acceptance. -/
  order : (started a acts ++ (run acts).queued a).Sublist (accepted a acts)
  /-- What was accepted was started, waits, or was dropped. -/
  places : (accepted a acts).Perm (started a acts ++ (run acts).queued a ++ dropped a acts)
  /-- What was started has ended, but for what the run loop is inside of. -/
  current : started a acts = ended a acts ++ ((run acts).running? a).toList
  /-- What has ended is resolved. -/
  resolved : ∀ h ∈ ended a acts, (run acts).scene.content h ≠ .empty
  /-- What was dropped is lost. -/
  lost : ∀ h ∈ dropped a acts, (run acts).scene.content h = .lost

theorem accepted_concat (a : ActorId) (acts : List Act) (act : Act) :
    accepted a (acts ++ [act]) = accepted a acts ++ (run acts).accepts a act := by
  rw [accepted, sendings_concat, List.filter_append, List.map_append]
  rfl

theorem accepted_isPrefix (a : ActorId) (acts later : List Act) :
    accepted a acts <+: accepted a (acts ++ later) :=
  ((record_isPrefix _ acts later).filter _).map _

theorem Log.next {acts : List Act} (h : Log a acts) (act : Act) : Log a (acts ++ [act]) := by
  have hs := sound_run acts
  obtain ⟨ms, ns, d, _⟩ := deeds_next hs act
  have hgrows := Scene.Grows.of_deeds d
  have hs' := sound_next hs act
  have hshift := shift_next hs a act
  obtain ⟨kept, hkept, hends, hperm⟩ := hshift.ends_eq (nodup_queued hs a)
  have hmade : ∀ k ∈ accepted a acts, k < (run acts).scene.contents.length := fun k hk => by
    simpa using h.made k hk
  have hgone : ∀ k ∈ dropped a acts, k ∈ accepted a acts := fun k hk =>
    h.places.mem_iff.mpr (List.mem_append_right _ hk)
  have hover : ∀ k ∈ ended a acts, k ∈ accepted a acts := fun k hk => by
    refine h.places.mem_iff.mpr (List.mem_append_left _ (List.mem_append_left _ ?_))
    rw [h.current]
    exact List.mem_append_left _ hk
  refine ⟨?_, ?_, ?_, ?_, ?_, ?_, ?_⟩
  · rw [accepted_concat]
    rcases hshift.le_of_accepts with hnone | ⟨k, hk, hnew, _⟩
    · rw [hnone, List.append_nil]
      exact h.increasing
    · rw [hk, List.pairwise_append]
      refine ⟨h.increasing, List.pairwise_singleton _ _, fun x hx y hy => ?_⟩
      rw [List.mem_singleton.mp hy]
      exact Nat.lt_of_lt_of_le (h.made x hx) hnew
  · intro k hk
    rw [run_concat, ← length_contents_scene]
    rw [accepted_concat] at hk
    rcases List.mem_append.mp hk with hk | hk
    · exact Nat.lt_of_lt_of_le (hmade k hk) hgrows.contents
    · rcases hshift.le_of_accepts with hnone | ⟨k', hk', _, hmem⟩
      · rw [hnone] at hk
        cases hk
      · rw [hk', List.mem_singleton] at hk
        subst hk
        rw [queued_eq] at hmem
        exact hs'.lt_of_handles (List.mem_append_right _ hmem)
  · rw [accepted_concat, started, record_concat, run_concat, List.append_assoc, hends,
      ← List.append_assoc]
    exact ((hkept.append_left _).trans h.order).append_right _
  · rw [accepted_concat, started, dropped, record_concat, record_concat, run_concat]
    refine List.perm_iff_count.mpr fun k => ?_
    have hplaces := h.places.count_eq k
    have hperm := hperm.count_eq k
    have hends := congrArg (List.count k) hends
    simp only [List.count_append, started, dropped] at hplaces hperm hends ⊢
    omega
  · rw [started, ended, record_concat, record_concat, run_concat, ← started, ← ended, h.current,
      List.append_assoc, List.append_assoc]
    congr 1
    rw [starts, ends]
    split
    · rename_i hsame
      rw [hsame, List.append_nil, List.nil_append]
    · rfl
  · intro k hk
    rw [run_concat]
    rw [ended, record_concat] at hk
    rcases List.mem_append.mp hk with hk | hk
    · exact hgrows.resolved k (hmade k (hover k hk)) (h.resolved k hk)
    · exact content_of_ends hs hk
  · intro k hk
    rw [run_concat]
    rw [dropped, record_concat] at hk
    rcases List.mem_append.mp hk with hk | hk
    · exact hgrows.lost k (hmade k (hgone k hk)) (h.lost k hk)
    · rw [content_scene]
      exact (hshift.of_drops hk).2

theorem log_run (a : ActorId) (acts : List Act) : Log a acts := by
  induction acts using List.reverseRecOn with
  | nil => exact ⟨.nil, by simp [accepted, sendings, record], List.nil_sublist _, .nil, rfl,
      by simp [ended, record], by simp [dropped, record]⟩
  | append_singleton acts act ih => exact ih.next act

/-- What was started and is not resolved is what the run loop is inside of. -/
theorem Log.running {acts : List Act} (h : Log a acts) {k : HandleId} (hk : k ∈ started a acts)
    (he : (run acts).scene.content k = .empty) : (run acts).running? a = some k := by
  rw [h.current] at hk
  rcases List.mem_append.mp hk with hk | hk
  · exact absurd he (h.resolved k hk)
  · exact Option.mem_toList.mp hk

/-- **What was accepted and is not resolved** is what the run loop is inside of, or it waits. -/
theorem Log.pending {acts : List Act} (h : Log a acts) {k : HandleId} (hk : k ∈ accepted a acts)
    (he : (run acts).scene.content k = .empty) :
    (run acts).running? a = some k ∨ k ∈ (run acts).queued a := by
  rcases List.mem_append.mp (h.places.mem_iff.mp hk) with hk | hk
  · exact (List.mem_append.mp hk).imp_left (h.running · he)
  · rw [h.lost k hk] at he
    cases he

/-- **A run loop stays inside of an envelope** until that is resolved. -/
theorem running_run (acts later : List Act) {k : HandleId} (hk : (run acts).running? a = some k)
    (he : (run (acts ++ later)).scene.content k = .empty) :
    (run (acts ++ later)).running? a = some k := by
  refine (log_run a _).running ((record_isPrefix _ acts later).subset ?_) he
  have hstarted : k ∈ started a acts := by simp [(log_run a acts).current, hk]
  exact hstarted

/-- What the mailbox of an actor is good for, as it shows after a run. -/
structure OrderedPath (a : ActorId) (acts : List Act) : Prop where
  /-- What was started, and then what waits, are in the order in which their sends were accepted. -/
  order : (started a acts ++ (run acts).queued a).Sublist (accepted a acts)
  /-- Nothing is accepted twice, so nothing is started twice. -/
  once : (accepted a acts).Nodup
  /-- What was started has ended, but for the one envelope that the run loop is inside of. -/
  one : started a acts = ended a acts ++ ((run acts).running? a).toList
  /-- What has ended has been resolved. -/
  resolved : ∀ h ∈ ended a acts, (run acts).outcome? h ≠ none
  /-- What the run loop is inside of, and what waits, has not been resolved. -/
  pending : ∀ h, (run acts).running? a = some h ∨ h ∈ (run acts).queued a →
    (run acts).outcome? h = none
  /-- Only the run loop starts something, and only when it is inside of nothing. -/
  starter : ∀ act, starts a (run acts) act ≠ [] →
    act = .move (.runLoop a) ∧ (run acts).running? a = none
  /-- Whoever is overtaken by a later one was dropped. -/
  skipped : ∀ h k, [h, k].Sublist (accepted a acts) → k ∈ started a acts →
    h ∈ started a acts ∨ h ∈ dropped a acts
  /-- What was dropped was lost, -/
  lost : ∀ h ∈ dropped a acts, ((run acts).channel h).content = .lost
  /-- and is never started. -/
  never : ∀ h ∈ dropped a acts, ∀ later, h ∉ started a (acts ++ later)
  /-- It was dropped by a clear, by a close, or when nobody held the actor any more. -/
  reason : ∀ act, ∀ h ∈ drops a (run acts) act, DropReason a (run acts) act h

/-- **The ordered path.** -/
theorem ordered_path (a : ActorId) (acts : List Act) : OrderedPath a acts := by
  have hlog := log_run a acts
  have hs := sound_run acts
  refine ⟨hlog.order, hlog.increasing.imp Nat.ne_of_lt, hlog.current, fun h hh => ?_,
    fun h hh => ?_, fun act hact => ?_, fun h k hhk hk => ?_, fun h hh => ?_, fun h hh later => ?_,
    fun act h hh => ((shift_next hs a act).of_drops hh).1⟩
  · exact mt outcome?_eq_none_iff.mp (hlog.resolved h hh)
  · refine outcome?_eq_none_iff.mpr (hs.content_of_handles (a := a) ?_)
    rw [Lane.handles, ← toList_running?, ← queued_eq]
    exact List.mem_append.mpr (hh.imp_left fun h => by simp [h])
  · cases shift_next hs a act with
    | enters hmove hidle _ _ _ => exact ⟨hmove, hidle⟩
    | joins hstarts _ _ _ | keeps hstarts _ _ _ => exact absurd hstarts hact
  · have hlt : h < k := by simpa using hlog.increasing.sublist hhk
    have hplace := hlog.places.mem_iff.mp (hhk.subset List.mem_cons_self)
    rcases List.mem_append.mp hplace with hplace | hplace
    · refine (List.mem_append.mp hplace).imp_right fun hqueued => ?_
      -- What waits was accepted after all that was started.
      have hsorted := List.pairwise_append.mp (hlog.increasing.sublist hlog.order)
      exact absurd (hsorted.2.2 k hk h hqueued) (Nat.lt_asymm hlt)
    · exact .inr hplace
  · rw [← content_scene]
    exact hlog.lost h hh
  · have hlater := log_run a (acts ++ later)
    have hmem : h ∈ dropped a (acts ++ later) := (record_isPrefix _ acts later).subset hh
    have hnodup := hlater.places.nodup_iff.mp (hlater.increasing.imp Nat.ne_of_lt)
    intro hstarted
    exact (List.nodup_append.mp hnodup).2.2 h (List.mem_append_left _ hstarted) h hmem rfl

end World

end Troupe
