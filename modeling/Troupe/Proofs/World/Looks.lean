import Troupe.Proofs.Channel.Tales
import Troupe.Proofs.World.Resolutions

/-!
# Looks at handles

A client that keeps the handle of an operation may look at it as often as it likes, between any acts
of a run. What its looks are answered with is a tale in the sense of channels: whatever happens in
the run, the producer of the handle ends at most once, and nothing but a look changes what its
channel holds afterwards.

So the first look after the end is always answered as it should be. A client that looks again after
it has taken an outcome is told that the operation was discarded; of an operation that has run this
is not true.

## Main definitions

* `Response.remarks` — what an answer tells of a handle
* `World.LooksAt`, `World.answersAt` — an act is a look at a handle, and how it is answered
* `World.endsAt` — the end of the producer of a handle
* `World.remarks` — what is remarked on a handle in a run

## Main results

* `World.contentAt_next` — what happens to a handle without a look
* `World.tale_run`, `World.remarks_run` — what is remarked on a handle in a run is a tale, and so it
  is remarked on a channel whose producer ends at most once
* `World.looks_answered` — how looks are answered
-/

namespace Troupe

open World

/-- What an answer tells of the handle of an operation. -/
def Response.remarks : Response → List (Remark (Except ActorError Json))
  | .pending => [.told none]
  | .outcome (.ok v) => [.told (some (.ok v))]
  | .outcome (.error (.actor e)) => [.told (some (.error e))]
  | _ => []

theorem Response.remarks_look (o? : Option (Except ActorError Json)) :
    ((o?.map (·.mapError .actor)).elim .pending .outcome : Response).remarks = [.told o?] := by
  match o? with
  | none | some (.ok _) | some (.error _) => rfl

namespace World

variable {w : World} {act : Act} {k : HandleId} {name : String}
  {t : List (Remark (Except ActorError Json))}

/-- Whether an act is a look at the handle of an operation. -/
def LooksAt (w : World) (k : HandleId) (act : Act) : Prop :=
  ∃ name, act = .call (.take name) ∧ w.handleNamed name = .ok (.operation k)

/-- What an act lets a client know of the handle of an operation. -/
def answersAt (k : HandleId) (w : World) : Act → List (Remark (Except ActorError Json))
  | .call (.take name) =>
    if w.handleNamed name = .ok (.operation k) then (w.call (.take name)).1.remarks else []
  | _ => []

/-- What the channel of an operation holds; nothing yet, before the handle is made. -/
def contentAt (w : World) (k : HandleId) : Content (Except ActorError Json) :=
  w.channels[k]?.elim .empty (·.content)

/-- The end of the producer of a handle, if it is in an act. -/
def endsAt (k : HandleId) (w : World) (act : Act) : List (Remark (Except ActorError Json)) :=
  match w.contentAt k, (w.next act).contentAt k with
  | .empty, .full o => [.sent o]
  | .empty, .lost => [.lost]
  | _, _ => []

/-- What is remarked on the handle of an operation in a run. -/
def remarks (k : HandleId) : List Act → List (Remark (Except ActorError Json)) :=
  record fun w act => w.answersAt k act ++ w.endsAt k act

theorem contentAt_of_lt (h : k < w.channels.length) : w.contentAt k = w.scene.content k := by
  rw [content_scene, contentAt, channel, List.getElem?_eq_getElem h]
  rfl

theorem contentAt_of_le (h : w.channels.length ≤ k) : w.contentAt k = .empty := by
  rw [contentAt, List.getElem?_eq_none h]
  rfl

/-! ### One act -/

theorem answersAt_of_not_looksAt (h : ¬w.LooksAt k act) : w.answersAt k act = [] := by
  unfold answersAt
  split
  · rename_i name
    exact if_neg fun hname => h ⟨name, rfl, hname⟩
  · rfl

/-- A look is answered with what the channel shows. -/
theorem answersAt_take (hname : w.handleNamed name = .ok (.operation k)) :
    w.answersAt k (.call (.take name)) = [.told (w.outcome? k)] := by
  have hcall : (w.call (.take name)).1 = (w.look (.operation k)).elim .pending .outcome := by
    simp [call, answer, hname, bind, Except.bind, pure, Except.pure]
  rw [answersAt, if_pos hname, hcall]
  exact Response.remarks_look _

/-- **Without a look** a handle stays as it is, or its producer ends. -/
theorem contentAt_next (hs : w.scene.Sound) (h : ¬w.LooksAt k act) :
    (w.next act).contentAt k = w.contentAt k ∨
      w.contentAt k = .empty ∧ (w.next act).contentAt k ≠ .drained := by
  obtain ⟨ms, d, hms⟩ := fits_next hs act
  have drained : (w.next act).scene.content k = .drained → w.scene.content k = .drained :=
    d.drained_before fun hmem => h (hms _ hmem)
  have hlen := length_channels_next hs act
  rcases Nat.lt_or_ge k w.channels.length with hlt | hge
  · rw [contentAt_of_lt hlt, contentAt_of_lt (Nat.lt_of_lt_of_le hlt hlen)]
    by_cases hd : (w.next act).scene.content k = .drained
    · exact .inl (hd.trans (drained hd).symm)
    · by_cases he : w.scene.content k = .empty
      · exact .inr ⟨he, hd⟩
      · exact .inl (settled_before hs act hlt he hd rfl).symm
  · -- The handle has not been made yet, so that nobody can have taken anything.
    refine .inr ⟨contentAt_of_le hge, fun hd => ?_⟩
    rcases Nat.lt_or_ge k (w.next act).channels.length with hlt' | hge'
    · rw [contentAt_of_lt hlt'] at hd
      have hlost := drained hd
      rw [Scene.content_of_le (by simpa using hge)] at hlost
      cases hlost
    · rw [contentAt_of_le hge'] at hd
      cases hd

/-- With a look the handle is drained. -/
theorem contentAt_take (hname : w.handleNamed name = .ok (.operation k))
    (hlt : k < w.channels.length) (hs : w.scene.Sound) :
    (w.next (.call (.take name))).contentAt k = (w.channel k).drain.content := by
  rw [contentAt_of_lt (Nat.lt_of_lt_of_le hlt (length_channels_next hs _)), content_take hname,
    content_scene, Channel.content_drain]

theorem endsAt_of_eq (h : (w.next act).contentAt k = w.contentAt k) : w.endsAt k act = [] := by
  rw [endsAt, h]
  cases w.contentAt k <;> rfl

/-- **What an act adds** makes the tale of a handle longer. -/
theorem tale_next (hs : w.scene.Sound) (made : ∀ r ∈ w.kept, w.HasMade r) (act : Act)
    (h : Tale (.error .discarded) t (w.contentAt k)) :
    Tale (.error .discarded) (t ++ (w.answersAt k act ++ w.endsAt k act))
      ((w.next act).contentAt k) := by
  by_cases hlook : w.LooksAt k act
  · obtain ⟨name, rfl, hname⟩ := hlook
    have hlt : k < w.channels.length := made _ (mem_kept_of_handleNamed hname)
    have hafter := contentAt_take hname hlt hs
    have hbefore : w.contentAt k = (w.channel k).content := by
      rw [contentAt_of_lt hlt, content_scene]
    have hquiet : w.endsAt k (.call (.take name)) = [] := by
      rw [endsAt, hafter, hbefore, Channel.content_drain]
      cases (w.channel k).content <;> rfl
    rw [answersAt_take hname, hquiet, hafter]
    exact (hbefore ▸ h).looks
  · rw [answersAt_of_not_looksAt hlook, List.nil_append]
    rcases contentAt_next hs hlook with hsame | ⟨hempty, hne⟩
    · rw [endsAt_of_eq hsame, hsame, List.append_nil]
      exact h
    · rw [hempty] at h
      rw [endsAt, hempty]
      cases hc : (w.next act).contentAt k with
      | empty => simpa using h
      | full o => exact h.sends o
      | lost => exact h.loses
      | drained => exact absurd hc hne

/-! ### Runs -/

/-- **What is remarked on a handle in a run** is a tale. -/
theorem tale_run (k : HandleId) (acts : List Act) :
    Tale (.error .discarded) (remarks k acts) ((run acts).contentAt k) := by
  induction acts using List.reverseRecOn with
  | nil => exact .waits 0
  | append_singleton acts act ih =>
    rw [remarks, record_concat, run_concat]
    exact tale_next (sound_run acts) (hasMade_of_kept acts) act ih

/-- **A handle in a run** is a channel whose producer ends at most once. -/
theorem remarks_run (k : HandleId) (acts : List Act) :
    ∃ hs : List (Happening (Except ActorError Json)), hs.countP Happening.isEnd ≤ 1 ∧
      Channel.remarks (.error .discarded) hs {} = remarks k acts :=
  Channel.remarks_of_tale (tale_run k acts)

/-- **How looks are answered**, on any channel whose producer ends at most once, and on any handle
in any run: as in a tale, at the right time, and truthfully exactly if nobody looks again at an
outcome that was there. -/
theorem looks_answered {α : Type} (loss : α) (hs : List (Happening α))
    (once : hs.countP Happening.isEnd ≤ 1) (k : HandleId) (acts : List Act) :
    Answered loss (Channel.remarks loss hs {}) ∧
      Answered (.error .discarded) (remarks k acts) := by
  obtain ⟨hs', once', hremarks⟩ := remarks_run k acts
  exact ⟨Channel.answered_remarks loss once, hremarks ▸ Channel.answered_remarks _ once'⟩

/-- A client keeps the handle of an operation, and looks before it has run and twice afterwards. -/
def takenRun : List Act :=
  [.call (.createActor "a" "d" "log" {}),
    .call (.send (.operation .ordered "a" [.effect (.give (.ofNat 1))] .value (.held "h"))),
    .call (.take "h"), .move (.runLoop 0), .move (.runLoop 0), .move (.runLoop 0),
    .move (.runLoop 0), .call (.take "h"), .call (.take "h")]

theorem looks_answered_takenRun :
    [Happening.looks, .sends 1, .looks, .looks].countP Happening.isEnd ≤ 1 ∧
      Answered 0 (Channel.remarks 0 [.looks, .sends 1, .looks, .looks] {}) ∧
      Answered (.error .discarded) (remarks 0 takenRun) :=
  ⟨by decide, looks_answered 0 [.looks, .sends 1, .looks, .looks] (by decide) 0 takenRun⟩

/-- **An outcome that has been taken** looks like a loss: the second look after the operation has
run is told that the operation was discarded. -/
theorem discarded_after_taken :
    remarks 0 takenRun =
      [.told none, .sent (.ok (.ofNat 1)), .told (some (.ok (.ofNat 1))),
        .told (some (.error .discarded))] ∧
      ¬Truthful (.error .discarded) (remarks 0 takenRun) := by
  have hremarks : remarks 0 takenRun =
      [.told none, .sent (.ok (.ofNat 1)), .told (some (.ok (.ofNat 1))),
        .told (some (.error .discarded))] := rfl
  refine ⟨hremarks, fun h => ?_⟩
  rw [hremarks] at h
  cases h (.ok (.ofNat 1)) (by simp) (by simp)

end World

end Troupe
