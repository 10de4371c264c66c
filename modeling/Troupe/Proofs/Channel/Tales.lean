import Mathlib.Data.List.Basic
import Troupe.Channel

/-!
# What is told of a channel

The producer of a channel ends once, and the holder may look before and after as often as it likes.
This module says what the looks are answered with, in every order of things.

Before the producer has ended, nothing is there. The first look after an outcome has been sent is
answered with the outcome, which is taken by the look. A channel from which the outcome has been
taken cannot be told from one whose producer was lost: all further looks are answered with the loss,
although nothing was lost.

## Main definitions

* `Happening`, `Remark` — what happens to a channel, and what is to be said of it
* `Channel.remarks` — the remarks on what happens to a channel
* `Tale` — the remarks that there can be
* `Prompt` — the first look after the producer has ended is the first one to be told how
* `Truthful` — no look is told of a loss where an outcome was sent
* `Relooked` — somebody has looked again at an outcome that was there
* `Answered` — how looks are answered

## Main results

* `Channel.tale_remarks`, `Channel.remarks_of_tale` — what is remarked on a channel whose producer
  ends once is a tale, and there are no others
* `Tale.prompt` — the looks of a tale are answered at the right time
* `Tale.truthful_iff` — a tale is truthful exactly as long as nobody looks again
* `Channel.answered_remarks` — how looks at a channel are answered
-/

namespace Troupe

/-- What happens to a channel. -/
inductive Happening (α : Type) where
  /-- The producer sends an outcome. -/
  | sends (outcome : α)
  /-- The producer is lost. -/
  | loses
  /-- The holder looks. -/
  | looks

/-- What is to be said of a channel. -/
inductive Remark (α : Type) where
  /-- The producer has sent an outcome. -/
  | sent (outcome : α)
  /-- The producer was lost. -/
  | lost
  /-- A look was answered, maybe with an outcome. -/
  | told (answer : Option α)

variable {α : Type}

/-- Whether the producer ends. -/
def Happening.isEnd : Happening α → Bool
  | .sends _ | .loses => true
  | .looks => false

/-- Whether the producer has ended. -/
def Remark.isEnd : Remark α → Bool
  | .sent _ | .lost => true
  | .told _ => false

namespace Channel

/-- The remarks on what happens to a channel. -/
def remarks (loss : α) : List (Happening α) → Channel α → List (Remark α)
  | [], _ => []
  | .sends o :: hs, c => .sent o :: remarks loss hs (c.send o)
  | .loses :: hs, c => .lost :: remarks loss hs c.lose
  | .looks :: hs, c => .told (c.take loss).1 :: remarks loss hs (c.take loss).2

end Channel

/-! ### Tales -/

/-- The remarks that there can be, with what the channel holds after them. -/
inductive Tale (loss : α) : List (Remark α) → Content α → Prop where
  /-- The producer has not ended. -/
  | waits (n : Nat) : Tale loss (List.replicate n (.told none)) .empty
  /-- The outcome has been sent, and nobody has looked since. -/
  | sent (n : Nat) (o : α) : Tale loss (List.replicate n (.told none) ++ [.sent o]) (.full o)
  /-- The outcome has been taken, and every look since was answered with the loss. -/
  | taken (n : Nat) (o : α) (m : Nat) :
    Tale loss (List.replicate n (.told none) ++
      .sent o :: .told (some o) :: List.replicate m (.told (some loss))) .drained
  /-- The producer was lost, and every look since was answered with the loss. -/
  | lost (n m : Nat) :
    Tale loss (List.replicate n (.told none) ++ .lost :: List.replicate m (.told (some loss))) .lost

variable {loss : α} {t : List (Remark α)} {content : Content α}

/-- A look makes the tale longer. -/
theorem Tale.looks {c : Channel α} (h : Tale loss t c.content) :
    Tale loss (t ++ [.told (c.peek loss)]) c.drain.content := by
  obtain ⟨content, listening⟩ := c
  cases h with
  | waits n => simpa [Channel.peek, Channel.drain, List.replicate_succ'] using Tale.waits (n + 1)
  | sent n o => simpa [Channel.peek, Channel.drain] using Tale.taken n o 0
  | taken n o m =>
    simpa [Channel.peek, Channel.drain, List.replicate_succ'] using Tale.taken n o (m + 1)
  | lost n m => simpa [Channel.peek, Channel.drain, List.replicate_succ'] using Tale.lost n (m + 1)

theorem Tale.sends (h : Tale loss t .empty) (o : α) : Tale loss (t ++ [.sent o]) (.full o) := by
  cases h with
  | waits n => exact .sent n o

theorem Tale.loses (h : Tale loss t .empty) : Tale loss (t ++ [.lost]) .lost := by
  cases h with
  | waits n => exact .lost n 0

namespace Channel

/-- What goes on is a tale, if the producer ends only where it has not ended before. -/
theorem tale_append {c : Channel α} (h : Tale loss t c.content) (hs : List (Happening α))
    (once : hs.countP Happening.isEnd + (if c.isPending then 0 else 1) ≤ 1) :
    ∃ content, Tale loss (t ++ remarks loss hs c) content := by
  induction hs generalizing t c with
  | nil => exact ⟨_, by simpa [remarks] using h⟩
  | cons e hs ih =>
    -- Where the producer ends, the channel is empty, and nothing ends behind.
    have first : e.isEnd = true → c.content = .empty ∧ hs.countP Happening.isEnd = 0 := by
      intro he
      rw [List.countP_cons_of_pos he] at once
      cases hc : c.content with
      | empty => exact ⟨rfl, by omega⟩
      | full _ | drained | lost => simp [isPending, hc] at once
    cases e with
    | sends o =>
      obtain ⟨hc, hnone⟩ := first rfl
      have hnext : (c.send o).content = .full o := by simp [send, hc]
      rw [hc] at h
      obtain ⟨content, ht⟩ := ih (hnext ▸ h.sends o) (by rw [hnone]; split <;> omega)
      exact ⟨content, by simpa [remarks] using ht⟩
    | loses =>
      obtain ⟨hc, hnone⟩ := first rfl
      have hnext : c.lose.content = .lost := by simp [lose, hc]
      rw [hc] at h
      obtain ⟨content, ht⟩ := ih (hnext ▸ h.loses) (by rw [hnone]; split <;> omega)
      exact ⟨content, by simpa [remarks] using ht⟩
    | looks =>
      have hsame : c.drain.isPending = c.isPending := by
        cases hc : c.content <;> simp [isPending, drain, hc]
      rw [List.countP_cons_of_neg (by simp [Happening.isEnd]), ← hsame] at once
      obtain ⟨content, ht⟩ := ih h.looks once
      exact ⟨content, by simpa [remarks, take] using ht⟩

/-- **What is remarked on a channel** whose producer ends at most once is a tale. -/
theorem tale_remarks (loss : α) (hs : List (Happening α)) (once : hs.countP Happening.isEnd ≤ 1) :
    ∃ content, Tale loss (remarks loss hs {}) content :=
  tale_append (t := []) (.waits 0) hs once

/-- Looks that change nothing are all answered alike. -/
theorem remarks_looks (loss : α) {c : Channel α} (hc : c.drain = c) (n : Nat)
    (hs : List (Happening α)) :
    remarks loss (List.replicate n .looks ++ hs) c =
      List.replicate n (.told (c.peek loss)) ++ remarks loss hs c := by
  induction n with
  | zero => rfl
  | succ n ih => simp [List.replicate_succ, remarks, take, hc, ih]

/-- **Every tale is told of a channel** whose producer ends at most once. -/
theorem remarks_of_tale (h : Tale loss t content) :
    ∃ hs : List (Happening α), hs.countP Happening.isEnd ≤ 1 ∧ remarks loss hs {} = t := by
  have before : ∀ n hs, remarks loss (List.replicate n .looks ++ hs) {} =
      List.replicate n (.told none) ++ remarks loss hs {} := remarks_looks loss rfl
  have behind : ∀ (c : Channel α) m, c.drain = c → remarks loss (List.replicate m .looks) c =
      List.replicate m (.told (c.peek loss)) := by
    intro c m hc
    simpa [remarks] using remarks_looks loss hc m []
  have count : ∀ n, (List.replicate n (Happening.looks : Happening α)).countP Happening.isEnd = 0 :=
    fun n => by simp [Happening.isEnd]
  cases h with
  | waits n => exact ⟨List.replicate n .looks, by simp [count], behind {} n rfl⟩
  | sent n o =>
    refine ⟨List.replicate n .looks ++ [.sends o], by simp [count, Happening.isEnd], ?_⟩
    rw [before]
    rfl
  | taken n o m =>
    refine ⟨List.replicate n .looks ++ .sends o :: .looks :: List.replicate m .looks, ?_, ?_⟩
    · simp [List.countP_cons, count, Happening.isEnd]
    · rw [before, remarks, remarks]
      exact congrArg (_ ++ .sent o :: .told (some o) :: ·) (behind { content := .drained } m rfl)
  | lost n m =>
    refine ⟨List.replicate n .looks ++ .loses :: List.replicate m .looks, ?_, ?_⟩
    · simp [List.countP_cons, count, Happening.isEnd]
    · rw [before, remarks]
      exact congrArg (_ ++ .lost :: ·) (behind { content := .lost } m rfl)

end Channel

/-! ### What the looks are told -/

/-- The looks are told nothing before the producer has ended, and the first one after that is told
how it has ended. -/
structure Prompt (loss : α) (t : List (Remark α)) : Prop where
  /-- Nothing is told as long as the producer has not ended, and only so long. -/
  pending : ∀ before answer behind, t = before ++ .told answer :: behind →
    (answer = none ↔ ∀ r ∈ before, r.isEnd = false)
  /-- The first look after an outcome has been sent is answered with it. -/
  sent : ∀ before o answer behind, t = before ++ .sent o :: .told answer :: behind →
    answer = some o
  /-- The first look after the producer was lost is answered with the loss. -/
  lost : ∀ before answer behind, t = before ++ .lost :: .told answer :: behind →
    answer = some loss

/-- Where an outcome has been sent, no look is answered with the loss unless that was sent. -/
def Truthful (loss : α) (t : List (Remark α)) : Prop :=
  ∀ o, .sent o ∈ t → .told (some loss) ∈ t → o = loss

/-- Somebody has looked again at an outcome that was there. -/
def Relooked (loss : α) (t : List (Remark α)) : Prop :=
  ∃ before o behind, t = before ++ .sent o :: behind ∧ o ≠ loss ∧ 2 ≤ behind.length

/-- How looks are answered. -/
structure Answered (loss : α) (t : List (Remark α)) : Prop where
  /-- There is nothing but looks and one end, in one of few ways. -/
  tale : ∃ content, Tale loss t content
  /-- They are answered at the right time. -/
  prompt : Prompt loss t
  /-- They are told the truth, unless somebody looks again. -/
  truthful : Truthful loss t ↔ ¬Relooked loss t

/-- What the first look after an end is to be answered with. -/
def Remark.outcome (loss : α) : Remark α → α
  | .sent o => o
  | .lost | .told _ => loss

section Ends

variable {before behind before' behind' : List (Remark α)} {e e' : Remark α} {o : α} {n m : Nat}

/-- The end of the producer is found in one place only. -/
theorem Remark.eq_of_ends (hb : ∀ r ∈ before, r.isEnd = false) (ha : ∀ r ∈ behind, r.isEnd = false)
    (he : e'.isEnd = true) (h : before ++ e :: behind = before' ++ e' :: behind') :
    before = before' ∧ e = e' ∧ behind = behind' := by
  have hmem : ∀ {l : List (Remark α)}, (∀ r ∈ l, r.isEnd = false) → e' ∉ l := by
    intro l hl hmem
    rw [hl e' hmem] at he
    cases he
  exact (List.append_cons_inj_of_notMem (hmem hb) (hmem ha)).mp h

theorem Remark.isEnd_replicate (n : Nat) (answer : Option α) :
    ∀ r ∈ List.replicate n (told answer), r.isEnd = false := by
  intro r hr
  rw [List.eq_of_mem_replicate hr]
  rfl

/-- A look comes before the end and is told nothing, or it comes behind. -/
theorem before_or_behind {answer : Option α} (he : e.isEnd = true)
    (h : List.replicate n (.told none) ++ e :: behind = before ++ .told answer :: behind') :
    (answer = none ∧ ∀ r ∈ before, r.isEnd = false) ∨ e ∈ before ∧ .told answer ∈ behind := by
  have apart : ∀ {l}, e :: behind ≠ .told answer :: l := by
    rintro l heq
    obtain ⟨rfl, -⟩ := List.cons.inj heq
    cases he
  rcases List.append_eq_append_iff.mp h with ⟨mid, rfl, hmid⟩ | ⟨mid, hn, hmid⟩
  · cases mid with
    | nil => exact absurd hmid apart
    | cons _ mid =>
      obtain ⟨rfl, rfl⟩ := List.cons.inj hmid
      exact .inr ⟨by simp, by simp⟩
  · cases mid with
    | nil => exact absurd hmid.symm apart
    | cons _ mid =>
      obtain ⟨rfl, -⟩ := List.cons.inj hmid
      have hnone : Remark.told answer ∈ List.replicate n (.told none) := by simp [hn]
      refine .inl ⟨Remark.told.inj (List.eq_of_mem_replicate hnone), fun r hr => ?_⟩
      exact Remark.isEnd_replicate n none r (hn ▸ List.mem_append_left _ hr)

/-- Looks that are told nothing, an end, and looks that are told something are prompt if the first
one of these is told the outcome. -/
theorem prompt_of_end (he : e.isEnd = true) (ha : ∀ r ∈ behind, ∃ o, r = .told (some o))
    (first : ∀ answer rest, behind = .told answer :: rest → answer = some (e.outcome loss)) :
    Prompt loss (List.replicate n (.told none) ++ e :: behind) := by
  have quiet : ∀ r ∈ behind, r.isEnd = false := by
    intro r hr
    obtain ⟨o, rfl⟩ := ha r hr
    rfl
  refine ⟨fun before answer rest h => ?_, fun before o answer rest h => ?_,
    fun before answer rest h => ?_⟩
  · rcases before_or_behind he h with ⟨rfl, hbefore⟩ | ⟨hmem, htold⟩
    · simpa using hbefore
    · obtain ⟨o, ho⟩ := ha _ htold
      obtain rfl : answer = some o := Remark.told.inj ho
      refine iff_of_false (by simp) fun hall => ?_
      rw [hall e hmem] at he
      cases he
  · obtain ⟨-, rfl, hrest⟩ := Remark.eq_of_ends (Remark.isEnd_replicate n none) quiet rfl h
    exact first _ _ hrest
  · obtain ⟨-, rfl, hrest⟩ := Remark.eq_of_ends (Remark.isEnd_replicate n none) quiet rfl h
    exact first _ _ hrest

theorem prompt_replicate (n : Nat) : Prompt loss (List.replicate n (.told none)) := by
  have quiet := Remark.isEnd_replicate n (none : Option α)
  refine ⟨fun before answer behind h => ?_, fun before o answer behind h => ?_,
    fun before answer behind h => ?_⟩
  · have hmem : Remark.told answer ∈ List.replicate n (.told none) := by simp [h]
    simp only [Remark.told.inj (List.eq_of_mem_replicate hmem), true_iff]
    exact fun r hr => quiet r (h ▸ List.mem_append_left _ hr)
  · cases quiet (.sent o) (by simp [h])
  · cases quiet .lost (by simp [h])

namespace Tale

/-- Whoever looks again at an outcome is answered with the loss. -/
theorem told_loss (h : Tale loss (before ++ .sent o :: behind) content)
    (hlen : 2 ≤ behind.length) : .told (some loss) ∈ behind := by
  generalize ht : before ++ .sent o :: behind = t at h
  cases h with
  | waits n => cases Remark.isEnd_replicate n none (.sent o) (by simp [← ht])
  | sent n o' =>
    obtain ⟨-, -, rfl⟩ := Remark.eq_of_ends (Remark.isEnd_replicate n none) (by simp) rfl ht.symm
    simp at hlen
  | taken n o' m =>
    obtain ⟨-, -, rfl⟩ := Remark.eq_of_ends (Remark.isEnd_replicate n none)
      (List.forall_mem_cons.mpr ⟨rfl, Remark.isEnd_replicate m (some loss)⟩) rfl ht.symm
    have hm : m ≠ 0 := by
      rintro rfl
      simp at hlen
    exact List.mem_cons_of_mem _ (List.mem_replicate.mpr ⟨hm, rfl⟩)
  | lost n m =>
    obtain ⟨-, hlost, -⟩ := Remark.eq_of_ends (Remark.isEnd_replicate n none)
      (Remark.isEnd_replicate m (some loss)) rfl ht.symm
    cases hlost

/-- **All tales are prompt.** -/
theorem prompt (h : Tale loss t content) : Prompt loss t := by
  -- What is told behind the end is the outcome or the loss.
  have losses : ∀ m, ∀ r ∈ List.replicate m (Remark.told (some loss)), ∃ o, r = .told (some o) :=
    fun m r hr => ⟨loss, List.eq_of_mem_replicate hr⟩
  cases h with
  | waits n => exact prompt_replicate n
  | sent n o => exact prompt_of_end rfl (by simp) (by simp)
  | taken n o m =>
    refine prompt_of_end rfl (List.forall_mem_cons.mpr ⟨⟨o, rfl⟩, losses m⟩) ?_
    rintro answer rest ⟨⟩
    rfl
  | lost n m =>
    refine prompt_of_end rfl (losses m) fun answer rest hrest => ?_
    have hmem : Remark.told answer ∈ List.replicate m (.told (some loss)) := by simp [hrest]
    exact Remark.told.inj (List.eq_of_mem_replicate hmem)

/-- **A tale is truthful** exactly if nobody looks again at an outcome that was there. -/
theorem truthful_iff (h : Tale loss t content) : Truthful loss t ↔ ¬Relooked loss t := by
  constructor
  · rintro ht ⟨before, o, behind, rfl, hne, hlen⟩
    refine hne (ht o (by simp) ?_)
    exact List.mem_append_right _ (List.mem_cons_of_mem _ (h.told_loss hlen))
  · intro hno o hsent htold
    cases h with
    | waits n | lost n m => simp at hsent
    | sent n o' => simp at htold
    | taken n o' m =>
      obtain rfl : o = o' := by simpa using hsent
      by_contra hne
      refine hno ⟨_, o, _, rfl, hne, ?_⟩
      have hm : m ≠ 0 := by
        rintro rfl
        simp [Ne.symm hne] at htold
      simp only [List.length_cons, List.length_replicate]
      omega

end Tale

end Ends

/-- **How looks are answered** on a channel whose producer ends at most once. -/
theorem Channel.answered_remarks (loss : α) {hs : List (Happening α)}
    (once : hs.countP Happening.isEnd ≤ 1) : Answered loss (remarks loss hs {}) := by
  obtain ⟨content, h⟩ := tale_remarks loss hs once
  exact ⟨⟨content, h⟩, h.prompt, h.truthful_iff⟩

end Troupe
