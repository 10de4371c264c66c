import Mathlib.Data.List.Perm.Basic
import Troupe.Pool.Basic

/-!
# Where the jobs of a pool are

A job is known by its number. This module says where the numbers stand: in the queue, on a worker,
and in the content of a channel. Every operation of a pool is described by what it does to these
three views, and later modules go by these descriptions.

## Main definitions

* `Content.settle`, `Content.drain` — the two ways in which what a channel holds changes
* `Pool.queuedIds`, `Pool.runningIds`, `Pool.content` — the three views of a job

## Main results

* `Channel.content_send`, `content_lose`, `content_drain` — channels through their contents
* `Pool.discards_frame`, `content_discards` — dropping jobs resolves their channels
* `Pool.perm_withdraw` — withdrawing splits a queue
* `Worker.exists_split` — changing what one worker does
-/

namespace Troupe

/-! ### Contents of channels -/

namespace Content

variable {α : Type}

/-- The content after the end of the producer: only an empty channel takes what it leaves. -/
def settle : Content α → Content α → Content α
  | .empty, c => c
  | old, _ => old

/-- The content after a look. -/
def drain : Content α → Content α
  | .full _ => .drained
  | c => c

/-- Whether the producer was lost. -/
def isLost : Content α → Bool
  | .lost => true
  | _ => false

theorem isLost_iff {c : Content α} : c.isLost = true ↔ c = .lost := by
  cases c <;> simp [isLost]

@[simp] theorem settle_empty (c : Content α) : settle .empty c = c := rfl

theorem settle_of_ne {old : Content α} (h : old ≠ .empty) (c : Content α) :
    old.settle c = old := by
  cases old with
  | empty => exact absurd rfl h
  | full | drained | lost => rfl

@[simp] theorem settle_lost (c : Content α) : settle .lost c = .lost := rfl

@[simp] theorem settle_settle (old c : Content α) :
    (old.settle c).settle c = old.settle c := by
  cases old with
  | empty => cases c <;> rfl
  | full | drained | lost => rfl

@[simp] theorem drain_eq_empty {c : Content α} : c.drain = .empty ↔ c = .empty := by
  cases c <;> simp [drain]

@[simp] theorem drain_eq_lost {c : Content α} : c.drain = .lost ↔ c = .lost := by
  cases c <;> simp [drain]

end Content

namespace Channel

variable {α : Type}

@[simp] theorem content_send (o : α) (c : Channel α) :
    (c.send o).content = c.content.settle (.full o) := by
  obtain ⟨content, _⟩ := c
  cases content <;> rfl

@[simp] theorem content_lose (c : Channel α) : c.lose.content = c.content.settle .lost := by
  obtain ⟨content, _⟩ := c
  cases content <;> rfl

@[simp] theorem content_drain (c : Channel α) : c.drain.content = c.content.drain := by
  obtain ⟨content, _⟩ := c
  cases content <;> rfl

@[simp] theorem content_deafen (c : Channel α) : c.deafen.content = c.content := rfl

@[simp] theorem content_settled (o : α) : (settled o).content = .full o := rfl

end Channel

/-! ### Workers -/

namespace Worker

variable {β : Type}

@[simp] theorem job?_waiting : (waiting : Worker β).job? = none := rfl

@[simp] theorem job?_awake : (awake : Worker β).job? = none := rfl

@[simp] theorem job?_busy (job : Job β) : (busy job).job? = some job := rfl

@[simp] theorem job?_gone : (gone : Worker β).job? = none := rfl

@[simp] theorem job?_woken (w : Worker β) : w.woken.job? = w.job? := by
  cases w <;> rfl

theorem filterMap_job?_wakeOne (crew : List (Worker β)) :
    (wakeOne crew).filterMap job? = crew.filterMap job? := by
  induction crew with
  | nil => rfl
  | cons w crew ih => cases w <;> simp [wakeOne, List.filterMap_cons, ih]

theorem filterMap_job?_woken (crew : List (Worker β)) :
    (crew.map woken).filterMap job? = crew.filterMap job? := by
  rw [List.filterMap_map]
  exact congrArg (List.filterMap · crew) (funext job?_woken)

/-- The jobs of a crew around one of its places, for whatever the worker there does. -/
theorem exists_split {crew : List (Worker β)} {place : Nat} {w : Worker β}
    (h : crew[place]? = some w) :
    ∃ l r : List (Job β), crew.filterMap job? = l ++ w.job?.toList ++ r ∧
      ∀ w', (crew.set place w').filterMap job? = l ++ w'.job?.toList ++ r := by
  have split : ∀ (l r : List (Worker β)) (w' : Worker β), (l ++ w' :: r).filterMap job? =
      l.filterMap job? ++ w'.job?.toList ++ r.filterMap job? := by
    intro l r w'
    cases hw : w'.job? <;> simp [hw]
  obtain ⟨hp, rfl⟩ := List.getElem?_eq_some_iff.mp h
  refine ⟨(crew.take place).filterMap job?, (crew.drop (place + 1)).filterMap job?, ?_, ?_⟩
  · rw [← split, List.getElem_cons_drop, List.take_append_drop]
  · intro w'
    rw [← split, List.set_eq_take_append_cons_drop, if_pos hp]

end Worker

namespace Pool

variable {β ρ : Type} {p : Pool β ρ}

/-! ### The three views -/

/-- The numbers of the jobs that wait, the next one first. -/
def queuedIds (p : Pool β ρ) : List JobId := p.queue.map (·.id)

/-- The numbers of the jobs that run. -/
def runningIds (p : Pool β ρ) : List JobId := p.running.map (·.id)

/-- What the channel of a job holds. -/
def content (p : Pool β ρ) (id : JobId) : Content (Except PoolError ρ) := (p.channel id).content

theorem content_of_le {id : JobId} (h : p.channels.length ≤ id) : p.content id = .lost := by
  simp [content, channel, List.getElem?_eq_none h]

theorem mem_queuedIds {id : JobId} : id ∈ p.queuedIds ↔ ∃ job ∈ p.queue, job.id = id := by
  simp [queuedIds]

theorem mem_runningIds_of_jobAt {place : Nat} {job : Job β} (h : p.jobAt place = some job) :
    job.id ∈ p.runningIds := by
  obtain ⟨w, hw, hj⟩ := Option.bind_eq_some_iff.mp h
  exact List.mem_map_of_mem (List.mem_filterMap.mpr ⟨w, List.mem_of_getElem? hw, hj⟩)

/-! ### Channels and records -/

theorem content_onChannel (id k : JobId)
    (f : Channel (Except PoolError ρ) → Channel (Except PoolError ρ)) :
    (p.onChannel id f).content k =
      if k = id ∧ k < p.channels.length then (f (p.channel k)).content else p.content k := by
  rw [content, channel, onChannel, List.getElem?_modify]
  by_cases hk : id = k
  · subst hk
    by_cases hlt : id < p.channels.length
    · simp [channel, hlt]
    · simp [content, channel, hlt]
  · simp [content, channel, hk, Ne.symm hk]

@[simp] theorem onChannel_frame (id : JobId)
    (f : Channel (Except PoolError ρ) → Channel (Except PoolError ρ)) :
    (p.onChannel id f).queue = p.queue ∧ (p.onChannel id f).crew = p.crew ∧
      (p.onChannel id f).owners = p.owners ∧ (p.onChannel id f).stopped = p.stopped ∧
      (p.onChannel id f).channels.length = p.channels.length :=
  ⟨rfl, rfl, rfl, rfl, List.length_modify ..⟩

@[simp] theorem release_frame (job : Job β) :
    (p.release job).queue = p.queue ∧ (p.release job).crew = p.crew ∧
      (p.release job).channels = p.channels ∧ (p.release job).stopped = p.stopped := by
  rw [release]
  split <;> exact ⟨rfl, rfl, rfl, rfl⟩

@[simp] theorem content_release (job : Job β) (id : JobId) :
    (p.release job).content id = p.content id := by
  rw [content, content, channel, channel, (release_frame job).2.2.1]

theorem content_discard (job : Job β) (id : JobId) :
    (p.discard job).content id =
      if id = job.id then (p.content id).settle .lost else p.content id := by
  rw [discard, content_onChannel]
  by_cases hid : id = job.id
  · by_cases hlt : id < p.channels.length
    · simp [hid ▸ hlt, hid, channel, content]
    · have hlost : p.content id = .lost := content_of_le (Nat.le_of_not_lt hlt)
      simp [hlt, hlost]
  · simp [hid]

theorem discards_frame (jobs : List (Job β)) (p : Pool β ρ) :
    (jobs.foldl discard p).queue = p.queue ∧ (jobs.foldl discard p).crew = p.crew ∧
      (jobs.foldl discard p).stopped = p.stopped ∧
      (jobs.foldl discard p).channels.length = p.channels.length := by
  induction jobs generalizing p with
  | nil => exact ⟨rfl, rfl, rfl, rfl⟩
  | cons job jobs ih =>
    obtain ⟨hq, hc, hs, hl⟩ := ih (p.discard job)
    rw [List.foldl_cons, hq, hc, hs, hl]
    simp [discard]

theorem content_discards (jobs : List (Job β)) (p : Pool β ρ) (id : JobId) :
    (jobs.foldl discard p).content id =
      if id ∈ jobs.map (·.id) then (p.content id).settle .lost else p.content id := by
  induction jobs generalizing p with
  | nil => simp
  | cons job jobs ih =>
    rw [List.foldl_cons, ih, content_discard]
    by_cases hid : id = job.id
    · simp [hid]
    · simp [hid]

/-! ### Withdrawing -/

/-- Withdrawing loses no job and makes none up. -/
theorem perm_withdraw (ids : List JobId) (missing : Nat) (queue : List (Job β)) :
    ((withdraw ids missing queue).2 ++ (withdraw ids missing queue).1).Perm queue := by
  induction queue generalizing missing with
  | nil => cases missing <;> simp [withdraw]
  | cons job queue ih =>
    cases missing with
    | zero => simp [withdraw]
    | succ missing =>
      by_cases hid : job.id ∈ ids
      · simpa [withdraw, hid] using ih missing
      · simp only [withdraw, hid, if_false]
        exact List.perm_middle.trans ((ih (missing + 1)).cons job)

theorem mem_of_mem_withdraw {ids : List JobId} {missing : Nat} {queue : List (Job β)}
    {job : Job β} (h : job ∈ (withdraw ids missing queue).2) : job.id ∈ ids := by
  induction queue generalizing missing with
  | nil => cases missing <;> simp [withdraw] at h
  | cons head queue ih =>
    cases missing with
    | zero => simp [withdraw] at h
    | succ missing =>
      by_cases hid : head.id ∈ ids
      · simp only [withdraw, hid, if_true] at h
        rcases List.mem_cons.mp h with rfl | h
        · exact hid
        · exact ih h
      · simp only [withdraw, hid, if_false] at h
        exact ih h

end Pool

end Troupe
