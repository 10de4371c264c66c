import Troupe.Channel
import Troupe.Error
import Troupe.Pool.OwnerIndex

/-!
# Worker pools

A fixed crew of workers takes jobs from one queue. A job may belong to an owner, who can withdraw
the jobs that have not started without touching anybody else's; an urgent job goes to the head of
the queue. A worker that finds the queue empty waits until it is woken, or leaves for good if the
pool is shut down.

Whatever happens to a job, its channel tells: it carries the outcome of a job that ran, nothing
for a job that was withdrawn, and the refusal of a job that a stopped pool turned away.

## Main definitions

* `Job`, `Worker`, `Pool` — the parts of a pool, generic in what a job does and what it returns
* `Pool.submit`, `Pool.cancel`, `Pool.shutdown`, `Pool.shutdownNow` — what clients do
* `Pool.look`, `Pool.finish` — what workers do
* `Pool.pendingCount`, `Pool.outstandingCount`, `Pool.isTerminated` — what can be asked
-/

namespace Troupe

/-- A job that waits or runs. -/
structure Job (β : Type) where
  /-- The number of the job within its pool. -/
  id : JobId
  /-- The owner on whose behalf it was submitted, if any. -/
  owner : Option String
  /-- What it does. -/
  body : β
  deriving Repr, Inhabited

/-- A worker of a pool. Workers differ in nothing but what they are doing. -/
inductive Worker (β : Type) where
  /-- Waits to be woken. -/
  | waiting
  /-- About to look at the queue. -/
  | awake
  /-- Runs a job. -/
  | busy (job : Job β)
  /-- Has left for good. -/
  | gone
  deriving Repr, Inhabited

namespace Worker

variable {β : Type}

/-- The job that a worker runs. -/
def job? : Worker β → Option (Job β)
  | .busy job => some job
  | _ => none

/-- A worker after a call that reaches all who wait. -/
def woken : Worker β → Worker β
  | .waiting => .awake
  | w => w

/-- The crew after a call that reaches one of those who wait. -/
def wakeOne : List (Worker β) → List (Worker β)
  | [] => []
  | .waiting :: crew => .awake :: crew
  | w :: crew => w :: wakeOne crew

end Worker

/-- A worker pool whose jobs do `β` and return `ρ`. -/
structure Pool (β ρ : Type) where
  /-- The name of the pool. -/
  name : String
  /-- The number of workers it was created with. -/
  size : Nat
  /-- The jobs that wait, the next one first. -/
  queue : List (Job β) := []
  /-- Whether it has been shut down. -/
  stopped : Bool := false
  /-- The outstanding jobs of every owner. -/
  owners : OwnerIndex := {}
  /-- The workers. -/
  crew : List (Worker β)
  /-- The number of workers that have not left. -/
  live : Nat
  /-- The channels of all jobs ever submitted, by number. -/
  channels : List (Channel (Except PoolError ρ)) := []

namespace Pool

variable {β ρ : Type}

/-- A new pool, all of whose workers are about to look at the queue. -/
def create (name : String) (size : Nat) : Except PoolError (Pool β ρ) :=
  if size = 0 then .error .invalidSize
  else .ok { name, size, crew := List.replicate size .awake, live := size }

/-! ### What can be asked -/

/-- The number of jobs that wait. -/
def queuedCount (p : Pool β ρ) : Nat := p.queue.length

/-- The number of an owner's jobs that wait. -/
def pendingCount (p : Pool β ρ) (owner : String) : Nat :=
  (p.queue.filter fun job => job.id ∈ p.owners.ids owner).length

/-- The number of an owner's jobs on record. -/
def outstandingCount (p : Pool β ρ) (owner : String) : Nat := (p.owners.ids owner).length

/-- Whether every worker has left. -/
def isTerminated (p : Pool β ρ) : Bool := p.live == 0

/-- The jobs that run. -/
def running (p : Pool β ρ) : List (Job β) := p.crew.filterMap Worker.job?

/-- The channel of a job. -/
def channel (p : Pool β ρ) (id : JobId) : Channel (Except PoolError ρ) :=
  p.channels[id]?.getD { content := .lost }

/-- What the holder of a job's handle sees: a lost job was withdrawn. -/
def outcome? (p : Pool β ρ) (id : JobId) : Option (Except PoolError ρ) :=
  (p.channel id).peek (.error .cancelled)

/-! ### Channels and records -/

/-- Changes the channel of a job. -/
def onChannel (id : JobId) (f : Channel (Except PoolError ρ) → Channel (Except PoolError ρ))
    (p : Pool β ρ) : Pool β ρ :=
  { p with channels := p.channels.modify id f }

/-- Ends the record of a job that has an owner. -/
def release (job : Job β) (p : Pool β ρ) : Pool β ρ :=
  match job.owner with
  | some owner => { p with owners := p.owners.release owner job.id }
  | none => p

/-- Drops a job that has not started. -/
def discard (p : Pool β ρ) (job : Job β) : Pool β ρ :=
  (p.release job).onChannel job.id Channel.lose

/-! ### What clients do -/

/-- Submits a job. A stopped pool refuses it; otherwise it joins the queue, at the head if it is
urgent, and one waiting worker is woken. -/
def submit (p : Pool β ρ) (owner : Option String) (urgent : Bool) (body : β) :
    JobId × Pool β ρ :=
  let id := p.channels.length
  let job : Job β := ⟨id, owner, body⟩
  let p := { p with
    channels := p.channels ++ [({} : Channel _)]
    owners := owner.elim p.owners fun owner => p.owners.register owner id }
  if p.stopped then
    (id, (p.release job).onChannel id fun _ => .settled (.error (.shutdown p.name)))
  else
    (id, { p with
      queue := if urgent then job :: p.queue else p.queue ++ [job]
      crew := Worker.wakeOne p.crew })

/-- Splits a queue into the jobs that stay and those with one of the numbers, front to back. The
walk ends as soon as `missing` of them have been found. -/
def withdraw (ids : List JobId) : Nat → List (Job β) → List (Job β) × List (Job β)
  | 0, queue => (queue, [])
  | _ + 1, [] => ([], [])
  | missing + 1, job :: queue =>
    if job.id ∈ ids then
      let (kept, removed) := withdraw ids missing queue
      (kept, job :: removed)
    else
      let (kept, removed) := withdraw ids (missing + 1) queue
      (job :: kept, removed)

/-- Withdraws the jobs of an owner that have not started, and ends all records of the owner.
Returns how many jobs were withdrawn. -/
def cancel (p : Pool β ρ) (owner : String) : Nat × Pool β ρ :=
  let ids := p.owners.ids owner
  let p := { p with owners := p.owners.forget owner }
  if ids.isEmpty then (0, p)
  else
    let (kept, removed) := withdraw ids ids.length p.queue
    (removed.length, removed.foldl discard { p with queue := kept })

/-- Accepts no more jobs. The workers empty the queue and leave. -/
def shutdown (p : Pool β ρ) : Pool β ρ :=
  { p with stopped := true, crew := p.crew.map Worker.woken }

/-- Accepts no more jobs and drops those that wait. Returns how many were dropped. -/
def shutdownNow (p : Pool β ρ) : Nat × Pool β ρ :=
  let dropped := p.queue
  let p := { p with stopped := true, queue := [], crew := p.crew.map Worker.woken }
  (dropped.length, dropped.foldl discard p)

/-- Drops the handle of a job. -/
def deafen (p : Pool β ρ) (id : JobId) : Pool β ρ := p.onChannel id Channel.deafen

/-- Takes the outcome of a job out of its channel. -/
def drain (p : Pool β ρ) (id : JobId) : Pool β ρ := p.onChannel id Channel.drain

/-! ### What workers do -/

/-- The worker at a place looks at the queue: it takes the next job, or leaves if the pool is shut
down, or waits. Only a worker that is awake does. -/
def look (p : Pool β ρ) (place : Nat) : Option (Pool β ρ) :=
  match p.crew[place]?, p.queue with
  | some .awake, job :: queue => some { p with queue, crew := p.crew.set place (.busy job) }
  | some .awake, [] =>
    if p.stopped then some { p with crew := p.crew.set place .gone, live := p.live - 1 }
    else some { p with crew := p.crew.set place .waiting }
  | _, _ => none

/-- The job that the worker at a place runs. -/
def jobAt (p : Pool β ρ) (place : Nat) : Option (Job β) :=
  p.crew[place]?.bind Worker.job?

/-- The worker at a place has got further in its job. -/
def advance (p : Pool β ρ) (place : Nat) (body : β) : Pool β ρ :=
  match p.jobAt place with
  | some job => { p with crew := p.crew.set place (.busy { job with body }) }
  | none => p

/-- The worker at a place ends its job: the record ends before the outcome is sent. -/
def finish (p : Pool β ρ) (place : Nat) (outcome : Except PoolError ρ) : Pool β ρ :=
  match p.jobAt place with
  | some job =>
    ({ p with crew := p.crew.set place .awake }.release job).onChannel job.id (·.send outcome)
  | none => p

end Pool

end Troupe
