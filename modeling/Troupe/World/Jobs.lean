import Troupe.World.Basic

/-!
# Pools in the world

What clients, actors and workers do to pools, with what is reported about it.

## Main definitions

* `World.submitJob`, `World.cancelJobs`, `World.cancelJobsIn` — jobs going in and out
* `World.stopPool`, `World.emptyPool` — the two ways to shut down
* `World.stepWorker` — the next move of a worker
-/

namespace Troupe

namespace World

/-! ### Jobs going in and out -/

/-- Submits a job to a pool. -/
def submitJob (p : PoolId) (owner : Option String) (urgent : Bool) (work : Work) (w : World) :
    JobId × World :=
  let pool := w.pool p
  let (j, pool') := pool.submit owner urgent work
  let w := w.onPool p fun _ => pool'
  (j, if pool.stopped then w.report (.jobRefused pool.name) else w)

/-- Withdraws the waiting jobs of an owner from a pool. Returns how many there were. -/
def cancelJobs (owner : String) (p : PoolId) (w : World) : Nat × World :=
  let pool := w.pool p
  let recorded := pool.outstandingCount owner
  let (withdrawn, pool') := pool.cancel owner
  let w := w.onPool p fun _ => pool'
  (withdrawn,
    if recorded = 0 then w else w.report (.jobsCancelled withdrawn recorded owner pool.name))

/-- Withdraws the waiting jobs of an owner from several pools. Returns how many there were. -/
def cancelJobsIn (owner : String) : List PoolId → World → Nat × World
  | [], w => (0, w)
  | p :: pools, w =>
    let (first, w) := w.cancelJobs owner p
    let (others, w) := w.cancelJobsIn owner pools
    (first + others, w)

/-! ### Shutting down -/

/-- Shuts a pool down; what waits there is still done. -/
def stopPool (p : PoolId) (w : World) : World :=
  (w.onPool p (·.shutdown)).report (.poolStopping (w.pool p).name)

/-- Shuts a pool down and drops what waits there. Returns how many jobs were dropped. -/
def emptyPool (p : PoolId) (w : World) : Nat × World :=
  let pool := w.pool p
  let (dropped, pool') := pool.shutdownNow
  let w := w.onPool p fun _ => pool'
  (dropped, if dropped = 0 then w else w.report (.queueDiscarded pool.name dropped))

/-! ### Workers -/

/-- Reports what there is to report about the end of a job. -/
def reportJob (listening : Bool) (ending : Ending) (w : World) : World :=
  let w := match ending with
    | .broke payload => w.report (.jobPanicked payload.message)
    | .failed message => w.report (.jobPanicked message)
    | .returned _ => w
  if listening then w else w.report .jobHandleDropped

/-- The worker at a place ends its job. -/
def finishJob (p : PoolId) (place : Nat) (job : Job Work) (ending : Ending) (w : World) : World :=
  let pool := w.pool p
  (w.onPool p (·.finish place (job.body.answer.jobOutcome ending))).reportJob
    (pool.channel job.id).listening ending

/-- The worker at a place goes on with its job, if the job does not wait. -/
def stepJob (p : PoolId) (place : Nat) (job : Job Work) (w : World) : Option World :=
  let work := job.body
  match work.rest with
  | [] => some (w.finishJob p place job (.returned work.value))
  | e :: rest =>
    match e.run w.gates (w.lines work.page) work.value with
    | .goesOn lines value =>
      some ((w.write work.page lines).onPool p (·.advance place { work with rest, value }))
    | .ends ending => some (w.finishJob p place job ending)
    | .waits => none

/-- The worker at a place of a pool makes its next move, if it has one. -/
def stepWorker (p : PoolId) (place : Nat) (w : World) : Option World :=
  match (w.pool p).jobAt place with
  | some job => w.stepJob p place job
  | none => ((w.pool p).look place).map fun pool' => w.onPool p fun _ => pool'

end World

end Troupe
