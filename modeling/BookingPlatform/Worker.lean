import BookingPlatform.Services.ReviewSummary
import BookingPlatform.Remote.Agents

/-!
# The review worker, and all who use the queue
-/

namespace BookingPlatform

set_option autoImplicit false

open Remote

section Worker

/-- What stands for the exceptions of `json.loads` and `uuid.UUID`. -/
def unreadable (raw : String) : Failure := .exception raw

/-- The body of the loop: how many jobs have been processed after it. -/
def workerRound (clock : JobClock) (jobsProcessed : Nat) : Script backend Nat := do
  let item : Option Payload ← send .blpop
  match item with
  | none => pure jobsProcessed
  | some (.malformed raw) => throw (unreadable raw)
  | some (.task jobId providerId) => do
    let _ ← processSummaryJob clock jobId providerId
    pure (jobsProcessed + 1)

/-- The loop, for as many rounds as pass before the signal to stop. -/
def workerLoop (clock : Nat → JobClock) (maxJobs : Option Nat) : Nat → Nat → Script backend Nat
  | 0, jobsProcessed => pure jobsProcessed
  | rounds + 1, jobsProcessed =>
    if maxJobs.any fun limit => limit ≤ jobsProcessed then pure jobsProcessed
    else do
      match ← (workerRound (clock rounds) jobsProcessed).attempt with
      | .ok jobsProcessed => workerLoop clock maxJobs rounds jobsProcessed
      | .error _ => workerLoop clock maxJobs rounds jobsProcessed

def checkConnection (c : Command) : Script backend Bool := do
  match ← (send c).attempt with
  | .ok _ => pure true
  | .error _ => pure false

def runWorker (rounds : Nat) (clock : Nat → JobClock) (maxJobs : Option Nat) :
    Script backend Nat := do
  if !(← checkConnection .ping) then return 0
  if !(← checkConnection .selectOne) then return 0
  workerLoop clock maxJobs rounds 0

end Worker

section Agents

/-- Whoever uses the queue. A job may also be processed directly. -/
inductive Agent where
  | enqueue (jobId : UUID) (now : Time) (providerId : UUID)
  | poll (jobId : UUID)
  | process (clock : JobClock) (jobId providerId : UUID)
  | worker (rounds : Nat) (clock : Nat → JobClock) (maxJobs : Option Nat)

inductive Report where
  | job (response : ReviewSummaryJobResponse)
  | processed (data : JobData)
  | stopped (jobsProcessed : Nat)
  deriving DecidableEq, Repr

def Agent.script : Agent → Script backend Report
  | .enqueue jobId now providerId => .job <$> enqueueSummaryJob jobId now providerId
  | .poll jobId => .job <$> getSummaryJob jobId
  | .process clock jobId providerId => .processed <$> processSummaryJob clock jobId providerId
  | .worker rounds clock maxJobs => .stopped <$> runWorker rounds clock maxJobs

/-- All agents at once, on one Redis. -/
def agentsOn {ι : Type} (s : Redis) (agents : ι → Agent) : System backend ι Report :=
  .boot s fun i => (agents i).script

end Agents

end BookingPlatform
