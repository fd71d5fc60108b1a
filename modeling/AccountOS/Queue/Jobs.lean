import AccountOS.Conc.Alone
import AccountOS.Queue.RetryProcessor
import AccountOS.Queue.WebhookProcessor

/-!
# The jobs of the queues

The two workers serve their jobs one after the other. A webhook job is served once for each of its
deliveries. A retry job stays in its queue until `process` has returned for it; each time that it
throws, the queue counts a failed attempt, and it delivers the job again as long as the job has
attempts left.
-/

namespace AccountOS

open Conc

/-- A job of the retry queue that is not done, with the queue's count of its failed attempts. -/
structure LiveJob where
  job : RetryJob
  attemptsMade : Nat := 0
deriving DecidableEq, Repr

/-- What the worker is given of a job. -/
def LiveJob.delivery (j : LiveJob) : RetryProcessor.RetryDelivery where
  ruleExecutionId := j.job.ruleExecutionId
  maxAttempts := j.job.maxAttempts
  attemptsMade := j.attemptsMade

/-- The job after an attempt that threw, unless it was the last one. -/
def LiveJob.failed (j : LiveJob) : List LiveJob :=
  if j.attemptsMade + 1 < j.job.attempts then [{ j with attemptsMade := j.attemptsMade + 1 }]
  else []

/-- The workers' world between two jobs, where the `retryQueue` is empty, and the live jobs of the
retry queue. -/
structure QueueState where
  world : World
  retryJobs : List LiveJob := []

namespace QueueState

/-- The state when a worker is done with a job: `w` is its world, and `retryJobs` are the live jobs
that were there before. What the worker has put on the retry queue is live from now on. -/
def after (w : World) (retryJobs : List LiveJob) : QueueState where
  world := { w with retryQueue := [] }
  retryJobs := retryJobs ++ w.retryQueue.map fun job => ⟨job, 0⟩

end QueueState

/-- What is left of a delivered job, by the result of `process`. -/
def LiveJob.rest (j : LiveJob) : Except Error Unit → List LiveJob
  | .ok () => []
  | .error _ => j.failed

/-- One job is served. `allowed p` restricts the calls made for the webhook job `p`, and `retries`
those made for a retry job. -/
inductive JobStep (allowed : InflowPayload → Call → Env → World → World → Prop)
    (retries : Call → Env → World → World → Prop) (s : QueueState) : QueueState → Prop
  | webhook (p : InflowPayload) {r : Except Error Unit} {w : World}
      (run : (WebhookProcessor.process p).Finishes (allowed p) s.world r w) :
      JobStep allowed retries s (.after w s.retryJobs)
  | retry {before : List LiveJob} {j : LiveJob} {later : List LiveJob} {r : Except Error Unit}
      {w : World} (live : s.retryJobs = before ++ j :: later)
      (run : (RetryProcessor.process j.delivery).Finishes retries s.world r w) :
      JobStep allowed retries s (.after w (before ++ j.rest r ++ later))

end AccountOS
