import BookingPlatform.WorkerPrefix
import BookingPlatform.Tokens
import BookingPlatform.Remote.Simulation
import BookingPlatform.Strings.Dict

/-!
# Redis as it is

Keys, records and messages are strings. A record is the JSON text of a dictionary, which
every step of a job reads, changes and writes anew. Keys do not expire here either.
-/

namespace BookingPlatform

set_option autoImplicit false

open Remote Strings Strings.Json

section Values

def textOf (s : String) : Json := .string (points s)

def uuidText (u : UUID) : Json := .string (strUuid u)

def isoText (t : Time) : Json := textOf (isoformat t)

def intText (n : Int) : Json := .number (points (toString n))

/-- `repr` of a float that has been rounded to hundredths, and is not negative. -/
def floatText (q : ℚ) : Json :=
  let hundredths := (roundHalfEven (q * 100)).toNat
  let decimals := if hundredths % 10 = 0 then digits 1 (hundredths / 10) else digits 2 hundredths
  .number (points (toString (hundredths / 100)) ++ 46 :: decimals.map Char.toNat)

def JobStatus.text : JobStatus → String
  | .queued => "queued"
  | .processing => "processing"
  | .completed => "completed"
  | .failed => "failed"

/-- How pydantic reads the values of the fields, and how it dumps a `datetime` for JSON. -/
structure Pydantic where
  uuid? : Json → Option UUID
  datetime? : Json → Option Time
  int? : Json → Option Int
  float? : Json → Option ℚ
  str? : Json → Option Str
  dumpDatetime : Time → Str

end Values

section Schemas
variable (pydantic : Pydantic)

structure ResultView where
  providerId : UUID
  providerName : Str
  reviewCount : Int
  averageRating : ℚ
  ratingDistribution : List (Str × Int)
  summary : Str
  generatedAt : Time
  deriving DecidableEq

structure JobView where
  jobId : UUID
  status : JobStatus
  providerId : UUID
  result : Option ResultView
  error : Option Str
  createdAt : Time
  updatedAt : Option Time
  deriving DecidableEq

/-- `Literal["queued", "processing", "completed", "failed"]`. -/
def JobStatus.read? (x : Json) : Option JobStatus := do
  let s ← pydantic.str? x
  [JobStatus.queued, .processing, .completed, .failed].find? fun status => points status.text = s

def isNull : Json → Bool
  | .null => true
  | .bool _ => false
  | .number _ => false
  | .string _ => false
  | .array _ => false
  | .object _ => false

/-- A field that may be None, as which it is read when it is absent. -/
def optional {α : Type} (read? : Json → Option α) (x : Option Json) : Option (Option α) :=
  match x with
  | none => some none
  | some x => if isNull x then some none else (read? x).map some

/-- `dict[str, int]`. -/
def counts? (x : Json) : Option (List (Str × Int)) := do
  let d ← x.dict?
  d.items.mapM fun m => (pydantic.int? m.2).map fun n => (m.1, n)

def ResultView.read? (x : Json) : Option ResultView := do
  let d ← x.dict?
  let providerId ← pydantic.uuid? (← d.get? (points "provider_id"))
  let providerName ← pydantic.str? (← d.get? (points "provider_name"))
  let reviewCount ← pydantic.int? (← d.get? (points "review_count"))
  let averageRating ← pydantic.float? (← d.get? (points "average_rating"))
  let ratingDistribution ← counts? pydantic (← d.get? (points "rating_distribution"))
  let summary ← pydantic.str? (← d.get? (points "summary"))
  let generatedAt ← pydantic.datetime? (← d.get? (points "generated_at"))
  if 0 ≤ reviewCount ∧ 0 ≤ averageRating ∧ averageRating ≤ 5 then
    some {
      providerId := providerId
      providerName := providerName
      reviewCount := reviewCount
      averageRating := averageRating
      ratingDistribution := ratingDistribution
      summary := summary
      generatedAt := generatedAt }
  else none

/-- `ReviewSummaryJobResponse.model_validate` of a dictionary. -/
def JobView.read? (d : Dict) : Option JobView := do
  let jobId ← pydantic.uuid? (← d.get? (points "job_id"))
  let status ← JobStatus.read? pydantic (← d.get? (points "status"))
  let providerId ← pydantic.uuid? (← d.get? (points "provider_id"))
  let result ← optional (ResultView.read? pydantic) (d.get? (points "result"))
  let error ← optional pydantic.str? (d.get? (points "error"))
  let createdAt ← pydantic.datetime? (← d.get? (points "created_at"))
  let updatedAt ← optional pydantic.datetime? (d.get? (points "updated_at"))
  some {
    jobId := jobId
    status := status
    providerId := providerId
    result := result
    error := error
    createdAt := createdAt
    updatedAt := updatedAt }

/-- `model_dump(mode="json")` of a result. -/
def ResultDump.json (raw : ResultDump) : Json :=
  .object [
    (points "provider_id", uuidText raw.providerId),
    (points "provider_name", textOf raw.providerName),
    (points "review_count", intText raw.reviewCount),
    (points "average_rating", floatText raw.averageRating),
    (points "rating_distribution",
      .object (raw.ratingDistribution.map fun m => (points (toString m.1), intText m.2))),
    (points "summary", textOf raw.summary),
    (points "generated_at", .string (pydantic.dumpDatetime raw.generatedAt))]

end Schemas

section Commands

structure TextRedis where
  queue : List Str
  strings : Str → Option Str

inductive TextCommand where
  | ping
  | selectOne
  | sql (q : Query)
  | get (key : Str)
  | set (key value : Str)
  | rpush (value : Str)
  | blpop

abbrev TextCommand.Reply : TextCommand → Type
  | .sql q => q.Answer
  | .get _ => Option Str
  | .blpop => Option Str
  | .ping => Unit
  | .selectOne => Unit
  | .set _ _ => Unit
  | .rpush _ => Unit

/-- A command that raises has no effect. -/
def performText (c : TextCommand) (m : Moment) (s : TextRedis) :
    Except Failure c.Reply × TextRedis :=
  match m.raises, c with
  | some text, _ => (.error (.exception text), s)
  | none, .ping => (.ok (), s)
  | none, .selectOne => (.ok (), s)
  | none, .sql q => (.ok (m.db.answer q), s)
  | none, .get key => (.ok (s.strings key), s)
  | none, .set key value =>
    (.ok (), { s with strings := Function.update s.strings key (some value) })
  | none, .rpush value => (.ok (), { s with queue := s.queue ++ [value] })
  | none, .blpop => (.ok s.queue.head?, { s with queue := s.queue.tail })

abbrev textBackend : Server where
  State := TextRedis
  Moment := Moment
  Command := TextCommand
  Reply := TextCommand.Reply
  Error := Failure
  perform := performText

def sendText (c : TextCommand) : Script textBackend c.Reply := Script.send (S := textBackend) c

end Commands

section Service
variable (py : Interpreter) (pydantic : Pydantic)

def jobKey (jobId : UUID) : Str := points "job:review_summary:" ++ strUuid jobId

def jobPayload (jobId : UUID) (now : Time) (providerId : UUID) : Dict :=
  .ofItems [
    (points "job_id", uuidText jobId),
    (points "status", textOf "queued"),
    (points "provider_id", uuidText providerId),
    (points "result", .null),
    (points "error", .null),
    (points "created_at", isoText now),
    (points "updated_at", isoText now)]

/-- A ValidationError, which nobody catches. -/
def invalidJob : Failure := .exception "ReviewSummaryJobResponse"

def validateJob (d : Dict) : Except Failure JobView :=
  match JobView.read? pydantic d with
  | some view => .ok view
  | none => .error invalidJob

def enqueueText (jobId : UUID) (now : Time) (providerId : UUID) :
    Script textBackend JobView := do
  let provider : Option User ← sendText (.sql (.user providerId))
  match provider with
  | none => throw (.httpException 404 "Provider not found")
  | some provider =>
    if provider.role ≠ .provider then
      throw (.httpException 400 "Selected user is not registered as a service provider")
    else do
      tryCatch (do
        sendText (.set (jobKey jobId) (jobPayload jobId now providerId).dumps)
        sendText (.rpush (taskMessage jobId providerId))) fun _ =>
        throw (.httpException 503 "Task queue is temporarily unavailable")
      Script.ofExcept (validateJob pydantic (jobPayload jobId now providerId))

/-- `json.loads`, of a text that should be a dictionary. -/
def loadDict (raw : Str) : Except Failure Dict :=
  match (loads py.recursionDepth raw).bind dict? with
  | some d => .ok d
  | none => .error (.exception "JSONDecodeError")

/-- `if not raw_job`: an empty string counts as none. -/
def present (raw : Option Str) : Option Str := raw.filter fun text => text ≠ []

/-- `model_validate(json.loads(raw_job))`. -/
def readJob (raw : Str) : Except Failure JobView := do
  let data ← loadDict py raw
  validateJob pydantic data

def pollText (jobId : UUID) : Script textBackend JobView := do
  let rawJob : Option Str ← tryCatch (sendText (.get (jobKey jobId))) fun _ =>
    throw (.httpException 503 "Task queue is temporarily unavailable")
  match present rawJob with
  | none => throw (.httpException 404 "Summary job not found")
  | some raw => Script.ofExcept (readJob py pydantic raw)

section Process
variable (clock : JobClock) (jobId providerId : UUID)

/-- `current_data` before it is marked. -/
def currentDict (raw : Option Str) : Except Failure Dict :=
  match present raw with
  | some text => loadDict py text
  | none => .ok (.ofItems [
    (points "job_id", uuidText jobId),
    (points "provider_id", uuidText providerId),
    (points "created_at", isoText clock.started)])

def markStarted (d : Dict) (now : Time) : Dict :=
  (d.set (points "status") (textOf "processing")).set (points "updated_at") (isoText now)

def markFailed (d : Dict) (error : String) (now : Time) : Dict :=
  ((d.set (points "status") (textOf "failed")).set (points "error") (textOf error)).set
    (points "updated_at") (isoText now)

def markCompleted (d : Dict) (result : ReviewSummaryResult) (now : Time) : Dict :=
  (((d.set (points "status") (textOf "completed")).set (points "result")
    (result.toResultDump.json pydantic)).set (points "error") .null).set
    (points "updated_at") (isoText now)

/-- `except Exception`. -/
def onExceptionText (currentData : Dict) (exc : Failure) : Script textBackend Dict := do
  let currentData := markFailed currentData exc.text clock.failed
  sendText (.set (jobKey jobId) currentData.dumps)
  pure currentData

def tryingText {α : Type} (currentData : Dict) (p : Script textBackend α)
    (k : α → Script textBackend Dict) : Script textBackend Dict := do
  match ← p.attempt with
  | .ok a => k a
  | .error exc => onExceptionText clock jobId currentData exc

def storeText (currentData : Dict) : Script textBackend Dict :=
  tryingText clock jobId currentData (sendText (.set (jobKey jobId) currentData.dumps)) fun _ =>
    pure currentData

def processText : Script textBackend Dict := do
  let raw : Option Str ← sendText (.get (jobKey jobId))
  let data ← Script.ofExcept (currentDict py clock jobId providerId raw)
  let currentData := markStarted data clock.started
  sendText (.set (jobKey jobId) currentData.dumps)
  tryingText clock jobId currentData (sendText (.sql (.user providerId)))
    fun provider : Option User =>
      match provider with
      | none =>
        storeText clock jobId (markFailed currentData "Provider not found" clock.finished)
      | some provider =>
        if provider.role ≠ .provider then
          storeText clock jobId (markFailed currentData "User is not a provider" clock.finished)
        else
          tryingText clock jobId currentData (sendText (.sql (.reviewStats providerId)))
            fun stats : Nat × Option ℚ =>
              tryingText clock jobId currentData (sendText (.sql (.ratingCounts providerId)))
                fun distRows : List (Int × Nat) =>
                  match (summaryResult provider providerId stats distRows
                    clock.finished).validate with
                  | .error exc => onExceptionText clock jobId currentData exc
                  | .ok result =>
                    storeText clock jobId
                      (markCompleted pydantic currentData result clock.finished)

end Process

/-- What stands for the exceptions of `json.loads` and `uuid.UUID`. -/
def unreadableText (raw : Str) : Failure := .exception ((ofPoints? raw).getD "")

def workerRoundText (clock : JobClock) (jobsProcessed : Nat) : Script textBackend Nat := do
  let item : Option Str ← sendText .blpop
  match item with
  | none => pure jobsProcessed
  | some raw =>
    match taskOf py raw with
    | none => throw (unreadableText raw)
    | some (jobId, providerId) => do
      let _ ← processText py pydantic clock jobId providerId
      pure (jobsProcessed + 1)

def workerLoopText (clock : Nat → JobClock) (maxJobs : Option Nat) :
    Nat → Nat → Script textBackend Nat
  | 0, jobsProcessed => pure jobsProcessed
  | rounds + 1, jobsProcessed =>
    if maxJobs.any fun limit => limit ≤ jobsProcessed then pure jobsProcessed
    else do
      match ← (workerRoundText py pydantic (clock rounds) jobsProcessed).attempt with
      | .ok jobsProcessed => workerLoopText clock maxJobs rounds jobsProcessed
      | .error _ => workerLoopText clock maxJobs rounds jobsProcessed

def checkConnectionText (c : TextCommand) : Script textBackend Bool := do
  match ← (sendText c).attempt with
  | .ok _ => pure true
  | .error _ => pure false

def runWorkerText (rounds : Nat) (clock : Nat → JobClock) (maxJobs : Option Nat) :
    Script textBackend Nat := do
  if !(← checkConnectionText .ping) then return 0
  if !(← checkConnectionText .selectOne) then return 0
  workerLoopText py pydantic clock maxJobs rounds 0

inductive TextReport where
  | job (view : JobView)
  | processed (data : Dict)
  | stopped (jobsProcessed : Nat)

def Agent.textScript : Agent → Script textBackend TextReport
  | .enqueue jobId now providerId => .job <$> enqueueText pydantic jobId now providerId
  | .poll jobId => .job <$> pollText py pydantic jobId
  | .process clock jobId providerId =>
    .processed <$> processText py pydantic clock jobId providerId
  | .worker rounds clock maxJobs => .stopped <$> runWorkerText py pydantic rounds clock maxJobs

/-- All agents at once, on one Redis. -/
def textAgentsOn {ι : Type} (s : TextRedis) (agents : ι → Agent) :
    System textBackend ι TextReport :=
  .boot s fun i => (agents i).textScript py pydantic

end Service

end BookingPlatform
