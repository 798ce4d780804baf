import BookingPlatform.Jobs
import BookingPlatform.Services.Summary
import BookingPlatform.Remote.Script
import Mathlib.Logic.Function.Basic

/-!
# The review summary service

Summary jobs live in Redis: a list of messages, and a record for each job. Keys do not
expire here, and a record is its fields: a key that is absent reads as null.
-/

namespace BookingPlatform

set_option autoImplicit false

open Remote

inductive JobStatus where
  | queued
  | processing
  | completed
  | failed
  deriving DecidableEq, Repr

/-- `model_dump(mode="json")` of a result, as it is stored. -/
structure ResultDump where
  providerId : UUID
  providerName : String
  reviewCount : Int
  averageRating : ℚ
  ratingDistribution : Distribution
  summary : String
  generatedAt : Time
  deriving DecidableEq, Repr

/-- `ReviewSummaryResult`: a dump within the bounds of the schema. -/
structure ReviewSummaryResult extends ResultDump where
  countBound : 0 ≤ reviewCount
  averageBounds : 0 ≤ averageRating ∧ averageRating ≤ 5
  deriving DecidableEq, Repr

structure JobData where
  jobId : UUID
  providerId : UUID
  status : JobStatus
  result : Option ResultDump
  error : Option String
  createdAt : Time
  updatedAt : Time
  deriving DecidableEq, Repr

structure ReviewSummaryJobResponse where
  jobId : UUID
  status : JobStatus
  providerId : UUID
  result : Option ReviewSummaryResult
  error : Option String
  createdAt : Time
  updatedAt : Option Time
  deriving DecidableEq, Repr

/-- An HTTPException, or any other exception with the text `str` gives it. -/
inductive Failure where
  | httpException (statusCode : Nat) (detail : String)
  | exception (text : String)
  deriving DecidableEq, Repr

def Failure.text : Failure → String
  | .httpException statusCode detail => toString statusCode ++ ": " ++ detail
  | .exception text => text

/-- A message of the queue; one that the worker cannot parse is only its text. -/
inductive Payload where
  | task (jobId providerId : UUID)
  | malformed (raw : String)
  deriving DecidableEq, Repr

structure Redis where
  queue : List Payload
  records : UUID → Option JobData

/-- The Redis commands and database statements of clients and workers. -/
inductive Command where
  | ping
  | selectOne
  | sql (q : Query)
  | get (jobId : UUID)
  | set (jobId : UUID) (data : JobData)
  | rpush (payload : Payload)
  | blpop

/-- `blpop` replies none when its timeout passes with the queue empty. -/
abbrev Command.Reply : Command → Type
  | .sql q => q.Answer
  | .get _ => Option JobData
  | .blpop => Option Payload
  | _ => Unit

/-- What is committed in the database when a command arrives, and whether it raises. -/
structure Moment where
  db : Store
  raises : Option String

/-- A command that raises has no effect. -/
def perform (c : Command) (m : Moment) (s : Redis) : Except Failure c.Reply × Redis :=
  match m.raises, c with
  | some text, _ => (.error (.exception text), s)
  | none, .ping => (.ok (), s)
  | none, .selectOne => (.ok (), s)
  | none, .sql q => (.ok (m.db.answer q), s)
  | none, .get jobId => (.ok (s.records jobId), s)
  | none, .set jobId data =>
    (.ok (), { s with records := Function.update s.records jobId (some data) })
  | none, .rpush payload => (.ok (), { s with queue := s.queue ++ [payload] })
  | none, .blpop => (.ok s.queue.head?, { s with queue := s.queue.tail })

abbrev backend : Server where
  State := Redis
  Moment := Moment
  Command := Command
  Reply := Command.Reply
  Error := Failure
  perform := perform

def send (c : Command) : Script backend c.Reply := Script.send (S := backend) c

def ResultDump.validate (raw : ResultDump) : Except Failure ReviewSummaryResult :=
  if h : 0 ≤ raw.reviewCount ∧ 0 ≤ raw.averageRating ∧ raw.averageRating ≤ 5 then
    .ok { raw with countBound := h.1, averageBounds := h.2 }
  else .error (.exception "ReviewSummaryResult")

/-- `ReviewSummaryJobResponse.model_validate`. -/
def JobData.validate (data : JobData) : Except Failure ReviewSummaryJobResponse := do
  let result ← data.result.mapM ResultDump.validate
  pure {
    jobId := data.jobId
    status := data.status
    providerId := data.providerId
    result := result
    error := data.error
    createdAt := data.createdAt
    updatedAt := some data.updatedAt }

def queuedJob (jobId : UUID) (now : Time) (providerId : UUID) : JobData where
  jobId := jobId
  providerId := providerId
  status := .queued
  result := none
  error := none
  createdAt := now
  updatedAt := now

/-- `jobId` is the uuid4 the call draws. -/
def enqueueSummaryJob (jobId : UUID) (now : Time) (providerId : UUID) :
    Script backend ReviewSummaryJobResponse := do
  let provider : Option User ← send (.sql (.user providerId))
  match provider with
  | none => throw (.httpException 404 "Provider not found")
  | some provider =>
    if provider.role ≠ .provider then
      throw (.httpException 400 "Selected user is not registered as a service provider")
    else do
      tryCatch (do
        send (.set jobId (queuedJob jobId now providerId))
        send (.rpush (.task jobId providerId))) fun _ =>
        throw (.httpException 503 "Task queue is temporarily unavailable")
      Script.ofExcept (queuedJob jobId now providerId).validate

def getSummaryJob (jobId : UUID) : Script backend ReviewSummaryJobResponse := do
  let rawJob : Option JobData ← tryCatch (send (.get jobId)) fun _ =>
    throw (.httpException 503 "Task queue is temporarily unavailable")
  match rawJob with
  | none => throw (.httpException 404 "Summary job not found")
  | some data => Script.ofExcept data.validate

section Process

/-- The readings of the clock in one run of a job: at its start, when it ends as it should,
and in the exception handler. -/
structure JobClock where
  started : Time
  finished : Time
  failed : Time

/-- The stored record, or a new one, marked as processing. -/
def JobData.started (raw : Option JobData) (jobId providerId : UUID) (now : Time) : JobData :=
  match raw with
  | some data => { data with status := .processing, updatedAt := now }
  | none =>
    { queuedJob jobId now providerId with status := .processing }

def JobData.failed (data : JobData) (error : String) (now : Time) : JobData :=
  { data with status := .failed, error := some error, updatedAt := now }

def JobData.completed (data : JobData) (result : ReviewSummaryResult) (now : Time) : JobData :=
  { data with
    status := .completed
    result := some result.toResultDump
    error := none
    updatedAt := now }

/-- `except Exception`: whatever is in `current_data` is stored as failed. -/
def onException (clock : JobClock) (jobId : UUID) (currentData : JobData) (exc : Failure) :
    Script backend JobData := do
  let currentData := currentData.failed exc.text clock.failed
  send (.set jobId currentData)
  pure currentData

/-- One command of the try block, while `current_data` is what is given. -/
def trying {α : Type} (clock : JobClock) (jobId : UUID) (currentData : JobData)
    (p : Script backend α) (k : α → Script backend JobData) : Script backend JobData := do
  match ← p.attempt with
  | .ok a => k a
  | .error exc => onException clock jobId currentData exc

/-- The last command of the try block. -/
def store (clock : JobClock) (jobId : UUID) (currentData : JobData) : Script backend JobData :=
  trying clock jobId currentData (send (.set jobId currentData)) fun _ => pure currentData

inductive Sentiment where
  | dissatisfied
  | mixed
  | favorable
  | positive
  deriving DecidableEq, Repr

def Sentiment.sentence : Sentiment → String
  | .positive => "Sentiment is overwhelmingly positive."
  | .favorable => "Sentiment is generally favorable."
  | .mixed => "Feedback is mixed."
  | .dissatisfied => "Significant dissatisfaction noted."

def sentimentOf (avgRating : ℚ) : Sentiment :=
  if 9 / 2 ≤ avgRating then .positive
  else if 7 / 2 ≤ avgRating then .favorable
  else if 5 / 2 ≤ avgRating then .mixed
  else .dissatisfied

/-- `{q:.2f}` of a number that is not negative. -/
def fixed2 (q : ℚ) : String :=
  let hundredths := (roundHalfEven (q * 100)).toNat
  toString (hundredths / 100) ++ "." ++ String.ofList (digits 2 hundredths)

def summaryText (providerName : String) (totalCount : Nat) (avgRating : ℚ) : String :=
  if totalCount = 0 then
    providerName ++ " has no customer reviews yet. " ++
      "No ratings or qualitative feedback have been submitted."
  else
    providerName ++ " has " ++ toString totalCount ++ " reviews with an average " ++
      "rating of " ++ fixed2 avgRating ++ "/5.0. " ++ (sentimentOf avgRating).sentence

def summaryResult (provider : User) (providerId : UUID) (stats : Nat × Option ℚ)
    (distRows : List (Int × Nat)) (finishedAt : Time) : ResultDump where
  providerId := providerId
  providerName := provider.name
  reviewCount := stats.1
  averageRating := roundedAverage stats.2
  ratingDistribution := distributionOf distRows
  summary := summaryText provider.name stats.1 (roundedAverage stats.2)
  generatedAt := finishedAt

def processSummaryJob (clock : JobClock) (jobId providerId : UUID) : Script backend JobData := do
  let raw : Option JobData ← send (.get jobId)
  let currentData := JobData.started raw jobId providerId clock.started
  send (.set jobId currentData)
  trying clock jobId currentData (send (.sql (.user providerId))) fun provider : Option User =>
    match provider with
    | none => store clock jobId (currentData.failed "Provider not found" clock.finished)
    | some provider =>
      if provider.role ≠ .provider then
        store clock jobId (currentData.failed "User is not a provider" clock.finished)
      else
        trying clock jobId currentData (send (.sql (.reviewStats providerId)))
          fun stats : Nat × Option ℚ =>
            trying clock jobId currentData (send (.sql (.ratingCounts providerId)))
              fun distRows : List (Int × Nat) =>
                match (summaryResult provider providerId stats distRows
                  clock.finished).validate with
                | .error exc => onException clock jobId currentData exc
                | .ok result => store clock jobId (currentData.completed result clock.finished)

end Process

end BookingPlatform
