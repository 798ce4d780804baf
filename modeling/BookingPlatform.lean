import BookingPlatform.Transact.Program
import BookingPlatform.Transact.Rules
import BookingPlatform.Transact.Interleaving
import BookingPlatform.Transact.Rely
import BookingPlatform.Transact.Faults
import BookingPlatform.Transact.Readers
import BookingPlatform.Remote.Script
import BookingPlatform.Remote.Agents
import BookingPlatform.Remote.Turns
import BookingPlatform.Remote.Solo
import BookingPlatform.Schema
import BookingPlatform.Statements
import BookingPlatform.Services.Notification
import BookingPlatform.Services.Provider
import BookingPlatform.Services.Booking
import BookingPlatform.Services.Review
import BookingPlatform.Services.Summary
import BookingPlatform.Services.Auth
import BookingPlatform.Jobs
import BookingPlatform.Services.ReviewSummary
import BookingPlatform.Aggregates
import BookingPlatform.Worker
import BookingPlatform.JobProtocol
import BookingPlatform.JobSteps
import BookingPlatform.JobStages
import BookingPlatform.Api
import BookingPlatform.StoreFacts
import BookingPlatform.Commits
import BookingPlatform.Obligations
import BookingPlatform.Effects
import BookingPlatform.Rejection
import BookingPlatform.Slots
import BookingPlatform.Calendar
import BookingPlatform.Lifecycle
import BookingPlatform.Record
import BookingPlatform.Alerts
import BookingPlatform.Outcomes
import BookingPlatform.Cancellation
import BookingPlatform.Acceptance
import BookingPlatform.Availability
import BookingPlatform.Access
import BookingPlatform.Pages
import BookingPlatform.Listing
import BookingPlatform.Reviewing
import BookingPlatform.Outsiders
import BookingPlatform.Faults
import BookingPlatform.Concurrency
import BookingPlatform.ReviewRace
import BookingPlatform.DisjointEdits
import BookingPlatform.DoubleBooking
import BookingPlatform.Finality
import BookingPlatform.JobQueue
import BookingPlatform.TornReads
import BookingPlatform.JobRecords
import BookingPlatform.JobLoss
import BookingPlatform.Accounts
import BookingPlatform.RegistrationRace
import BookingPlatform.Passwords
import BookingPlatform.SummaryAgreement
import BookingPlatform.Improvement
import BookingPlatform.JobExactness
import BookingPlatform.Scheduler
import BookingPlatform.Retry
import BookingPlatform.Transact.Relational
import BookingPlatform.Separation
import BookingPlatform.Commuting
import BookingPlatform.ReadState
import BookingPlatform.Enqueuing
import BookingPlatform.Strings.Json
import BookingPlatform.Strings.JsonWeight
import BookingPlatform.Strings.Words
import BookingPlatform.Origins
import BookingPlatform.Strings.Uuid
import BookingPlatform.WorkerPrefix
import BookingPlatform.Strings.Like
import BookingPlatform.Searching
import BookingPlatform.SchedulerLoop
import BookingPlatform.Number.Quotient
import BookingPlatform.Tokens
import BookingPlatform.Asgi.Layers
import BookingPlatform.Headers
import BookingPlatform.Integrity
import BookingPlatform.Isolation
import BookingPlatform.Feeds
import BookingPlatform.Sessions
import BookingPlatform.Strings.JsonDumps
import BookingPlatform.Strings.Dict
import BookingPlatform.Remote.Simulation
import BookingPlatform.TextRedis
import BookingPlatform.TextRecords
import BookingPlatform.Datetimes
import BookingPlatform.TextRefinement
import BookingPlatform.Transact.Failures
import BookingPlatform.Company
import BookingPlatform.Refusals
import BookingPlatform.InternalErrors
import BookingPlatform.Transact.Lockstep
import BookingPlatform.Rows.Veil
import BookingPlatform.Views
import BookingPlatform.Confidentiality
import BookingPlatform.Sql.Ddl
import BookingPlatform.Migrations
import BookingPlatform.HeadSchema
import BookingPlatform.Deployments
import BookingPlatform.Columns
