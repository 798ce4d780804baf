import BookingPlatform.Services.Booking

/-! # The background jobs, and the timestamps their messages print -/

namespace BookingPlatform

set_option autoImplicit false

open Transact

section Isoformat

/-- The last `width` decimal digits of `n`, zero-padded. -/
def digits : Nat → Nat → List Char
  | 0, _ => []
  | width + 1, n => digits width (n / 10) ++ [Nat.digitChar (n % 10)]

/-- Year, month and day of a number of days since 1970-01-01, in the proleptic
Gregorian calendar; years are counted from March inside an era of 400 years. -/
def civil (days : Int) : Nat × Nat × Nat :=
  let z := days + 719468
  let era := z / 146097
  let doe := (z % 146097).toNat
  let yoe := (doe - doe / 1460 + doe / 36524 - doe / 146096) / 365
  let doy := doe - (365 * yoe + yoe / 4 - yoe / 100)
  let mp := (5 * doy + 2) / 153
  let day := doy - (153 * mp + 2) / 5 + 1
  let month := if mp < 10 then mp + 3 else mp - 9
  let year := (era * 400 + yoe).toNat + if month ≤ 2 then 1 else 0
  (year, month, day)

/-- `datetime.isoformat()` of a timestamp in UTC; microseconds are printed only
when there are some. -/
def isoformatChars (t : Time) : List Char :=
  let (year, month, day) := civil (t / 86400000000)
  let micros := (t % 86400000000).toNat
  let seconds := micros / 1000000
  digits 4 year ++ ['-'] ++ digits 2 month ++ ['-'] ++ digits 2 day ++ ['T'] ++
    digits 2 (seconds / 3600) ++ [':'] ++ digits 2 (seconds / 60 % 60) ++ [':'] ++
    digits 2 (seconds % 60) ++
    (if micros % 1000000 = 0 then [] else '.' :: digits 6 (micros % 1000000)) ++
    ['+', '0', '0', ':', '0', '0']

def isoformat (t : Time) : String := String.ofList (isoformatChars t)

example : isoformat 1789207200000000 = "2026-09-12T10:00:00+00:00" := by decide

end Isoformat

/-- What one job tells the two participants of a booking. -/
structure Notice where
  type : NotificationType
  title : String
  customerMessage : Booking → String
  providerMessage : Booking → String

/-- The loop of both jobs: two inserts for each booking, counting the new rows. -/
def notifyParticipants (amb : Ambient) (notice : Notice) : List Booking → Nat → Service Nat
  | [], createdCount => pure createdCount
  | booking :: bookings, createdCount => do
    let custNotif ← createNotification amb booking.customerId (some booking.id) notice.type
      notice.title (notice.customerMessage booking)
    let createdCount := if custNotif.isSome then createdCount + 1 else createdCount
    let provNotif ← createNotification amb booking.providerId (some booking.id) notice.type
      notice.title (notice.providerMessage booking)
    let createdCount := if provNotif.isSome then createdCount + 1 else createdCount
    notifyParticipants amb notice bookings createdCount

def reminderNotice : Notice where
  type := .bookingReminder
  title := "Upcoming Booking Reminder"
  customerMessage booking :=
    "Reminder: You have an upcoming booking for " ++ booking.serviceName ++ " at " ++
      isoformat booking.startTime ++ "."
  providerMessage booking :=
    "Reminder: You have an upcoming service for " ++ booking.serviceName ++ " scheduled at " ++
      isoformat booking.startTime ++ "."

def overdueNotice : Notice where
  type := .bookingOverdue
  title := "Booking Overdue"
  customerMessage booking :=
    "Your booking for " ++ booking.serviceName ++ " ended at " ++
      isoformat booking.endTime ++ " and is overdue."
  providerMessage booking :=
    "The booking for " ++ booking.serviceName ++ " ended at " ++
      isoformat booking.endTime ++ " and requires completion."

/-- CONFIRMED with `now < start_time <= now + window`. -/
def Booking.upcoming (booking : Booking) (now : Time) (windowMinutes : Int) : Prop :=
  booking.status = .confirmed ∧ now < booking.startTime ∧
    booking.startTime ≤ now + windowMinutes * 60000000

instance (booking : Booking) (now : Time) (w : Int) : Decidable (booking.upcoming now w) :=
  inferInstanceAs (Decidable (_ ∧ _ ∧ _))

/-- CONFIRMED with `end_time < now`. -/
def Booking.overdue (booking : Booking) (now : Time) : Prop :=
  booking.status = .confirmed ∧ booking.endTime < now

instance (booking : Booking) (now : Time) : Decidable (booking.overdue now) :=
  inferInstanceAs (Decidable (_ ∧ _))

/-- The frame of both jobs: select, notify, commit, return the count. -/
def runNotificationJob (amb : Ambient) (notice : Notice) (due : Booking → Bool) :
    Service Nat := do
  let bookings : List Booking ← Program.select (D := platform) (.bookings due)
  let createdCount ← notifyParticipants amb notice bookings 0
  Program.commitAll (D := platform) []
  pure createdCount

def runBookingReminderJob (amb : Ambient) (reminderWindowMinutes : Int) : Service Nat :=
  runNotificationJob amb reminderNotice fun b => b.upcoming amb.now reminderWindowMinutes

def runOverdueBookingJob (amb : Ambient) : Service Nat :=
  runNotificationJob amb overdueNotice fun b => b.overdue amb.now

end BookingPlatform
