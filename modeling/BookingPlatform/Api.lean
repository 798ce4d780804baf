import BookingPlatform.Jobs
import BookingPlatform.Services.Review
import BookingPlatform.Services.Summary
import BookingPlatform.Services.Auth

/-!
# Requests, events and runs

A request is a route with its payload; the route resolves the caller first. A run
executes events one at a time, each in a session of its own.
-/

namespace BookingPlatform

set_option autoImplicit false

open Transact

inductive Request where
  | createBooking (bookingIn : BookingCreate)
  | getBooking (bookingId : UUID)
  | listBookings (status : Option BookingStatus) (skip limit : Nat)
  | updateBooking (bookingId : UUID) (bookingUpdate : BookingUpdate)
  | cancelBooking (bookingId : UUID)
  | deleteBooking (bookingId : UUID)
  | createReview (reviewIn : ReviewCreate)
  | getReview (reviewId : UUID)
  | listReviews (providerId : Option UUID) (rating : Option Int) (skip limit : Nat)
  | updateReview (reviewId : UUID) (reviewUpdate : ReviewUpdate)
  | deleteReview (reviewId : UUID)
  | listNotifications (skip limit : Nat) (unreadOnly : Bool)
  | markNotificationRead (notificationId : UUID)
  | markAllNotificationsRead
  | checkProviderAvailability (providerId : UUID) (startTime endTime : Time)
  | getProviderReviewSummary (providerId : UUID)

inductive Response where
  | user (user : User)
  | booking (booking : Booking)
  | bookings (bookings : List Booking)
  | review (review : Review)
  | reviews (reviews : List Review)
  | notification (notification : Notification)
  | notifications (notifications : List Notification)
  | availability (availability : ProviderAvailabilityResponse)
  | summary (summary : ProviderReviewSummary)
  | updatedCount (count : Nat)
  | noContent
  deriving DecidableEq, Repr

/-- The handler of a route, for the resolved caller. -/
def handle (amb : Ambient) (currentUser : User) : Request → Service Response
  | .createBooking bookingIn => .booking <$> createBooking amb currentUser.id bookingIn
  | .getBooking bookingId => .booking <$> getBookingById bookingId currentUser
  | .listBookings status skip limit => .bookings <$> listBookings currentUser status skip limit
  | .updateBooking bookingId bookingUpdate =>
    .booking <$> updateBooking amb bookingId bookingUpdate currentUser
  | .cancelBooking bookingId => .booking <$> cancelBooking amb bookingId currentUser
  | .deleteBooking bookingId => (fun _ => .noContent) <$> deleteBooking amb bookingId currentUser
  | .createReview reviewIn => .review <$> createReview amb currentUser reviewIn
  | .getReview reviewId => .review <$> getReviewById reviewId currentUser
  | .listReviews providerId rating skip limit =>
    .reviews <$> listReviews currentUser providerId rating skip limit
  | .updateReview reviewId reviewUpdate =>
    .review <$> updateReview reviewId reviewUpdate currentUser
  | .deleteReview reviewId => (fun _ => .noContent) <$> deleteReview reviewId currentUser
  | .listNotifications skip limit unreadOnly =>
    .notifications <$> listNotifications currentUser.id skip limit unreadOnly
  | .markNotificationRead notificationId =>
    .notification <$> markNotificationAsRead amb notificationId currentUser.id
  | .markAllNotificationsRead => .updatedCount <$> markAllAsRead amb currentUser.id
  | .checkProviderAvailability providerId startTime endTime => do
    Program.refuseIf (endTime ≤ startTime) (http 422 "end_time must be after start_time")
    .availability <$> checkProviderAvailability providerId startTime endTime
  | .getProviderReviewSummary providerId => .summary <$> getProviderReviewSummary providerId

def serve (amb : Ambient) (caller : UUID) (request : Request) : Service Response := do
  let currentUser ← getCurrentUser caller
  handle amb currentUser request

/-- What happens to the database: a request of an authenticated caller, a
registration, or a run of one of the two jobs. -/
inductive Event where
  | request (amb : Ambient) (caller : UUID) (request : Request)
  | register (amb : Ambient) (userIn : UserRegister)
  | reminderJob (amb : Ambient) (windowMinutes : Int)
  | overdueJob (amb : Ambient)

def Event.program : Event → Service Response
  | .request amb caller req => serve amb caller req
  | .register amb userIn => .user <$> registerUser amb userIn
  | .reminderJob amb windowMinutes => .updatedCount <$> runBookingReminderJob amb windowMinutes
  | .overdueJob amb => .updatedCount <$> runOverdueBookingJob amb

def outcome {α : Type} (s : Store) (p : Service α) : Except Error α := (p.exec (.fresh s)).1

/-- The committed store when the session of `p` has been closed. -/
def leaves {α : Type} (s : Store) (p : Service α) : Store := (p.exec (.fresh s)).2.committed

def step (s : Store) (e : Event) : Store := leaves s e.program

def run (s : Store) (events : List Event) : Store := events.foldl step s

@[simp] theorem run_nil (s : Store) : run s [] = s := rfl

theorem run_append (s : Store) (events more : List Event) :
    run s (events ++ more) = run (run s events) more := List.foldl_append

theorem run_snoc (s : Store) (events : List Event) (e : Event) :
    run s (events ++ [e]) = step (run s events) e := by
  simp [run]

section Sample

/-! Five users and no bookings, for the concrete runs of later modules. -/

def alice : User := ⟨1, "Alice", "alice@example.com", .customer, ""⟩

def bob : User := ⟨2, "Bob", "bob@example.com", .customer, ""⟩

def paula : User := ⟨3, "Paula", "paula@example.com", .provider, ""⟩

def quinn : User := ⟨5, "Quinn", "quinn@example.com", .provider, ""⟩

def dana : User := ⟨4, "Dana", "dana@example.com", .admin, ""⟩

def newPlatform : Store := ⟨⟨[alice, bob, paula, quinn, dana], [], [], []⟩, by decide⟩

def NotificationType.code : NotificationType → Nat
  | .bookingCreated => 0
  | .bookingConfirmed => 1
  | .bookingCancelled => 2
  | .bookingReminder => 3
  | .bookingCompleted => 4
  | .bookingOverdue => 5

/-- At `now`, with the next row named `uuid4` and notifications named after their key. -/
def sampleAmbient (now : Time) (uuid4 : UUID) : Ambient where
  now := now
  dbNow := now
  uuid4 := uuid4
  notificationId userId bookingId type :=
    BitVec.ofNat 128 (((bookingId.elim 0 BitVec.toNat) * 100 + userId.toNat) * 10 + type.code)
  strip := id
  lower := id
  sqlLower := id
  hashpw := .ok

def hour : Time := 3600000000

def slotOf (startTime endTime : Time) (h : startTime < endTime) : BookingCreate where
  providerId := paula.id
  serviceName := "Massage"
  startTime := startTime
  endTime := endTime
  nameLength := by decide
  timeRange := h

/-- `caller` books the hour of Paula's that starts then. -/
def booksAt (caller : User) (uuid4 : UUID) (startTime : Time) : Event :=
  .request (sampleAmbient 0 uuid4) caller.id
    (.createBooking (slotOf startTime (startTime + hour) (Int.lt_add_of_pos_right _ (by decide))))

theorem fiveStars : 1 ≤ (5 : Int) ∧ (5 : Int) ≤ 5 := by decide

theorem noComment : ∀ c ∈ (none : Option String), c.length ≤ 2000 := by simp

theorem noName : ∀ n ∈ (none : Option String), 1 ≤ n.length ∧ n.length ≤ 255 := by simp

def statusOnly (status : BookingStatus) : BookingUpdate where
  serviceName := none
  startTime := none
  endTime := none
  status := some status
  nameLength := by simp
  timeRange := by simp

def moveTo (startTime endTime : Time) (h : startTime < endTime) : BookingUpdate where
  serviceName := none
  startTime := some startTime
  endTime := some endTime
  status := none
  nameLength := by simp
  timeRange := by simpa using h

end Sample

end BookingPlatform
