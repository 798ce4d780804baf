import Mathlib.Data.List.Nodup
import Mathlib.Order.Basic

/-!
# Rows, declared constraints and payloads

The four tables with the columns some service reads, the constraints declared on
them, and the request payloads as their schemas admit them. A `Store` is a set of
tables on which every declared constraint holds, so no other can be built.
-/

namespace BookingPlatform

set_option autoImplicit false

abbrev UUID := BitVec 128

/-- Microseconds of UTC since the epoch: every stored timestamp is timezone-aware. -/
abbrev Time := Int

inductive UserRole where
  | admin
  | provider
  | customer
  deriving DecidableEq, Repr

inductive BookingStatus where
  | pending
  | confirmed
  | completed
  | cancelled
  deriving DecidableEq, Repr

def BookingStatus.value : BookingStatus → String
  | .pending => "pending"
  | .confirmed => "confirmed"
  | .completed => "completed"
  | .cancelled => "cancelled"

inductive NotificationType where
  | bookingCreated
  | bookingConfirmed
  | bookingCancelled
  | bookingReminder
  | bookingCompleted
  | bookingOverdue
  deriving DecidableEq, Repr

structure User where
  id : UUID
  name : String
  email : String
  role : UserRole
  passwordHash : String
  deriving DecidableEq, Repr

structure Booking where
  id : UUID
  customerId : UUID
  providerId : UUID
  serviceName : String
  startTime : Time
  endTime : Time
  status : BookingStatus
  deriving DecidableEq, Repr

structure Review where
  id : UUID
  bookingId : UUID
  customerId : UUID
  providerId : UUID
  rating : Int
  comment : Option String
  createdAt : Time
  deriving DecidableEq, Repr

structure Notification where
  id : UUID
  userId : UUID
  bookingId : Option UUID
  type : NotificationType
  title : String
  message : String
  isRead : Bool
  createdAt : Time
  readAt : Option Time
  deriving DecidableEq, Repr

/-- `uq_notifications_user_booking_type`; as always in SQL, rows without a booking
are never equal under it. -/
def Notification.SameKey (m n : Notification) : Prop :=
  m.userId = n.userId ∧ m.bookingId = n.bookingId ∧ m.bookingId ≠ none ∧ m.type = n.type

instance (m n : Notification) : Decidable (m.SameKey n) :=
  inferInstanceAs (Decidable (_ ∧ _ ∧ _ ∧ _))

structure Tables where
  users : List User
  bookings : List Booking
  reviews : List Review
  notifications : List Notification
  deriving DecidableEq, Repr

/-- Primary keys, unique constraints, foreign keys and checks, as declared. -/
structure Constraints (t : Tables) : Prop where
  usersKey : (t.users.map User.id).Nodup
  usersEmail : (t.users.map User.email).Nodup
  bookingsKey : (t.bookings.map Booking.id).Nodup
  bookingsCustomer : ∀ b ∈ t.bookings, ∃ u ∈ t.users, u.id = b.customerId
  bookingsProvider : ∀ b ∈ t.bookings, ∃ u ∈ t.users, u.id = b.providerId
  checkBookingEndAfterStart : ∀ b ∈ t.bookings, b.startTime < b.endTime
  checkBookingCustomerNotProvider : ∀ b ∈ t.bookings, b.customerId ≠ b.providerId
  reviewsKey : (t.reviews.map Review.id).Nodup
  reviewsBookingUnique : (t.reviews.map Review.bookingId).Nodup
  reviewsBooking : ∀ r ∈ t.reviews, ∃ b ∈ t.bookings, b.id = r.bookingId
  reviewsCustomer : ∀ r ∈ t.reviews, ∃ u ∈ t.users, u.id = r.customerId
  reviewsProvider : ∀ r ∈ t.reviews, ∃ u ∈ t.users, u.id = r.providerId
  checkReviewRatingRange : ∀ r ∈ t.reviews, 1 ≤ r.rating ∧ r.rating ≤ 5
  notificationsKey : (t.notifications.map Notification.id).Nodup
  notificationsUser : ∀ n ∈ t.notifications, ∃ u ∈ t.users, u.id = n.userId
  notificationsBooking : ∀ n ∈ t.notifications,
    n.bookingId = none ∨ ∃ b ∈ t.bookings, n.bookingId = some b.id
  uqNotificationsUserBookingType : t.notifications.Pairwise fun m n => ¬ m.SameKey n

instance (t : Tables) : Decidable (Constraints t) :=
  decidable_of_iff
    (((t.users.map User.id).Nodup ∧ (t.users.map User.email).Nodup ∧
      (t.bookings.map Booking.id).Nodup ∧
      (∀ b ∈ t.bookings, ∃ u ∈ t.users, u.id = b.customerId) ∧
      (∀ b ∈ t.bookings, ∃ u ∈ t.users, u.id = b.providerId) ∧
      (∀ b ∈ t.bookings, b.startTime < b.endTime) ∧
      (∀ b ∈ t.bookings, b.customerId ≠ b.providerId)) ∧
    ((t.reviews.map Review.id).Nodup ∧ (t.reviews.map Review.bookingId).Nodup ∧
      (∀ r ∈ t.reviews, ∃ b ∈ t.bookings, b.id = r.bookingId) ∧
      (∀ r ∈ t.reviews, ∃ u ∈ t.users, u.id = r.customerId) ∧
      (∀ r ∈ t.reviews, ∃ u ∈ t.users, u.id = r.providerId) ∧
      (∀ r ∈ t.reviews, 1 ≤ r.rating ∧ r.rating ≤ 5)) ∧
    ((t.notifications.map Notification.id).Nodup ∧
      (∀ n ∈ t.notifications, ∃ u ∈ t.users, u.id = n.userId) ∧
      (∀ n ∈ t.notifications, n.bookingId = none ∨ ∃ b ∈ t.bookings, n.bookingId = some b.id) ∧
      t.notifications.Pairwise fun m n => ¬ m.SameKey n))
    ⟨fun ⟨⟨a, b, c, d, e, f, g⟩, ⟨h, i, j, k, l, m⟩, n, o, p, q⟩ =>
        ⟨a, b, c, d, e, f, g, h, i, j, k, l, m, n, o, p, q⟩,
      fun ⟨a, b, c, d, e, f, g, h, i, j, k, l, m, n, o, p, q⟩ =>
        ⟨⟨a, b, c, d, e, f, g⟩, ⟨h, i, j, k, l, m⟩, n, o, p, q⟩⟩

structure Store extends Tables where
  sound : Constraints toTables

section Payloads

/-- `end_time <= start_time` is refused by `validate_booking_rules`. -/
structure BookingCreate where
  providerId : UUID
  serviceName : String
  startTime : Time
  endTime : Time
  nameLength : 1 ≤ serviceName.length ∧ serviceName.length ≤ 255
  timeRange : startTime < endTime

/-- Every field is optional; `validate_time_range` compares the two bounds only
when both are given. -/
structure BookingUpdate where
  serviceName : Option String
  startTime : Option Time
  endTime : Option Time
  status : Option BookingStatus
  nameLength : ∀ n ∈ serviceName, 1 ≤ n.length ∧ n.length ≤ 255
  timeRange : ∀ s ∈ startTime, ∀ e ∈ endTime, s < e

structure ReviewCreate where
  bookingId : UUID
  rating : Int
  comment : Option String
  ratingRange : 1 ≤ rating ∧ rating ≤ 5
  commentLength : ∀ c ∈ comment, c.length ≤ 2000

structure ReviewUpdate where
  rating : Option Int
  comment : Option String
  ratingRange : ∀ r ∈ rating, 1 ≤ r ∧ r ≤ 5
  commentLength : ∀ c ∈ comment, c.length ≤ 2000

/-- The payload after validation: the email is already trimmed and lower-cased. -/
structure UserRegister where
  name : String
  email : String
  password : String

end Payloads

end BookingPlatform
