import BookingPlatform.Schema
import BookingPlatform.Transact.Program
import Mathlib.Algebra.Ring.Int.Defs
import Mathlib.Data.List.Sort
import Mathlib.Data.Rat.Defs

/-!
# The statements the services send

Every SELECT, INSERT, UPDATE and DELETE of the services, over the tables, and the
database they make. A statement that would break a declared constraint raises
IntegrityError and changes nothing.
-/

namespace BookingPlatform

set_option autoImplicit false

open Transact

/-- What a service can raise. Anything but an HTTPException reaches the client as
a 500 through `unhandled_exception_handler`. -/
inductive Error where
  | httpException (statusCode : Nat) (detail : String)
  | integrityError
  | operationalError
  | staleDataError
  | invalidRequestError
  | multipleResultsFound
  | valueError (message : String)
  deriving DecidableEq, Repr

def Error.statusCode : Error → Nat
  | .httpException code _ => code
  | _ => 500

/-- The columns an ORM UPDATE writes: those whose value has changed. -/
structure BookingChanges where
  serviceName : Option String
  startTime : Option Time
  endTime : Option Time
  status : Option BookingStatus
  deriving DecidableEq, Repr

structure ReviewChanges where
  rating : Option Int
  comment : Option (Option String)
  deriving DecidableEq, Repr

def changed {α : Type} [DecidableEq α] (loaded assigned : α) : Option α :=
  if assigned = loaded then none else some assigned

def Booking.changes (loaded assigned : Booking) : BookingChanges where
  serviceName := changed loaded.serviceName assigned.serviceName
  startTime := changed loaded.startTime assigned.startTime
  endTime := changed loaded.endTime assigned.endTime
  status := changed loaded.status assigned.status

def Booking.patch (b : Booking) (c : BookingChanges) : Booking :=
  { b with
    serviceName := c.serviceName.getD b.serviceName
    startTime := c.startTime.getD b.startTime
    endTime := c.endTime.getD b.endTime
    status := c.status.getD b.status }

def Review.changes (loaded assigned : Review) : ReviewChanges where
  rating := changed loaded.rating assigned.rating
  comment := changed loaded.comment assigned.comment

def Review.patch (r : Review) (c : ReviewChanges) : Review :=
  { r with
    rating := c.rating.getD r.rating
    comment := c.comment.getD r.comment }

/-- `where` clauses are predicates on rows; a page has OFFSET and LIMIT. -/
inductive Query where
  | user (id : UUID)
  | booking (id : UUID)
  | review (id : UUID)
  | notification (id : UUID)
  | conflict (providerId : UUID) (startTime endTime : Time) (exclude : Option UUID)
  | bookings (filter : Booking → Bool)
  | bookingsPage (filter : Booking → Bool) (skip limit : Nat)
  | reviewOfBooking (bookingId : UUID)
  | reviewsPage (filter : Review → Bool) (skip limit : Nat)
  | reviewStats (providerId : UUID)
  | ratingCounts (providerId : UUID)
  | notificationsPage (filter : Notification → Bool) (skip limit : Nat)
  | usersByEmail (lower : String → String) (email : String)
  | usersPage (filter : User → Bool) (collation : LinearOrder String) (skip limit : Nat)

abbrev Query.Answer : Query → Type
  | .user _ => Option User
  | .booking _ => Option Booking
  | .review _ => Option Review
  | .notification _ => Option Notification
  | .conflict .. => Option UUID
  | .bookings _ => List Booking
  | .bookingsPage .. => List Booking
  | .reviewOfBooking _ => Option Review
  | .reviewsPage .. => List Review
  | .reviewStats _ => Nat × Option ℚ
  | .ratingCounts _ => List (Int × Nat)
  | .notificationsPage .. => List Notification
  | .usersByEmail .. => List User
  | .usersPage .. => List User

/-- `existing.start < requested.end AND existing.end > requested.start`, of an
active booking of the provider. -/
def Booking.conflictsWith (b : Booking) (providerId : UUID) (startTime endTime : Time)
    (exclude : Option UUID) : Prop :=
  b.providerId = providerId ∧ b.status ≠ .cancelled ∧
    b.startTime < endTime ∧ startTime < b.endTime ∧ some b.id ≠ exclude

instance (b : Booking) (p : UUID) (s e : Time) (x : Option UUID) :
    Decidable (b.conflictsWith p s e x) :=
  inferInstanceAs (Decidable (_ ∧ _ ∧ _ ∧ _ ∧ _))

/-- `ORDER BY start_time ASC, id ASC`. -/
def Booking.listedBefore (a b : Booking) : Prop :=
  a.startTime < b.startTime ∨ (a.startTime = b.startTime ∧ a.id ≤ b.id)

instance : DecidableRel Booking.listedBefore := fun a b =>
  inferInstanceAs
    (Decidable (a.startTime < b.startTime ∨ (a.startTime = b.startTime ∧ a.id ≤ b.id)))

/-- `ORDER BY created_at DESC, id DESC`. -/
def Review.listedBefore (a b : Review) : Prop :=
  b.createdAt < a.createdAt ∨ (a.createdAt = b.createdAt ∧ b.id ≤ a.id)

instance : DecidableRel Review.listedBefore := fun a b =>
  inferInstanceAs
    (Decidable (b.createdAt < a.createdAt ∨ (a.createdAt = b.createdAt ∧ b.id ≤ a.id)))

def Notification.listedBefore (a b : Notification) : Prop :=
  b.createdAt < a.createdAt ∨ (a.createdAt = b.createdAt ∧ b.id ≤ a.id)

instance : DecidableRel Notification.listedBefore := fun a b =>
  inferInstanceAs
    (Decidable (b.createdAt < a.createdAt ∨ (a.createdAt = b.createdAt ∧ b.id ≤ a.id)))

/-- `ORDER BY name ASC, id ASC`; the collation orders the texts. -/
def User.listedBefore (collation : LinearOrder String) (a b : User) : Prop :=
  collation.lt a.name b.name ∨ (a.name = b.name ∧ a.id ≤ b.id)

instance (collation : LinearOrder String) : DecidableRel (User.listedBefore collation) :=
  fun a b =>
    haveI : Decidable (collation.lt a.name b.name) := collation.toDecidableLT a.name b.name
    inferInstanceAs (Decidable (collation.lt a.name b.name ∨ (a.name = b.name ∧ a.id ≤ b.id)))

/-- `avg(...)`, which is NULL over no rows. -/
def average (values : List Int) : Option ℚ :=
  if values = [] then none else some (values.sum / values.length)

/-- `count(...)` for each value, with `GROUP BY`. -/
def groupCounts (values : List Int) : List (Int × Nat) :=
  values.dedup.map fun v => (v, values.count v)

namespace Tables

def user? (t : Tables) (id : UUID) : Option User := t.users.find? fun u => u.id = id

def booking? (t : Tables) (id : UUID) : Option Booking := t.bookings.find? fun b => b.id = id

def review? (t : Tables) (id : UUID) : Option Review := t.reviews.find? fun r => r.id = id

def notification? (t : Tables) (id : UUID) : Option Notification :=
  t.notifications.find? fun n => n.id = id

def ratingsOf (t : Tables) (providerId : UUID) : List Int :=
  (t.reviews.filter fun r => r.providerId = providerId).map Review.rating

def answer (t : Tables) : (q : Query) → q.Answer
  | .user id => t.user? id
  | .booking id => t.booking? id
  | .review id => t.review? id
  | .notification id => t.notification? id
  | .conflict p s e x => (t.bookings.find? fun b => b.conflictsWith p s e x).map Booking.id
  | .bookings f => t.bookings.filter f
  | .bookingsPage f skip limit =>
    (((t.bookings.filter f).insertionSort Booking.listedBefore).drop skip).take limit
  | .reviewOfBooking id => t.reviews.find? fun r => r.bookingId = id
  | .reviewsPage f skip limit =>
    (((t.reviews.filter f).insertionSort Review.listedBefore).drop skip).take limit
  | .reviewStats p => ((t.ratingsOf p).length, average (t.ratingsOf p))
  | .ratingCounts p => groupCounts (t.ratingsOf p)
  | .notificationsPage f skip limit =>
    (((t.notifications.filter f).insertionSort Notification.listedBefore).drop skip).take limit
  | .usersByEmail lower email => t.users.filter fun u => lower u.email = email
  | .usersPage f collation skip limit =>
    (((t.users.filter f).insertionSort (User.listedBefore collation)).drop skip).take limit

end Tables

inductive Write where
  | insertUser (u : User)
  | insertBooking (b : Booking)
  | updateBooking (id : UUID) (c : BookingChanges)
  | insertReview (r : Review)
  | updateReview (id : UUID) (c : ReviewChanges)
  | deleteReview (id : UUID)
  | insertNotification (n : Notification)
  | readNotification (id : UUID) (readAt : Time)
  | readAllNotifications (userId : UUID) (readAt : Time)

/-- `RETURNING` for the notification insert, the row count for the bulk UPDATE. -/
abbrev Write.Result : Write → Type
  | .insertNotification _ => Option Notification
  | .readAllNotifications .. => Nat
  | _ => Unit

namespace Tables

/-- ON CONFLICT DO NOTHING, on the named unique constraint only. -/
def addNotification (rows : List Notification) (n : Notification) : List Notification :=
  if ∃ m ∈ rows, m.SameKey n then rows else rows ++ [n]

def unreadOf (userId : UUID) (n : Notification) : Bool := n.userId = userId && !n.isRead

/-- The tables after a statement, were there no constraints. -/
def after (t : Tables) : Write → Tables
  | .insertUser u => { t with users := t.users ++ [u] }
  | .insertBooking b => { t with bookings := t.bookings ++ [b] }
  | .updateBooking id c =>
    { t with bookings := t.bookings.map fun b => if b.id = id then b.patch c else b }
  | .insertReview r => { t with reviews := t.reviews ++ [r] }
  | .updateReview id c =>
    { t with reviews := t.reviews.map fun r => if r.id = id then r.patch c else r }
  | .deleteReview id => { t with reviews := t.reviews.filter fun r => r.id ≠ id }
  | .insertNotification n => { t with notifications := addNotification t.notifications n }
  | .readNotification id readAt =>
    { t with notifications := t.notifications.map fun n =>
        if n.id = id then { n with isRead := true, readAt := some readAt } else n }
  | .readAllNotifications userId readAt =>
    { t with notifications := t.notifications.map fun n =>
        if unreadOf userId n then { n with isRead := true, readAt := some readAt } else n }

def result (t : Tables) : (w : Write) → w.Result
  | .insertUser _ => ()
  | .insertBooking _ => ()
  | .updateBooking .. => ()
  | .insertReview _ => ()
  | .updateReview .. => ()
  | .deleteReview _ => ()
  | .insertNotification n => if ∃ m ∈ t.notifications, m.SameKey n then none else some n
  | .readNotification .. => ()
  | .readAllNotifications userId _ => t.notifications.countP (unreadOf userId)

/-- An ORM UPDATE that finds its row gone raises StaleDataError; one without
changed columns is not sent. -/
def stale (t : Tables) : Write → Bool
  | .updateBooking id c => c ≠ ⟨none, none, none, none⟩ ∧ t.booking? id = none
  | .updateReview id c => c ≠ ⟨none, none⟩ ∧ t.review? id = none
  | .readNotification id _ => t.notification? id = none
  | _ => false

end Tables

def Store.apply (w : Write) (s : Store) : Except Error (w.Result × Store) :=
  if s.stale w then .error .staleDataError
  else if h : Constraints (s.after w) then .ok (s.result w, ⟨s.after w, h⟩)
  else .error .integrityError

abbrev platform : Database where
  Store := Store
  Query := Query
  Answer := Query.Answer
  Write := Write
  Result := Write.Result
  Error := Error
  answer := fun q s => s.answer q
  apply := Store.apply

abbrev Service (α : Type) := Program platform α

/-- What one request draws from its surroundings: the two clocks, the uuid4 of the
row it creates, the uuid4 of each notification it may insert (one per user, booking
and type), the text operations of Python and of the database, and bcrypt. -/
structure Ambient where
  now : Time
  dbNow : Time
  uuid4 : UUID
  notificationId : UUID → Option UUID → NotificationType → UUID
  strip : String → String
  lower : String → String
  sqlLower : String → String
  hashpw : String → Except Error String

def http (statusCode : Nat) (detail : String) : Error := .httpException statusCode detail

end BookingPlatform
