import BookingPlatform.Api
import BookingPlatform.StoreFacts

/-!
# What each event commits

The writes of the only transaction an event may commit, and what it must have been
told before. The vocabulary is shared by solitary runs, where the answers are those
of the store itself, and by interleavings, where they may be out of date.
-/

namespace BookingPlatform

set_option autoImplicit false

/-- Which answers a client has been given. -/
abbrev Knowledge := (q : Query) → q.Answer → Prop

section Bookings

def createdNote (amb : Ambient) (booking : Booking) : Notification :=
  amb.notification booking.providerId (some booking.id) .bookingCreated "New Booking Request"
    (createdMessage booking)

def cancelledNote (amb : Ambient) (booking : Booking) (userId : UUID) : Notification :=
  amb.notification userId (some booking.id) .bookingCancelled "Booking Cancelled"
    (cancellationMessage booking)

def cancellationNotes (amb : Ambient) (booking : Booking) (actor : User) : List Notification :=
  (if actor.id ≠ booking.customerId then [cancelledNote amb booking booking.customerId] else []) ++
    if actor.id ≠ booking.providerId then [cancelledNote amb booking booking.providerId] else []

def transitionNotes (amb : Ambient) (booking : Booking) (actor : User) : List Notification :=
  match booking.status with
  | .pending => []
  | .confirmed =>
    [amb.notification booking.customerId (some booking.id) .bookingConfirmed "Booking Confirmed"
      (confirmedMessage booking)]
  | .completed =>
    [amb.notification booking.customerId (some booking.id) .bookingCompleted "Booking Completed"
      (completedMessage booking)]
  | .cancelled => cancellationNotes amb booking actor

def BookingStatus.Terminal (s : BookingStatus) : Prop := s = .cancelled ∨ s = .completed

instance (s : BookingStatus) : Decidable s.Terminal := inferInstanceAs (Decidable (_ ∨ _))

structure Booked (amb : Ambient) (customerId : UUID) (bookingIn : BookingCreate)
    (K : Knowledge) (W : List Write) : Prop where
  notSelf : customerId ≠ bookingIn.providerId
  provider : ∃ p, K (.user bookingIn.providerId) (some p) ∧ p.id = bookingIn.providerId ∧
    p.role = .provider
  free : K (.conflict bookingIn.providerId bookingIn.startTime bookingIn.endTime none) none
  writes : W = [.insertBooking (newBooking amb customerId bookingIn),
    .insertNotification (createdNote amb (newBooking amb customerId bookingIn))]

/-- A status is kept, or moved along one transition the actor's role allows. -/
def StatusChange (amb : Ambient) (actor : User) (b : Booking) (status : BookingStatus)
    (notes : List Notification) : Prop :=
  (status = b.status ∧ notes = []) ∨
    (status ∈ validTransitions b.status ∧ actor.role ∈ roleAllowedTransitions b.status status ∧
      notes = transitionNotes amb { b with status := status } actor)

/-- The one way the three routes change a stored booking `b` into `b'`. -/
structure Edited (amb : Ambient) (bookingId : UUID) (actor : User) (b b' : Booking)
    (notes : List Notification) (K : Knowledge) (W : List Write) : Prop where
  told : K (.booking bookingId) (some b)
  key : b.id = bookingId
  access : b.accessibleTo actor
  nonterminal : ¬ b.status.Terminal
  status : StatusChange amb actor b b'.status notes
  schedule : (b'.startTime = b.startTime ∧ b'.endTime = b.endTime) ∨
    (b'.startTime < b'.endTime ∧
      K (.conflict b.providerId b'.startTime b'.endTime (some b.id)) none)
  sameId : b'.id = b.id
  sameCustomer : b'.customerId = b.customerId
  sameProvider : b'.providerId = b.providerId
  writes : W = inserts notes ++ [.updateBooking bookingId (b.changes b')]

/-- The row a PATCH leaves, when it goes through. -/
def BookingUpdate.applied (u : BookingUpdate) (b : Booking) : Booking :=
  { b with
    serviceName := u.serviceName.getD b.serviceName
    startTime := u.startTime.getD b.startTime
    endTime := u.endTime.getD b.endTime
    status := u.status.getD b.status }

end Bookings

section Reviews

structure Reviewed (amb : Ambient) (author : User) (reviewIn : ReviewCreate) (b : Booking)
    (K : Knowledge) (W : List Write) : Prop where
  told : K (.booking reviewIn.bookingId) (some b)
  key : b.id = reviewIn.bookingId
  role : author.role = .customer
  own : b.customerId = author.id
  completed : b.status = .completed
  first : K (.reviewOfBooking reviewIn.bookingId) none
  writes : W = [.insertReview (newReview amb b author.id reviewIn)]

structure Revised (reviewId : UUID) (author : User) (reviewUpdate : ReviewUpdate) (r : Review)
    (K : Knowledge) (W : List Write) : Prop where
  told : K (.review reviewId) (some r)
  key : r.id = reviewId
  role : author.role = .customer
  own : r.customerId = author.id
  writes : W = [.updateReview reviewId (r.changes (r.revised reviewUpdate))]

structure Withdrawn (reviewId : UUID) (actor : User) (r : Review) (K : Knowledge)
    (W : List Write) : Prop where
  told : K (.review reviewId) (some r)
  key : r.id = reviewId
  access : actor.role = .customer ∧ r.customerId = actor.id ∨ actor.role = .admin
  writes : W = [.deleteReview reviewId]

end Reviews

structure Acknowledged (amb : Ambient) (notificationId userId : UUID) (n : Notification)
    (K : Knowledge) (W : List Write) : Prop where
  told : K (.notification notificationId) (some n)
  key : n.id = notificationId
  own : n.userId = userId
  unread : n.isRead = false
  writes : W = [.readNotification notificationId amb.now]

structure Registered (amb : Ambient) (userIn : UserRegister) (hashedPw : String)
    (K : Knowledge) (W : List Write) : Prop where
  first : K (.usersByEmail amb.sqlLower (amb.lower (amb.strip userIn.email))) []
  hashed : amb.hashpw userIn.password = .ok hashedPw
  writes : W = [.insertUser (newUser amb userIn hashedPw)]

/-- What a job tells the two participants of `booking`. -/
def Notice.notes (notice : Notice) (amb : Ambient) (booking : Booking) : List Notification :=
  [amb.notification booking.customerId (some booking.id) notice.type notice.title
      (notice.customerMessage booking),
    amb.notification booking.providerId (some booking.id) notice.type notice.title
      (notice.providerMessage booking)]

structure Notified (amb : Ambient) (notice : Notice) (due : Booking → Bool)
    (rows : List Booking) (K : Knowledge) (W : List Write) : Prop where
  told : K (.bookings due) rows
  writes : W = inserts (rows.flatMap (notice.notes amb))

def Request.Commits (amb : Ambient) (actor : User) : Request → Knowledge → List Write → Prop
  | .createBooking bookingIn, K, W => Booked amb actor.id bookingIn K W
  | .updateBooking bookingId bookingUpdate, K, W => ∃ b notes,
    Edited amb bookingId actor b (bookingUpdate.applied b) notes K W
  | .cancelBooking bookingId, K, W => ∃ b notes,
    Edited amb bookingId actor b b.cancelled notes K W
  | .deleteBooking bookingId, K, W => ∃ b notes, b.status = .pending ∧ actor.role ≠ .provider ∧
    Edited amb bookingId actor b b.cancelled notes K W
  | .createReview reviewIn, K, W => ∃ b, Reviewed amb actor reviewIn b K W
  | .updateReview reviewId reviewUpdate, K, W => ∃ r, Revised reviewId actor reviewUpdate r K W
  | .deleteReview reviewId, K, W => ∃ r, Withdrawn reviewId actor r K W
  | .markNotificationRead notificationId, K, W => ∃ n,
    Acknowledged amb notificationId actor.id n K W
  | .markAllNotificationsRead, _, W => W = [.readAllNotifications actor.id amb.now]
  | _, _, _ => False

def Event.Commits : Event → Knowledge → List Write → Prop
  | .request amb caller req, K, W => ∃ actor, K (.user caller) (some actor) ∧
    actor.id = caller ∧ req.Commits amb actor K W
  | .register amb userIn, K, W => ∃ hashedPw, Registered amb userIn hashedPw K W
  | .reminderJob amb windowMinutes, K, W => ∃ rows,
    Notified amb reminderNotice (fun b => b.upcoming amb.now windowMinutes) rows K W
  | .overdueJob amb, K, W => ∃ rows,
    Notified amb overdueNotice (fun b => b.overdue amb.now) rows K W

/-- Requests that cannot succeed without a commit. -/
def Request.Writes : Request → Prop
  | .createBooking _ | .updateBooking .. | .cancelBooking _ | .deleteBooking _
  | .createReview _ | .updateReview .. | .deleteReview _ | .markAllNotificationsRead => True
  | _ => False

def Event.Writes : Event → Prop
  | .request _ _ req => req.Writes
  | _ => True

section Knowing
variable {K K' : Knowledge} {W : List Write} (hK : ∀ q a, K q a → K' q a)
include hK

theorem Booked.mono {amb : Ambient} {customerId : UUID} {bookingIn : BookingCreate}
    (h : Booked amb customerId bookingIn K W) : Booked amb customerId bookingIn K' W :=
  ⟨h.notSelf, h.provider.imp fun _ hp => ⟨hK _ _ hp.1, hp.2⟩, hK _ _ h.free, h.writes⟩

theorem Edited.mono {amb : Ambient} {bookingId : UUID} {actor : User} {b b' : Booking}
    {notes : List Notification} (h : Edited amb bookingId actor b b' notes K W) :
    Edited amb bookingId actor b b' notes K' W :=
  { h with
    told := hK _ _ h.told
    schedule := h.schedule.imp_right fun hs => ⟨hs.1, hK _ _ hs.2⟩ }

theorem Request.Commits.mono {amb : Ambient} {actor : User} {request : Request}
    (h : request.Commits amb actor K W) : request.Commits amb actor K' W := by
  cases request with
  | createBooking bookingIn => exact Booked.mono hK h
  | updateBooking bookingId bookingUpdate =>
    obtain ⟨b, notes, h⟩ := h
    exact ⟨b, notes, h.mono hK⟩
  | cancelBooking bookingId =>
    obtain ⟨b, notes, h⟩ := h
    exact ⟨b, notes, h.mono hK⟩
  | deleteBooking bookingId =>
    obtain ⟨b, notes, hpending, hrole, h⟩ := h
    exact ⟨b, notes, hpending, hrole, h.mono hK⟩
  | createReview reviewIn =>
    obtain ⟨b, h⟩ := h
    exact ⟨b, { h with told := hK _ _ h.told, first := hK _ _ h.first }⟩
  | updateReview reviewId reviewUpdate =>
    obtain ⟨r, h⟩ := h
    exact ⟨r, { h with told := hK _ _ h.told }⟩
  | deleteReview reviewId =>
    obtain ⟨r, h⟩ := h
    exact ⟨r, { h with told := hK _ _ h.told }⟩
  | markNotificationRead notificationId =>
    obtain ⟨n, h⟩ := h
    exact ⟨n, { h with told := hK _ _ h.told }⟩
  | markAllNotificationsRead => exact h
  | _ => exact h.elim

theorem Event.Commits.mono {e : Event} (h : e.Commits K W) : e.Commits K' W := by
  cases e with
  | request amb caller req =>
    obtain ⟨actor, hactor, hid, h⟩ := h
    exact ⟨actor, hK _ _ hactor, hid, h.mono hK⟩
  | register amb userIn =>
    obtain ⟨hashedPw, h⟩ := h
    exact ⟨hashedPw, { h with first := hK _ _ h.first }⟩
  | reminderJob amb windowMinutes =>
    obtain ⟨rows, h⟩ := h
    exact ⟨rows, { h with told := hK _ _ h.told }⟩
  | overdueJob amb =>
    obtain ⟨rows, h⟩ := h
    exact ⟨rows, { h with told := hK _ _ h.told }⟩

end Knowing

end BookingPlatform
