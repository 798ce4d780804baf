import BookingPlatform.Effects

/-!
# Rejected requests

What ends in an HTTP error has committed nothing, on whichever of its guards it was
refused and whatever it had staged or sent before.
-/

namespace BookingPlatform

set_option autoImplicit false

open Transact

/-- An authenticated request that is refused, its token included, changes nothing. -/
theorem serve_rejected {s : Store} {amb : Ambient} {caller : UUID} {request : Request}
    {code : Nat} {detail : String}
    (h : outcome s (serve amb caller request) = .error (.httpException code detail)) :
    leaves s (serve amb caller request) = s :=
  leaves_of_httpException (serve_wp amb caller request) h

theorem rejected_changes_nothing (s : Store) (amb : Ambient) (user : User) (code : Nat)
    (detail : String) :
    (∀ customerId bookingIn,
      outcome s (createBooking amb customerId bookingIn) = .error (.httpException code detail) →
        leaves s (createBooking amb customerId bookingIn) = s) ∧
    (∀ bookingId bookingUpdate,
      outcome s (updateBooking amb bookingId bookingUpdate user) =
          .error (.httpException code detail) →
        leaves s (updateBooking amb bookingId bookingUpdate user) = s) ∧
    (∀ bookingId,
      outcome s (cancelBooking amb bookingId user) = .error (.httpException code detail) →
        leaves s (cancelBooking amb bookingId user) = s) ∧
    (∀ bookingId,
      outcome s (deleteBooking amb bookingId user) = .error (.httpException code detail) →
        leaves s (deleteBooking amb bookingId user) = s) ∧
    (∀ reviewIn,
      outcome s (createReview amb user reviewIn) = .error (.httpException code detail) →
        leaves s (createReview amb user reviewIn) = s) ∧
    (∀ reviewId reviewUpdate,
      outcome s (updateReview reviewId reviewUpdate user) = .error (.httpException code detail) →
        leaves s (updateReview reviewId reviewUpdate user) = s) ∧
    (∀ reviewId,
      outcome s (deleteReview reviewId user) = .error (.httpException code detail) →
        leaves s (deleteReview reviewId user) = s) ∧
    (∀ notificationId,
      outcome s (markNotificationAsRead amb notificationId user.id) =
          .error (.httpException code detail) →
        leaves s (markNotificationAsRead amb notificationId user.id) = s) ∧
    (∀ userIn,
      outcome s (registerUser amb userIn) = .error (.httpException code detail) →
        leaves s (registerUser amb userIn) = s) := by
  refine ⟨fun customerId bookingIn h => ?_, fun bookingId bookingUpdate h => ?_,
    fun bookingId h => ?_, fun bookingId h => ?_, fun reviewIn h => ?_,
    fun reviewId reviewUpdate h => ?_, fun reviewId h => ?_, fun notificationId h => ?_,
    fun userIn h => ?_⟩
  · exact leaves_of_httpException (createBooking_wp rfl rfl amb customerId bookingIn) h
  · exact leaves_of_httpException (updateBooking_wp rfl rfl amb bookingId bookingUpdate user) h
  · exact leaves_of_httpException (cancelBooking_wp rfl rfl amb bookingId user) h
  · exact leaves_of_httpException (deleteBooking_wp rfl rfl amb bookingId user) h
  · exact leaves_of_httpException (createReview_wp rfl rfl amb user reviewIn) h
  · exact leaves_of_httpException (updateReview_wp rfl rfl reviewId reviewUpdate user) h
  · exact leaves_of_httpException (deleteReview_wp rfl rfl reviewId user) h
  · exact leaves_of_httpException (markNotificationAsRead_wp rfl rfl amb notificationId user.id) h
  · exact leaves_of_httpException (registerUser_wp rfl rfl amb userIn) h

/-- Two bookings of one provider, the second still PENDING. -/
def twoBooked : Store :=
  run newPlatform
    [.request (sampleAmbient 0 10) alice.id
        (.createBooking (slotOf hour (2 * hour) (by decide))),
      .request (sampleAmbient 0 11) bob.id
        (.createBooking (slotOf (2 * hour) (3 * hour) (by decide)))]

/-- Confirms and moves a booking in one PATCH. -/
def confirmAndMove (startTime endTime : Time) (h : startTime < endTime) : BookingUpdate :=
  { moveTo startTime endTime h with status := some .confirmed }

/-- A PATCH that has staged CONFIRMED and sent its notification, and is then refused. -/
theorem rejected_changes_nothing_confirm :
    leaves twoBooked (updateBooking (sampleAmbient 0 12) 11
      (confirmAndMove hour (3 * hour) (by decide)) paula) = twoBooked :=
  (rejected_changes_nothing twoBooked (sampleAmbient 0 12) paula 409
    "Provider has an overlapping booking for the requested time slot").2.1 11
    (confirmAndMove hour (3 * hour) (by decide)) (by rfl)

end BookingPlatform
