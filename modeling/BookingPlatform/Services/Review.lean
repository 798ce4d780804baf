import BookingPlatform.Services.Notification

/-! The review service. -/

namespace BookingPlatform

set_option autoImplicit false

open Transact

def newReview (amb : Ambient) (booking : Booking) (customerId : UUID) (reviewIn : ReviewCreate) :
    Review where
  id := amb.uuid4
  bookingId := booking.id
  customerId := customerId
  providerId := booking.providerId
  rating := reviewIn.rating
  comment := reviewIn.comment
  createdAt := amb.dbNow

def createReview (amb : Ambient) (currentUser : User) (reviewIn : ReviewCreate) :
    Service Review := do
  Program.refuseIf (currentUser.role ≠ .customer)
    (http 403 "Only customers are permitted to submit reviews")
  let booking ← getOr404 (getBooking reviewIn.bookingId) "Booking not found"
  Program.refuseIf (booking.customerId ≠ currentUser.id)
    (http 403 "Not authorized to review this booking")
  Program.refuseIf (booking.status ≠ .completed)
    (http 400 ("Cannot review a booking with status '" ++ booking.status.value ++
      "'. Only completed bookings can be reviewed."))
  let existingReview : Option Review ←
    Program.select (D := platform) (.reviewOfBooking reviewIn.bookingId)
  Program.refuseIf existingReview.isSome (http 409 "A review already exists for this booking")
  commitOr409 [.insertReview (newReview amb booking currentUser.id reviewIn)]
    (getReview amb.uuid4) "A review already exists for this booking"

def Review.accessibleTo (review : Review) (user : User) : Prop :=
  user.role = .admin ∨ (user.role = .customer ∧ review.customerId = user.id) ∨
    (user.role = .provider ∧ review.providerId = user.id)

instance Review.decidableAccessibleTo (review : Review) (user : User) :
    Decidable (review.accessibleTo user) :=
  inferInstanceAs (Decidable (_ ∨ _ ∨ _))

def getReviewById (reviewId : UUID) (currentUser : User) : Service Review := do
  let review ← getOr404 (getReview reviewId) "Review not found"
  if review.accessibleTo currentUser then pure review
  else throw (http 403 "Not authorized to access this review")

def Review.visibleTo (review : Review) (user : User) : Bool :=
  match user.role with
  | .customer => review.customerId = user.id
  | .provider => review.providerId = user.id
  | .admin => true

def listReviews (currentUser : User) (providerId : Option UUID) (rating : Option Int)
    (skip limit : Nat) : Service (List Review) :=
  Program.select (D := platform)
    (.reviewsPage (fun r => r.visibleTo currentUser && (providerId.all fun p => r.providerId = p) &&
      rating.all fun x => r.rating = x) skip limit)

def Review.revised (review : Review) (reviewUpdate : ReviewUpdate) : Review :=
  { review with
    rating := reviewUpdate.rating.getD review.rating
    comment := reviewUpdate.comment.or review.comment }

def updateReview (reviewId : UUID) (reviewUpdate : ReviewUpdate) (currentUser : User) :
    Service Review := do
  let review ← getOr404 (getReview reviewId) "Review not found"
  Program.refuseIf (currentUser.role ≠ .customer ∨ review.customerId ≠ currentUser.id)
    (http 403 "Only the author customer may update this review")
  commitAndRefresh [.updateReview reviewId (review.changes (review.revised reviewUpdate))]
    (getReview reviewId)

def deleteReview (reviewId : UUID) (currentUser : User) : Service Unit := do
  let review ← getOr404 (getReview reviewId) "Review not found"
  Program.refuseIf (¬ (currentUser.role = .customer ∧ review.customerId = currentUser.id ∨
    currentUser.role = .admin)) (http 403 "Not authorized to delete this review")
  commitOrRollback [.deleteReview reviewId]

end BookingPlatform
