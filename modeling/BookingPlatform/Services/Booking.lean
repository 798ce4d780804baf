import BookingPlatform.Services.Provider

/-!
# The booking service

Staged attributes of a loaded row live in the session until the commit writes the
changed ones; notification inserts are sent at once, inside the same transaction.
-/

namespace BookingPlatform

set_option autoImplicit false

open Transact

def validTransitions : BookingStatus → List BookingStatus
  | .pending => [.confirmed, .cancelled]
  | .confirmed => [.completed, .cancelled]
  | .completed => []
  | .cancelled => []

def roleAllowedTransitions : BookingStatus → BookingStatus → List UserRole
  | .pending, .confirmed => [.provider, .admin]
  | .pending, .cancelled => [.customer, .provider, .admin]
  | .confirmed, .completed => [.provider, .admin]
  | .confirmed, .cancelled => [.customer, .provider, .admin]
  | _, _ => []

def confirmedMessage (booking : Booking) : String :=
  "Your booking for " ++ booking.serviceName ++ " has been confirmed."

def completedMessage (booking : Booking) : String :=
  "Your booking for " ++ booking.serviceName ++ " has been completed."

def cancellationMessage (booking : Booking) : String :=
  "Booking for " ++ booking.serviceName ++ " has been cancelled."

def notifyCancelled (amb : Ambient) (booking : Booking) (userId : UUID) : Service Unit := do
  let _ ← createNotification amb userId (some booking.id) .bookingCancelled
    "Booking Cancelled" (cancellationMessage booking)
  pure ()

def notifyCancellation (amb : Ambient) (booking : Booking) (actor : User) : Service Unit := do
  Program.runIf (actor.id ≠ booking.customerId) (notifyCancelled amb booking booking.customerId)
  Program.runIf (actor.id ≠ booking.providerId) (notifyCancelled amb booking booking.providerId)

def validateStatusTransition (currentStatus targetStatus : BookingStatus) (userRole : UserRole) :
    Except Error Unit :=
  if currentStatus = .cancelled then
    if targetStatus = .cancelled then .error (http 400 "Booking is already cancelled")
    else .error (http 400 "Cannot modify a cancelled booking")
  else if currentStatus = .completed then
    if targetStatus = .cancelled then
      .error (http 400 "Cannot cancel an already completed booking")
    else .error (http 400 "Cannot modify a completed booking")
  else if targetStatus = currentStatus then .ok ()
  else if targetStatus ∉ validTransitions currentStatus then
    .error (http 400 ("Cannot transition booking status from '" ++ currentStatus.value ++
      "' to '" ++ targetStatus.value ++ "'"))
  else if userRole ∉ roleAllowedTransitions currentStatus targetStatus then
    if userRole = .customer ∧ (targetStatus = .confirmed ∨ targetStatus = .completed) then
      .error (http 403 "Customers are not permitted to confirm or complete bookings")
    else .error (http 403 "Insufficient permissions to execute this status transition")
  else .ok ()

def checkProviderConflict (providerId : UUID) (startTime endTime : Time)
    (excludeBookingId : Option UUID) : Service Unit := do
  let available ← isProviderAvailable providerId startTime endTime excludeBookingId
  Program.refuseIf (¬ available)
    (http 409 "Provider has an overlapping booking for the requested time slot")

def newBooking (amb : Ambient) (customerId : UUID) (bookingIn : BookingCreate) : Booking where
  id := amb.uuid4
  customerId := customerId
  providerId := bookingIn.providerId
  serviceName := bookingIn.serviceName
  startTime := bookingIn.startTime
  endTime := bookingIn.endTime
  status := .pending

def createdMessage (booking : Booking) : String :=
  "A new booking request for " ++ booking.serviceName ++ " has been submitted."

def createBooking (amb : Ambient) (customerId : UUID) (bookingIn : BookingCreate) :
    Service Booking := do
  Program.refuseIf (customerId = bookingIn.providerId)
    (http 400 "Customer cannot book themselves as a provider")
  let provider ← getOr404 (getUser bookingIn.providerId) "Provider not found"
  Program.refuseIf (provider.role ≠ .provider)
    (http 400 "Selected user is not registered as a service provider")
  checkProviderConflict bookingIn.providerId bookingIn.startTime bookingIn.endTime none
  -- `db.flush()` sends the INSERT before the notification that refers to it.
  let _ ← Program.send (D := platform) (.insertBooking (newBooking amb customerId bookingIn))
  let _ ← createNotification amb bookingIn.providerId (some amb.uuid4) .bookingCreated
    "New Booking Request" (createdMessage (newBooking amb customerId bookingIn))
  commitAndRefresh [] (getBooking amb.uuid4)

/-- An admin, the customer in role CUSTOMER or the provider in role PROVIDER. -/
def Booking.accessibleTo (booking : Booking) (user : User) : Prop :=
  user.role = .admin ∨ (user.role = .customer ∧ booking.customerId = user.id) ∨
    (user.role = .provider ∧ booking.providerId = user.id)

instance Booking.decidableAccessibleTo (booking : Booking) (user : User) :
    Decidable (booking.accessibleTo user) :=
  inferInstanceAs (Decidable (_ ∨ _ ∨ _))

def getBookingById (bookingId : UUID) (currentUser : User) : Service Booking := do
  let booking ← getOr404 (getBooking bookingId) "Booking not found"
  if booking.accessibleTo currentUser then pure booking
  else throw (http 403 "Not authorized to access this booking")

/-- The rows a role is shown: its own, or everything. -/
def Booking.visibleTo (booking : Booking) (user : User) : Bool :=
  match user.role with
  | .customer => booking.customerId = user.id
  | .provider => booking.providerId = user.id
  | .admin => true

def listBookings (currentUser : User) (statusFilter : Option BookingStatus) (skip limit : Nat) :
    Service (List Booking) :=
  Program.select (D := platform)
    (.bookingsPage (fun b => b.visibleTo currentUser && statusFilter.all fun s => b.status = s)
      skip limit)

/-- The lifecycle notifications of a booking that has just been given its status. -/
def notifyTransition (amb : Ambient) (booking : Booking) (actor : User) : Service Unit :=
  match booking.status with
  | .confirmed => do
    let _ ← createNotification amb booking.customerId (some booking.id) .bookingConfirmed
      "Booking Confirmed" (confirmedMessage booking)
    pure ()
  | .completed => do
    let _ ← createNotification amb booking.customerId (some booking.id) .bookingCompleted
      "Booking Completed" (completedMessage booking)
    pure ()
  | .cancelled => notifyCancellation amb booking actor
  | .pending => pure ()

/-- Step 1 of `update_booking`: the status. -/
def stageStatus (amb : Ambient) (booking : Booking) (target : Option BookingStatus)
    (currentUser : User) : Service Booking :=
  match target with
  | none => pure booking
  | some target =>
    if target = booking.status then pure booking
    else do
      Program.ofExcept (validateStatusTransition booking.status target currentUser.role)
      notifyTransition amb { booking with status := target } currentUser
      pure { booking with status := target }

def reschedule (booking : Booking) (newStart newEnd : Time) : Service Booking := do
  Program.refuseIf (newEnd ≤ newStart) (http 400 "end_time must be after start_time")
  checkProviderConflict booking.providerId newStart newEnd (some booking.id)
  pure { booking with startTime := newStart, endTime := newEnd }

/-- Step 2: the schedule, where a bound that is not given is the stored one. -/
def stageSchedule (booking : Booking) (startTime endTime : Option Time) : Service Booking :=
  if startTime = none ∧ endTime = none then pure booking
  else reschedule booking (startTime.getD booking.startTime) (endTime.getD booking.endTime)

/-- Step 3: the service name. -/
def Booking.renamed (booking : Booking) (serviceName : Option String) : Booking :=
  { booking with serviceName := serviceName.getD booking.serviceName }

/-- The answer to any change of a booking in a terminal status. -/
def terminalError (booking : Booking) (target : Option BookingStatus) (userRole : UserRole) :
    Error :=
  let cannotModify := http 400 ("Cannot modify a " ++ booking.status.value ++ " booking")
  match target with
  | none => cannotModify
  | some target =>
    match validateStatusTransition booking.status target userRole with
    | .error e => e
    | .ok () => cannotModify

def updateBooking (amb : Ambient) (bookingId : UUID) (bookingUpdate : BookingUpdate)
    (currentUser : User) : Service Booking := do
  let booking ← getOr404 (getBooking bookingId) "Booking not found"
  Program.refuseIf (¬ booking.accessibleTo currentUser)
    (http 403 "Not authorized to modify this booking")
  Program.refuseIf (booking.status = .cancelled ∨ booking.status = .completed)
    (terminalError booking bookingUpdate.status currentUser.role)
  let staged ← stageStatus amb booking bookingUpdate.status currentUser
  let staged ← stageSchedule staged bookingUpdate.startTime bookingUpdate.endTime
  commitAndRefresh
    [.updateBooking bookingId (booking.changes (staged.renamed bookingUpdate.serviceName))]
    (getBooking bookingId)

def Booking.cancelled (booking : Booking) : Booking := { booking with status := .cancelled }

def cancelBooking (amb : Ambient) (bookingId : UUID) (currentUser : User) : Service Booking := do
  let booking ← getBookingById bookingId currentUser
  Program.ofExcept (validateStatusTransition booking.status .cancelled currentUser.role)
  notifyCancellation amb booking.cancelled currentUser
  commitAndRefresh [.updateBooking bookingId (booking.changes booking.cancelled)]
    (getBooking bookingId)

def deleteBooking (amb : Ambient) (bookingId : UUID) (currentUser : User) : Service Unit := do
  let booking ← getOr404 (getBooking bookingId) "Booking not found"
  Program.refuseIf (currentUser.role = .provider)
    (http 403 "Providers are not permitted to delete bookings")
  Program.refuseIf (currentUser.role = .customer ∧ booking.customerId ≠ currentUser.id)
    (http 403 "Not authorized to delete this booking")
  Program.refuseIf (booking.status = .completed)
    (http 400 "Completed bookings are historical business records and cannot be deleted")
  Program.refuseIf (booking.status = .confirmed)
    (http 400
      "Confirmed bookings cannot be deleted directly; please use the cancellation workflow")
  Program.refuseIf (booking.status = .cancelled) (http 400 "Booking is already cancelled")
  notifyCancellation amb booking.cancelled currentUser
  commitOrRollback [.updateBooking bookingId (booking.changes booking.cancelled)]

end BookingPlatform
