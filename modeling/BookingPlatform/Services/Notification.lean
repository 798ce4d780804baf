import BookingPlatform.Statements

/-! Notifications, and the session idioms every service shares. -/

namespace BookingPlatform

set_option autoImplicit false

open Transact

/-- `db.get(...)` followed by the 404 of a missing row. -/
def getOr404 {α : Type} (row : Service (Option α)) (detail : String) : Service α := do
  match ← row with
  | some a => pure a
  | none => throw (http 404 detail)

/-- `db.refresh`: the row is read again; it is an error that it is gone. -/
def refresh {α : Type} (row : Service (Option α)) : Service α := do
  match ← row with
  | some a => pure a
  | none => throw .invalidRequestError

/-- `try: commit, refresh, return` with `except Exception: rollback, raise`. -/
def commitAndRefresh {α : Type} (staged : List Write) (row : Service (Option α)) : Service α :=
  tryCatch (do
    Program.commitAll staged
    refresh row) fun e => do
    Program.rollbackAll
    throw e

/-- `try: commit` with `except Exception: rollback, raise`. -/
def commitOrRollback (staged : List Write) : Service Unit :=
  tryCatch (Program.commitAll staged) fun e => do
    Program.rollbackAll
    throw e

/-- `try: commit, refresh, return` with `except IntegrityError: rollback, raise 409`. -/
def commitOr409 {α : Type} (staged : List Write) (row : Service (Option α))
    (detail : String) : Service α :=
  tryCatch (do
    Program.commitAll staged
    refresh row) fun e =>
    match e with
    | .integrityError => do
      Program.rollbackAll
      throw (http 409 detail)
    | e => throw e

def getUser (id : UUID) : Service (Option User) := Program.select (D := platform) (.user id)

def getBooking (id : UUID) : Service (Option Booking) :=
  Program.select (D := platform) (.booking id)

def getReview (id : UUID) : Service (Option Review) := Program.select (D := platform) (.review id)

def getNotification (id : UUID) : Service (Option Notification) :=
  Program.select (D := platform) (.notification id)

def Ambient.notification (amb : Ambient) (userId : UUID) (bookingId : Option UUID)
    (type : NotificationType) (title message : String) : Notification where
  id := amb.notificationId userId bookingId type
  userId := userId
  bookingId := bookingId
  type := type
  title := title
  message := message
  isRead := false
  createdAt := amb.dbNow
  readAt := none

def createNotification (amb : Ambient) (userId : UUID) (bookingId : Option UUID)
    (type : NotificationType) (title message : String) : Service (Option Notification) :=
  Program.send (D := platform)
    (.insertNotification (amb.notification userId bookingId type title message))

def listNotifications (userId : UUID) (skip limit : Nat) (unreadOnly : Bool) :
    Service (List Notification) :=
  Program.select (D := platform)
    (.notificationsPage (fun n => n.userId = userId && (!unreadOnly || !n.isRead)) skip limit)

def markNotificationAsRead (amb : Ambient) (notificationId userId : UUID) :
    Service Notification := do
  let notification ← getOr404 (getNotification notificationId) "Notification not found"
  Program.refuseIf (notification.userId ≠ userId)
    (http 403 "Not authorized to access this notification")
  if notification.isRead then
    pure notification
  else
    commitAndRefresh [.readNotification notificationId amb.now] (getNotification notificationId)

def markAllAsRead (amb : Ambient) (userId : UUID) : Service Nat := do
  let rowcount : Nat ← Program.send (D := platform) (.readAllNotifications userId amb.now)
  commitOrRollback []
  pure rowcount

end BookingPlatform
