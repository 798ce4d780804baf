import BookingPlatform.Services.Notification
import BookingPlatform.Strings.Like

/-! Providers and their availability. -/

namespace BookingPlatform

set_option autoImplicit false

open Transact

/-- What the database knows of texts: their order, and their case folding in ILIKE. -/
structure Locale where
  collation : LinearOrder String
  fold : Char → Char
  caseless : Strings.Caseless fold

/-- The `where` clauses of the list. -/
def User.searchedBy (u : User) (amb : Ambient) (locale : Locale) (search : Option String) : Bool :=
  match search with
  | none => true
  | some search =>
    if amb.strip search = "" then true
    else
      let searchPattern := '%' :: ((amb.strip search).toList ++ ['%'])
      Strings.ilike locale.fold u.name.toList searchPattern ||
        Strings.ilike locale.fold u.email.toList searchPattern

def listProviders (amb : Ambient) (locale : Locale) (search : Option String) (skip limit : Nat) :
    Service (List User) :=
  Program.select (D := platform)
    (.usersPage (fun u => u.role = .provider && u.searchedBy amb locale search) locale.collation
      skip limit)

def getProviderById (providerId : UUID) : Service User := do
  let provider ← getOr404 (getUser providerId) "Provider not found"
  Program.refuseIf (provider.role ≠ .provider)
    (http 400 "Selected user is not registered as a service provider")
  pure provider

/-- Half-open overlap with an active booking; adjacent bookings do not conflict. -/
def isProviderAvailable (providerId : UUID) (startTime endTime : Time)
    (excludeBookingId : Option UUID) : Service Bool := do
  let conflict : Option UUID ←
    Program.select (D := platform) (.conflict providerId startTime endTime excludeBookingId)
  pure conflict.isNone

structure ProviderAvailabilityResponse where
  providerId : UUID
  startTime : Time
  endTime : Time
  available : Bool
  deriving DecidableEq, Repr

/-- The response model refuses an empty slot itself (`validate_time_range`). -/
def checkProviderAvailability (providerId : UUID) (startTime endTime : Time) :
    Service ProviderAvailabilityResponse := do
  let _ ← getProviderById providerId
  let available ← isProviderAvailable providerId startTime endTime none
  Program.refuseIf (endTime ≤ startTime) (.valueError "end_time must be after start_time")
  pure ⟨providerId, startTime, endTime, available⟩

end BookingPlatform
