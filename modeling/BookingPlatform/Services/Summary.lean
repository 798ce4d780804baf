import BookingPlatform.Services.Notification
import Mathlib.Data.Rat.Floor

/-! Aggregated review metrics of a provider; floats are exact rationals here. -/

namespace BookingPlatform

set_option autoImplicit false

open Transact

/-- `round`: to the nearest integer, a half to the even one. -/
def roundHalfEven (q : ℚ) : Int :=
  if q - ⌊q⌋ < 1 / 2 then ⌊q⌋
  else if 1 / 2 < q - ⌊q⌋ then ⌊q⌋ + 1
  else if ⌊q⌋ % 2 = 0 then ⌊q⌋ else ⌊q⌋ + 1

/-- `round(q, 2)`. -/
def round2 (q : ℚ) : ℚ := roundHalfEven (q * 100) / 100

/-- A dict from ratings, whose keys are their decimal texts, in insertion order. -/
abbrev Distribution := List (Int × Nat)

/-- `distribution[str(r)] = cnt`. -/
def Distribution.set : Distribution → Int → Nat → Distribution
  | [], r, cnt => [(r, cnt)]
  | (key, value) :: rest, r, cnt =>
    if key = r then (key, cnt) :: rest else (key, value) :: Distribution.set rest r cnt

/-- `{str(i): 0 for i in range(1, 6)}` with the counted ratings written over it. -/
def distributionOf (rows : List (Int × Nat)) : Distribution :=
  rows.foldl (fun distribution row => distribution.set row.1 row.2)
    [(1, 0), (2, 0), (3, 0), (4, 0), (5, 0)]

/-- `round(float(avg), 2)`, and 0.0 for NULL. -/
def roundedAverage (avg : Option ℚ) : ℚ := avg.elim 0 round2

structure ProviderReviewSummary where
  providerId : UUID
  reviewCount : Nat
  averageRating : ℚ
  ratingDistribution : Distribution
  averageBounds : 0 ≤ averageRating ∧ averageRating ≤ 5
  deriving DecidableEq, Repr

/-- The model refuses an average out of bounds with a ValidationError. -/
def providerReviewSummary (providerId : UUID) (reviewCount : Nat) (averageRating : ℚ)
    (ratingDistribution : Distribution) : Except Error ProviderReviewSummary :=
  if h : 0 ≤ averageRating ∧ averageRating ≤ 5 then
    .ok ⟨providerId, reviewCount, averageRating, ratingDistribution, h⟩
  else .error (.valueError "average_rating")

def getProviderReviewSummary (providerId : UUID) : Service ProviderReviewSummary := do
  let provider ← getOr404 (getUser providerId) "Provider not found"
  Program.refuseIf (provider.role ≠ .provider)
    (http 400 "Selected user is not registered as a service provider")
  let stats : Nat × Option ℚ ← Program.select (D := platform) (.reviewStats providerId)
  let distRows : List (Int × Nat) ← Program.select (D := platform) (.ratingCounts providerId)
  Program.ofExcept (providerReviewSummary providerId stats.1 (roundedAverage stats.2)
    (distributionOf distRows))

end BookingPlatform
