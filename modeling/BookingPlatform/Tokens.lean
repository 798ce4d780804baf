import BookingPlatform.Number.Quotient
import BookingPlatform.Outcomes
import BookingPlatform.Strings.Uuid
import Mathlib.Logic.Equiv.List

/-!
# How long an access token is valid

`create_access_token` takes a duration of zero for none at all, and gives such a token the
lifetime of the settings. Every other token is valid for the lifetime it was issued with, up
to the whole second in which that ends, as far as `timestamp` tells the second.
-/

namespace BookingPlatform

set_option autoImplicit false

open Transact Strings Number

section Clock

/-- In microseconds, as every moment and duration here. -/
def second : Int := 1000000

/-- What a `datetime` can hold. -/
def Representable (x : Int) : Prop := -62135596800000000 ≤ x ∧ x < 253402300800000000

instance (x : Int) : Decidable (Representable x) := inferInstanceAs (Decidable (_ ∧ _))

/-- `now + delta`, which may raise OverflowError. -/
def plus (now delta : Int) : Option Int :=
  if Representable (now + delta) then some (now + delta) else none

/-- `int(x.timestamp())`, cut towards zero. -/
def intTimestamp (x : Int) : Int :=
  if 0 ≤ x then wholePart x.natAbs 1000000 else -wholePart x.natAbs 1000000

end Clock

section Tokens

/-- The claims of a token that somebody reads. -/
structure Claims where
  sub : Option Str
  iat : Option Int
  exp : Option Int
  deriving DecidableEq

/-- The PyJWT package. `decode` looks at the clock, and raises a PyJWTError where it answers
none: so it does for a subject that is no string. -/
structure PyJwt where
  encode : Claims → String → String → Str
  decode : Int → Str → String → List String → Option Claims

structure TokenSettings where
  jwtSecretKey : String
  jwtAlgorithm : String
  accessTokenExpireMinutes : Int

variable (jwt : PyJwt) (settings : TokenSettings) (decimal : Nat → Option Nat)

def TokenSettings.defaultLifetime : Int := settings.accessTokenExpireMinutes * (60 * second)

/-- `if expires_delta`: a timedelta of zero is false. -/
def TokenSettings.lifetime : Option Int → Int
  | none => settings.defaultLifetime
  | some expiresDelta => if expiresDelta = 0 then settings.defaultLifetime else expiresDelta

def createAccessToken (now : Int) (subject : Str) (expiresDelta : Option Int) : Option Str := do
  let expire ← plus now (settings.lifetime expiresDelta)
  pure (jwt.encode ⟨some subject, some (intTimestamp now), some (intTimestamp expire)⟩
    settings.jwtSecretKey settings.jwtAlgorithm)

def decodeAccessToken (now : Int) (token : Str) : Option Claims :=
  jwt.decode now token settings.jwtSecretKey [settings.jwtAlgorithm]

def invalidOrExpired : Error :=
  http 401 "Could not validate credentials: token is invalid or expired"

/-- `get_current_user`, from the credentials of the request on. -/
def getCurrentUserByToken (now : Int) : Option Str → Service User
  | none => throw (http 401 "Authentication credentials were not provided")
  | some token =>
    match decodeAccessToken jwt settings now token with
    | none => throw invalidOrExpired
    | some payload =>
      match payload.sub with
      | none | some [] =>
        throw (http 401 "Could not validate credentials: token subject missing")
      | some subject =>
        match uuid? decimal subject with
        | none => throw invalidOrExpired
        | some userId => getCurrentUser userId

/-- A token is decoded to its claims, but not before it was issued nor once it has expired. -/
def PyJwt.RoundTrips : Prop :=
  ∀ (sub : Str) (iat exp : Int) (now : Int),
    decodeAccessToken jwt settings now
        (jwt.encode ⟨some sub, some iat, some exp⟩ settings.jwtSecretKey settings.jwtAlgorithm) =
      if exp * second ≤ now ∨ now < iat * second then none
      else some ⟨some sub, some iat, some exp⟩

end Tokens

section Seconds
variable {x n e : Int}

/-- `int(timestamp())` is the second in which the moment lies. Before 1970 it is the next one,
and after 2514 the last moments of a second may be rounded to the next. -/
def KeepsSecond (x : Int) : Prop :=
  x % second = 0 ∨ (0 ≤ x ↔ ¬ RoundsUp x.natAbs 1000000)

instance (x : Int) : Decidable (KeepsSecond x) := inferInstanceAs (Decidable (_ ∨ _))

theorem fractionBits_of_representable (h : Representable x) :
    0 < fractionBits x.natAbs 1000000 := by
  obtain ⟨hlow, hhigh⟩ := h
  refine le_fractionBits 1 37 (by decide) ?_
  have hlt : x.natAbs / 1000000 < 2 ^ 38 := by
    rw [Nat.div_lt_iff_lt_mul (by decide)]
    omega
  exact hlt

theorem intTimestamp_eq (h : Representable x) :
    intTimestamp x = if KeepsSecond x then x / second else x / second + 1 := by
  have hwhole := wholePart_eq (a := x.natAbs) (b := 1000000) (by decide)
    (fractionBits_of_representable h)
  have hdvd : x % 1000000 = 0 → ¬ RoundsUp x.natAbs 1000000 := fun hzero =>
    not_roundsUp_of_dvd (by decide) (by omega)
  have hkeeps : KeepsSecond x ↔ x % 1000000 = 0 ∨ (0 ≤ x ↔ ¬ RoundsUp x.natAbs 1000000) :=
    Iff.rfl
  unfold intTimestamp second
  rw [hwhole]
  by_cases hpos : 0 ≤ x
  · by_cases hrounds : RoundsUp x.natAbs 1000000
    · have hpart : ¬ x % 1000000 = 0 := fun hzero => hdvd hzero hrounds
      rw [if_pos hpos, if_pos hrounds, if_neg (mt hkeeps.mp (by simp [hpart, hpos, hrounds]))]
      omega
    · rw [if_pos hpos, if_neg hrounds, if_pos (hkeeps.mpr (.inr (iff_of_true hpos hrounds)))]
      omega
  · by_cases hrounds : RoundsUp x.natAbs 1000000
    · have hpart : ¬ x % 1000000 = 0 := fun hzero => hdvd hzero hrounds
      have hkept := hkeeps.mpr (.inr (iff_of_false hpos (not_not.mpr hrounds)))
      rw [if_neg hpos, if_pos hrounds, if_pos hkept]
      omega
    · rw [if_neg hpos, if_neg hrounds]
      by_cases hpart : x % 1000000 = 0
      · rw [if_pos (hkeeps.mpr (.inl hpart))]
        omega
      · rw [if_neg (mt hkeeps.mp (by simp [hpart, hpos, hrounds]))]
        omega

/-- Between 1970 and 2514 no second is lost. -/
theorem keepsSecond_of_lt (hlow : 0 ≤ x) (hhigh : x < 2 ^ 34 * second) : KeepsSecond x := by
  have hlt : x.natAbs / 1000000 < 2 ^ 34 := by
    unfold second at hhigh
    omega
  have hbits := le_fractionBits 19 33 (by decide) hlt
  have hexact := not_roundsUp (b := 1000000) (by decide) (by decide) hbits
  exact .inr (iff_of_true hlow hexact)

/-- What the whole seconds of issue and expiry must keep for a token to last from one to the
other: both, if it is to last into a later second, and the expiry alone in the same one. -/
def SecondsKept (n e : Int) : Prop :=
  (n / second < e / second → KeepsSecond n ∧ KeepsSecond e) ∧
    (n / second = e / second → KeepsSecond n → KeepsSecond e)

instance (n e : Int) : Decidable (SecondsKept n e) := inferInstanceAs (Decidable (_ ∧ _))

/-- PyJWT accepts the token of these claims at `t`. -/
def Accepts (iat exp t : Int) : Prop := iat * second ≤ t ∧ t < exp * second

instance (iat exp t : Int) : Decidable (Accepts iat exp t) := inferInstanceAs (Decidable (_ ∧ _))

theorem accepts_iff_secondsKept (hn : Representable n) (he : Representable e) :
    (∀ t, n ≤ t → (Accepts (intTimestamp n) (intTimestamp e) t ↔ t < e / second * second)) ↔
      SecondsKept n e := by
  rw [intTimestamp_eq hn, intTimestamp_eq he]
  unfold Accepts SecondsKept second
  constructor
  · intro h
    have hfirst := h n (Int.le_refl n)
    constructor
    · intro hlater
      have hlast := h (e / 1000000 * 1000000) (by omega)
      by_cases hkn : KeepsSecond n
      · by_cases hke : KeepsSecond e
        · exact ⟨hkn, hke⟩
        · rw [if_pos hkn, if_neg hke] at hlast
          omega
      · rw [if_neg hkn] at hfirst
        omega
    · intro hsame hkn
      by_contra hke
      rw [if_pos hkn, if_neg hke] at hfirst
      omega
  · intro h t ht
    rcases Int.lt_trichotomy (n / 1000000) (e / 1000000) with hlater | hsame | hearlier
    · rw [if_pos (h.1 hlater).1, if_pos (h.1 hlater).2]
      omega
    · by_cases hkn : KeepsSecond n
      · rw [if_pos hkn, if_pos (h.2 hsame hkn)]
        omega
      · rw [if_neg hkn]
        split <;> omega
    · split <;> split <;> omega

/-- A token of some minutes is not accepted at all just if they are not positive. -/
theorem never_accepts_iff (minutes : Int) (hn : Representable n)
    (he : Representable (n + minutes * (60 * second))) :
    (∀ t, n ≤ t → ¬ Accepts (intTimestamp n) (intTimestamp (n + minutes * (60 * second))) t) ↔
      minutes ≤ 0 := by
  have hexpiry := intTimestamp_eq he
  have hissue := intTimestamp_eq hn
  have hseconds : (n + minutes * (60 * second)) / second = n / second + 60 * minutes := by
    unfold second
    omega
  rw [hseconds] at hexpiry
  constructor
  · intro h
    by_contra hpositive
    apply h ((n / second + 1) * second)
    · unfold second
      omega
    · rw [hexpiry, hissue]
      unfold Accepts second
      constructor
      · split <;> omega
      · split <;> omega
  · intro hnone t ht haccepts
    rcases Int.lt_or_eq_of_le hnone with hnegative | rfl
    · rw [hexpiry, hissue] at haccepts
      unfold Accepts second at haccepts
      split at haccepts <;> split at haccepts <;> omega
    · rw [Int.zero_mul, Int.add_zero] at haccepts
      exact absurd (Int.lt_of_le_of_lt haccepts.1 haccepts.2) (Int.lt_irrefl _)

end Seconds

section Lifetime
variable {jwt : PyJwt} {settings : TokenSettings} {decimal : Nat → Option Nat} {s : Store}
  {u : User}

theorem getCurrentUser_mem (hu : u ∈ s.users) : outcome s (getCurrentUser u.id) = .ok u := by
  have hrow : s.user? u.id = some u := s.user?_eq_some.mpr ⟨hu, rfl⟩
  unfold outcome getCurrentUser
  rw [Program.exec_bind_ok (exec_getUser u.id), Session.fresh_working, hrow]
  rfl

/-- The token of a user stands for this user as long as it is accepted. -/
theorem getCurrentUserByToken_eq (hjwt : jwt.RoundTrips settings) (hu : u ∈ s.users)
    (iat exp t : Int) :
    outcome s (getCurrentUserByToken jwt settings decimal t
        (some (jwt.encode ⟨some (strUuid u.id), some iat, some exp⟩
          settings.jwtSecretKey settings.jwtAlgorithm))) =
      if Accepts iat exp t then .ok u else .error invalidOrExpired := by
  have hdecode := hjwt (strUuid u.id) iat exp t
  have huuid := uuid?_strUuid decimal u.id
  have haccepts : Accepts iat exp t ↔ ¬ (exp * second ≤ t ∨ t < iat * second) := by
    unfold Accepts
    omega
  unfold getCurrentUserByToken
  dsimp only
  rw [hdecode]
  by_cases hrefused : exp * second ≤ t ∨ t < iat * second
  · rw [if_pos hrefused, if_neg (mt haccepts.mp (not_not.mpr hrefused))]
    rfl
  · rw [if_neg hrefused, if_pos (haccepts.mpr hrefused)]
    cases hsub : strUuid u.id with
    | nil =>
      rw [hsub] at huuid
      cases huuid
    | cons c rest =>
      rw [hsub] at huuid
      dsimp only
      rw [huuid]
      exact getCurrentUser_mem hu

/-- The token is issued, valid for its user up to the whole second of its expiry, and refused
from then on. -/
def ValidForLifetime (jwt : PyJwt) (settings : TokenSettings) (decimal : Nat → Option Nat)
    (s : Store) (u : User) (n : Int) (expiresDelta : Option Int) (lifetime : Int) : Prop :=
  ∃ token, createAccessToken jwt settings n (strUuid u.id) expiresDelta = some token ∧
    ∀ t, n ≤ t → outcome s (getCurrentUserByToken jwt settings decimal t (some token)) =
      if t < (n + lifetime) / second * second then .ok u else .error invalidOrExpired

/-- The duration is not taken for an absent one, the expiry is a `datetime`, and the seconds
are kept. -/
def TokenSettings.Issues (settings : TokenSettings) (n : Int) (expiresDelta : Option Int) : Prop :=
  Representable (n + settings.lifetime expiresDelta) ∧
    if expiresDelta = some 0 then settings.accessTokenExpireMinutes ≤ 0
    else SecondsKept n (n + settings.lifetime expiresDelta)

instance (n : Int) (expiresDelta : Option Int) : Decidable (settings.Issues n expiresDelta) :=
  inferInstanceAs (Decidable (_ ∧ _))

/-- The token is valid for a lifetime just if the claims of PyJWT say so. -/
theorem validForLifetime_iff (hjwt : jwt.RoundTrips settings) (hu : u ∈ s.users) (n : Int)
    (expiresDelta : Option Int) (lifetime : Int) :
    ValidForLifetime jwt settings decimal s u n expiresDelta lifetime ↔
      Representable (n + settings.lifetime expiresDelta) ∧
        ∀ t, n ≤ t → (Accepts (intTimestamp n)
            (intTimestamp (n + settings.lifetime expiresDelta)) t ↔
          t < (n + lifetime) / second * second) := by
  have hanswers : ∀ (p q : Prop) [Decidable p] [Decidable q],
      (if p then Except.ok u else .error invalidOrExpired) =
        (if q then Except.ok u else .error invalidOrExpired) ↔ (p ↔ q) := by
    intro p q _ _
    by_cases hp : p <;> by_cases hq : q <;> simp [hp, hq]
  unfold ValidForLifetime createAccessToken plus
  by_cases hrep : Representable (n + settings.lifetime expiresDelta)
  · rw [if_pos hrep]
    constructor
    · rintro ⟨token, hissued, hvalid⟩
      cases hissued
      refine ⟨hrep, fun t ht => ?_⟩
      have := hvalid t ht
      rw [getCurrentUserByToken_eq hjwt hu] at this
      exact (hanswers _ _).mp this
    · rintro ⟨_, hvalid⟩
      refine ⟨_, rfl, fun t ht => ?_⟩
      rw [getCurrentUserByToken_eq hjwt hu]
      exact (hanswers _ _).mpr (hvalid t ht)
  · rw [if_neg hrep]
    constructor
    · rintro ⟨_, hissued, _⟩
      cases hissued
    · exact fun h => absurd h.1 hrep

/-- Creation and look-up line up exactly for those durations. -/
theorem token_lifetime_iff (jwt : PyJwt) (settings : TokenSettings) (decimal : Nat → Option Nat)
    (hjwt : jwt.RoundTrips settings) (s : Store) (u : User) (hu : u ∈ s.users) (n : Int)
    (hn : Representable n) (expiresDelta : Option Int) :
    ValidForLifetime jwt settings decimal s u n expiresDelta
        (expiresDelta.getD settings.defaultLifetime) ↔
      settings.Issues n expiresDelta := by
  rw [validForLifetime_iff hjwt hu]
  unfold TokenSettings.Issues
  refine and_congr_right fun hrep => ?_
  by_cases hzero : expiresDelta = some 0
  · rw [if_pos hzero]
    subst hzero
    have hnever : ∀ t, n ≤ t → ¬ t < (n + (0 : Int)) / second * second := by
      unfold second
      omega
    rw [← never_accepts_iff settings.accessTokenExpireMinutes hn hrep]
    exact forall₂_congr fun t ht => iff_false_right (hnever t ht)
  · rw [if_neg hzero]
    have hlifetime : settings.lifetime expiresDelta =
        expiresDelta.getD settings.defaultLifetime := by
      cases expiresDelta with
      | none => rfl
      | some d => exact if_neg fun h => hzero (congrArg some h)
    rw [← hlifetime]
    exact accepts_iff_secondsKept hn hrep

/-- A stand-in for PyJWT that writes the claims as one number. -/
def plainJwt : PyJwt where
  encode payload _ _ := [Encodable.encode (payload.sub, payload.iat, payload.exp)]
  decode now token _ _ := do
    let code ← token.head?
    let claims ← (Encodable.decode code : Option (Option Str × Option Int × Option Int))
    if claims.2.2.any (fun exp => exp * second ≤ now) ∨
        claims.2.1.any (fun iat => now < iat * second) then none
    else some ⟨claims.1, claims.2.1, claims.2.2⟩

def halfHour : TokenSettings := ⟨"secret", "HS256", 30⟩

theorem plainJwt_roundTrips : plainJwt.RoundTrips halfHour := by
  intro sub iat exp now
  unfold decodeAccessToken plainJwt
  simp only [List.head?_cons, Option.bind_eq_bind, Option.bind_some, Encodable.encodek,
    Option.any_some, decide_eq_true_eq]

/-- A token of one and a half seconds, issued in the middle of a second. -/
theorem token_lifetime_iff_alice :
    ValidForLifetime plainJwt halfHour (fun _ => none) newPlatform alice 1700000000500000
      (some 1500000) 1500000 := by
  have hissued : KeepsSecond 1700000000500000 := keepsSecond_of_lt (by decide) (by decide)
  have hexpires : KeepsSecond 1700000002000000 := keepsSecond_of_lt (by decide) (by decide)
  exact (token_lifetime_iff plainJwt halfHour (fun _ => none) plainJwt_roundTrips newPlatform alice
    (by decide) 1700000000500000 (by decide) (some 1500000)).mpr
    ⟨by decide, fun _ => ⟨hissued, hexpires⟩, fun _ _ => hexpires⟩

/-- Issued for no time at all, and accepted twenty-nine minutes later. -/
theorem zero_lifetime_accepted :
    (∃ token, createAccessToken plainJwt halfHour 1700000000000000 (strUuid alice.id) (some 0) =
        some token ∧
      outcome newPlatform (getCurrentUserByToken plainJwt halfHour (fun _ => none)
        1700001740000000 (some token)) = .ok alice) ∧
    ¬ ValidForLifetime plainJwt halfHour (fun _ => none) newPlatform alice 1700000000000000
      (some 0) 0 := by
  have hmem : alice ∈ newPlatform.users := by decide
  have haccepts : Accepts (intTimestamp 1700000000000000) (intTimestamp 1700001800000000)
      1700001740000000 := by
    decide +kernel
  constructor
  · refine ⟨_, rfl, ?_⟩
    exact (getCurrentUserByToken_eq plainJwt_roundTrips hmem _ _ _).trans (if_pos haccepts)
  · intro hvalid
    have hlast := ((validForLifetime_iff plainJwt_roundTrips hmem _ _ _).mp hvalid).2
      1700001740000000 (by decide)
    exact absurd (hlast.mp haccepts) (by decide)

end Lifetime

end BookingPlatform
