import BookingPlatform.Integrity
import BookingPlatform.Passwords
import BookingPlatform.Tokens

/-!
# From the login to the last request with its token

`login` verifies a password and issues a token, and every later request resolves its user
from the token. An account that exists logs in whatever happens meanwhile, and its token
acts as the user until it expires.
-/

namespace BookingPlatform

set_option autoImplicit false

open Transact Transact.Program Strings

section Routes
variable (jwt : PyJwt) (settings : TokenSettings) (decimal : Nat → Option Nat)

structure TokenResponse where
  accessToken : Str
  tokenType : String
  deriving DecidableEq, Repr

/-- `now + delta` past the last `datetime` raises OverflowError, which nobody catches. -/
def login (amb : Ambient) (bcrypt : Bcrypt) (now : Int) (credentials : UserLogin) :
    Service TokenResponse := do
  let user ← authenticateUser amb bcrypt credentials
  match createAccessToken jwt settings now (strUuid user.id) none with
  | some accessToken => pure ⟨accessToken, "bearer"⟩
  | none => throw (.valueError "date value out of range")

/-- A request with its credentials: what every route but those of `auth` and `health` does. -/
def serveWithToken (now : Int) (credentials : Option Str) (amb : Ambient) (request : Request) :
    Service Response := do
  let currentUser ← getCurrentUserByToken jwt settings decimal now credentials
  handle amb currentUser request

end Routes

section Reading
variable {s : Store}

theorem exec_getCurrentUser (s : Store) (userId : UUID) :
    (getCurrentUser userId).exec (.fresh s) = (outcome s (getCurrentUser userId), .fresh s) := by
  have hexec : ∃ r, (getCurrentUser userId).exec (.fresh s) = (r, .fresh s) := by
    unfold getCurrentUser
    rw [exec_bind_ok (exec_getUser userId)]
    cases (Session.fresh (D := platform) s).working.user? userId with
    | none => exact ⟨_, rfl⟩
    | some user => exact ⟨_, rfl⟩
  obtain ⟨r, hr⟩ := hexec
  rw [hr, outcome_of_exec hr]

/-- Resolving the user of a token only reads. -/
theorem exec_getCurrentUserByToken (jwt : PyJwt) (settings : TokenSettings)
    (decimal : Nat → Option Nat) (s : Store) (now : Int) (credentials : Option Str) :
    (getCurrentUserByToken jwt settings decimal now credentials).exec (.fresh s) =
      (outcome s (getCurrentUserByToken jwt settings decimal now credentials), .fresh s) := by
  unfold getCurrentUserByToken
  cases credentials with
  | none => rfl
  | some token =>
    dsimp only
    cases decodeAccessToken jwt settings now token with
    | none => rfl
    | some payload =>
      dsimp only
      split
      · rfl
      · rfl
      · rename_i subject _ _
        cases uuid? decimal subject with
        | none => rfl
        | some userId => exact exec_getCurrentUser s userId

/-- A request runs as the user its token stands for, or not at all. -/
theorem exec_serveWithToken (jwt : PyJwt) (settings : TokenSettings)
    (decimal : Nat → Option Nat) (now : Int) (credentials : Option Str) {u : User} (amb : Ambient)
    (request : Request) (hu : u ∈ s.users) :
    (outcome s (getCurrentUserByToken jwt settings decimal now credentials) = .ok u →
      (serveWithToken jwt settings decimal now credentials amb request).exec (.fresh s) =
        (serve amb u.id request).exec (.fresh s)) ∧
    ∀ e, outcome s (getCurrentUserByToken jwt settings decimal now credentials) = .error e →
      (serveWithToken jwt settings decimal now credentials amb request).exec (.fresh s) =
        (.error e, .fresh s) := by
  have hread := exec_getCurrentUserByToken jwt settings decimal s now credentials
  constructor
  · intro hok
    rw [hok] at hread
    have huser := exec_getCurrentUser s u.id
    rw [getCurrentUser_mem hu] at huser
    exact (exec_bind_ok hread).trans
      (exec_bind_ok (f := fun currentUser => handle amb currentUser request) huser).symm
  · intro e herror
    rw [herror] at hread
    exact exec_bind_error hread

end Reading

section Login
variable {jwt : PyJwt} {settings : TokenSettings} {s : Store} {amb : Ambient} {bcrypt : Bcrypt}
  {credentials : UserLogin} {u : User} {now : Int}

/-- The account of an address is the one that logs in under it, and logging in only reads. -/
theorem exec_login (hlaws : amb.text.Lawful) (hs : amb.text.Normalised s.users) (hu : u ∈ s.users)
    (hemail : amb.text.normalize credentials.email = u.email) {verified : Bool}
    (hverified : verifyPassword bcrypt credentials.password u.passwordHash = .ok verified)
    {token : Str} (htoken : createAccessToken jwt settings now (strUuid u.id) none = some token) :
    (login jwt settings amb bcrypt now credentials).exec (.fresh s) =
      (if verified then .ok ⟨token, "bearer"⟩
        else .error (http 401 "Invalid email or password"), .fresh s) := by
  have hfound : s.answer (.usersByEmail amb.sqlLower (amb.text.normalize credentials.email)) =
      (some u).toList := by
    rw [hemail, usersByEmail_eq hlaws hs, s.userOf_eq_some.mpr ⟨hu, rfl⟩]
  have hauth : (authenticateUser amb bcrypt credentials).exec (.fresh s) =
      (if verified then .ok u else .error (http 401 "Invalid email or password"),
        .fresh s) := by
    refine (exec_bind_ok (exec_getUserByEmail hfound)).trans ?_
    refine (exec_bind_ok (a := verified) (by rw [exec_ofExcept, hverified])).trans ?_
    cases verified <;> rfl
  cases verified with
  | false => exact exec_bind_error hauth
  | true =>
    refine (exec_bind_ok hauth).trans ?_
    dsimp only
    rw [htoken]
    rfl

/-- The token of a login is made, and for whom and how long it is accepted. -/
theorem token_of_login (decimal : Nat → Option Nat) (hjwt : jwt.RoundTrips settings) (u : User)
    (hnow : Representable now) (hissues : settings.Issues now none) :
    ∃ token, createAccessToken jwt settings now (strUuid u.id) none = some token ∧
      ∀ (t : Store) (m : Int), u ∈ t.users → now ≤ m →
        outcome t (getCurrentUserByToken jwt settings decimal m (some token)) =
          if m < (now + settings.defaultLifetime) / second * second then .ok u
          else .error invalidOrExpired := by
  obtain ⟨hexpires, hseconds⟩ := hissues
  rw [if_neg (by simp)] at hseconds
  have haccepts := (accepts_iff_secondsKept hnow hexpires).mpr hseconds
  refine ⟨jwt.encode ⟨some (strUuid u.id), some (intTimestamp now),
    some (intTimestamp (now + settings.lifetime none))⟩ settings.jwtSecretKey
    settings.jwtAlgorithm, ?_, ?_⟩
  · unfold createAccessToken plus
    rw [if_pos hexpires]
    rfl
  · intro t m hu hm
    rw [getCurrentUserByToken_eq hjwt hu]
    by_cases hvalid : m < (now + settings.defaultLifetime) / second * second
    · rw [if_pos hvalid, if_pos ((haccepts m hm).mpr hvalid)]
    · rw [if_neg hvalid, if_neg (mt (haccepts m hm).mp hvalid)]

end Login

section Normal
variable {ι : Type} {events : ι → Event} {text : Text}

/-- A registration has been through the schema of its body. -/
def Admitted (text : Text) (e : Event) : Prop :=
  ∀ amb userIn, e = .register amb userIn →
    amb.text = text ∧ ∃ fields, UserRegister.validate amb fields = .ok userIn

theorem Admitted.sends {e : Event} (h : Admitted text e) (hlaws : text.Lawful) {u : User}
    (hu : e.Sends (.insertUser u)) : text.normalize u.email = u.email := by
  cases hu with
  | joins =>
    obtain ⟨rfl, fields, hfields⟩ := h _ _ rfl
    have hemail := (validate_register hfields).1
    unfold newUser
    dsimp only
    rw [hemail, hlaws.idempotent]

theorem normalised_after {t : Tables} {w : Write} (ht : text.Normalised t.users)
    (hw : ∀ u, w = .insertUser u → text.normalize u.email = u.email) :
    text.Normalised (t.after w).users := by
  intro u hu
  rcases users_after hu with hu | rfl
  · exact ht u hu
  · exact hw u rfl

theorem normalised_afterAll {t : Tables} {W : List Write} (ht : text.Normalised t.users)
    (hW : ∀ u, .insertUser u ∈ W → text.normalize u.email = u.email) :
    text.Normalised (t.afterAll W).users := by
  induction W generalizing t with
  | nil => exact ht
  | cons w ws ih =>
    refine ih (normalised_after ht fun u hw => hW u ?_) fun u hu => ?_
    · rw [hw]
      exact List.mem_cons_self
    · exact hW u (List.mem_cons_of_mem w hu)

variable [DecidableEq ι]

theorem normalised_rules (hlaws : text.Lawful) (hevents : ∀ i, Admitted text (events i)) :
    System.Invariant (commitsOf events) (fun _ _ _ _ => True)
      (fun s _ => text.Normalised s.users) (fun _ _ => True) where
  told := fun _ _ => trivial
  commit := by
    intro i c W s t C hs _ _ hO _ happ
    refine ⟨?_, fun _ _ => trivial⟩
    rw [tables_of_applyAll happ]
    exact normalised_afterAll hs fun u hu => (hevents i).sends hlaws (hO.2.sends hu)

/-- Registrations that run side by side store nothing but normalised addresses. -/
theorem normalised_run {s₀ : Store} (hlaws : text.Lawful) (h₀ : text.Normalised s₀.users)
    (hevents : ∀ i, Admitted text (events i)) (schedule : List ι) :
    text.Normalised ((concurrently events s₀).run schedule).store.users :=
  ((concurrently_holds h₀).run (normalised_rules hlaws hevents) (.always _ schedule)).inv

/-- An account that exists at some moment logs in at any later one with what its hash verifies,
and with nothing else, and from then on, whatever is committed in between, every request with
the token does what the same request does for this user, up to the second in which the token
expires, and nothing from then on. -/
theorem account_serves_until_expiry (jwt : PyJwt) (settings : TokenSettings)
    (decimal : Nat → Option Nat) (hjwt : jwt.RoundTrips settings) (s₀ : Store)
    (events : ι → Event) (amb : Ambient) (hlaws : amb.text.Lawful)
    (h₀ : amb.text.Normalised s₀.users) (hevents : ∀ i, Admitted amb.text (events i))
    (before mid : List ι) (u : User) (hu : u ∈ ((concurrently events s₀).run before).store.users)
    (bcrypt : Bcrypt) (credentials : UserLogin)
    (hemail : amb.text.normalize credentials.email = u.email) (verified : Bool)
    (hverified : verifyPassword bcrypt credentials.password u.passwordHash = .ok verified)
    (now : Int) (hnow : Representable now) (hissues : settings.Issues now none) :
    let S := ((concurrently events s₀).run (before ++ mid)).store
    leaves S (login jwt settings amb bcrypt now credentials) = S ∧
    if verified then
      ∃ response, outcome S (login jwt settings amb bcrypt now credentials) = .ok response ∧
        ∀ (after : List ι) (m : Int) (amb' : Ambient) (request : Request), now ≤ m →
          let T := ((concurrently events s₀).run (before ++ mid ++ after)).store
          (serveWithToken jwt settings decimal m (some response.accessToken) amb' request).exec
              (.fresh T) =
            if m < (now + settings.defaultLifetime) / second * second then
              (serve amb' u.id request).exec (.fresh T)
            else (.error invalidOrExpired, .fresh T)
    else
      outcome S (login jwt settings amb bcrypt now credentials) =
        .error (http 401 "Invalid email or password") := by
  intro S
  have hstays : ∀ after, u ∈ ((concurrently events s₀).run (before ++ after)).store.users := by
    intro after
    rw [System.run_append]
    exact (continues_from (integrity_holds s₀ events before) after).users u hu
  obtain ⟨token, htoken, hresolves⟩ := token_of_login decimal hjwt u hnow hissues
  have hexec := exec_login hlaws (normalised_run hlaws h₀ hevents (before ++ mid)) (hstays mid)
    hemail hverified htoken
  refine ⟨leaves_of_exec hexec, ?_⟩
  cases verified with
  | false => exact outcome_of_exec hexec
  | true =>
    refine ⟨⟨token, "bearer"⟩, outcome_of_exec hexec, ?_⟩
    intro after m amb' request hm T
    have hT : u ∈ T.users := by
      have h := hstays (mid ++ after)
      rwa [← List.append_assoc] at h
    have hresolved := hresolves T m hT hm
    obtain ⟨hvalid, hrefused⟩ := exec_serveWithToken jwt settings decimal m (some token) amb'
      request hT
    by_cases hlive : m < (now + settings.defaultLifetime) / second * second
    · rw [if_pos hlive] at hresolved ⊢
      exact hvalid hresolved
    · rw [if_neg hlive] at hresolved ⊢
      exact hrefused _ hresolved

end Normal

section Example

def evesAmbient : Ambient := (plainAmbient 40).hashing bcrypt4 ()

def eve : User := ⟨40, "Eve", "eve@example.com", .customer, "Password123!"⟩

/-- Eve registers while Alice books. -/
def eveAndAlice (i : Bool) : Event :=
  match i with
  | true => .register evesAmbient ⟨"Eve", "eve@example.com", "Password123!"⟩
  | false => booksAt alice 10 (10 * hour)

theorem eveAndAlice_admitted (i : Bool) : Admitted evesAmbient.text (eveAndAlice i) := by
  intro amb userIn he
  cases i with
  | false => cases he
  | true =>
    cases he
    exact ⟨rfl, _, (eve_registrable "Password123!" (by decide)).admitted⟩

def evesRun (schedule : List Bool) : Store :=
  ((concurrently eveAndAlice newPlatform).run schedule).store

/-- What Eve asks with the token of her login, after 29 minutes and after 30. -/
theorem account_serves_until_expiry_eve :
    ∃ response,
      outcome (evesRun [true, false, true, true, false]) (login plainJwt halfHour evesAmbient
        bcrypt4 1700000000000000 ⟨"EVE@example.com", "Password123!"⟩) = .ok response ∧
      ∀ request,
        (serveWithToken plainJwt halfHour (fun _ => none) 1700001740000000
            (some response.accessToken) (sampleAmbient 0 41) request).exec
          (.fresh (evesRun [true, false, true, true, false, false])) =
        (serve (sampleAmbient 0 41) eve.id request).exec
          (.fresh (evesRun [true, false, true, true, false, false])) ∧
        (serveWithToken plainJwt halfHour (fun _ => none) 1700001800000000
            (some response.accessToken) (sampleAmbient 0 41) request).exec
          (.fresh (evesRun [true, false, true, true, false, false])) =
        (.error invalidOrExpired, .fresh (evesRun [true, false, true, true, false, false])) := by
  have hjoined : eve ∈ (evesRun [true, false, true, true]).users := by decide +kernel
  have hverified : verifyPassword bcrypt4 "Password123!" eve.passwordHash = .ok true := by
    decide +kernel
  have hissues : halfHour.Issues 1700000000000000 none :=
    ⟨by decide, fun _ => ⟨keepsSecond_of_lt (by decide) (by decide),
      keepsSecond_of_lt (by decide) (by decide)⟩, fun _ _ =>
      keepsSecond_of_lt (by decide) (by decide)⟩
  obtain ⟨_, response, hlogin, hserves⟩ := account_serves_until_expiry plainJwt halfHour
    (fun _ => none) plainJwt_roundTrips newPlatform eveAndAlice evesAmbient plainText_lawful
    (by decide) eveAndAlice_admitted [true, false, true, true] [false] eve hjoined bcrypt4
    ⟨"EVE@example.com", "Password123!"⟩ (by decide) true hverified 1700000000000000 (by decide)
    hissues
  refine ⟨response, hlogin, fun request => ⟨?_, ?_⟩⟩
  · refine (hserves [false] 1700001740000000 (sampleAmbient 0 41) request (by decide)).trans ?_
    exact if_pos (by decide)
  · refine (hserves [false] 1700001800000000 (sampleAmbient 0 41) request (by decide)).trans ?_
    exact if_neg (by decide)

end Example

end BookingPlatform
