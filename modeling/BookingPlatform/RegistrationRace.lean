import BookingPlatform.Accounts
import BookingPlatform.ReviewRace

/-!
# Registering side by side

`register_user` looks for the address without regard to case, the constraint compares it
as it is stored. The schema stores normalised addresses only, so what slips past the
look-up meets the constraint.
-/

namespace BookingPlatform

set_option autoImplicit false

open Transact Transact.Program

/-- One `register_user` request, with a payload the schema admits and a password that
bcrypt hashes. -/
structure Registration where
  amb : Ambient
  fields : UserRegisterFields
  userIn : UserRegister
  hashedPw : String
  admitted : UserRegister.validate amb fields = .ok userIn
  hashed : amb.hashpw userIn.password = .ok hashedPw

namespace Registration
variable (x : Registration)

def event : Event := .register x.amb x.userIn

/-- The row the request adds. -/
def account : User := newUser x.amb x.userIn x.hashedPw

/-- The one commit of the request. -/
def Adds (s t : Store) : Prop :=
  t.toTables = { s.toTables with users := s.users ++ [x.account] }

structure Before (s : Store) : Prop where
  normalised : x.amb.text.Normalised s.users
  absent : ∀ u ∈ s.users, u.id ≠ x.amb.uuid4

def emailTaken : Error := http 409 "A user with this email address already exists"

def Taken (s : Store) : Prop := ∃ u ∈ s.users, u.email = x.userIn.email

/-- What the answer of the request says about the users. -/
def Answered : Except Error Response → List Write → Store → Prop
  | .ok (.user u), _, s => u = x.account ∧ u ∈ s.users
  | .ok _, _, _ => False
  | .error e, _, s => e = emailTaken ∧ x.Taken s ∧ ∀ u ∈ s.users, u.id ≠ x.amb.uuid4

variable {x} {s t : Store}

theorem email_eq : x.userIn.email = x.amb.text.normalize x.fields.email :=
  (validate_register x.admitted).1

theorem account_email : x.account.email = x.amb.text.normalize x.fields.email := email_eq

theorem Adds.users (h : x.Adds s t) : t.users = s.users ++ [x.account] := by rw [h]

theorem Adds.mem (h : x.Adds s t) {u : User} (hu : u ∈ s.users) : u ∈ t.users := by
  rw [h.users]
  exact List.mem_append_left _ hu

theorem Adds.new (h : x.Adds s t) {u : User} (hu : u ∈ t.users) :
    u ∈ s.users ∨ u = x.account := by
  rw [h.users] at hu
  exact (List.mem_append.mp hu).imp_right List.mem_singleton.mp

theorem Adds.normalised (hlaws : x.amb.text.Lawful) (h : x.Adds s t)
    (hs : x.amb.text.Normalised s.users) : x.amb.text.Normalised t.users := by
  intro u hu
  rcases h.new hu with hold | rfl
  · exact hs u hold
  · rw [account_email]
    exact hlaws.idempotent _

end Registration

section OneRequest
variable {x : Registration} {s : Store}

/-- The commits of the others: registrations with other identifiers. -/
def OthersRegister (x : Registration) (s t : Store) : Prop :=
  ∃ y : Registration, y.amb.text = x.amb.text ∧ y.amb.uuid4 ≠ x.amb.uuid4 ∧ y.Adds s t

theorem Registration.Before.stable (hlaws : x.amb.text.Lawful) :
    Stable (D := platform) (OthersRegister x) x.Before := by
  rintro s t ⟨y, htext, hne, hadds⟩ hs
  constructor
  · rw [← htext] at hlaws ⊢
    exact hadds.normalised hlaws (htext ▸ hs.normalised)
  · intro u hu
    rcases hadds.new hu with hold | rfl
    · exact hs.absent u hold
    · exact hne

theorem taken_stable : Stable (D := platform) (OthersRegister x) x.Taken := by
  rintro s t ⟨y, _, _, hadds⟩ ⟨u, hu, hemail⟩
  exact ⟨u, hadds.mem hu, hemail⟩

theorem account_stable {u : User} :
    Stable (D := platform) (OthersRegister x) fun s => u ∈ s.users := by
  rintro s t ⟨y, _, _, hadds⟩ hu
  exact hadds.mem hu

theorem taken_answer (hs : x.Before s) (htaken : x.Taken s) :
    x.Answered (.error Registration.emailTaken) [] s := ⟨rfl, htaken, hs.absent⟩

/-- The insert and what comes after it. -/
theorem within_insertUser (hlaws : x.amb.text.Lawful) :
    Within (D := platform) (OthersRegister x) x.Adds
      (Response.user <$> commitOr409 [.insertUser x.account] (getUser x.amb.uuid4)
        "A user with this email address already exists") [] x.Before x.Answered := by
  refine within_commitOr409 (K := fun s => x.account ∈ s.users) (L := x.Taken) (select_eq _) ?_
    account_stable ?_ (fun s hmem => ⟨rfl, hmem⟩) (fun s e hs => insertUser_refused hs.absent)
    (Registration.Before.stable hlaws) taken_stable fun s hs htaken => taken_answer hs htaken
  · intro s t _ happ
    have hadds : x.Adds s t := tables_of_applyAll happ
    refine ⟨hadds, ?_⟩
    rw [hadds.users]
    exact List.mem_append_right _ List.mem_cons_self
  · intro s hmem
    exact s.user?_eq_some.mpr ⟨hmem, rfl⟩

theorem within_registration (hlaws : x.amb.text.Lawful) :
    Within (D := platform) (OthersRegister x) x.Adds x.event.program [] x.Before x.Answered := by
  have hnormal : x.amb.text.normalize x.userIn.email = x.userIn.email := by
    rw [Registration.email_eq, hlaws.idempotent]
  have hrows : ∀ s : Store, x.Before s →
      s.answer (.usersByEmail x.amb.sqlLower (x.amb.text.normalize x.userIn.email)) =
        (s.userOf x.userIn.email).toList := by
    intro s hs
    rw [hnormal]
    exact usersByEmail_eq hlaws hs.normalised _
  intro rows
  match rows with
  | [] =>
    refine ⟨x.Before, Registration.Before.stable hlaws, fun s hs _ => hs, ?_⟩
    change Within _ _ (Response.user <$> (hashPassword x.amb x.userIn.password >>= fun hashedPw =>
      commitOr409 [.insertUser (newUser x.amb x.userIn hashedPw)] (getUser x.amb.uuid4)
        "A user with this email address already exists")) _ _ _
    rw [hashPassword, x.hashed]
    exact within_insertUser hlaws
  | [u] =>
    refine ⟨fun s => x.Before s ∧ x.Taken s, (Registration.Before.stable hlaws).and taken_stable,
      fun s hs hfound => ⟨hs, u, ?_⟩, fun s hs => taken_answer hs.1 hs.2⟩
    have hone : (s.userOf x.userIn.email).toList = [u] := (hrows s hs).symm.trans hfound
    exact s.userOf_eq_some.mp (Option.toList_eq_singleton_iff.mp hone)
  | u :: v :: rest =>
    refine ⟨fun _ => False, fun _ _ _ h => h, fun s hs hfound => ?_, within_false⟩
    have hmany : (s.userOf x.userIn.email).toList = u :: v :: rest := (hrows s hs).symm.trans hfound
    cases hu : s.userOf x.userIn.email <;> simp [hu] at hmany

/-- The SELECT by the address, the commit, and what follows. -/
theorem registration_endsIn : x.event.program.EndsIn 4 := by
  refine EndsIn.map (n := 4) ((EndsIn.bind (m := 1) (n := 0) (endsIn_select _) ?_).bind
    (n := 3) fun existing => ?_)
  · intro rows
    match rows with
    | [] => exact endsIn_done
    | [u] => exact endsIn_done
    | u :: v :: rest => exact endsIn_done
  · refine (endsIn_refuseIf _ _).bind (m := 0) (n := 3) fun _ => ?_
    refine EndsIn.bind (m := 0) (n := 3) endsIn_done fun hashedPw => ?_
    exact endsIn_commitOr409 _ _ (endsIn_select _)

end OneRequest

section Race
variable {ι : Type} [DecidableEq ι] {requests : ι → Registration} {text : Text} {s₀ : Store}

/-- The requests side by side, after the turns of the schedule. -/
def registrationRace (requests : ι → Registration) (s₀ : Store) (schedule : List ι) :
    System platform ι Response :=
  (concurrently (fun i => (requests i).event) s₀).run schedule

/-- Where every account of the store comes from, and that all are normalised. -/
def Enrolled (text : Text) (requests : ι → Registration) (s₀ s : Store) : Prop :=
  text.Normalised s.users ∧ (∀ u ∈ s₀.users, u ∈ s.users) ∧
    ∀ u ∈ s.users, u ∈ s₀.users ∨ ∃ i, u = (requests i).account

/-- In every interleaving, what a request has been answered holds of the users there are. -/
theorem registrations_run (hlaws : text.Lawful) (htext : ∀ i, (requests i).amb.text = text)
    (hnormal : text.Normalised s₀.users)
    (hids : Function.Injective fun i => (requests i).amb.uuid4)
    (hfresh : ∀ i, ∀ u ∈ s₀.users, u.id ≠ (requests i).amb.uuid4) (schedule : List ι) :
    Enrolled text requests s₀ (registrationRace requests s₀ schedule).store ∧
    ∀ i r, (registrationRace requests s₀ schedule).outcome i = some r →
      ∃ ws, (requests i).Answered r ws (registrationRace requests s₀ schedule).store := by
  have hlawful : ∀ i, (requests i).amb.text.Lawful := fun i => htext i ▸ hlaws
  have hsafe : System.Safe (D := platform) (fun i => OthersRegister (requests i))
      (fun i => (requests i).Adds) (fun i => (requests i).Answered)
      (concurrently (fun i => (requests i).event) s₀) :=
    .boot (fun i => Registration.Before.stable (hlawful i))
      (fun i => ⟨(htext i).symm ▸ hnormal, hfresh i⟩) fun i => within_registration (hlawful i)
  have hkeeps : ∀ i s t, (requests i).Adds s t → Enrolled text requests s₀ s →
      Enrolled text requests s₀ t := by
    intro i s t hadds hs
    refine ⟨?_, fun u hu => hadds.mem (hs.2.1 u hu), fun u hu => ?_⟩
    · rw [← htext i] at hs ⊢
      exact hadds.normalised (hlawful i) hs.1
    · rcases hadds.new hu with hold | rfl
      · exact hs.2.2 u hold
      · exact .inr ⟨i, rfl⟩
  obtain ⟨hsafe, hstore⟩ := hsafe.run
    (fun i j s t hne hadds => ⟨requests j, (htext j).trans (htext i).symm,
      fun heq => hne (hids heq).symm, hadds⟩) hkeeps
    ⟨hnormal, fun u hu => hu, fun u hu => .inl hu⟩ schedule
  exact ⟨hstore, fun i r hr => hsafe.ended hr⟩

end Race

/-- Whatever the interleaving of any registrations: all stored addresses are normalised and
differ as such, so the look-up by address finds the one account there is; every new account
is a customer's; four turns are enough for an answer; and when all requests for an address
that was free are answered, exactly one of them has succeeded and all others were told 409. -/
theorem accounts_stay_unique {ι : Type} [DecidableEq ι] (requests : ι → Registration)
    (text : Text) (hlaws : text.Lawful) (htext : ∀ i, (requests i).amb.text = text)
    (s₀ : Store) (hnormal : text.Normalised s₀.users)
    (hids : Function.Injective fun i => (requests i).amb.uuid4)
    (hfresh : ∀ i, ∀ u ∈ s₀.users, u.id ≠ (requests i).amb.uuid4) (schedule : List ι) :
    let S := registrationRace requests s₀ schedule
    text.Normalised S.store.users ∧
    (∀ u ∈ S.store.users, ∀ v ∈ S.store.users,
      text.normalize u.email = text.normalize v.email → u = v) ∧
    (∀ amb : Ambient, amb.text = text → ∀ email, outcome S.store (getUserByEmail amb email) =
      .ok (S.store.userOf (text.normalize email))) ∧
    (∀ u ∈ S.store.users, u ∈ s₀.users ∨ u.role = .customer) ∧
    (∀ i, 4 ≤ schedule.count i → ∃ r, S.outcome i = some r) ∧
    ∀ email, (∀ u ∈ s₀.users, u.email ≠ email) →
      (∀ i, (requests i).userIn.email = email → ∃ r, S.outcome i = some r) →
      (∃ i, (requests i).userIn.email = email) →
        ∃ winner user, (requests winner).userIn.email = email ∧ user ∈ S.store.users ∧
          user.email = email ∧ user.role = .customer ∧
          S.outcome winner = some (.ok (.user user)) ∧
          ∀ i, (requests i).userIn.email = email → i ≠ winner → S.outcome i =
            some (.error (http 409 "A user with this email address already exists")) := by
  intro S
  obtain ⟨⟨hall, hold, horigin⟩, hanswered⟩ :=
    registrations_run hlaws htext hnormal hids hfresh schedule
  have hunique : ∀ u ∈ S.store.users, ∀ v ∈ S.store.users, u.email = v.email → u = v :=
    fun u hu v hv h => List.inj_on_of_nodup_map S.store.sound.usersEmail hu hv h
  refine ⟨hall, fun u hu v hv h => ?_, fun amb hamb email => ?_, fun u hu => ?_,
    fun i hturns => ?_, fun email hfree hdone hsome => ?_⟩
  · rw [hall u hu, hall v hv] at h
    exact hunique u hu v hv h
  · subst hamb
    exact congrArg Prod.fst (exec_getUserByEmail (usersByEmail_eq hlaws hall _))
  · rcases horigin u hu with h | ⟨i, rfl⟩
    · exact .inl h
    · exact .inr rfl
  · exact System.outcome_of_turns registration_endsIn hturns
  -- The address is taken now: by the request at hand, or by the one it lost to.
  have htaken : ∃ u ∈ S.store.users, u.email = email := by
    obtain ⟨i, rfl⟩ := hsome
    obtain ⟨out, hout⟩ := hdone i rfl
    obtain ⟨_, h⟩ := hanswered i out hout
    match out, h with
    | .ok (.user u), h => exact ⟨u, h.2, h.1 ▸ rfl⟩
    | .error e, h => exact h.2.1
  obtain ⟨user, huser, hemail⟩ := htaken
  obtain ⟨winner, hwinner⟩ := (horigin user huser).resolve_left fun h => hfree user h hemail
  have hfor : (requests winner).userIn.email = email := by
    rw [← hemail, hwinner]
    rfl
  -- Every answered request for it holds that account or has lost.
  have hanswers : ∀ i, (requests i).userIn.email = email →
      (S.outcome i = some (.ok (.user user)) ∧ user.id = (requests i).amb.uuid4) ∨
        (S.outcome i = some (.error Registration.emailTaken) ∧
          user.id ≠ (requests i).amb.uuid4) := by
    intro i hi
    obtain ⟨out, hout⟩ := hdone i hi
    obtain ⟨_, h⟩ := hanswered i out hout
    match out, h with
    | .ok (.user u), h =>
      obtain rfl : u = user := hunique u h.2 user huser (by rw [hemail, ← hi, h.1]; rfl)
      exact .inl ⟨hout, h.1 ▸ rfl⟩
    | .error e, h => exact .inr ⟨h.1 ▸ hout, h.2.2 user huser⟩
  refine ⟨winner, user, hfor, huser, hemail, hwinner ▸ rfl, ?_, fun i hi hne => ?_⟩
  · rcases hanswers winner hfor with h | h
    · exact h.1
    · exact absurd (hwinner ▸ rfl) h.2
  · rcases hanswers i hi with h | h
    · exact absurd (hids (h.2.symm.trans (hwinner ▸ rfl))) hne
    · exact h.1

section Example

theorem evesEmail (i : Bool) :
    3 ≤ (if i then "Eve@Example.com" else "eve@example.COM").length ∧
      (if i then "Eve@Example.com" else "eve@example.COM").length ≤ 255 := by
  cases i <;> decide

/-- Eve registers twice, in two spellings of her address. -/
def eveTwice (i : Bool) : Registration where
  amb := plainAmbient (if i then 40 else 41)
  fields := ⟨"Eve", if i then "Eve@Example.com" else "eve@example.COM", "Password123!",
    evesName, evesEmail i, by decide⟩
  userIn := ⟨"Eve", "eve@example.com", "Password123!"⟩
  hashedPw := "Password123!"
  admitted := by cases i <;> rfl
  hashed := rfl

/-- Both look before either has inserted: the second insert meets the constraint. -/
theorem accounts_stay_unique_eve :
    ∃ winner user, (registrationRace eveTwice newPlatform
        [true, false, true, false, true, false, true, false]).outcome winner =
          some (.ok (.user user)) ∧ user.email = "eve@example.com" ∧
      (registrationRace eveTwice newPlatform
        [true, false, true, false, true, false, true, false]).outcome (!winner) =
          some (.error (http 409 "A user with this email address already exists")) := by
  have hids : Function.Injective fun i => (eveTwice i).amb.uuid4 := by
    intro i j h
    cases i <;> cases j <;> first | rfl | exact absurd h (by decide)
  have hrace := accounts_stay_unique eveTwice plainText plainText_lawful (fun _ => rfl)
    newPlatform (by decide) hids (by decide) [true, false, true, false, true, false, true, false]
  obtain ⟨winner, user, _, _, hemail, _, hwins, hothers⟩ :=
    hrace.2.2.2.2.2 "eve@example.com" (by decide)
      (fun i _ => hrace.2.2.2.2.1 i (by cases i <;> decide)) ⟨true, rfl⟩
  exact ⟨winner, user, hwins, hemail, hothers _ rfl (by cases winner <;> decide)⟩

end Example

end BookingPlatform
