import BookingPlatform.Outcomes

/-!
# The three ways to cancel

`cancel_booking`, a PATCH to CANCELLED and `delete_booking` guard the same
transaction differently.
-/

namespace BookingPlatform

set_option autoImplicit false

open Transact Transact.Program

section Guards
variable {s : Store} {b : Booking} {user : User} {bookingId : UUID}

/-- Every role may cancel a booking that is still open. -/
theorem validate_cancelled_open (user : User) (hopen : ¬ b.status.Terminal) :
    validateStatusTransition b.status .cancelled user.role = .ok () := by
  cases hs : b.status with
  | pending => cases user.role <;> rfl
  | confirmed => cases user.role <;> rfl
  | completed => exact absurd (.inr hs) hopen
  | cancelled => exact absurd (.inl hs) hopen

theorem validate_cancelled_terminal (user : User) (hterminal : b.status.Terminal) :
    ∃ detail,
      validateStatusTransition b.status .cancelled user.role = .error (http 400 detail) := by
  rcases hterminal with hs | hs <;> rw [hs] <;> exact ⟨_, rfl⟩

theorem exec_deleteBooking_open (amb : Ambient) (hb : s.booking? bookingId = some b)
    (hpending : b.status = .pending) (hrole : user.role ≠ .provider)
    (haccess : b.accessibleTo user) :
    (deleteBooking amb bookingId user).exec (.fresh s) =
      ending s (platform.applyAll (cancellation amb b user) s) () := by
  obtain ⟨_, rfl⟩ := s.booking?_eq_some.mp hb
  have hrow : (getBooking b.id).exec (.fresh s) = (.ok (some b), .fresh s) := by
    rw [exec_getBooking, Session.fresh_working, hb]
  have howner : ¬ (user.role = .customer ∧ b.customerId ≠ user.id) := by
    rintro ⟨hc, hne⟩
    rcases haccess with ha | ⟨_, hown⟩ | ⟨hp, _⟩
    · rw [hc] at ha
      cases ha
    · exact hne hown
    · exact hrole hp
  refine (exec_bind_ok (exec_getOr404_some hrow)).trans ?_
  refine (exec_pass hrole).trans ((exec_pass howner).trans ?_)
  refine (exec_pass (by simp [hpending])).trans ((exec_pass (by simp [hpending])).trans ?_)
  exact (exec_pass (by simp [hpending])).trans exec_cancel_and_commit

/-- What `delete_booking` refuses before it writes anything. -/
theorem exec_deleteBooking_refused (amb : Ambient)
    (h : ¬ ∃ b, s.booking? bookingId = some b ∧ b.status = .pending ∧ user.role ≠ .provider ∧
      b.accessibleTo user) :
    ∃ e, (deleteBooking amb bookingId user).exec (.fresh s) = (.error e, .fresh s) := by
  cases hb : s.booking? bookingId with
  | none =>
    refine ⟨_, exec_bind_error (exec_getOr404_none ?_)⟩
    rw [exec_getBooking, Session.fresh_working, hb]
  | some b =>
    have hrow : (getBooking bookingId).exec (.fresh s) = (.ok (some b), .fresh s) := by
      rw [exec_getBooking, Session.fresh_working, hb]
    unfold deleteBooking
    rw [exec_bind_ok (exec_getOr404_some hrow)]
    by_cases hrole : user.role = .provider
    · exact ⟨_, exec_refuse hrole⟩
    rw [exec_pass hrole]
    by_cases howner : user.role = .customer ∧ b.customerId ≠ user.id
    · exact ⟨_, exec_refuse howner⟩
    rw [exec_pass howner]
    by_cases hcompleted : b.status = .completed
    · exact ⟨_, exec_refuse hcompleted⟩
    rw [exec_pass hcompleted]
    by_cases hconfirmed : b.status = .confirmed
    · exact ⟨_, exec_refuse hconfirmed⟩
    rw [exec_pass hconfirmed]
    by_cases hcancelled : b.status = .cancelled
    · exact ⟨_, exec_refuse hcancelled⟩
    refine absurd ⟨b, hb, ?_, hrole, ?_⟩ h
    · cases hs : b.status <;> simp_all
    · cases hr : user.role with
      | admin => exact .inl hr
      | provider => exact absurd hr hrole
      | customer => exact .inr (.inl ⟨hr, not_not.mp fun hne => howner ⟨hr, hne⟩⟩)

/-- What `cancel_booking` refuses before it writes anything. -/
theorem exec_cancelBooking_refused (amb : Ambient)
    (h : ¬ ∃ b, s.booking? bookingId = some b ∧ b.accessibleTo user ∧ ¬ b.status.Terminal) :
    ∃ e, (cancelBooking amb bookingId user).exec (.fresh s) = (.error e, .fresh s) := by
  cases hb : s.booking? bookingId with
  | none => exact ⟨_, exec_bind_error (exec_getBookingById_missing hb)⟩
  | some b =>
    by_cases haccess : b.accessibleTo user
    · by_cases hterminal : b.status.Terminal
      · obtain ⟨detail, hvalid⟩ := validate_cancelled_terminal user hterminal
        exact ⟨_, exec_cancelBooking_invalid hb haccess hvalid⟩
      · exact absurd ⟨b, hb, haccess, hterminal⟩ h
    · exact ⟨_, exec_bind_error (exec_getBookingById_denied hb haccess)⟩

end Guards

theorem outcome_of_exec {α : Type} {p : Service α} {s : Store} {r : Except Error α}
    {σ : Session platform} (h : p.exec (.fresh s) = (r, σ)) : outcome s p = r :=
  congrArg Prod.fst h

theorem leaves_of_exec {α : Type} {p : Service α} {s : Store} {r : Except Error α}
    {σ : Session platform} (h : p.exec (.fresh s) = (r, σ)) : leaves s p = σ.committed :=
  congrArg (fun x => x.2.committed) h

/-- A block that ends in a commit succeeds just if the commit does. -/
theorem outcome_of_ending {α : Type} {p : Service α} {s : Store} {end_ : Except Error Store}
    {a a' : α} (h : p.exec (.fresh s) = ending s end_ a) :
    outcome s p = .ok a' ↔ ∃ t, a' = a ∧ end_ = .ok t ∧ leaves s p = t := by
  cases end_ with
  | ok t =>
    rw [outcome_of_exec h, leaves_of_exec h]
    constructor
    · intro ha
      cases ha
      exact ⟨t, rfl, rfl, rfl⟩
    · intro hcommitted
      obtain ⟨_, rfl, _, _⟩ := hcommitted
      rfl
  | error e =>
    rw [outcome_of_exec h]
    constructor
    · intro ha
      cases ha
    · intro hcommitted
      obtain ⟨_, _, ht, _⟩ := hcommitted
      cases ht

section Map
variable {α β : Type} (f : α → β) (p : Service α) (s : Store)

theorem leaves_map : leaves s (f <$> p) = leaves s p := by
  change ((p >>= fun a => pure (f a)).exec (.fresh s)).2.committed = _
  rw [exec_bind]
  unfold leaves
  rcases p.exec (.fresh s) with ⟨_ | _, τ⟩ <;> rfl

theorem outcome_map : outcome s (f <$> p) = f <$> outcome s p := by
  change ((p >>= fun a => pure (f a)).exec (.fresh s)).1 = _
  rw [exec_bind]
  unfold outcome
  rcases p.exec (.fresh s) with ⟨_ | _, τ⟩ <;> rfl

end Map

section Agreement
variable (s : Store) (amb : Ambient) (bookingId : UUID) (user : User)

/-- The same success, or a refusal with the same status code. -/
def SameEnd {α : Type} (p q : Service α) : Prop :=
  (∃ a, outcome s p = .ok a ∧ outcome s q = .ok a ∧ leaves s p = leaves s q) ∨
    ∃ e e', outcome s p = .error e ∧ outcome s q = .error e' ∧ e.statusCode = e'.statusCode ∧
      leaves s p = s ∧ leaves s q = s

variable {s amb bookingId user}

theorem sameEnd_of_error {α : Type} {p q : Service α} {e e' : Error}
    (hp : p.exec (.fresh s) = (.error e, .fresh s))
    (hq : q.exec (.fresh s) = (.error e', .fresh s)) (hcode : e.statusCode = e'.statusCode) :
    SameEnd s p q :=
  .inr ⟨e, e', outcome_of_exec hp, outcome_of_exec hq, hcode, leaves_of_exec hp,
    leaves_of_exec hq⟩

theorem sameEnd_of_ending {α : Type} {p q : Service α} {end_ : Except Error Store} {a : α}
    (hp : p.exec (.fresh s) = ending s end_ a) (hq : q.exec (.fresh s) = ending s end_ a) :
    SameEnd s p q := by
  cases end_ with
  | ok t =>
    exact .inl ⟨a, outcome_of_exec hp, outcome_of_exec hq,
      (leaves_of_exec hp).trans (leaves_of_exec hq).symm⟩
  | error e => exact sameEnd_of_error hp hq rfl

theorem cancel_sameEnd_patch {u : BookingUpdate} (hu : u.CancelsOnly) :
    SameEnd s (cancelBooking amb bookingId user) (updateBooking amb bookingId u user) := by
  cases hb : s.booking? bookingId with
  | none =>
    exact sameEnd_of_error (exec_bind_error (exec_getBookingById_missing hb))
      (exec_updateBooking_missing hb) rfl
  | some b =>
    by_cases haccess : b.accessibleTo user
    · by_cases hterminal : b.status.Terminal
      · obtain ⟨detail, hvalid⟩ := validate_cancelled_terminal user hterminal
        have hpatch := exec_updateBooking_terminal amb u hb haccess hterminal
        have herror : terminalError b u.status user.role = http 400 detail := by
          unfold terminalError
          rw [hu.1]
          simp only [hvalid]
        rw [herror] at hpatch
        exact sameEnd_of_error (exec_cancelBooking_invalid hb haccess hvalid) hpatch rfl
      · have hvalid := validate_cancelled_open user hterminal
        exact sameEnd_of_ending (exec_cancelBooking_valid amb hb haccess hvalid)
          (exec_updateBooking_valid hu hb haccess hterminal hvalid)
    · exact sameEnd_of_error (exec_bind_error (exec_getBookingById_denied hb haccess))
        (exec_updateBooking_denied hb haccess) rfl

theorem deleteBooking_ok_iff :
    outcome s (deleteBooking amb bookingId user) = .ok () ↔
      ∃ b t, s.booking? bookingId = some b ∧ b.status = .pending ∧ user.role ≠ .provider ∧
        b.accessibleTo user ∧ platform.applyAll (cancellation amb b user) s = .ok t ∧
        leaves s (deleteBooking amb bookingId user) = t := by
  constructor
  · intro hok
    by_cases h : ∃ b, s.booking? bookingId = some b ∧ b.status = .pending ∧
        user.role ≠ .provider ∧ b.accessibleTo user
    · obtain ⟨b, hb, hpending, hrole, haccess⟩ := h
      have hexec := exec_deleteBooking_open amb hb hpending hrole haccess
      obtain ⟨t, _, hall, hleft⟩ := (outcome_of_ending hexec).mp hok
      exact ⟨b, t, hb, hpending, hrole, haccess, hall, hleft⟩
    · obtain ⟨e, hexec⟩ := exec_deleteBooking_refused amb h
      cases (outcome_of_exec hexec).symm.trans hok
  · rintro ⟨b, t, hb, hpending, hrole, haccess, hall, hleft⟩
    have hexec := exec_deleteBooking_open amb hb hpending hrole haccess
    exact (outcome_of_ending hexec).mpr ⟨t, rfl, hall, hleft⟩

theorem cancelBooking_ok_iff {b' : Booking} :
    outcome s (cancelBooking amb bookingId user) = .ok b' ↔
      ∃ b t, s.booking? bookingId = some b ∧ b.accessibleTo user ∧ ¬ b.status.Terminal ∧
        b' = b.cancelled ∧ platform.applyAll (cancellation amb b user) s = .ok t ∧
        leaves s (cancelBooking amb bookingId user) = t := by
  constructor
  · intro hok
    by_cases h : ∃ b, s.booking? bookingId = some b ∧ b.accessibleTo user ∧ ¬ b.status.Terminal
    · obtain ⟨b, hb, haccess, hopen⟩ := h
      have hexec := exec_cancelBooking_valid amb hb haccess (validate_cancelled_open user hopen)
      obtain ⟨t, hsame, hall, hleft⟩ := (outcome_of_ending hexec).mp hok
      exact ⟨b, t, hb, haccess, hopen, hsame, hall, hleft⟩
    · obtain ⟨e, hexec⟩ := exec_cancelBooking_refused amb h
      cases (outcome_of_exec hexec).symm.trans hok
  · rintro ⟨b, t, hb, haccess, hopen, rfl, hall, hleft⟩
    have hexec := exec_cancelBooking_valid amb hb haccess (validate_cancelled_open user hopen)
    exact (outcome_of_ending hexec).mpr ⟨t, rfl, hall, hleft⟩

end Agreement

/-- On every store the three routes agree, up to the bookings `delete_booking` leaves to
the others. -/
theorem cancel_three_ways (s : Store) (amb : Ambient) (bookingId : UUID) (user : User) :
    (∀ u : BookingUpdate, u.CancelsOnly →
      (∃ b, outcome s (cancelBooking amb bookingId user) = .ok b ∧
        outcome s (updateBooking amb bookingId u user) = .ok b ∧
        leaves s (cancelBooking amb bookingId user) =
          leaves s (updateBooking amb bookingId u user)) ∨
      ∃ e e', outcome s (cancelBooking amb bookingId user) = .error e ∧
        outcome s (updateBooking amb bookingId u user) = .error e' ∧
        e.statusCode = e'.statusCode ∧
        leaves s (cancelBooking amb bookingId user) = s ∧
        leaves s (updateBooking amb bookingId u user) = s) ∧
    (outcome s (deleteBooking amb bookingId user) = .ok () ↔
      (∃ b, outcome s (cancelBooking amb bookingId user) = .ok b) ∧
        (∃ b, s.booking? bookingId = some b ∧ b.status = .pending) ∧ user.role ≠ .provider) ∧
    (outcome s (deleteBooking amb bookingId user) = .ok () →
      leaves s (deleteBooking amb bookingId user) =
        leaves s (cancelBooking amb bookingId user)) := by
  have hpending : ∀ b : Booking, b.status = .pending → ¬ b.status.Terminal := by
    intro b hb
    rw [hb]
    decide
  refine ⟨fun u hu => cancel_sameEnd_patch hu, ⟨fun hok => ?_, ?_⟩, fun hok => ?_⟩
  · obtain ⟨b, t, hb, hs, hrole, haccess, hall, _⟩ := deleteBooking_ok_iff.mp hok
    have hexec := exec_cancelBooking_valid amb hb haccess
      (validate_cancelled_open user (hpending b hs))
    rw [hall] at hexec
    exact ⟨⟨_, outcome_of_exec hexec⟩, ⟨b, hb, hs⟩, hrole⟩
  · rintro ⟨⟨b', hok⟩, ⟨b, hb, hs⟩, hrole⟩
    obtain ⟨x, t, hx, haccess, _, _, hall, _⟩ := cancelBooking_ok_iff.mp hok
    obtain rfl := Option.some.inj (hb.symm.trans hx)
    have hexec := exec_deleteBooking_open amb hb hs hrole haccess
    rw [hall] at hexec
    exact outcome_of_exec hexec
  · obtain ⟨b, t, hb, hs, hrole, haccess, hall, hleaves⟩ := deleteBooking_ok_iff.mp hok
    have hexec := exec_cancelBooking_valid amb hb haccess
      (validate_cancelled_open user (hpending b hs))
    rw [hall] at hexec
    exact hleaves.trans (leaves_of_exec hexec).symm

theorem cancel_three_ways_pending :
    leaves (run newPlatform [booksAt alice 10 (10 * hour)])
        (deleteBooking (sampleAmbient 1 0) 10 alice) =
      leaves (run newPlatform [booksAt alice 10 (10 * hour)])
        (cancelBooking (sampleAmbient 1 0) 10 alice) :=
  (cancel_three_ways (run newPlatform [booksAt alice 10 (10 * hour)]) (sampleAmbient 1 0) 10
    alice).2.2 (by rfl)

end BookingPlatform
