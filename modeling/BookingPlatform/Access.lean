import BookingPlatform.Acceptance

/-!
# Whose booking it is

What the user named as the customer of a booking can do with it, by that user's role.
-/

namespace BookingPlatform

set_option autoImplicit false

open Transact Transact.Program

/-- `u` can read `b`, finds it in the list, can cancel it while it is open and can
review it when it is completed. -/
structure Controls (s : Store) (amb : Ambient) (u : User) (b : Booking) : Prop where
  reads : outcome s (getBookingById b.id u) = .ok b
  finds : ∀ limit, 0 < limit → ∃ page rows,
    outcome s (listBookings u none (page * limit) limit) = .ok rows ∧ b ∈ rows
  cancels : b.status = .pending ∨ b.status = .confirmed →
    ∃ b', outcome s (cancelBooking amb b.id u) = .ok b'
  reviews : b.status = .completed → (∀ r ∈ s.reviews, r.bookingId ≠ b.id) →
    ∀ reviewIn : ReviewCreate, reviewIn.bookingId = b.id →
      ∃ r, outcome s (createReview amb u reviewIn) = .ok r

/-- Pages of any one size, taken together, leave nothing out. -/
theorem mem_page {α : Type} {rows : List α} {x : α} (hx : x ∈ rows) {limit : Nat}
    (hlimit : 0 < limit) : ∃ page, x ∈ (rows.drop (page * limit)).take limit := by
  obtain ⟨i, hi, rfl⟩ := List.mem_iff_getElem.mp hx
  have hsplit : i / limit * limit + i % limit = i := Nat.div_add_mod' i limit
  have hmod : i % limit < limit := Nat.mod_lt i hlimit
  refine ⟨i / limit, List.mem_iff_getElem.mpr ⟨i % limit, ?_, ?_⟩⟩
  · rw [List.length_take, List.length_drop]
    omega
  · simp only [List.getElem_take, List.getElem_drop, hsplit]

section OneBooking
variable {s : Store} {amb : Ambient} {u : User} {b : Booking}

theorem listed_of_visible (hb : b ∈ s.bookings) (hvisible : b.visibleTo u = true) {limit : Nat}
    (hlimit : 0 < limit) :
    ∃ page rows, outcome s (listBookings u none (page * limit) limit) = .ok rows ∧ b ∈ rows := by
  have hrow : b ∈ (s.bookings.filter fun b => b.visibleTo u &&
      (none : Option BookingStatus).all fun s => b.status = s).insertionSort
        Booking.listedBefore :=
    (List.mem_insertionSort _).mpr (List.mem_filter.mpr ⟨hb, by simp [hvisible]⟩)
  obtain ⟨page, hpage⟩ := mem_page hrow hlimit
  exact ⟨page, _, rfl, hpage⟩

theorem customer_controls (hb : b ∈ s.bookings) (hu : u ∈ s.users) (hid : u.id = b.customerId)
    (hfresh : amb.Fresh s) (hrole : u.role = .customer) : Controls s amb u b where
  reads := outcome_of_exec (exec_getBookingById_granted (s.booking?_eq_some.mpr ⟨hb, rfl⟩)
    (.inr (.inl ⟨hrole, hid.symm⟩)))
  finds := fun _ => listed_of_visible hb (by simp [Booking.visibleTo, hrole, hid])
  cancels := by
    intro hopen
    refine ⟨_, cancelBooking_ok hb hfresh (.inr (.inl ⟨hrole, hid.symm⟩)) ?_⟩
    rcases hopen with hs | hs <;> rw [hs] <;> decide
  reviews := fun hcompleted hfirst _ hbooking =>
    ⟨_, createReview_ok hb hbooking.symm hu hrole hid.symm hcompleted hfirst hfresh⟩

/-- An admin who books for themselves can do everything but review. -/
theorem admin_controls (hb : b ∈ s.bookings) (hfresh : amb.Fresh s) (hrole : u.role = .admin)
    (hreviewed : b.status = .completed → ∃ r ∈ s.reviews, r.bookingId = b.id) :
    Controls s amb u b where
  reads := outcome_of_exec (exec_getBookingById_granted (s.booking?_eq_some.mpr ⟨hb, rfl⟩)
    (.inl hrole))
  finds := fun _ => listed_of_visible hb (by simp [Booking.visibleTo, hrole])
  cancels := by
    intro hopen
    refine ⟨_, cancelBooking_ok hb hfresh (.inl hrole) ?_⟩
    rcases hopen with hs | hs <;> rw [hs] <;> decide
  reviews := by
    intro hcompleted hfirst
    obtain ⟨r, hr, hbooking⟩ := hreviewed hcompleted
    exact absurd hbooking (hfirst r hr)

theorem outcome_createReview_role (hrole : u.role ≠ .customer) (reviewIn : ReviewCreate) :
    outcome s (createReview amb u reviewIn) =
      .error (http 403 "Only customers are permitted to submit reviews") :=
  outcome_of_exec (exec_refuse hrole)

theorem controls_iff (hb : b ∈ s.bookings) (hu : u ∈ s.users) (hid : u.id = b.customerId)
    (hfresh : amb.Fresh s) :
    Controls s amb u b ↔ u.role = .customer ∨ (u.role = .admin ∧
      (b.status = .completed → ∃ r ∈ s.reviews, r.bookingId = b.id)) := by
  constructor
  · intro h
    cases hrole : u.role with
    | customer => exact .inl rfl
    | provider =>
      -- A provider has access to what others book with them, and this is not that.
      have hdenied : ¬ b.accessibleTo u := by
        rintro (hr | ⟨hr, _⟩ | ⟨_, hown⟩)
        · rw [hrole] at hr
          cases hr
        · rw [hrole] at hr
          cases hr
        · exact s.sound.checkBookingCustomerNotProvider b hb (hid.symm.trans hown.symm)
      have hread := h.reads
      rw [outcome_of_exec (exec_getBookingById_denied (s.booking?_eq_some.mpr ⟨hb, rfl⟩)
        hdenied)] at hread
      cases hread
    | admin =>
      refine .inr ⟨rfl, fun hcompleted => by_contra fun hnone => ?_⟩
      have hfirst : ∀ r ∈ s.reviews, r.bookingId ≠ b.id := fun r hr hbooking =>
        hnone ⟨r, hr, hbooking⟩
      obtain ⟨r, hr⟩ := h.reviews hcompleted hfirst ⟨b.id, 5, none, by decide, by simp⟩ rfl
      rw [outcome_createReview_role (by rw [hrole]; decide)] at hr
      cases hr
  · rintro (hrole | ⟨hrole, hreviewed⟩)
    · exact customer_controls hb hu hid hfresh hrole
    · exact admin_controls hb hfresh hrole hreviewed

end OneBooking

section Runs

/-- The customer of every booking is a user of role CUSTOMER. -/
def Store.CustomersBooked (s : Store) : Prop :=
  ∀ b ∈ s.bookings, ∃ u ∈ s.users, u.id = b.customerId ∧ u.role = .customer

/-- In the run only users of role CUSTOMER send `create_booking`. -/
def CustomersBook : Store → List Event → Prop
  | _, [] => True
  | s, e :: events =>
    (∀ amb caller bookingIn, e = .request amb caller (.createBooking bookingIn) →
      ∀ u, s.user? caller = some u → u.role = .customer) ∧ CustomersBook (step s e) events

theorem customersBooked_step {s : Store} {e : Event} (hs : s.CustomersBooked)
    (hbook : ∀ amb caller bookingIn, e = .request amb caller (.createBooking bookingIn) →
      ∀ u, s.user? caller = some u → u.role = .customer) : (step s e).CustomersBooked := by
  refine participants_of_effect (step_effect s e) rfl (fun _ _ hc _ => hc) ?_ hs
  intro amb caller bookingIn W customer he hcustomer _
  obtain ⟨hmem, hid⟩ := s.user?_eq_some.mp hcustomer
  exact ⟨customer, hmem, hid, hbook amb caller bookingIn he customer hcustomer⟩

theorem customersBooked_run {s₀ : Store} (h₀ : s₀.CustomersBooked) {events : List Event}
    (h : CustomersBook s₀ events) : (run s₀ events).CustomersBooked := by
  induction events generalizing s₀ with
  | nil => exact h₀
  | cons e events ih => exact ih (customersBooked_step h₀ h.1) h.2

end Runs

/-- Who books keeps control of the booking: a CUSTOMER always, an ADMIN until it waits
for its review, a PROVIDER never. -/
theorem control_by_role (s₀ : Store) (events : List Event) (amb : Ambient)
    (hfresh : amb.Fresh (run s₀ events)) :
    (∀ b ∈ (run s₀ events).bookings, ∀ u ∈ (run s₀ events).users, u.id = b.customerId →
      (Controls (run s₀ events) amb u b ↔ u.role = .customer ∨ (u.role = .admin ∧
        (b.status = .completed → ∃ r ∈ (run s₀ events).reviews, r.bookingId = b.id)))) ∧
    (s₀.bookings = [] → CustomersBook s₀ events →
      ∀ b ∈ (run s₀ events).bookings, ∀ u ∈ (run s₀ events).users, u.id = b.customerId →
        Controls (run s₀ events) amb u b) := by
  refine ⟨fun b hb u hu hid => controls_iff hb hu hid hfresh, fun h₀ hbook b hb u hu hid => ?_⟩
  have hnone : s₀.CustomersBooked := by
    unfold Store.CustomersBooked
    rw [h₀]
    simp
  obtain ⟨v, hv, hvid, hrole⟩ := customersBooked_run hnone hbook b hb
  obtain rfl := (run s₀ events).user_unique hu hv (hid.trans hvid.symm)
  exact customer_controls hb hu hid hfresh hrole

section Example

/-- A provider who books with another one cannot even read what was booked. -/
theorem provider_loses_control :
    ∃ b ∈ (run newPlatform [booksAt quinn 10 (10 * hour)]).bookings, b.customerId = quinn.id ∧
      quinn ∈ (run newPlatform [booksAt quinn 10 (10 * hour)]).users ∧
      ∀ amb, ¬ Controls (run newPlatform [booksAt quinn 10 (10 * hour)]) amb quinn b := by
  refine ⟨_, List.mem_cons_self, rfl, by decide, fun amb h => ?_⟩
  have hread := h.reads
  cases hread

def nextAmbient : Ambient :=
  { sampleAmbient 1 11 with
    notificationId := fun userId _ _ => if userId = paula.id then 90001 else 90002 }

theorem control_by_role_alice :
    Controls (run newPlatform [booksAt alice 10 (10 * hour)]) nextAmbient alice
      (newBooking (sampleAmbient 0 10) alice.id (slotOf (10 * hour) (11 * hour) (by decide))) := by
  have hfresh : nextAmbient.Fresh (run newPlatform [booksAt alice 10 (10 * hour)]) :=
    { booking := by decide
      review := by decide
      notification := fun n hn userId _ _ => by
        have hid : ∀ n ∈ (run newPlatform [booksAt alice 10 (10 * hour)]).notifications,
            n.id = 10030 := by
          decide
        rw [hid n hn]
        unfold nextAmbient
        dsimp only
        split <;> decide
      participants := fun b hb _ => by
        have hid : ∀ b ∈ (run newPlatform [booksAt alice 10 (10 * hour)]).bookings,
            b.customerId = alice.id ∧ b.providerId = paula.id := by
          decide
        rw [(hid b hb).1, (hid b hb).2]
        change (90002 : UUID) ≠ 90001
        decide }
  refine (control_by_role newPlatform [booksAt alice 10 (10 * hour)] nextAmbient hfresh).2 rfl
    ⟨?_, trivial⟩ _ List.mem_cons_self alice List.mem_cons_self rfl
  rintro amb caller bookingIn he u hu
  cases he
  cases hu
  rfl

end Example

end BookingPlatform
