import BookingPlatform.Acceptance

/-!
# Availability

The answer of `check_provider_availability`, as a set of instants, as the guard of
`create_booking`, and as a view of the store that commits update.
-/

namespace BookingPlatform

set_option autoImplicit false

open Transact Transact.Program Slots

/-- No active booking of the provider overlaps the slot. -/
def Store.Idle (s : Store) (providerId : UUID) (st en : Time) : Prop :=
  s.answer (.conflict providerId st en none) = none

instance (s : Store) (q : UUID) (st en : Time) : Decidable (s.Idle q st en) :=
  inferInstanceAs (Decidable ((_ : Option UUID) = none))

section Answer
variable {s t : Store} {q : UUID} {st en : Time}

theorem Store.idle_iff : s.Idle q st en ↔ ∀ b ∈ s.bookings, b.providerId = q →
    b.status ≠ .cancelled → ¬ (b.startTime < en ∧ st < b.endTime) := by
  refine conflict_eq_none.trans (forall₂_congr fun b _ => ?_)
  simp [Booking.conflictsWith]

/-- Everything the endpoint can answer, in the order of its checks. -/
theorem outcome_checkProviderAvailability (s : Store) (q : UUID) (st en : Time) :
    outcome s (checkProviderAvailability q st en) =
      match s.user? q with
      | none => .error (http 404 "Provider not found")
      | some p =>
        if p.role ≠ .provider then
          .error (http 400 "Selected user is not registered as a service provider")
        else if en ≤ st then .error (.valueError "end_time must be after start_time")
        else .ok ⟨q, st, en, decide (s.Idle q st en)⟩ := by
  have hrow : (getUser q).exec (.fresh s) = (.ok (s.user? q), .fresh s) := exec_getUser q
  have havailable : Option.isNone (α := UUID) (s.answer (.conflict q st en none)) =
      decide (s.Idle q st en) := by
    rw [Bool.eq_iff_iff, Option.isNone_iff_eq_none, decide_eq_true_iff]
    rfl
  have hasked := exec_isProviderAvailable (σ := .fresh s) q st en none
  rw [Session.fresh_working, havailable] at hasked
  refine outcome_of_exec (σ := .fresh s) ?_
  cases hp : s.user? q with
  | none =>
    rw [hp] at hrow
    exact exec_bind_error (exec_bind_error (exec_getOr404_none hrow))
  | some p =>
    rw [hp] at hrow
    by_cases hrole : p.role ≠ .provider
    · have hprovider : (getProviderById q).exec (.fresh s) =
          (.error (http 400 "Selected user is not registered as a service provider"), .fresh s) :=
        (exec_bind_ok (exec_getOr404_some hrow)).trans (exec_refuse hrole)
      exact (exec_bind_error hprovider).trans (by simp only [if_pos hrole])
    · have hprovider : (getProviderById q).exec (.fresh s) = (.ok p, .fresh s) :=
        (exec_bind_ok (exec_getOr404_some hrow)).trans (exec_pass hrole)
      refine (exec_bind_ok hprovider).trans ((exec_bind_ok hasked).trans ?_)
      simp only [if_neg hrole]
      by_cases hlt : en ≤ st
      · exact (exec_refuse hlt).trans (by rw [if_pos hlt])
      · exact (exec_pass hlt).trans (by rw [if_neg hlt]; rfl)

theorem available_eq {p : User} (hp : p ∈ s.users) (hrole : p.role = .provider) (hlt : st < en) :
    outcome s (checkProviderAvailability p.id st en) =
      .ok ⟨p.id, st, en, decide (s.Idle p.id st en)⟩ := by
  rw [outcome_checkProviderAvailability, s.user?_eq_some.mpr ⟨hp, rfl⟩]
  simp only [hrole, ne_eq, not_true_eq_false, if_false, if_neg (not_le.mpr hlt)]

/-- The answer is a function of the users and of the active slots. -/
theorem available_congr (hu : t.users = s.users) (h : t.Idle q st en ↔ s.Idle q st en) :
    outcome t (checkProviderAvailability q st en) =
      outcome s (checkProviderAvailability q st en) := by
  have huser : t.user? q = s.user? q := by
    unfold Tables.user?
    rw [hu]
  rw [outcome_checkProviderAvailability, outcome_checkProviderAvailability, huser,
    decide_eq_decide.mpr h]

/-- No instant of the slot is taken. -/
theorem Store.idle_iff_instants (hlt : st < en) :
    s.Idle q st en ↔ ¬ ∃ t, st ≤ t ∧ t < en ∧ ∃ b ∈ s.bookings, b.providerId = q ∧
      b.status ≠ .cancelled ∧ b.startTime ≤ t ∧ t < b.endTime := by
  have hshared : ∀ b ∈ s.bookings, (b.startTime < en ∧ st < b.endTime) ↔
      ∃ t, (b.startTime ≤ t ∧ t < b.endTime) ∧ st ≤ t ∧ t < en := fun b hb =>
    Slot.overlaps_iff_shared
      (a := ⟨b.startTime, b.endTime, s.sound.checkBookingEndAfterStart b hb⟩)
      (b := ⟨st, en, hlt⟩)
  rw [Store.idle_iff]
  constructor
  · rintro h ⟨t, hst, hen, b, hb, hp, hs, hbst, hben⟩
    exact h b hb hp hs ((hshared b hb).mpr ⟨t, ⟨hbst, hben⟩, hst, hen⟩)
  · intro h b hb hp hs hov
    obtain ⟨t, ⟨hbst, hben⟩, hst, hen⟩ := (hshared b hb).mp hov
    exact h ⟨t, hst, hen, b, hb, hp, hs, hbst, hben⟩

end Answer

section Commits
variable {s : Store} {amb : Ambient}

theorem createBooking_leaves {customerId : UUID} {bookingIn : BookingCreate} {b : Booking}
    (h : outcome s (createBooking amb customerId bookingIn) = .ok b) :
    ∃ W, Booked amb customerId bookingIn s.Says W ∧
      (leaves s (createBooking amb customerId bookingIn)).toTables = s.afterAll W := by
  obtain ⟨W, hW, happ⟩ := committed_of_ok (O := Booked amb customerId bookingIn)
    (createBooking_wp rfl rfl amb customerId bookingIn) (fun hK h => h.mono hK) h
  exact ⟨W, hW, tables_of_applyAll happ⟩

/-- What a cancelled booking leaves behind. -/
def CancelledRow (s t : Store) (bookingId : UUID) : Prop :=
  ∃ b ∈ s.bookings, b.id = bookingId ∧ t.users = s.users ∧
    t.bookings = replaceBooking s.bookings b.cancelled

theorem Edited.cancelledRow {bookingId : UUID} {user : User} {b : Booking}
    {notes : List Notification} {W : List Write} {t : Store}
    (h : Edited amb bookingId user b b.cancelled notes s.Says W)
    (ht : t.toTables = s.afterAll W) : CancelledRow s t bookingId := by
  rw [h.tables] at ht
  exact ⟨b, h.mem, h.key, by rw [ht], by rw [ht]⟩

theorem cancelBooking_leaves {bookingId : UUID} {user : User} {b : Booking}
    (h : outcome s (cancelBooking amb bookingId user) = .ok b) :
    CancelledRow s (leaves s (cancelBooking amb bookingId user)) bookingId := by
  obtain ⟨W, ⟨b, notes, hW⟩, happ⟩ := committed_of_ok
    (O := fun K W => ∃ b notes, Edited amb bookingId user b b.cancelled notes K W)
    (cancelBooking_wp rfl rfl amb bookingId user)
    (fun hK ⟨b, notes, h⟩ => ⟨b, notes, h.mono hK⟩) h
  exact hW.cancelledRow (tables_of_applyAll happ)

theorem deleteBooking_leaves {bookingId : UUID} {user : User}
    (h : outcome s (deleteBooking amb bookingId user) = .ok ()) :
    CancelledRow s (leaves s (deleteBooking amb bookingId user)) bookingId := by
  obtain ⟨W, ⟨b, notes, _, _, hW⟩, happ⟩ := committed_of_ok
    (O := fun K W => ∃ (b : Booking) (notes : List Notification), b.status = .pending ∧
      user.role ≠ .provider ∧ Edited amb bookingId user b b.cancelled notes K W)
    (deleteBooking_wp rfl rfl amb bookingId user)
    (fun hK ⟨b, notes, hs, hrole, h⟩ => ⟨b, notes, hs, hrole, h.mono hK⟩) h
  exact hW.cancelledRow (tables_of_applyAll happ)

/-- The store had the booking never been made: nor are its review and notifications. -/
def Store.without (s : Store) (bookingId : UUID) : Store where
  users := s.users
  bookings := s.bookings.filter fun b => b.id ≠ bookingId
  reviews := s.reviews.filter fun r => r.bookingId ≠ bookingId
  notifications := s.notifications.filter fun n => n.bookingId ≠ some bookingId
  sound :=
    { s.sound with
      bookingsKey := (List.filter_sublist.map _).nodup s.sound.bookingsKey
      bookingsCustomer := fun b hb => s.sound.bookingsCustomer b (List.mem_of_mem_filter hb)
      bookingsProvider := fun b hb => s.sound.bookingsProvider b (List.mem_of_mem_filter hb)
      checkBookingEndAfterStart := fun b hb =>
        s.sound.checkBookingEndAfterStart b (List.mem_of_mem_filter hb)
      checkBookingCustomerNotProvider := fun b hb =>
        s.sound.checkBookingCustomerNotProvider b (List.mem_of_mem_filter hb)
      reviewsKey := (List.filter_sublist.map _).nodup s.sound.reviewsKey
      reviewsBookingUnique := (List.filter_sublist.map _).nodup s.sound.reviewsBookingUnique
      reviewsBooking := fun r hr => by
        obtain ⟨hr, hne⟩ := List.mem_filter.mp hr
        obtain ⟨b, hb, hid⟩ := s.sound.reviewsBooking r hr
        exact ⟨b, List.mem_filter.mpr ⟨hb, hid ▸ hne⟩, hid⟩
      reviewsCustomer := fun r hr => s.sound.reviewsCustomer r (List.mem_of_mem_filter hr)
      reviewsProvider := fun r hr => s.sound.reviewsProvider r (List.mem_of_mem_filter hr)
      checkReviewRatingRange := fun r hr =>
        s.sound.checkReviewRatingRange r (List.mem_of_mem_filter hr)
      notificationsKey := (List.filter_sublist.map _).nodup s.sound.notificationsKey
      notificationsUser := fun n hn => s.sound.notificationsUser n (List.mem_of_mem_filter hn)
      notificationsBooking := fun n hn => by
        obtain ⟨hn, hne⟩ := List.mem_filter.mp hn
        refine (s.sound.notificationsBooking n hn).imp_right ?_
        rintro ⟨b, hb, hid⟩
        refine ⟨b, List.mem_filter.mpr ⟨hb, ?_⟩, hid⟩
        simpa [hid] using hne
      uqNotificationsUserBookingType :=
        s.sound.uqNotificationsUserBookingType.sublist List.filter_sublist }

/-- A cancelled booking is no longer in anybody's way. -/
theorem CancelledRow.idle_iff {t : Store} {bookingId : UUID} (h : CancelledRow s t bookingId)
    {q : UUID} {st en : Time} : t.Idle q st en ↔ (s.without bookingId).Idle q st en := by
  obtain ⟨b, hb, rfl, _, hbookings⟩ := h
  have hthere : ∃ x ∈ s.bookings, x.id = b.cancelled.id := ⟨b, hb, rfl⟩
  rw [Store.idle_iff, Store.idle_iff, hbookings]
  constructor
  · intro h x hx
    obtain ⟨hx, hne⟩ := List.mem_filter.mp hx
    exact h x ((mem_replaceBooking hthere).mpr (.inr ⟨hx, of_decide_eq_true hne⟩))
  · intro h x hx hp hs
    rcases (mem_replaceBooking hthere).mp hx with rfl | ⟨hx, hne⟩
    · exact absurd rfl hs
    · exact h x (List.mem_filter.mpr ⟨hx, decide_eq_true hne⟩) hp hs

theorem CancelledRow.available {t : Store} {bookingId : UUID} (h : CancelledRow s t bookingId)
    (q : UUID) (st en : Time) :
    outcome t (checkProviderAvailability q st en) =
      outcome (s.without bookingId) (checkProviderAvailability q st en) :=
  available_congr (by obtain ⟨_, _, _, hu, _⟩ := h; exact hu) h.idle_iff

/-- A new booking takes exactly its own slot. -/
theorem Booked.idle_iff {customerId : UUID} {bookingIn : BookingCreate} {t : Store}
    {W : List Write} (h : Booked amb customerId bookingIn s.Says W)
    (ht : t.toTables = s.afterAll W) {q : UUID} {st en : Time} :
    t.Idle q st en ↔ s.Idle q st en ∧ ¬ (q = bookingIn.providerId ∧
      bookingIn.startTime < en ∧ st < bookingIn.endTime) := by
  rw [h.tables] at ht
  rw [Store.idle_iff, Store.idle_iff, ht]
  constructor
  · refine fun hidle => ⟨fun b hb => hidle b (List.mem_append_left _ hb), ?_⟩
    rintro ⟨rfl, hov⟩
    exact hidle _ (List.mem_append_right _ List.mem_cons_self) rfl (by simp [newBooking]) hov
  · rintro ⟨hidle, hnew⟩ b hb hp hs hov
    rcases List.mem_append.mp hb with hb | hb
    · exact hidle b hb hp hs hov
    · obtain rfl := List.mem_singleton.mp hb
      exact hnew ⟨hp.symm, hov⟩

end Commits

/-- The endpoint, the instants and the guard of `create_booking` say the same, and commits
move the answer as the slots they take and release. -/
theorem availability_exact (s : Store) (amb : Ambient) (hfresh : amb.Fresh s) (p : User)
    (hp : p ∈ s.users) (hrole : p.role = .provider) :
    (∀ st en, st < en →
      (outcome s (checkProviderAvailability p.id st en) = .ok ⟨p.id, st, en, true⟩ ↔
        ¬ ∃ t, st ≤ t ∧ t < en ∧ ∃ b ∈ s.bookings, b.providerId = p.id ∧
          b.status ≠ .cancelled ∧ b.startTime ≤ t ∧ t < b.endTime) ∧
      (outcome s (checkProviderAvailability p.id st en) = .ok ⟨p.id, st, en, true⟩ ↔
        ∀ u ∈ s.users, u.id ≠ p.id → ∀ bookingIn : BookingCreate, bookingIn.providerId = p.id →
          bookingIn.startTime = st → bookingIn.endTime = en →
            ∃ b, outcome s (createBooking amb u.id bookingIn) = .ok b)) ∧
    (∀ customerId bookingIn b, bookingIn.providerId = p.id →
      outcome s (createBooking amb customerId bookingIn) = .ok b → ∀ st en, st < en →
        ((∃ t, (st ≤ t ∧ t < en) ∧ bookingIn.startTime ≤ t ∧ t < bookingIn.endTime) →
          outcome (leaves s (createBooking amb customerId bookingIn))
            (checkProviderAvailability p.id st en) = .ok ⟨p.id, st, en, false⟩) ∧
        ((¬ ∃ t, (st ≤ t ∧ t < en) ∧ bookingIn.startTime ≤ t ∧ t < bookingIn.endTime) →
          outcome (leaves s (createBooking amb customerId bookingIn))
              (checkProviderAvailability p.id st en) =
            outcome s (checkProviderAvailability p.id st en))) ∧
    (∀ bookingId user b, outcome s (cancelBooking amb bookingId user) = .ok b → ∀ st en,
      outcome (leaves s (cancelBooking amb bookingId user))
          (checkProviderAvailability p.id st en) =
        outcome (s.without bookingId) (checkProviderAvailability p.id st en)) ∧
    (∀ bookingId user, outcome s (deleteBooking amb bookingId user) = .ok () → ∀ st en,
      outcome (leaves s (deleteBooking amb bookingId user))
          (checkProviderAvailability p.id st en) =
        outcome (s.without bookingId) (checkProviderAvailability p.id st en)) := by
  have hanswer : ∀ st en, st < en →
      (outcome s (checkProviderAvailability p.id st en) = .ok ⟨p.id, st, en, true⟩ ↔
        s.Idle p.id st en) := by
    intro st en hlt
    rw [available_eq hp hrole hlt]
    simp
  refine ⟨fun st en hlt => ⟨?_, ?_⟩, fun customerId bookingIn b hprov hok st en hlt => ?_,
    fun bookingId user b hok => (cancelBooking_leaves hok).available p.id,
    fun bookingId user hok => (deleteBooking_leaves hok).available p.id⟩
  · exact (hanswer st en hlt).trans (s.idle_iff_instants hlt)
  · refine (hanswer st en hlt).trans ⟨?_, fun hbook => ?_⟩
    · rintro hidle u hu hne bookingIn hprov rfl rfl
      rw [← hprov] at hidle hne
      exact ⟨_, createBooking_ok ⟨u, hu, rfl⟩ hne
        (s.user?_eq_some.mpr ⟨hp, hprov.symm⟩) hrole hidle hfresh⟩
    · -- A booking in the way has a customer, who could then not have booked.
      rw [Store.idle_iff]
      intro b hb hbp hs hov
      obtain ⟨u, hu, huid⟩ := s.sound.bookingsCustomer b hb
      have hne : u.id ≠ p.id := by
        rw [huid, ← hbp]
        exact s.sound.checkBookingCustomerNotProvider b hb
      obtain ⟨b', hok⟩ := hbook u hu hne ⟨p.id, "x", st, en, by decide, hlt⟩ rfl rfl rfl
      obtain ⟨W, hW, _⟩ := createBooking_leaves hok
      exact Store.idle_iff.mp (Eq.symm hW.free) b hb hbp hs hov
  · obtain ⟨W, hW, ht⟩ := createBooking_leaves hok
    have husers : (leaves s (createBooking amb customerId bookingIn)).users = s.users := by
      rw [ht, hW.tables]
    have hbefore : (leaves s (createBooking amb customerId bookingIn)).Idle p.id st en ↔
        s.Idle p.id st en ∧ ¬ (p.id = bookingIn.providerId ∧
          bookingIn.startTime < en ∧ st < bookingIn.endTime) := hW.idle_iff ht
    have hshared : (∃ t, (st ≤ t ∧ t < en) ∧ bookingIn.startTime ≤ t ∧ t < bookingIn.endTime) ↔
        bookingIn.startTime < en ∧ st < bookingIn.endTime :=
      (Slot.overlaps_iff_shared (a := ⟨st, en, hlt⟩)
        (b := ⟨bookingIn.startTime, bookingIn.endTime, bookingIn.timeRange⟩)).symm.trans and_comm
    refine ⟨fun hin => ?_, fun hout => available_congr husers ?_⟩
    · rw [available_eq (husers ▸ hp) hrole hlt, decide_eq_false]
      exact fun hidle => (hbefore.mp hidle).2 ⟨hprov.symm, hshared.mp hin⟩
    · exact hbefore.trans (and_iff_left fun h => hout (hshared.mpr h.2))

/-- At ten the masseuse is free for an hour, until that hour is booked. -/
theorem availability_exact_ten :
    outcome newPlatform (checkProviderAvailability paula.id (10 * hour) (11 * hour)) =
        .ok ⟨paula.id, 10 * hour, 11 * hour, true⟩ ∧
      outcome (leaves newPlatform (createBooking (sampleAmbient 0 10) alice.id
          (slotOf (10 * hour) (11 * hour) (by decide))))
        (checkProviderAvailability paula.id (10 * hour) (11 * hour)) =
        .ok ⟨paula.id, 10 * hour, 11 * hour, false⟩ := by
  have hfresh : (sampleAmbient 0 10).Fresh newPlatform :=
    ⟨fun _ h => absurd h List.not_mem_nil, fun _ h => absurd h List.not_mem_nil,
      fun _ h => absurd h List.not_mem_nil, fun _ h => absurd h List.not_mem_nil⟩
  have hexact := availability_exact newPlatform (sampleAmbient 0 10) hfresh paula (by decide) rfl
  have hbooked : outcome newPlatform (createBooking (sampleAmbient 0 10) alice.id
      (slotOf (10 * hour) (11 * hour) (by decide))) =
        .ok (newBooking (sampleAmbient 0 10) alice.id
          (slotOf (10 * hour) (11 * hour) (by decide))) := by rfl
  refine ⟨(hexact.1 _ _ (by decide)).1.mpr ?_, ((hexact.2.1 _ _ _ rfl hbooked) _ _ ?_).1
    ⟨10 * hour, by decide⟩⟩
  · rintro ⟨t, _, _, b, hb, _⟩
    exact absurd hb List.not_mem_nil
  · decide

end BookingPlatform
