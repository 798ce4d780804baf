import BookingPlatform.Cancellation

/-!
# Statements that go through

A statement that respects the declared constraints is never refused. The identifiers
a request draws must be new, as uuid4 makes them; everything else follows from the
guards.
-/

namespace BookingPlatform

set_option autoImplicit false

open Transact Transact.Program

/-- The uuid4 values a request draws name no row of the store, and differ for the two
participants of a booking. -/
structure Ambient.Fresh (amb : Ambient) (s : Store) : Prop where
  booking : ∀ b ∈ s.bookings, b.id ≠ amb.uuid4
  review : ∀ r ∈ s.reviews, r.id ≠ amb.uuid4
  notification : ∀ n ∈ s.notifications, ∀ userId bookingId type,
    n.id ≠ amb.notificationId userId bookingId type
  participants : ∀ b ∈ s.bookings, ∀ type,
    amb.notificationId b.customerId (some b.id) type ≠
      amb.notificationId b.providerId (some b.id) type

section Constraints
variable {s : Store}

theorem Store.apply_of_constraints {w : Write} (hstale : s.stale w = false)
    (h : Constraints (s.after w)) : s.apply w = .ok (s.result w, ⟨s.after w, h⟩) := by
  unfold Store.apply
  rw [if_neg (by simp [hstale]), dif_pos h]

theorem Store.apply_exists {w : Write} (hstale : s.stale w = false)
    (h : Constraints (s.after w)) :
    ∃ t : Store, s.apply w = .ok (s.result w, t) ∧ t.toTables = s.after w :=
  ⟨_, Store.apply_of_constraints hstale h, rfl⟩

theorem constraints_insertBooking {b : Booking} (hnew : ∀ x ∈ s.bookings, x.id ≠ b.id)
    (hcustomer : ∃ u ∈ s.users, u.id = b.customerId)
    (hprovider : ∃ u ∈ s.users, u.id = b.providerId) (hlt : b.startTime < b.endTime)
    (hne : b.customerId ≠ b.providerId) : Constraints (s.after (.insertBooking b)) := by
  have hrows : (s.after (.insertBooking b)).bookings = s.bookings ++ [b] := rfl
  have each : ∀ {P : Booking → Prop}, (∀ x ∈ s.bookings, P x) → P b →
      ∀ x ∈ (s.after (.insertBooking b)).bookings, P x := by
    intro P hs hb x hx
    rw [hrows] at hx
    rcases List.mem_append.mp hx with hx | hx
    · exact hs x hx
    · exact List.mem_singleton.mp hx ▸ hb
  exact { s.sound with
    bookingsKey := by
      rw [hrows, List.map_append]
      refine s.sound.bookingsKey.append (List.nodup_singleton _) fun id h₁ h₂ => ?_
      obtain ⟨x, hx, rfl⟩ := List.mem_map.mp h₁
      exact hnew x hx (List.mem_singleton.mp h₂)
    bookingsCustomer := each s.sound.bookingsCustomer hcustomer
    bookingsProvider := each s.sound.bookingsProvider hprovider
    checkBookingEndAfterStart := each s.sound.checkBookingEndAfterStart hlt
    checkBookingCustomerNotProvider := each s.sound.checkBookingCustomerNotProvider hne
    reviewsBooking := fun r hr => by
      obtain ⟨x, hx, hid⟩ := s.sound.reviewsBooking r hr
      exact ⟨x, List.mem_append_left _ hx, hid⟩
    notificationsBooking := fun n hn => by
      refine (s.sound.notificationsBooking n hn).imp_right ?_
      rintro ⟨x, hx, hid⟩
      exact ⟨x, List.mem_append_left _ hx, hid⟩ }

theorem constraints_insertNotification {n : Notification}
    (huser : ∃ u ∈ s.users, u.id = n.userId)
    (hbooking : ∃ b ∈ s.bookings, n.bookingId = some b.id)
    (hnew : (∃ m ∈ s.notifications, m.SameKey n) ∨ ∀ m ∈ s.notifications, m.id ≠ n.id) :
    Constraints (s.after (.insertNotification n)) := by
  have hrows : (s.after (.insertNotification n)).notifications =
      Tables.addNotification s.notifications n := rfl
  by_cases hdup : ∃ m ∈ s.notifications, m.SameKey n
  · have hsame : Tables.addNotification s.notifications n = s.notifications := if_pos hdup
    have htables : s.after (.insertNotification n) = s.toTables := by
      change { s.toTables with notifications := Tables.addNotification s.notifications n } = _
      rw [hsame]
    rw [htables]
    exact s.sound
  · have hadd : Tables.addNotification s.notifications n = s.notifications ++ [n] := if_neg hdup
    have hid := hnew.resolve_left hdup
    have each : ∀ {P : Notification → Prop}, (∀ x ∈ s.notifications, P x) → P n →
        ∀ x ∈ (s.after (.insertNotification n)).notifications, P x := by
      intro P hs hn x hx
      rw [hrows, hadd] at hx
      rcases List.mem_append.mp hx with hx | hx
      · exact hs x hx
      · exact List.mem_singleton.mp hx ▸ hn
    exact { s.sound with
      notificationsKey := by
        rw [hrows, hadd, List.map_append]
        refine s.sound.notificationsKey.append (List.nodup_singleton _) fun id h₁ h₂ => ?_
        obtain ⟨x, hx, rfl⟩ := List.mem_map.mp h₁
        exact hid x hx (List.mem_singleton.mp h₂)
      notificationsUser := each s.sound.notificationsUser huser
      notificationsBooking := each s.sound.notificationsBooking (.inr hbooking)
      uqNotificationsUserBookingType := by
        rw [hrows, hadd]
        refine List.pairwise_append.mpr ⟨s.sound.uqNotificationsUserBookingType,
          List.pairwise_singleton _ _, fun m hm k hk => ?_⟩
        rw [List.mem_singleton.mp hk]
        exact fun hkey => hdup ⟨m, hm, hkey⟩ }

/-- An UPDATE may write any schedule that is not empty. -/
theorem constraints_updateBooking {id : UUID} {c : BookingChanges}
    (hlt : ∀ b ∈ s.bookings, b.id = id → (b.patch c).startTime < (b.patch c).endTime) :
    Constraints (s.after (.updateBooking id c)) := by
  have hrows : (s.after (.updateBooking id c)).bookings =
      s.bookings.map fun b => if b.id = id then b.patch c else b := rfl
  have each : ∀ {P : Booking → Prop}, (∀ b ∈ s.bookings, P b) →
      (∀ b ∈ s.bookings, b.id = id → P b → P (b.patch c)) →
      ∀ b ∈ (s.after (.updateBooking id c)).bookings, P b := by
    intro P hs hpatch b hb
    rw [hrows] at hb
    obtain ⟨x, hx, rfl⟩ := List.mem_map.mp hb
    split
    · exact hpatch x hx ‹_› (hs x hx)
    · exact hs x hx
  have hkeys : (s.after (.updateBooking id c)).bookings.map Booking.id =
      s.bookings.map Booking.id := by
    rw [hrows, List.map_map]
    refine List.map_congr_left fun b _ => ?_
    simp only [Function.comp]
    split <;> rfl
  have hstays : ∀ b ∈ s.bookings, ∃ b' ∈ (s.after (.updateBooking id c)).bookings,
      b'.id = b.id := by
    intro b hb
    refine ⟨_, List.mem_map_of_mem hb, ?_⟩
    split <;> rfl
  exact { s.sound with
    bookingsKey := hkeys ▸ s.sound.bookingsKey
    bookingsCustomer := each s.sound.bookingsCustomer fun b _ _ h => h
    bookingsProvider := each s.sound.bookingsProvider fun b _ _ h => h
    checkBookingEndAfterStart :=
      each s.sound.checkBookingEndAfterStart fun b hb hid _ => hlt b hb hid
    checkBookingCustomerNotProvider :=
      each s.sound.checkBookingCustomerNotProvider fun b _ _ h => h
    reviewsBooking := fun r hr => by
      obtain ⟨b, hb, hid⟩ := s.sound.reviewsBooking r hr
      obtain ⟨b', hb', hid'⟩ := hstays b hb
      exact ⟨b', hb', hid'.trans hid⟩
    notificationsBooking := fun n hn => by
      refine (s.sound.notificationsBooking n hn).imp_right ?_
      rintro ⟨b, hb, hid⟩
      obtain ⟨b', hb', hid'⟩ := hstays b hb
      exact ⟨b', hb', hid' ▸ hid⟩ }

theorem constraints_insertReview {r : Review} (hnew : ∀ x ∈ s.reviews, x.id ≠ r.id)
    (hfirst : ∀ x ∈ s.reviews, x.bookingId ≠ r.bookingId)
    (hbooking : ∃ b ∈ s.bookings, b.id = r.bookingId)
    (hcustomer : ∃ u ∈ s.users, u.id = r.customerId)
    (hprovider : ∃ u ∈ s.users, u.id = r.providerId) (hrating : 1 ≤ r.rating ∧ r.rating ≤ 5) :
    Constraints (s.after (.insertReview r)) := by
  have hrows : (s.after (.insertReview r)).reviews = s.reviews ++ [r] := rfl
  have each : ∀ {P : Review → Prop}, (∀ x ∈ s.reviews, P x) → P r →
      ∀ x ∈ (s.after (.insertReview r)).reviews, P x := by
    intro P hs hr x hx
    rw [hrows] at hx
    rcases List.mem_append.mp hx with hx | hx
    · exact hs x hx
    · exact List.mem_singleton.mp hx ▸ hr
  exact { s.sound with
    reviewsKey := by
      rw [hrows, List.map_append]
      refine s.sound.reviewsKey.append (List.nodup_singleton _) fun id h₁ h₂ => ?_
      obtain ⟨x, hx, rfl⟩ := List.mem_map.mp h₁
      exact hnew x hx (List.mem_singleton.mp h₂)
    reviewsBookingUnique := by
      rw [hrows, List.map_append]
      refine s.sound.reviewsBookingUnique.append (List.nodup_singleton _) fun id h₁ h₂ => ?_
      obtain ⟨x, hx, rfl⟩ := List.mem_map.mp h₁
      exact hfirst x hx (List.mem_singleton.mp h₂)
    reviewsBooking := each s.sound.reviewsBooking hbooking
    reviewsCustomer := each s.sound.reviewsCustomer hcustomer
    reviewsProvider := each s.sound.reviewsProvider hprovider
    checkReviewRatingRange := each s.sound.checkReviewRatingRange hrating }

end Constraints

section Transactions
variable {s : Store} {amb : Ambient}

theorem applyAll_cons_ok {w : Write} {ws : List Write} {t : Store} {r : w.Result}
    (h : s.apply w = .ok (r, t)) : platform.applyAll (w :: ws) s = platform.applyAll ws t := by
  simp only [Database.applyAll]
  rw [h]

/-- Notifications with new identifiers about bookings that are there are never refused. -/
theorem applyAll_inserts_ok {notes : List Notification}
    (huser : ∀ n ∈ notes, ∃ u ∈ s.users, u.id = n.userId)
    (hbooking : ∀ n ∈ notes, ∃ b ∈ s.bookings, n.bookingId = some b.id)
    (hnew : ∀ n ∈ notes, ∀ m ∈ s.notifications, m.id ≠ n.id)
    (hdiffer : notes.Pairwise fun m n => m.id ≠ n.id) :
    ∃ t, platform.applyAll (inserts notes) s = .ok t := by
  induction notes generalizing s with
  | nil => exact ⟨s, rfl⟩
  | cons n notes ih =>
    obtain ⟨hhead, htail⟩ := List.pairwise_cons.mp hdiffer
    have hn := List.mem_cons_self (a := n) (l := notes)
    have happ := Store.apply_of_constraints (w := .insertNotification n) rfl
      (constraints_insertNotification (huser n hn) (hbooking n hn) (.inr (hnew n hn)))
    rw [inserts_cons, applyAll_cons_ok happ]
    refine ih (fun m hm => huser m (List.mem_cons_of_mem _ hm))
      (fun m hm => hbooking m (List.mem_cons_of_mem _ hm)) (fun m hm k hk => ?_) htail
    rcases mem_addNotification.mp hk with hk | ⟨rfl, _⟩
    · exact hnew m (List.mem_cons_of_mem _ hm) k hk
    · exact hhead m hm

theorem mem_cancellationNotes {b : Booking} {user : User} {n : Notification}
    (h : n ∈ cancellationNotes amb b user) :
    n = cancelledNote amb b b.customerId ∨ n = cancelledNote amb b b.providerId := by
  unfold cancellationNotes at h
  rcases List.mem_append.mp h with h | h <;> split at h
  · exact .inl (List.mem_singleton.mp h)
  · cases h
  · exact .inr (List.mem_singleton.mp h)
  · cases h

theorem applyAll_cancellation_ok {b : Booking} (user : User) (hb : b ∈ s.bookings)
    (hfresh : amb.Fresh s) : ∃ t, platform.applyAll (cancellation amb b user) s = .ok t := by
  have hnotes : ∃ w,
      platform.applyAll (inserts (cancellationNotes amb b.cancelled user)) s = .ok w := by
    refine applyAll_inserts_ok (fun n hn => ?_) (fun n hn => ?_) (fun n hn m hm => ?_) ?_
    · rcases mem_cancellationNotes hn with rfl | rfl
      · exact s.sound.bookingsCustomer b hb
      · exact s.sound.bookingsProvider b hb
    · rcases mem_cancellationNotes hn with rfl | rfl <;> exact ⟨b, hb, rfl⟩
    · rcases mem_cancellationNotes hn with rfl | rfl <;> exact hfresh.notification m hm _ _ _
    · unfold cancellationNotes
      split <;> split <;> simp [cancelledNote, Ambient.notification, Booking.cancelled,
        hfresh.participants b hb]
  obtain ⟨w, hw⟩ := hnotes
  have hbw : b ∈ w.bookings := by
    rw [tables_of_applyAll hw, Tables.afterAll_inserts]
    exact hb
  have hconstraints : Constraints (w.after (.updateBooking b.id (b.changes b.cancelled))) := by
    refine constraints_updateBooking fun x hx hid => ?_
    obtain rfl := w.booking_unique hx hbw hid
    have hpatch : x.patch (x.changes x.cancelled) = x.cancelled :=
      Booking.patch_changes rfl rfl rfl
    rw [hpatch]
    exact w.sound.checkBookingEndAfterStart x hx
  have hstale : w.stale (.updateBooking b.id (b.changes b.cancelled)) = false := by
    simp [Tables.stale, w.booking?_eq_some.mpr ⟨hbw, rfl⟩]
  unfold cancellation
  rw [Database.applyAll_append, hw]
  exact ⟨_, applyAll_cons_ok (Store.apply_of_constraints hstale hconstraints)⟩

/-- Whoever has access to an open booking can cancel it. -/
theorem cancelBooking_ok {b : Booking} {user : User} (hb : b ∈ s.bookings) (hfresh : amb.Fresh s)
    (haccess : b.accessibleTo user) (hopen : ¬ b.status.Terminal) :
    outcome s (cancelBooking amb b.id user) = .ok b.cancelled := by
  obtain ⟨t, ht⟩ := applyAll_cancellation_ok user hb hfresh
  have hexec := exec_cancelBooking_valid amb (s.booking?_eq_some.mpr ⟨hb, rfl⟩) haccess
    (validate_cancelled_open user hopen)
  rw [ht] at hexec
  exact outcome_of_exec hexec

/-- A slot that is free for an existing customer and provider can be booked. -/
theorem createBooking_ok {customerId : UUID} {bookingIn : BookingCreate} {p : User}
    (hcustomer : ∃ u ∈ s.users, u.id = customerId) (hself : customerId ≠ bookingIn.providerId)
    (hp : s.user? bookingIn.providerId = some p) (hrole : p.role = .provider)
    (hfree : s.answer (.conflict bookingIn.providerId bookingIn.startTime bookingIn.endTime none)
      = none) (hfresh : amb.Fresh s) :
    outcome s (createBooking amb customerId bookingIn) =
      .ok (newBooking amb customerId bookingIn) := by
  obtain ⟨hpmem, hpid⟩ := s.user?_eq_some.mp hp
  obtain ⟨w, hw, hwrows⟩ := Store.apply_exists
    (w := .insertBooking (newBooking amb customerId bookingIn)) rfl
    (constraints_insertBooking hfresh.booking hcustomer ⟨p, hpmem, hpid⟩ bookingIn.timeRange hself)
  have hmem : newBooking amb customerId bookingIn ∈ w.bookings := by
    rw [hwrows]
    exact List.mem_append_right _ List.mem_cons_self
  have hnote : Constraints (w.after (.insertNotification
      (createdNote amb (newBooking amb customerId bookingIn)))) := by
    refine constraints_insertNotification ⟨p, ?_, hpid⟩ ⟨_, hmem, rfl⟩ (.inr fun m hm => ?_)
    · rw [hwrows]
      exact hpmem
    · rw [hwrows] at hm
      exact hfresh.notification m hm _ _ _
  obtain ⟨t, ht, htrows⟩ := Store.apply_exists rfl hnote
  have hrow : t.booking? amb.uuid4 = some (newBooking amb customerId bookingIn) := by
    refine t.booking?_eq_some.mpr ⟨?_, rfl⟩
    rw [htrows]
    exact hmem
  refine outcome_of_exec (σ := .fresh t) ?_
  refine (exec_pass hself).trans ?_
  refine (exec_bind_ok (exec_getOr404_some
    (by rw [exec_getUser, Session.fresh_working, hp]))).trans ?_
  refine (exec_pass (not_not.mpr hrole)).trans ?_
  refine (exec_bind_ok (exec_checkProviderConflict_free hfree)).trans ?_
  refine (exec_bind_ok (exec_send_ok hw)).trans ((exec_bind_ok (exec_send_ok ht)).trans ?_)
  refine (exec_commitAndRefresh fun t' ht' => ?_).trans rfl
  obtain rfl := Except.ok.inj ht'
  rw [exec_getBooking, Session.fresh_working, hrow]

/-- The customer of a completed booking can review it once. -/
theorem createReview_ok {author : User} {b : Booking} {reviewIn : ReviewCreate}
    (hb : b ∈ s.bookings) (hid : b.id = reviewIn.bookingId) (hknown : author ∈ s.users)
    (hrole : author.role = .customer) (hown : b.customerId = author.id)
    (hcompleted : b.status = .completed)
    (hfirst : ∀ r ∈ s.reviews, r.bookingId ≠ b.id) (hfresh : amb.Fresh s) :
    outcome s (createReview amb author reviewIn) =
      .ok (newReview amb b author.id reviewIn) := by
  have hconstraints : Constraints (s.after (.insertReview (newReview amb b author.id reviewIn))) :=
    constraints_insertReview hfresh.review hfirst ⟨b, hb, rfl⟩ ⟨author, hknown, rfl⟩
      (s.sound.bookingsProvider b hb) reviewIn.ratingRange
  obtain ⟨t, ht, htrows⟩ := Store.apply_exists rfl hconstraints
  have hrow : t.review? amb.uuid4 = some (newReview amb b author.id reviewIn) := by
    refine t.review?_eq_some.mpr ⟨?_, rfl⟩
    rw [htrows]
    exact List.mem_append_right _ List.mem_cons_self
  have hnone : s.answer (.reviewOfBooking reviewIn.bookingId) = none :=
    List.find?_eq_none.mpr fun r hr => by simpa [← hid] using hfirst r hr
  refine outcome_of_exec (σ := .fresh t) ?_
  refine (exec_pass (not_not.mpr hrole)).trans ?_
  refine (exec_bind_ok (exec_getOr404_some
    (by rw [exec_getBooking, Session.fresh_working, s.booking?_eq_some.mpr ⟨hb, hid⟩]))).trans ?_
  refine (exec_pass (not_not.mpr hown)).trans ((exec_pass (not_not.mpr hcompleted)).trans ?_)
  refine (exec_bind_ok (exec_select _ _)).trans ((exec_pass ?_).trans ?_)
  · exact Option.not_isSome_iff_eq_none.mpr hnone
  · refine exec_commitOr409 (applyAll_cons_ok ht) ?_
    rw [exec_getReview, Session.fresh_working, hrow]

end Transactions

end BookingPlatform
