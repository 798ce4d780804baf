import BookingPlatform.Integrity
import BookingPlatform.Outsiders

/-!
# Outsiders side by side

What users without access to a booking do, at the same time and in any interleaving, does
not reach it, though each request rests on rows that may have changed since it read them.
-/

namespace BookingPlatform

set_option autoImplicit false

open Transact

/-- A request of a user who has no access to `b`, or of one who has yet to join. -/
def Event.Outside (s : Store) (b : Booking) : Event → Prop
  | .request _ caller _ => ∀ u ∈ s.users, u.id = caller → ¬ b.accessibleTo u
  | .register .. => True
  | .reminderJob .. => True
  | .overdueJob _ => True

/-- The row of `b` and its review are those of `s`. -/
structure Untouched (b : Booking) (s t : Store) : Prop where
  row : b ∈ t.bookings
  review : ∀ r : Review, r.bookingId = b.id → (r ∈ t.reviews ↔ r ∈ s.reviews)

/-- Whoever was told of the review of `b` was told of it as it is. -/
def KnowsReview (b : Booking) (s : Store) (e : Entry platform) : Prop :=
  ∀ notes id r, e = ⟨inserts notes, .review id, some r⟩ →
    ∀ x ∈ s.reviews, x.bookingId = b.id → x.id = id → r = x

section OneCommit
variable {withdrawn : UUID → Prop} {s₀ s t : Store} {b : Booking} {c : Client platform}
  {W : List Write} {amb : Ambient} {caller : UUID} {actor : User}

/-- Nobody who joins has access to a booking that was there before. -/
theorem no_access (hst : Continues withdrawn s₀ s) (hb : b ∈ s₀.bookings)
    (hout : ∀ u ∈ s₀.users, u.id = caller → ¬ b.accessibleTo u) (hactor : actor ∈ s.users)
    (hid : actor.id = caller) : ¬ b.accessibleTo actor := by
  rcases hst.joined actor hactor with hold | hrole
  · exact hout actor hold hid
  · rintro (hadmin | ⟨_, hcustomer⟩ | ⟨hprovider, _⟩)
    · rw [hrole] at hadmin
      cases hadmin
    · obtain ⟨u, hu, huid⟩ := s₀.sound.bookingsCustomer b hb
      have hold := hst.old_user hactor ⟨u, hu, huid.trans hcustomer⟩
      exact hout actor hold hid (.inr (.inl ⟨hrole, hcustomer⟩))
    · rw [hrole] at hprovider
      cases hprovider

theorem Booking.Same.accessibleTo {b' : Booking} (h : b.Same b') :
    b.accessibleTo actor ↔ b'.accessibleTo actor := by
  unfold Booking.accessibleTo
  rw [h.2.1, h.2.2]

variable (hfacts : ∀ e ∈ c.log, Lasts e s ∧ KnowsReview b s₀ e)
include hfacts

theorem Edited.elsewhere {bookingId : UUID} {x x' : Booking} {notes : List Notification}
    (hb : b ∈ s.bookings) (hdenied : ¬ b.accessibleTo actor)
    (h : Edited amb bookingId actor x x' notes (Told c) W) : bookingId ≠ b.id := by
  rintro rfl
  obtain ⟨now, hnow, hid, hsame⟩ := h.told.booking_now fun e he => (hfacts e he).1
  obtain rfl := s.booking_unique hnow hb hid
  exact hdenied (hsame.accessibleTo.mp h.access)

theorem Edited.untouched {bookingId : UUID} {x x' : Booking} {notes : List Notification}
    (hs : Untouched b s₀ s) (hdenied : ¬ b.accessibleTo actor)
    (h : Edited amb bookingId actor x x' notes (Told c) W) (ht : t.toTables = s.afterAll W) :
    Untouched b s₀ t := by
  have hne := h.elsewhere hfacts hs.row hdenied
  obtain ⟨hbookings, hreviews⟩ := h.rows ht
  refine ⟨?_, fun r hr => ?_⟩
  · rw [hbookings]
    exact List.mem_map.mpr ⟨b, hs.row, if_neg hne.symm⟩
  · rw [hreviews]
    exact hs.review r hr

theorem Reviewed.untouched {reviewIn : ReviewCreate} {x : Booking} (hs : Untouched b s₀ s)
    (hdenied : ¬ b.accessibleTo actor) (h : Reviewed amb actor reviewIn x (Told c) W)
    (ht : t.toTables = s.afterAll W) : Untouched b s₀ t := by
  obtain ⟨hbookings, hreviews⟩ := h.rows ht
  refine ⟨by rw [hbookings]; exact hs.row, fun r hr => ?_⟩
  rw [hreviews, List.mem_append, List.mem_singleton, ← hs.review r hr]
  refine or_iff_left ?_
  rintro rfl
  obtain ⟨now, hnow, hid, hsame⟩ := h.told.booking_now fun e he => (hfacts e he).1
  have hxid : x.id = b.id := hr
  obtain rfl := s.booking_unique hnow hs.row (hsame.1.trans hxid)
  exact hdenied (.inr (.inl ⟨h.role, hsame.2.1.trans h.own⟩))

/-- A review that is changed or deleted by somebody who has no access to `b` is not of `b`. -/
theorem review_elsewhere {reviewId : UUID} {r x : Review}
    (hauthor : ∀ r ∈ s₀.reviews, r.bookingId = b.id → r.customerId = b.customerId)
    (hs : Untouched b s₀ s) (hdenied : ¬ b.accessibleTo actor)
    (htold : Told c (.review reviewId) (some r))
    (haccess : actor.role = .customer ∧ r.customerId = actor.id ∨ actor.role = .admin)
    (hx : x ∈ s.reviews) (hxb : x.bookingId = b.id) : x.id ≠ reviewId := by
  intro hid
  have hx₀ := (hs.review x hxb).mp hx
  obtain ⟨notes, hmem, _⟩ := htold
  obtain rfl := (hfacts _ hmem).2 notes reviewId r rfl x hx₀ hxb hid
  rcases haccess with ⟨hrole, hown⟩ | hadmin
  · exact hdenied (.inr (.inl ⟨hrole, (hauthor r hx₀ hxb).symm.trans hown⟩))
  · exact hdenied (.inl hadmin)

/-- The commit of a request without access to `b`. -/
theorem Request.Commits.untouched {req : Request}
    (hauthor : ∀ r ∈ s₀.reviews, r.bookingId = b.id → r.customerId = b.customerId)
    (hs : Untouched b s₀ s) (hdenied : ¬ b.accessibleTo actor)
    (h : req.Commits amb actor (Told c) W) (ht : t.toTables = s.afterAll W) :
    Untouched b s₀ t := by
  cases req with
  | createBooking bookingIn =>
    have h : Booked amb actor.id bookingIn (Told c) W := h
    obtain ⟨hbookings, hreviews⟩ := h.rows ht
    refine ⟨?_, fun r hr => by rw [hreviews]; exact hs.review r hr⟩
    rw [hbookings]
    exact List.mem_append_left _ hs.row
  | updateBooking bookingId bookingUpdate =>
    obtain ⟨x, notes, h⟩ := h
    exact h.untouched hfacts hs hdenied ht
  | cancelBooking bookingId =>
    obtain ⟨x, notes, h⟩ := h
    exact h.untouched hfacts hs hdenied ht
  | deleteBooking bookingId =>
    obtain ⟨x, notes, _, _, h⟩ := h
    exact h.untouched hfacts hs hdenied ht
  | createReview reviewIn =>
    obtain ⟨x, h⟩ := h
    exact h.untouched hfacts hs hdenied ht
  | updateReview reviewId reviewUpdate =>
    obtain ⟨x, h⟩ := h
    rw [h.writes] at ht
    refine ⟨by rw [ht]; exact hs.row, fun r hr => ?_⟩
    have hother : ∀ y ∈ s.reviews, y.bookingId = b.id → y.id ≠ reviewId := fun y =>
      review_elsewhere hfacts hauthor hs hdenied h.told (.inl ⟨h.role, h.own⟩)
    rw [← hs.review r hr, ht]
    constructor
    · intro hmem
      obtain ⟨y, hy, heq⟩ := List.mem_map.mp hmem
      by_cases hid : y.id = reviewId
      · rw [if_pos hid] at heq
        rw [← heq] at hr
        exact absurd hid (hother y hy hr)
      · rw [if_neg hid] at heq
        exact heq ▸ hy
    · intro hmem
      exact List.mem_map.mpr ⟨r, hmem, if_neg (hother r hmem hr)⟩
  | deleteReview reviewId =>
    obtain ⟨x, h⟩ := h
    rw [h.writes] at ht
    refine ⟨by rw [ht]; exact hs.row, fun r hr => ?_⟩
    rw [← hs.review r hr, ht]
    refine List.mem_filter.trans (and_iff_left_of_imp fun hmem => ?_)
    simpa using review_elsewhere hfacts hauthor hs hdenied h.told h.access hmem hr
  | markNotificationRead notificationId =>
    obtain ⟨n, h⟩ := h
    rw [h.writes] at ht
    exact ⟨by rw [ht]; exact hs.row, fun r hr => by rw [ht]; exact hs.review r hr⟩
  | markAllNotificationsRead =>
    have h : W = [.readAllNotifications actor.id amb.now] := h
    rw [h] at ht
    exact ⟨by rw [ht]; exact hs.row, fun r hr => by rw [ht]; exact hs.review r hr⟩
  | _ => exact h.elim

theorem Event.Commits.untouched {e : Event} (hst : Continues withdrawn s₀ s)
    (hb : b ∈ s₀.bookings)
    (hauthor : ∀ r ∈ s₀.reviews, r.bookingId = b.id → r.customerId = b.customerId)
    (hs : Untouched b s₀ s) (hout : e.Outside s₀ b) (h : e.Commits (Told c) W)
    (ht : t.toTables = s.afterAll W) : Untouched b s₀ t := by
  -- A job sends notifications, a registration adds a user.
  have haside : t.bookings = s.bookings → t.reviews = s.reviews → Untouched b s₀ t := by
    intro hbookings hreviews
    refine ⟨by rw [hbookings]; exact hs.row, fun r hr => ?_⟩
    rw [hreviews]
    exact hs.review r hr
  cases e with
  | request amb caller req =>
    obtain ⟨actor, htold, hid, h⟩ := h
    have hactor := htold.user_mem fun e he => (hfacts e he).1
    exact h.untouched hfacts hauthor hs (no_access hst hb hout hactor hid) ht
  | register amb userIn =>
    obtain ⟨hashedPw, h⟩ := h
    rw [h.writes] at ht
    exact haside (by rw [ht]; rfl) (by rw [ht]; rfl)
  | reminderJob amb windowMinutes =>
    obtain ⟨rows, h⟩ := h
    rw [h.writes, Tables.afterAll_inserts] at ht
    exact haside (by rw [ht]) (by rw [ht])
  | overdueJob amb =>
    obtain ⟨rows, h⟩ := h
    rw [h.writes, Tables.afterAll_inserts] at ht
    exact haside (by rw [ht]) (by rw [ht])

end OneCommit

section Interleaved
variable {ι : Type} [DecidableEq ι] {events : ι → Event}

theorem isolation_rules {s₀ : Store} {b : Booking} (hb : b ∈ s₀.bookings)
    (hauthor : ∀ r ∈ s₀.reviews, r.bookingId = b.id → r.customerId = b.customerId)
    (hout : ∀ i, (events i).Outside s₀ b) :
    System.Invariant (commitsOf events) (fun _ _ _ _ => True)
      (fun s _ => Continues (Withdrawable events) s₀ s ∧ Untouched b s₀ s)
      (fun e s => Lasts e s ∧ KnowsReview b s₀ e) where
  told := by
    rintro e s C ⟨_, hs⟩ hcurrent
    refine ⟨lasts_of_current hcurrent, ?_⟩
    rintro notes id r rfl x hx hxb hid
    have hrow : some r = s.review? id := answer_of_current (q := .review id) trivial hcurrent
    obtain ⟨hr, hrid⟩ := s.review?_eq_some.mp hrow.symm
    exact List.inj_on_of_nodup_map s.sound.reviewsKey hr ((hs.review x hxb).mpr hx)
      (hrid.trans hid.symm)
  commit := by
    rintro i c W s t C ⟨hst, hs⟩ _ hfacts ⟨_, hW⟩ _ happ
    obtain ⟨hcontinues, _⟩ := continues_commit (fun e he => (hfacts e he).1) hW happ
    have hnext := hW.untouched hfacts hst hb hauthor hs (hout i) (tables_of_applyAll happ)
    exact ⟨⟨hst.trans hcontinues, hnext⟩, fun e he => ⟨he.1.trans hcontinues, he.2⟩⟩

/-- Whatever outsiders, newcomers and jobs do side by side, the booking and its review stay as
they are. -/
theorem interleaved_outsiders_change_nothing {s₀ : Store} {b : Booking} (hb : b ∈ s₀.bookings)
    (hauthor : ∀ r ∈ s₀.reviews, r.bookingId = b.id → r.customerId = b.customerId)
    (hout : ∀ i, (events i).Outside s₀ b) (schedule : List ι) :
    b ∈ ((concurrently events s₀).run schedule).store.bookings ∧
      ∀ r : Review, r.bookingId = b.id →
        (r ∈ ((concurrently events s₀).run schedule).store.reviews ↔ r ∈ s₀.reviews) := by
  have hstart : Untouched b s₀ s₀ := ⟨hb, fun _ _ => Iff.rfl⟩
  obtain ⟨_, hrow, hreview⟩ := ((concurrently_holds ⟨.refl s₀, hstart⟩).run
    (isolation_rules hb hauthor hout) (.always _ schedule)).inv
  exact ⟨hrow, hreview⟩

/-- Bob tries to delete Alice's review, while a namesake of hers joins. -/
def bobAndNewcomer : Bool → Event
  | true => .request (sampleAmbient 4 0) bob.id (.deleteReview 30)
  | false => .register (sampleAmbient 4 7) ⟨"Alice", "alice@example.org", "password"⟩

theorem interleaved_outsiders_change_nothing_alice :
    ∃ b ∈ ((concurrently bobAndNewcomer (run newPlatform reviewedHour)).run
      [true, false, true, false, false, true]).store.bookings, b.status = .completed := by
  have hb : (⟨10, alice.id, paula.id, "Massage", 10 * hour, 10 * hour + hour, .completed⟩ :
      Booking) ∈ (run newPlatform reviewedHour).bookings := List.mem_cons_self
  refine ⟨_, (interleaved_outsiders_change_nothing hb (by decide) ?_ _).1, rfl⟩
  intro i
  cases i with
  | true =>
    change ∀ u ∈ (run newPlatform reviewedHour).users, _
    decide
  | false => trivial

end Interleaved

section ReadState
variable {n : Notification} {W : List Write}

/-- A statement that would mark `n` as read, were it unread. -/
def Write.Marks (n : Notification) : Write → Prop
  | .readNotification id _ => n.id = id
  | .readAllNotifications userId _ => n.userId = userId
  | .insertUser _ => False
  | .insertBooking _ => False
  | .updateBooking .. => False
  | .insertReview _ => False
  | .updateReview .. => False
  | .deleteReview _ => False
  | .insertNotification _ => False

theorem unmarked_stays {rows : Tables} (hn : n ∈ rows.notifications)
    (h : ∀ w ∈ W, ¬ w.Marks n) : n ∈ (rows.afterAll W).notifications := by
  induction W generalizing rows with
  | nil => exact hn
  | cons w ws ih =>
    refine ih ?_ fun v hv => h v (List.mem_cons_of_mem w hv)
    have hw := h w List.mem_cons_self
    cases w with
    | insertNotification m => exact mem_addNotification.mpr (.inl hn)
    | readNotification id readAt => exact List.mem_map.mpr ⟨n, hn, if_neg hw⟩
    | readAllNotifications userId readAt =>
      refine List.mem_map.mpr ⟨n, hn, if_neg fun hunread => hw ?_⟩
      unfold Tables.unreadOf at hunread
      simp only [Bool.and_eq_true, decide_eq_true_eq] at hunread
      exact hunread.1
    | _ => exact hn

/-- Who marks a notification is the user it is for. -/
theorem Event.Commits.marker {c : Client platform} {s : Store} {e : Event}
    (hfacts : ∀ e ∈ c.log, Lasts e s) (h : e.Commits (Told c) W) (hn : n ∈ s.notifications)
    (hother : e.NotOf n.userId) {w : Write} (hw : w ∈ W) : ¬ w.Marks n := by
  have hsends := h.sends hw
  cases hsends with
  | reads =>
    obtain ⟨actor, _, rfl, m, h⟩ := h
    intro hid
    obtain ⟨hmid, now, hnow, hlater⟩ := h.told.notification_now hfacts
    have hnowid : now.id = m.id := by rw [hlater.1]
    have hnowuser : now.userId = m.userId := by rw [hlater.1]
    obtain rfl := List.inj_on_of_nodup_map s.sound.notificationsKey hn hnow
      (hid.trans (hmid.symm.trans hnowid.symm))
    exact hother (hnowuser.trans h.own).symm
  | readsAll => exact fun huser => hother huser.symm
  | _ => exact fun h => h

/-- From any moment of an interleaving on, a notification stays as it is, its read state
included, unless a request of its own user is among the others. -/
theorem interleaved_notification_stays {ι : Type} [DecidableEq ι] (s₀ : Store)
    (events : ι → Event) (before after : List ι) (n : Notification)
    (hn : n ∈ ((concurrently events s₀).run before).store.notifications)
    (hother : ∀ i, (events i).NotOf n.userId) :
    n ∈ ((concurrently events s₀).run (before ++ after)).store.notifications := by
  rw [System.run_append]
  refine (integrity_holds s₀ events before).store_run
    (R := fun (s t : Store) => n ∈ s.notifications → n ∈ t.notifications)
    (integrity_rules False) (.always _ after) (fun _ h => h) (fun hst htu h => htu (hst h)) ?_ hn
  intro i c W s t hfacts hO _ happ hs
  rw [tables_of_applyAll happ]
  exact unmarked_stays hs fun w hw => hO.2.marker hfacts hs (hother i) hw

/-- Paula is told of a booking, and Alice cannot mark it as read. -/
theorem interleaved_notification_stays_unread :
    ∃ n ∈ ((concurrently (fun _ : Bool => Event.request (sampleAmbient 5 0) alice.id
        .markAllNotificationsRead) (run newPlatform [booksAt alice 10 (10 * hour)])).run
      ([] ++ [true, false, true, false, true])).store.notifications, n.isRead = false := by
  let note : Notification :=
    ⟨10030, 3, some 10, .bookingCreated, "New Booking Request",
      "A new booking request for Massage has been submitted.", false, 0, none⟩
  refine ⟨note, interleaved_notification_stays _ _ [] _ note ?_ ?_, rfl⟩
  · exact List.mem_cons_self
  · intro i
    change alice.id ≠ 3
    decide

end ReadState

end BookingPlatform
