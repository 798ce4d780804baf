import BookingPlatform.Listing
import BookingPlatform.Transact.Lockstep
import BookingPlatform.Views

/-!
# What a group of users can find out

Whatever a group asks for, also at the same time, is answered from what it sees: every request
does the same on stores that differ in nothing the group sees.
-/

namespace BookingPlatform

set_option autoImplicit false

open Transact Transact.Program Rows

section Idioms
variable {α : Type} {rel : Store → Store → Prop} {row : Service (Option α)} {staged : List Write}
  {detail : String}

theorem alike_getOr404 {R : α → α → Prop} (h : Alike rel (Option.Rel R) row row) :
    Alike rel R (getOr404 row detail) (getOr404 row detail) := by
  refine alike_bind h fun o o' ho => ?_
  cases ho with
  | none => exact alike_throw _
  | some hab => exact alike_pure hab

theorem alike_refresh (h : Alike rel Eq row row) : Alike rel Eq (refresh row) (refresh row) := by
  refine alike_bind h fun o o' ho => ?_
  subst ho
  cases o with
  | none => exact alike_throw _
  | some a => exact alike_pure rfl

variable (hstaged : ∀ w ∈ staged, Database.Respects (D := platform) rel w)
include hstaged

theorem alike_commitAndRefresh
    (hrow : (∃ s t s', rel s t ∧ platform.applyAll staged s = .ok s') → Alike rel Eq row row) :
    Alike rel Eq (commitAndRefresh staged row) (commitAndRefresh staged row) := by
  refine alike_tryCatch (alike_bind (alike_commitAll hstaged) fun _ _ h => ?_) fun e =>
    alike_bind alike_rollbackAll fun _ _ _ => alike_throw e
  exact alike_refresh (hrow h)

theorem alike_commitOrRollback :
    Alike rel Eq (commitOrRollback staged) (commitOrRollback staged) :=
  alike_tryCatch ((alike_commitAll hstaged).mono fun _ _ _ => rfl) fun e =>
    alike_bind alike_rollbackAll fun _ _ _ => alike_throw e

theorem alike_commitOr409
    (hrow : (∃ s t s', rel s t ∧ platform.applyAll staged s = .ok s') → Alike rel Eq row row) :
    Alike rel Eq (commitOr409 staged row detail) (commitOr409 staged row detail) := by
  refine alike_tryCatch (alike_bind (alike_commitAll hstaged) fun _ _ h => ?_) fun e => ?_
  · exact alike_refresh (hrow h)
  · cases e with
    | integrityError => exact alike_bind alike_rollbackAll fun _ _ _ => alike_throw _
    | _ => exact alike_throw _

end Idioms

section Routes
variable {α : Type} {group : List User} {secrets : Secrets}

/-- The program does the same on stores that the group cannot tell apart. -/
def Discreet (group : List User) (secrets : Secrets) (p : Service α) : Prop :=
  Alike (Undistinguished group secrets) Eq p p

/-- The same row, or two that the group does not know. -/
def Shown {β : Type} (veil : Veil α UUID β) (hidden : UUID → Prop) (id : UUID) (a b : α) : Prop :=
  (¬ hidden id ∧ a = b) ∨ (¬ veil.known a ∧ ¬ veil.known b)

theorem shown_find? {β : Type} {veil : Veil α UUID β} {hidden : UUID → Prop} {xs ys : List α}
    (h : veil.Agree hidden xs ys) (id : UUID) :
    Option.Rel (Shown veil hidden id) (xs.find? fun a => veil.key a = id)
      (ys.find? fun a => veil.key a = id) := by
  by_cases hid : hidden id
  · exact optionRel_imp (h.find?_hidden hid) fun _ _ hab => .inr hab
  · rw [h.find?_open hid]
    cases ys.find? fun a => veil.key a = id with
    | none => exact .none
    | some a => exact .some (.inl ⟨hid, rfl⟩)

theorem alike_getBooking (id : UUID) :
    Alike (Undistinguished group secrets)
      (Option.Rel (Shown (bookingVeil group) secrets.bookings id)) (getBooking id)
      (getBooking id) :=
  alike_select (D := platform) (q := .booking id) fun _ _ h => shown_find? h.bookings id

theorem alike_getReview (id : UUID) :
    Alike (Undistinguished group secrets)
      (Option.Rel (Shown (reviewVeil group) secrets.reviews id)) (getReview id) (getReview id) :=
  alike_select (D := platform) (q := .review id) fun _ _ h => shown_find? h.reviews id

theorem alike_getNotification (id : UUID) :
    Alike (Undistinguished group secrets)
      (Option.Rel (Shown (notificationVeil group) secrets.notifications id)) (getNotification id)
      (getNotification id) :=
  alike_select (D := platform) (q := .notification id) fun _ _ h => shown_find? h.notifications id

theorem discreet_getBooking {id : UUID} (hopen : ¬ secrets.bookings id) :
    Discreet group secrets (getBooking id) :=
  alike_select (D := platform) (q := .booking id) fun _ _ h => h.booking?_eq hopen

theorem discreet_getReview {id : UUID} (hopen : ¬ secrets.reviews id) :
    Discreet group secrets (getReview id) :=
  alike_select (D := platform) (q := .review id) fun _ _ h => h.review?_eq hopen

theorem discreet_getNotification {id : UUID} (hopen : ¬ secrets.notifications id) :
    Discreet group secrets (getNotification id) :=
  alike_select (D := platform) (q := .notification id) fun _ _ h => h.notification?_eq hopen

theorem provider_iff {p p' : User} (h : p.outline = p'.outline) :
    p.role = .provider ↔ p'.role = .provider := by
  have hprofile := congrArg UserOutline.profile h
  unfold User.outline at hprofile
  by_cases hp : p.role = .provider
  · by_cases hp' : p'.role = .provider
    · exact iff_of_true hp hp'
    · simp [hp, hp'] at hprofile
  · by_cases hp' : p'.role = .provider
    · simp [hp, hp'] at hprofile
    · exact iff_of_false hp hp'

theorem profile_eq {p p' : User} (h : p.outline = p'.outline) (hp : p.role = .provider) :
    p.profile = p'.profile := by
  have hprofile := congrArg UserOutline.profile h
  unfold User.outline at hprofile
  rw [if_pos hp, if_pos ((provider_iff h).mp hp)] at hprofile
  exact Option.some.inj hprofile

theorem alike_getUser (id : UUID) :
    Alike (Undistinguished group secrets) (Option.Rel fun p p' => p.outline = p'.outline)
      (getUser id) (getUser id) := by
  refine alike_select (D := platform) (q := .user id) fun s t h => ?_
  have hrel := h.users.find? (p := fun u => u.id = id) fun a b hab => by
    rw [show a.id = b.id from congrArg UserOutline.id hab]
  exact optionRel_imp hrel fun a b hab => hab.outline

/-- Whether a booking is in the way shows in its outline. -/
theorem conflictsWith_iff {b : Booking} {p : UUID} {st en : Time} {x : Option UUID} :
    b.conflictsWith p st en x ↔ ∃ start finish, b.outline.taken = some (p, start, finish) ∧
      start < en ∧ st < finish ∧ some b.outline.id ≠ x := by
  unfold Booking.conflictsWith Booking.outline
  by_cases hstatus : b.status = .cancelled
  · simp [hstatus]
  · simp [hstatus]

theorem discreet_isProviderAvailable (p : UUID) (st en : Time) (x : Option UUID) :
    Discreet group secrets (isProviderAvailable p st en x) := by
  refine alike_bind (R := Eq) (alike_select (D := platform) (q := .conflict p st en x)
    fun s t h => ?_) fun a b hab => ?_
  · have hrel := h.bookings.find? (p := fun b => b.conflictsWith p st en x) fun a b hab => by
      have hout : a.outline = b.outline := hab
      rw [decide_eq_decide, conflictsWith_iff, conflictsWith_iff, hout]
    change Option.map Booking.id _ = Option.map Booking.id _
    generalize s.bookings.find? _ = o at hrel ⊢
    generalize t.bookings.find? _ = o' at hrel ⊢
    cases hrel with
    | none => rfl
    | some hab => exact congrArg some hab.key
  · rw [hab]
    exact alike_pure rfl

theorem discreet_checkProviderConflict (p : UUID) (st en : Time) (x : Option UUID) :
    Discreet group secrets (checkProviderConflict p st en x) := by
  refine alike_bind (discreet_isProviderAvailable p st en x) fun a b hab => ?_
  subst hab
  exact (alike_refuseIf Iff.rfl _).mono fun _ _ _ => rfl

theorem discreet_createNotification (amb : Ambient) (userId bookingId : UUID)
    (type : NotificationType) (title message : String) :
    Discreet group secrets
      (createNotification amb userId (some bookingId) type title message) :=
  (alike_send (D := platform) (respects_insertNotification rfl)).mono fun _ _ h => h.1

section Bookings
variable {amb : Ambient} {u : User} {b : Booking}

theorem discreet_notifyCancelled (userId : UUID) :
    Discreet group secrets (notifyCancelled amb b userId) :=
  alike_bind (discreet_createNotification ..) fun _ _ _ => alike_pure rfl

theorem discreet_notifyCancellation :
    Discreet group secrets (notifyCancellation amb b u) :=
  alike_bind (alike_runIf fun _ => discreet_notifyCancelled _) fun _ _ _ =>
    alike_runIf fun _ => discreet_notifyCancelled _

theorem discreet_notifyTransition : Discreet group secrets (notifyTransition amb b u) := by
  unfold notifyTransition
  split
  · exact alike_bind (discreet_createNotification ..) fun _ _ _ => alike_pure rfl
  · exact alike_bind (discreet_createNotification ..) fun _ _ _ => alike_pure rfl
  · exact discreet_notifyCancellation
  · exact alike_pure rfl

theorem discreet_stageStatus (target : Option BookingStatus) :
    Discreet group secrets (stageStatus amb b target u) := by
  unfold stageStatus
  cases target with
  | none => exact alike_pure rfl
  | some target =>
    dsimp only
    split
    · exact alike_pure rfl
    · refine alike_bind (alike_ofExcept _) fun _ _ _ => ?_
      exact alike_bind discreet_notifyTransition fun _ _ _ => alike_pure rfl

theorem discreet_stageSchedule (st en : Option Time) :
    Discreet group secrets (stageSchedule b st en) := by
  unfold stageSchedule
  split
  · exact alike_pure rfl
  · refine alike_bind (alike_refuseIf Iff.rfl _) fun _ _ _ => ?_
    exact alike_bind (discreet_checkProviderConflict ..) fun _ _ _ => alike_pure rfl

/-- What is staged for a booking that is not secret. -/
theorem respects_edit {id : UUID} (hopen : ¬ secrets.bookings id) (c : BookingChanges) :
    ∀ w ∈ [Write.updateBooking id c],
      Database.Respects (D := platform) (Undistinguished group secrets) w := by
  intro w hw
  rw [List.mem_singleton.mp hw]
  exact respects_updateBooking hopen c

theorem discreet_createBooking (customerId : UUID) (bookingIn : BookingCreate) :
    Discreet group secrets (createBooking amb customerId bookingIn) := by
  refine alike_bind (alike_refuseIf Iff.rfl _) fun _ _ _ => ?_
  refine alike_bind (alike_getOr404 (alike_getUser _)) fun p p' hp => ?_
  refine alike_bind (alike_refuseIf (not_congr (provider_iff hp)) _) fun _ _ _ => ?_
  refine alike_bind (discreet_checkProviderConflict ..) fun _ _ _ => ?_
  refine alike_bind (alike_send (D := platform) (respects_insertBooking _)) ?_
  intro _ _ hsent
  -- The identifier is not that of a secret booking, or the INSERT would have failed.
  have hopen : ¬ secrets.bookings amb.uuid4 := by
    intro hsecret
    obtain ⟨_, s, t, s', h, happ⟩ := hsent
    obtain ⟨b, hb, hid⟩ := h.keptBookings _ hsecret
    have happ : s.apply (.insertBooking (newBooking amb customerId bookingIn)) = .ok (_, s') := happ
    have hc := s'.sound
    rw [(Store.apply_ok happ).1] at hc
    exact (constraints_insertBooking_iff.mp hc).1 b hb hid
  refine alike_bind (discreet_createNotification ..) fun _ _ _ => ?_
  exact alike_commitAndRefresh (fun w hw => absurd hw List.not_mem_nil) fun _ =>
    discreet_getBooking hopen

variable (hu : u ∈ group)
include hu

theorem not_accessible (h : ¬ (bookingVeil group).known b) : ¬ b.accessibleTo u :=
  fun haccess => h ⟨u, hu, haccess⟩

theorem alike_getBookingById (id : UUID) :
    Alike (Undistinguished group secrets) (fun b b' => ¬ secrets.bookings id ∧ b = b')
      (getBookingById id u) (getBookingById id u) := by
  refine alike_bind (alike_getOr404 (alike_getBooking id)) fun b b' hb => ?_
  rcases hb with ⟨hopen, rfl⟩ | ⟨hb, hb'⟩
  · split
    · exact alike_pure ⟨hopen, rfl⟩
    · exact alike_throw _
  · rw [if_neg (not_accessible hu hb), if_neg (not_accessible hu hb')]
    exact alike_throw _

theorem discreet_getBookingById (id : UUID) : Discreet group secrets (getBookingById id u) :=
  (alike_getBookingById hu id).mono fun _ _ h => h.2

theorem discreet_listBookings (status : Option BookingStatus) (skip limit : Nat) :
    Discreet group secrets (listBookings u status skip limit) := by
  refine alike_select (D := platform) (q := .bookingsPage _ skip limit) fun s t h => ?_
  change List.take _ (List.drop _ _) = List.take _ (List.drop _ _)
  rw [h.bookings.filter_eq fun b hb => ?_]
  exact ⟨u, hu, (b.visibleTo_iff u).mp (Bool.and_eq_true_iff.mp hb).1⟩

theorem discreet_updateBooking (id : UUID) (bookingUpdate : BookingUpdate) :
    Discreet group secrets (updateBooking amb id bookingUpdate u) := by
  refine alike_bind (alike_getOr404 (alike_getBooking id)) fun b b' hb => ?_
  rcases hb with ⟨hopen, rfl⟩ | ⟨hb, hb'⟩
  · refine alike_bind (alike_refuseIf Iff.rfl _) fun _ _ _ => ?_
    refine alike_bind (alike_refuseIf Iff.rfl _) fun _ _ _ => ?_
    refine alike_bind (discreet_stageStatus _) fun c c' hc => ?_
    subst hc
    refine alike_bind (discreet_stageSchedule ..) fun d d' hd => ?_
    subst hd
    exact alike_commitAndRefresh (respects_edit hopen _) fun _ => discreet_getBooking hopen
  · have hrefused := not_accessible hu hb
    refine alike_bind (alike_refuseIf (iff_of_true hrefused (not_accessible hu hb')) _) ?_
    exact fun _ _ h => absurd hrefused h

theorem discreet_cancelBooking (id : UUID) : Discreet group secrets (cancelBooking amb id u) := by
  refine alike_bind (alike_getBookingById hu id) fun b b' hb => ?_
  obtain ⟨hopen, rfl⟩ := hb
  refine alike_bind (alike_ofExcept _) fun _ _ _ => ?_
  refine alike_bind discreet_notifyCancellation fun _ _ _ => ?_
  exact alike_commitAndRefresh (respects_edit hopen _) fun _ => discreet_getBooking hopen

theorem discreet_deleteBooking (id : UUID) : Discreet group secrets (deleteBooking amb id u) := by
  refine alike_bind (alike_getOr404 (alike_getBooking id)) fun b b' hb => ?_
  refine alike_bind (alike_refuseIf Iff.rfl _) fun _ _ hrole => ?_
  rcases hb with ⟨hopen, rfl⟩ | ⟨hb, hb'⟩
  · refine alike_bind (alike_refuseIf Iff.rfl _) fun _ _ _ => ?_
    refine alike_bind (alike_refuseIf Iff.rfl _) fun _ _ _ => ?_
    refine alike_bind (alike_refuseIf Iff.rfl _) fun _ _ _ => ?_
    refine alike_bind (alike_refuseIf Iff.rfl _) fun _ _ _ => ?_
    refine alike_bind discreet_notifyCancellation fun _ _ _ => ?_
    exact alike_commitOrRollback (respects_edit hopen _)
  · -- Neither a provider nor an admin, so a customer, and not the one of the booking.
    have hrefused : ∀ b : Booking, ¬ (bookingVeil group).known b →
        u.role = .customer ∧ b.customerId ≠ u.id := by
      intro b hb
      have hnot := not_accessible hu hb
      unfold Booking.accessibleTo at hnot
      cases hr : u.role with
      | admin => exact absurd (.inl hr) hnot
      | provider => exact absurd hr hrole
      | customer => exact ⟨rfl, fun hid => hnot (.inr (.inl ⟨hr, hid⟩))⟩
    refine alike_bind (alike_refuseIf (iff_of_true (hrefused b hb) (hrefused b' hb')) _) ?_
    exact fun _ _ h => absurd (hrefused b hb) h

end Bookings

section Reviews
variable {amb : Ambient} {u : User} (hu : u ∈ group)
include hu

theorem discreet_createReview (reviewIn : ReviewCreate) :
    Discreet group secrets (createReview amb u reviewIn) := by
  refine alike_bind (alike_refuseIf Iff.rfl _) fun _ _ hrole => ?_
  have hcustomer : u.role = .customer := not_not.mp hrole
  refine alike_bind (alike_getOr404 (alike_getBooking _)) fun b b' hb => ?_
  rcases hb with ⟨hopen, rfl⟩ | ⟨hb, hb'⟩
  · refine alike_bind (alike_refuseIf Iff.rfl _) fun _ _ _ => ?_
    refine alike_bind (alike_refuseIf Iff.rfl _) fun _ _ _ => ?_
    -- That the booking has a review shows in the outline of the review.
    refine alike_bind (R := fun o o' : Option Review => o.isSome ↔ o'.isSome)
      (alike_select (D := platform) (q := .reviewOfBooking reviewIn.bookingId) fun s t h => ?_) ?_
    · have hrel := h.reviews.find? (p := fun r => r.bookingId = reviewIn.bookingId)
        fun a a' hab => by
          rw [show a.bookingId = a'.bookingId from congrArg ReviewOutline.bookingId hab]
      change (s.reviews.find? _).isSome ↔ (t.reviews.find? _).isSome
      generalize s.reviews.find? _ = o at hrel ⊢
      generalize t.reviews.find? _ = o' at hrel ⊢
      cases hrel with
      | none => exact Iff.rfl
      | some _ => exact Iff.rfl
    · intro o o' ho
      refine alike_bind (alike_refuseIf ho _) fun _ _ _ => ?_
      refine alike_commitOr409 (fun w hw => ?_) fun hsent => discreet_getReview ?_
      · rw [List.mem_singleton.mp hw]
        exact respects_insertReview _
      · intro hsecret
        obtain ⟨s, t, s', h, happ⟩ := hsent
        obtain ⟨r, hr, hid⟩ := h.keptReviews _ hsecret
        have hc := s'.sound
        rw [tables_of_applyAll happ] at hc
        exact (constraints_insertReview_iff.mp hc).1 r hr hid
  · have hrefused : ∀ b : Booking, ¬ (bookingVeil group).known b → b.customerId ≠ u.id :=
      fun b hb hid => not_accessible hu hb (.inr (.inl ⟨hcustomer, hid⟩))
    refine alike_bind (alike_refuseIf (iff_of_true (hrefused b hb) (hrefused b' hb')) _) ?_
    exact fun _ _ h => absurd (hrefused b hb) h

theorem review_not_accessible {r : Review} (h : ¬ (reviewVeil group).known r) :
    ¬ r.accessibleTo u := fun haccess => h ⟨u, hu, haccess⟩

theorem discreet_getReviewById (id : UUID) : Discreet group secrets (getReviewById id u) := by
  refine alike_bind (alike_getOr404 (alike_getReview id)) fun r r' hr => ?_
  rcases hr with ⟨_, rfl⟩ | ⟨hr, hr'⟩
  · split
    · exact alike_pure rfl
    · exact alike_throw _
  · rw [if_neg (review_not_accessible hu hr), if_neg (review_not_accessible hu hr')]
    exact alike_throw _

theorem discreet_listReviews (providerId : Option UUID) (rating : Option Int) (skip limit : Nat) :
    Discreet group secrets (listReviews u providerId rating skip limit) := by
  refine alike_select (D := platform) (q := .reviewsPage _ skip limit) fun s t h => ?_
  change List.take _ (List.drop _ _) = List.take _ (List.drop _ _)
  rw [h.reviews.filter_eq fun r hr => ?_]
  have hvisible := (Bool.and_eq_true_iff.mp (Bool.and_eq_true_iff.mp hr).1).1
  exact ⟨u, hu, (r.visibleTo_iff u).mp hvisible⟩

theorem discreet_updateReview (id : UUID) (reviewUpdate : ReviewUpdate) :
    Discreet group secrets (updateReview id reviewUpdate u) := by
  refine alike_bind (alike_getOr404 (alike_getReview id)) fun r r' hr => ?_
  rcases hr with ⟨hopen, rfl⟩ | ⟨hr, hr'⟩
  · refine alike_bind (alike_refuseIf Iff.rfl _) fun _ _ _ => ?_
    refine alike_commitAndRefresh (fun w hw => ?_) fun _ => discreet_getReview hopen
    rw [List.mem_singleton.mp hw]
    exact respects_updateReview hopen _
  · have hrefused : ∀ r : Review, ¬ (reviewVeil group).known r →
        u.role ≠ .customer ∨ r.customerId ≠ u.id := by
      intro r hr
      by_contra hnot
      obtain ⟨hrole, hid⟩ := not_or.mp hnot
      exact review_not_accessible hu hr (.inr (.inl ⟨not_not.mp hrole, not_not.mp hid⟩))
    refine alike_bind (alike_refuseIf (iff_of_true (hrefused r hr) (hrefused r' hr')) _) ?_
    exact fun _ _ h => absurd (hrefused r hr) h

theorem discreet_deleteReview (id : UUID) : Discreet group secrets (deleteReview id u) := by
  refine alike_bind (alike_getOr404 (alike_getReview id)) fun r r' hr => ?_
  rcases hr with ⟨hopen, rfl⟩ | ⟨hr, hr'⟩
  · refine alike_bind (alike_refuseIf Iff.rfl _) fun _ _ _ => ?_
    refine alike_commitOrRollback fun w hw => ?_
    rw [List.mem_singleton.mp hw]
    exact respects_deleteReview hopen
  · have hrefused : ∀ r : Review, ¬ (reviewVeil group).known r →
        ¬ (u.role = .customer ∧ r.customerId = u.id ∨ u.role = .admin) := by
      rintro r hr (⟨hrole, hid⟩ | hadmin)
      · exact review_not_accessible hu hr (.inr (.inl ⟨hrole, hid⟩))
      · exact review_not_accessible hu hr (.inl hadmin)
    refine alike_bind (alike_refuseIf (iff_of_true (hrefused r hr) (hrefused r' hr')) _) ?_
    exact fun _ _ h => absurd (hrefused r hr) h

theorem discreet_listNotifications (skip limit : Nat) (unreadOnly : Bool) :
    Discreet group secrets (listNotifications u.id skip limit unreadOnly) := by
  refine alike_select (D := platform) (q := .notificationsPage _ skip limit) fun s t h => ?_
  change List.take _ (List.drop _ _) = List.take _ (List.drop _ _)
  rw [h.notifications.filter_eq fun n hn => ?_]
  exact ⟨u, hu, of_decide_eq_true (Bool.and_eq_true_iff.mp hn).1⟩

theorem discreet_markNotificationAsRead (id : UUID) :
    Discreet group secrets (markNotificationAsRead amb id u.id) := by
  refine alike_bind (alike_getOr404 (alike_getNotification id)) fun n n' hn => ?_
  rcases hn with ⟨hopen, rfl⟩ | ⟨hn, hn'⟩
  · refine alike_bind (alike_refuseIf Iff.rfl _) fun _ _ _ => ?_
    split
    · exact alike_pure rfl
    · refine alike_commitAndRefresh (fun w hw => ?_) fun _ => discreet_getNotification hopen
      rw [List.mem_singleton.mp hw]
      exact respects_readNotification hopen _
  · have hrefused : ∀ n : Notification, ¬ (notificationVeil group).known n → n.userId ≠ u.id :=
      fun n hn hid => hn ⟨u, hu, hid⟩
    refine alike_bind (alike_refuseIf (iff_of_true (hrefused n hn) (hrefused n' hn')) _) ?_
    exact fun _ _ h => absurd (hrefused n hn) h

theorem discreet_markAllAsRead : Discreet group secrets (markAllAsRead amb u.id) := by
  refine alike_bind (alike_send (D := platform) (respects_readAllNotifications hu _)) ?_
  intro k k' hk
  refine alike_bind (alike_commitOrRollback fun w hw => absurd hw List.not_mem_nil) ?_
  exact fun _ _ _ => alike_pure hk.1

end Reviews

section Providers

theorem alike_getProviderById (providerId : UUID) :
    Alike (Undistinguished group secrets) (fun p p' => p.profile = p'.profile)
      (getProviderById providerId) (getProviderById providerId) := by
  refine alike_bind (alike_getOr404 (alike_getUser _)) fun p p' hp => ?_
  refine alike_bind (alike_refuseIf (not_congr (provider_iff hp)) _) fun _ _ hrole => ?_
  exact alike_pure (profile_eq hp (not_not.mp hrole))

/-- The row as far as its outline tells. -/
def UserOutline.user (o : UserOutline) : User :=
  match o.profile with
  | some profile => ⟨profile.id, profile.name, profile.email, profile.role, ""⟩
  | none => ⟨o.id, "", "", .customer, ""⟩

theorem outline_user {u : User} (h : u.role = .provider) :
    u.outline.user = { u with passwordHash := "" } := by
  unfold User.outline UserOutline.user
  rw [if_pos h]
  rfl

/-- The search goes by the profiles of providers, and so does the order of its results. -/
theorem alike_listProviders (amb : Ambient) (locale : Locale) (search : Option String)
    (skip limit : Nat) :
    Alike (Undistinguished group secrets) (fun us us' => us.map User.profile = us'.map User.profile)
      (listProviders amb locale search skip limit)
      (listProviders amb locale search skip limit) := by
  let found := fun u : User => u.role = .provider && u.searchedBy amb locale search
  have hprovider : ∀ {rows : List User}, ∀ u ∈ rows.filter found, u.role = .provider := by
    intro rows u hu
    exact of_decide_eq_true (Bool.and_eq_true_iff.mp (List.mem_filter.mp hu).2).1
  -- A page, read off the outlines of what was found.
  have hpage : ∀ rows : List User,
      ((((rows.filter found).insertionSort (User.listedBefore locale.collation)).drop skip).take
        limit).map User.profile =
      (((((rows.filter found).map fun u => u.outline.user).insertionSort
        (User.listedBefore locale.collation)).drop skip).take limit).map User.profile := by
    intro rows
    rw [← List.map_insertionSort (User.listedBefore locale.collation)
      (User.listedBefore locale.collation) _ _ fun a ha b hb => ?_]
    · rw [← List.map_drop, ← List.map_take, List.map_map]
      refine List.map_congr_left fun u hu => ?_
      have hu := (List.perm_insertionSort ..).subset
        (List.mem_of_mem_drop (List.mem_of_mem_take hu))
      simp only [Function.comp, outline_user (hprovider u hu)]
      rfl
    · rw [outline_user (hprovider a ha), outline_user (hprovider b hb)]
      rfl
  refine alike_select (D := platform) (q := .usersPage _ locale.collation skip limit)
    fun s t h => ?_
  refine (hpage s.users).trans (Eq.trans ?_ (hpage t.users).symm)
  have hfound : ∀ a b : User, a.outline = b.outline → found a = found b := by
    intro a b hab
    by_cases ha : a.role = .provider
    · have hb := (provider_iff hab).mp ha
      have hprofile := profile_eq hab ha
      have hname : a.name = b.name := congrArg ProviderResponse.name hprofile
      have hemail : a.email = b.email := congrArg ProviderResponse.email hprofile
      simp only [found, User.searchedBy, ha, hb, hname, hemail]
    · have hb : ¬ b.role = .provider := fun hb => ha ((provider_iff hab).mpr hb)
      simp only [found, ha, hb, decide_false, Bool.false_and]
  rw [(h.users.filter (p := found) hfound).map_eq (g := fun u => u.outline.user)
    fun a b hab => congrArg UserOutline.user hab]

theorem discreet_checkProviderAvailability (providerId : UUID) (st en : Time) :
    Discreet group secrets (checkProviderAvailability providerId st en) := by
  refine alike_bind (alike_getProviderById providerId) fun _ _ _ => ?_
  refine alike_bind (discreet_isProviderAvailable ..) fun a a' ha => ?_
  subst ha
  exact alike_bind (alike_refuseIf Iff.rfl _) fun _ _ _ => alike_pure rfl

theorem AlikeTo.ratingsOf {t t' : Tables} (h : AlikeTo group secrets t t') (providerId : UUID) :
    t.ratingsOf providerId = t'.ratingsOf providerId := by
  have hpairs := h.reviews.map_eq (g := fun r => (r.providerId, r.rating)) fun a b hab => by
    rw [show a.providerId = b.providerId from congrArg ReviewOutline.providerId hab,
      show a.rating = b.rating from congrArg ReviewOutline.rating hab]
  have hratings : ∀ rows : List Review,
      (rows.filter fun r => r.providerId = providerId).map Review.rating =
        ((rows.map fun r => (r.providerId, r.rating)).filter
          fun pair => pair.1 = providerId).map Prod.snd := by
    intro rows
    rw [List.filter_map, List.map_map]
    rfl
  unfold Tables.ratingsOf
  rw [hratings, hratings, hpairs]

theorem discreet_getProviderReviewSummary (providerId : UUID) :
    Discreet group secrets (getProviderReviewSummary providerId) := by
  refine alike_bind (alike_getOr404 (alike_getUser _)) fun p p' hp => ?_
  refine alike_bind (alike_refuseIf (not_congr (provider_iff hp)) _) fun _ _ _ => ?_
  refine alike_bind (R := Eq) (alike_select (D := platform) (q := .reviewStats providerId)
    fun s t h => ?_) fun stats stats' hstats => ?_
  · change (_, _) = (_, _)
    rw [h.ratingsOf]
  · subst hstats
    refine alike_bind (R := Eq) (alike_select (D := platform) (q := .ratingCounts providerId)
      fun s t h => ?_) fun rows rows' hrows => ?_
    · change groupCounts _ = groupCounts _
      rw [h.ratingsOf]
    · subst hrows
      exact alike_ofExcept _

end Providers

theorem discreet_handle {amb : Ambient} {u : User} (hu : u ∈ group) (req : Request) :
    Discreet group secrets (handle amb u req) := by
  cases req with
  | createBooking bookingIn => exact alike_map (discreet_createBooking u.id bookingIn) _
  | getBooking id => exact alike_map (discreet_getBookingById hu id) _
  | listBookings status skip limit =>
    exact alike_map (discreet_listBookings hu status skip limit) _
  | updateBooking id bookingUpdate => exact alike_map (discreet_updateBooking hu id bookingUpdate) _
  | cancelBooking id => exact alike_map (discreet_cancelBooking hu id) _
  | deleteBooking id => exact alike_map (discreet_deleteBooking hu id) _
  | createReview reviewIn => exact alike_map (discreet_createReview hu reviewIn) _
  | getReview id => exact alike_map (discreet_getReviewById hu id) _
  | listReviews providerId rating skip limit =>
    exact alike_map (discreet_listReviews hu providerId rating skip limit) _
  | updateReview id reviewUpdate => exact alike_map (discreet_updateReview hu id reviewUpdate) _
  | deleteReview id => exact alike_map (discreet_deleteReview hu id) _
  | listNotifications skip limit unreadOnly =>
    exact alike_map (discreet_listNotifications hu skip limit unreadOnly) _
  | markNotificationRead id => exact alike_map (discreet_markNotificationAsRead hu id) _
  | markAllNotificationsRead => exact alike_map (discreet_markAllAsRead hu) _
  | checkProviderAvailability providerId startTime endTime =>
    refine alike_bind (alike_refuseIf Iff.rfl _) fun _ _ _ => ?_
    exact alike_map (discreet_checkProviderAvailability providerId startTime endTime) _
  | getProviderReviewSummary providerId =>
    exact alike_map (discreet_getProviderReviewSummary providerId) _

theorem alike_getCurrentUser {u : User} (hu : u ∈ group) :
    Alike (Undistinguished group secrets) (fun v v' => v = u ∧ v' = u) (getCurrentUser u.id)
      (getCurrentUser u.id) := by
  refine alike_bind (R := fun o o' => o = some u ∧ o' = some u)
    (alike_select (D := platform) (q := .user u.id) fun s t h => ?_) fun o o' ho => ?_
  · exact ⟨s.user?_eq_some.mpr ⟨h.members u hu, rfl⟩,
      t.user?_eq_some.mpr ⟨h.symm.members u hu, rfl⟩⟩
  · obtain ⟨rfl, rfl⟩ := ho
    exact alike_pure ⟨rfl, rfl⟩

theorem discreet_serve {amb : Ambient} {u : User} (hu : u ∈ group) (req : Request) :
    Discreet group secrets (serve amb u.id req) := by
  refine alike_bind (alike_getCurrentUser hu) fun v v' hv => ?_
  obtain ⟨rfl, rfl⟩ := hv
  exact discreet_handle hu req

end Routes

/-- What a user may ask for: all routes but those of accounts and of summary jobs. -/
inductive Question where
  | request (request : Request)
  | listProviders (locale : Locale) (search : Option String) (skip limit : Nat)
  | getProvider (providerId : UUID)

inductive Answer where
  | response (response : Response)
  | providers (providers : List ProviderResponse)
  | provider (provider : ProviderResponse)
  deriving DecidableEq, Repr

def ask (amb : Ambient) (caller : UUID) : Question → Service Answer
  | .request request => .response <$> serve amb caller request
  | .listProviders locale search skip limit => do
    let _ ← getCurrentUser caller
    let users ← listProviders amb locale search skip limit
    pure (.providers (users.map User.profile))
  | .getProvider providerId => do
    let _ ← getCurrentUser caller
    let user ← getProviderById providerId
    pure (.provider user.profile)

section Group
variable {group : List User} {secrets : Secrets}

theorem discreet_ask {amb : Ambient} {u : User} (hu : u ∈ group) (question : Question) :
    Discreet group secrets (ask amb u.id question) := by
  cases question with
  | request request => exact alike_map (discreet_serve hu request) _
  | listProviders locale search skip limit =>
    refine alike_bind (alike_getCurrentUser hu) fun _ _ _ => ?_
    refine alike_bind (alike_listProviders amb locale search skip limit) fun us us' h => ?_
    exact alike_pure (congrArg Answer.providers h)
  | getProvider providerId =>
    refine alike_bind (alike_getCurrentUser hu) fun _ _ _ => ?_
    refine alike_bind (alike_getProviderById providerId) fun p p' h => ?_
    exact alike_pure (congrArg Answer.provider h)

/-- However the questions of a group interleave, what they are answered and what the group sees
afterwards follow from what the group saw before. -/
theorem group_learns_no_more (group : List User) {ι : Type} [DecidableEq ι] (amb : ι → Ambient)
    (caller : ι → User) (question : ι → Question) (hcaller : ∀ i, caller i ∈ group) (s t : Store)
    (hmembers : ∀ u ∈ group, u ∈ s.users) (hview : s.viewOf group = t.viewOf group)
    (schedule : List ι) :
    let asked := fun i => ask (amb i) (caller i).id (question i)
    let S := (System.boot s asked).run schedule
    let T := (System.boot t asked).run schedule
    (∀ i, S.outcome i = T.outcome i) ∧ S.store.viewOf group = T.store.viewOf group := by
  intro asked S T
  obtain ⟨secrets, hst⟩ := alikeTo_of_view hmembers hview
  have hstart : System.Alike (Undistinguished group secrets) Eq (System.boot s asked)
      (System.boot t asked) :=
    System.alike_boot hst fun i => discreet_ask (hcaller i) (question i)
  have hrun : S.Alike (Undistinguished group secrets) Eq T := hstart.run schedule
  exact ⟨hrun.outcome, hrun.store.view⟩

end Group

section Example

theorem tenToEleven : 10 * hour < 11 * hour := by decide

theorem shortName : 1 ≤ "Tax advice".length ∧ "Tax advice".length ≤ 255 := by decide

def taxAdvice : BookingCreate where
  providerId := paula.id
  serviceName := "Tax advice"
  startTime := 10 * hour
  endTime := 11 * hour
  nameLength := shortName
  timeRange := tenToEleven

/-- At ten Paula is with Bob, or she gives Dana tax advice. -/
def paulaBusy : Bool → Store
  | false => run newPlatform [booksAt bob 10 (10 * hour)]
  | true => run newPlatform [.request (sampleAmbient 0 10) dana.id (.createBooking taxAdvice)]

/-- Alice asks for the booking, and for the same hour. -/
def alicesQuestions : Bool → Question
  | false => .request (.getBooking 10)
  | true => .request (.createBooking (slotOf (10 * hour) (11 * hour) tenToEleven))

theorem group_learns_no_more_alice :
    (paulaBusy false).toTables ≠ (paulaBusy true).toTables ∧
      ∀ schedule i,
        ((System.boot (paulaBusy false) fun i =>
          ask (sampleAmbient 0 11) alice.id (alicesQuestions i)).run schedule).outcome i =
        ((System.boot (paulaBusy true) fun i =>
          ask (sampleAmbient 0 11) alice.id (alicesQuestions i)).run schedule).outcome i := by
  refine ⟨by decide +kernel, fun schedule => ?_⟩
  exact (group_learns_no_more [alice] (fun _ => sampleAmbient 0 11) (fun _ => alice)
    alicesQuestions (fun _ => List.mem_cons_self) (paulaBusy false) (paulaBusy true)
    (by decide +kernel) (by decide +kernel) schedule).1

end Example

end BookingPlatform
