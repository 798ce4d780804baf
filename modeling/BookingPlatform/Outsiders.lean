import BookingPlatform.Reviewing

/-!
# What outsiders can do to a booking

Requests of users without access to a booking, and runs of the jobs, leave its row and
its review as they are. A notification is marked as read by its own user only.
-/

namespace BookingPlatform

set_option autoImplicit false

open Transact

/-- A request of a user who has no access to `b`, or a job. -/
def Event.FromOutsider (s : Store) (b : Booking) : Event → Prop
  | .request _ caller _ => ∀ u, s.user? caller = some u → ¬ b.accessibleTo u
  | .register .. => False
  | .reminderJob .. | .overdueJob _ => True

/-- Not a request of this user. -/
def Event.NotOf (userId : UUID) : Event → Prop
  | .request _ caller _ => caller ≠ userId
  | _ => True

section OneStep
variable {s : Store} {e : Event} {b : Booking}

theorem users_of_outsider (h : e.FromOutsider s b) : (step s e).users = s.users := by
  have heffect := step_effect s e
  generalize htables : (step s e).toTables = rows at heffect
  cases heffect with
  | registered => exact h.elim
  | _ => rfl

theorem Event.FromOutsider.next {e' : Event} (h : e.FromOutsider s b) (h' : e'.FromOutsider s b) :
    e'.FromOutsider (step s e) b := by
  cases e' with
  | request amb caller req =>
    intro u hu
    have huser : (step s e).user? caller = s.user? caller := by
      unfold Tables.user?
      rw [users_of_outsider h]
    exact h' u (huser ▸ hu)
  | register amb userIn => exact h'
  | reminderJob amb windowMinutes => trivial
  | overdueJob amb => trivial

/-- Who edits a row has access to it. -/
theorem outsider_booking (hb : b ∈ s.bookings) (h : e.FromOutsider s b) :
    b ∈ (step s e).bookings := by
  rcases booking_kept_or_edited (step_effect s e) rfl hb with
    hkept | ⟨b', _, amb, actor, notes, hedit⟩
  · exact hkept
  · obtain ⟨req, rfl, _⟩ := hedit.request
    exact absurd hedit.access (h actor (s.user?_eq_some.mpr ⟨hedit.known, rfl⟩))

/-- Who writes a review of `b`, or changes or deletes one that carries its customer, has
access to `b`. -/
theorem outsider_review (hb : b ∈ s.bookings)
    (hauthor : ∀ r ∈ s.reviews, r.bookingId = b.id → r.customerId = b.customerId)
    (h : e.FromOutsider s b) {r : Review} (hr : r.bookingId = b.id) :
    r ∈ (step s e).reviews ↔ r ∈ s.reviews := by
  have hdenied : ∀ {amb actor req}, e = .request amb actor.id req → actor ∈ s.users →
      ¬ b.accessibleTo actor := by
    rintro amb actor req rfl hactor
    exact h actor (s.user?_eq_some.mpr ⟨hactor, rfl⟩)
  have hchange := step_reviews s e
  generalize (step s e).reviews = rows at hchange
  cases hchange with
  | kept => exact Iff.rfl
  | @added amb author reviewIn x he hknown hx hkey hrole hown hcompleted hfirst =>
    rw [List.mem_append, List.mem_singleton]
    refine or_iff_left fun hnew => ?_
    subst hnew
    obtain rfl := s.booking_unique hx hb hr
    exact hdenied he hknown (.inr (.inl ⟨hrole, hown⟩))
  | @revised amb author reviewUpdate x he hknown hx hrole hown =>
    have hother : x.bookingId ≠ b.id := fun hid =>
      hdenied he hknown (.inr (.inl ⟨hrole, (hauthor x hx hid).symm.trans hown⟩))
    rw [List.mem_map]
    constructor
    · rintro ⟨y, hy, hy'⟩
      by_cases hid : y.id = x.id
      · rw [if_pos hid] at hy'
        rw [← hy'] at hr
        exact absurd hr hother
      · rw [if_neg hid] at hy'
        exact hy' ▸ hy
    · intro hmem
      refine ⟨r, hmem, if_neg fun hid => hother ?_⟩
      obtain rfl := List.inj_on_of_nodup_map s.sound.reviewsKey hmem hx hid
      exact hr
  | @withdrawn amb actor x he hknown hx haccess =>
    have hother : x.bookingId ≠ b.id := by
      intro hid
      refine hdenied he hknown ?_
      rcases haccess with ⟨hrole, hown⟩ | hadmin
      · exact .inr (.inl ⟨hrole, (hauthor x hx hid).symm.trans hown⟩)
      · exact .inl hadmin
    rw [List.mem_filter]
    refine and_iff_left_of_imp fun hmem => ?_
    have hne : r.id ≠ x.id := by
      intro hid
      obtain rfl := List.inj_on_of_nodup_map s.sound.reviewsKey hmem hx hid
      exact hother hr
    simpa using hne

end OneStep

section Notifications
variable {s : Store}

theorem Request.Commits.notifications {amb : Ambient} {actor : User} {req : Request}
    {W : List Write} (h : req.Commits amb actor s.Says W) {n : Notification}
    (hn : n ∈ s.notifications) (hother : actor.id ≠ n.userId) :
    n ∈ (s.afterAll W).notifications := by
  cases req with
  | createBooking bookingIn =>
    have h : Booked amb actor.id bookingIn s.Says W := h
    rw [h.tables]
    exact mem_addNotifications_left hn
  | updateBooking bookingId bookingUpdate =>
    obtain ⟨b, notes, h⟩ := h
    rw [h.tables]
    exact mem_addNotifications_left hn
  | cancelBooking bookingId =>
    obtain ⟨b, notes, h⟩ := h
    rw [h.tables]
    exact mem_addNotifications_left hn
  | deleteBooking bookingId =>
    obtain ⟨b, notes, _, _, h⟩ := h
    rw [h.tables]
    exact mem_addNotifications_left hn
  | createReview reviewIn =>
    obtain ⟨b, h⟩ := h
    rw [h.writes]
    exact hn
  | updateReview reviewId reviewUpdate =>
    obtain ⟨r, h⟩ := h
    rw [h.writes]
    exact hn
  | deleteReview reviewId =>
    obtain ⟨r, h⟩ := h
    rw [h.writes]
    exact hn
  | markNotificationRead notificationId =>
    obtain ⟨x, h⟩ := h
    have hx := (s.notification?_eq_some.mp (Eq.symm h.told)).1
    rw [h.writes]
    refine List.mem_map.mpr ⟨n, hn, if_neg fun hid => hother ?_⟩
    obtain rfl := List.inj_on_of_nodup_map s.sound.notificationsKey hn hx (hid.trans h.key.symm)
    exact h.own.symm
  | markAllNotificationsRead =>
    have h : W = [.readAllNotifications actor.id amb.now] := h
    rw [h]
    refine List.mem_map.mpr ⟨n, hn, if_neg fun hunread => hother ?_⟩
    unfold Tables.unreadOf at hunread
    simp only [Bool.and_eq_true, decide_eq_true_eq] at hunread
    exact hunread.1.symm
  | _ => exact h.elim

/-- Another user's step leaves a notification, its read state included, as it is. -/
theorem notification_stays_step {e : Event} {n : Notification} (hn : n ∈ s.notifications)
    (h : e.NotOf n.userId) : n ∈ (step s e).notifications := by
  rcases step_commits s e with ⟨hs, _⟩ | ⟨W, hW, happ⟩
  · rw [hs]
    exact hn
  · rw [tables_of_applyAll happ]
    cases e with
    | request amb caller req =>
      obtain ⟨actor, _, rfl, hW⟩ := hW
      exact hW.notifications hn h
    | register amb userIn =>
      obtain ⟨hashedPw, hW⟩ := hW
      rw [hW.writes]
      exact hn
    | reminderJob amb windowMinutes =>
      obtain ⟨rows, hW⟩ := hW
      rw [hW.tables]
      exact mem_addNotifications_left hn
    | overdueJob amb =>
      obtain ⟨rows, hW⟩ := hW
      rw [hW.tables]
      exact mem_addNotifications_left hn

end Notifications

theorem outsiders_run {s : Store} {b : Booking} (hb : b ∈ s.bookings)
    (hauthor : ∀ r ∈ s.reviews, r.bookingId = b.id → r.customerId = b.customerId)
    {events : List Event} (hout : ∀ e ∈ events, e.FromOutsider s b) :
    b ∈ (run s events).bookings ∧
      ∀ r : Review, r.bookingId = b.id → (r ∈ (run s events).reviews ↔ r ∈ s.reviews) := by
  induction events generalizing s with
  | nil => exact ⟨hb, fun _ _ => Iff.rfl⟩
  | cons e events ih =>
    have he := hout e List.mem_cons_self
    have hreviews := fun r => outsider_review (r := r) hb hauthor he
    have hauthor' : ∀ r ∈ (step s e).reviews, r.bookingId = b.id → r.customerId = b.customerId :=
      fun r hr hid => hauthor r ((hreviews r hid).mp hr) hid
    obtain ⟨hrow, hrest⟩ := ih (outsider_booking hb he) hauthor' fun e' he' =>
      he.next (hout e' (List.mem_cons_of_mem _ he'))
    exact ⟨hrow, fun r hr => (hrest r hr).trans (hreviews r hr)⟩

theorem notification_stays {s : Store} {n : Notification} (hn : n ∈ s.notifications)
    {events : List Event} (h : ∀ e ∈ events, e.NotOf n.userId) :
    n ∈ (run s events).notifications := by
  induction events generalizing s with
  | nil => exact hn
  | cons e events ih =>
    exact ih (notification_stays_step hn (h e List.mem_cons_self)) fun e' he' =>
      h e' (List.mem_cons_of_mem _ he')

/-- Whatever outsiders and jobs do, in any number and order, the booking and its review stay,
as long as the review carries the booking's customer, as it does in every state the services
reach; and nobody but its user marks a notification as read. -/
theorem outsiders_change_nothing (s : Store) :
    (∀ b ∈ s.bookings, (∀ r ∈ s.reviews, r.bookingId = b.id → r.customerId = b.customerId) →
      ∀ events : List Event, (∀ e ∈ events, e.FromOutsider s b) →
        b ∈ (run s events).bookings ∧
          ∀ r : Review, r.bookingId = b.id → (r ∈ (run s events).reviews ↔ r ∈ s.reviews)) ∧
    (s.bookings = [] → ∀ before : List Event, ∀ b ∈ (run s before).bookings,
      ∀ events : List Event, (∀ e ∈ events, e.FromOutsider (run s before) b) →
        b ∈ (run s (before ++ events)).bookings ∧
          ∀ r : Review, r.bookingId = b.id →
            (r ∈ (run s (before ++ events)).reviews ↔ r ∈ (run s before).reviews)) ∧
    (∀ n ∈ s.notifications, ∀ events : List Event, (∀ e ∈ events, e.NotOf n.userId) →
      n ∈ (run s events).notifications) := by
  refine ⟨fun b hb hauthor events hout => outsiders_run hb hauthor hout,
    fun h₀ before b hb events hout => ?_, fun n hn events h => notification_stays hn h⟩
  rw [run_append]
  refine outsiders_run hb (fun r hr hid => ?_) hout
  obtain ⟨x, hx, hxid, _, hcustomer, _⟩ := (rightful_run h₀ before r hr).booking
  obtain rfl := (run s before).booking_unique hx hb (hxid.trans hid)
  exact hcustomer

section Example

/-- Alice's hour with Paula, reviewed by Bob: no constraint forbids the row. -/
def reviewedByBob : Store where
  users := newPlatform.users
  bookings := [⟨10, alice.id, paula.id, "Massage", 10 * hour, 11 * hour, .completed⟩]
  reviews := [⟨30, 10, bob.id, paula.id, 5, none, 0⟩]
  notifications := []
  sound := by decide

def bobRevises : Event :=
  .request (sampleAmbient 4 0) bob.id (.updateReview 30 ⟨some 1, none, by decide, noComment⟩)

/-- Bob has no access to the booking, and changes its review. -/
theorem outsider_revises :
    (∀ b ∈ reviewedByBob.bookings, bobRevises.FromOutsider reviewedByBob b) ∧
      (∃ b ∈ reviewedByBob.bookings, ∃ r ∈ reviewedByBob.reviews, r.bookingId = b.id ∧
        r ∉ (run reviewedByBob [bobRevises]).reviews) := by
  refine ⟨fun b hb u hu => ?_, by decide⟩
  obtain rfl : b = _ := List.mem_singleton.mp hb
  cases hu
  decide

/-- Bob and Quinn try, a job runs, and Alice's reviewed hour is as it was. -/
theorem outsiders_change_nothing_alice :
    ∃ b ∈ (run newPlatform reviewedHour).bookings, b ∈ (run newPlatform (reviewedHour ++
      [.request (sampleAmbient 4 0) bob.id (.deleteReview 30), .overdueJob (sampleAmbient 4 0),
        .request (sampleAmbient 4 0) quinn.id (.cancelBooking 10)])).bookings := by
  have hb : (⟨10, alice.id, paula.id, "Massage", 10 * hour, 10 * hour + hour, .completed⟩ :
      Booking) ∈ (run newPlatform reviewedHour).bookings := List.mem_cons_self
  refine ⟨_, hb, ((outsiders_change_nothing newPlatform).2.1 rfl reviewedHour _ hb _ ?_).1⟩
  intro e he
  simp only [List.mem_cons, List.not_mem_nil, or_false] at he
  rcases he with rfl | rfl | rfl
  · intro u hu
    cases hu
    decide
  · trivial
  · intro u hu
    cases hu
    decide

end Example

end BookingPlatform
