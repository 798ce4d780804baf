import BookingPlatform.Refusals
import BookingPlatform.SummaryAgreement

/-!
# Which races end in an internal error

Guards answer with an HTTP error, and few statements behind them can fail: a PATCH whose
booking somebody else moves, and whatever reads or writes a review that is deleted meanwhile.
-/

namespace BookingPlatform

set_option autoImplicit false

open Transact Transact.Program

section Bookings
variable {ι : Type} {events : ι → Event} {s₀ : Store} {text : Text} {i : ι}
  (hdrawn : DrawnAfresh events s₀) {c : Client platform} (hp : c.pending = [])
  (hc : c.committed = []) {amb : Ambient} (hamb : (events i).ambient = amb)

/-- What every route does: it fails as expected only. -/
def FailsAsExpected {α : Type} (events : ι → Event) (s₀ : Store) (text : Text) (i : ι)
    (p : Service α) (c : Client platform) : Prop :=
  p.FailsOnly (InMidst events s₀ text i) (Expected events i) c fun _ _ => True

include hamb in
theorem sending_start {id : UUID} {b : Booking} (h : Told c (.booking id) (some b))
    (hp : c.pending = []) (hc : c.committed = []) :
    Sending events s₀ text i c (About amb b) [] where
  pending := hp
  none := hc
  licence := hamb ▸ licence_of_told h
  notes := fun _ hn => absurd hn List.not_mem_nil

include hdrawn hc hamb in
/-- A booking of users that are there, under a new identifier, is never refused. -/
theorem booked_goes {s : Store} (hs : InMidst events s₀ text i c s) {customerId : UUID}
    {bookingIn : BookingCreate} (hcustomer : ∃ u ∈ s.users, u.id = customerId)
    (hprovider : ∃ u ∈ s.users, u.id = bookingIn.providerId)
    (hself : customerId ≠ bookingIn.providerId) :
    ∃ w t, platform.apply (.insertBooking (newBooking amb customerId bookingIn)) s = .ok ((), w) ∧
      platform.apply (.insertNotification
        (createdNote amb (newBooking amb customerId bookingIn))) w = .ok t := by
  subst hamb
  obtain ⟨w, hw, hrows⟩ := Store.apply_exists
    (w := .insertBooking (newBooking (events i).ambient customerId bookingIn)) rfl
    (constraints_insertBooking (hs.newBooking hc) hcustomer hprovider bookingIn.timeRange hself)
  have hroomy : Roomy events s₀ i w := by
    refine ⟨?_, fun b hb => ?_, ?_⟩
    · rw [hrows]
      exact hs.users
    · rw [hrows] at hb
      rcases List.mem_append.mp hb with hb | hb
      · exact hs.bookings b hb
      · rw [List.mem_singleton.mp hb]
        exact .inr ⟨i, rfl⟩
    · rw [hrows]
      exact (hs.roomy hc).notifications
  have hsend : Sendable events i w
      (createdNote (events i).ambient (newBooking (events i).ambient customerId bookingIn)) := by
    refine ⟨rfl, ?_, newBooking (events i).ambient customerId bookingIn, ?_, rfl⟩
    · rw [hrows]
      exact hprovider
    · rw [hrows]
      exact List.mem_append_right _ List.mem_cons_self
  obtain ⟨t, ht, _⟩ := hroomy.insert hdrawn hsend
  exact ⟨w, _, hw, ht⟩

include hdrawn hp hc hamb

theorem createBooking_fails {actor : User} (hactor : Told c (.user actor.id) (some actor))
    (bookingIn : BookingCreate) :
    FailsAsExpected events s₀ text i (createBooking amb actor.id bookingIn) c := by
  have hE := expected_http events i
  refine failsOnly_bind (failsOnly_refuseIf (fun _ => hE _ _) fun hself => ?_)
  refine failsOnly_bind (failsOnly_getOr404 (hE _ _) (failsOnly_getUser fun s _ o ho => ?_))
  rintro p rfl
  rw [hp] at ho
  have hid : p.id = bookingIn.providerId := (s.user?_eq_some.mp ho).2
  have hprovider := told_learn hp (.user bookingIn.providerId) (some p)
  refine failsOnly_bind (failsOnly_refuseIf (fun _ => hE _ _) fun _ => ?_)
  refine failsOnly_bind (failsOnly_checkProviderConflict hE fun o => ?_)
  -- Wherever the statements are sent, and when they are committed, both go through.
  have hgoes : ∀ {d : Client platform} {s}, InMidst events s₀ text i d s →
      d.log = ((c.learn (.user bookingIn.providerId) (some p)).learn
        (.conflict bookingIn.providerId bookingIn.startTime bookingIn.endTime none) o).log →
      d.committed = [] →
      ∃ w t, platform.apply (.insertBooking (newBooking amb actor.id bookingIn)) s = .ok ((), w) ∧
        platform.apply (.insertNotification
          (createdNote amb (newBooking amb actor.id bookingIn))) w = .ok t := by
    intro d s hs hlog hd
    have hfacts : ∀ e ∈ ((c.learn (.user bookingIn.providerId) (some p)).learn
        (.conflict bookingIn.providerId bookingIn.startTime bookingIn.endTime none) o).log,
        Lasts e s := hlog ▸ hs.facts
    refine booked_goes hdrawn hd hamb hs ⟨actor, ?_, rfl⟩ ⟨p, ?_, hid⟩ hself
    · exact ((hactor.learn _).learn _).user_mem hfacts
    · exact (hprovider.learn _).user_mem hfacts
  refine failsOnly_bind (failsOnly_send (D := platform) (fun _ => ?_) fun s hs e he => ?_)
  · refine failsOnly_bind (failsOnly_send (D := platform) (fun _ => ?_) fun s hs e he => ?_)
    · refine failsOnly_commitAndRefresh (fun s hs e he => ?_) (refresh_booking rfl fun s hs => ?_)
      · obtain ⟨w, t, hw, ht⟩ := hgoes hs rfl hc
        simp only [Client.wrote_pending, Client.learn_pending, hp, List.nil_append,
          List.append_nil, List.cons_append] at he
        rw [applyAll_cons_ok hw, applyAll_cons_ok (show Store.apply _ w = .ok (t.1, t.2) from ht)]
          at he
        cases he
      · have hmade := hs.made _ (by
          rw [Client.commit_committed, Client.wrote_committed, Client.wrote_committed,
            Client.learn_committed, Client.learn_committed, hc]
          exact List.mem_cons_self) (.insertBooking (newBooking amb actor.id bookingIn)) (by
          simp [hp])
        exact hmade
    · obtain ⟨w, t, hw, ht⟩ := hgoes hs rfl hc
      have hview : platform.applyAll [.insertBooking (newBooking amb actor.id bookingIn)] s =
          .ok w := applyAll_cons_ok hw
      simp only [Client.wrote_pending, Client.learn_pending, hp, List.nil_append] at he
      rw [Database.view_of_applyAll hview] at he
      exact absurd (ht.symm.trans he) nofun
  · obtain ⟨w, t, hw, ht⟩ := hgoes hs rfl hc
    simp only [Client.learn_pending, hp] at he
    exact absurd (hw.symm.trans he) nofun

theorem updateBooking_fails {caller bookingId : UUID} {bookingUpdate : BookingUpdate}
    (hi : events i = .request amb caller (.updateBooking bookingId bookingUpdate))
    (currentUser : User) :
    FailsAsExpected events s₀ text i (updateBooking amb bookingId bookingUpdate currentUser)
      c := by
  have hE := expected_http events i
  refine failsOnly_bind (failsOnly_getOr404 (hE _ _) (failsOnly_getBooking fun s _ o ho => ?_))
  rintro b rfl
  obtain ⟨hb, hkey⟩ := Store.booking?_eq_some _ |>.mp ho
  have hlt : b.startTime < b.endTime := Store.sound _ |>.checkBookingEndAfterStart b hb
  have htold := told_learn hp (.booking bookingId) (some b)
  refine failsOnly_bind (failsOnly_refuseIf (fun _ => hE _ _) fun _ => ?_)
  refine failsOnly_bind (failsOnly_refuseIf (fun _ => ?_) fun _ => ?_)
  · obtain ⟨code, detail, hterminal⟩ := terminalError_http b bookingUpdate.status currentUser.role
    rw [hterminal]
    exact hE code detail
  have hstart : Sending events s₀ text i (c.learn (.booking bookingId) (some b)) (About amb b) [] :=
    sending_start hamb htold hp hc
  refine failsOnly_bind (failsOnly_stageStatus hdrawn hstart hE fun notes hsending => ?_)
  have htold := htold.wroteAll (inserts notes)
  refine failsOnly_bind (failsOnly_stageSchedule hE (fun _ _ => ?_) fun hmove o => ?_)
  · refine commit_edit_fails hdrawn hi hkey ?_ (fun _ => ?_) hsending htold
    · exact hlt
    · exact ⟨changed_self _, changed_self _⟩
  · refine commit_edit_fails hdrawn hi hkey ?_ (fun hstill => ?_) (hsending.learn _ _)
      (htold.learn _)
    · exact hmove
    · exact timesKept_applied b hstill

omit hdrawn hc hamb in
theorem failsOnly_getBookingById {bookingId : UUID} {user : User}
    {Q : Booking → Client platform → Prop}
    (h : ∀ b, b.id = bookingId →
      Told (c.learn (.booking bookingId) (some b)) (.booking bookingId) (some b) →
        Q b (c.learn (.booking bookingId) (some b))) :
    (getBookingById bookingId user).FailsOnly (InMidst events s₀ text i) (Expected events i) c
      Q := by
  have hE := expected_http events i
  refine failsOnly_bind (failsOnly_getOr404 (hE _ _) (failsOnly_getBooking fun s _ o ho => ?_))
  rintro b rfl
  split
  · exact h b (Store.booking?_eq_some _ |>.mp ho).2 (told_learn hp _ _)
  · exact hE _ _

theorem cancelBooking_fails (bookingId : UUID) (currentUser : User) :
    FailsAsExpected events s₀ text i (cancelBooking amb bookingId currentUser) c := by
  have hE := expected_http events i
  refine failsOnly_bind (failsOnly_getBookingById hp fun b hkey htold => ?_)
  subst hkey
  refine failsOnly_bind (failsOnly_ofExcept (fun _ _ => ?_) fun e he => ?_)
  · have hsending : Sending events s₀ text i (c.learn (.booking b.id) (some b)) (About amb b) [] :=
      sending_start hamb htold hp hc
    refine failsOnly_bind (failsOnly_notifyCancellation hdrawn hsending ⟨rfl, .inl rfl, rfl⟩
      ⟨rfl, .inr rfl, rfl⟩ ?_)
    have hsent := hsending.send (about_cancellation currentUser)
    have htold := htold.wroteAll (inserts (cancellationNotes amb b.cancelled currentUser))
    refine failsOnly_commitAndRefresh (fun s hs e he => ?_) (refresh_booking rfl fun s hs => ?_)
    · exact absurd he (cancellation_goes hdrawn hsent htold hs)
    · have hlog : Told _ (.booking b.id) (some b) := htold
      obtain ⟨now, hnow, hid, _⟩ := hlog.booking_now hs.facts
      exact ⟨now, hnow, hid⟩
  · obtain ⟨code, detail, rfl⟩ := validateStatusTransition_error he
    exact hE code detail

theorem deleteBooking_fails (bookingId : UUID) (currentUser : User) :
    FailsAsExpected events s₀ text i (deleteBooking amb bookingId currentUser) c := by
  have hE := expected_http events i
  refine failsOnly_bind (failsOnly_getOr404 (hE _ _) (failsOnly_getBooking fun s _ o ho => ?_))
  rintro b rfl
  have htold := told_learn hp (.booking bookingId) (some b)
  obtain rfl := (Store.booking?_eq_some _ |>.mp ho).2
  refine failsOnly_bind (failsOnly_refuseIf (fun _ => hE _ _) fun _ => ?_)
  refine failsOnly_bind (failsOnly_refuseIf (fun _ => hE _ _) fun _ => ?_)
  refine failsOnly_bind (failsOnly_refuseIf (fun _ => hE _ _) fun _ => ?_)
  refine failsOnly_bind (failsOnly_refuseIf (fun _ => hE _ _) fun _ => ?_)
  refine failsOnly_bind (failsOnly_refuseIf (fun _ => hE _ _) fun _ => ?_)
  have hsending : Sending events s₀ text i (c.learn (.booking b.id) (some b)) (About amb b) [] :=
    sending_start hamb htold hp hc
  refine failsOnly_bind (failsOnly_notifyCancellation hdrawn hsending ⟨rfl, .inl rfl, rfl⟩
    ⟨rfl, .inr rfl, rfl⟩ ?_)
  have hsent := hsending.send (about_cancellation currentUser)
  have htold := htold.wroteAll (inserts (cancellationNotes amb b.cancelled currentUser))
  exact failsOnly_commitOrRollback
    (fun s hs e he => absurd he (cancellation_goes hdrawn hsent htold hs)) trivial

end Bookings

section Reviews
variable {ι : Type} {events : ι → Event} {s₀ : Store} {text : Text} {i : ι}
  {c : Client platform} (hp : c.pending = []) {amb : Ambient}
include hp

/-- A review that was loaded or made is found again, or somebody was asked to delete it. -/
theorem refresh_review {H : Client platform → Store → Prop} {E : Error → Prop} {id : UUID}
    (h : ∀ s, H c s → (∃ r ∈ s.reviews, r.id = id) ∨ E .invalidRequestError) :
    (getReview id).FailsOnly H E c fun o _ => (o = none → E .invalidRequestError) ∧
      ∀ a, o = some a → True := by
  refine failsOnly_getReview fun s hs o ho => ⟨?_, fun _ _ => trivial⟩
  rintro rfl
  rw [hp] at ho
  refine (h s hs).resolve_left fun ⟨r, hr, hid⟩ => ?_
  exact find?_key_none.mp ho r hr hid

theorem createReview_fails {caller : UUID} {reviewIn : ReviewCreate}
    (hi : events i = .request amb caller (.createReview reviewIn)) (hc : c.committed = [])
    (currentUser : User) :
    FailsAsExpected events s₀ text i (createReview amb currentUser reviewIn) c := by
  have hE := expected_http events i
  refine failsOnly_bind (failsOnly_refuseIf (fun _ => hE _ _) fun _ => ?_)
  refine failsOnly_bind (failsOnly_getOr404 (hE _ _) (failsOnly_getBooking fun s _ o ho => ?_))
  rintro b rfl
  refine failsOnly_bind (failsOnly_refuseIf (fun _ => hE _ _) fun _ => ?_)
  refine failsOnly_bind (failsOnly_refuseIf (fun _ => hE _ _) fun _ => ?_)
  refine failsOnly_bind (failsOnly_select (D := platform) fun s _ => ?_)
  refine failsOnly_bind (failsOnly_refuseIf (fun _ => hE _ _) fun _ => ?_)
  refine failsOnly_commitOr409 (hE _ _) (fun s _ e he => ?_) (refresh_review rfl fun s hs => ?_)
  · simp only [Client.learn_pending, hp, List.nil_append] at he
    exact (broken_of_refused rfl he).1
  · have hmade := hs.made _ (by
      rw [Client.commit_committed, Client.learn_committed, Client.learn_committed, hc]
      exact List.mem_cons_self) (.insertReview (newReview amb b currentUser.id reviewIn)) (by
      simp [hp])
    exact hmade.imp_right fun hgone => .inr (.reviewed hi hgone)

theorem updateReview_fails {caller reviewId : UUID} {reviewUpdate : ReviewUpdate}
    (hi : events i = .request amb caller (.updateReview reviewId reviewUpdate))
    (currentUser : User) :
    FailsAsExpected events s₀ text i (updateReview reviewId reviewUpdate currentUser) c := by
  have hE := expected_http events i
  refine failsOnly_bind (failsOnly_getOr404 (hE _ _) (failsOnly_getReview fun s _ o ho => ?_))
  rintro r rfl
  have hentry : (⟨inserts [], .review reviewId, some r⟩ : Entry platform) ∈
      (c.learn (.review reviewId) (some r)).log := by
    rw [Client.learn_log, hp]
    exact List.mem_cons_self
  refine failsOnly_bind (failsOnly_refuseIf (fun _ => hE _ _) fun _ => ?_)
  refine failsOnly_commitAndRefresh (fun s hs e he => ?_) (refresh_review rfl fun s hs => ?_)
  · simp only [Client.learn_pending, hp, List.nil_append] at he
    have hstale : s.stale (.updateReview reviewId (r.changes (r.revised reviewUpdate))) = true := by
      by_contra hnot
      exact (broken_of_refused (Bool.eq_false_of_not_eq_true hnot) he).2
        (constraints_revise reviewId reviewUpdate)
    rcases hs.reviewed _ hentry [] reviewId r rfl with ⟨now, hnow, hid⟩ | hgone
    · have hrow : s.review? reviewId = some now := s.review?_eq_some.mpr ⟨hnow, hid⟩
      simp [Tables.stale, hrow] at hstale
    · exact .inr (.revised hi hgone (.inl (stale_refused hstale he)))
  · rcases hs.reviewed _ hentry [] reviewId r rfl with hnow | hgone
    · exact .inl hnow
    · exact .inr (.inr (.revised hi hgone (.inr rfl)))

theorem deleteReview_fails (reviewId : UUID) (currentUser : User) :
    FailsAsExpected events s₀ text i (deleteReview reviewId currentUser) c := by
  have hE := expected_http events i
  refine failsOnly_bind (failsOnly_getOr404 (hE _ _) (failsOnly_getReview fun s _ o ho => ?_))
  rintro r rfl
  refine failsOnly_bind (failsOnly_refuseIf (fun _ => hE _ _) fun _ => ?_)
  refine failsOnly_commitOrRollback (fun s hs e he => ?_) trivial
  simp only [Client.learn_pending, hp, List.nil_append] at he
  exact absurd (constraints_deleteReview reviewId) (broken_of_refused rfl he).2

theorem markNotificationAsRead_fails (notificationId userId : UUID) :
    FailsAsExpected events s₀ text i (markNotificationAsRead amb notificationId userId) c := by
  have hE := expected_http events i
  refine failsOnly_bind (failsOnly_getOr404 (hE _ _)
    (failsOnly_getNotification fun s _ o ho => ?_))
  rintro n rfl
  have htold := told_learn hp (.notification notificationId) (some n)
  refine failsOnly_bind (failsOnly_refuseIf (fun _ => hE _ _) fun _ => ?_)
  split
  · trivial
  · refine failsOnly_commitAndRefresh (fun s hs e he => ?_)
      (failsOnly_getNotification fun s hs o ho => ⟨?_, fun _ _ => trivial⟩)
    · simp only [Client.learn_pending, hp, List.nil_append] at he
      obtain ⟨rfl, now, hnow, hlater⟩ := htold.notification_now hs.facts
      have hid : now.id = n.id := by rw [hlater.1]
      have hrow : s.notification? n.id = some now := s.notification?_eq_some.mpr ⟨hnow, hid⟩
      have hstale : s.stale (.readNotification n.id amb.now) = false := by
        simp [Tables.stale, hrow]
      exact absurd (constraints_readNotification _ _) (broken_of_refused hstale he).2
    · rintro rfl
      have hlog : Told ((c.learn (.notification notificationId) (some n)).commit
        [.readNotification notificationId amb.now]) (.notification notificationId) (some n) := htold
      obtain ⟨rfl, now, hnow, hlater⟩ := hlog.notification_now hs.facts
      have hid : now.id = n.id := by rw [hlater.1]
      exact absurd hid (find?_key_none.mp ho now hnow)

theorem markAllAsRead_fails (userId : UUID) :
    FailsAsExpected events s₀ text i (markAllAsRead amb userId) c := by
  have happly : ∀ s : Store, ∃ t, platform.apply (.readAllNotifications userId amb.now) s =
      .ok (s.result (.readAllNotifications userId amb.now), t) := by
    intro s
    obtain ⟨t, ht, _⟩ := Store.apply_exists (w := .readAllNotifications userId amb.now) rfl
      (constraints_acknowledge s.sound (Tables.unreadOf userId) amb.now)
    exact ⟨t, ht⟩
  refine failsOnly_bind (failsOnly_send (D := platform) (fun _ => ?_) fun s hs e he => ?_)
  · refine failsOnly_bind (failsOnly_commitOrRollback (fun s hs e he => ?_) trivial)
    obtain ⟨t, ht⟩ := happly s
    simp only [Client.wrote_pending, hp, List.nil_append, List.append_nil] at he
    rw [applyAll_cons_ok ht] at he
    cases he
  · obtain ⟨t, ht⟩ := happly (platform.view c.pending s)
    exact absurd (ht.symm.trans he) nofun

end Reviews

section Others
variable {ι : Type} {events : ι → Event} {s₀ : Store} {text : Text} {i : ι}
  {c : Client platform} (hp : c.pending = []) (hc : c.committed = []) {amb : Ambient}

include hp hc in
theorem registerUser_fails (hlaws : text.Lawful) {userIn : UserRegister}
    (htext : amb.text = text) (hi : events i = .register amb userIn) :
    FailsAsExpected events s₀ text i (registerUser amb userIn) c := by
  subst htext
  have hE := expected_http events i
  refine failsOnly_bind (failsOnly_bind (failsOnly_select (D := platform) fun s hs => ?_))
  have hrows : platform.answer (.usersByEmail amb.sqlLower (amb.lower (amb.strip userIn.email)))
      (platform.view c.pending s) = (s.userOf (amb.lower (amb.strip userIn.email))).toList := by
    rw [hp]
    exact usersByEmail_eq hlaws hs.normal _
  rw [hrows]
  cases s.userOf (amb.lower (amb.strip userIn.email)) with
  | some u => exact failsOnly_bind (failsOnly_refuseIf (fun _ => hE _ _) fun h => absurd rfl h)
  | none =>
    refine failsOnly_bind (failsOnly_refuseIf (fun _ => hE _ _) fun _ => ?_)
    refine failsOnly_bind (failsOnly_ofExcept (fun hashedPw _ => ?_) fun e he => ?_)
    · refine failsOnly_commitOr409 (hE _ _) (fun s _ e he => ?_)
        (failsOnly_getUser fun s hs o ho => ⟨?_, fun _ _ => trivial⟩)
      · simp only [Client.learn_pending, hp, List.nil_append] at he
        exact (broken_of_refused rfl he).1
      · rintro rfl
        have hmade : newUser amb userIn hashedPw ∈ s.users := hs.made _ (by
          rw [Client.commit_committed, Client.learn_committed, hc]
          exact List.mem_cons_self) (.insertUser (newUser amb userIn hashedPw)) (by simp [hp])
        exact absurd rfl (find?_key_none.mp ho _ hmade)
    · exact .inr (.unhashed hi he)

/-- What a job may send: a notification about one of the rows it was told of. -/
theorem failsOnly_notifyParticipants (hdrawn : DrawnAfresh events s₀) {notice : Notice}
    {rows : List Booking} {S : Notification → Prop} {sent : List Notification}
    (h : Sending events s₀ text i c S sent)
    (hrows : ∀ b ∈ rows, ∀ n ∈ notice.notes amb b, S n) {createdCount : Nat}
    {E : Error → Prop} {Q : Nat → Client platform → Prop}
    (hQ : ∀ k d notes, Sending events s₀ text i d S notes → Q k d) :
    (notifyParticipants amb notice rows createdCount).FailsOnly (InMidst events s₀ text i) E c
      Q := by
  induction rows generalizing c sent createdCount with
  | nil => exact hQ _ _ _ h
  | cons b rows ih =>
    have hb := hrows b List.mem_cons_self
    have hcustomer := hb _ List.mem_cons_self
    have hprovider := hb _ (List.mem_cons_of_mem _ List.mem_cons_self)
    refine failsOnly_bind (failsOnly_createNotification hdrawn h hcustomer fun _ => ?_)
    have h' := h.send fun n hn => List.mem_singleton.mp hn ▸ hcustomer
    refine failsOnly_bind (failsOnly_createNotification hdrawn h' hprovider fun _ => ?_)
    have h'' := h'.send fun n hn => List.mem_singleton.mp hn ▸ hprovider
    exact ih h'' fun x hx => hrows x (List.mem_cons_of_mem b hx)

theorem about_notice {notice : Notice} {b : Booking} {n : Notification}
    (hn : n ∈ notice.notes amb b) : About amb b n := by
  refine ⟨drawn_notes hn, ?_, ?_⟩
  all_goals rcases List.mem_cons.mp hn with rfl | hn
  · exact .inl rfl
  · obtain rfl := List.mem_singleton.mp hn
    exact .inr rfl
  · rfl
  · obtain rfl := List.mem_singleton.mp hn
    rfl

include hp hc in
theorem runNotificationJob_fails (hdrawn : DrawnAfresh events s₀)
    (hamb : (events i).ambient = amb) (notice : Notice) (due : Booking → Bool) :
    FailsAsExpected events s₀ text i (runNotificationJob amb notice due) c := by
  refine failsOnly_bind (failsOnly_select (D := platform) fun s _ => ?_)
  generalize hrows : platform.answer (.bookings due) (platform.view c.pending s) = rows
  have htold : Told (c.learn (.bookings due) rows) (.bookings due) rows := told_learn hp _ _
  have hsending : Sending events s₀ text i (c.learn (.bookings due) rows)
      (fun n => ∃ b ∈ rows, About amb b n) [] := by
    refine ⟨hp, hc, ?_, fun _ hn => absurd hn List.not_mem_nil⟩
    rintro s hs n ⟨b, hb, hn⟩
    obtain ⟨now, hnow, hsame⟩ := htold.bookings_now hs.facts b hb
    exact sendable_of_same hnow hsame (hamb ▸ hn)
  refine failsOnly_bind (failsOnly_notifyParticipants hdrawn hsending
    (fun b hb n hn => ⟨b, hb, about_notice hn⟩) fun k d notes hsent => ?_)
  refine failsOnly_bind (failsOnly_commitAll (D := platform) trivial fun s hs e he => ?_)
  obtain ⟨v, hv, _⟩ := hsent.applyAll hdrawn hs
  rw [List.append_nil, hv] at he
  cases he

omit hp hc

theorem getReviewById_fails (reviewId : UUID) (currentUser : User) :
    FailsAsExpected events s₀ text i (getReviewById reviewId currentUser) c := by
  have hE := expected_http events i
  refine failsOnly_bind (failsOnly_getOr404 (hE _ _) (failsOnly_getReview fun s _ o _ => ?_))
  intro r _
  split
  · trivial
  · exact hE _ _

/-- The guard of the route has refused an empty slot before the response model could. -/
theorem checkProviderAvailability_fails (providerId : UUID) {startTime endTime : Time}
    (hlt : ¬ endTime ≤ startTime) :
    FailsAsExpected events s₀ text i (checkProviderAvailability providerId startTime endTime)
      c := by
  have hE := expected_http events i
  refine failsOnly_bind (failsOnly_bind (failsOnly_getOr404 (hE _ _)
    (failsOnly_getUser fun s _ o _ => ?_)))
  intro p _
  refine failsOnly_bind (failsOnly_refuseIf (fun _ => hE _ _) fun _ => ?_)
  refine failsOnly_bind (failsOnly_isProviderAvailable fun o => ?_)
  exact failsOnly_bind (failsOnly_refuseIf (fun h => absurd h hlt) fun _ => trivial)

/-- The average is of ratings that were all stored at one moment. -/
theorem getProviderReviewSummary_fails (providerId : UUID) :
    FailsAsExpected events s₀ text i (getProviderReviewSummary providerId) c := by
  have hE := expected_http events i
  refine failsOnly_bind (failsOnly_getOr404 (hE _ _) (failsOnly_getUser fun s _ o _ => ?_))
  intro p _
  refine failsOnly_bind (failsOnly_refuseIf (fun _ => hE _ _) fun _ => ?_)
  refine failsOnly_bind (failsOnly_select (D := platform) fun s _ => ?_)
  refine failsOnly_bind (failsOnly_select (D := platform) fun s' _ => ?_)
  refine failsOnly_ofExcept (fun _ _ => trivial) fun e he => ?_
  have hbounds := average_in_bounds
    (platform.view (c.learn (.user providerId) o).pending s) providerId
  exact absurd ((dif_pos hbounds).symm.trans he) nofun

end Others

section Events
variable {ι : Type} {events : ι → Event} {s₀ : Store} {text : Text} {i : ι}
  {c : Client platform}

theorem FailsAsExpected.map {α β : Type} {p : Service α} (h : FailsAsExpected events s₀ text i p c)
    (f : α → β) : FailsAsExpected events s₀ text i (f <$> p) c :=
  failsOnly_map (FailsOnly.mono h fun _ _ _ => trivial)

theorem handle_fails (hdrawn : DrawnAfresh events s₀) {amb : Ambient} {caller : UUID}
    {req : Request} (hi : events i = .request amb caller req) (hp : c.pending = [])
    (hc : c.committed = []) {actor : User} (hactor : Told c (.user actor.id) (some actor)) :
    FailsAsExpected events s₀ text i (handle amb actor req) c := by
  have hE := expected_http events i
  have hamb : (events i).ambient = amb := by rw [hi]; rfl
  cases req with
  | createBooking bookingIn => exact (createBooking_fails hdrawn hp hc hamb hactor bookingIn).map _
  | getBooking bookingId =>
    exact FailsAsExpected.map (failsOnly_getBookingById hp fun _ _ _ => trivial) _
  | listBookings status skip limit =>
    exact FailsAsExpected.map (failsOnly_select (D := platform) fun _ _ => trivial) _
  | updateBooking bookingId u => exact (updateBooking_fails hdrawn hp hc hamb hi actor).map _
  | cancelBooking bookingId => exact (cancelBooking_fails hdrawn hp hc hamb bookingId actor).map _
  | deleteBooking bookingId => exact (deleteBooking_fails hdrawn hp hc hamb bookingId actor).map _
  | createReview reviewIn => exact (createReview_fails hp hi hc actor).map _
  | getReview reviewId => exact (getReviewById_fails reviewId actor).map _
  | listReviews providerId rating skip limit =>
    exact FailsAsExpected.map (failsOnly_select (D := platform) fun _ _ => trivial) _
  | updateReview reviewId u => exact (updateReview_fails hp hi actor).map _
  | deleteReview reviewId => exact (deleteReview_fails hp reviewId actor).map _
  | listNotifications skip limit unreadOnly =>
    exact FailsAsExpected.map (failsOnly_select (D := platform) fun _ _ => trivial) _
  | markNotificationRead id => exact (markNotificationAsRead_fails hp id actor.id).map _
  | markAllNotificationsRead => exact (markAllAsRead_fails hp actor.id).map _
  | checkProviderAvailability providerId startTime endTime =>
    refine failsOnly_bind (failsOnly_refuseIf (fun _ => hE _ _) fun hlt => ?_)
    exact (checkProviderAvailability_fails providerId hlt).map _
  | getProviderReviewSummary providerId => exact (getProviderReviewSummary_fails providerId).map _

theorem event_fails (hlaws : text.Lawful) (hevents : Admitted text (events i))
    (hdrawn : DrawnAfresh events s₀) :
    FailsAsExpected events s₀ text i (events i).program .start := by
  have hE := expected_http events i
  cases hi : events i with
  | request amb caller req =>
    refine failsOnly_bind (failsOnly_bind (failsOnly_getUser fun s _ o ho => ?_))
    cases o with
    | none => exact hE _ _
    | some actor =>
      have hrow : s.user? caller = some actor := ho
      obtain rfl := (s.user?_eq_some.mp hrow).2
      exact handle_fails hdrawn hi rfl rfl (told_learn rfl _ _)
  | register amb userIn =>
    exact (registerUser_fails rfl rfl hlaws (hevents _ _ hi).1 hi).map _
  | reminderJob amb windowMinutes =>
    exact (runNotificationJob_fails rfl rfl hdrawn (by rw [hi]; rfl) _ _).map _
  | overdueJob amb =>
    exact (runNotificationJob_fails rfl rfl hdrawn (by rw [hi]; rfl) _ _).map _

variable [DecidableEq ι]

section Example

/-- The clock stands still; a notification is named after its key and its event. -/
def racingAmbient (event : Nat) (uuid4 : UUID) : Ambient :=
  { sampleAmbient 0 uuid4 with
    notificationId := fun userId bookingId type =>
      BitVec.ofNat 128
        ((((bookingId.elim 0 BitVec.toNat) * 100 + userId.toNat) * 10 + type.code) * 10 + event) }

/-- A PATCH that gives one end of the booking only. -/
def moveEnd (endTime : Time) : BookingUpdate where
  serviceName := none
  startTime := none
  endTime := some endTime
  status := none
  nameLength := noName
  timeRange := by simp

def moveStart (startTime : Time) : BookingUpdate where
  serviceName := none
  startTime := some startTime
  endTime := none
  status := none
  nameLength := noName
  timeRange := by simp

/-- Alice's booking at ten. -/
def aliceAtTen : Store := run newPlatform [booksAt alice 10 (10 * hour)]

/-- One shortens the booking to a quarter of an hour, the other starts it half an hour late. -/
def racing : Bool → Event
  | false =>
    .request (racingAmbient 1 20) alice.id (.updateBooking 10 (moveEnd (10 * hour + hour / 4)))
  | true =>
    .request (racingAmbient 2 21) alice.id (.updateBooking 10 (moveStart (10 * hour + hour / 2)))

theorem racing_ambient (i : Bool) :
    (racing i).ambient = racingAmbient (if i then 2 else 1) (if i then 21 else 20) := by
  cases i with
  | false => rfl
  | true => rfl

theorem NotificationType.code_digit (type : NotificationType) : type.code < 10 := by
  cases type <;> decide

theorem code_injective {type type' : NotificationType} (h : type.code = type'.code) :
    type = type' := by
  cases type <;> cases type' <;> first | rfl | cases h

theorem racing_small {userId : UUID} {bookingId : Option UUID}
    (h : Concerns racing aliceAtTen userId bookingId) :
    userId.toNat < 100 ∧ ∀ id ∈ bookingId, 0 < id.toNat ∧ id.toNat < 100 := by
  have hdrawn : ∀ i : Bool, 0 < (racing i).ambient.uuid4.toNat ∧
      (racing i).ambient.uuid4.toNat < 100 := by decide
  have husers : ∀ u ∈ aliceAtTen.users, u.id.toNat < 100 := by decide +kernel
  have hbookings : ∀ b ∈ aliceAtTen.bookings, 0 < b.id.toNat ∧ b.id.toNat < 100 := by
    decide +kernel
  refine ⟨?_, fun id hid => ?_⟩
  · rcases h.user with ⟨u, hu, rfl⟩ | ⟨i, rfl⟩
    · exact husers u hu
    · exact (hdrawn i).2
  · rcases h.booking id hid with ⟨b, hb, rfl⟩ | ⟨i, rfl⟩
    · exact hbookings b hb
    · exact hdrawn i

theorem elim_small {bookingId : Option UUID}
    (h : ∀ id ∈ bookingId, 0 < id.toNat ∧ id.toNat < 100) :
    bookingId.elim 0 BitVec.toNat < 100 := by
  cases bookingId with
  | none => exact Nat.zero_lt_succ 99
  | some id => exact (h id rfl).2

theorem elim_injective {b c : Option UUID} (hb : ∀ id ∈ b, 0 < id.toNat ∧ id.toNat < 100)
    (hc : ∀ id ∈ c, 0 < id.toNat ∧ id.toNat < 100)
    (h : b.elim 0 BitVec.toNat = c.elim 0 BitVec.toNat) : b = c := by
  cases b with
  | none =>
    cases c with
    | none => rfl
    | some id => exact absurd h (hc id rfl).1.ne
  | some id =>
    cases c with
    | none => exact absurd h (hb id rfl).1.ne'
    | some id' => exact congrArg some (BitVec.eq_of_toNat_eq h)

/-- The identifier spells out its key, booking, user, type and event. -/
theorem racing_identifier (i : Bool) {userId : UUID} {bookingId : Option UUID}
    (type : NotificationType) (h : Concerns racing aliceAtTen userId bookingId) :
    ((racing i).ambient.notificationId userId bookingId type).toNat =
      (((bookingId.elim 0 BitVec.toNat) * 100 + userId.toNat) * 10 + type.code) * 10 +
        (if i then 2 else 1) := by
  obtain ⟨huser, hbooking⟩ := racing_small h
  have hbooking := elim_small hbooking
  have hcode := type.code_digit
  rw [racing_ambient]
  refine (BitVec.toNat_ofNat _ _).trans (Nat.mod_eq_of_lt ?_)
  have hevent : (if i then 2 else 1) < 10 := by cases i <;> decide
  refine lt_of_lt_of_le (b := 1000000) ?_ (by decide)
  omega

theorem racing_drawnAfresh : DrawnAfresh racing aliceAtTen where
  bookings := by decide +kernel
  reviews := by decide +kernel
  apart := by decide +kernel
  notifications := by
    intro i n hn u b type hconcerns heq
    have hlast : ∀ n ∈ aliceAtTen.notifications, n.id.toNat % 10 = 0 := by decide +kernel
    have hid := racing_identifier i type hconcerns
    have hmod := hlast n hn
    rw [heq, hid] at hmod
    cases i <;> simp only [Bool.false_eq_true, if_true, if_false] at hmod <;> omega
  notificationsApart := by
    intro i j u v b c type type' hconcerns hconcerns' heq
    obtain ⟨huser, hbooking⟩ := racing_small hconcerns
    obtain ⟨huser', hbooking'⟩ := racing_small hconcerns'
    have hid := congrArg BitVec.toNat heq
    rw [racing_identifier i type hconcerns, racing_identifier j type' hconcerns'] at hid
    have hb := elim_small hbooking
    have hc := elim_small hbooking'
    have htype := type.code_digit
    have htype' := type'.code_digit
    have hij : i = j := by
      cases i <;> cases j <;>
        simp only [Bool.false_eq_true, if_true, if_false] at hid ⊢ <;> omega
    subst j
    refine ⟨rfl, BitVec.eq_of_toNat_eq ?_, elim_injective hbooking hbooking' ?_,
      code_injective ?_⟩
    all_goals omega

end Example

end Events

end BookingPlatform
