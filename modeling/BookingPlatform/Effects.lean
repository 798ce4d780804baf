import BookingPlatform.Obligations

/-!
# What one event does to the store

`Effect` lists everything a solitary event can do to the committed tables, with the
facts about the store it rests on. `step_effect` is the only way later modules look
into a step.
-/

namespace BookingPlatform

set_option autoImplicit false

open Transact Transact.Program

/-- In a solitary run the answers are those of the store. -/
def Store.Says (s : Store) : Knowledge := fun q a => a = s.answer q

theorem answer_steady {t u : Tables} {q : Query} (hq : q.Steady) (hu : t.users = u.users)
    (hb : t.bookings = u.bookings) (hr : t.reviews = u.reviews) : t.answer q = u.answer q := by
  cases q with
  | notification id => exact hq.elim
  | notificationsPage filter skip limit => exact hq.elim
  | _ => simp only [Tables.answer, Tables.user?, Tables.booking?, Tables.review?, Tables.ratingsOf,
      hu, hb, hr]

/-- An answer that the client's own inserts cannot touch is that of the store. -/
theorem answer_of_current {s : Store} {notes : List Notification} {q : Query} {a : q.Answer}
    (hq : q.Steady) (h : Entry.Current (D := platform) ⟨inserts notes, q, a⟩ s) :
    a = s.answer q := by
  obtain ⟨hu, hb, hr⟩ := view_inserts s notes
  have ha : a = (platform.view (inserts notes) s).answer q := h
  exact ha.trans (answer_steady hq hu hb hr)

theorem Told.stands {c : Client platform} {s : Store} {q : Query} {a : q.Answer}
    (h : Told c q a) (hlog : ∀ e ∈ c.log, e.Current s) : s.Says q a := by
  obtain ⟨notes, hmem, hnotes⟩ := h
  have ha : a = (platform.view (inserts notes) s).answer q := hlog _ hmem
  rcases hnotes with rfl | hq
  · exact ha
  · exact answer_of_current hq ha

section Solitary
variable {α : Type} {p : Service α} {O : Knowledge → List Write → Prop}
  {Q : α → Client platform → Prop}

/-- A solitary program leaves the store alone, or makes its one commit. -/
theorem leaves_cases (s : Store) (h : p.wpOk late (Once fun c W => O (Told c) W) .start Q)
    (hO : ∀ {K K' : Knowledge} {W}, (∀ q a, K q a → K' q a) → O K W → O K' W) :
    (leaves s p = s ∧ ∀ r, outcome s p = .ok r → ∃ d, Q r d ∧ d.committed = []) ∨
      ∃ W, O s.Says W ∧ platform.applyAll W s = .ok (leaves s p) ∧
        ∀ e, outcome s p = .error e → late e := by
  obtain ⟨d, hd, ⟨hnone, hs⟩ | ⟨b, W, hW, hlog, hone, happ⟩⟩ := exec_wp (σ := .fresh s) h rfl rfl
    fun _ h => absurd h List.not_mem_nil
  · refine .inl ⟨hs, fun r hr => ⟨d, ?_, hnone⟩⟩
    unfold outcome at hr
    rwa [hr] at hd
  · refine .inr ⟨W, hO (fun _ _ h => h.stands hlog) hW, happ, fun e he => ?_⟩
    unfold outcome at he
    rw [he] at hd
    rcases hd with hnone | hlate
    · rw [hone] at hnone
      cases hnone
    · exact hlate

/-- A solitary program that succeeds only after its commit has made it. -/
theorem committed_of_ok {s : Store}
    (h : p.wpOk late (Once fun c W => O (Told c) W) .start fun _ d => d.committed ≠ [])
    (hO : ∀ {K K' : Knowledge} {W}, (∀ q a, K q a → K' q a) → O K W → O K' W) {r : α}
    (hr : outcome s p = .ok r) :
    ∃ W, O s.Says W ∧ platform.applyAll W s = .ok (leaves s p) := by
  rcases leaves_cases s h hO with ⟨_, hok⟩ | ⟨W, hW, happ, _⟩
  · obtain ⟨d, hd, hnone⟩ := hok r hr
    exact absurd hnone hd
  · exact ⟨W, hW, happ⟩

/-- What is refused with an HTTP error has committed nothing. -/
theorem leaves_of_httpException {O : Obligation platform} {s : Store} {code : Nat}
    {detail : String} (h : p.wpOk late (Once O) .start Q)
    (he : outcome s p = .error (.httpException code detail)) : leaves s p = s := by
  obtain ⟨d, hd, ⟨_, hs⟩ | ⟨b, W, _, _, hone, _⟩⟩ := exec_wp (σ := .fresh s) h rfl rfl
    fun _ h => absurd h List.not_mem_nil
  · exact hs
  · unfold outcome at he
    rw [he] at hd
    rcases hd with hnone | hlate
    · rw [hone] at hnone
      cases hnone
    · cases hlate

end Solitary

theorem step_commits (s : Store) (e : Event) :
    (step s e = s ∧ ∀ r, outcome s e.program = .ok r → ¬ e.Writes) ∨
      ∃ W, e.Commits s.Says W ∧ platform.applyAll W s = .ok (step s e) := by
  rcases leaves_cases (O := e.Commits) s (event_wp e) fun hK h => h.mono hK with
    ⟨hs, hok⟩ | ⟨W, hW, happ, _⟩
  · refine .inl ⟨hs, fun r hr hwrites => ?_⟩
    obtain ⟨d, hd, hnone⟩ := hok r hr
    exact hd hwrites hnone
  · exact .inr ⟨W, hW, happ⟩

section Tables

def replaceBooking (rows : List Booking) (b' : Booking) : List Booking :=
  rows.map fun x => if x.id = b'.id then b' else x

theorem mem_replaceBooking {rows : List Booking} {b' x : Booking}
    (h : ∃ b ∈ rows, b.id = b'.id) :
    x ∈ replaceBooking rows b' ↔ x = b' ∨ (x ∈ rows ∧ x.id ≠ b'.id) := by
  simp only [replaceBooking, List.mem_map]
  constructor
  · rintro ⟨y, hy, rfl⟩
    split
    · exact .inl rfl
    · rename_i hne
      exact .inr ⟨hy, hne⟩
  · rintro (rfl | ⟨hx, hne⟩)
    · obtain ⟨b, hb, hid⟩ := h
      exact ⟨b, hb, if_pos hid⟩
    · exact ⟨x, hx, if_neg hne⟩

variable {s : Store} {W : List Write}

theorem Booked.tables {amb : Ambient} {customerId : UUID} {bookingIn : BookingCreate}
    {K : Knowledge} (h : Booked amb customerId bookingIn K W) :
    s.afterAll W =
      { s.toTables with
        bookings := s.bookings ++ [newBooking amb customerId bookingIn]
        notifications := addNotifications s.notifications
          [createdNote amb (newBooking amb customerId bookingIn)] } := by
  rw [h.writes]
  rfl

theorem Edited.mem {amb : Ambient} {bookingId : UUID} {actor : User} {b b' : Booking}
    {notes : List Notification} (h : Edited amb bookingId actor b b' notes s.Says W) :
    b ∈ s.bookings :=
  (s.booking?_eq_some.mp (Eq.symm h.told)).1

/-- The changed columns of the row that was loaded make it the row that was assigned. -/
theorem afterAll_patch {bookingId : UUID} {b b' : Booking} {notes : List Notification}
    (hb : b ∈ s.bookings) (hkey : b.id = bookingId) (hid : b'.id = b.id)
    (hcustomer : b'.customerId = b.customerId) (hprovider : b'.providerId = b.providerId) :
    s.afterAll (inserts notes ++ [.updateBooking bookingId (b.changes b')]) =
      { s.toTables with
        bookings := replaceBooking s.bookings b'
        notifications := addNotifications s.notifications notes } := by
  have hrows : (s.bookings.map fun x => if x.id = bookingId then x.patch (b.changes b') else x) =
      replaceBooking s.bookings b' := by
    refine List.map_congr_left fun x hx => ?_
    have hkey' : b'.id = bookingId := hid.trans hkey
    rw [hkey']
    split
    · rename_i hx'
      obtain rfl := s.booking_unique hx hb (hx'.trans hkey.symm)
      exact Booking.patch_changes hid hcustomer hprovider
    · rfl
  rw [Tables.afterAll_append, Tables.afterAll_inserts, ← hrows]
  rfl

theorem Edited.tables {amb : Ambient} {bookingId : UUID} {actor : User} {b b' : Booking}
    {notes : List Notification} (h : Edited amb bookingId actor b b' notes s.Says W) :
    s.afterAll W =
      { s.toTables with
        bookings := replaceBooking s.bookings b'
        notifications := addNotifications s.notifications notes } := by
  rw [h.writes, afterAll_patch h.mem h.key h.sameId h.sameCustomer h.sameProvider]

/-- The rows that marking as read, by id or by user, may touch. -/
def acknowledge (rows : List Notification) (which : Notification → Bool) (readAt : Time) :
    List Notification :=
  rows.map fun n => if which n then { n with isRead := true, readAt := some readAt } else n

end Tables

/-- Which booking a request turns into which. -/
def Request.Edits : Request → Booking → Booking → Prop
  | .updateBooking bookingId bookingUpdate, b, b' =>
    b.id = bookingId ∧ b' = bookingUpdate.applied b
  | .cancelBooking bookingId, b, b' => b.id = bookingId ∧ b' = b.cancelled
  | .deleteBooking bookingId, b, b' => b.id = bookingId ∧ b.status = .pending ∧ b' = b.cancelled
  | _, _, _ => False

inductive Effect (s : Store) : Event → Tables → Prop
  | idle (e : Event) : Effect s e s.toTables
  | booked {amb : Ambient} {caller : UUID} {bookingIn : BookingCreate} {W : List Write}
      {customer : User} (hcustomer : s.user? caller = some customer)
      (h : Booked amb caller bookingIn s.Says W) :
      Effect s (.request amb caller (.createBooking bookingIn))
        { s.toTables with
          bookings := s.bookings ++ [newBooking amb caller bookingIn]
          notifications := addNotifications s.notifications
            [createdNote amb (newBooking amb caller bookingIn)] }
  | edited {amb : Ambient} {caller bookingId : UUID} {req : Request} {actor : User}
      {b b' : Booking} {notes : List Notification} {W : List Write}
      (hactor : s.user? caller = some actor) (hreq : req.Edits b b')
      (h : Edited amb bookingId actor b b' notes s.Says W) :
      Effect s (.request amb caller req)
        { s.toTables with
          bookings := replaceBooking s.bookings b'
          notifications := addNotifications s.notifications notes }
  | reviewed {amb : Ambient} {caller : UUID} {reviewIn : ReviewCreate} {author : User}
      {b : Booking} {W : List Write} (hauthor : s.user? caller = some author)
      (h : Reviewed amb author reviewIn b s.Says W) :
      Effect s (.request amb caller (.createReview reviewIn))
        { s.toTables with reviews := s.reviews ++ [newReview amb b caller reviewIn] }
  | revised {amb : Ambient} {caller reviewId : UUID} {reviewUpdate : ReviewUpdate} {r : Review} :
      Effect s (.request amb caller (.updateReview reviewId reviewUpdate))
        { s.toTables with
          reviews := s.reviews.map fun x =>
            if x.id = reviewId then x.patch (r.changes (r.revised reviewUpdate)) else x }
  | withdrawn {amb : Ambient} {caller reviewId : UUID} :
      Effect s (.request amb caller (.deleteReview reviewId))
        { s.toTables with reviews := s.reviews.filter fun r => r.id ≠ reviewId }
  | acknowledged {amb : Ambient} {caller : UUID} {req : Request} (which : Notification → Bool) :
      Effect s (.request amb caller req)
        { s.toTables with notifications := acknowledge s.notifications which amb.now }
  | registered {amb : Ambient} {userIn : UserRegister} {hashedPw : String} :
      Effect s (.register amb userIn)
        { s.toTables with users := s.users ++ [newUser amb userIn hashedPw] }
  | reminded {amb : Ambient} {windowMinutes : Int} :
      Effect s (.reminderJob amb windowMinutes)
        { s.toTables with
          notifications := addNotifications s.notifications
            ((s.bookings.filter fun b => b.upcoming amb.now windowMinutes).flatMap
              (reminderNotice.notes amb)) }
  | alerted {amb : Ambient} :
      Effect s (.overdueJob amb)
        { s.toTables with
          notifications := addNotifications s.notifications
            ((s.bookings.filter fun b => b.overdue amb.now).flatMap (overdueNotice.notes amb)) }

theorem Notified.tables {amb : Ambient} {notice : Notice} {due : Booking → Bool}
    {rows : List Booking} {s : Store} {W : List Write}
    (h : Notified amb notice due rows s.Says W) :
    s.afterAll W =
      { s.toTables with
        notifications := addNotifications s.notifications
          ((s.bookings.filter due).flatMap (notice.notes amb)) } := by
  have hrows : rows = s.bookings.filter due := h.told
  rw [h.writes, Tables.afterAll_inserts, hrows]

theorem Request.Commits.effect {s : Store} {amb : Ambient} {caller : UUID} {req : Request}
    {actor : User} {W : List Write} (hactor : s.user? caller = some actor)
    (hid : actor.id = caller) (h : req.Commits amb actor s.Says W) :
    Effect s (.request amb caller req) (s.afterAll W) := by
  subst hid
  cases req with
  | createBooking bookingIn =>
    have h : Booked amb actor.id bookingIn s.Says W := h
    rw [h.tables]
    exact .booked hactor h
  | updateBooking bookingId bookingUpdate =>
    obtain ⟨b, notes, h⟩ := h
    rw [h.tables]
    exact .edited hactor ⟨h.key, rfl⟩ h
  | cancelBooking bookingId =>
    obtain ⟨b, notes, h⟩ := h
    rw [h.tables]
    exact .edited hactor ⟨h.key, rfl⟩ h
  | deleteBooking bookingId =>
    obtain ⟨b, notes, hpending, _, h⟩ := h
    rw [h.tables]
    exact .edited hactor ⟨h.key, hpending, rfl⟩ h
  | createReview reviewIn =>
    obtain ⟨b, h⟩ := h
    have heffect := Effect.reviewed hactor h
    rw [h.writes]
    exact heffect
  | updateReview reviewId reviewUpdate =>
    obtain ⟨r, h⟩ := h
    rw [h.writes]
    exact .revised
  | deleteReview reviewId =>
    obtain ⟨r, h⟩ := h
    rw [h.writes]
    exact .withdrawn
  | markNotificationRead notificationId =>
    obtain ⟨n, h⟩ := h
    rw [h.writes]
    have heffect : Effect s (.request amb actor.id (.markNotificationRead notificationId)) _ :=
      .acknowledged fun n => n.id = notificationId
    simpa [acknowledge, Tables.after] using heffect
  | markAllNotificationsRead =>
    have h : W = [.readAllNotifications actor.id amb.now] := h
    rw [h]
    exact .acknowledged (Tables.unreadOf actor.id)
  | _ => exact h.elim

theorem step_effect (s : Store) (e : Event) : Effect s e (step s e).toTables := by
  rcases step_commits s e with ⟨hs, _⟩ | ⟨W, hW, happ⟩
  · rw [hs]
    exact .idle e
  · rw [tables_of_applyAll happ]
    cases e with
    | request amb caller req =>
      obtain ⟨actor, hactor, hid, hW⟩ := hW
      exact hW.effect (Eq.symm hactor) hid
    | register amb userIn =>
      obtain ⟨hashedPw, hW⟩ := hW
      rw [hW.writes]
      exact .registered
    | reminderJob amb windowMinutes =>
      obtain ⟨rows, hW⟩ := hW
      rw [hW.tables]
      exact .reminded
    | overdueJob amb =>
      obtain ⟨rows, hW⟩ := hW
      rw [hW.tables]
      exact .alerted

end BookingPlatform
