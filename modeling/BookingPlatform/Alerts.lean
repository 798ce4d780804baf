import BookingPlatform.Record

/-!
# What the jobs tell

A job leaves every participant of a due booking with a notification, but the unique
constraint makes its first one the only one. `Origin` says which run of which job the
text of such a notification comes from, and what the booking looked like then.
-/

namespace BookingPlatform

set_option autoImplicit false

open Transact

/-- The job an event runs: its clock, what it says and which bookings it selects. -/
def Event.job? : Event → Option (Ambient × Notice × (Booking → Bool))
  | .reminderJob amb windowMinutes =>
    some (amb, reminderNotice, fun b => b.upcoming amb.now windowMinutes)
  | .overdueJob amb => some (amb, overdueNotice, fun b => b.overdue amb.now)
  | _ => none

/-- A notification that only the jobs produce. -/
def NotificationType.OfJobs (type : NotificationType) : Prop :=
  type = .bookingReminder ∨ type = .bookingOverdue

/-- Same user, booking, type and text: reading a notification changes nothing else. -/
def Notification.SameText (m n : Notification) : Prop :=
  m.userId = n.userId ∧ m.bookingId = n.bookingId ∧ m.type = n.type ∧ m.message = n.message

/-- In `s` the event runs a job that selects `x` and says `n` about it, to a user it has
not told before. -/
def Tells (s : Store) (e : Event) (x : Booking) (n : Notification) : Prop :=
  ∃ amb notice due, e.job? = some (amb, notice, due) ∧ x ∈ s.bookings ∧ due x ∧
    (∃ note ∈ notice.notes amb x, n.SameText note) ∧ ¬ Sent s.notifications x.id n.userId n.type

/-- The text of `n` was written by a job during the run, about the row `x` of that
moment. -/
def Origin (s₀ : Store) (events : List Event) (x : Booking) (n : Notification) : Prop :=
  ∃ pre e post, events = pre ++ e :: post ∧ Tells (run s₀ pre) e x n

theorem mem_addNotifications {rows notes : List Notification} {n : Notification}
    (h : n ∈ addNotifications rows notes) :
    n ∈ rows ∨ (n ∈ notes ∧ ∀ id, n.bookingId = some id → ¬ Sent rows id n.userId n.type) := by
  induction notes generalizing rows with
  | nil => exact .inl h
  | cons m notes ih =>
    rcases ih h with hn | ⟨hn, hnone⟩
    · refine (mem_addNotification.mp hn).imp_right ?_
      rintro ⟨rfl, hnone⟩
      refine ⟨List.mem_cons_self, fun id hid => ?_⟩
      rintro ⟨k, hk, hkid, hku, hkty⟩
      exact hnone ⟨k, hk, hku, hkid.trans hid.symm, by simp [hkid], hkty⟩
    · refine .inr ⟨List.mem_cons_of_mem _ hn, fun id hid hs => hnone id hid ?_⟩
      exact sent_addNotification.mpr (.inl hs)

theorem Notice.mem_notes {notice : Notice} {amb : Ambient} {b : Booking} {n : Notification}
    (h : n ∈ notice.notes amb b) : n.bookingId = some b.id ∧ n.type = notice.type := by
  rcases List.mem_pair.mp h with rfl | rfl <;> exact ⟨rfl, rfl⟩

theorem origin_mono {s₀ : Store} {events : List Event} {x : Booking} {n m : Notification}
    (h : Origin s₀ events x n) (hmn : m.SameText n) (e : Event) :
    Origin s₀ (events ++ [e]) x m := by
  obtain ⟨pre, e', post, rfl, amb, notice, due, hjob, hx, hdue, ⟨note, hnote, hsame⟩, hnone⟩ := h
  refine ⟨pre, e', post ++ [e], by simp, amb, notice, due, hjob, hx, hdue, ⟨note, hnote, ?_⟩, ?_⟩
  · exact ⟨hmn.1.trans hsame.1, hmn.2.1.trans hsame.2.1, hmn.2.2.1.trans hsame.2.2.1,
      hmn.2.2.2.trans hsame.2.2.2⟩
  · rw [hmn.1, hmn.2.2.1]
    exact hnone

theorem not_ofJobs_of_transition {amb : Ambient} {b : Booking} {actor : User} {n : Notification}
    (h : n ∈ transitionNotes amb b actor) : ¬ n.type.OfJobs := by
  have htype : n.type = .bookingConfirmed ∨ n.type = .bookingCompleted ∨
      n.type = .bookingCancelled := by
    unfold transitionNotes cancellationNotes at h
    split at h
    · cases h
    · exact .inl (List.mem_singleton.mp h ▸ rfl)
    · exact .inr (.inl (List.mem_singleton.mp h ▸ rfl))
    · refine .inr (.inr ?_)
      rcases List.mem_append.mp h with h | h <;> split at h
      · exact List.mem_singleton.mp h ▸ rfl
      · cases h
      · exact List.mem_singleton.mp h ▸ rfl
      · cases h
  rintro (hty | hty) <;> rw [hty] at htype <;> rcases htype with h | h | h <;> cases h

/-- A notification of the jobs was there before the step, or the step tells it. -/
theorem tells_of_effect {s t : Store} {e : Event} {rows : Tables} (h : Effect s e rows)
    (ht : t.toTables = rows) {n : Notification} (hn : n ∈ t.notifications)
    (htype : n.type.OfJobs) :
    (∃ m ∈ s.notifications, n.SameText m) ∨ ∃ x, Tells s e x n ∧ n.bookingId = some x.id := by
  have hkeep : n ∈ s.notifications → (∃ m ∈ s.notifications, n.SameText m) :=
    fun hn => ⟨n, hn, rfl, rfl, rfl, rfl⟩
  have hother : ∀ notes : List Notification, (∀ m ∈ notes, ¬ m.type.OfJobs) →
      n ∈ addNotifications s.notifications notes → n ∈ s.notifications :=
    fun notes hnone hn => (mem_addNotifications hn).resolve_right fun hn => hnone n hn.1 htype
  have hjob : ∀ amb notice due, e.job? = some (amb, notice, due) →
      n ∈ addNotifications s.notifications
        ((s.bookings.filter due).flatMap (notice.notes amb)) →
      (∃ m ∈ s.notifications, n.SameText m) ∨ ∃ x, Tells s e x n ∧ n.bookingId = some x.id := by
    intro amb notice due hjob hn
    rcases mem_addNotifications hn with hn | ⟨hn, hnone⟩
    · exact .inl (hkeep hn)
    · obtain ⟨x, hx, hnote⟩ := List.mem_flatMap.mp hn
      obtain ⟨hx, hdue⟩ := List.mem_filter.mp hx
      have hid := (Notice.mem_notes hnote).1
      exact .inr ⟨x, ⟨amb, notice, due, hjob, hx, hdue, ⟨n, hnote, rfl, rfl, rfl, rfl⟩,
        hnone x.id hid⟩, hid⟩
  rw [ht] at hn
  cases h with
  | booked hcustomer h =>
    refine .inl (hkeep (hother _ (fun m hm => ?_) hn))
    rw [List.mem_singleton.mp hm]
    rintro (hty | hty) <;> cases hty
  | @edited amb caller bookingId req actor b b' notes W hactor hreq h =>
    refine .inl (hkeep ?_)
    rcases h.status with ⟨_, rfl⟩ | ⟨_, _, rfl⟩
    · exact hn
    · exact hother _ (fun m hm => not_ofJobs_of_transition hm) hn
  | reminded => exact hjob _ _ _ rfl hn
  | alerted => exact hjob _ _ _ rfl hn
  | acknowledged which =>
    obtain ⟨m, hm, rfl⟩ := List.mem_map.mp hn
    refine .inl ⟨m, hm, ?_⟩
    split <;> exact ⟨rfl, rfl, rfl, rfl⟩
  | _ => exact .inl (hkeep hn)

theorem origin_run {s₀ : Store} (h₀ : s₀.bookings = []) (events : List Event)
    {n : Notification} (hn : n ∈ (run s₀ events).notifications) (htype : n.type.OfJobs)
    {id : UUID} (hid : n.bookingId = some id) :
    ∃ x, x.id = id ∧ Origin s₀ events x n := by
  induction events using List.reverseRecOn generalizing n with
  | nil =>
    rcases s₀.sound.notificationsBooking n hn with hnone | ⟨b, hb, _⟩
    · rw [hnone] at hid
      cases hid
    · rw [h₀] at hb
      cases hb
  | append_singleton events e ih =>
    rw [run_snoc] at hn
    rcases tells_of_effect (step_effect _ e) rfl hn htype with ⟨m, hm, hsame⟩ | ⟨x, htells, hx⟩
    · obtain ⟨x, hx, horigin⟩ := ih hm (hsame.2.2.1 ▸ htype) (hsame.2.1 ▸ hid)
      exact ⟨x, hx, origin_mono horigin hsame e⟩
    · exact ⟨x, Option.some.inj (hx.symm.trans hid), events, e, [], rfl, htells⟩

/-- After a job that has succeeded, every participant of every booking it selects has its
notification. -/
theorem sent_by_job {s : Store} {e : Event} {amb : Ambient} {notice : Notice}
    {due : Booking → Bool} (hjob : e.job? = some (amb, notice, due)) {r : Response}
    (hok : outcome s e.program = .ok r) {b : Booking} (hb : b ∈ s.bookings) (hdue : due b)
    {u : UUID} (hu : u = b.customerId ∨ u = b.providerId) :
    Sent (step s e).notifications b.id u notice.type := by
  rcases step_commits s e with ⟨_, hnone⟩ | ⟨W, hW, happ⟩
  · cases e with
    | reminderJob amb windowMinutes => exact absurd trivial (hnone r hok)
    | overdueJob amb => exact absurd trivial (hnone r hok)
    | _ => cases hjob
  · have hrows : ∃ rows, Notified amb notice due rows s.Says W := by
      cases e with
      | reminderJob amb windowMinutes =>
        cases hjob
        exact hW
      | overdueJob amb =>
        cases hjob
        exact hW
      | _ => cases hjob
    obtain ⟨rows, hrows⟩ := hrows
    rw [tables_of_applyAll happ, hrows.tables]
    refine sent_addNotifications.mpr (.inr (sent_notes.mpr ⟨rfl, b, ?_, rfl, hu⟩))
    exact List.mem_filter.mpr ⟨hb, hdue⟩

/-- A job writes no booking. -/
theorem bookings_of_job {s : Store} {e : Event} (hjob : e.job?.isSome) :
    (step s e).bookings = s.bookings := by
  have heffect := step_effect s e
  generalize (step s e).toTables = rows at heffect ⊢
  cases heffect with
  | reminded => rfl
  | alerted => rfl
  | idle => rfl
  | _ => cases hjob

/-- The message prints this time. -/
def States (message : String) (t : Time) : Prop := (isoformat t).toList <:+: message.toList

instance (message : String) (t : Time) : Decidable (States message t) :=
  inferInstanceAs (Decidable (_ <:+: _))

theorem states_of_append (pre post : String) (t : Time) :
    States (pre ++ isoformat t ++ post) t := by
  unfold States
  rw [String.toList_append, String.toList_append]
  exact ⟨pre.toList, post.toList, rfl⟩

theorem states_of_reminder {amb : Ambient} {x : Booking} {n : Notification}
    (h : n ∈ reminderNotice.notes amb x) : States n.message x.startTime := by
  rcases List.mem_pair.mp h with rfl | rfl <;> exact states_of_append _ "." _

theorem states_of_alert {amb : Ambient} {x : Booking} {n : Notification}
    (h : n ∈ overdueNotice.notes amb x) : States n.message x.endTime := by
  rcases List.mem_pair.mp h with rfl | rfl
  · exact states_of_append _ " and is overdue." _
  · exact states_of_append _ " and requires completion." _

/-- A notification of a job, as the run that wrote it saw the booking. -/
theorem alert_of_job {s₀ : Store} (h₀ : s₀.bookings = []) {events : List Event} {e : Event}
    {amb : Ambient} {notice : Notice} {due : Booking → Bool}
    (hjob : e.job? = some (amb, notice, due)) (htype : notice.type.OfJobs) {r : Response}
    (hok : outcome (run s₀ events) e.program = .ok r) {b : Booking}
    (hb : b ∈ (run s₀ (events ++ [e])).bookings) (hdue : due b) {u : UUID}
    (hu : u = b.customerId ∨ u = b.providerId) :
    ∃ n ∈ (run s₀ (events ++ [e])).notifications, n.userId = u ∧ n.bookingId = some b.id ∧
      n.type = notice.type ∧ ∃ x, x.id = b.id ∧ Origin s₀ (events ++ [e]) x n := by
  have hmem : b ∈ (run s₀ events).bookings := by
    rw [run_snoc, bookings_of_job (by simp [hjob])] at hb
    exact hb
  have hsent := sent_by_job hjob hok hmem hdue hu
  rw [← run_snoc] at hsent
  obtain ⟨n, hn, hid, hnu, hty⟩ := hsent
  exact ⟨n, hn, hnu, hid, hty, origin_run h₀ _ hn (hty ▸ htype) hid⟩

/-- The text a job of this type once wrote about `x`. -/
theorem Origin.text {s₀ : Store} {events : List Event} {x : Booking} {n : Notification}
    (h : Origin s₀ events x n) :
    ∃ amb note, n.message = note.message ∧
      ((n.type = .bookingReminder ∧ note ∈ reminderNotice.notes amb x) ∨
        (n.type = .bookingOverdue ∧ note ∈ overdueNotice.notes amb x)) := by
  obtain ⟨pre, e, post, _, amb, notice, due, hjob, _, _, ⟨note, hnote, hsame⟩, _⟩ := h
  have htype := hsame.2.2.1.trans (Notice.mem_notes hnote).2
  refine ⟨amb, note, hsame.2.2.2, ?_⟩
  cases e with
  | reminderJob amb windowMinutes =>
    cases hjob
    exact .inl ⟨htype, hnote⟩
  | overdueJob amb =>
    cases hjob
    exact .inr ⟨htype, hnote⟩
  | _ => cases hjob

/-- After a successful job every participant of a due booking has its notification; it
states the time the booking had in the run, this one or an earlier one, that was the
first to tell that participant. -/
theorem alerts_state_time_when_told {s₀ : Store} (h₀ : s₀.bookings = []) (events : List Event)
    (amb : Ambient) :
    (∀ windowMinutes r,
      outcome (run s₀ events) (Event.reminderJob amb windowMinutes).program = .ok r →
      ∀ b ∈ (run s₀ (events ++ [.reminderJob amb windowMinutes])).bookings,
        b.status = .confirmed → amb.now < b.startTime →
        b.startTime ≤ amb.now + windowMinutes * 60000000 →
        ∀ u, u = b.customerId ∨ u = b.providerId →
          ∃ n ∈ (run s₀ (events ++ [.reminderJob amb windowMinutes])).notifications,
            n.userId = u ∧ n.bookingId = some b.id ∧ n.type = .bookingReminder ∧
            ∃ x, x.id = b.id ∧ States n.message x.startTime ∧
              Origin s₀ (events ++ [.reminderJob amb windowMinutes]) x n) ∧
    (∀ r, outcome (run s₀ events) (Event.overdueJob amb).program = .ok r →
      ∀ b ∈ (run s₀ (events ++ [.overdueJob amb])).bookings,
        b.status = .confirmed → b.endTime < amb.now →
        ∀ u, u = b.customerId ∨ u = b.providerId →
          ∃ n ∈ (run s₀ (events ++ [.overdueJob amb])).notifications,
            n.userId = u ∧ n.bookingId = some b.id ∧ n.type = .bookingOverdue ∧
            ∃ x, x.id = b.id ∧ States n.message x.endTime ∧
              Origin s₀ (events ++ [.overdueJob amb]) x n) := by
  refine ⟨fun windowMinutes r hok b hb hs hnow hwindow u hu => ?_,
    fun r hok b hb hs hend u hu => ?_⟩
  · obtain ⟨n, hn, hnu, hid, hty, x, hx, horigin⟩ :=
      alert_of_job h₀ rfl (.inl rfl) hok hb (decide_eq_true ⟨hs, hnow, hwindow⟩) hu
    refine ⟨n, hn, hnu, hid, hty, x, hx, ?_, horigin⟩
    obtain ⟨_, note, hmessage, ⟨_, hnote⟩ | ⟨hother, _⟩⟩ := horigin.text
    · exact hmessage ▸ states_of_reminder hnote
    · cases hty.symm.trans hother
  · obtain ⟨n, hn, hnu, hid, hty, x, hx, horigin⟩ :=
      alert_of_job h₀ rfl (.inr rfl) hok hb (decide_eq_true ⟨hs, hend⟩) hu
    refine ⟨n, hn, hnu, hid, hty, x, hx, ?_, horigin⟩
    obtain ⟨_, note, hmessage, ⟨hother, _⟩ | ⟨_, hnote⟩⟩ := horigin.text
    · cases hty.symm.trans hother
    · exact hmessage ▸ states_of_alert hnote

/-- A booking is reminded of, then moved. -/
def movedAfterReminder : List Event :=
  [booksAt alice 10 hour,
    .request (sampleAmbient 0 11) paula.id (.updateBooking 10 (statusOnly .confirmed)),
    .reminderJob (sampleAmbient 0 12) 1440,
    .request (sampleAmbient 0 13) alice.id
      (.updateBooking 10 (moveTo (3 * hour) (4 * hour) (by decide)))]

/-- The next run of the job leaves both participants with the old time. -/
theorem reminder_states_old_time :
    newPlatform.bookings = [] ∧
      (outcome (run newPlatform movedAfterReminder)
        (Event.reminderJob (sampleAmbient 0 14) 1440).program).isOk ∧
      ∃ b ∈ (run newPlatform
          (movedAfterReminder ++ [.reminderJob (sampleAmbient 0 14) 1440])).bookings,
        b.upcoming 0 1440 ∧
        ∀ n ∈ (run newPlatform
            (movedAfterReminder ++ [.reminderJob (sampleAmbient 0 14) 1440])).notifications,
          n.userId = b.customerId ∨ n.userId = b.providerId → n.bookingId = some b.id →
            n.type = .bookingReminder → ¬ States n.message b.startTime := by
  decide +kernel

theorem alerts_state_time_when_told_moved :
    ∃ n ∈ (run newPlatform
        (movedAfterReminder ++ [.reminderJob (sampleAmbient 0 14) 1440])).notifications,
      n.userId = alice.id ∧ n.bookingId = some 10 ∧ n.type = .bookingReminder ∧
      ∃ x : Booking, x.id = 10 ∧ States n.message x.startTime ∧
        Origin newPlatform
          (movedAfterReminder ++ [.reminderJob (sampleAmbient 0 14) 1440]) x n :=
  (alerts_state_time_when_told rfl movedAfterReminder (sampleAmbient 0 14)).1 1440
    (.updatedCount 0) (by rfl)
    ⟨10, alice.id, paula.id, "Massage", 3 * hour, 4 * hour, .confirmed⟩ (by decide) rfl
    (by decide) (by decide) alice.id (.inl rfl)

end BookingPlatform
