import BookingPlatform.Acceptance
import BookingPlatform.Alerts

/-!
# The jobs, to the row

A job adds one row for each participant of a due booking who has none yet, counts them, and
changes nothing else. Run again it adds nothing, and neither job is in the other's way.
-/

namespace BookingPlatform

set_option autoImplicit false

open Transact Transact.Program

section Rows

/-- The rows that inserts which give way to their keys add. -/
def addedTo (rows : List Notification) : List Notification → List Notification
  | [] => []
  | n :: notes =>
    if ∃ m ∈ rows, m.SameKey n then addedTo rows notes else n :: addedTo (rows ++ [n]) notes

variable {rows rows' notes : List Notification} {n : Notification}

theorem addedTo_cons_dup (h : ∃ m ∈ rows, m.SameKey n) :
    addedTo rows (n :: notes) = addedTo rows notes := if_pos h

theorem addedTo_cons_new (h : ¬ ∃ m ∈ rows, m.SameKey n) :
    addedTo rows (n :: notes) = n :: addedTo (rows ++ [n]) notes := if_neg h

theorem addNotifications_eq (rows notes : List Notification) :
    addNotifications rows notes = rows ++ addedTo rows notes := by
  induction notes generalizing rows with
  | nil => exact (List.append_nil rows).symm
  | cons n notes ih =>
    change addNotifications (Tables.addNotification rows n) notes = _
    rw [ih]
    unfold Tables.addNotification
    by_cases h : ∃ m ∈ rows, m.SameKey n
    · rw [if_pos h, addedTo_cons_dup h]
    · rw [if_neg h, addedTo_cons_new h, List.append_assoc, List.singleton_append]

theorem mem_addedTo (h : n ∈ addedTo rows notes) :
    n ∈ notes ∧ ¬ ∃ m ∈ rows, m.SameKey n := by
  induction notes generalizing rows with
  | nil => cases h
  | cons k notes ih =>
    by_cases hdup : ∃ m ∈ rows, m.SameKey k
    · rw [addedTo_cons_dup hdup] at h
      exact ⟨List.mem_cons_of_mem k (ih h).1, (ih h).2⟩
    · rw [addedTo_cons_new hdup] at h
      rcases List.mem_cons.mp h with rfl | h
      · exact ⟨List.mem_cons_self, hdup⟩
      · obtain ⟨hn, hnone⟩ := ih h
        refine ⟨List.mem_cons_of_mem k hn, fun ⟨m, hm, hkey⟩ => hnone ⟨m, ?_, hkey⟩⟩
        exact List.mem_append_left _ hm

/-- What is added depends on the keys that are there, not on the rows. -/
theorem addedTo_congr
    (h : ∀ n ∈ notes, (∃ m ∈ rows, m.SameKey n) ↔ ∃ m ∈ rows', m.SameKey n) :
    addedTo rows notes = addedTo rows' notes := by
  induction notes generalizing rows rows' with
  | nil => rfl
  | cons k notes ih =>
    have hk := h k List.mem_cons_self
    have htail := fun n hn => h n (List.mem_cons_of_mem k hn)
    by_cases hdup : ∃ m ∈ rows, m.SameKey k
    · rw [addedTo_cons_dup hdup, addedTo_cons_dup (hk.mp hdup)]
      exact ih htail
    · rw [addedTo_cons_new hdup, addedTo_cons_new fun h => hdup (hk.mpr h)]
      refine congrArg (List.cons k) (ih fun n hn => ?_)
      have hsplit : ∀ xs : List Notification, (∃ m ∈ xs ++ [k], m.SameKey n) ↔
          (∃ m ∈ xs, m.SameKey n) ∨ k.SameKey n := by
        intro xs
        simp only [List.mem_append, List.mem_singleton]
        constructor
        · rintro ⟨m, hm | rfl, hkey⟩
          · exact .inl ⟨m, hm, hkey⟩
          · exact .inr hkey
        · rintro (⟨m, hm, hkey⟩ | hkey)
          · exact ⟨m, .inl hm, hkey⟩
          · exact ⟨k, .inr rfl, hkey⟩
      rw [hsplit, hsplit, htail n hn]

theorem addedTo_of_all (h : ∀ n ∈ notes, ∃ m ∈ rows, m.SameKey n) : addedTo rows notes = [] := by
  induction notes with
  | nil => rfl
  | cons k notes ih =>
    rw [addedTo_cons_dup (h k List.mem_cons_self)]
    exact ih fun n hn => h n (List.mem_cons_of_mem k hn)

theorem sameKey_iff {m : Notification} {id : UUID} (hid : n.bookingId = some id) :
    m.SameKey n ↔ m.bookingId = some id ∧ m.userId = n.userId ∧ m.type = n.type := by
  unfold Notification.SameKey
  rw [hid]
  constructor
  · rintro ⟨huser, hbooking, _, htype⟩
    exact ⟨hbooking, huser, htype⟩
  · rintro ⟨hbooking, huser, htype⟩
    exact ⟨huser, hbooking, by simp [hbooking], htype⟩

end Rows

section Loop

/-- Notifications whose insert is not refused: about users and bookings that are there, and
either with a key that is taken or with an identifier that only rows of that key have. -/
structure Insertable (t : Tables) (notes : List Notification) : Prop where
  user : ∀ n ∈ notes, ∃ u ∈ t.users, u.id = n.userId
  booking : ∀ n ∈ notes, ∃ b ∈ t.bookings, n.bookingId = some b.id
  ids : ∀ n ∈ notes, (∃ m ∈ t.notifications, m.SameKey n) ∨
    ∀ m ∈ t.notifications ++ notes, m.id = n.id → m.SameKey n

variable {w : Store} {n : Notification} {notes : List Notification}

theorem Insertable.insert (h : Insertable w.toTables (n :: notes)) :
    ∃ w' : Store, w.apply (.insertNotification n) =
        .ok (if ∃ m ∈ w.notifications, m.SameKey n then none else some n, w') ∧
      w'.toTables = { w.toTables with
        notifications := Tables.addNotification w.notifications n } ∧
      Insertable w'.toTables notes := by
  have hn := List.mem_cons_self (a := n) (l := notes)
  have hnew : (∃ m ∈ w.notifications, m.SameKey n) ∨ ∀ m ∈ w.notifications, m.id ≠ n.id := by
    by_cases hdup : ∃ m ∈ w.notifications, m.SameKey n
    · exact .inl hdup
    · refine .inr fun m hm hid => hdup ⟨m, hm, ?_⟩
      exact (h.ids n hn).resolve_left hdup m (List.mem_append_left _ hm) hid
  obtain ⟨w', hw', hrows⟩ := Store.apply_exists (w := .insertNotification n) rfl
    (constraints_insertNotification (h.user n hn) (h.booking n hn) hnew)
  refine ⟨w', hw', hrows, ?_⟩
  rw [hrows]
  refine ⟨fun m hm => h.user m (List.mem_cons_of_mem n hm),
    fun m hm => h.booking m (List.mem_cons_of_mem n hm), fun k hk => ?_⟩
  rcases h.ids k (List.mem_cons_of_mem n hk) with ⟨m, hm, hkey⟩ | hids
  · exact .inl ⟨m, mem_addNotification.mpr (.inl hm), hkey⟩
  refine .inr fun m hm => hids m ?_
  rcases List.mem_append.mp hm with hm | hm
  · rcases mem_addNotification.mp hm with hm | ⟨rfl, _⟩
    · exact List.mem_append_left _ hm
    · exact List.mem_append_right _ List.mem_cons_self
  · exact List.mem_append_right _ (List.mem_cons_of_mem n hm)

/-- One insert of the loop. -/
theorem exec_createNotification {amb : Ambient} {userId : UUID} {bookingId : Option UUID}
    {type : NotificationType} {title message : String} (c : Store)
    (h : Insertable w.toTables (amb.notification userId bookingId type title message :: notes)) :
    ∃ w' : Store, w'.toTables = { w.toTables with
        notifications := Tables.addNotification w.notifications
          (amb.notification userId bookingId type title message) } ∧
      Insertable w'.toTables notes ∧
      (createNotification amb userId bookingId type title message).exec ⟨c, w⟩ =
        (.ok (if ∃ m ∈ w.notifications,
          m.SameKey (amb.notification userId bookingId type title message) then none
            else some (amb.notification userId bookingId type title message)), ⟨c, w'⟩) := by
  obtain ⟨w', hw', hrows, hrest⟩ := h.insert
  exact ⟨w', hrows, hrest, exec_send_ok hw'⟩

theorem count_added {rows notes : List Notification} {n : Notification} (count : Nat) :
    (if (if ∃ m ∈ rows, m.SameKey n then none else some n).isSome then count + 1 else count) +
        (addedTo (Tables.addNotification rows n) notes).length =
      count + (addedTo rows (n :: notes)).length := by
  unfold Tables.addNotification
  by_cases h : ∃ m ∈ rows, m.SameKey n
  · rw [if_pos h, if_pos h, addedTo_cons_dup h]
    rfl
  · rw [if_neg h, if_neg h, addedTo_cons_new h]
    simp only [Option.isSome_some, if_true, List.length_cons]
    omega

/-- The loop of a job, from any counter on. -/
theorem exec_notifyParticipants (amb : Ambient) (notice : Notice) (bookings : List Booking)
    (count : Nat) {c w : Store}
    (h : Insertable w.toTables (bookings.flatMap (notice.notes amb))) :
    ∃ w' : Store, w'.toTables = { w.toTables with
        notifications := addNotifications w.notifications
          (bookings.flatMap (notice.notes amb)) } ∧
      (notifyParticipants amb notice bookings count).exec ⟨c, w⟩ =
        (.ok (count + (addedTo w.notifications (bookings.flatMap (notice.notes amb))).length),
          ⟨c, w'⟩) := by
  induction bookings generalizing w count with
  | nil => exact ⟨w, rfl, rfl⟩
  | cons b bookings ih =>
    obtain ⟨w₁, hw₁, h₁, hfirst⟩ := exec_createNotification c h
    obtain ⟨w₂, hw₂, h₂, hsecond⟩ := exec_createNotification c h₁
    obtain ⟨w', hw', hrest⟩ := ih _ h₂
    refine ⟨w', ?_, (exec_bind_ok hfirst).trans ((exec_bind_ok hsecond).trans (hrest.trans ?_))⟩
    · rw [hw', hw₂, hw₁]
      rfl
    · refine congrArg (fun total => (Except.ok total, _)) ?_
      rw [hw₂, count_added, hw₁, count_added]
      rfl

end Loop

section Jobs
variable {s : Store} {amb : Ambient} {notice : Notice} {due : Booking → Bool}

/-- What a job may insert into these tables. -/
def Notice.drawn (notice : Notice) (amb : Ambient) (due : Booking → Bool) (t : Tables) :
    List Notification := (t.bookings.filter due).flatMap (notice.notes amb)

theorem Notice.mem_drawn {n : Notification} (h : n ∈ notice.drawn amb due s.toTables) :
    ∃ b ∈ s.bookings, due b ∧ n ∈ notice.notes amb b := by
  obtain ⟨b, hb, hn⟩ := List.mem_flatMap.mp h
  exact ⟨b, (List.mem_filter.mp hb).1, (List.mem_filter.mp hb).2, hn⟩

theorem sent_drawn {id userId : UUID} {type : NotificationType} :
    Sent (notice.drawn amb due s.toTables) id userId type ↔
      type = notice.type ∧ ∃ b ∈ s.bookings, due b ∧ b.id = id ∧
        (userId = b.customerId ∨ userId = b.providerId) := by
  unfold Notice.drawn
  simp only [sent_notes, List.mem_filter, and_assoc]

theorem insertable_drawn
    (hids : ∀ n ∈ notice.drawn amb due s.toTables, (∃ m ∈ s.notifications, m.SameKey n) ∨
      ∀ m ∈ s.notifications ++ notice.drawn amb due s.toTables, m.id = n.id → m.SameKey n) :
    Insertable s.toTables (notice.drawn amb due s.toTables) := by
  refine ⟨fun n hn => ?_, fun n hn => ?_, hids⟩
  · obtain ⟨b, hb, _, hn⟩ := Notice.mem_drawn hn
    rcases List.mem_pair.mp hn with rfl | rfl
    · exact s.sound.bookingsCustomer b hb
    · exact s.sound.bookingsProvider b hb
  · obtain ⟨b, hb, _, hn⟩ := Notice.mem_drawn hn
    exact ⟨b, hb, (Notice.mem_notes hn).1⟩

theorem runNotificationJob_exec (h : Insertable s.toTables (notice.drawn amb due s.toTables)) :
    ∃ t : Store, t.toTables = { s.toTables with
        notifications := s.notifications ++
          addedTo s.notifications (notice.drawn amb due s.toTables) } ∧
      (runNotificationJob amb notice due).exec (.fresh s) =
        (.ok (addedTo s.notifications (notice.drawn amb due s.toTables)).length, .fresh t) := by
  obtain ⟨t, ht, hexec⟩ := exec_notifyParticipants amb notice (s.bookings.filter due) 0 (c := s) h
  refine ⟨t, ?_, ?_⟩
  · rw [ht, addNotifications_eq]
    rfl
  · refine (exec_bind_ok (exec_select _ _)).trans ((exec_bind_ok hexec).trans ?_)
    rw [Nat.zero_add]
    rfl

/-- The job adds these rows and nothing else: one for each participant of a due booking who
had none. It returns their number. -/
structure AddsExactly (s : Store) (type : NotificationType) (due : Booking → Bool)
    (job : Service Nat) (added : List Notification) : Prop where
  count : outcome s job = .ok added.length
  tables : (leaves s job).toTables = { s.toTables with notifications := s.notifications ++ added }
  keys : ∀ id userId type', Sent added id userId type' ↔
    ¬ Sent s.notifications id userId type' ∧ type' = type ∧
      ∃ b ∈ s.bookings, due b ∧ b.id = id ∧ (userId = b.customerId ∨ userId = b.providerId)
  about : ∀ n ∈ added, ∃ id, n.bookingId = some id

theorem sent_added {id userId : UUID} {type : NotificationType} :
    Sent (addedTo s.notifications (notice.drawn amb due s.toTables)) id userId type ↔
      ¬ Sent s.notifications id userId type ∧
        Sent (notice.drawn amb due s.toTables) id userId type := by
  constructor
  · intro ⟨n, hn, hid, huser, htype⟩
    obtain ⟨hdrawn, hnone⟩ := mem_addedTo hn
    refine ⟨fun ⟨m, hm, hkey⟩ => hnone ⟨m, hm, (sameKey_iff hid).mpr ?_⟩, n, hdrawn, hid, huser,
      htype⟩
    rw [huser, htype]
    exact hkey
  · intro ⟨hnone, hsent⟩
    have hall : Sent (s.notifications ++
        addedTo s.notifications (notice.drawn amb due s.toTables)) id userId type := by
      rw [← addNotifications_eq]
      exact sent_addNotifications.mpr (.inr hsent)
    exact (sent_append.mp hall).resolve_left hnone

theorem addsExactly (h : Insertable s.toTables (notice.drawn amb due s.toTables)) :
    AddsExactly s notice.type due (runNotificationJob amb notice due)
      (addedTo s.notifications (notice.drawn amb due s.toTables)) := by
  obtain ⟨t, ht, hexec⟩ := runNotificationJob_exec h
  refine ⟨outcome_of_exec hexec, (leaves_of_exec hexec).symm ▸ ht, fun id userId type => ?_,
    fun n hn => ?_⟩
  · rw [sent_added, sent_drawn]
  · obtain ⟨b, _, _, hb⟩ := Notice.mem_drawn (mem_addedTo hn).1
    exact ⟨b.id, (Notice.mem_notes hb).1⟩

/-- With a notification for everybody concerned a job does nothing. -/
theorem runNotificationJob_idle
    (hall : ∀ n ∈ notice.drawn amb due s.toTables, ∃ m ∈ s.notifications, m.SameKey n) :
    outcome s (runNotificationJob amb notice due) = .ok 0 ∧
      leaves s (runNotificationJob amb notice due) = s := by
  obtain ⟨t, ht, hexec⟩ := runNotificationJob_exec
    (insertable_drawn fun n hn => .inl (hall n hn))
  rw [addedTo_of_all hall] at ht hexec
  rw [List.append_nil] at ht
  refine ⟨outcome_of_exec hexec, ?_⟩
  rw [leaves_of_exec hexec]
  exact Store.eq_of_toTables ht

/-- A job that has run leaves nothing to do for the next run at the same time. -/
theorem runNotificationJob_again (amb' : Ambient) {added : List Notification} {t : Store}
    (h : AddsExactly s notice.type due (runNotificationJob amb notice due) added)
    (ht : leaves s (runNotificationJob amb notice due) = t) :
    outcome t (runNotificationJob amb' notice due) = .ok 0 ∧
      leaves t (runNotificationJob amb' notice due) = t := by
  have hrows := h.tables
  rw [ht] at hrows
  refine runNotificationJob_idle fun n hn => ?_
  obtain ⟨b, hb, hdue, hnote⟩ := Notice.mem_drawn hn
  obtain ⟨hid, htype⟩ := Notice.mem_notes hnote
  have huser : n.userId = b.customerId ∨ n.userId = b.providerId := by
    rcases List.mem_pair.mp hnote with rfl | rfl
    · exact .inl rfl
    · exact .inr rfl
  rw [hrows] at hb ⊢
  have hsent : Sent (s.notifications ++ added) b.id n.userId n.type := by
    by_cases hold : Sent s.notifications b.id n.userId n.type
    · exact sent_append.mpr (.inl hold)
    · exact sent_append.mpr (.inr ((h.keys _ _ _).mpr ⟨hold, htype, b, hb, hdue, rfl, huser⟩))
  obtain ⟨m, hm, hkey⟩ := hsent
  exact ⟨m, hm, (sameKey_iff hid).mpr hkey⟩

/-- The notifications of another job are in nobody's way. -/
theorem runNotificationJob_after {t : Store} {others : List Notification}
    (ht : t.toTables = { s.toTables with notifications := s.notifications ++ others })
    (hothers : ∀ m ∈ others, m.type ≠ notice.type)
    (hids : ∀ n ∈ notice.drawn amb due s.toTables,
      ∀ m ∈ s.notifications ++ others ++ notice.drawn amb due s.toTables,
        m.id = n.id → m.SameKey n) :
    outcome t (runNotificationJob amb notice due) =
        .ok (addedTo s.notifications (notice.drawn amb due s.toTables)).length ∧
      (leaves t (runNotificationJob amb notice due)).toTables =
        { s.toTables with
          notifications := s.notifications ++ others ++
            addedTo s.notifications (notice.drawn amb due s.toTables) } := by
  have hdrawn : notice.drawn amb due t.toTables = notice.drawn amb due s.toTables := by
    rw [ht]
    rfl
  have hrows : t.notifications = s.notifications ++ others := by rw [ht]
  obtain ⟨u, hu, hexec⟩ := runNotificationJob_exec (s := t) (insertable_drawn fun n hn => .inr (by
    rw [hrows, hdrawn]
    exact hids n (hdrawn ▸ hn)))
  have hadded : addedTo t.notifications (notice.drawn amb due t.toTables) =
      addedTo s.notifications (notice.drawn amb due s.toTables) := by
    rw [hdrawn, hrows]
    refine addedTo_congr fun n hn => ?_
    constructor
    · intro ⟨m, hm, hkey⟩
      rcases List.mem_append.mp hm with hm | hm
      · exact ⟨m, hm, hkey⟩
      · obtain ⟨b, _, _, hnote⟩ := Notice.mem_drawn hn
        exact absurd (hkey.2.2.2.trans (Notice.mem_notes hnote).2) (hothers m hm)
    · intro ⟨m, hm, hkey⟩
      exact ⟨m, List.mem_append_left _ hm, hkey⟩
  rw [hadded] at hu hexec
  refine ⟨outcome_of_exec hexec, ?_⟩
  rw [leaves_of_exec hexec]
  refine hu.trans ?_
  rw [hrows, ht]

/-- The new identifiers among `notes` name one key each, in `rows` too. -/
def NewIds (rows notes : List Notification) : Prop :=
  ∀ n ∈ notes, ∀ m ∈ rows ++ notes, m.id = n.id → m.SameKey n

instance (rows notes : List Notification) : Decidable (NewIds rows notes) :=
  inferInstanceAs (Decidable (∀ n ∈ notes, ∀ m ∈ rows ++ notes, m.id = n.id → m.SameKey n))

theorem NewIds.part {rows rows' notes mine : List Notification} (h : NewIds rows notes)
    (hmine : ∀ n ∈ mine, n ∈ notes) (hrows : ∀ m ∈ rows', m ∈ rows ∨ m ∈ notes) :
    NewIds rows' mine := by
  intro n hn m hm
  refine h n (hmine n hn) m ?_
  rcases List.mem_append.mp hm with hm | hm
  · exact List.mem_append.mpr (hrows m hm)
  · exact List.mem_append_right _ (hmine m hm)

theorem added_type {rows : List Notification} {m : Notification}
    (hm : m ∈ addedTo rows (notice.drawn amb due s.toTables)) : m.type = notice.type := by
  obtain ⟨b, _, _, hnote⟩ := Notice.mem_drawn (mem_addedTo hm).1
  exact (Notice.mem_notes hnote).2

/-- What the two jobs may insert when they run with these identifiers. -/
def drawnByJobs (amb amb' : Ambient) (windowMinutes : Int) (t : Tables) : List Notification :=
  reminderNotice.drawn amb (fun b => b.upcoming amb.now windowMinutes) t ++
    overdueNotice.drawn amb' (fun b => b.overdue amb'.now) t

end Jobs

/-- Three hours into the day Alice's hour with Paula is over, and Bob's is to come. -/
def afternoon : Store where
  users := newPlatform.users
  bookings :=
    [⟨10, alice.id, paula.id, "Massage", hour, 2 * hour, .confirmed⟩,
      ⟨11, bob.id, paula.id, "Massage", 5 * hour, 6 * hour, .confirmed⟩]
  reviews := []
  notifications := []
  sound := by decide

end BookingPlatform
