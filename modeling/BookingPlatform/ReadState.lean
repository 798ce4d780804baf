import BookingPlatform.Acceptance

/-!
# The read state of notifications

Notifications are marked as read one by one, through the loaded row, or all at once, by one
UPDATE. Over any run of such calls the flag and its time stay together, what is read stays as
it is, and the two ways of marking agree.
-/

namespace BookingPlatform

set_option autoImplicit false

open Transact Transact.Program

section Rows
variable {rows : List Notification} {which : Notification → Bool} {readAt : Time}

/-- Marking as read changes no key. -/
theorem constraints_acknowledge {t : Tables} (h : Constraints t) (which : Notification → Bool)
    (readAt : Time) :
    Constraints { t with notifications := acknowledge t.notifications which readAt } := by
  have each : ∀ {P : Notification → Prop}, (∀ n ∈ t.notifications, P n) →
      (∀ n ∈ t.notifications, P n → P { n with isRead := true, readAt := some readAt }) →
      ∀ n ∈ acknowledge t.notifications which readAt, P n := by
    intro P hall hread n hn
    obtain ⟨m, hm, rfl⟩ := List.mem_map.mp hn
    split
    · exact hread m hm (hall m hm)
    · exact hall m hm
  exact { h with
    notificationsKey := by
      have hkeys : (acknowledge t.notifications which readAt).map Notification.id =
          t.notifications.map Notification.id := by
        unfold acknowledge
        rw [List.map_map]
        refine List.map_congr_left fun n _ => ?_
        simp only [Function.comp]
        split <;> rfl
      change ((acknowledge t.notifications which readAt).map Notification.id).Nodup
      rw [hkeys]
      exact h.notificationsKey
    notificationsUser := each h.notificationsUser fun _ _ hu => hu
    notificationsBooking := each h.notificationsBooking fun _ _ hb => hb
    uqNotificationsUserBookingType := by
      refine List.pairwise_map.mpr (h.uqNotificationsUserBookingType.imp fun {m n} hmn hkey => ?_)
      refine hmn ?_
      split at hkey <;> split at hkey <;> exact hkey }

/-- A row that is already read, or is not meant, stays as it is. -/
theorem mem_acknowledge_of_not {n : Notification} (hn : n ∈ rows) (hwhich : which n = false) :
    n ∈ acknowledge rows which readAt :=
  List.mem_map.mpr ⟨n, hn, if_neg (by simp [hwhich])⟩

end Rows

section Calls
variable {s : Store}

/-- The calls on notifications. `create_notification` leaves the commit to its caller. -/
inductive NotificationCall where
  | create (amb : Ambient) (userId : UUID) (bookingId : Option UUID) (type : NotificationType)
      (title message : String)
  | markAsRead (amb : Ambient) (notificationId userId : UUID)
  | markAllAsRead (amb : Ambient) (userId : UUID)

def NotificationCall.program : NotificationCall → Service Unit
  | .create amb userId bookingId type title message => do
    let _ ← createNotification amb userId bookingId type title message
    Program.commitAll (D := platform) []
  | .markAsRead amb notificationId userId =>
    (fun _ => ()) <$> BookingPlatform.markNotificationAsRead amb notificationId userId
  | .markAllAsRead amb userId => (fun _ => ()) <$> BookingPlatform.markAllAsRead amb userId

def runCalls (s : Store) (calls : List NotificationCall) : Store :=
  calls.foldl (fun s call => leaves s call.program) s

/-- What a call can do to the notifications. -/
inductive CallEffect (s : Store) : NotificationCall → List Notification → Prop
  | nothing (call : NotificationCall) : CallEffect s call s.notifications
  | created (amb : Ambient) (userId : UUID) (bookingId : Option UUID) (type : NotificationType)
      (title message : String) :
      CallEffect s (.create amb userId bookingId type title message)
        (Tables.addNotification s.notifications
          (amb.notification userId bookingId type title message))
  | marked (amb : Ambient) {n : Notification} (hn : n ∈ s.notifications)
      (hunread : n.isRead = false) :
      CallEffect s (.markAsRead amb n.id n.userId)
        (acknowledge s.notifications (fun m => m.id = n.id) amb.now)
  | markedAll (amb : Ambient) (userId : UUID) :
      CallEffect s (.markAllAsRead amb userId)
        (acknowledge s.notifications (Tables.unreadOf userId) amb.now)

theorem exec_markAllAsRead (s : Store) (amb : Ambient) (userId : UUID) :
    ∃ t : Store, t.toTables = { s.toTables with
        notifications := acknowledge s.notifications (Tables.unreadOf userId) amb.now } ∧
      (markAllAsRead amb userId).exec (.fresh s) =
        (.ok (s.notifications.countP (Tables.unreadOf userId)), .fresh t) := by
  obtain ⟨t, ht, hrows⟩ := Store.apply_exists (w := .readAllNotifications userId amb.now) rfl
    (constraints_acknowledge s.sound (Tables.unreadOf userId) amb.now)
  refine ⟨t, hrows, (exec_bind_ok (exec_send_ok ht)).trans ?_⟩
  exact (exec_bind_ok (exec_commitOrRollback [])).trans rfl

theorem exec_getNotification (id : UUID) {σ : Session platform} :
    (getNotification id).exec σ = (.ok (σ.working.notification? id), σ) := rfl

/-- The user of an unread notification can mark it. -/
theorem exec_markNotificationAsRead (amb : Ambient) {n : Notification}
    (hn : n ∈ s.notifications) (hunread : n.isRead = false) :
    ∃ t : Store, t.toTables = { s.toTables with
        notifications := acknowledge s.notifications (fun m => m.id = n.id) amb.now } ∧
      (markNotificationAsRead amb n.id n.userId).exec (.fresh s) =
        (.ok { n with isRead := true, readAt := some amb.now }, .fresh t) := by
  have hrow : s.notification? n.id = some n := s.notification?_eq_some.mpr ⟨hn, rfl⟩
  have hafter : s.after (.readNotification n.id amb.now) = { s.toTables with
      notifications := acknowledge s.notifications (fun m => m.id = n.id) amb.now } := by
    simp only [Tables.after, acknowledge, decide_eq_true_eq]
  obtain ⟨t, ht, hrows⟩ := Store.apply_exists (w := .readNotification n.id amb.now) (s := s)
    (by simp [Tables.stale, hrow])
    (by rw [hafter]; exact constraints_acknowledge s.sound _ amb.now)
  rw [hafter] at hrows
  have hfound : (getNotification n.id).exec (.fresh s) = (.ok (some n), .fresh s) := by
    rw [exec_getNotification, Session.fresh_working, hrow]
  have hread : t.notification? n.id = some { n with isRead := true, readAt := some amb.now } := by
    refine t.notification?_eq_some.mpr ⟨?_, rfl⟩
    rw [hrows]
    exact List.mem_map.mpr ⟨n, hn, if_pos (decide_eq_true rfl)⟩
  have hall : platform.applyAll [.readNotification n.id amb.now] s = .ok t := applyAll_cons_ok ht
  have hcommit : (commitAndRefresh [.readNotification n.id amb.now] (getNotification n.id)).exec
      (.fresh s) = _ := exec_commitAndRefresh fun t' ht' => by
    obtain rfl := Except.ok.inj (hall.symm.trans ht')
    rw [exec_getNotification, Session.fresh_working, hread]
  rw [Session.fresh_working, hall] at hcommit
  refine ⟨t, hrows, ?_⟩
  refine (exec_bind_ok (exec_getOr404_some hfound)).trans ?_
  refine (exec_pass (not_not.mpr rfl)).trans ?_
  rw [hunread]
  exact hcommit

/-- A mark that is refused, or that finds the notification read, does nothing. -/
theorem exec_markNotificationAsRead_idle (amb : Ambient) {notificationId userId : UUID}
    (h : ∀ n ∈ s.notifications, n.id = notificationId → n.userId = userId → n.isRead = true) :
    leaves s (markNotificationAsRead amb notificationId userId) = s := by
  cases hrow : s.notification? notificationId with
  | none =>
    have hnone : (getNotification notificationId).exec (.fresh s) = (.ok none, .fresh s) := by
      rw [exec_getNotification, Session.fresh_working, hrow]
    exact leaves_of_exec (exec_bind_error (exec_getOr404_none hnone))
  | some n =>
    obtain ⟨hn, hid⟩ := s.notification?_eq_some.mp hrow
    have hfound : (getNotification notificationId).exec (.fresh s) = (.ok (some n), .fresh s) := by
      rw [exec_getNotification, Session.fresh_working, hrow]
    have hexec : (markNotificationAsRead amb notificationId userId).exec (.fresh s) = _ :=
      exec_bind_ok (exec_getOr404_some hfound)
    by_cases huser : n.userId = userId
    · refine leaves_of_exec (σ := .fresh s) (r := .ok n)
        (hexec.trans ((exec_pass (not_not.mpr huser)).trans ?_))
      rw [h n hn hid huser]
      rfl
    · exact leaves_of_exec (hexec.trans (exec_refuse huser))

theorem call_effect (s : Store) (call : NotificationCall) :
    CallEffect s call (leaves s call.program).notifications := by
  cases call with
  | create amb userId bookingId type title message =>
    cases happ : s.apply (.insertNotification
        (amb.notification userId bookingId type title message)) with
    | error e =>
      have hexec : (NotificationCall.create amb userId bookingId type title message).program.exec
          (.fresh s) = _ := exec_bind_error (exec_send_error happ)
      rw [leaves_of_exec hexec]
      exact .nothing _
    | ok applied =>
      obtain ⟨r, t⟩ := applied
      have hexec : (NotificationCall.create amb userId bookingId type title message).program.exec
          (.fresh s) = _ := exec_bind_ok (exec_send_ok happ)
      have hleft : leaves s (NotificationCall.create amb userId bookingId type title
          message).program = t := leaves_of_exec (hexec.trans (exec_commitAll []))
      rw [hleft, (Store.apply_ok happ).1]
      exact .created amb userId bookingId type title message
  | markAsRead amb notificationId userId =>
    change CallEffect s _ (leaves s ((fun _ => ()) <$> _)).notifications
    rw [leaves_map]
    by_cases h : ∃ n ∈ s.notifications, n.id = notificationId ∧ n.userId = userId ∧
        n.isRead = false
    · obtain ⟨n, hn, rfl, rfl, hunread⟩ := h
      obtain ⟨t, ht, hexec⟩ := exec_markNotificationAsRead amb hn hunread
      rw [leaves_of_exec hexec, Session.fresh_committed, ht]
      exact .marked amb hn hunread
    · rw [exec_markNotificationAsRead_idle amb fun n hn hid huser => by
        by_contra hunread
        exact h ⟨n, hn, hid, huser, Bool.eq_false_iff.mpr hunread⟩]
      exact .nothing _
  | markAllAsRead amb userId =>
    change CallEffect s _ (leaves s ((fun _ => ()) <$> _)).notifications
    rw [leaves_map]
    obtain ⟨t, ht, hexec⟩ := exec_markAllAsRead s amb userId
    rw [leaves_of_exec hexec, Session.fresh_committed, ht]
    exact .markedAll amb userId

end Calls

section Runs
variable {s : Store} {call : NotificationCall} {rows : List Notification}

/-- Read, and since when: both or neither. -/
def Notification.Consistent (n : Notification) : Prop := n.isRead = true ↔ n.readAt.isSome = true

instance (n : Notification) : Decidable n.Consistent := inferInstanceAs (Decidable (_ ↔ _))

theorem CallEffect.consistent (h : CallEffect s call rows)
    (hs : ∀ n ∈ s.notifications, n.Consistent) : ∀ n ∈ rows, n.Consistent := by
  have hread : ∀ which readAt, ∀ n ∈ acknowledge s.notifications which readAt, n.Consistent := by
    intro which readAt n hn
    obtain ⟨m, hm, rfl⟩ := List.mem_map.mp hn
    split
    · exact ⟨fun _ => rfl, fun _ => rfl⟩
    · exact hs m hm
  cases h with
  | nothing => exact hs
  | created amb userId bookingId type title message =>
    intro n hn
    rcases mem_addNotification.mp hn with hn | ⟨rfl, _⟩
    · exact hs n hn
    · exact ⟨fun h => (by cases h), fun h => (by cases h)⟩
  | marked amb hn hunread => exact hread _ _
  | markedAll amb userId => exact hread _ _

/-- Neither way of marking touches what is already read. -/
theorem CallEffect.keeps_read (h : CallEffect s call rows) {n : Notification}
    (hn : n ∈ s.notifications) (hread : n.isRead = true) : n ∈ rows := by
  cases h with
  | nothing => exact hn
  | created => exact mem_addNotification.mpr (.inl hn)
  | @marked amb m hm hunread =>
    refine mem_acknowledge_of_not hn (decide_eq_false fun hid => ?_)
    obtain rfl := List.inj_on_of_nodup_map s.sound.notificationsKey hn hm hid
    rw [hread] at hunread
    cases hunread
  | markedAll amb userId =>
    refine mem_acknowledge_of_not hn ?_
    unfold Tables.unreadOf
    rw [hread, Bool.not_true, Bool.and_false]

theorem consistent_run (hs : ∀ n ∈ s.notifications, n.Consistent)
    (calls : List NotificationCall) : ∀ n ∈ (runCalls s calls).notifications, n.Consistent := by
  induction calls generalizing s with
  | nil => exact hs
  | cons call calls ih => exact ih ((call_effect s call).consistent hs)

theorem read_stays {n : Notification} (hn : n ∈ s.notifications) (hread : n.isRead = true)
    (calls : List NotificationCall) : n ∈ (runCalls s calls).notifications := by
  induction calls generalizing s with
  | nil => exact hn
  | cons call calls ih => exact ih ((call_effect s call).keeps_read hn hread)

end Runs

section Agreement
variable {s t : Store} {userId : UUID}

/-- The notification with this identifier is read. -/
def Store.IsRead (s : Store) (id : UUID) : Prop :=
  ∃ n ∈ s.notifications, n.id = id ∧ n.isRead = true

/-- The notification with this identifier is the user's. -/
def Store.OwnedBy (s : Store) (userId id : UUID) : Prop :=
  ∃ n ∈ s.notifications, n.id = id ∧ n.userId = userId

theorem isRead_of_acknowledge {which : Notification → Bool} {readAt : Time}
    (ht : t.notifications = acknowledge s.notifications which readAt) {id : UUID} :
    t.IsRead id ↔ s.IsRead id ∨ ∃ n ∈ s.notifications, n.id = id ∧ which n = true := by
  unfold Store.IsRead
  rw [ht]
  constructor
  · intro ⟨n, hn, hid, hread⟩
    obtain ⟨m, hm, rfl⟩ := List.mem_map.mp hn
    split at hid
    · exact .inr ⟨m, hm, hid, ‹_›⟩
    · rw [if_neg ‹_›] at hread
      exact .inl ⟨m, hm, hid, hread⟩
  · rintro (⟨n, hn, hid, hread⟩ | ⟨n, hn, hid, hwhich⟩)
    · refine ⟨_, List.mem_map_of_mem hn, ?_⟩
      split
      · exact ⟨hid, rfl⟩
      · exact ⟨hid, hread⟩
    · refine ⟨_, List.mem_map_of_mem hn, ?_⟩
      rw [if_pos hwhich]
      exact ⟨hid, rfl⟩

theorem ownedBy_of_acknowledge {which : Notification → Bool} {readAt : Time}
    (ht : t.notifications = acknowledge s.notifications which readAt) {id : UUID}
    (h : s.OwnedBy userId id) : t.OwnedBy userId id := by
  obtain ⟨n, hn, hid, huser⟩ := h
  unfold Store.OwnedBy
  rw [ht]
  refine ⟨_, List.mem_map_of_mem hn, ?_⟩
  split <;> exact ⟨hid, huser⟩

/-- One mark by the user of the notification. -/
theorem marked_one (amb : Ambient) {id : UUID} (h : s.OwnedBy userId id) :
    (∀ x, (leaves s (markNotificationAsRead amb id userId)).IsRead x ↔ s.IsRead x ∨ x = id) ∧
      ∀ x, s.OwnedBy userId x →
        (leaves s (markNotificationAsRead amb id userId)).OwnedBy userId x := by
  obtain ⟨n, hn, rfl, rfl⟩ := h
  cases hread : n.isRead with
  | false =>
    obtain ⟨t, ht, hexec⟩ := exec_markNotificationAsRead amb hn hread
    rw [leaves_of_exec hexec]
    have hrows : t.notifications = acknowledge s.notifications (fun m => m.id = n.id) amb.now := by
      rw [ht]
    refine ⟨fun x => ?_, fun x hx => ownedBy_of_acknowledge hrows hx⟩
    rw [Session.fresh_committed, isRead_of_acknowledge hrows]
    refine or_congr_right ?_
    constructor
    · intro ⟨m, _, hx, hid⟩
      exact hx.symm.trans (of_decide_eq_true hid)
    · rintro rfl
      exact ⟨n, hn, rfl, decide_eq_true rfl⟩
  | true =>
    have hidle : leaves s (markNotificationAsRead amb n.id n.userId) = s :=
      exec_markNotificationAsRead_idle amb fun m hm hid _ => by
        rw [List.inj_on_of_nodup_map s.sound.notificationsKey hm hn hid]
        exact hread
    rw [hidle]
    refine ⟨fun x => ?_, fun _ hx => hx⟩
    constructor
    · exact .inl
    · rintro (hx | rfl)
      · exact hx
      · exact ⟨n, hn, rfl, hread⟩

/-- The user's marks, one call after the other, each at its own time. -/
def markEach (s : Store) (userId : UUID) (marks : List (Ambient × UUID)) : Store :=
  runCalls s (marks.map fun mark => .markAsRead mark.1 mark.2 userId)

theorem marked_each {marks : List (Ambient × UUID)}
    (h : ∀ id ∈ marks.map Prod.snd, s.OwnedBy userId id) (x : UUID) :
    (markEach s userId marks).IsRead x ↔ s.IsRead x ∨ x ∈ marks.map Prod.snd := by
  induction marks generalizing s with
  | nil => simp [markEach, runCalls]
  | cons mark marks ih =>
    obtain ⟨hread, howned⟩ := marked_one mark.1 (h mark.2 List.mem_cons_self)
    have hrest := ih (s := leaves s (markNotificationAsRead mark.1 mark.2 userId))
      fun id hid => howned id (h id (List.mem_cons_of_mem _ hid))
    have hstep : markEach s userId (mark :: marks) =
        markEach (leaves s (markNotificationAsRead mark.1 mark.2 userId)) userId marks := by
      change runCalls (leaves s ((fun _ => ()) <$> _)) _ = _
      rw [leaves_map]
      rfl
    rw [hstep, hrest, hread, or_assoc]
    exact or_congr_right List.mem_cons.symm

/-- Marking exactly the unread ones, in any order, reads what `mark_all_as_read` reads. -/
theorem each_reads_as_all (amb : Ambient) {marks : List (Ambient × UUID)}
    (h : ∀ id, id ∈ marks.map Prod.snd ↔
      ∃ n ∈ s.notifications, n.id = id ∧ Tables.unreadOf userId n = true) (x : UUID) :
    (markEach s userId marks).IsRead x ↔ (leaves s (markAllAsRead amb userId)).IsRead x := by
  obtain ⟨t, ht, hexec⟩ := exec_markAllAsRead s amb userId
  have hrows : t.notifications =
      acknowledge s.notifications (Tables.unreadOf userId) amb.now := by rw [ht]
  have howned : ∀ id ∈ marks.map Prod.snd, s.OwnedBy userId id := by
    intro id hid
    obtain ⟨n, hn, hnid, hunread⟩ := (h id).mp hid
    refine ⟨n, hn, hnid, ?_⟩
    unfold Tables.unreadOf at hunread
    rw [Bool.and_eq_true] at hunread
    exact of_decide_eq_true hunread.1
  rw [marked_each howned, leaves_of_exec hexec, Session.fresh_committed,
    isRead_of_acknowledge hrows, h x]

/-- What `mark_all_as_read` returns and leaves. -/
structure MarksAll (s : Store) (amb : Ambient) (userId : UUID) (t : Store) : Prop where
  count : outcome s (markAllAsRead amb userId) =
    .ok (s.notifications.countP fun n => n.userId = userId && !n.isRead)
  left : leaves s (markAllAsRead amb userId) = t
  noneUnread : ∀ skip limit, outcome t (listNotifications userId skip limit true) = .ok []
  others : ∀ n : Notification, n.userId ≠ userId → (n ∈ t.notifications ↔ n ∈ s.notifications)

theorem marksAll (s : Store) (amb : Ambient) (userId : UUID) :
    MarksAll s amb userId (leaves s (markAllAsRead amb userId)) := by
  obtain ⟨t, ht, hexec⟩ := exec_markAllAsRead s amb userId
  have hleft : leaves s (markAllAsRead amb userId) = t := leaves_of_exec hexec
  have hrows : t.notifications =
      acknowledge s.notifications (Tables.unreadOf userId) amb.now := by rw [ht]
  rw [hleft]
  refine ⟨outcome_of_exec hexec, hleft, fun skip limit => ?_, fun n hn => ?_⟩
  · have hnone : t.notifications.filter
        (fun n => n.userId = userId && (!true || !n.isRead)) = [] := by
      rw [List.filter_eq_nil_iff, hrows]
      intro n hn hunread
      obtain ⟨m, hm, rfl⟩ := List.mem_map.mp hn
      split at hunread
      · simp at hunread
      · rename_i hread
        exact hread (by simpa [Tables.unreadOf] using hunread)
    refine (outcome_of_exec (exec_select _ _)).trans (congrArg Except.ok ?_)
    change ((((t.notifications.filter _).insertionSort _).drop skip).take limit) = []
    rw [hnone]
    simp
  · rw [hrows]
    have hnot : ∀ m : Notification, m.userId ≠ userId → Tables.unreadOf userId m = false := by
      intro m hm
      simp [Tables.unreadOf, hm]
    constructor
    · intro hmem
      obtain ⟨m, hm, rfl⟩ := List.mem_map.mp hmem
      have huser : m.userId ≠ userId := by
        split at hn <;> exact hn
      rw [if_neg (by simp [hnot m huser])]
      exact hm
    · intro hmem
      exact mem_acknowledge_of_not hmem (hnot n hn)

end Agreement

/-- Over any run of calls the flag is set exactly with its time, what is read stays read
since then, `mark_all_as_read` counts and marks exactly the user's unread ones, and so does
marking them one by one. -/
theorem read_state_of_runs (s₀ : Store) (h₀ : ∀ n ∈ s₀.notifications, n.Consistent)
    (calls : List NotificationCall) :
    ∃ s, s = runCalls s₀ calls ∧
      (∀ n ∈ s.notifications, n.isRead = true ↔ n.readAt.isSome = true) ∧
      (∀ n ∈ s.notifications, n.isRead = true → ∀ more,
        n ∈ (runCalls s more).notifications ∧
          ∀ m ∈ (runCalls s more).notifications, m.id = n.id → m = n) ∧
      (∀ amb userId, MarksAll s amb userId (leaves s (markAllAsRead amb userId))) ∧
      ∀ amb userId marks, (∀ id, id ∈ marks.map Prod.snd ↔
          ∃ n ∈ s.notifications, n.id = id ∧ n.userId = userId ∧ n.isRead = false) →
        ∀ id, (markEach s userId marks).IsRead id ↔
          (leaves s (markAllAsRead amb userId)).IsRead id := by
  refine ⟨_, rfl, consistent_run h₀ calls, fun n hn hread more => ?_, fun amb userId => ?_,
    fun amb userId marks hmarks id => each_reads_as_all amb (fun id => ?_) id⟩
  · have hstays := read_stays hn hread more
    refine ⟨hstays, fun m hm hid => ?_⟩
    exact List.inj_on_of_nodup_map (Store.sound _).notificationsKey hm hstays hid
  · exact marksAll _ amb userId
  · rw [hmarks id]
    simp [Tables.unreadOf]

/-- Two messages for Alice. -/
def twoMessages : List NotificationCall :=
  [.create (sampleAmbient 0 0) alice.id none .bookingReminder "Reminder" "Tomorrow at ten.",
    .create (sampleAmbient 1 0) alice.id none .bookingOverdue "Overdue" "Since yesterday."]

/-- Alice reads them in the order in which they came, or all at once. -/
theorem read_state_of_runs_alice :
    let reads := markEach (runCalls newPlatform twoMessages) alice.id
      [(sampleAmbient 2 0, 13), (sampleAmbient 3 0, 15)]
    let readsAll := leaves (runCalls newPlatform twoMessages)
      (markAllAsRead (sampleAmbient 4 0) alice.id)
    (reads.IsRead 13 ↔ readsAll.IsRead 13) ∧ (reads.IsRead 15 ↔ readsAll.IsRead 15) := by
  obtain ⟨s, rfl, _, _, _, hmarks⟩ :=
    read_state_of_runs newPlatform (fun n hn => by cases hn) twoMessages
  have hrows : (runCalls newPlatform twoMessages).notifications.map
      (fun n => (n.id, n.userId, n.isRead)) = [(13, alice.id, false), (15, alice.id, false)] := by
    decide +kernel
  have hunread : ∀ id, id ∈ [(sampleAmbient 2 0, 13), (sampleAmbient 3 0, 15)].map Prod.snd ↔
      ∃ n ∈ (runCalls newPlatform twoMessages).notifications,
        n.id = id ∧ n.userId = alice.id ∧ n.isRead = false := by
    intro id
    have hmem : (∃ n ∈ (runCalls newPlatform twoMessages).notifications,
        n.id = id ∧ n.userId = alice.id ∧ n.isRead = false) ↔
          (id, alice.id, false) ∈ (runCalls newPlatform twoMessages).notifications.map
            (fun n => (n.id, n.userId, n.isRead)) := by
      simp only [List.mem_map, Prod.mk.injEq]
    rw [hmem, hrows]
    simp
  have hsame := hmarks (sampleAmbient 4 0) alice.id _ hunread
  exact ⟨hsame 13, hsame 15⟩

end BookingPlatform
