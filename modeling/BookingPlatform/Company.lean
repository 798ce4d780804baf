import BookingPlatform.Integrity
import BookingPlatform.Sessions
import BookingPlatform.Transact.Failures

/-!
# What a request can rely on among others

Nobody removes a user, a booking or a notification, nobody draws an identifier that another
has drawn, and a booking moves only for those who ask for it. Each client knows this of the
rows it was told of, through its own statements and the commits of the others.
-/

namespace BookingPlatform

set_option autoImplicit false

open Transact

section Draws
variable {ι : Type} (events : ι → Event) (s₀ : Store)

def Event.ambient : Event → Ambient
  | .request amb _ _ => amb
  | .register amb _ => amb
  | .reminderJob amb _ => amb
  | .overdueJob amb => amb

def NamesUser (id : UUID) : Prop :=
  (∃ u ∈ s₀.users, u.id = id) ∨ ∃ i, (events i).ambient.uuid4 = id

def NamesBooking (id : UUID) : Prop :=
  (∃ b ∈ s₀.bookings, b.id = id) ∨ ∃ i, (events i).ambient.uuid4 = id

/-- Somebody who may be told of something, and what. -/
structure Concerns (userId : UUID) (bookingId : Option UUID) : Prop where
  user : NamesUser events s₀ userId
  booking : ∀ id ∈ bookingId, NamesBooking events s₀ id

/-- What uuid4 draws is new, and never drawn twice. -/
structure DrawnAfresh : Prop where
  bookings : ∀ i, ∀ b ∈ s₀.bookings, b.id ≠ (events i).ambient.uuid4
  reviews : ∀ i, ∀ r ∈ s₀.reviews, r.id ≠ (events i).ambient.uuid4
  apart : ∀ i j, (events i).ambient.uuid4 = (events j).ambient.uuid4 → i = j
  notifications : ∀ i, ∀ n ∈ s₀.notifications, ∀ u b type, Concerns events s₀ u b →
    n.id ≠ (events i).ambient.notificationId u b type
  notificationsApart : ∀ i j u v b c type type', Concerns events s₀ u b → Concerns events s₀ v c →
    (events i).ambient.notificationId u b type = (events j).ambient.notificationId v c type' →
      i = j ∧ u = v ∧ b = c ∧ type = type'

/-- The identifier of a new row is the one its event has drawn for it. -/
def Write.DrawnBy (amb : Ambient) : Write → Prop
  | .insertUser u => u.id = amb.uuid4
  | .insertBooking b => b.id = amb.uuid4
  | .insertReview r => r.id = amb.uuid4
  | .insertNotification n => n.id = amb.notificationId n.userId n.bookingId n.type
  | .updateBooking .. => True
  | .updateReview .. => True
  | .deleteReview _ => True
  | .readNotification .. => True
  | .readAllNotifications .. => True

def BookingUpdate.Moves (u : BookingUpdate) : Prop := u.startTime ≠ none ∨ u.endTime ≠ none

/-- A PATCH of the booking that gives a start or an end. -/
def Event.Moves (e : Event) (bookingId : UUID) : Prop :=
  ∃ amb caller u, e = .request amb caller (.updateBooking bookingId u) ∧ u.Moves

end Draws

section Commits
variable {K : Knowledge} {W : List Write} {amb : Ambient} {actor : User}

theorem drawn_transition {b : Booking} {status : BookingStatus} {notes : List Notification}
    (h : StatusChange amb actor b status notes) {n : Notification} (hn : n ∈ notes) :
    (Write.insertNotification n).DrawnBy amb := by
  rcases h with ⟨_, rfl⟩ | ⟨_, _, rfl⟩
  · cases hn
  · unfold transitionNotes at hn
    cases status with
    | pending => cases hn
    | confirmed =>
      obtain rfl := List.mem_singleton.mp hn
      rfl
    | completed =>
      obtain rfl := List.mem_singleton.mp hn
      rfl
    | cancelled =>
      rcases mem_cancellationNotes hn with rfl | rfl
      · rfl
      · rfl

theorem Edited.drawn {bookingId : UUID} {b b' : Booking} {notes : List Notification}
    (h : Edited amb bookingId actor b b' notes K W) {w : Write} (hw : w ∈ W) : w.DrawnBy amb := by
  rw [h.writes] at hw
  rcases List.mem_append.mp hw with hw | hw
  · obtain ⟨n, hn, rfl⟩ := List.mem_map.mp hw
    exact drawn_transition h.status hn
  · obtain rfl := List.mem_singleton.mp hw
    trivial

theorem drawn_notes {notice : Notice} {b : Booking} {n : Notification}
    (hn : n ∈ notice.notes amb b) : (Write.insertNotification n).DrawnBy amb := by
  rcases List.mem_cons.mp hn with rfl | hn
  · rfl
  · obtain rfl := List.mem_singleton.mp hn
    rfl

theorem Notified.drawn {notice : Notice} {due : Booking → Bool} {rows : List Booking}
    (h : Notified amb notice due rows K W) {w : Write} (hw : w ∈ W) : w.DrawnBy amb := by
  rw [h.writes] at hw
  obtain ⟨n, hn, rfl⟩ := List.mem_map.mp hw
  obtain ⟨b, _, hn⟩ := List.mem_flatMap.mp hn
  exact drawn_notes hn

theorem Event.Commits.drawn {e : Event} (h : e.Commits K W) {w : Write} (hw : w ∈ W) :
    w.DrawnBy e.ambient := by
  cases e with
  | request amb caller req =>
    obtain ⟨actor, _, rfl, h⟩ := h
    cases req with
    | createBooking bookingIn =>
      have h : Booked amb actor.id bookingIn K W := h
      rw [h.writes] at hw
      rcases List.mem_cons.mp hw with rfl | hw
      · rfl
      · obtain rfl := List.mem_singleton.mp hw
        rfl
    | updateBooking bookingId bookingUpdate =>
      obtain ⟨b, notes, h⟩ := h
      exact h.drawn hw
    | cancelBooking bookingId =>
      obtain ⟨b, notes, h⟩ := h
      exact h.drawn hw
    | deleteBooking bookingId =>
      obtain ⟨b, notes, _, _, h⟩ := h
      exact h.drawn hw
    | createReview reviewIn =>
      obtain ⟨b, h⟩ := h
      obtain rfl := List.mem_singleton.mp (h.writes ▸ hw)
      rfl
    | updateReview reviewId reviewUpdate =>
      obtain ⟨r, h⟩ := h
      obtain rfl := List.mem_singleton.mp (h.writes ▸ hw)
      trivial
    | deleteReview reviewId =>
      obtain ⟨r, h⟩ := h
      obtain rfl := List.mem_singleton.mp (h.writes ▸ hw)
      trivial
    | markNotificationRead notificationId =>
      obtain ⟨n, h⟩ := h
      obtain rfl := List.mem_singleton.mp (h.writes ▸ hw)
      trivial
    | markAllNotificationsRead =>
      have h : W = [.readAllNotifications actor.id amb.now] := h
      obtain rfl := List.mem_singleton.mp (h ▸ hw)
      trivial
    | _ => exact h.elim
  | register amb userIn =>
    obtain ⟨hashedPw, h⟩ := h
    obtain rfl := List.mem_singleton.mp (h.writes ▸ hw)
    rfl
  | reminderJob amb windowMinutes =>
    obtain ⟨rows, h⟩ := h
    exact h.drawn hw
  | overdueJob amb =>
    obtain ⟨rows, h⟩ := h
    exact h.drawn hw

/-- The columns a commit writes to a booking leave its times alone, or were asked to move it. -/
def TimesKept (c : BookingChanges) : Prop := c.startTime = none ∧ c.endTime = none

theorem changed_self {α : Type} [DecidableEq α] (a : α) : changed a a = none := if_pos rfl

theorem timesKept_cancelled (b : Booking) : TimesKept (b.changes b.cancelled) :=
  ⟨changed_self _, changed_self _⟩

theorem timesKept_applied {u : BookingUpdate} (b : Booking) (hu : ¬ u.Moves) :
    TimesKept (b.changes (u.applied b)) := by
  obtain ⟨hstart, hend⟩ := not_or.mp hu
  have hstart : u.startTime = none := not_not.mp hstart
  have hend : u.endTime = none := not_not.mp hend
  unfold BookingUpdate.applied Booking.changes TimesKept
  dsimp only
  rw [hstart, hend]
  exact ⟨changed_self _, changed_self _⟩

theorem Edited.changes_of_mem {bookingId : UUID} {b b' : Booking} {notes : List Notification}
    (h : Edited amb bookingId actor b b' notes K W) {id : UUID} {c : BookingChanges}
    (hw : .updateBooking id c ∈ W) : id = bookingId ∧ c = b.changes b' := by
  rw [h.writes] at hw
  rcases List.mem_append.mp hw with hw | hw
  · obtain ⟨n, _, hn⟩ := List.mem_map.mp hw
    cases hn
  · cases List.mem_singleton.mp hw
    exact ⟨rfl, rfl⟩

theorem Event.Commits.moves {e : Event} (h : e.Commits K W) {id : UUID} {c : BookingChanges}
    (hw : .updateBooking id c ∈ W) : TimesKept c ∨ e.Moves id := by
  have hsends := h.sends hw
  cases e with
  | request amb caller req =>
    obtain ⟨actor, _, rfl, h⟩ := h
    cases req with
    | updateBooking bookingId bookingUpdate =>
      obtain ⟨b, notes, h⟩ := h
      obtain ⟨rfl, rfl⟩ := h.changes_of_mem hw
      by_cases hmoves : bookingUpdate.Moves
      · exact .inr ⟨amb, actor.id, bookingUpdate, rfl, hmoves⟩
      · exact .inl (timesKept_applied b hmoves)
    | cancelBooking bookingId =>
      obtain ⟨b, notes, h⟩ := h
      obtain ⟨_, rfl⟩ := h.changes_of_mem hw
      exact .inl (timesKept_cancelled b)
    | deleteBooking bookingId =>
      obtain ⟨b, notes, _, _, h⟩ := h
      obtain ⟨_, rfl⟩ := h.changes_of_mem hw
      exact .inl (timesKept_cancelled b)
    | createBooking bookingIn =>
      have h : Booked amb actor.id bookingIn K W := h
      rw [h.writes] at hw
      simp at hw
    | createReview reviewIn =>
      obtain ⟨b, h⟩ := h
      cases List.mem_singleton.mp (h.writes ▸ hw)
    | updateReview reviewId reviewUpdate =>
      obtain ⟨r, h⟩ := h
      cases List.mem_singleton.mp (h.writes ▸ hw)
    | deleteReview reviewId =>
      obtain ⟨r, h⟩ := h
      cases List.mem_singleton.mp (h.writes ▸ hw)
    | markNotificationRead notificationId =>
      obtain ⟨n, h⟩ := h
      cases List.mem_singleton.mp (h.writes ▸ hw)
    | markAllNotificationsRead =>
      have h : W = [.readAllNotifications actor.id amb.now] := h
      cases List.mem_singleton.mp (h ▸ hw)
    | _ => exact h.elim
  | register amb userIn => cases hsends
  | reminderJob amb windowMinutes => cases hsends
  | overdueJob amb => cases hsends

end Commits

section Rows
variable {t : Tables} {W : List Write}

/-- Where the rows of a table come from: they were there, or a statement brought them. -/
theorem from_afterAll {α : Type} (rows : Tables → List α) (Rel : α → α → Prop)
    (New : Write → α → Prop) (hrefl : ∀ a, Rel a a)
    (htrans : ∀ {a b c}, Rel a b → Rel b c → Rel a c)
    (hstep : ∀ {t w b}, b ∈ rows (t.after w) → (∃ a ∈ rows t, Rel a b) ∨ New w b) {b : α}
    (hb : b ∈ rows (t.afterAll W)) :
    (∃ a ∈ rows t, Rel a b) ∨ ∃ w ∈ W, ∃ a, New w a ∧ Rel a b := by
  induction W generalizing t with
  | nil => exact .inl ⟨b, hb, hrefl b⟩
  | cons w ws ih =>
    rcases ih hb with ⟨a, ha, hab⟩ | ⟨w', hw', hnew⟩
    · rcases hstep ha with ⟨a', ha', haa⟩ | hnew
      · exact .inl ⟨a', ha', htrans haa hab⟩
      · exact .inr ⟨w, List.mem_cons_self, a, hnew, hab⟩
    · exact .inr ⟨w', List.mem_cons_of_mem w hw', hnew⟩

theorem user_from {u : User} (h : u ∈ (t.afterAll W).users) :
    u ∈ t.users ∨ .insertUser u ∈ W := by
  have hrow := from_afterAll Tables.users Eq (fun w u => w = .insertUser u) Eq.refl Eq.trans
    (fun hu => (users_after hu).imp_left fun hu => ⟨_, hu, rfl⟩) h
  rcases hrow with ⟨v, hv, rfl⟩ | ⟨w, hw, v, rfl, rfl⟩
  · exact .inl hv
  · exact .inr hw

theorem booking_from {b : Booking} (h : b ∈ (t.afterAll W).bookings) :
    (∃ a ∈ t.bookings, a.id = b.id) ∨ ∃ a, .insertBooking a ∈ W ∧ a.id = b.id := by
  have hrow := from_afterAll Tables.bookings (fun a b => a.id = b.id)
    (fun w b => w = .insertBooking b) (fun _ => rfl) Eq.trans
    (fun hb => (bookings_after hb).imp_left fun ⟨a, ha, hsame⟩ => ⟨a, ha, hsame.1.symm⟩) h
  rcases hrow with hold | ⟨w, hw, a, rfl, hid⟩
  · exact .inl hold
  · exact .inr ⟨a, hw, hid⟩

theorem review_from {r : Review} (h : r ∈ (t.afterAll W).reviews) :
    (∃ a ∈ t.reviews, a.id = r.id) ∨ ∃ a, .insertReview a ∈ W ∧ a.id = r.id := by
  have hrow := from_afterAll Tables.reviews (fun a b => a.id = b.id)
    (fun w r => w = .insertReview r) (fun _ => rfl) Eq.trans
    (fun hr => (reviews_after hr).imp_left fun ⟨a, ha, hsame⟩ => ⟨a, ha, by rw [hsame]⟩) h
  rcases hrow with hold | ⟨w, hw, a, rfl, hid⟩
  · exact .inl hold
  · exact .inr ⟨a, hw, hid⟩

/-- Rows of one identifier and one key. -/
def Notification.Alike (m n : Notification) : Prop :=
  m.id = n.id ∧ m.userId = n.userId ∧ m.bookingId = n.bookingId ∧ m.type = n.type

theorem Notification.Alike.trans {l m n : Notification} (hlm : l.Alike m) (hmn : m.Alike n) :
    l.Alike n :=
  ⟨hlm.1.trans hmn.1, hlm.2.1.trans hmn.2.1, hlm.2.2.1.trans hmn.2.2.1,
    hlm.2.2.2.trans hmn.2.2.2⟩

theorem notification_from {n : Notification} (h : n ∈ (t.afterAll W).notifications) :
    (∃ a ∈ t.notifications, a.Alike n) ∨ ∃ a, .insertNotification a ∈ W ∧ a.Alike n := by
  have hstep : ∀ {t w n}, n ∈ (Tables.after t w).notifications →
      (∃ a ∈ t.notifications, a.Alike n) ∨ w = .insertNotification n := by
    intro t w n hn
    refine (notifications_after hn).imp_left fun ⟨a, ha, hread⟩ => ⟨a, ha, ?_⟩
    rcases hread with rfl | ⟨readAt, rfl⟩
    · exact ⟨rfl, rfl, rfl, rfl⟩
    · exact ⟨rfl, rfl, rfl, rfl⟩
  have hrow := from_afterAll Tables.notifications Notification.Alike
    (fun w n => w = .insertNotification n) (fun _ => ⟨rfl, rfl, rfl, rfl⟩)
    Notification.Alike.trans hstep h
  rcases hrow with hold | ⟨w, hw, a, rfl, halike⟩
  · exact .inl hold
  · exact .inr ⟨a, hw, halike⟩

/-- A row that was inserted is there when the transaction has gone through. -/
theorem user_made {u : User} (h : u ∈ t.users ∨ .insertUser u ∈ W) :
    u ∈ (t.afterAll W).users := by
  induction W generalizing t with
  | nil => exact h.resolve_right List.not_mem_nil
  | cons w ws ih =>
    refine ih (t := t.after w) ?_
    rcases h with h | h
    · refine .inl ?_
      cases w with
      | insertUser v => exact List.mem_append_left _ h
      | _ => exact h
    · rcases List.mem_cons.mp h with rfl | h
      · exact .inl (List.mem_append_right _ List.mem_cons_self)
      · exact .inr h

theorem booking_made {id : UUID}
    (h : (∃ b ∈ t.bookings, b.id = id) ∨ ∃ b, .insertBooking b ∈ W ∧ b.id = id) :
    ∃ b ∈ (t.afterAll W).bookings, b.id = id := by
  induction W generalizing t with
  | nil => exact h.resolve_right fun ⟨_, hb, _⟩ => List.not_mem_nil hb
  | cons w ws ih =>
    refine ih (t := t.after w) ?_
    rcases h with ⟨b, hb, hid⟩ | ⟨b, hb, hid⟩
    · refine .inl ?_
      cases w with
      | insertBooking a => exact ⟨b, List.mem_append_left _ hb, hid⟩
      | updateBooking key c =>
        refine ⟨_, List.mem_map_of_mem hb, ?_⟩
        split
        · exact hid
        · exact hid
      | _ => exact ⟨b, hb, hid⟩
    · rcases List.mem_cons.mp hb with rfl | hb
      · exact .inl ⟨b, List.mem_append_right _ List.mem_cons_self, hid⟩
      · exact .inr ⟨b, hb, hid⟩

theorem review_made {id : UUID}
    (h : (∃ r ∈ t.reviews, r.id = id) ∨ ∃ r, .insertReview r ∈ W ∧ r.id = id) :
    (∃ r ∈ (t.afterAll W).reviews, r.id = id) ∨ .deleteReview id ∈ W := by
  induction W generalizing t with
  | nil => exact .inl (h.resolve_right fun ⟨_, hr, _⟩ => List.not_mem_nil hr)
  | cons w ws ih =>
    by_cases hdel : w = .deleteReview id
    · exact .inr (hdel ▸ List.mem_cons_self)
    refine (ih (t := t.after w) ?_).imp_right (List.mem_cons_of_mem w)
    rcases h with ⟨r, hr, hid⟩ | ⟨r, hr, hid⟩
    · refine .inl ?_
      cases w with
      | insertReview a => exact ⟨r, List.mem_append_left _ hr, hid⟩
      | updateReview key c =>
        refine ⟨_, List.mem_map_of_mem hr, ?_⟩
        split
        · exact hid
        · exact hid
      | deleteReview key =>
        refine ⟨r, List.mem_filter.mpr ⟨hr, decide_eq_true ?_⟩, hid⟩
        rintro rfl
        exact hdel (congrArg Write.deleteReview hid)
      | _ => exact ⟨r, hr, hid⟩
    · rcases List.mem_cons.mp hr with rfl | hr
      · exact .inl ⟨r, List.mem_append_right _ List.mem_cons_self, hid⟩
      · exact .inr ⟨r, hr, hid⟩

/-- A booking keeps its times through every transaction that does not write them. -/
theorem times_kept {id : UUID} {b : Booking} (hb : b ∈ t.bookings) (hid : b.id = id)
    (hW : ∀ c, .updateBooking id c ∈ W → TimesKept c) :
    ∃ now ∈ (t.afterAll W).bookings, now.id = id ∧ now.startTime = b.startTime ∧
      now.endTime = b.endTime := by
  induction W generalizing t b with
  | nil => exact ⟨b, hb, hid, rfl, rfl⟩
  | cons w ws ih =>
    have hws : ∀ c, .updateBooking id c ∈ ws → TimesKept c := fun c hc =>
      hW c (List.mem_cons_of_mem w hc)
    cases w with
    | insertBooking a => exact ih (List.mem_append_left [a] hb) hid hws
    | updateBooking key c =>
      have hmem : (if b.id = key then b.patch c else b) ∈
          (t.after (.updateBooking key c)).bookings := List.mem_map_of_mem hb
      by_cases hkey : b.id = key
      · rw [if_pos hkey] at hmem
        obtain ⟨hstart, hend⟩ : TimesKept c := hW c (hid ▸ hkey ▸ List.mem_cons_self)
        obtain ⟨now, hnow, hnowid, hs, he⟩ := ih hmem hid hws
        refine ⟨now, hnow, hnowid, hs.trans ?_, he.trans ?_⟩
        · unfold Booking.patch
          rw [hstart, Option.getD_none]
        · unfold Booking.patch
          rw [hend, Option.getD_none]
      · rw [if_neg hkey] at hmem
        exact ih hmem hid hws
    | _ => exact ih hb hid hws

end Rows

section Midst
variable {ι : Type} (events : ι → Event) (s₀ : Store) (text : Text)

/-- The booking is where it was, unless somebody else was asked to move it. -/
def Undisturbed (i : ι) (b now : Booking) : Prop :=
  now.id = b.id ∧ (now.startTime = b.startTime ∧ now.endTime = b.endTime ∨
    ∃ j, j ≠ i ∧ (events j).Moves b.id)

/-- Every review the client loaded is there, unless somebody was asked to delete it. -/
def StillReviewed (e : Entry platform) (s : Store) : Prop :=
  ∀ notes id r, e = ⟨inserts notes, .review id, some r⟩ →
    (∃ now ∈ s.reviews, now.id = id) ∨ Withdrawable events id

/-- What an insert has made is there. -/
def Made (s : Store) : Write → Prop
  | .insertUser u => u ∈ s.users
  | .insertBooking b => ∃ now ∈ s.bookings, now.id = b.id
  | .insertReview r => (∃ now ∈ s.reviews, now.id = r.id) ∨ Withdrawable events r.id
  | .insertNotification _ => True
  | .updateBooking .. => True
  | .updateReview .. => True
  | .deleteReview _ => True
  | .readNotification .. => True
  | .readAllNotifications .. => True

structure InMidst (i : ι) (c : Client platform) (s : Store) : Prop where
  facts : ∀ e ∈ c.log, Lasts e s
  times : c.committed = [] → ∀ e ∈ c.log, Remains (Undisturbed events i) e s
  reviewed : ∀ e ∈ c.log, StillReviewed events e s
  made : ∀ W ∈ c.committed, ∀ w ∈ W, Made events s w
  users : ∀ u ∈ s.users, NamesUser events s₀ u.id
  bookings : ∀ b ∈ s.bookings, NamesBooking events s₀ b.id
  newBooking : c.committed = [] → ∀ b ∈ s.bookings, b.id ≠ (events i).ambient.uuid4
  newReview : c.committed = [] → ∀ r ∈ s.reviews, r.id ≠ (events i).ambient.uuid4
  newNotification : c.committed = [] → ∀ n ∈ s.notifications, ∀ u b type,
    Concerns events s₀ u b → n.id ≠ (events i).ambient.notificationId u b type
  normal : text.Normalised s.users

variable {events s₀ text} {i j : ι} {c d : Client platform} {s t : Store} {W : List Write}

theorem Undisturbed.trans {a b now : Booking} (hab : Undisturbed events i a b)
    (hbn : Undisturbed events i b now) : Undisturbed events i a now := by
  obtain ⟨hid, habt⟩ := hab
  obtain ⟨hid', hbnt⟩ := hbn
  refine ⟨hid'.trans hid, ?_⟩
  rcases habt with ⟨hs, he⟩ | hmoved
  · rcases hbnt with ⟨hs', he'⟩ | hmoved
    · exact .inl ⟨hs'.trans hs, he'.trans he⟩
    · exact .inr (hid ▸ hmoved)
  · exact .inr hmoved

theorem InMidst.forget {q : Query} {a : q.Answer} (h : InMidst events s₀ text i (c.learn q a) s) :
    InMidst events s₀ text i c s :=
  { h with
    facts := fun e he => h.facts e (List.mem_cons_of_mem _ he)
    times := fun hc e he => h.times hc e (List.mem_cons_of_mem _ he)
    reviewed := fun e he => h.reviewed e (List.mem_cons_of_mem _ he) }

/-- Only what a client has been told and has committed matters. -/
theorem InMidst.congr (h : InMidst events s₀ text i d s) (hlog : d.log = c.log)
    (hcommitted : d.committed = c.committed) : InMidst events s₀ text i c s where
  facts := hlog ▸ h.facts
  times := fun hc => hlog ▸ h.times (hcommitted.trans hc)
  reviewed := hlog ▸ h.reviewed
  made := hcommitted ▸ h.made
  users := h.users
  bookings := h.bookings
  newBooking := fun hc => h.newBooking (hcommitted.trans hc)
  newReview := fun hc => h.newReview (hcommitted.trans hc)
  newNotification := fun hc => h.newNotification (hcommitted.trans hc)
  normal := h.normal

theorem stillReviewed_of_current {e : Entry platform} (h : e.Current s) :
    StillReviewed events e s := by
  rintro notes id r rfl
  have hrow : some r = s.review? id := answer_of_current (q := .review id) trivial h
  obtain ⟨hr, hid⟩ := s.review?_eq_some.mp hrow.symm
  exact .inl ⟨r, hr, hid⟩

theorem StillReviewed.trans {e : Entry platform} (h : StillReviewed events e s)
    (hst : Continues (Withdrawable events) s t) : StillReviewed events e t := by
  intro notes id r he
  rcases h notes id r he with ⟨now, hnow, hid⟩ | hgone
  · rcases hst.reviews now hnow with ⟨later, hlater, hsame⟩ | hgone
    · exact .inl ⟨later, hlater, by rw [hsame, hid]⟩
    · exact .inr (hid ▸ hgone)
  · exact .inr hgone

theorem Made.trans {w : Write} (h : Made events s w) (hst : Continues (Withdrawable events) s t) :
    Made events t w := by
  cases w with
  | insertUser u => exact hst.users u h
  | insertBooking b =>
    obtain ⟨now, hnow, hid⟩ := h
    obtain ⟨later, hlater, hsame⟩ := hst.bookings now hnow
    exact ⟨later, hlater, hsame.1.trans hid⟩
  | insertReview r =>
    rcases h with ⟨now, hnow, hid⟩ | hgone
    · rcases hst.reviews now hnow with ⟨later, hlater, hsame⟩ | hgone
      · exact .inl ⟨later, hlater, by rw [hsame, hid]⟩
      · exact .inr (hid ▸ hgone)
    · exact .inr hgone
  | _ => trivial

/-- A transaction that has just gone through has made what it inserts. -/
theorem made_of_applyAll (hW : (events i).Commits (Told c) W) (happ : platform.applyAll W s = .ok t)
    {w : Write} (hw : w ∈ W) : Made events t w := by
  have ht := tables_of_applyAll happ
  cases w with
  | insertUser u =>
    change u ∈ t.users
    rw [ht]
    exact user_made (.inr hw)
  | insertBooking b =>
    change ∃ now ∈ t.bookings, now.id = b.id
    rw [ht]
    exact booking_made (.inr ⟨b, hw, rfl⟩)
  | insertReview r =>
    change (∃ now ∈ t.reviews, now.id = r.id) ∨ _
    rw [ht]
    exact (review_made (.inr ⟨r, hw, rfl⟩)).imp_right hW.withdrawable
  | _ => trivial

/-- Whoever is there after a commit was there, or joined under an identifier that was drawn. -/
theorem named_commit (hW : (events j).Commits (Told d) W) (happ : platform.applyAll W s = .ok t)
    (husers : ∀ u ∈ s.users, NamesUser events s₀ u.id)
    (hbookings : ∀ b ∈ s.bookings, NamesBooking events s₀ b.id) :
    (∀ u ∈ t.users, NamesUser events s₀ u.id) ∧
      ∀ b ∈ t.bookings, NamesBooking events s₀ b.id := by
  rw [tables_of_applyAll happ]
  refine ⟨fun u hu => ?_, fun b hb => ?_⟩
  · rcases user_from hu with hu | hu
    · exact husers u hu
    · have hid : u.id = (events j).ambient.uuid4 := hW.drawn hu
      exact .inr ⟨j, hid.symm⟩
  · rcases booking_from hb with ⟨a, ha, hid⟩ | ⟨a, ha, hid⟩
    · exact hid ▸ hbookings a ha
    · have hdrawn : a.id = (events j).ambient.uuid4 := hW.drawn ha
      exact .inr ⟨j, hdrawn.symm.trans hid⟩

theorem normal_commit (hlaws : text.Lawful) (hevents : ∀ i, Admitted text (events i))
    (hW : (events j).Commits (Told d) W) (happ : platform.applyAll W s = .ok t)
    (hs : text.Normalised s.users) : text.Normalised t.users := by
  rw [tables_of_applyAll happ]
  exact normalised_afterAll hs fun u hu => (hevents j).sends hlaws (hW.sends hu)

/-- The commit of another client moves a booking only if it was asked to. -/
theorem undisturbed_commit (hij : i ≠ j) (hW : (events j).Commits (Told d) W)
    (happ : platform.applyAll W s = .ok t) (hst : Continues (Withdrawable events) s t)
    {now : Booking} (hnow : now ∈ s.bookings) :
    ∃ later ∈ t.bookings, later.id = now.id ∧ Undisturbed events i now later := by
  by_cases hmoves : (events j).Moves now.id
  · obtain ⟨later, hlater, hsame⟩ := hst.bookings now hnow
    exact ⟨later, hlater, hsame.1, hsame.1, .inr ⟨j, hij.symm, hmoves⟩⟩
  · rw [tables_of_applyAll happ]
    obtain ⟨later, hlater, hid, hs, he⟩ := times_kept hnow rfl fun c hc =>
      (hW.moves hc).resolve_right hmoves
    exact ⟨later, hlater, hid, hid, .inl ⟨hs, he⟩⟩

/-- Every notification, the new ones too, concerns a user and a booking that are there. -/
theorem concerns_row (husers : ∀ u ∈ t.users, NamesUser events s₀ u.id)
    (hbookings : ∀ b ∈ t.bookings, NamesBooking events s₀ b.id) {n : Notification}
    (hn : n ∈ t.notifications) : Concerns events s₀ n.userId n.bookingId where
  user := by
    obtain ⟨u, hu, hid⟩ := t.sound.notificationsUser n hn
    exact hid ▸ husers u hu
  booking := by
    intro id hid
    rcases t.sound.notificationsBooking n hn with hnone | ⟨b, hb, hb'⟩
    · rw [hnone] at hid
      cases hid
    · obtain rfl := Option.some.inj (hb'.symm.trans hid)
      exact hbookings b hb

theorem company_rules (hlaws : text.Lawful) (hevents : ∀ i, Admitted text (events i))
    (hdrawn : DrawnAfresh events s₀) :
    System.Company (commitsOf events) (InMidst events s₀ text) where
  learn := by
    intro i c s h q
    have hcurrent : Entry.Current (D := platform)
        ⟨c.pending, q, platform.answer q (platform.view c.pending s)⟩ s := rfl
    refine { h with
      facts := fun e he => ?_
      times := fun hc e he => ?_
      reviewed := fun e he => ?_ }
    · rcases List.mem_cons.mp he with rfl | he
      · exact lasts_of_current hcurrent
      · exact h.facts e he
    · rcases List.mem_cons.mp he with rfl | he
      · exact remains_of_current (fun b => ⟨rfl, .inl ⟨rfl, rfl⟩⟩) hcurrent
      · exact h.times hc e he
    · rcases List.mem_cons.mp he with rfl | he
      · exact stillReviewed_of_current hcurrent
      · exact h.reviewed e he
  pending := fun h hlog hcommitted => h.congr hlog.symm hcommitted.symm
  own := by
    intro i c s t ws h hO happ
    have hst := (continues_commit h.facts hO.2 happ).1
    obtain ⟨husers, hbookings⟩ := named_commit hO.2 happ h.users h.bookings
    have hlate : ∀ {P : Prop}, (c.commit ws).committed = [] → P := fun hc => by simp at hc
    exact {
      facts := fun e he => (h.facts e he).trans hst
      times := fun hc => hlate hc
      reviewed := fun e he => (h.reviewed e he).trans hst
      made := by
        intro W hW w hw
        rw [Client.commit_committed, hO.1, List.nil_append, List.mem_singleton] at hW
        subst W
        exact made_of_applyAll hO.2 happ hw
      users := husers
      bookings := hbookings
      newBooking := fun hc => hlate hc
      newReview := fun hc => hlate hc
      newNotification := fun hc => hlate hc
      normal := normal_commit hlaws hevents hO.2 happ h.normal }
  other := by
    intro i j c d s t W hij h hd hO happ
    have hst := (continues_commit hd.facts hO.2 happ).1
    obtain ⟨husers, hbookings⟩ := named_commit hO.2 happ h.users h.bookings
    have hrows := tables_of_applyAll happ
    exact {
      facts := fun e he => (h.facts e he).trans hst
      times := fun hc e he => Remains.trans (P := Undisturbed events i)
        (fun hab hbc => hab.trans hbc) (fun _ hnow => undisturbed_commit hij hO.2 happ hst hnow)
        (h.times hc e he)
      reviewed := fun e he => (h.reviewed e he).trans hst
      made := fun W hW w hw => (h.made W hW w hw).trans hst
      users := husers
      bookings := hbookings
      newBooking := by
        intro hc b hb
        rw [hrows] at hb
        rcases booking_from hb with ⟨a, ha, hid⟩ | ⟨a, ha, hid⟩
        · exact hid ▸ h.newBooking hc a ha
        · have hdraw : a.id = (events j).ambient.uuid4 := hO.2.drawn ha
          rw [← hid, hdraw]
          exact fun heq => hij (hdrawn.apart _ _ heq).symm
      newReview := by
        intro hc r hr
        rw [hrows] at hr
        rcases review_from hr with ⟨a, ha, hid⟩ | ⟨a, ha, hid⟩
        · exact hid ▸ h.newReview hc a ha
        · have hdraw : a.id = (events j).ambient.uuid4 := hO.2.drawn ha
          rw [← hid, hdraw]
          exact fun heq => hij (hdrawn.apart _ _ heq).symm
      newNotification := by
        intro hc n hn u b type hconcerns
        have hrow := concerns_row husers hbookings hn
        rw [hrows] at hn
        rcases notification_from hn with ⟨a, ha, hid, _⟩ | ⟨a, ha, hid, huser, hbooking, _⟩
        · exact hid ▸ h.newNotification hc a ha u b type hconcerns
        · have hdraw : a.id = (events j).ambient.notificationId a.userId a.bookingId a.type :=
            hO.2.drawn ha
          rw [← huser, ← hbooking] at hrow
          rw [← hid, hdraw]
          exact fun heq => hij (hdrawn.notificationsApart _ _ _ _ _ _ _ _ hrow hconcerns heq).1.symm
      normal := normal_commit hlaws hevents hO.2 happ h.normal }

/-- How everybody starts. -/
theorem inMidst_start (h₀ : text.Normalised s₀.users) (hdrawn : DrawnAfresh events s₀) (i : ι) :
    InMidst events s₀ text i .start s₀ where
  facts := fun _ he => absurd he List.not_mem_nil
  times := fun _ _ he => absurd he List.not_mem_nil
  reviewed := fun _ he => absurd he List.not_mem_nil
  made := fun _ hW => absurd hW List.not_mem_nil
  users := fun u hu => .inl ⟨u, hu, rfl⟩
  bookings := fun b hb => .inl ⟨b, hb, rfl⟩
  newBooking := fun _ => hdrawn.bookings i
  newReview := fun _ => hdrawn.reviews i
  newNotification := fun _ => hdrawn.notifications i
  normal := h₀

end Midst

end BookingPlatform
