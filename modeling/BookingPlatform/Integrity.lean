import BookingPlatform.Concurrency

/-!
# What every interleaving keeps

Requests race on the schedule and on the status of a booking, but not on whom a row is
about. Every statement brings in rows that agree with what is there, so any number of
requests and jobs side by side leave the four tables consistent with each other, and
nothing that was recorded is lost.
-/

namespace BookingPlatform

set_option autoImplicit false

open Transact

/-- To whom a notification about `b` may go. -/
def Notification.AddressedBy (n : Notification) (b : Booking) : Prop :=
  match n.type with
  | .bookingCreated => n.userId = b.providerId
  | .bookingConfirmed => n.userId = b.customerId
  | .bookingCancelled => n.userId = b.customerId ∨ n.userId = b.providerId
  | .bookingReminder => n.userId = b.customerId ∨ n.userId = b.providerId
  | .bookingCompleted => n.userId = b.customerId
  | .bookingOverdue => n.userId = b.customerId ∨ n.userId = b.providerId

/-- What no constraint of the database says, and every state has. -/
structure Store.Consistent (s : Store) : Prop where
  providers : ∀ b ∈ s.bookings, ∀ u ∈ s.users, u.id = b.providerId → u.role = .provider
  recipients : ∀ n ∈ s.notifications, ∀ b ∈ s.bookings, n.bookingId = some b.id →
    n.AddressedBy b
  readAt : ∀ n ∈ s.notifications, n.isRead = n.readAt.isSome
  reviews : ∀ r ∈ s.reviews, ∀ b ∈ s.bookings, b.id = r.bookingId →
    r.customerId = b.customerId ∧ r.providerId = b.providerId
  authors : ∀ r ∈ s.reviews, ∀ u ∈ s.users, u.id = r.customerId → u.role = .customer

/-- The same notification, read or not; once it is read it stays so. -/
def Notification.Later (n n' : Notification) : Prop :=
  n' = { n with isRead := n'.isRead, readAt := n'.readAt } ∧ (n.isRead = true → n'.isRead = true)

/-- The same review, whatever it says. -/
def Review.Same (r r' : Review) : Prop :=
  r' = { r with rating := r'.rating, comment := r'.comment }

/-- Nothing of `s` is lost in `t` but the reviews that somebody asked to delete. -/
structure Continues (withdrawn : UUID → Prop) (s t : Store) : Prop where
  users : ∀ u ∈ s.users, u ∈ t.users
  joined : ∀ u ∈ t.users, u ∈ s.users ∨ u.role = .customer
  bookings : ∀ b ∈ s.bookings, ∃ b' ∈ t.bookings, b.Same b'
  notifications : ∀ n ∈ s.notifications, ∃ n' ∈ t.notifications, n.Later n'
  reviews : ∀ r ∈ s.reviews, (∃ r' ∈ t.reviews, r.Same r') ∨ withdrawn r.id

section Relations

theorem Notification.Later.refl (n : Notification) : n.Later n := ⟨rfl, fun h => h⟩

theorem Notification.Later.trans {l m n : Notification} (hlm : l.Later m) (hmn : m.Later n) :
    l.Later n := by
  obtain ⟨hm, hread⟩ := hlm
  obtain ⟨hn, hread'⟩ := hmn
  refine ⟨?_, fun h => hread' (hread h)⟩
  rw [hm] at hn
  exact hn

theorem Booking.Same.trans {a b c : Booking} (hab : a.Same b) (hbc : b.Same c) : a.Same c :=
  ⟨hbc.1.trans hab.1, hbc.2.1.trans hab.2.1, hbc.2.2.trans hab.2.2⟩

theorem Review.Same.trans {p q r : Review} (hpq : p.Same q) (hqr : q.Same r) : p.Same r := by
  unfold Review.Same at hpq hqr ⊢
  rw [hpq] at hqr
  exact hqr

theorem Notification.AddressedBy.congr {n : Notification} {b b' : Booking}
    (h : n.AddressedBy b) (hsame : b.Same b') : n.AddressedBy b' := by
  obtain ⟨_, hc, hp⟩ := hsame
  unfold Notification.AddressedBy at h ⊢
  rw [hc, hp]
  exact h

variable {withdrawn : UUID → Prop} {s t u : Store}

theorem Continues.mono {withdrawn' : UUID → Prop} (hst : Continues withdrawn s t)
    (h : ∀ id, withdrawn id → withdrawn' id) : Continues withdrawn' s t :=
  { hst with reviews := fun r hr => (hst.reviews r hr).imp_right (h r.id) }

theorem Continues.refl (s : Store) : Continues withdrawn s s where
  users := fun _ h => h
  joined := fun _ h => .inl h
  bookings := fun b hb => ⟨b, hb, rfl, rfl, rfl⟩
  notifications := fun n hn => ⟨n, hn, .refl n⟩
  reviews := fun r hr => .inl ⟨r, hr, rfl⟩

theorem Continues.trans (hst : Continues withdrawn s t) (htu : Continues withdrawn t u) :
    Continues withdrawn s u where
  users := fun v hv => htu.users v (hst.users v hv)
  joined := by
    intro v hv
    rcases htu.joined v hv with hv | hrole
    · exact hst.joined v hv
    · exact .inr hrole
  bookings := by
    intro b hb
    obtain ⟨b', hb', hsame⟩ := hst.bookings b hb
    obtain ⟨b'', hb'', hsame'⟩ := htu.bookings b' hb'
    exact ⟨b'', hb'', hsame.trans hsame'⟩
  notifications := by
    intro n hn
    obtain ⟨n', hn', hlater⟩ := hst.notifications n hn
    obtain ⟨n'', hn'', hlater'⟩ := htu.notifications n' hn'
    exact ⟨n'', hn'', hlater.trans hlater'⟩
  reviews := by
    intro r hr
    rcases hst.reviews r hr with ⟨r', hr', hsame⟩ | hgone
    · have hid : r'.id = r.id := by rw [hsame]
      rcases htu.reviews r' hr' with ⟨r'', hr'', hsame'⟩ | hgone
      · exact .inl ⟨r'', hr'', hsame.trans hsame'⟩
      · exact .inr (hid ▸ hgone)
    · exact .inr hgone

end Relations

section Statements
variable {t : Tables} {w : Write}

/-- What a statement brings in agrees with what is there. -/
def Write.Fits (t : Tables) : Write → Prop
  | .insertUser u => u.role = .customer
  | .insertBooking b => ∃ p ∈ t.users, p.id = b.providerId ∧ p.role = .provider
  | .insertReview r => ∃ b ∈ t.bookings, b.id = r.bookingId ∧ r.customerId = b.customerId ∧
    r.providerId = b.providerId ∧ ∃ u ∈ t.users, u.id = r.customerId ∧ u.role = .customer
  | .insertNotification n => n.isRead = false ∧ n.readAt = none ∧
    ∃ b ∈ t.bookings, n.bookingId = some b.id ∧ n.AddressedBy b
  | .updateBooking .. => True
  | .updateReview .. => True
  | .deleteReview _ => True
  | .readNotification .. => True
  | .readAllNotifications .. => True

/-! Where the rows after a statement come from. -/

theorem users_after {u : User} (h : u ∈ (t.after w).users) : u ∈ t.users ∨ w = .insertUser u := by
  cases w with
  | insertUser v =>
    rcases List.mem_append.mp h with h | h
    · exact .inl h
    · exact .inr (by rw [List.mem_singleton.mp h])
  | _ => exact .inl h

theorem bookings_after {b' : Booking} (h : b' ∈ (t.after w).bookings) :
    (∃ b ∈ t.bookings, b.Same b') ∨ w = .insertBooking b' := by
  cases w with
  | insertBooking b =>
    rcases List.mem_append.mp h with h | h
    · exact .inl ⟨b', h, rfl, rfl, rfl⟩
    · exact .inr (by rw [List.mem_singleton.mp h])
  | updateBooking id c =>
    obtain ⟨b, hb, rfl⟩ := List.mem_map.mp h
    refine .inl ⟨b, hb, ?_⟩
    split
    · exact ⟨rfl, rfl, rfl⟩
    · exact ⟨rfl, rfl, rfl⟩
  | _ => exact .inl ⟨b', h, rfl, rfl, rfl⟩

theorem reviews_after {r' : Review} (h : r' ∈ (t.after w).reviews) :
    (∃ r ∈ t.reviews, r.Same r') ∨ w = .insertReview r' := by
  cases w with
  | insertReview r =>
    rcases List.mem_append.mp h with h | h
    · exact .inl ⟨r', h, rfl⟩
    · exact .inr (by rw [List.mem_singleton.mp h])
  | updateReview id c =>
    obtain ⟨r, hr, rfl⟩ := List.mem_map.mp h
    refine .inl ⟨r, hr, ?_⟩
    split
    · rfl
    · rfl
  | deleteReview id => exact .inl ⟨r', List.mem_of_mem_filter h, rfl⟩
  | _ => exact .inl ⟨r', h, rfl⟩

theorem notifications_after {n' : Notification} (h : n' ∈ (t.after w).notifications) :
    (∃ n ∈ t.notifications,
      n' = n ∨ ∃ readAt, n' = { n with isRead := true, readAt := some readAt }) ∨
      w = .insertNotification n' := by
  cases w with
  | insertNotification n =>
    rcases mem_addNotification.mp h with h | ⟨rfl, _⟩
    · exact .inl ⟨n', h, .inl rfl⟩
    · exact .inr rfl
  | readNotification id readAt =>
    obtain ⟨n, hn, rfl⟩ := List.mem_map.mp h
    refine .inl ⟨n, hn, ?_⟩
    split
    · exact .inr ⟨readAt, rfl⟩
    · exact .inl rfl
  | readAllNotifications userId readAt =>
    obtain ⟨n, hn, rfl⟩ := List.mem_map.mp h
    refine .inl ⟨n, hn, ?_⟩
    split
    · exact .inr ⟨readAt, rfl⟩
    · exact .inl rfl
  | _ => exact .inl ⟨n', h, .inl rfl⟩

end Statements

section OneStatement
variable {s t : Store} {w : Write} (ht : t.toTables = s.after w)
include ht

theorem continues_after (hw : w.Fits s.toTables) :
    Continues (fun id => w = .deleteReview id) s t where
  users := by
    intro u hu
    rw [ht]
    cases w with
    | insertUser v => exact List.mem_append_left _ hu
    | _ => exact hu
  joined := by
    intro u hu
    rw [ht] at hu
    rcases users_after hu with hu | rfl
    · exact .inl hu
    · exact .inr hw
  bookings := by
    intro b hb
    rw [ht]
    cases w with
    | insertBooking c => exact ⟨b, List.mem_append_left _ hb, rfl, rfl, rfl⟩
    | updateBooking id c =>
      refine ⟨_, List.mem_map_of_mem hb, ?_⟩
      split
      · exact ⟨rfl, rfl, rfl⟩
      · exact ⟨rfl, rfl, rfl⟩
    | _ => exact ⟨b, hb, rfl, rfl, rfl⟩
  notifications := by
    intro n hn
    rw [ht]
    cases w with
    | insertNotification m => exact ⟨n, mem_addNotification.mpr (.inl hn), .refl n⟩
    | readNotification id readAt =>
      refine ⟨_, List.mem_map_of_mem hn, ?_⟩
      split
      · exact ⟨rfl, fun _ => rfl⟩
      · exact .refl n
    | readAllNotifications userId readAt =>
      refine ⟨_, List.mem_map_of_mem hn, ?_⟩
      split
      · exact ⟨rfl, fun _ => rfl⟩
      · exact .refl n
    | _ => exact ⟨n, hn, .refl n⟩
  reviews := by
    intro r hr
    rw [ht]
    cases w with
    | insertReview x => exact .inl ⟨r, List.mem_append_left _ hr, rfl⟩
    | updateReview id c =>
      refine .inl ⟨_, List.mem_map_of_mem hr, ?_⟩
      split
      · rfl
      · rfl
    | deleteReview id =>
      by_cases hid : r.id = id
      · exact .inr (by rw [hid])
      · exact .inl ⟨r, List.mem_filter.mpr ⟨hr, by simpa using hid⟩, rfl⟩
    | _ => exact .inl ⟨r, hr, rfl⟩

end OneStatement

section References
variable {withdrawn : UUID → Prop} {s t : Store} (hst : Continues withdrawn s t)
include hst

/-! A row that was referred to before is no new one. -/

theorem Continues.old_user {u : User} (hu : u ∈ t.users) (hold : ∃ v ∈ s.users, v.id = u.id) :
    u ∈ s.users := by
  obtain ⟨v, hv, hid⟩ := hold
  rwa [← t.user_unique (hst.users v hv) hu hid]

theorem Continues.old_booking {b' : Booking} (hb' : b' ∈ t.bookings)
    (hold : ∃ b ∈ s.bookings, b.id = b'.id) : ∃ b ∈ s.bookings, b.Same b' := by
  obtain ⟨b, hb, hid⟩ := hold
  obtain ⟨b'', hb'', hsame⟩ := hst.bookings b hb
  obtain rfl := t.booking_unique hb'' hb' (hsame.1.trans hid)
  exact ⟨b, hb, hsame⟩

end References

/-- A statement that fits keeps the tables consistent. -/
theorem Store.Consistent.after {s t : Store} {w : Write} (hs : s.Consistent)
    (ht : t.toTables = s.after w) (hw : w.Fits s.toTables) : t.Consistent where
  providers := by
    intro b' hb' u hu hid
    have hst := continues_after ht hw
    rw [ht] at hb'
    rcases bookings_after hb' with ⟨b, hb, _, _, hp⟩ | rfl
    · rw [hp] at hid
      obtain ⟨p, hp, hpid⟩ := s.sound.bookingsProvider b hb
      exact hs.providers b hb u (hst.old_user hu ⟨p, hp, hpid.trans hid.symm⟩) hid
    · obtain ⟨p, hp, hpid, hrole⟩ := hw
      obtain rfl := t.user_unique (hst.users p hp) hu (hpid.trans hid.symm)
      exact hrole
  recipients := by
    intro n' hn' b' hb' hid
    have hst := continues_after ht hw
    -- The notification was there before, and the booking with it; or both are known to `Fits`.
    have hold : ∀ n ∈ s.notifications, n.bookingId = some b'.id → n.AddressedBy b' := by
      intro n hn hid
      have hbooking : ∃ b ∈ s.bookings, b.id = b'.id := by
        rcases s.sound.notificationsBooking n hn with hnone | ⟨b, hb, hsome⟩
        · rw [hnone] at hid
          cases hid
        · exact ⟨b, hb, Option.some.inj (hsome.symm.trans hid)⟩
      obtain ⟨b, hb, hsame⟩ := hst.old_booking hb' hbooking
      exact (hs.recipients n hn b hb (hid.trans (by rw [hsame.1]))).congr hsame
    rw [ht] at hn'
    rcases notifications_after hn' with ⟨n, hn, rfl | ⟨readAt, rfl⟩⟩ | rfl
    · exact hold n' hn hid
    · exact hold n hn hid
    · obtain ⟨_, _, b, hb, hbid, haddressed⟩ := hw
      have hb'id : b.id = b'.id := Option.some.inj (hbid.symm.trans hid)
      obtain ⟨b₁, hb₁, hsame⟩ := hst.old_booking hb' ⟨b, hb, hb'id⟩
      obtain rfl := s.booking_unique hb hb₁ (hb'id.trans hsame.1)
      exact haddressed.congr hsame
  readAt := by
    intro n' hn'
    rw [ht] at hn'
    rcases notifications_after hn' with ⟨n, hn, rfl | ⟨readAt, rfl⟩⟩ | rfl
    · exact hs.readAt n' hn
    · rfl
    · rw [hw.1, hw.2.1]
      rfl
  reviews := by
    intro r' hr' b' hb' hid
    have hst := continues_after ht hw
    rw [ht] at hr'
    rcases reviews_after hr' with ⟨r, hr, hsame⟩ | rfl
    · rw [hsame] at hid ⊢
      obtain ⟨x, hx, hxid⟩ := s.sound.reviewsBooking r hr
      obtain ⟨b, hb, hbid, hc, hp⟩ := hst.old_booking hb' ⟨x, hx, hxid.trans hid.symm⟩
      rw [hc, hp]
      exact hs.reviews r hr b hb (hbid.symm.trans hid)
    · obtain ⟨b, hb, hbid, hcustomer, hprovider, _⟩ := hw
      obtain ⟨b₁, hb₁, hid₁, hc, hp⟩ := hst.old_booking hb' ⟨b, hb, hbid.trans hid.symm⟩
      obtain rfl := s.booking_unique hb hb₁ (hbid.trans (hid.symm.trans hid₁))
      exact ⟨hcustomer.trans hc.symm, hprovider.trans hp.symm⟩
  authors := by
    intro r' hr' u hu hid
    have hst := continues_after ht hw
    rw [ht] at hr'
    rcases reviews_after hr' with ⟨r, hr, hsame⟩ | rfl
    · rw [hsame] at hid
      obtain ⟨v, hv, hvid⟩ := s.sound.reviewsCustomer r hr
      exact hs.authors r hr u (hst.old_user hu ⟨v, hv, hvid.trans hid.symm⟩) hid
    · obtain ⟨_, _, _, _, _, v, hv, hvid, hrole⟩ := hw
      obtain rfl := t.user_unique (hst.users v hv) hu (hvid.trans hid.symm)
      exact hrole

section Transactions
variable {s t : Store} {W : List Write}

/-- Each statement fits the tables that those before it leave. -/
def FitsAll : List Write → Tables → Prop
  | [], _ => True
  | w :: ws, t => w.Fits t ∧ FitsAll ws (t.after w)

theorem fitsAll_inserts {notes : List Notification} {ws : List Write} {rows : Tables}
    (h : ∀ n ∈ notes, (Write.insertNotification n).Fits rows)
    (hws : FitsAll ws (rows.afterAll (inserts notes))) : FitsAll (inserts notes ++ ws) rows := by
  induction notes generalizing rows with
  | nil => exact hws
  | cons n notes ih =>
    refine ⟨h n List.mem_cons_self, ih (fun m hm => ?_) hws⟩
    exact h m (List.mem_cons_of_mem n hm)

theorem continues_applyAll {withdrawn : UUID → Prop} (hW : FitsAll W s.toTables)
    (happ : platform.applyAll W s = .ok t)
    (hdeletes : ∀ id, .deleteReview id ∈ W → withdrawn id) :
    Continues withdrawn s t ∧ (s.Consistent → t.Consistent) := by
  induction W generalizing s with
  | nil =>
    obtain rfl := Except.ok.inj happ
    exact ⟨.refl s, fun h => h⟩
  | cons w ws ih =>
    simp only [Database.applyAll] at happ
    split at happ
    · rename_i r u hw
      have hu : u.toTables = s.after w := (Store.apply_ok hw).1
      obtain ⟨hfits, hrest⟩ := hW
      rw [← hu] at hrest
      obtain ⟨hcontinues, hconsistent⟩ := ih hrest happ fun id hid =>
        hdeletes id (List.mem_cons_of_mem w hid)
      have hone : Continues withdrawn s u := (continues_after hu hfits).mono fun id hdel =>
        hdeletes id (hdel ▸ List.mem_cons_self)
      exact ⟨hone.trans hcontinues, fun hs => hconsistent (hs.after hu hfits)⟩
    · cases happ

end Transactions

section Knowledge
variable {c : Client platform} {s t : Store} {withdrawn : UUID → Prop}

/-- What a client has been told still holds of whom the rows are about. -/
structure Lasts (e : Entry platform) (s : Store) : Prop where
  user : ∀ notes id u, e = ⟨inserts notes, .user id, some u⟩ → u ∈ s.users ∧ u.id = id
  booking : Remains Booking.Same e s
  bookings : ∀ notes due rows, e = ⟨inserts notes, .bookings due, rows⟩ →
    ∀ b ∈ rows, ∃ now ∈ s.bookings, b.Same now
  notification : ∀ id n, e = ⟨[], .notification id, some n⟩ →
    n.id = id ∧ ∃ now ∈ s.notifications, n.Later now

theorem lasts_of_current {e : Entry platform} (h : e.Current s) : Lasts e s where
  user := by
    rintro notes id u rfl
    have hrow : some u = s.user? id := answer_of_current (q := .user id) trivial h
    exact s.user?_eq_some.mp hrow.symm
  booking := remains_of_current (fun _ => ⟨rfl, rfl, rfl⟩) h
  bookings := by
    rintro notes due rows rfl b hb
    have hrows : rows = s.bookings.filter due := answer_of_current (q := .bookings due) trivial h
    rw [hrows] at hb
    exact ⟨b, List.mem_of_mem_filter hb, rfl, rfl, rfl⟩
  notification := by
    rintro id n rfl
    have hrow : some n = s.notification? id := h
    obtain ⟨hn, hid⟩ := s.notification?_eq_some.mp hrow.symm
    exact ⟨hid, n, hn, .refl n⟩

theorem Lasts.trans {e : Entry platform} (h : Lasts e s) (hst : Continues withdrawn s t) :
    Lasts e t where
  user := by
    intro notes id u he
    obtain ⟨hu, hid⟩ := h.user notes id u he
    exact ⟨hst.users u hu, hid⟩
  booking := by
    intro notes id b he
    obtain ⟨now, hnow, hid, hsame⟩ := h.booking notes id b he
    obtain ⟨later, hlater, hsame'⟩ := hst.bookings now hnow
    exact ⟨later, hlater, hsame'.1.trans hid, hsame.trans hsame'⟩
  bookings := by
    intro notes due rows he b hb
    obtain ⟨now, hnow, hsame⟩ := h.bookings notes due rows he b hb
    obtain ⟨later, hlater, hsame'⟩ := hst.bookings now hnow
    exact ⟨later, hlater, hsame.trans hsame'⟩
  notification := by
    intro id n he
    obtain ⟨hid, now, hnow, hlater⟩ := h.notification id n he
    obtain ⟨then', hthen, hlater'⟩ := hst.notifications now hnow
    exact ⟨hid, then', hthen, hlater.trans hlater'⟩

/-! What a client has been told and remembers. -/

variable (hfacts : ∀ e ∈ c.log, Lasts e s)
include hfacts

theorem Told.user_mem {id : UUID} {u : User} (h : Told c (.user id) (some u)) : u ∈ s.users := by
  obtain ⟨notes, hmem, _⟩ := h
  exact ((hfacts _ hmem).user notes id u rfl).1

theorem Told.booking_now {id : UUID} {b : Booking} (h : Told c (.booking id) (some b)) :
    ∃ now ∈ s.bookings, now.id = id ∧ b.Same now :=
  h.remains fun e he => (hfacts e he).booking

theorem Told.bookings_now {due : Booking → Bool} {rows : List Booking}
    (h : Told c (.bookings due) rows) : ∀ b ∈ rows, ∃ now ∈ s.bookings, b.Same now := by
  obtain ⟨notes, hmem, _⟩ := h
  exact (hfacts _ hmem).bookings notes due rows rfl

theorem Told.notification_now {id : UUID} {n : Notification}
    (h : Told c (.notification id) (some n)) :
    n.id = id ∧ ∃ now ∈ s.notifications, n.Later now := by
  obtain ⟨notes, hmem, hnotes⟩ := h
  rcases hnotes with rfl | hsteady
  · exact (hfacts _ hmem).notification id n rfl
  · exact hsteady.elim

end Knowledge

section Commits
variable {c : Client platform} {s : Store} {W : List Write} {amb : Ambient} {actor : User}

/-- A notification that has just been made for a booking. -/
structure Notification.News (n : Notification) (b : Booking) : Prop where
  unread : n.isRead = false ∧ n.readAt = none
  about : n.bookingId = some b.id
  addressed : n.AddressedBy b

theorem Notification.News.fits {n : Notification} {b now : Booking} (h : n.News b)
    (hnow : now ∈ s.bookings) (hsame : b.Same now) :
    (Write.insertNotification n).Fits s.toTables :=
  ⟨h.unread.1, h.unread.2, now, hnow, by rw [h.about, hsame.1], h.addressed.congr hsame⟩

theorem news_transition {b : Booking} {status : BookingStatus} {notes : List Notification}
    (h : StatusChange amb actor b status notes) {n : Notification} (hn : n ∈ notes) :
    n.News b := by
  rcases h with ⟨_, rfl⟩ | ⟨_, _, rfl⟩
  · cases hn
  · unfold transitionNotes at hn
    cases status with
    | pending => cases hn
    | confirmed =>
      obtain rfl := List.mem_singleton.mp hn
      exact ⟨⟨rfl, rfl⟩, rfl, rfl⟩
    | completed =>
      obtain rfl := List.mem_singleton.mp hn
      exact ⟨⟨rfl, rfl⟩, rfl, rfl⟩
    | cancelled =>
      rcases List.mem_append.mp hn with hn | hn
      · split at hn
        · obtain rfl := List.mem_singleton.mp hn
          exact ⟨⟨rfl, rfl⟩, rfl, .inl rfl⟩
        · cases hn
      · split at hn
        · obtain rfl := List.mem_singleton.mp hn
          exact ⟨⟨rfl, rfl⟩, rfl, .inr rfl⟩
        · cases hn

/-- What a job tells everybody about is what it may tell a participant about. -/
def Notice.ForBoth (notice : Notice) : Prop :=
  notice.type = .bookingReminder ∨ notice.type = .bookingOverdue

theorem Notice.news {notice : Notice} (hnotice : notice.ForBoth) {b : Booking} {n : Notification}
    (hn : n ∈ notice.notes amb b) : n.News b := by
  have haddressed : ∀ userId message, (userId = b.customerId ∨ userId = b.providerId) →
      (amb.notification userId (some b.id) notice.type notice.title message).News b := by
    intro userId message huser
    refine ⟨⟨rfl, rfl⟩, rfl, ?_⟩
    unfold Notification.AddressedBy Ambient.notification
    rcases hnotice with htype | htype
    · rw [htype]
      exact huser
    · rw [htype]
      exact huser
  rcases List.mem_cons.mp hn with rfl | hn
  · exact haddressed _ _ (.inl rfl)
  · obtain rfl := List.mem_singleton.mp hn
    exact haddressed _ _ (.inr rfl)

variable (hfacts : ∀ e ∈ c.log, Lasts e s)
include hfacts

theorem Booked.fits {bookingIn : BookingCreate} {caller : UUID}
    (h : Booked amb caller bookingIn (Told c) W) : FitsAll W s.toTables := by
  obtain ⟨p, htold, hid, hrole⟩ := h.provider
  rw [h.writes]
  refine ⟨⟨p, htold.user_mem hfacts, hid, hrole⟩, ⟨rfl, rfl, ?_⟩, trivial⟩
  exact ⟨_, List.mem_append_right _ List.mem_cons_self, rfl, rfl⟩

theorem Edited.fits {bookingId : UUID} {b b' : Booking} {notes : List Notification}
    (h : Edited amb bookingId actor b b' notes (Told c) W) : FitsAll W s.toTables := by
  obtain ⟨now, hnow, _, hsame⟩ := h.told.booking_now hfacts
  rw [h.writes]
  refine fitsAll_inserts (fun n hn => ?_) ⟨trivial, trivial⟩
  exact (news_transition h.status hn).fits hnow hsame

theorem Reviewed.fits {reviewIn : ReviewCreate} {b : Booking}
    (h : Reviewed amb actor reviewIn b (Told c) W) (hactor : actor ∈ s.users) :
    FitsAll W s.toTables := by
  obtain ⟨now, hnow, hid, _, hc, hp⟩ := h.told.booking_now hfacts
  rw [h.writes]
  refine ⟨⟨now, hnow, hid.trans h.key.symm, ?_, hp.symm, actor, hactor, rfl, h.role⟩, trivial⟩
  exact h.own.symm.trans hc.symm

theorem Notified.fits {notice : Notice} (hnotice : notice.ForBoth) {due : Booking → Bool}
    {rows : List Booking} (h : Notified amb notice due rows (Told c) W) :
    FitsAll W s.toTables := by
  rw [h.writes, ← List.append_nil (inserts _)]
  refine fitsAll_inserts (fun n hn => ?_) trivial
  obtain ⟨b, hb, hn⟩ := List.mem_flatMap.mp hn
  obtain ⟨now, hnow, hsame⟩ := h.told.bookings_now hfacts b hb
  exact (Notice.news hnotice hn).fits hnow hsame

/-- Every statement of every commit fits, however old the answers it rests on. -/
theorem Event.Commits.fits {e : Event} (h : e.Commits (Told c) W) : FitsAll W s.toTables := by
  cases e with
  | request amb caller req =>
    obtain ⟨actor, htold, _, h⟩ := h
    cases req with
    | createBooking bookingIn => exact Booked.fits hfacts h
    | updateBooking bookingId bookingUpdate =>
      obtain ⟨b, notes, h⟩ := h
      exact h.fits hfacts
    | cancelBooking bookingId =>
      obtain ⟨b, notes, h⟩ := h
      exact h.fits hfacts
    | deleteBooking bookingId =>
      obtain ⟨b, notes, _, _, h⟩ := h
      exact h.fits hfacts
    | createReview reviewIn =>
      obtain ⟨b, h⟩ := h
      exact h.fits hfacts (htold.user_mem hfacts)
    | updateReview reviewId reviewUpdate =>
      obtain ⟨r, h⟩ := h
      rw [h.writes]
      exact ⟨trivial, trivial⟩
    | deleteReview reviewId =>
      obtain ⟨r, h⟩ := h
      rw [h.writes]
      exact ⟨trivial, trivial⟩
    | markNotificationRead notificationId =>
      obtain ⟨n, h⟩ := h
      rw [h.writes]
      exact ⟨trivial, trivial⟩
    | markAllNotificationsRead =>
      have h : W = [.readAllNotifications actor.id amb.now] := h
      rw [h]
      exact ⟨trivial, trivial⟩
    | _ => exact h.elim
  | register amb userIn =>
    obtain ⟨hashedPw, h⟩ := h
    rw [h.writes]
    exact ⟨rfl, trivial⟩
  | reminderJob amb windowMinutes =>
    obtain ⟨rows, h⟩ := h
    exact h.fits hfacts (.inl rfl)
  | overdueJob amb =>
    obtain ⟨rows, h⟩ := h
    exact h.fits hfacts (.inr rfl)

end Commits

/-- Which statements an event may commit. -/
inductive Event.Sends : Event → Write → Prop
  | note {e : Event} {n : Notification} : Sends e (.insertNotification n)
  | books {amb : Ambient} {caller : UUID} {bookingIn : BookingCreate} {b : Booking} :
    Sends (.request amb caller (.createBooking bookingIn)) (.insertBooking b)
  | edits {amb : Ambient} {caller id : UUID} {req : Request} {c : BookingChanges} :
    Sends (.request amb caller req) (.updateBooking id c)
  | reviews {amb : Ambient} {caller : UUID} {reviewIn : ReviewCreate} {r : Review} :
    Sends (.request amb caller (.createReview reviewIn)) (.insertReview r)
  | revises {amb : Ambient} {caller id : UUID} {reviewUpdate : ReviewUpdate} {c : ReviewChanges} :
    Sends (.request amb caller (.updateReview id reviewUpdate)) (.updateReview id c)
  | withdraws {amb : Ambient} {caller id : UUID} :
    Sends (.request amb caller (.deleteReview id)) (.deleteReview id)
  | reads {amb : Ambient} {caller id : UUID} :
    Sends (.request amb caller (.markNotificationRead id)) (.readNotification id amb.now)
  | readsAll {amb : Ambient} {caller : UUID} :
    Sends (.request amb caller .markAllNotificationsRead) (.readAllNotifications caller amb.now)
  | joins {amb : Ambient} {userIn : UserRegister} {hashedPw : String} :
    Sends (.register amb userIn) (.insertUser (newUser amb userIn hashedPw))

theorem sends_inserts {e : Event} {notes : List Notification} {w : Write}
    (hw : w ∈ inserts notes) : e.Sends w := by
  obtain ⟨n, _, rfl⟩ := List.mem_map.mp hw
  exact .note

theorem Edited.sends {amb amb' : Ambient} {caller bookingId : UUID} {req : Request} {actor : User}
    {b b' : Booking} {notes : List Notification} {K : Knowledge} {W : List Write}
    (h : Edited amb bookingId actor b b' notes K W) {w : Write} (hw : w ∈ W) :
    (Event.request amb' caller req).Sends w := by
  rw [h.writes] at hw
  rcases List.mem_append.mp hw with hw | hw
  · exact sends_inserts hw
  · obtain rfl := List.mem_singleton.mp hw
    exact .edits

theorem Event.Commits.sends {e : Event} {K : Knowledge} {W : List Write} (h : e.Commits K W)
    {w : Write} (hw : w ∈ W) : e.Sends w := by
  cases e with
  | request amb caller req =>
    obtain ⟨actor, _, rfl, h⟩ := h
    cases req with
    | createBooking bookingIn =>
      have h : Booked amb actor.id bookingIn K W := h
      rw [h.writes] at hw
      rcases List.mem_cons.mp hw with rfl | hw
      · exact .books
      · obtain rfl := List.mem_singleton.mp hw
        exact .note
    | updateBooking bookingId bookingUpdate =>
      obtain ⟨b, notes, h⟩ := h
      exact h.sends hw
    | cancelBooking bookingId =>
      obtain ⟨b, notes, h⟩ := h
      exact h.sends hw
    | deleteBooking bookingId =>
      obtain ⟨b, notes, _, _, h⟩ := h
      exact h.sends hw
    | createReview reviewIn =>
      obtain ⟨b, h⟩ := h
      obtain rfl := List.mem_singleton.mp (h.writes ▸ hw)
      exact .reviews
    | updateReview reviewId reviewUpdate =>
      obtain ⟨r, h⟩ := h
      obtain rfl := List.mem_singleton.mp (h.writes ▸ hw)
      exact .revises
    | deleteReview reviewId =>
      obtain ⟨r, h⟩ := h
      obtain rfl := List.mem_singleton.mp (h.writes ▸ hw)
      exact .withdraws
    | markNotificationRead notificationId =>
      obtain ⟨n, h⟩ := h
      obtain rfl := List.mem_singleton.mp (h.writes ▸ hw)
      exact .reads
    | markAllNotificationsRead =>
      have h : W = [.readAllNotifications actor.id amb.now] := h
      obtain rfl := List.mem_singleton.mp (h ▸ hw)
      exact .readsAll
    | _ => exact h.elim
  | register amb userIn =>
    obtain ⟨hashedPw, h⟩ := h
    obtain rfl := List.mem_singleton.mp (h.writes ▸ hw)
    exact .joins
  | reminderJob amb windowMinutes =>
    obtain ⟨rows, h⟩ := h
    exact sends_inserts (h.writes ▸ hw)
  | overdueJob amb =>
    obtain ⟨rows, h⟩ := h
    exact sends_inserts (h.writes ▸ hw)

section Interleaved
variable {ι : Type} {events : ι → Event}

/-- A review that some client was asked to delete. -/
def Withdrawable (events : ι → Event) (id : UUID) : Prop :=
  ∃ i amb caller, events i = .request amb caller (.deleteReview id)

theorem Event.Commits.withdrawable {i : ι} {K : Knowledge} {W : List Write}
    (h : (events i).Commits K W) {id : UUID} (hid : .deleteReview id ∈ W) :
    Withdrawable events id := by
  have hsends := h.sends hid
  generalize he : events i = e at hsends
  cases hsends
  exact ⟨i, _, _, he⟩

theorem continues_commit {c : Client platform} {i : ι} {W : List Write} {s t : Store}
    (hfacts : ∀ e ∈ c.log, Lasts e s) (hW : (events i).Commits (Told c) W)
    (happ : platform.applyAll W s = .ok t) :
    Continues (Withdrawable events) s t ∧ (s.Consistent → t.Consistent) :=
  continues_applyAll (hW.fits hfacts) happ fun _ hid => hW.withdrawable hid

variable [DecidableEq ι]

theorem integrity_rules (P : Prop) :
    System.Invariant (commitsOf events) (fun _ _ _ _ => True) (fun s _ => P → s.Consistent)
      Lasts where
  told := fun _ h => lasts_of_current h
  commit := by
    intro i c W s t C hs _ hfacts hO _ happ
    obtain ⟨hcontinues, hconsistent⟩ := continues_commit hfacts hO.2 happ
    exact ⟨fun hP => hconsistent (hs hP), fun e he => he.trans hcontinues⟩

theorem newPlatform_consistent : newPlatform.Consistent where
  providers := fun b hb => absurd hb List.not_mem_nil
  recipients := fun n hn => absurd hn List.not_mem_nil
  readAt := fun n hn => absurd hn List.not_mem_nil
  reviews := fun r hr => absurd hr List.not_mem_nil
  authors := fun r hr => absurd hr List.not_mem_nil

theorem integrity_holds (s₀ : Store) (events : ι → Event) (schedule : List ι) :
    System.Holds (commitsOf events) (endsOf events) (fun s _ => False → s.Consistent) Lasts
      ((concurrently events s₀).run schedule) :=
  (concurrently_holds fun h => h.elim).run (integrity_rules False) (.always _ schedule)

theorem continues_from {P : Prop} {S : System platform ι Response}
    (h : System.Holds (commitsOf events) (endsOf events) (fun s _ => P → s.Consistent) Lasts S)
    (schedule : List ι) : Continues (Withdrawable events) S.store (S.run schedule).store := by
  refine h.store_run (integrity_rules P) (.always _ schedule) Continues.refl Continues.trans ?_
  intro i c W s t hfacts hO _ happ
  exact (continues_commit hfacts hO.2 happ).1

/-- Between any two moments of an interleaving no user, booking or notification is lost, none
is turned into another, nothing read becomes unread, and a review goes only if somebody asked
to delete it. -/
theorem interleaving_continues (s₀ : Store) (events : ι → Event) (before after : List ι) :
    Continues (Withdrawable events) ((concurrently events s₀).run before).store
      ((concurrently events s₀).run (before ++ after)).store := by
  rw [System.run_append]
  exact continues_from (integrity_holds s₀ events before) after

end Interleaved

end BookingPlatform
