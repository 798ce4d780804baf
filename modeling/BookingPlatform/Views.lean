import BookingPlatform.Refusals
import BookingPlatform.Rows.Veil
import BookingPlatform.Separation

/-!
# What a group of users sees

Of its own rows the group sees everything. Of the others it sees that they exist, the profiles
of providers, when a provider is taken, the ratings a provider has got, and which notifications
have been sent.
Every statement is accepted alike on tables that differ in nothing the group sees, and leaves
such tables.
-/

namespace BookingPlatform

set_option autoImplicit false

open Transact Transact.Program Rows

section Views
variable (group : List User)

/-- What everybody is shown of a provider. -/
structure ProviderResponse where
  id : UUID
  name : String
  email : String
  role : UserRole
  deriving DecidableEq, Repr

def User.profile (u : User) : ProviderResponse := ⟨u.id, u.name, u.email, u.role⟩

structure UserOutline where
  id : UUID
  profile : Option ProviderResponse
  deriving DecidableEq, Repr

structure BookingOutline where
  id : UUID
  taken : Option (UUID × Time × Time)
  deriving DecidableEq, Repr

structure ReviewOutline where
  id : UUID
  bookingId : UUID
  providerId : UUID
  rating : Int
  deriving DecidableEq, Repr

structure NotificationOutline where
  id : UUID
  userId : UUID
  bookingId : Option UUID
  type : NotificationType
  deriving DecidableEq, Repr

/-- Providers are public, but not their password hashes. -/
def User.outline (u : User) : UserOutline :=
  ⟨u.id, if u.role = .provider then some u.profile else none⟩

/-- A cancelled booking takes no time. -/
def Booking.outline (b : Booking) : BookingOutline :=
  ⟨b.id, if b.status = .cancelled then none else some (b.providerId, b.startTime, b.endTime)⟩

def Review.outline (r : Review) : ReviewOutline := ⟨r.id, r.bookingId, r.providerId, r.rating⟩

def Notification.outline (n : Notification) : NotificationOutline :=
  ⟨n.id, n.userId, n.bookingId, n.type⟩

def userVeil : Veil User UUID UserOutline where
  key := User.id
  known u := ∃ v ∈ group, v.id = u.id
  outline := User.outline
  keyed h := congrArg UserOutline.id h

def bookingVeil : Veil Booking UUID BookingOutline where
  key := Booking.id
  known b := ∃ u ∈ group, b.accessibleTo u
  outline := Booking.outline
  keyed h := congrArg BookingOutline.id h

def reviewVeil : Veil Review UUID ReviewOutline where
  key := Review.id
  known r := ∃ u ∈ group, r.accessibleTo u
  outline := Review.outline
  keyed h := congrArg ReviewOutline.id h

def notificationVeil : Veil Notification UUID NotificationOutline where
  key := Notification.id
  known n := ∃ u ∈ group, n.userId = u.id
  outline := Notification.outline
  keyed h := congrArg NotificationOutline.id h

instance : DecidablePred (userVeil group).known := fun u =>
  inferInstanceAs (Decidable (∃ v ∈ group, v.id = u.id))

instance : DecidablePred (bookingVeil group).known := fun b =>
  inferInstanceAs (Decidable (∃ u ∈ group, b.accessibleTo u))

instance : DecidablePred (reviewVeil group).known := fun r =>
  inferInstanceAs (Decidable (∃ u ∈ group, r.accessibleTo u))

instance : DecidablePred (notificationVeil group).known := fun n =>
  inferInstanceAs (Decidable (∃ u ∈ group, n.userId = u.id))

/-- The tables, a row that is not the group's reduced to its outline. -/
structure View where
  users : List (User ⊕ UserOutline)
  bookings : List (Booking ⊕ BookingOutline)
  reviews : List (Review ⊕ ReviewOutline)
  notifications : List (Notification ⊕ NotificationOutline)
  deriving DecidableEq, Repr

def Tables.viewOf (t : Tables) : View where
  users := t.users.map (userVeil group).seen
  bookings := t.bookings.map (bookingVeil group).seen
  reviews := t.reviews.map (reviewVeil group).seen
  notifications := t.notifications.map (notificationVeil group).seen

end Views

/-- The rows that are kept from the group, by their identifiers. -/
structure Secrets where
  bookings : UUID → Prop
  reviews : UUID → Prop
  notifications : UUID → Prop

section Alike
variable (group : List User) (secrets : Secrets)

/-- The tables differ in secret rows only, and there in what the group does not see. -/
structure AlikeTo (t t' : Tables) : Prop where
  members : ∀ u ∈ group, u ∈ t.users
  users : (userVeil group).Agree (fun id => ∀ u ∈ group, u.id ≠ id) t.users t'.users
  bookings : (bookingVeil group).Agree secrets.bookings t.bookings t'.bookings
  reviews : (reviewVeil group).Agree secrets.reviews t.reviews t'.reviews
  notifications :
    (notificationVeil group).Agree secrets.notifications t.notifications t'.notifications
  keptBookings : ∀ id, secrets.bookings id → ∃ b ∈ t.bookings, b.id = id
  keptReviews : ∀ id, secrets.reviews id → ∃ r ∈ t.reviews, r.id = id
  keptNotifications : ∀ id, secrets.notifications id → ∃ n ∈ t.notifications, n.id = id

def Undistinguished (s s' : Store) : Prop := AlikeTo group secrets s.toTables s'.toTables

variable {group secrets} {t t' : Tables} {s s' : Store}

theorem AlikeTo.symm (h : AlikeTo group secrets t t') : AlikeTo group secrets t' t where
  members := fun u hu =>
    h.users.mem (h.members u hu) fun hhidden => hhidden u hu rfl
  users := h.users.symm
  bookings := h.bookings.symm
  reviews := h.reviews.symm
  notifications := h.notifications.symm
  keptBookings := fun id hid => (h.bookings.exists_key id).mp (h.keptBookings id hid)
  keptReviews := fun id hid => (h.reviews.exists_key id).mp (h.keptReviews id hid)
  keptNotifications := fun id hid =>
    (h.notifications.exists_key id).mp (h.keptNotifications id hid)

theorem AlikeTo.user_exists (h : AlikeTo group secrets t t') (id : UUID) :
    (∃ u ∈ t.users, u.id = id) ↔ ∃ u ∈ t'.users, u.id = id := h.users.exists_key id

theorem AlikeTo.booking_exists (h : AlikeTo group secrets t t') (id : UUID) :
    (∃ b ∈ t.bookings, b.id = id) ↔ ∃ b ∈ t'.bookings, b.id = id := h.bookings.exists_key id

theorem AlikeTo.review_exists (h : AlikeTo group secrets t t') (id : UUID) :
    (∃ r ∈ t.reviews, r.id = id) ↔ ∃ r ∈ t'.reviews, r.id = id := h.reviews.exists_key id

theorem AlikeTo.notification_exists (h : AlikeTo group secrets t t') (id : UUID) :
    (∃ n ∈ t.notifications, n.id = id) ↔ ∃ n ∈ t'.notifications, n.id = id :=
  h.notifications.exists_key id

/-- Tables that give the group the same view. -/
theorem alikeTo_of_view (hmembers : ∀ u ∈ group, u ∈ s.users)
    (hview : s.viewOf group = s'.viewOf group) :
    ∃ secrets, Undistinguished group secrets s s' := by
  refine ⟨⟨fun id => ∃ b ∈ s.bookings, b.id = id ∧ ¬ (bookingVeil group).known b,
    fun id => ∃ r ∈ s.reviews, r.id = id ∧ ¬ (reviewVeil group).known r,
    fun id => ∃ n ∈ s.notifications, n.id = id ∧ ¬ (notificationVeil group).known n⟩, ?_⟩
  refine ⟨hmembers, ?_, ?_, ?_, ?_, fun id ⟨b, hb, hid, _⟩ => ⟨b, hb, hid⟩,
    fun id ⟨r, hr, hid, _⟩ => ⟨r, hr, hid⟩, fun id ⟨n, hn, hid, _⟩ => ⟨n, hn, hid⟩⟩
  · refine Veil.agree_of_seen (congrArg View.users hview) fun u _ => ?_
    change (∀ v ∈ group, v.id ≠ u.id) ↔ ¬ ∃ v ∈ group, v.id = u.id
    simp only [not_exists, not_and, ne_eq]
  · refine Veil.agree_of_seen (congrArg View.bookings hview) fun b hb => ?_
    refine ⟨fun ⟨x, hx, hid, hunknown⟩ => ?_, fun hunknown => ⟨b, hb, rfl, hunknown⟩⟩
    exact s.booking_unique hx hb hid ▸ hunknown
  · refine Veil.agree_of_seen (congrArg View.reviews hview) fun r hr => ?_
    refine ⟨fun ⟨x, hx, hid, hunknown⟩ => ?_, fun hunknown => ⟨r, hr, rfl, hunknown⟩⟩
    exact List.inj_on_of_nodup_map s.sound.reviewsKey hx hr hid ▸ hunknown
  · refine Veil.agree_of_seen (congrArg View.notifications hview) fun n hn => ?_
    refine ⟨fun ⟨x, hx, hid, hunknown⟩ => ?_, fun hunknown => ⟨n, hn, rfl, hunknown⟩⟩
    exact List.inj_on_of_nodup_map s.sound.notificationsKey hx hn hid ▸ hunknown

theorem AlikeTo.view (h : AlikeTo group secrets t t') : t.viewOf group = t'.viewOf group := by
  unfold Tables.viewOf
  rw [h.users.seen, h.bookings.seen, h.reviews.seen, h.notifications.seen]

end Alike

section Respects
variable {group : List User} {secrets : Secrets}

/-- A statement is respected when it is accepted alike and its rows stay alike. -/
theorem respects_alike {w : Write}
    (hstale : ∀ s t, Undistinguished group secrets s t → s.stale w = t.stale w)
    (hok : ∀ s t, Undistinguished group secrets s t → Constraints (s.after w) →
      Constraints (t.after w) ∧ s.result w = t.result w ∧
        AlikeTo group secrets (s.after w) (t.after w)) :
    Database.Respects (D := platform) (Undistinguished group secrets) w := by
  intro s t h
  have hsame := hstale s t h
  by_cases hs : s.stale w = true
  · have ht : t.stale w = true := hsame ▸ hs
    exact .inl ⟨.staleDataError, if_pos hs, if_pos ht⟩
  · have ht : ¬ t.stale w = true := hsame ▸ hs
    by_cases hc : Constraints (s.after w)
    · obtain ⟨hc', hresult, hrows⟩ := hok s t h hc
      refine .inr ⟨s.result w, ⟨s.after w, hc⟩, ⟨t.after w, hc'⟩, ?_, ?_, hrows⟩
      · exact (if_neg hs).trans (dif_pos hc)
      · rw [hresult]
        exact (if_neg ht).trans (dif_pos hc')
    · have hc' : ¬ Constraints (t.after w) := fun hc' => hc (hok t s h.symm hc').1
      refine .inl ⟨.integrityError, ?_, ?_⟩
      · exact (if_neg hs).trans (dif_neg hc)
      · exact (if_neg ht).trans (dif_neg hc')

theorem respects_insertBooking (b : Booking) :
    Database.Respects (D := platform) (Undistinguished group secrets) (.insertBooking b) := by
  refine respects_alike (fun _ _ _ => rfl) fun s t h hc => ?_
  obtain ⟨hnew, hcustomer, hprovider, hlt, hne⟩ := constraints_insertBooking_iff.mp hc
  have hopen : ¬ secrets.bookings b.id := by
    intro hsecret
    obtain ⟨x, hx, hid⟩ := h.keptBookings _ hsecret
    exact hnew x hx hid
  refine ⟨constraints_insertBooking ?_ ?_ ?_ hlt hne, rfl, ?_⟩
  · intro x hx hid
    obtain ⟨y, hy, hyid⟩ := (h.booking_exists b.id).mpr ⟨x, hx, hid⟩
    exact hnew y hy hyid
  · exact (h.user_exists _).mp hcustomer
  · exact (h.user_exists _).mp hprovider
  · exact { h with
      bookings := h.bookings.append hopen
      keptBookings := fun id hid => by
        obtain ⟨x, hx, hxid⟩ := h.keptBookings id hid
        exact ⟨x, List.mem_append_left _ hx, hxid⟩ }

theorem AlikeTo.booking?_eq {t t' : Tables} (h : AlikeTo group secrets t t') {id : UUID}
    (hopen : ¬ secrets.bookings id) : t.booking? id = t'.booking? id :=
  h.bookings.find?_open hopen

theorem AlikeTo.review?_eq {t t' : Tables} (h : AlikeTo group secrets t t') {id : UUID}
    (hopen : ¬ secrets.reviews id) : t.review? id = t'.review? id :=
  h.reviews.find?_open hopen

theorem AlikeTo.notification?_eq {t t' : Tables} (h : AlikeTo group secrets t t') {id : UUID}
    (hopen : ¬ secrets.notifications id) : t.notification? id = t'.notification? id :=
  h.notifications.find?_open hopen

theorem respects_updateBooking {id : UUID} (hopen : ¬ secrets.bookings id) (c : BookingChanges) :
    Database.Respects (D := platform) (Undistinguished group secrets) (.updateBooking id c) := by
  refine respects_alike (fun s t h => ?_) fun s t h hc => ⟨?_, rfl, ?_⟩
  · simp only [Tables.stale, h.booking?_eq hopen]
  · rw [constraints_updateBooking_iff] at hc ⊢
    intro b hb hid
    refine hc b (h.bookings.symm.mem hb fun hsecret => hopen ?_) hid
    exact hid ▸ hsecret
  · exact { h with
      bookings := h.bookings.map (fun b => by
        split
        · rfl
        · rfl) fun b hsecret _ => if_neg fun hid : b.id = id => hopen (hid ▸ hsecret)
      keptBookings := fun k hk => by
        obtain ⟨x, hx, hxid⟩ := h.keptBookings k hk
        refine ⟨_, List.mem_map_of_mem hx, ?_⟩
        rw [if_neg]
        · exact hxid
        · exact fun hid => hopen (hid ▸ hxid ▸ hk) }

theorem constraints_insertReview_iff {s : Store} {r : Review} :
    Constraints (s.after (.insertReview r)) ↔
      (∀ x ∈ s.reviews, x.id ≠ r.id) ∧ (∀ x ∈ s.reviews, x.bookingId ≠ r.bookingId) ∧
        (∃ b ∈ s.bookings, b.id = r.bookingId) ∧ (∃ u ∈ s.users, u.id = r.customerId) ∧
          (∃ u ∈ s.users, u.id = r.providerId) ∧ 1 ≤ r.rating ∧ r.rating ≤ 5 := by
  constructor
  · intro h
    have hr : r ∈ (s.after (.insertReview r)).reviews :=
      List.mem_append_right _ List.mem_cons_self
    have apart : ∀ key : Review → UUID, ((s.after (.insertReview r)).reviews.map key).Nodup →
        ∀ x ∈ s.reviews, key x ≠ key r := by
      intro key hkeys x hx
      change ((s.reviews ++ [r]).map key).Nodup at hkeys
      rw [List.map_append, List.nodup_append] at hkeys
      exact hkeys.2.2 _ (List.mem_map_of_mem hx) _ (List.mem_singleton.mpr rfl)
    exact ⟨apart Review.id h.reviewsKey, apart Review.bookingId h.reviewsBookingUnique,
      h.reviewsBooking r hr, h.reviewsCustomer r hr, h.reviewsProvider r hr,
      h.checkReviewRatingRange r hr⟩
  · intro ⟨hnew, hfirst, hbooking, hcustomer, hprovider, hrating⟩
    exact constraints_insertReview hnew hfirst hbooking hcustomer hprovider hrating

theorem respects_insertReview (r : Review) :
    Database.Respects (D := platform) (Undistinguished group secrets) (.insertReview r) := by
  refine respects_alike (fun _ _ _ => rfl) fun s t h hc => ?_
  obtain ⟨hnew, hfirst, hbooking, hcustomer, hprovider, hrating⟩ :=
    constraints_insertReview_iff.mp hc
  have hopen : ¬ secrets.reviews r.id := by
    intro hsecret
    obtain ⟨x, hx, hid⟩ := h.keptReviews _ hsecret
    exact hnew x hx hid
  refine ⟨constraints_insertReview ?_ ?_ ?_ ?_ ?_ hrating, rfl, ?_⟩
  · intro x hx hid
    obtain ⟨y, hy, hyid⟩ := (h.review_exists r.id).mpr ⟨x, hx, hid⟩
    exact hnew y hy hyid
  · intro x hx hid
    obtain ⟨y, hy, hyid⟩ := (h.reviews.exists_iff (P := fun x => x.bookingId = r.bookingId)
      fun a b hab ha => (congrArg ReviewOutline.bookingId hab).symm.trans ha).mpr ⟨x, hx, hid⟩
    exact hfirst y hy hyid
  · exact (h.booking_exists _).mp hbooking
  · exact (h.user_exists _).mp hcustomer
  · exact (h.user_exists _).mp hprovider
  · exact { h with
      reviews := h.reviews.append hopen
      keptReviews := fun id hid => by
        obtain ⟨x, hx, hxid⟩ := h.keptReviews id hid
        exact ⟨x, List.mem_append_left _ hx, hxid⟩ }

theorem respects_updateReview {id : UUID} (hopen : ¬ secrets.reviews id) (c : ReviewChanges) :
    Database.Respects (D := platform) (Undistinguished group secrets) (.updateReview id c) := by
  refine respects_alike (fun s t h => ?_) fun s t h hc => ⟨?_, rfl, ?_⟩
  · simp only [Tables.stale, h.review?_eq hopen]
  · refine constraints_updateReview fun r hr hid => ?_
    have hrs : r ∈ s.reviews := h.reviews.symm.mem hr fun hsecret => hopen (by
      rw [← hid]
      exact hsecret)
    refine hc.checkReviewRatingRange (r.patch c) (List.mem_map.mpr ⟨r, hrs, ?_⟩)
    exact if_pos hid
  · exact { h with
      reviews := h.reviews.map (fun r => by
        split
        · rfl
        · rfl) fun r hsecret _ => if_neg fun hid : r.id = id => hopen (hid ▸ hsecret)
      keptReviews := fun k hk => by
        obtain ⟨x, hx, hxid⟩ := h.keptReviews k hk
        refine ⟨_, List.mem_map_of_mem hx, ?_⟩
        rw [if_neg]
        · exact hxid
        · exact fun hid => hopen (hid ▸ hxid ▸ hk) }

theorem respects_deleteReview {id : UUID} (hopen : ¬ secrets.reviews id) :
    Database.Respects (D := platform) (Undistinguished group secrets) (.deleteReview id) := by
  refine respects_alike (fun _ _ _ => rfl) fun s t h _ => ⟨constraints_deleteReview id, rfl, ?_⟩
  exact { h with
    reviews := h.reviews.filter fun a b hab => by
      rw [show a.id = b.id from congrArg ReviewOutline.id hab]
    keptReviews := fun k hk => by
      obtain ⟨x, hx, hxid⟩ := h.keptReviews k hk
      refine ⟨x, List.mem_filter.mpr ⟨hx, decide_eq_true ?_⟩, hxid⟩
      exact fun hid => hopen (hid ▸ hxid ▸ hk) }

theorem after_duplicate {t : Tables} {n : Notification}
    (h : ∃ m ∈ t.notifications, m.SameKey n) : t.after (.insertNotification n) = t :=
  congrArg (fun rows => { t with notifications := rows }) (if_pos h)

theorem after_added {t : Tables} {n : Notification}
    (h : ¬ ∃ m ∈ t.notifications, m.SameKey n) :
    t.after (.insertNotification n) = { t with notifications := t.notifications ++ [n] } :=
  congrArg (fun rows => { t with notifications := rows }) (if_neg h)

theorem respects_insertNotification {n : Notification} {id : UUID} (hn : n.bookingId = some id) :
    Database.Respects (D := platform) (Undistinguished group secrets) (.insertNotification n) := by
  refine respects_alike (fun _ _ _ => rfl) fun s t h hc => ?_
  have hkey : (∃ m ∈ s.notifications, m.SameKey n) ↔ ∃ m ∈ t.notifications, m.SameKey n := by
    refine h.notifications.exists_iff fun a b hab ha => ?_
    obtain ⟨huser, hbooking, hsome, htype⟩ := ha
    have huser' : a.userId = b.userId := congrArg NotificationOutline.userId hab
    have hbooking' : a.bookingId = b.bookingId := congrArg NotificationOutline.bookingId hab
    have htype' : a.type = b.type := congrArg NotificationOutline.type hab
    exact ⟨huser' ▸ huser, hbooking' ▸ hbooking, hbooking' ▸ hsome, htype' ▸ htype⟩
  have hids := h.notification_exists n.id
  refine ⟨?_, if_congr hkey rfl rfl, ?_⟩
  · rw [constraints_insertNotification_iff hn] at hc ⊢
    rcases hc with hdup | ⟨huser, hbooking, hnew⟩
    · exact .inl (hkey.mp hdup)
    · refine .inr ⟨(h.user_exists _).mp huser, (h.booking_exists _).mp hbooking, ?_⟩
      intro m hm hid
      obtain ⟨x, hx, hxid⟩ := hids.mpr ⟨m, hm, hid⟩
      exact hnew x hx hxid
  · by_cases hdup : ∃ m ∈ s.notifications, m.SameKey n
    · rw [after_duplicate hdup, after_duplicate (hkey.mp hdup)]
      exact h
    · have hopen : ¬ secrets.notifications n.id := by
        intro hsecret
        obtain ⟨x, hx, hid⟩ := h.keptNotifications _ hsecret
        rcases (constraints_insertNotification_iff hn).mp hc with hdup' | ⟨_, _, hnew⟩
        · exact hdup hdup'
        · exact hnew x hx hid
      rw [after_added hdup, after_added fun hdup' => hdup (hkey.mpr hdup')]
      exact { h with
        notifications := h.notifications.append hopen
        keptNotifications := fun k hk => by
          obtain ⟨x, hx, hxid⟩ := h.keptNotifications k hk
          exact ⟨x, List.mem_append_left _ hx, hxid⟩ }

/-- Marking as read, of rows that are not secret. -/
theorem AlikeTo.acknowledge {t t' : Tables} (h : AlikeTo group secrets t t')
    {which : Notification → Bool} {readAt : Time}
    (hwhich : ∀ n, which n = true → secrets.notifications n.id →
      (notificationVeil group).known n) :
    AlikeTo group secrets
      { t with notifications := BookingPlatform.acknowledge t.notifications which readAt }
      { t' with notifications := BookingPlatform.acknowledge t'.notifications which readAt } :=
  { h with
    notifications := h.notifications.map (fun n => by
      split
      · rfl
      · rfl) fun n hsecret hunknown => if_neg fun hw => hunknown (hwhich n hw hsecret)
    keptNotifications := fun k hk => by
      obtain ⟨x, hx, hxid⟩ := h.keptNotifications k hk
      refine ⟨_, List.mem_map_of_mem hx, ?_⟩
      split
      · exact hxid
      · exact hxid }

theorem respects_readNotification {id : UUID} (hopen : ¬ secrets.notifications id)
    (readAt : Time) :
    Database.Respects (D := platform) (Undistinguished group secrets)
      (.readNotification id readAt) := by
  refine respects_alike (fun s t h => ?_)
    fun s t h _ => ⟨constraints_readNotification id readAt, rfl, ?_⟩
  · simp only [Tables.stale, h.notification?_eq hopen]
  · have hacknowledge : ∀ t : Tables, t.after (.readNotification id readAt) = { t with
        notifications := BookingPlatform.acknowledge t.notifications (fun m => m.id = id)
          readAt } := by
      intro t
      simp only [Tables.after, BookingPlatform.acknowledge, decide_eq_true_eq]
    rw [hacknowledge, hacknowledge]
    refine h.acknowledge fun n hn hsecret => ?_
    exact absurd (of_decide_eq_true hn ▸ hsecret) hopen

theorem respects_readAllNotifications {u : User} (hu : u ∈ group) (readAt : Time) :
    Database.Respects (D := platform) (Undistinguished group secrets)
      (.readAllNotifications u.id readAt) := by
  have hown : ∀ n, Tables.unreadOf u.id n = true → (notificationVeil group).known n := by
    intro n hn
    unfold Tables.unreadOf at hn
    exact ⟨u, hu, by simpa using (Bool.and_eq_true_iff.mp hn).1⟩
  refine respects_alike (fun _ _ _ => rfl) fun s t h _ => ⟨?_, ?_, ?_⟩
  · exact constraints_acknowledge t.sound (Tables.unreadOf u.id) readAt
  · change s.notifications.countP _ = t.notifications.countP _
    rw [List.countP_eq_length_filter, List.countP_eq_length_filter,
      h.notifications.filter_eq hown]
  · exact h.acknowledge fun n hn _ => hown n hn

end Respects

end BookingPlatform
