import BookingPlatform.Company
import BookingPlatform.ReadState

/-!
# Which statements can be refused

What a guard has checked need not hold any more when the statement it guards is sent. A
notification about a booking that was loaded goes through all the same, and so does a
cancellation; a PATCH is refused only if somebody else moves the booking.
-/

namespace BookingPlatform

set_option autoImplicit false

open Transact Transact.Program

section Races
variable {ι : Type} (events : ι → Event)

/-- The races that reach their client as an internal error, and an error of bcrypt. -/
inductive Raced (i : ι) : Error → Prop
  | moved {amb : Ambient} {caller bookingId : UUID} {u : BookingUpdate} {j : ι}
    (h : events i = .request amb caller (.updateBooking bookingId u)) (hmoves : u.Moves)
    (hj : j ≠ i) (hother : (events j).Moves bookingId) : Raced i .integrityError
  | revised {amb : Ambient} {caller reviewId : UUID} {u : ReviewUpdate} {e : Error}
    (h : events i = .request amb caller (.updateReview reviewId u))
    (hgone : Withdrawable events reviewId)
    (he : e = .staleDataError ∨ e = .invalidRequestError) : Raced i e
  | reviewed {amb : Ambient} {caller : UUID} {reviewIn : ReviewCreate}
    (h : events i = .request amb caller (.createReview reviewIn))
    (hgone : Withdrawable events amb.uuid4) : Raced i .invalidRequestError
  | unhashed {amb : Ambient} {userIn : UserRegister} {e : Error}
    (h : events i = .register amb userIn) (he : amb.hashpw userIn.password = .error e) :
    Raced i e

/-- An answer to the client, or one of those races. -/
def Expected (i : ι) (e : Error) : Prop :=
  (∃ code detail, e = .httpException code detail) ∨ Raced events i e

theorem expected_http (i : ι) (code : Nat) (detail : String) :
    Expected events i (http code detail) := .inl ⟨code, detail, rfl⟩

end Races

section Constraints
variable {s : Store}

theorem constraints_updateReview {id : UUID} {c : ReviewChanges}
    (hrating : ∀ r ∈ s.reviews, r.id = id → 1 ≤ (r.patch c).rating ∧ (r.patch c).rating ≤ 5) :
    Constraints (s.after (.updateReview id c)) := by
  have hrows : (s.after (.updateReview id c)).reviews =
      s.reviews.map fun r => if r.id = id then r.patch c else r := rfl
  have each : ∀ {P : Review → Prop}, (∀ r ∈ s.reviews, P r) →
      (∀ r ∈ s.reviews, r.id = id → P r → P (r.patch c)) →
      ∀ r ∈ (s.after (.updateReview id c)).reviews, P r := by
    intro P hs hpatch r hr
    rw [hrows] at hr
    obtain ⟨x, hx, rfl⟩ := List.mem_map.mp hr
    split
    · exact hpatch x hx ‹_› (hs x hx)
    · exact hs x hx
  have hsame : ∀ key : Review → UUID, (∀ r, key (r.patch c) = key r) →
      (s.after (.updateReview id c)).reviews.map key = s.reviews.map key := by
    intro key hkey
    rw [hrows, List.map_map]
    refine List.map_congr_left fun r _ => ?_
    simp only [Function.comp]
    split
    · exact hkey r
    · rfl
  exact { s.sound with
    reviewsKey := hsame Review.id (fun _ => rfl) ▸ s.sound.reviewsKey
    reviewsBookingUnique := hsame Review.bookingId (fun _ => rfl) ▸ s.sound.reviewsBookingUnique
    reviewsBooking := each s.sound.reviewsBooking fun r _ _ h => h
    reviewsCustomer := each s.sound.reviewsCustomer fun r _ _ h => h
    reviewsProvider := each s.sound.reviewsProvider fun r _ _ h => h
    checkReviewRatingRange := each s.sound.checkReviewRatingRange fun r hr hid _ =>
      hrating r hr hid }

/-- A revision writes a rating of the payload, or none. -/
theorem constraints_revise (id : UUID) {r : Review} (u : ReviewUpdate) :
    Constraints (s.after (.updateReview id (r.changes (r.revised u)))) := by
  refine constraints_updateReview fun x hx _ => ?_
  have hbounds := s.sound.checkReviewRatingRange x hx
  unfold Review.patch Review.changes Review.revised changed
  dsimp only
  split
  · exact hbounds
  · rename_i hchanged
    cases hrating : u.rating with
    | none =>
      rw [hrating] at hchanged
      exact absurd rfl hchanged
    | some rating => exact u.ratingRange rating hrating

theorem stale_refused {w : Write} {e : Error} (hstale : s.stale w = true)
    (h : platform.applyAll [w] s = .error e) : e = .staleDataError := by
  have happ : s.apply w = .error .staleDataError := if_pos hstale
  simp only [Database.applyAll] at h
  rw [happ] at h
  exact (Except.error.inj h).symm

theorem constraints_deleteReview (id : UUID) : Constraints (s.after (.deleteReview id)) := by
  have hsub : List.Sublist (s.after (.deleteReview id)).reviews s.reviews := List.filter_sublist
  exact { s.sound with
    reviewsKey := s.sound.reviewsKey.sublist (hsub.map _)
    reviewsBookingUnique := s.sound.reviewsBookingUnique.sublist (hsub.map _)
    reviewsBooking := fun r hr => s.sound.reviewsBooking r (hsub.subset hr)
    reviewsCustomer := fun r hr => s.sound.reviewsCustomer r (hsub.subset hr)
    reviewsProvider := fun r hr => s.sound.reviewsProvider r (hsub.subset hr)
    checkReviewRatingRange := fun r hr => s.sound.checkReviewRatingRange r (hsub.subset hr) }

theorem constraints_readNotification (id : UUID) (readAt : Time) :
    Constraints (s.after (.readNotification id readAt)) := by
  have hafter : s.after (.readNotification id readAt) = { s.toTables with
      notifications := acknowledge s.notifications (fun m => m.id = id) readAt } := by
    simp only [Tables.after, acknowledge, decide_eq_true_eq]
  rw [hafter]
  exact constraints_acknowledge s.sound _ readAt

end Constraints

section Helpers
variable {α : Type} {H : Client platform → Store → Prop} {E : Error → Prop} {c : Client platform}

theorem failsOnly_getOr404 {row : Service (Option α)} {detail : String}
    {Q : α → Client platform → Prop} (hE : E (http 404 detail))
    (h : row.FailsOnly H E c fun o d => ∀ a, o = some a → Q a d) :
    (getOr404 row detail).FailsOnly H E c Q := by
  refine failsOnly_bind (h.mono fun o d ho => ?_)
  cases o with
  | none => exact hE
  | some a => exact ho a rfl

theorem failsOnly_refresh {row : Service (Option α)} {Q : α → Client platform → Prop}
    (h : row.FailsOnly H E c fun o d => (o = none → E .invalidRequestError) ∧
      ∀ a, o = some a → Q a d) :
    (refresh row).FailsOnly H E c Q := by
  refine failsOnly_bind (h.mono fun o d ho => ?_)
  cases o with
  | none => exact ho.1 rfl
  | some a => exact ho.2 a rfl

theorem failsOnly_getUser {id : UUID} {Q : Option User → Client platform → Prop}
    (h : ∀ s, H c s → ∀ o, (platform.view c.pending s).user? id = o →
      Q o (c.learn (.user id) o)) : (getUser id).FailsOnly H E c Q :=
  failsOnly_select (D := platform) fun s hs => h s hs _ rfl

theorem failsOnly_getBooking {id : UUID} {Q : Option Booking → Client platform → Prop}
    (h : ∀ s, H c s → ∀ o, (platform.view c.pending s).booking? id = o →
      Q o (c.learn (.booking id) o)) : (getBooking id).FailsOnly H E c Q :=
  failsOnly_select (D := platform) fun s hs => h s hs _ rfl

theorem failsOnly_getReview {id : UUID} {Q : Option Review → Client platform → Prop}
    (h : ∀ s, H c s → ∀ o, (platform.view c.pending s).review? id = o →
      Q o (c.learn (.review id) o)) : (getReview id).FailsOnly H E c Q :=
  failsOnly_select (D := platform) fun s hs => h s hs _ rfl

theorem failsOnly_getNotification {id : UUID} {Q : Option Notification → Client platform → Prop}
    (h : ∀ s, H c s → ∀ o, (platform.view c.pending s).notification? id = o →
      Q o (c.learn (.notification id) o)) : (getNotification id).FailsOnly H E c Q :=
  failsOnly_select (D := platform) fun s hs => h s hs _ rfl

theorem failsOnly_isProviderAvailable {p : UUID} {st en : Time} {x : Option UUID}
    {Q : Bool → Client platform → Prop}
    (h : ∀ o : Option UUID, Q o.isNone (c.learn (.conflict p st en x) o)) :
    (isProviderAvailable p st en x).FailsOnly H E c Q :=
  failsOnly_bind (failsOnly_select (D := platform) fun _ _ => h _)

theorem failsOnly_checkProviderConflict {p : UUID} {st en : Time} {x : Option UUID}
    {Q : Unit → Client platform → Prop} (hE : ∀ code detail, E (http code detail))
    (h : ∀ o : Option UUID, Q () (c.learn (.conflict p st en x) o)) :
    (checkProviderConflict p st en x).FailsOnly H E c Q :=
  failsOnly_bind (failsOnly_isProviderAvailable fun o =>
    failsOnly_refuseIf (fun _ => hE _ _) fun _ => h o)

theorem failsOnly_commitAndRefresh {staged : List Write} {row : Service (Option α)}
    {Q : α → Client platform → Prop}
    (herror : ∀ s, H c s → ∀ e, platform.applyAll (c.pending ++ staged) s = .error e → E e)
    (hrow : row.FailsOnly H E (c.commit staged) fun o d => (o = none → E .invalidRequestError) ∧
      ∀ a, o = some a → Q a d) :
    (commitAndRefresh staged row).FailsOnly H E c Q :=
  failsOnly_tryCatch
    (failsOnly_bind (failsOnly_commitAll (D := platform) (failsOnly_refresh hrow) herror))
    fun _ _ he => failsOnly_rollback_throw he

theorem failsOnly_commitOrRollback {staged : List Write} {Q : Unit → Client platform → Prop}
    (herror : ∀ s, H c s → ∀ e, platform.applyAll (c.pending ++ staged) s = .error e → E e)
    (h : Q () (c.commit staged)) : (commitOrRollback staged).FailsOnly H E c Q :=
  failsOnly_tryCatch (failsOnly_commitAll (D := platform) h herror)
    fun _ _ he => failsOnly_rollback_throw he

/-- A broken constraint is the 409. -/
theorem failsOnly_commitOr409 {staged : List Write} {row : Service (Option α)} {detail : String}
    {Q : α → Client platform → Prop} (hE : E (http 409 detail))
    (herror : ∀ s, H c s → ∀ e, platform.applyAll (c.pending ++ staged) s = .error e →
      e = .integrityError)
    (hrow : row.FailsOnly H E (c.commit staged) fun o d => (o = none → E .invalidRequestError) ∧
      ∀ a, o = some a → Q a d) :
    (commitOr409 staged row detail).FailsOnly H E c Q := by
  have hbody : (commitAll (D := platform) staged >>= fun _ => refresh row).FailsOnly H
      (fun e => e = .integrityError ∨ E e) c Q := by
    refine failsOnly_bind (failsOnly_commitAll (D := platform) ?_ fun s hs e he =>
      .inl (herror s hs e he))
    refine failsOnly_refresh (wpIn_mono hrow fun r d hr => ?_)
    cases r with
    | ok a => exact ⟨fun hnone => .inr (hr.1 hnone), hr.2⟩
    | error e => exact .inr hr
  refine failsOnly_tryCatch hbody fun e d he => ?_
  cases e with
  | integrityError => exact failsOnly_rollback_throw hE
  | _ => exact he.resolve_left nofun

end Helpers

section Room
variable {ι : Type} {events : ι → Event} {s₀ : Store} {text : Text} {i : ι}
  {c d : Client platform} {s v : Store}

/-- There is room for whatever the event draws. -/
structure Roomy (events : ι → Event) (s₀ : Store) (i : ι) (v : Store) : Prop where
  users : ∀ u ∈ v.users, NamesUser events s₀ u.id
  bookings : ∀ b ∈ v.bookings, NamesBooking events s₀ b.id
  notifications : ∀ m ∈ v.notifications,
    (Write.insertNotification m).DrawnBy (events i).ambient ∨
      ∀ u b type, Concerns events s₀ u b → m.id ≠ (events i).ambient.notificationId u b type

/-- A notification that the event may send now. -/
structure Sendable (events : ι → Event) (i : ι) (v : Store) (n : Notification) : Prop where
  drawn : (Write.insertNotification n).DrawnBy (events i).ambient
  user : ∃ u ∈ v.users, u.id = n.userId
  booking : ∃ b ∈ v.bookings, n.bookingId = some b.id

theorem InMidst.roomy (h : InMidst events s₀ text i c s) (hc : c.committed = []) :
    Roomy events s₀ i s where
  users := h.users
  bookings := h.bookings
  notifications := fun m hm => .inr (h.newNotification hc m hm)

theorem Roomy.insert (hdrawn : DrawnAfresh events s₀) (hv : Roomy events s₀ i v)
    {n : Notification} (hn : Sendable events i v n) :
    ∃ t, platform.apply (.insertNotification n) v = .ok (v.result (.insertNotification n), t) ∧
      t.toTables = v.after (.insertNotification n) ∧ Roomy events s₀ i t := by
  have hconcerns : Concerns events s₀ n.userId n.bookingId := by
    obtain ⟨u, hu, huid⟩ := hn.user
    obtain ⟨b, hb, hbid⟩ := hn.booking
    refine ⟨huid ▸ hv.users u hu, fun id hid => ?_⟩
    obtain rfl := Option.some.inj (hbid.symm.trans hid)
    exact hv.bookings b hb
  -- A row of that identifier can only be one the event has sent itself, for the same key.
  have hnew : (∃ m ∈ v.notifications, m.SameKey n) ∨ ∀ m ∈ v.notifications, m.id ≠ n.id := by
    by_contra hnot
    obtain ⟨hdup, hid⟩ := not_or.mp hnot
    refine hid fun m hm heq => ?_
    rcases hv.notifications m hm with hm' | hm'
    · have hids : (events i).ambient.notificationId m.userId m.bookingId m.type =
          (events i).ambient.notificationId n.userId n.bookingId n.type :=
        (Eq.symm hm').trans (heq.trans hn.drawn)
      obtain ⟨_, huser, hbooking, htype⟩ := hdrawn.notificationsApart _ _ _ _ _ _ _ _
        (concerns_row hv.users hv.bookings hm) hconcerns hids
      obtain ⟨b, _, hb⟩ := hn.booking
      refine hdup ⟨m, hm, huser, hbooking, fun hnone => ?_, htype⟩
      rw [hbooking, hb] at hnone
      cases hnone
    · exact hm' _ _ _ hconcerns (heq.trans hn.drawn)
  obtain ⟨t, ht, hrows⟩ := Store.apply_exists (w := .insertNotification n) rfl
    (constraints_insertNotification hn.user hn.booking hnew)
  refine ⟨t, ht, hrows, ?_, ?_, fun m hm => ?_⟩
  · rw [hrows]
    exact hv.users
  · rw [hrows]
    exact hv.bookings
  · rw [hrows] at hm
    rcases mem_addNotification.mp hm with hm | ⟨rfl, _⟩
    · exact hv.notifications m hm
    · exact .inl hn.drawn

theorem Roomy.inserts (hdrawn : DrawnAfresh events s₀) (hv : Roomy events s₀ i v)
    {notes : List Notification} (hnotes : ∀ n ∈ notes, Sendable events i v n) :
    ∃ t, platform.applyAll (inserts notes) v = .ok t ∧ Roomy events s₀ i t := by
  induction notes generalizing v with
  | nil => exact ⟨v, rfl, hv⟩
  | cons n notes ih =>
    obtain ⟨t, ht, hrows, hroomy⟩ := hv.insert hdrawn (hnotes n List.mem_cons_self)
    rw [inserts_cons, applyAll_cons_ok ht]
    refine ih hroomy fun m hm => ?_
    have hm := hnotes m (List.mem_cons_of_mem n hm)
    refine ⟨hm.drawn, ?_, ?_⟩
    · rw [hrows]
      exact hm.user
    · rw [hrows]
      exact hm.booking

/-- What the client may send, as long as its assertion holds. -/
def Licence (events : ι → Event) (s₀ : Store) (text : Text) (i : ι) (c : Client platform)
    (S : Notification → Prop) : Prop :=
  ∀ s, InMidst events s₀ text i c s → ∀ n, S n → Sendable events i s n

theorem Licence.wroteAll {S : Notification → Prop} (h : Licence events s₀ text i c S)
    (ws : List Write) : Licence events s₀ text i (c.wroteAll ws) S :=
  fun s hs => h s (hs.congr rfl rfl)

theorem Licence.learn {S : Notification → Prop} (h : Licence events s₀ text i c S) (q : Query)
    (a : q.Answer) : Licence events s₀ text i (c.learn q a) S :=
  fun s hs => h s hs.forget

/-- A notification of the event about a booking, to one of its parties. -/
structure About (amb : Ambient) (b : Booking) (n : Notification) : Prop where
  drawn : (Write.insertNotification n).DrawnBy amb
  user : n.userId = b.customerId ∨ n.userId = b.providerId
  booking : n.bookingId = some b.id

/-- Who has been told of a booking may send its notifications. -/
theorem sendable_of_same {now b : Booking} (hnow : now ∈ s.bookings) (hsame : b.Same now)
    {n : Notification} (hn : About (events i).ambient b n) : Sendable events i s n where
  drawn := hn.drawn
  user := by
    obtain ⟨_, hcustomer, hprovider⟩ := hsame
    rcases hn.user with huser | huser
    · rw [huser, ← hcustomer]
      exact s.sound.bookingsCustomer now hnow
    · rw [huser, ← hprovider]
      exact s.sound.bookingsProvider now hnow
  booking := ⟨now, hnow, by rw [hn.booking, hsame.1]⟩

theorem licence_of_told {id : UUID} {b : Booking} (h : Told c (.booking id) (some b)) :
    Licence events s₀ text i c (About (events i).ambient b) := by
  intro s hs n hn
  obtain ⟨now, hnow, _, hsame⟩ := h.booking_now hs.facts
  exact sendable_of_same hnow hsame hn

end Room

section Sending
variable {ι : Type} {events : ι → Event} {s₀ : Store} {text : Text} {i : ι}
  (hdrawn : DrawnAfresh events s₀) {c : Client platform} {S : Notification → Prop}
  {E : Error → Prop} {notes : List Notification} {amb : Ambient}

/-- The client has sent notifications only, all of which it may send. -/
structure Sending (events : ι → Event) (s₀ : Store) (text : Text) (i : ι) (c : Client platform)
    (S : Notification → Prop) (notes : List Notification) : Prop where
  pending : c.pending = inserts notes
  none : c.committed = []
  licence : Licence events s₀ text i c S
  notes : ∀ n ∈ notes, S n

theorem Sending.send (h : Sending events s₀ text i c S notes) {more : List Notification}
    (hmore : ∀ n ∈ more, S n) :
    Sending events s₀ text i (c.wroteAll (inserts more)) S (notes ++ more) where
  pending := by rw [Client.wroteAll_pending, h.pending, inserts_append]
  none := h.none
  licence := h.licence.wroteAll _
  notes := fun n hn => (List.mem_append.mp hn).elim (h.notes n) (hmore n)

theorem Sending.learn (h : Sending events s₀ text i c S notes) (q : Query) (a : q.Answer) :
    Sending events s₀ text i (c.learn q a) S notes where
  pending := h.pending
  none := h.none
  licence := h.licence.learn q a
  notes := h.notes

include hdrawn

/-- What has been sent goes through, whatever the others have committed meanwhile. -/
theorem Sending.applyAll (h : Sending events s₀ text i c S notes) {s : Store}
    (hs : InMidst events s₀ text i c s) :
    ∃ v, platform.applyAll c.pending s = .ok v ∧ Roomy events s₀ i v ∧
      v.toTables = { s.toTables with
        notifications := addNotifications s.notifications notes } := by
  obtain ⟨v, hv, hroomy⟩ := (hs.roomy h.none).inserts hdrawn fun n hn =>
    h.licence s hs n (h.notes n hn)
  refine ⟨v, h.pending ▸ hv, hroomy, ?_⟩
  rw [tables_of_applyAll hv, Tables.afterAll_inserts]

theorem failsOnly_createNotification (h : Sending events s₀ text i c S notes) {userId : UUID}
    {bookingId : Option UUID} {type : NotificationType} {title message : String}
    (hn : S (amb.notification userId bookingId type title message))
    {Q : Option Notification → Client platform → Prop}
    (hQ : ∀ r, Q r (c.wroteAll (inserts [amb.notification userId bookingId type title message]))) :
    (createNotification amb userId bookingId type title message).FailsOnly
      (InMidst events s₀ text i) E c Q := by
  refine failsOnly_send (D := platform) hQ fun s hs e he => ?_
  obtain ⟨v, hv, hroomy, hrows⟩ := h.applyAll hdrawn hs
  rw [Database.view_of_applyAll hv] at he
  have hsend := h.licence s hs _ hn
  have hsend' : Sendable events i v (amb.notification userId bookingId type title message) := by
    refine ⟨hsend.drawn, ?_, ?_⟩
    · rw [hrows]
      exact hsend.user
    · rw [hrows]
      exact hsend.booking
  obtain ⟨t, ht, _⟩ := hroomy.insert hdrawn hsend'
  rw [ht] at he
  cases he

theorem failsOnly_notifyCancelled (h : Sending events s₀ text i c S notes) {b : Booking}
    {userId : UUID} (hn : S (cancelledNote amb b userId)) {Q : Unit → Client platform → Prop}
    (hQ : Q () (c.wroteAll (inserts [cancelledNote amb b userId]))) :
    (notifyCancelled amb b userId).FailsOnly (InMidst events s₀ text i) E c Q :=
  failsOnly_bind (failsOnly_createNotification hdrawn h hn fun _ => hQ)

theorem failsOnly_notifyCancellation (h : Sending events s₀ text i c S notes) {b : Booking}
    {actor : User} (hcustomer : S (cancelledNote amb b b.customerId))
    (hprovider : S (cancelledNote amb b b.providerId)) {Q : Unit → Client platform → Prop}
    (hQ : Q () (c.wroteAll (inserts (cancellationNotes amb b actor)))) :
    (notifyCancellation amb b actor).FailsOnly (InMidst events s₀ text i) E c Q := by
  refine failsOnly_bind ?_
  unfold cancellationNotes at hQ
  refine failsOnly_runIf (fun hcust => ?_) fun hcust => ?_
  · rw [if_pos hcust] at hQ
    refine failsOnly_notifyCancelled hdrawn h hcustomer ?_
    have h' : Sending events s₀ text i (c.wroteAll (inserts [cancelledNote amb b b.customerId])) S
        (notes ++ [cancelledNote amb b b.customerId]) :=
      h.send fun n hn => List.mem_singleton.mp hn ▸ hcustomer
    refine failsOnly_runIf (fun hprov => ?_) fun hprov => ?_
    · rw [if_pos hprov, inserts_append, ← Client.wroteAll_wroteAll] at hQ
      exact failsOnly_notifyCancelled hdrawn h' hprovider hQ
    · rw [if_neg hprov, List.append_nil] at hQ
      exact hQ
  · rw [if_neg hcust, List.nil_append] at hQ
    refine failsOnly_runIf (fun hprov => ?_) fun hprov => ?_
    · rw [if_pos hprov] at hQ
      exact failsOnly_notifyCancelled hdrawn h hprovider hQ
    · rw [if_neg hprov, wroteAll_inserts_nil] at hQ
      exact hQ

end Sending

section Editing
variable {ι : Type} {events : ι → Event} {s₀ : Store} {text : Text} {i : ι}
  (hdrawn : DrawnAfresh events s₀) {c : Client platform} {E : Error → Prop}
  {notes : List Notification} {amb : Ambient} {b : Booking}

/-- Whatever the transition is refused for is an HTTP error. -/
theorem validateStatusTransition_error {current target : BookingStatus} {role : UserRole}
    {e : Error} (h : validateStatusTransition current target role = .error e) :
    ∃ code detail, e = http code detail := by
  unfold validateStatusTransition at h
  split at h
  · split at h <;> cases h <;> exact ⟨_, _, rfl⟩
  split at h
  · split at h <;> cases h <;> exact ⟨_, _, rfl⟩
  split at h
  · cases h
  split at h
  · cases h
    exact ⟨_, _, rfl⟩
  split at h
  · split at h <;> cases h <;> exact ⟨_, _, rfl⟩
  · cases h

theorem terminalError_http (booking : Booking) (target : Option BookingStatus) (role : UserRole) :
    ∃ code detail, terminalError booking target role = http code detail := by
  unfold terminalError
  cases target with
  | none => exact ⟨_, _, rfl⟩
  | some target =>
    dsimp only
    split
    · rename_i e he
      exact validateStatusTransition_error he
    · exact ⟨_, _, rfl⟩

theorem about_cancellation (actor : User) :
    ∀ n ∈ cancellationNotes amb b.cancelled actor, About amb b n := by
  intro n hn
  rcases mem_cancellationNotes hn with rfl | rfl
  · exact ⟨rfl, .inl rfl, rfl⟩
  · exact ⟨rfl, .inr rfl, rfl⟩

theorem about_transition {status : BookingStatus} {actor : User} {n : Notification}
    (hn : n ∈ transitionNotes amb { b with status := status } actor) : About amb b n := by
  unfold transitionNotes at hn
  cases status with
  | pending => cases hn
  | confirmed =>
    obtain rfl := List.mem_singleton.mp hn
    exact ⟨rfl, .inl rfl, rfl⟩
  | completed =>
    obtain rfl := List.mem_singleton.mp hn
    exact ⟨rfl, .inl rfl, rfl⟩
  | cancelled => exact about_cancellation actor n hn

include hdrawn

theorem failsOnly_notifyTransition (h : Sending events s₀ text i c (About amb b) notes)
    {status : BookingStatus} {actor : User} {Q : Unit → Client platform → Prop}
    (hQ : Q () (c.wroteAll (inserts (transitionNotes amb { b with status := status } actor)))) :
    (notifyTransition amb { b with status := status } actor).FailsOnly
      (InMidst events s₀ text i) E c Q := by
  unfold notifyTransition
  unfold transitionNotes at hQ
  cases status with
  | pending =>
    rw [wroteAll_inserts_nil] at hQ
    exact hQ
  | confirmed =>
    exact failsOnly_bind (failsOnly_createNotification hdrawn h ⟨rfl, .inl rfl, rfl⟩ fun _ => hQ)
  | completed =>
    exact failsOnly_bind (failsOnly_createNotification hdrawn h ⟨rfl, .inl rfl, rfl⟩ fun _ => hQ)
  | cancelled =>
    exact failsOnly_notifyCancellation hdrawn h ⟨rfl, .inl rfl, rfl⟩ ⟨rfl, .inr rfl, rfl⟩ hQ

theorem failsOnly_stageStatus (h : Sending events s₀ text i c (About amb b) [])
    (hE : ∀ code detail, E (http code detail)) {target : Option BookingStatus} {actor : User}
    {Q : Booking → Client platform → Prop}
    (hQ : ∀ notes, Sending events s₀ text i (c.wroteAll (inserts notes)) (About amb b) notes →
      Q { b with status := target.getD b.status } (c.wroteAll (inserts notes))) :
    (stageStatus amb b target actor).FailsOnly (InMidst events s₀ text i) E c Q := by
  have hkeep := hQ [] (h.send fun _ hn => absurd hn List.not_mem_nil)
  rw [wroteAll_inserts_nil] at hkeep
  unfold stageStatus
  cases target with
  | none => exact hkeep
  | some target =>
    dsimp only
    split
    · rename_i heq
      subst heq
      exact hkeep
    · refine failsOnly_bind (failsOnly_ofExcept (fun _ _ => ?_) fun e he => ?_)
      · exact failsOnly_bind (failsOnly_notifyTransition hdrawn h
          (hQ _ (h.send fun _ hn => about_transition hn)))
      · obtain ⟨code, detail, rfl⟩ := validateStatusTransition_error he
        exact hE code detail

omit hdrawn in
theorem failsOnly_stageSchedule {H : Client platform → Store → Prop} {staged : Booking}
    (hE : ∀ code detail, E (http code detail)) {st en : Option Time}
    {Q : Booking → Client platform → Prop} (hkeep : st = none → en = none → Q staged c)
    (hmove : st.getD staged.startTime < en.getD staged.endTime → ∀ o,
      Q { staged with
          startTime := st.getD staged.startTime
          endTime := en.getD staged.endTime }
        (c.learn (.conflict staged.providerId (st.getD staged.startTime)
          (en.getD staged.endTime) (some staged.id)) o)) :
    (stageSchedule staged st en).FailsOnly H E c Q := by
  unfold stageSchedule
  split
  · rename_i hnone
    exact hkeep hnone.1 hnone.2
  · refine failsOnly_bind (failsOnly_refuseIf (fun _ => hE _ _) fun hlt => ?_)
    exact failsOnly_bind (failsOnly_checkProviderConflict hE fun o => hmove (not_le.mp hlt) o)

/-- The only way an UPDATE can fail: the row has moved, and the columns written no longer fit. -/
theorem edit_refused {id : UUID} {b' : Booking}
    (h : Sending events s₀ text i c (About amb b) notes) (htold : Told c (.booking id) (some b))
    {s : Store} (hs : InMidst events s₀ text i c s) {e : Error}
    (he : platform.applyAll (c.pending ++ [.updateBooking id (b.changes b')]) s = .error e) :
    e = .integrityError ∧ ∃ now ∈ s.bookings, now.id = id ∧ Undisturbed events i b now ∧
      ¬ (now.patch (b.changes b')).startTime < (now.patch (b.changes b')).endTime := by
  obtain ⟨now, hnow, hid, hundisturbed⟩ := htold.remains (hs.times h.none)
  obtain ⟨v, hv, _, hrows⟩ := h.applyAll hdrawn hs
  have hbookings : v.bookings = s.bookings := by rw [hrows]
  rw [Database.applyAll_append, hv] at he
  have hrow : v.booking? id = some now := by
    rw [v.booking?_eq_some, hbookings]
    exact ⟨hnow, hid⟩
  have hstale : v.stale (.updateBooking id (b.changes b')) = false := by
    simp [Tables.stale, hrow]
  obtain ⟨rfl, hbroken⟩ := broken_of_refused hstale he
  refine ⟨rfl, now, hnow, hid, hundisturbed, fun hlt => hbroken ?_⟩
  refine constraints_updateBooking fun x hx hxid => ?_
  rw [hbookings] at hx
  obtain rfl := s.booking_unique hx hnow (hxid.trans hid.symm)
  exact hlt

omit hdrawn in
theorem patch_timesKept (now : Booking) {changes : BookingChanges} (h : TimesKept changes) :
    (now.patch changes).startTime = now.startTime ∧ (now.patch changes).endTime = now.endTime := by
  unfold Booking.patch
  rw [h.1, h.2]
  exact ⟨rfl, rfl⟩

omit hdrawn in
theorem refresh_booking {H : Client platform → Store → Prop} {id : UUID} (hp : c.pending = [])
    (h : ∀ s, H c s → ∃ b ∈ s.bookings, b.id = id) :
    (getBooking id).FailsOnly H E c fun o _ => (o = none → E .invalidRequestError) ∧
      ∀ a, o = some a → True := by
  refine failsOnly_getBooking fun s hs o ho => ⟨?_, fun _ _ => trivial⟩
  rintro rfl
  rw [hp] at ho
  obtain ⟨b, hb, hid⟩ := h s hs
  exact absurd hid (s.booking?_eq_none.mp ho b hb)

/-- A cancellation writes the status only, and is never refused. -/
theorem cancellation_goes {id : UUID} (h : Sending events s₀ text i c (About amb b) notes)
    (htold : Told c (.booking id) (some b)) {s : Store} (hs : InMidst events s₀ text i c s)
    {e : Error} :
    platform.applyAll (c.pending ++ [.updateBooking id (b.changes b.cancelled)]) s ≠ .error e := by
  intro he
  obtain ⟨_, now, hnow, _, _, hnot⟩ := edit_refused hdrawn h htold hs he
  obtain ⟨hstart, hend⟩ := patch_timesKept now (timesKept_cancelled b)
  rw [hstart, hend] at hnot
  exact hnot (s.sound.checkBookingEndAfterStart now hnow)

/-- A PATCH is refused only if somebody else was asked to move the booking. -/
theorem edit_raced {amb' : Ambient} {caller id : UUID} {u : BookingUpdate} {b' : Booking}
    (hi : events i = .request amb' caller (.updateBooking id u)) (hkey : b.id = id)
    (hb' : b'.startTime < b'.endTime) (hkept : ¬ u.Moves → TimesKept (b.changes b'))
    (h : Sending events s₀ text i c (About amb b) notes) (htold : Told c (.booking id) (some b))
    {s : Store} (hs : InMidst events s₀ text i c s) {e : Error}
    (he : platform.applyAll (c.pending ++ [.updateBooking id (b.changes b')]) s = .error e) :
    Expected events i e := by
  obtain ⟨rfl, now, hnow, hid, hundisturbed, hnot⟩ := edit_refused hdrawn h htold hs he
  by_cases hmoves : u.Moves
  · rcases hundisturbed.2 with ⟨hstart, hend⟩ | ⟨j, hj, hother⟩
    · refine absurd ?_ hnot
      unfold Booking.patch Booking.changes
      dsimp only
      rw [hstart, hend, changed_getD, changed_getD]
      exact hb'
    · exact .inr (.moved hi hmoves hj (hkey ▸ hother))
  · obtain ⟨hstart, hend⟩ := patch_timesKept now (hkept hmoves)
    rw [hstart, hend] at hnot
    exact absurd (s.sound.checkBookingEndAfterStart now hnow) hnot

theorem commit_edit_fails {amb' : Ambient} {caller id : UUID} {u : BookingUpdate} {b' : Booking}
    (hi : events i = .request amb' caller (.updateBooking id u)) (hkey : b.id = id)
    (hb' : b'.startTime < b'.endTime) (hkept : ¬ u.Moves → TimesKept (b.changes b'))
    (h : Sending events s₀ text i c (About amb b) notes)
    (htold : Told c (.booking id) (some b)) :
    (commitAndRefresh [.updateBooking id (b.changes b')] (getBooking id)).FailsOnly
      (InMidst events s₀ text i) (Expected events i) c fun _ _ => True := by
  refine failsOnly_commitAndRefresh (fun s hs e he => ?_) (refresh_booking rfl fun s hs => ?_)
  · exact edit_raced hdrawn hi hkey hb' hkept h htold hs he
  · have hlog : Told (c.commit [.updateBooking id (b.changes b')]) (.booking id) (some b) := htold
    obtain ⟨now, hnow, hid, _⟩ := hlog.booking_now hs.facts
    exact ⟨now, hnow, hid⟩

end Editing

end BookingPlatform
