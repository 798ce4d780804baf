import BookingPlatform.Outcomes
import BookingPlatform.Transact.Faults

/-!
# A database that fails once

Where in a request one statement may fail without an error being reported for a change
that was made: anywhere but in the `db.refresh` that follows the commit of a change.
-/

namespace BookingPlatform

set_option autoImplicit false

open Transact Transact.Program

/-- Nothing is committed but `s`, and the session has touched notifications only. -/
structure Sees (s : Store) (σ : Session platform) : Prop where
  committed : σ.committed = s
  users : σ.working.users = s.users
  bookings : σ.working.bookings = s.bookings
  reviews : σ.working.reviews = s.reviews

section Helpers
variable {α : Type} {s : Store} {σ : Session platform}

theorem sees_fresh (s : Store) : Sees s (.fresh s) := ⟨rfl, rfl, rfl, rfl⟩

theorem orderly_getOr404 {row : Service (Option α)} {detail : String}
    {Q : α → Session platform → Prop}
    (h : row.Orderly s σ fun o τ => τ.committed = s ∧ ∀ a, o = some a → Q a τ) :
    (getOr404 row detail).Orderly s σ Q := by
  refine orderly_bind (orderly_mono h fun o τ ho => ?_)
  cases o with
  | none => exact ho.1
  | some a => exact ho.2 a rfl

/-- After a commit only a row that is there is read without an error. -/
theorem orderly_refresh {row : Service (Option α)}
    (h : row.Orderly s σ fun o _ => ∃ a, o = some a) :
    (refresh row).Orderly s σ fun _ _ => True := by
  refine orderly_bind (orderly_mono h fun o τ ho => ?_)
  obtain ⟨a, rfl⟩ := ho
  trivial

theorem orderly_commitAndRefresh {staged : List Write} {row : Service (Option α)}
    (hσ : σ.committed = s) (h : ∀ t, platform.applyAll staged σ.working = .ok t →
      row.Orderly s (.fresh t) fun o _ => ∃ a, o = some a) :
    (commitAndRefresh staged row).Orderly s σ fun _ _ => True :=
  orderly_tryCatch (orderly_bind (orderly_commitAll hσ fun t ht => orderly_refresh (h t ht)))
    fun e => Raises.rollback_throw e

theorem orderly_commitOr409 {staged : List Write} {row : Service (Option α)} {detail : String}
    (hσ : σ.committed = s) (h : ∀ t, platform.applyAll staged σ.working = .ok t →
      row.Orderly s (.fresh t) fun o _ => ∃ a, o = some a) :
    (commitOr409 staged row detail).Orderly s σ fun _ _ => True := by
  refine orderly_tryCatch
    (orderly_bind (orderly_commitAll hσ fun t ht => orderly_refresh (h t ht))) fun e => ?_
  cases e <;> trivial

theorem orderly_createNotification {amb : Ambient} {userId : UUID} {bookingId : Option UUID}
    {type : NotificationType} {title message : String}
    {Q : Option Notification → Session platform → Prop} (hσ : Sees s σ)
    (h : ∀ r τ, Sees s τ → Q r τ) :
    (createNotification amb userId bookingId type title message).Orderly s σ Q := by
  refine orderly_send (D := platform) hσ.committed fun r t ht => h r _ ?_
  have ht : Store.apply (.insertNotification _) σ.working = .ok (r, t) := ht
  have htables := (Store.apply_ok ht).1
  exact ⟨hσ.committed, by rw [htables]; exact hσ.users, by rw [htables]; exact hσ.bookings,
    by rw [htables]; exact hσ.reviews⟩

theorem orderly_notifyCancelled {amb : Ambient} {b : Booking} {userId : UUID}
    {Q : Unit → Session platform → Prop} (hσ : Sees s σ) (h : ∀ τ, Sees s τ → Q () τ) :
    (notifyCancelled amb b userId).Orderly s σ Q :=
  orderly_bind (orderly_createNotification hσ fun _ τ hτ => h τ hτ)

theorem orderly_notifyCancellation {amb : Ambient} {b : Booking} {actor : User}
    {Q : Unit → Session platform → Prop} (hσ : Sees s σ) (h : ∀ τ, Sees s τ → Q () τ) :
    (notifyCancellation amb b actor).Orderly s σ Q := by
  have hprovider : ∀ τ, Sees s τ →
      (runIf (actor.id ≠ b.providerId) (notifyCancelled amb b b.providerId)).Orderly s τ Q :=
    fun τ hτ => orderly_runIf (fun _ => orderly_notifyCancelled hτ h) fun _ => h τ hτ
  exact orderly_bind (orderly_runIf (fun _ => orderly_notifyCancelled hσ hprovider)
    fun _ => hprovider σ hσ)

theorem orderly_notifyTransition {amb : Ambient} {b : Booking} {actor : User}
    {Q : Unit → Session platform → Prop} (hσ : Sees s σ) (h : ∀ τ, Sees s τ → Q () τ) :
    (notifyTransition amb b actor).Orderly s σ Q := by
  unfold notifyTransition
  split
  · exact orderly_bind (orderly_createNotification hσ fun _ τ hτ => h τ hτ)
  · exact orderly_bind (orderly_createNotification hσ fun _ τ hτ => h τ hτ)
  · exact orderly_notifyCancellation hσ h
  · exact h σ hσ

theorem orderly_stageStatus {amb : Ambient} {b : Booking} {target : Option BookingStatus}
    {actor : User} {Q : Booking → Session platform → Prop} (hσ : Sees s σ)
    (h : ∀ b τ, Sees s τ → Q b τ) : (stageStatus amb b target actor).Orderly s σ Q := by
  unfold stageStatus
  split
  · exact h _ σ hσ
  · split
    · exact h _ σ hσ
    · refine orderly_bind (orderly_ofExcept hσ.committed fun _ _ => ?_)
      exact orderly_bind (orderly_notifyTransition hσ fun τ hτ => h _ τ hτ)

theorem orderly_checkProviderConflict {p : UUID} {st en : Time} {x : Option UUID}
    {Q : Unit → Session platform → Prop} (hσ : Sees s σ) (h : Q () σ) :
    (checkProviderConflict p st en x).Orderly s σ Q :=
  orderly_bind (orderly_bind (orderly_select (orderly_refuseIf hσ.committed fun _ => h)))

theorem orderly_stageSchedule {b : Booking} {st en : Option Time}
    {Q : Booking → Session platform → Prop} (hσ : Sees s σ) (h : ∀ b, Q b σ) :
    (stageSchedule b st en).Orderly s σ Q := by
  unfold stageSchedule
  split
  · exact h _
  · refine orderly_bind (orderly_refuseIf hσ.committed fun _ => ?_)
    exact orderly_bind (orderly_checkProviderConflict hσ (h _))

end Helpers

section Rows
variable {s : Store} {σ : Session platform}

/-- A booking that was there is there after an UPDATE, of whatever columns. -/
theorem orderly_getBooking_updated {id : UUID} {c : BookingChanges} {t : Store} {b : Booking}
    (hb : b ∈ s.bookings) (hid : b.id = id) (hσ : Sees s σ)
    (ht : platform.applyAll [.updateBooking id c] σ.working = .ok t) :
    (getBooking id).Orderly s (.fresh t) fun o _ => ∃ a, o = some a := by
  refine orderly_select (D := platform) ⟨b.patch c, t.booking?_eq_some.mpr ⟨?_, hid⟩⟩
  rw [tables_of_applyAll ht]
  exact List.mem_map.mpr ⟨b, hσ.bookings ▸ hb, if_pos hid⟩

theorem createBooking_orderly (s : Store) (amb : Ambient) (customerId : UUID)
    (bookingIn : BookingCreate) :
    (createBooking amb customerId bookingIn).Orderly s (.fresh s) fun _ _ => True := by
  have hσ := sees_fresh s
  refine orderly_bind (orderly_refuseIf rfl fun _ => ?_)
  refine orderly_bind (orderly_getOr404 (orderly_select ⟨rfl, fun p _ => ?_⟩))
  refine orderly_bind (orderly_refuseIf rfl fun _ => ?_)
  refine orderly_bind (orderly_checkProviderConflict hσ ?_)
  refine orderly_bind (orderly_send (D := platform) rfl fun _ w hw => ?_)
  refine orderly_bind (orderly_send (D := platform) rfl fun _ u hu => ?_)
  have hw : s.apply (.insertBooking _) = .ok (_, w) := hw
  have hu : w.apply (.insertNotification _) = .ok (_, u) := hu
  refine orderly_commitAndRefresh rfl fun t ht => ?_
  refine orderly_select (D := platform)
    ⟨newBooking amb customerId bookingIn, t.booking?_eq_some.mpr ⟨?_, rfl⟩⟩
  rw [tables_of_applyAll ht, Tables.afterAll_nil, (Store.apply_ok hu).1, Tables.after,
    (Store.apply_ok hw).1]
  exact List.mem_append_right _ List.mem_cons_self

theorem updateBooking_orderly (s : Store) (amb : Ambient) (bookingId : UUID)
    (bookingUpdate : BookingUpdate) (user : User) :
    (updateBooking amb bookingId bookingUpdate user).Orderly s (.fresh s) fun _ _ => True := by
  have hσ := sees_fresh s
  refine orderly_bind (orderly_getOr404 (orderly_select ⟨rfl, fun b hb => ?_⟩))
  obtain ⟨hb, hid⟩ := s.booking?_eq_some.mp hb
  refine orderly_bind (orderly_refuseIf rfl fun _ => ?_)
  refine orderly_bind (orderly_refuseIf rfl fun _ => ?_)
  refine orderly_bind (orderly_stageStatus hσ fun _ τ hτ => ?_)
  refine orderly_bind (orderly_stageSchedule hτ fun _ => ?_)
  exact orderly_commitAndRefresh hτ.committed fun t ht => orderly_getBooking_updated hb hid hτ ht

theorem cancelBooking_orderly (s : Store) (amb : Ambient) (bookingId : UUID) (user : User) :
    (cancelBooking amb bookingId user).Orderly s (.fresh s) fun _ _ => True := by
  have hσ := sees_fresh s
  refine orderly_bind (orderly_bind (orderly_getOr404 (orderly_select ⟨rfl, fun b hb => ?_⟩)))
  obtain ⟨hb, hid⟩ := s.booking?_eq_some.mp hb
  split
  · refine orderly_bind (orderly_ofExcept rfl fun _ _ => ?_)
    refine orderly_bind (orderly_notifyCancellation hσ fun τ hτ => ?_)
    exact orderly_commitAndRefresh hτ.committed fun t ht => orderly_getBooking_updated hb hid hτ ht
  · exact rfl

theorem createReview_orderly (s : Store) (amb : Ambient) (user : User) (reviewIn : ReviewCreate) :
    (createReview amb user reviewIn).Orderly s (.fresh s) fun _ _ => True := by
  refine orderly_bind (orderly_refuseIf rfl fun _ => ?_)
  refine orderly_bind (orderly_getOr404 (orderly_select ⟨rfl, fun b _ => ?_⟩))
  refine orderly_bind (orderly_refuseIf rfl fun _ => ?_)
  refine orderly_bind (orderly_refuseIf rfl fun _ => ?_)
  refine orderly_bind (orderly_select (orderly_bind (orderly_refuseIf rfl fun _ => ?_)))
  refine orderly_commitOr409 rfl fun t ht => ?_
  refine orderly_select (D := platform)
    ⟨newReview amb b user.id reviewIn, t.review?_eq_some.mpr ⟨?_, rfl⟩⟩
  rw [tables_of_applyAll ht]
  exact List.mem_append_right _ List.mem_cons_self

theorem updateReview_orderly (s : Store) (reviewId : UUID) (reviewUpdate : ReviewUpdate)
    (user : User) :
    (updateReview reviewId reviewUpdate user).Orderly s (.fresh s) fun _ _ => True := by
  refine orderly_bind (orderly_getOr404 (orderly_select ⟨rfl, fun r hr => ?_⟩))
  obtain ⟨hr, hid⟩ := s.review?_eq_some.mp hr
  refine orderly_bind (orderly_refuseIf rfl fun _ => ?_)
  refine orderly_commitAndRefresh rfl fun t ht => ?_
  refine orderly_select (D := platform)
    ⟨r.patch (r.changes (r.revised reviewUpdate)), t.review?_eq_some.mpr ⟨?_, hid⟩⟩
  rw [tables_of_applyAll ht]
  exact List.mem_map.mpr ⟨r, hr, if_pos hid⟩

theorem markNotificationAsRead_orderly (s : Store) (amb : Ambient) (notificationId userId : UUID) :
    (markNotificationAsRead amb notificationId userId).Orderly s (.fresh s) fun _ _ => True := by
  refine orderly_bind (orderly_getOr404 (orderly_select ⟨rfl, fun n hn => ?_⟩))
  obtain ⟨hn, hid⟩ := s.notification?_eq_some.mp hn
  refine orderly_bind (orderly_refuseIf rfl fun _ => ?_)
  split
  · trivial
  · refine orderly_commitAndRefresh rfl fun t ht => ?_
    refine orderly_select (D := platform) ⟨{ n with isRead := true, readAt := some amb.now },
      t.notification?_eq_some.mpr ⟨?_, hid⟩⟩
    rw [tables_of_applyAll ht]
    exact List.mem_map.mpr ⟨n, hn, if_pos hid⟩

theorem registerUser_orderly (s : Store) (amb : Ambient) (userIn : UserRegister) :
    (registerUser amb userIn).Orderly s (.fresh s) fun _ _ => True := by
  refine orderly_bind (orderly_bind (orderly_select ?_))
  generalize platform.answer _ _ = rows
  have hrest : ∀ existing : Option User,
      (refuseIf existing.isSome (http 409 "A user with this email address already exists") >>=
        fun _ => hashPassword amb userIn.password >>= fun hashedPw =>
          commitOr409 [.insertUser (newUser amb userIn hashedPw)] (getUser amb.uuid4)
            "A user with this email address already exists").Orderly s (.fresh s)
        fun _ _ => True := by
    intro existing
    refine orderly_bind (orderly_refuseIf rfl fun _ => ?_)
    refine orderly_bind (orderly_ofExcept rfl fun hashedPw _ => ?_)
    refine orderly_commitOr409 rfl fun t ht => ?_
    refine orderly_select (D := platform)
      ⟨newUser amb userIn hashedPw, t.user?_eq_some.mpr ⟨?_, rfl⟩⟩
    rw [tables_of_applyAll ht]
    exact List.mem_append_right _ List.mem_cons_self
  match rows with
  | [] => exact hrest none
  | [u] => exact hrest (some u)
  | u :: v :: us => exact rfl

end Rows

section Example

/-- Alice asks for an hour, and the SELECT of `db.refresh` fails. -/
def refreshFails : Except Error Booking × Session platform :=
  (createBooking (sampleAmbient 0 10) alice.id
    (slotOf (10 * hour) (11 * hour) (by decide))).execFault Error.operationalError 5
      (.fresh newPlatform)

end Example

end BookingPlatform
