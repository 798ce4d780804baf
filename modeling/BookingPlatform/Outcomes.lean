import BookingPlatform.Lifecycle

/-!
# How a request ends

Equations for the solitary run of the services: which error they raise, or which
transaction they end in. The errors come in the order of the guards; a transaction
that goes through is one `applyAll`.
-/

namespace BookingPlatform

set_option autoImplicit false

open Transact Transact.Program

section Helpers
variable {α β : Type} {σ τ : Session platform}

theorem exec_getBooking (id : UUID) :
    (getBooking id).exec σ = (.ok (σ.working.booking? id), σ) := rfl

theorem exec_getUser (id : UUID) : (getUser id).exec σ = (.ok (σ.working.user? id), σ) := rfl

theorem exec_getReview (id : UUID) :
    (getReview id).exec σ = (.ok (σ.working.review? id), σ) := rfl

theorem exec_getOr404_some {row : Service (Option α)} {detail : String} {a : α}
    (h : row.exec σ = (.ok (some a), τ)) : (getOr404 row detail).exec σ = (.ok a, τ) :=
  exec_bind_ok h

theorem exec_getOr404_none {row : Service (Option α)} {detail : String}
    (h : row.exec σ = (.ok none, τ)) :
    (getOr404 row detail).exec σ = (.error (http 404 detail), τ) :=
  exec_bind_ok h

theorem exec_isProviderAvailable (providerId : UUID) (st en : Time) (x : Option UUID) :
    (isProviderAvailable providerId st en x).exec σ =
      (.ok (Option.isNone (α := UUID) (σ.working.answer (.conflict providerId st en x))), σ) := rfl

theorem exec_checkProviderConflict_free {providerId : UUID} {st en : Time} {x : Option UUID}
    (h : σ.working.answer (.conflict providerId st en x) = none) :
    (checkProviderConflict providerId st en x).exec σ = (.ok (), σ) := by
  refine (exec_bind_ok (exec_isProviderAvailable providerId st en x)).trans ?_
  rw [h]
  rfl

/-- A block that ends in a commit, and what its caller is given back. -/
def ending (s : Store) (end_ : Except Error Store) (a : α) : Except Error α × Session platform :=
  match end_ with
  | .ok t => (.ok a, .fresh t)
  | .error e => (.error e, .fresh s)

theorem exec_commitAll (staged : List Write) :
    (commitAll (D := platform) staged).exec σ =
      ending σ.committed (platform.applyAll staged σ.working) () := by
  unfold ending
  simp only [commitAll, exec]
  cases platform.applyAll staged σ.working <;> rfl

theorem exec_commitOrRollback (staged : List Write) :
    (commitOrRollback staged).exec σ =
      ending σ.committed (platform.applyAll staged σ.working) () := by
  refine (exec_tryCatch _ _ σ).trans ?_
  rw [exec_commitAll]
  cases platform.applyAll staged σ.working <;> rfl

/-- `row` finds `a` in whatever store the commit leaves. -/
theorem exec_commitAndRefresh {staged : List Write} {row : Service (Option α)} {a : α}
    (hrow : ∀ t, platform.applyAll staged σ.working = .ok t →
      row.exec (.fresh t) = (.ok (some a), .fresh t)) :
    (commitAndRefresh staged row).exec σ =
      ending σ.committed (platform.applyAll staged σ.working) a := by
  refine (exec_tryCatch _ _ σ).trans ?_
  rw [exec_bind, exec_commitAll]
  cases h : platform.applyAll staged σ.working with
  | ok t =>
    have hrefresh : (refresh row).exec (.fresh t) = (.ok a, .fresh t) := exec_bind_ok (hrow t h)
    simp only [ending, hrefresh]
  | error e => rfl

theorem exec_commitOr409 {staged : List Write} {row : Service (Option α)} {detail : String}
    {a : α} {t : Store} (h : platform.applyAll staged σ.working = .ok t)
    (hrow : row.exec (.fresh t) = (.ok (some a), .fresh t)) :
    (commitOr409 staged row detail).exec σ = (.ok a, .fresh t) := by
  have hrefresh : (refresh row).exec (.fresh t) = (.ok a, .fresh t) := exec_bind_ok hrow
  refine (exec_tryCatch _ _ σ).trans ?_
  rw [exec_bind, exec_commitAll, h]
  simp only [ending, hrefresh]

/-- Statements sent before a commit are part of its transaction. -/
theorem exec_sends_ending {p : Service Unit} {us ws : List Write} {q : Service α} {a : α}
    {s : Store} (hp : Sends p us)
    (hq : ∀ w, platform.applyAll us s = .ok w →
      q.exec ⟨s, w⟩ = ending s (platform.applyAll ws w) a) :
    (p >>= fun _ => q).exec (.fresh s) = ending s (platform.applyAll (us ++ ws) s) a := by
  rw [exec_bind, hp, Database.applyAll_append]
  unfold Session.attempt
  rw [Session.fresh_working]
  cases h : platform.applyAll us s with
  | ok w => exact hq w h
  | error e => rfl

theorem sends_notifyCancellation (amb : Ambient) (b : Booking) (actor : User) :
    Sends (notifyCancellation amb b actor) (inserts (cancellationNotes amb b actor)) := by
  have hone : ∀ u, Sends (notifyCancelled amb b u) (inserts [cancelledNote amb b u]) :=
    fun u => .one _
  have h := ((hone b.customerId).runIf (actor.id ≠ b.customerId)).bind
    ((hone b.providerId).runIf (actor.id ≠ b.providerId))
  have hinserts : inserts (cancellationNotes amb b actor) =
      (if actor.id ≠ b.customerId then inserts [cancelledNote amb b b.customerId] else []) ++
        if actor.id ≠ b.providerId then inserts [cancelledNote amb b b.providerId] else [] := by
    unfold cancellationNotes
    rw [inserts_append]
    split <;> split <;> rfl
  rw [hinserts]
  exact h

end Helpers

section Cancelling
variable {s : Store} {amb : Ambient} {b : Booking} {user : User}

/-- The transaction of every cancellation. -/
def cancellation (amb : Ambient) (b : Booking) (user : User) : List Write :=
  inserts (cancellationNotes amb b.cancelled user) ++
    [.updateBooking b.id (b.changes b.cancelled)]

/-- The row is there to be read again once its cancellation has been committed. -/
theorem refresh_cancelled (hb : b ∈ s.bookings) {w t : Store}
    (hw : platform.applyAll (inserts (cancellationNotes amb b.cancelled user)) s = .ok w)
    (ht : platform.applyAll [.updateBooking b.id (b.changes b.cancelled)] w = .ok t) :
    (getBooking b.id).exec (.fresh t) = (.ok (some b.cancelled), .fresh t) := by
  have hall : platform.applyAll (cancellation amb b user) s = .ok t := by
    unfold cancellation
    rw [Database.applyAll_append, hw]
    exact ht
  have htables := tables_of_applyAll hall
  unfold cancellation at htables
  rw [Tables.afterAll_append, Tables.afterAll_inserts] at htables
  have hmem : b.cancelled ∈ t.bookings := by
    rw [htables]
    refine List.mem_map.mpr ⟨b, hb, ?_⟩
    rw [if_pos rfl]
    exact Booking.patch_changes rfl rfl rfl
  have hrow : t.booking? b.id = some b.cancelled := t.booking?_eq_some.mpr ⟨hmem, rfl⟩
  rw [exec_getBooking, Session.fresh_working, hrow]

/-- The two routes that cancel and read the row again. -/
theorem exec_cancel_and_refresh (hb : b ∈ s.bookings) :
    (notifyCancellation amb b.cancelled user >>= fun _ =>
      commitAndRefresh [.updateBooking b.id (b.changes b.cancelled)] (getBooking b.id)).exec
        (.fresh s) = ending s (platform.applyAll (cancellation amb b user) s) b.cancelled :=
  exec_sends_ending (sends_notifyCancellation amb b.cancelled user) fun _ hw =>
    exec_commitAndRefresh fun _ ht => refresh_cancelled hb hw ht

theorem exec_cancel_and_commit :
    (notifyCancellation amb b.cancelled user >>= fun _ =>
      commitOrRollback [.updateBooking b.id (b.changes b.cancelled)]).exec (.fresh s) =
        ending s (platform.applyAll (cancellation amb b user) s) () :=
  exec_sends_ending (sends_notifyCancellation amb b.cancelled user) fun _ _ =>
    exec_commitOrRollback _

section CancelBooking
variable {bookingId : UUID}

theorem exec_getBookingById_granted (hb : s.booking? bookingId = some b)
    (haccess : b.accessibleTo user) :
    (getBookingById bookingId user).exec (.fresh s) = (.ok b, .fresh s) := by
  refine (exec_bind_ok (exec_getOr404_some ?_)).trans (by rw [if_pos haccess]; rfl)
  rw [exec_getBooking, Session.fresh_working, hb]

theorem exec_getBookingById_denied (hb : s.booking? bookingId = some b)
    (haccess : ¬ b.accessibleTo user) :
    (getBookingById bookingId user).exec (.fresh s) =
      (.error (http 403 "Not authorized to access this booking"), .fresh s) := by
  refine (exec_bind_ok (exec_getOr404_some ?_)).trans (by rw [if_neg haccess]; rfl)
  rw [exec_getBooking, Session.fresh_working, hb]

theorem exec_getBookingById_missing (hb : s.booking? bookingId = none) :
    (getBookingById bookingId user).exec (.fresh s) =
      (.error (http 404 "Booking not found"), .fresh s) := by
  refine exec_bind_error (exec_getOr404_none ?_)
  rw [exec_getBooking, Session.fresh_working, hb]

theorem exec_cancelBooking_valid (amb : Ambient) (hb : s.booking? bookingId = some b)
    (haccess : b.accessibleTo user)
    (hvalid : validateStatusTransition b.status .cancelled user.role = .ok ()) :
    (cancelBooking amb bookingId user).exec (.fresh s) =
      ending s (platform.applyAll (cancellation amb b user) s) b.cancelled := by
  obtain ⟨hmem, rfl⟩ := s.booking?_eq_some.mp hb
  refine (exec_bind_ok (exec_getBookingById_granted hb haccess)).trans ?_
  refine (exec_bind_ok (a := ()) (by rw [hvalid]; rfl)).trans ?_
  exact exec_cancel_and_refresh hmem

theorem exec_cancelBooking_invalid {e : Error} (hb : s.booking? bookingId = some b)
    (haccess : b.accessibleTo user)
    (hvalid : validateStatusTransition b.status .cancelled user.role = .error e) :
    (cancelBooking amb bookingId user).exec (.fresh s) = (.error e, .fresh s) := by
  refine (exec_bind_ok (exec_getBookingById_granted hb haccess)).trans ?_
  exact exec_bind_error (by rw [hvalid]; rfl)

end CancelBooking

section UpdateBooking
variable {bookingId : UUID} {u : BookingUpdate}

theorem exec_updateBooking_missing (hb : s.booking? bookingId = none) :
    (updateBooking amb bookingId u user).exec (.fresh s) =
      (.error (http 404 "Booking not found"), .fresh s) := by
  refine exec_bind_error (exec_getOr404_none ?_)
  rw [exec_getBooking, Session.fresh_working, hb]

theorem exec_updateBooking_denied (hb : s.booking? bookingId = some b)
    (haccess : ¬ b.accessibleTo user) :
    (updateBooking amb bookingId u user).exec (.fresh s) =
      (.error (http 403 "Not authorized to modify this booking"), .fresh s) := by
  refine (exec_bind_ok (exec_getOr404_some (a := b) ?_)).trans (exec_refuse haccess)
  rw [exec_getBooking, Session.fresh_working, hb]

theorem exec_updateBooking_terminal (amb : Ambient) (u : BookingUpdate)
    (hb : s.booking? bookingId = some b)
    (haccess : b.accessibleTo user) (hterminal : b.status.Terminal) :
    (updateBooking amb bookingId u user).exec (.fresh s) =
      (.error (terminalError b u.status user.role), .fresh s) := by
  have hrow : (getBooking bookingId).exec (.fresh s) = (.ok (some b), .fresh s) := by
    rw [exec_getBooking, Session.fresh_working, hb]
  refine (exec_bind_ok (exec_getOr404_some hrow)).trans ?_
  exact (exec_pass (not_not.mpr haccess)).trans (exec_refuse hterminal)

/-- A PATCH of an open booking goes on with its three steps. -/
theorem exec_updateBooking_open (hb : s.booking? bookingId = some b)
    (haccess : b.accessibleTo user) (hopen : ¬ b.status.Terminal) :
    (updateBooking amb bookingId u user).exec (.fresh s) =
      (stageStatus amb b u.status user >>= fun staged =>
        stageSchedule staged u.startTime u.endTime >>= fun staged =>
          commitAndRefresh
            [.updateBooking bookingId (b.changes (staged.renamed u.serviceName))]
            (getBooking bookingId)).exec (.fresh s) := by
  have hrow : (getBooking bookingId).exec (.fresh s) = (.ok (some b), .fresh s) := by
    rw [exec_getBooking, Session.fresh_working, hb]
  refine (exec_bind_ok (exec_getOr404_some hrow)).trans ?_
  exact (exec_pass (not_not.mpr haccess)).trans (exec_pass hopen)

/-- The payload asks for CANCELLED and for nothing else. -/
def BookingUpdate.CancelsOnly (u : BookingUpdate) : Prop :=
  u.status = some .cancelled ∧ u.serviceName = none ∧ u.startTime = none ∧ u.endTime = none

theorem stageStatus_cancelled (hopen : ¬ b.status.Terminal) :
    stageStatus amb b (some .cancelled) user =
      (Program.ofExcept (validateStatusTransition b.status .cancelled user.role) >>= fun _ =>
        notifyCancellation amb b.cancelled user >>= fun _ => pure b.cancelled) :=
  if_neg fun h => hopen (.inl h.symm)

theorem exec_updateBooking_valid (hu : u.CancelsOnly) (hb : s.booking? bookingId = some b)
    (haccess : b.accessibleTo user) (hopen : ¬ b.status.Terminal)
    (hvalid : validateStatusTransition b.status .cancelled user.role = .ok ()) :
    (updateBooking amb bookingId u user).exec (.fresh s) =
      ending s (platform.applyAll (cancellation amb b user) s) b.cancelled := by
  obtain ⟨hmem, rfl⟩ := s.booking?_eq_some.mp hb
  obtain ⟨hstatus, hname, hst, hen⟩ := hu
  rw [exec_updateBooking_open hb haccess hopen, hstatus, stageStatus_cancelled hopen, hname, hst,
    hen, hvalid]
  change (notifyCancellation amb b.cancelled user >>= (fun _ => pure b.cancelled) >>=
    fun staged => _).exec _ = _
  rw [exec_assoc]
  exact exec_cancel_and_refresh hmem

end UpdateBooking

end Cancelling

section Stages
variable {σ τ : Session platform} {amb : Ambient} {b staged : Booking} {actor : User}

theorem sends_notifyTransition (amb : Ambient) (b : Booking) (actor : User) :
    Sends (notifyTransition amb b actor) (inserts (transitionNotes amb b actor)) := by
  unfold notifyTransition transitionNotes
  cases b.status with
  | pending => exact .nothing
  | confirmed => exact .one _
  | completed => exact .one _
  | cancelled => exact sends_notifyCancellation amb b actor

/-- The first step only ever inserts notifications. -/
theorem stageStatus_ok {target : Option BookingStatus}
    (h : (stageStatus amb b target actor).exec σ = (.ok staged, τ)) :
    staged = { b with status := target.getD b.status } ∧ τ.committed = σ.committed ∧
      ∃ notes, platform.applyAll (inserts notes) σ.working = .ok τ.working := by
  unfold stageStatus at h
  cases target with
  | none =>
    cases h
    exact ⟨rfl, rfl, [], rfl⟩
  | some target =>
    simp only at h
    split at h
    · rename_i heq
      subst heq
      cases h
      exact ⟨rfl, rfl, [], rfl⟩
    · obtain ⟨_, _, hvalid, h⟩ := exec_bind_inv h
      obtain ⟨_, _, hsends, h⟩ := exec_bind_inv h
      cases h
      obtain rfl := (Prod.mk.inj hvalid).2
      rw [sends_notifyTransition amb { b with status := target } actor] at hsends
      unfold Session.attempt at hsends
      split at hsends
      · rename_i w hall
        cases hsends
        exact ⟨rfl, rfl, _, hall⟩
      · cases hsends

theorem checkProviderConflict_ok {providerId : UUID} {st en : Time} {x : Option UUID}
    (h : (checkProviderConflict providerId st en x).exec σ = (.ok (), τ)) :
    τ = σ ∧ σ.working.answer (.conflict providerId st en x) = none := by
  obtain ⟨_, _, havailable, h⟩ := exec_bind_inv h
  cases havailable
  rw [exec_refuseIf] at h
  split at h
  · cases h
  · rename_i hfree
    cases h
    exact ⟨rfl, Option.isNone_iff_eq_none.mp (not_not.mp hfree)⟩

/-- The second step is told that the interval is free of others. -/
theorem stageSchedule_ok {st en : Option Time}
    (h : (stageSchedule b st en).exec σ = (.ok staged, τ)) :
    τ = σ ∧ staged = { b with startTime := st.getD b.startTime, endTime := en.getD b.endTime } ∧
      (st = none ∧ en = none ∨ σ.working.answer
        (.conflict b.providerId (st.getD b.startTime) (en.getD b.endTime) (some b.id)) = none) := by
  unfold stageSchedule at h
  split at h
  · rename_i hnone
    cases h
    rw [hnone.1, hnone.2]
    exact ⟨rfl, rfl, .inl ⟨rfl, rfl⟩⟩
  · obtain ⟨_, _, hrange, h⟩ := exec_bind_inv h
    obtain ⟨_, _, hcheck, h⟩ := exec_bind_inv h
    rw [exec_refuseIf] at hrange
    cases h
    obtain rfl := (Prod.mk.inj hrange).2
    obtain ⟨rfl, hfree⟩ := checkProviderConflict_ok hcheck
    exact ⟨rfl, rfl, .inr hfree⟩

end Stages

end BookingPlatform
