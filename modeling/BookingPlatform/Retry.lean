import BookingPlatform.Acceptance

/-!
# A PATCH that is sent twice

What a PATCH that has succeeded was told and has left. From that: sent again it finds every
field as it would set it, and nothing in the way but its own booking.
-/

namespace BookingPlatform

set_option autoImplicit false

open Transact Transact.Program

section Twice
variable {s t : Store} {amb : Ambient} {bookingId : UUID} {u : BookingUpdate} {user : User}
  {b b' : Booking}

/-- The tables once the payload has been applied to the row `b`, and somebody has been told. -/
def IsPatched (s : Store) (u : BookingUpdate) (b : Booking) (t : Store) : Prop :=
  ∃ notes, t.toTables = { s.toTables with
    bookings := replaceBooking s.bookings (u.applied b)
    notifications := addNotifications s.notifications notes }

theorem IsPatched.mem_bookings (h : IsPatched s u b t) (hb : b ∈ s.bookings) {x : Booking} :
    x ∈ t.bookings ↔ x = u.applied b ∨ (x ∈ s.bookings ∧ x.id ≠ b.id) := by
  obtain ⟨notes, htables⟩ := h
  have hthere : ∃ x ∈ s.bookings, x.id = (u.applied b).id := ⟨b, hb, rfl⟩
  rw [htables]
  exact mem_replaceBooking hthere

theorem IsPatched.booking? (h : IsPatched s u b t) (hb : s.booking? bookingId = some b) :
    t.booking? bookingId = some (u.applied b) := by
  obtain ⟨hmem, hid⟩ := s.booking?_eq_some.mp hb
  exact t.booking?_eq_some.mpr ⟨(h.mem_bookings hmem).mpr (.inl rfl), hid⟩

/-- The commit of a PATCH, after its notifications have been sent. -/
theorem isPatched_of_commit {w : Store} {notes : List Notification}
    (hb : s.booking? bookingId = some b) (hnotes : platform.applyAll (inserts notes) s = .ok w)
    (ht : platform.applyAll [.updateBooking bookingId (b.changes (u.applied b))] w = .ok t) :
    IsPatched s u b t := by
  obtain ⟨hmem, hid⟩ := s.booking?_eq_some.mp hb
  have hall : platform.applyAll
      (inserts notes ++ [.updateBooking bookingId (b.changes (u.applied b))]) s = .ok t := by
    rw [Database.applyAll_append, hnotes]
    exact ht
  have hpatch : s.afterAll
      (inserts notes ++ [.updateBooking bookingId (b.changes (u.applied b))]) = _ :=
    afterAll_patch hmem hid rfl rfl rfl
  exact ⟨notes, (tables_of_applyAll hall).trans hpatch⟩

/-- What a PATCH that succeeds goes through. -/
structure Patches (s : Store) (bookingId : UUID) (u : BookingUpdate) (user : User) (b : Booking)
    (t : Store) : Prop where
  row : s.booking? bookingId = some b
  access : b.accessibleTo user
  nonterminal : ¬ b.status.Terminal
  free : u.startTime = none ∧ u.endTime = none ∨ s.answer (.conflict b.providerId
    (u.applied b).startTime (u.applied b).endTime (some b.id)) = none
  left : IsPatched s u b t

theorem updateBooking_ok (h : outcome s (updateBooking amb bookingId u user) = .ok b') :
    ∃ b, b' = u.applied b ∧
      Patches s bookingId u user b (leaves s (updateBooking amb bookingId u user)) := by
  cases hb : s.booking? bookingId with
  | none => cases (outcome_of_exec (exec_updateBooking_missing hb)).symm.trans h
  | some b =>
    by_cases haccess : b.accessibleTo user
    swap
    · cases (outcome_of_exec (exec_updateBooking_denied hb haccess)).symm.trans h
    by_cases hopen : b.status.Terminal
    · cases (outcome_of_exec (exec_updateBooking_terminal amb u hb haccess hopen)).symm.trans h
    obtain ⟨τ, hexec⟩ : ∃ τ, (updateBooking amb bookingId u user).exec (.fresh s) = (.ok b', τ) :=
      ⟨_, Prod.ext h rfl⟩
    rw [leaves_of_exec hexec]
    rw [exec_updateBooking_open hb haccess hopen] at hexec
    obtain ⟨_, ρ, hstatus, hexec⟩ := exec_bind_inv hexec
    obtain ⟨_, ρ', hschedule, hexec⟩ := exec_bind_inv hexec
    obtain ⟨rfl, hcommitted, notes, hnotes⟩ := stageStatus_ok hstatus
    obtain ⟨rfl, rfl, hfree⟩ := stageSchedule_ok hschedule
    have hcommit := (exec_commitAndRefresh fun t ht => by
      rw [exec_getBooking, Session.fresh_working,
        (isPatched_of_commit hb hnotes ht).booking? hb]).symm.trans hexec
    have hbookings : ρ'.working.bookings = s.bookings := by
      rw [tables_of_applyAll hnotes, Tables.afterAll_inserts]
      rfl
    unfold ending at hcommit
    split at hcommit
    · rename_i t ht
      cases hcommit
      refine ⟨b, rfl, hb, haccess, hopen, ?_, isPatched_of_commit hb hnotes ht⟩
      refine hfree.imp_right fun hfree => ?_
      rw [conflict_eq_none] at hfree ⊢
      rw [hbookings] at hfree
      exact hfree
    · cases hcommit

/-- A payload that has been applied changes nothing more. -/
theorem BookingUpdate.applied_applied (u : BookingUpdate) (b : Booking) :
    u.applied (u.applied b) = u.applied b := by
  have hagain : ∀ {α : Type} (set : Option α) (x : α), set.getD (set.getD x) = set.getD x := by
    intro α set x
    cases set <;> rfl
  simp only [BookingUpdate.applied, hagain]

theorem Booking.changes_self (b : Booking) : b.changes b = ⟨none, none, none, none⟩ := by
  simp only [Booking.changes, changed, if_true]

/-- An UPDATE without changed columns is not sent. -/
theorem applyAll_unchanged (t : Store) (bookingId : UUID) :
    platform.applyAll [.updateBooking bookingId ⟨none, none, none, none⟩] t = .ok t := by
  have hrows : t.after (.updateBooking bookingId ⟨none, none, none, none⟩) = t.toTables := by
    have hsame : (t.bookings.map fun b =>
        if b.id = bookingId then b.patch ⟨none, none, none, none⟩ else b) = t.bookings := by
      refine (List.map_congr_left fun b _ => ?_).trans (List.map_id t.bookings)
      split <;> rfl
    have hafter : t.after (.updateBooking bookingId ⟨none, none, none, none⟩) =
        { t.toTables with bookings := t.bookings.map fun b =>
            if b.id = bookingId then b.patch ⟨none, none, none, none⟩ else b } := rfl
    rw [hafter, hsame]
  obtain ⟨t', ht', hsame⟩ := Store.apply_exists
    (w := .updateBooking bookingId ⟨none, none, none, none⟩) (s := t) (by simp [Tables.stale])
    (by rw [hrows]; exact t.sound)
  have heq : t' = t := Store.eq_of_toTables (hsame.trans hrows)
  rw [applyAll_cons_ok ht', heq]
  rfl

theorem stageStatus_again :
    stageStatus amb (u.applied b) u.status user = pure (u.applied b) := by
  unfold stageStatus
  cases hstatus : u.status with
  | none => rfl
  | some target =>
    have hsame : target = (u.applied b).status := by
      simp only [BookingUpdate.applied, hstatus, Option.getD_some]
    exact if_pos hsame

theorem Patches.conflict_again (h : Patches s bookingId u user b t)
    (hfree : s.answer (.conflict b.providerId (u.applied b).startTime (u.applied b).endTime
      (some b.id)) = none) :
    t.answer (.conflict b.providerId (u.applied b).startTime (u.applied b).endTime
      (some b.id)) = none := by
  have hmem := (s.booking?_eq_some.mp h.row).1
  rw [conflict_eq_none] at hfree ⊢
  intro x hx hconflict
  rcases (h.left.mem_bookings hmem).mp hx with rfl | ⟨hx, _⟩
  · exact hconflict.2.2.2.2 rfl
  · exact hfree x hx hconflict

theorem Patches.exec_stageSchedule (h : Patches s bookingId u user b t) :
    (stageSchedule (u.applied b) u.startTime u.endTime).exec (.fresh t) =
      (.ok (u.applied b), .fresh t) := by
  have hagain := u.applied_applied b
  unfold stageSchedule
  split
  · rfl
  · rename_i hgiven
    have hfree := h.conflict_again (h.free.resolve_left hgiven)
    have hlt := t.sound.checkBookingEndAfterStart _
      (t.booking?_eq_some.mp (h.left.booking? h.row)).1
    have hst : u.startTime.getD (u.applied b).startTime = (u.applied b).startTime :=
      congrArg Booking.startTime hagain
    have hen : u.endTime.getD (u.applied b).endTime = (u.applied b).endTime :=
      congrArg Booking.endTime hagain
    unfold reschedule
    rw [hst, hen]
    refine (exec_pass (not_le.mpr hlt)).trans ?_
    exact exec_bind_ok (exec_checkProviderConflict_free hfree)

/-- Sent again while the booking is open the payload succeeds and writes nothing. -/
theorem Patches.again_open (amb : Ambient) (h : Patches s bookingId u user b t)
    (hopen : ¬ (u.applied b).status.Terminal) :
    (updateBooking amb bookingId u user).exec (.fresh t) = (.ok (u.applied b), .fresh t) := by
  have hrow := h.left.booking? h.row
  have haccess : (u.applied b).accessibleTo user := h.access
  have hname : (u.applied b).renamed u.serviceName = u.applied b := by
    have hagain : u.serviceName.getD (u.applied b).serviceName = (u.applied b).serviceName :=
      congrArg Booking.serviceName (u.applied_applied b)
    unfold Booking.renamed
    rw [hagain]
  rw [exec_updateBooking_open hrow haccess hopen, stageStatus_again]
  refine (exec_bind_ok h.exec_stageSchedule).trans ?_
  rw [hname, Booking.changes_self]
  have hcommit : (commitAndRefresh [.updateBooking bookingId ⟨none, none, none, none⟩]
      (getBooking bookingId)).exec (.fresh t) = _ :=
    exec_commitAndRefresh (a := u.applied b) fun t' ht' => by
      obtain rfl := Except.ok.inj ((applyAll_unchanged t bookingId).symm.trans ht')
      rw [exec_getBooking, Session.fresh_working, hrow]
  rw [Session.fresh_working, applyAll_unchanged] at hcommit
  exact hcommit

theorem terminalError_eq {b : Booking} (hterminal : b.status.Terminal)
    (target : Option BookingStatus) (role : UserRole) :
    ∃ detail, terminalError b target role = http 400 detail := by
  unfold terminalError
  cases target with
  | none => exact ⟨_, rfl⟩
  | some target =>
    rcases hterminal with hs | hs <;> rw [hs] <;> cases target <;> exact ⟨_, rfl⟩

end Twice

/-- A PATCH that has succeeded leaves its booking open, and sent again succeeds and changes
nothing, or in a terminal status, and sent again is refused with 400 and changes nothing. -/
theorem retry_is_safe (s : Store) (amb amb' : Ambient) (bookingId : UUID) (u : BookingUpdate)
    (user : User) {b' : Booking} (h : outcome s (updateBooking amb bookingId u user) = .ok b') :
    ∃ t, t = leaves s (updateBooking amb bookingId u user) ∧ t.booking? bookingId = some b' ∧
      (b'.status = .pending ∨ b'.status = .confirmed →
        outcome t (updateBooking amb' bookingId u user) = .ok b' ∧
          leaves t (updateBooking amb' bookingId u user) = t) ∧
      (b'.status = .completed ∨ b'.status = .cancelled →
        ∃ detail, outcome t (updateBooking amb' bookingId u user) = .error (http 400 detail) ∧
          leaves t (updateBooking amb' bookingId u user) = t) := by
  obtain ⟨b, rfl, hpatches⟩ := updateBooking_ok h
  refine ⟨_, rfl, ?_⟩
  generalize leaves s (updateBooking amb bookingId u user) = t at hpatches
  have hrow := hpatches.left.booking? hpatches.row
  refine ⟨hrow, fun hopen => ?_, fun hdone => ?_⟩
  · have hexec := hpatches.again_open amb' (by
      rcases hopen with hs | hs <;> rw [hs] <;> decide)
    exact ⟨outcome_of_exec hexec, leaves_of_exec hexec⟩
  · have hterminal : (u.applied b).status.Terminal := hdone.symm
    obtain ⟨detail, herror⟩ := terminalError_eq hterminal u.status user.role
    have hexec := exec_updateBooking_terminal amb' u hrow hpatches.access hterminal
    rw [herror] at hexec
    exact ⟨detail, outcome_of_exec hexec, leaves_of_exec hexec⟩

/-- Alice's hour with Paula, as it was asked for. -/
def requested : Store where
  users := newPlatform.users
  bookings := [⟨10, alice.id, paula.id, "Massage", hour, 2 * hour, .pending⟩]
  reviews := []
  notifications := []
  sound := by decide

theorem retry_is_safe_confirm :
    ∃ t, t = leaves requested
        (updateBooking (sampleAmbient 0 11) 10 (statusOnly .confirmed) paula) ∧
      outcome t (updateBooking (sampleAmbient 0 12) 10 (statusOnly .confirmed) paula) =
        .ok ⟨10, alice.id, paula.id, "Massage", hour, 2 * hour, .confirmed⟩ ∧
      leaves t (updateBooking (sampleAmbient 0 12) 10 (statusOnly .confirmed) paula) = t := by
  have hok : outcome requested
      (updateBooking (sampleAmbient 0 11) 10 (statusOnly .confirmed) paula) =
        .ok ⟨10, alice.id, paula.id, "Massage", hour, 2 * hour, .confirmed⟩ := by decide +kernel
  obtain ⟨t, ht, _, hopen, _⟩ := retry_is_safe requested (sampleAmbient 0 11)
    (sampleAmbient 0 12) 10 (statusOnly .confirmed) paula hok
  exact ⟨t, ht, hopen (.inr rfl)⟩

end BookingPlatform
