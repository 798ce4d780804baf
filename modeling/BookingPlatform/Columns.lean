import BookingPlatform.Deployments
import BookingPlatform.Integrity

/-!
# What is written fits its column

The payloads bound the texts that requests bring, and the titles are fixed. So a store whose
texts fit stays a valid database of the migrated schema, however requests and jobs interleave.
Only a registration can bring a longer text: lower-casing an address may lengthen it after its
length was checked.
-/

namespace BookingPlatform

set_option autoImplicit false

open Transact

section Statements

def Write.InColumns : Write → Prop
  | .insertUser u => u.name.length ≤ 255 ∧ u.email.length ≤ 255 ∧ u.passwordHash.length ≤ 255
  | .insertBooking b => b.serviceName.length ≤ 255
  | .updateBooking _ c => ∀ name ∈ c.serviceName, name.length ≤ 255
  | .insertReview _ => True
  | .updateReview .. => True
  | .deleteReview _ => True
  | .insertNotification n => n.title.length ≤ 255
  | .readNotification .. => True
  | .readAllNotifications .. => True

/-- Of a registration: the address as normalised, and whatever hash it may be given. -/
def Event.InColumns : Event → Prop
  | .request .. => True
  | .register amb userIn => userIn.name.length ≤ 255 ∧ userIn.email.length ≤ 255 ∧
    ∀ hashedPw, amb.hashpw userIn.password = .ok hashedPw → hashedPw.length ≤ 255
  | .reminderJob .. => True
  | .overdueJob _ => True

theorem fitColumns_after {t : Tables} {w : Write} (ht : t.FitColumns) (hw : w.InColumns) :
    (t.after w).FitColumns := by
  refine ⟨fun u hu => ?_, fun b' hb' => ?_, fun n' hn' => ?_⟩
  · rcases users_after hu with hu | rfl
    · exact ht.users u hu
    · exact hw
  · cases w with
    | insertBooking b =>
      rcases List.mem_append.mp hb' with hb' | hb'
      · exact ht.bookings b' hb'
      · obtain rfl := List.mem_singleton.mp hb'
        exact hw
    | updateBooking id c =>
      obtain ⟨b, hb, rfl⟩ := List.mem_map.mp hb'
      have hold := ht.bookings b hb
      split
      · change (c.serviceName.getD b.serviceName).length ≤ 255
        cases hname : c.serviceName with
        | none => exact hold
        | some name => exact hw name hname
      · exact hold
    | _ => exact ht.bookings b' hb'
  · rcases notifications_after hn' with ⟨n, hn, rfl | ⟨readAt, rfl⟩⟩ | rfl
    · exact ht.notifications n' hn
    · exact ht.notifications n hn
    · exact hw

theorem fitColumns_afterAll {t : Tables} {W : List Write} (ht : t.FitColumns)
    (hW : ∀ w ∈ W, w.InColumns) : (t.afterAll W).FitColumns := by
  induction W generalizing t with
  | nil => exact ht
  | cons w W ih =>
    exact ih (fitColumns_after ht (hW w List.mem_cons_self)) fun w' hw' =>
      hW w' (List.mem_cons_of_mem w hw')

end Statements

section Commits
variable {K : Knowledge} {W : List Write} {amb : Ambient} {actor : User}

theorem inserts_inColumns {notes : List Notification} (h : ∀ n ∈ notes, n.title.length ≤ 255)
    {w : Write} (hw : w ∈ inserts notes) : w.InColumns := by
  obtain ⟨n, hn, rfl⟩ := List.mem_map.mp hw
  exact h n hn

theorem title_transition {b : Booking} {status : BookingStatus} {notes : List Notification}
    (h : StatusChange amb actor b status notes) : ∀ n ∈ notes, n.title.length ≤ 255 := by
  intro n hn
  rcases h with ⟨_, rfl⟩ | ⟨_, _, rfl⟩
  · cases hn
  · have hlength : ∀ title ∈ ["Booking Confirmed", "Booking Completed", "Booking Cancelled"],
        title.length ≤ 255 := by decide
    refine hlength n.title ?_
    unfold transitionNotes at hn
    cases status with
    | pending => cases hn
    | confirmed =>
      obtain rfl := List.mem_singleton.mp hn
      exact List.mem_cons_self
    | completed =>
      obtain rfl := List.mem_singleton.mp hn
      exact List.mem_cons_of_mem _ List.mem_cons_self
    | cancelled =>
      have htitle : n.title = "Booking Cancelled" := by
        rcases List.mem_append.mp hn with hn | hn
        · split at hn
          · obtain rfl := List.mem_singleton.mp hn
            rfl
          · cases hn
        · split at hn
          · obtain rfl := List.mem_singleton.mp hn
            rfl
          · cases hn
      rw [htitle]
      exact List.mem_cons_of_mem _ (List.mem_cons_of_mem _ List.mem_cons_self)

/-- A name that changes is a name of the payload. -/
theorem Edited.inColumns {bookingId : UUID} {b b' : Booking} {notes : List Notification}
    (h : Edited amb bookingId actor b b' notes K W)
    (hname : b'.serviceName = b.serviceName ∨ b'.serviceName.length ≤ 255) :
    ∀ w ∈ W, w.InColumns := by
  intro w hw
  rw [h.writes] at hw
  rcases List.mem_append.mp hw with hw | hw
  · exact inserts_inColumns (title_transition h.status) hw
  · obtain rfl := List.mem_singleton.mp hw
    intro name hchanged
    have hchanged : changed b.serviceName b'.serviceName = some name := hchanged
    unfold changed at hchanged
    split at hchanged
    · cases hchanged
    · rename_i hne
      obtain rfl := Option.some.inj hchanged
      exact hname.resolve_left hne

theorem Notified.inColumns {notice : Notice} {due : Booking → Bool} {rows : List Booking}
    (h : Notified amb notice due rows K W) (htitle : notice.title.length ≤ 255) :
    ∀ w ∈ W, w.InColumns := by
  intro w hw
  rw [h.writes] at hw
  refine inserts_inColumns (fun n hn => ?_) hw
  obtain ⟨b, _, hn⟩ := List.mem_flatMap.mp hn
  have hsame : n.title = notice.title := by
    rcases List.mem_cons.mp hn with rfl | hn
    · rfl
    · rw [List.mem_singleton.mp hn]
      rfl
  rw [hsame]
  exact htitle

theorem Event.Commits.inColumns {e : Event} (h : e.Commits K W) (he : e.InColumns) :
    ∀ w ∈ W, w.InColumns := by
  cases e with
  | request amb caller req =>
    obtain ⟨actor, _, _, h⟩ := h
    cases req with
    | createBooking bookingIn =>
      have h : Booked amb actor.id bookingIn K W := h
      intro w hw
      rw [h.writes] at hw
      rcases List.mem_cons.mp hw with rfl | hw
      · exact bookingIn.nameLength.2
      · obtain rfl := List.mem_singleton.mp hw
        have htitle : "New Booking Request".length ≤ 255 := by decide
        exact htitle
    | updateBooking bookingId bookingUpdate =>
      obtain ⟨b, notes, h⟩ := h
      refine h.inColumns ?_
      change bookingUpdate.serviceName.getD b.serviceName = b.serviceName ∨
        (bookingUpdate.serviceName.getD b.serviceName).length ≤ 255
      cases hname : bookingUpdate.serviceName with
      | none => exact .inl rfl
      | some name => exact .inr (bookingUpdate.nameLength name hname).2
    | cancelBooking bookingId =>
      obtain ⟨b, notes, h⟩ := h
      exact h.inColumns (.inl rfl)
    | deleteBooking bookingId =>
      obtain ⟨b, notes, _, _, h⟩ := h
      exact h.inColumns (.inl rfl)
    | createReview reviewIn =>
      obtain ⟨b, h⟩ := h
      intro w hw
      obtain rfl := List.mem_singleton.mp (h.writes ▸ hw)
      trivial
    | updateReview reviewId reviewUpdate =>
      obtain ⟨r, h⟩ := h
      intro w hw
      obtain rfl := List.mem_singleton.mp (h.writes ▸ hw)
      trivial
    | deleteReview reviewId =>
      obtain ⟨r, h⟩ := h
      intro w hw
      obtain rfl := List.mem_singleton.mp (h.writes ▸ hw)
      trivial
    | markNotificationRead notificationId =>
      obtain ⟨n, h⟩ := h
      intro w hw
      obtain rfl := List.mem_singleton.mp (h.writes ▸ hw)
      trivial
    | markAllNotificationsRead =>
      have h : W = [.readAllNotifications actor.id amb.now] := h
      intro w hw
      obtain rfl := List.mem_singleton.mp (h ▸ hw)
      trivial
    | _ => exact h.elim
  | register amb userIn =>
    obtain ⟨hashedPw, h⟩ := h
    obtain ⟨hname, hemail, hhash⟩ := he
    intro w hw
    obtain rfl := List.mem_singleton.mp (h.writes ▸ hw)
    exact ⟨hname, hemail, hhash hashedPw h.hashed⟩
  | reminderJob amb windowMinutes =>
    obtain ⟨rows, h⟩ := h
    have htitle : "Upcoming Booking Reminder".length ≤ 255 := by decide
    exact h.inColumns htitle
  | overdueJob amb =>
    obtain ⟨rows, h⟩ := h
    have htitle : "Booking Overdue".length ≤ 255 := by decide
    exact h.inColumns htitle

end Commits

section Interleaved
variable {ι : Type} {events : ι → Event} [DecidableEq ι]

theorem columns_rules (hevents : ∀ i, (events i).InColumns) :
    System.Invariant (commitsOf events) (fun _ _ _ _ => True)
      (fun s _ => s.toTables.FitColumns) fun _ _ => True where
  told := fun _ _ => trivial
  commit := by
    intro i c W s t C hs _ _ hO _ happ
    refine ⟨?_, fun _ _ => trivial⟩
    have hW : (events i).Commits (Told c) W := hO.2
    rw [tables_of_applyAll happ]
    exact fitColumns_afterAll hs (hW.inColumns (hevents i))

/-- However the statements of requests, registrations and jobs interleave, the rows are always
those of a valid database of the migrated schema, whatever their times of creation. -/
theorem interleaving_stays_valid {s₀ : Store} (h₀ : s₀.toTables.FitColumns)
    (hevents : ∀ i, (events i).InColumns) (schedule : List ι) {t : Stamped}
    (ht : t.tables = ((concurrently events s₀).run schedule).store.toTables) :
    t.database.Valid := by
  have hfit := ((concurrently_holds h₀).run (columns_rules hevents) (.always _ schedule)).inv
  refine stamped_valid.mpr ?_
  rw [ht]
  exact ⟨((concurrently events s₀).run schedule).store.sound, hfit⟩

/-- Alice books while somebody registers. -/
def booksAndRegisters (i : Bool) : Event :=
  if i then booksAt alice 10 (10 * hour)
  else .register (sampleAmbient 0 11) ⟨"Eve", "eve@example.com", "correct horse"⟩

theorem booksAndRegisters_inColumns (i : Bool) : (booksAndRegisters i).InColumns := by
  cases i with
  | true => trivial
  | false =>
    refine ⟨by decide, by decide, fun hashedPw h => ?_⟩
    cases h
    decide

theorem interleaving_stays_valid_registered :
    ((concurrently booksAndRegisters newPlatform).run
      [true, false, true, false, true, false]).store.toTables.atEpoch.database.Valid :=
  interleaving_stays_valid newPlatform_fitColumns booksAndRegisters_inColumns _ (tables_atEpoch _)

end Interleaved

end BookingPlatform
