import BookingPlatform.Lifecycle
import BookingPlatform.Transact.Interleaving

/-!
# Requests side by side

Every request has a session of its own over the one committed store, and nothing
locks a row between the SELECT that loads it and the commit that writes it. A commit
still rests on what its client was told, but need not find it so any more.
-/

namespace BookingPlatform

set_option autoImplicit false

open Transact

section Interleaved
variable {ι : Type} (events : ι → Event)

def concurrently (s : Store) : System platform ι Response := .boot s fun i => (events i).program

def commitsOf (i : ι) : Obligation platform := Once fun c W => (events i).Commits (Told c) W

def endsOf (i : ι) : Except Error Response → Client platform → Prop :=
  Program.settled (D := platform) late fun _ d => (events i).Writes → d.committed ≠ []

variable {events}

theorem concurrently_holds {Inv : Store → (ι → List (List Write)) → Prop}
    {Fact : Entry platform → Store → Prop} {s : Store} (inv : Inv s fun _ => []) :
    System.Holds (commitsOf events) (endsOf events) Inv Fact (concurrently events s) :=
  .boot (fun i => event_wp (events i)) inv

variable [DecidableEq ι]

/-- One request after the other is one of the interleavings: it does what `run` does. -/
theorem serial_run {turns : List ι} (hturns : turns.Nodup) {S : System platform ι Response}
    (hboot : ∀ i ∈ turns, S.procs i = .boot (events i).program) :
    ∃ schedule, (S.run schedule).store = run S.store (turns.map events) := by
  induction turns generalizing S with
  | nil => exact ⟨[], rfl⟩
  | cons i turns ih =>
    obtain ⟨hi, hturns⟩ := List.nodup_cons.mp hturns
    have hprocess := hboot i List.mem_cons_self
    obtain ⟨n, _, hstore⟩ := System.run_alone (S := S) (i := i) (w := S.store) (by
      rw [hprocess]
      rfl)
    have hrest : ∀ j ∈ turns,
        (S.run (List.replicate n i)).procs j = .boot (events j).program := by
      intro j hj
      have hne : j ∉ List.replicate n i := fun h => hi (List.eq_of_mem_replicate h ▸ hj)
      rw [S.run_other hne]
      exact hboot j (List.mem_cons_of_mem _ hj)
    obtain ⟨schedule, hschedule⟩ := ih hturns hrest
    refine ⟨List.replicate n i ++ schedule, ?_⟩
    rw [System.run_append, hschedule, hstore, hprocess]
    rfl

end Interleaved

section Reads

instance Query.decidableEqAnswer : (q : Query) → DecidableEq q.Answer
  | .user _ => inferInstanceAs (DecidableEq (Option User))
  | .booking _ => inferInstanceAs (DecidableEq (Option Booking))
  | .review _ => inferInstanceAs (DecidableEq (Option Review))
  | .notification _ => inferInstanceAs (DecidableEq (Option Notification))
  | .conflict .. => inferInstanceAs (DecidableEq (Option UUID))
  | .bookings _ => inferInstanceAs (DecidableEq (List Booking))
  | .bookingsPage .. => inferInstanceAs (DecidableEq (List Booking))
  | .reviewOfBooking _ => inferInstanceAs (DecidableEq (Option Review))
  | .reviewsPage .. => inferInstanceAs (DecidableEq (List Review))
  | .reviewStats _ => inferInstanceAs (DecidableEq (Nat × Option ℚ))
  | .ratingCounts _ => inferInstanceAs (DecidableEq (List (Int × Nat)))
  | .notificationsPage .. => inferInstanceAs (DecidableEq (List Notification))
  | .usersByEmail .. => inferInstanceAs (DecidableEq (List User))
  | .usersPage .. => inferInstanceAs (DecidableEq (List User))

instance (e : Entry platform) (s : Store) : Decidable (e.Current s) :=
  Query.decidableEqAnswer e.query e.answer ((platform.view e.pending s).answer e.query)

/-- Every booking row the client loaded is still there, in the relation `P` to what it
was when it was loaded. -/
def Remains (P : Booking → Booking → Prop) (e : Entry platform) (s : Store) : Prop :=
  ∀ notes id b, e = ⟨inserts notes, .booking id, some b⟩ →
    ∃ now ∈ s.bookings, now.id = id ∧ P b now

variable {P : Booking → Booking → Prop} {s t : Store}

theorem remains_of_current (hrefl : ∀ b, P b b) {e : Entry platform} (h : e.Current s) :
    Remains P e s := by
  rintro notes id b rfl
  have hrow : some b = s.booking? id := answer_of_current (q := .booking id) trivial h
  obtain ⟨hmem, hid⟩ := s.booking?_eq_some.mp hrow.symm
  exact ⟨b, hmem, hid, hrefl b⟩

theorem Remains.trans (htrans : ∀ {a b c}, P a b → P b c → P a c)
    (hst : ∀ now ∈ s.bookings, ∃ later ∈ t.bookings, later.id = now.id ∧ P now later)
    {e : Entry platform} (h : Remains P e s) : Remains P e t := by
  intro notes id b he
  obtain ⟨now, hnow, hid, hP⟩ := h notes id b he
  obtain ⟨later, hlater, hid', hP'⟩ := hst now hnow
  exact ⟨later, hlater, hid'.trans hid, htrans hP hP'⟩

theorem Told.remains {c : Client platform} {id : UUID} {b : Booking}
    (h : Told c (.booking id) (some b)) (hfacts : ∀ e ∈ c.log, Remains P e s) :
    ∃ now ∈ s.bookings, now.id = id ∧ P b now := by
  obtain ⟨notes, hmem, _⟩ := h
  exact hfacts _ hmem notes id b rfl

end Reads

section Writes
variable {e : Event} {K : Knowledge} {W : List Write} {s t : Store}

/-- Statements that neither write a booking nor add a review. -/
def Write.Aside : Write → Prop
  | .insertBooking _ | .updateBooking .. | .insertReview _ => False
  | _ => True

theorem afterAll_aside {rows : Tables} (h : ∀ w ∈ W, w.Aside) :
    (rows.afterAll W).bookings = rows.bookings ∧
      ∀ r ∈ (rows.afterAll W).reviews, ∃ r' ∈ rows.reviews, r'.bookingId = r.bookingId := by
  induction W generalizing rows with
  | nil => exact ⟨rfl, fun r hr => ⟨r, hr, rfl⟩⟩
  | cons w ws ih =>
    obtain ⟨hbookings, hreviews⟩ := @ih (rows.after w) fun w hw =>
      h w (List.mem_cons_of_mem _ hw)
    have hw := h w List.mem_cons_self
    have hone : (rows.after w).bookings = rows.bookings ∧
        ∀ r ∈ (rows.after w).reviews, ∃ r' ∈ rows.reviews, r'.bookingId = r.bookingId := by
      cases w with
      | updateReview id c =>
        refine ⟨rfl, fun r hr => ?_⟩
        obtain ⟨r', hr', rfl⟩ := List.mem_map.mp hr
        refine ⟨r', hr', ?_⟩
        split <;> rfl
      | deleteReview id => exact ⟨rfl, fun r hr => ⟨r, List.mem_of_mem_filter hr, rfl⟩⟩
      | insertBooking b => exact hw.elim
      | updateBooking id c => exact hw.elim
      | insertReview r => exact hw.elim
      | _ => exact ⟨rfl, fun r hr => ⟨r, hr, rfl⟩⟩
    refine ⟨hbookings.trans hone.1, fun r hr => ?_⟩
    obtain ⟨r', hr', hid'⟩ := hreviews r hr
    obtain ⟨r'', hr'', hid''⟩ := hone.2 r' hr'
    exact ⟨r'', hr'', hid''.trans hid'⟩

theorem aside_inserts (notes : List Notification) : ∀ w ∈ inserts notes, w.Aside := by
  intro w hw
  obtain ⟨n, _, rfl⟩ := List.mem_map.mp hw
  trivial

/-- What a commit has to do with bookings, whatever it was told and when. -/
inductive Touches (K : Knowledge) (W : List Write) : Prop where
  | aside (h : ∀ w ∈ W, w.Aside)
  | booked {amb : Ambient} {caller : UUID} {bookingIn : BookingCreate}
      (h : Booked amb caller bookingIn K W)
  | edited {amb : Ambient} {bookingId : UUID} {actor : User} {b b' : Booking}
      {notes : List Notification} (h : Edited amb bookingId actor b b' notes K W)
  | reviewed {amb : Ambient} {author : User} {reviewIn : ReviewCreate} {b : Booking}
      (h : Reviewed amb author reviewIn b K W)

theorem Event.Commits.touches (h : e.Commits K W) : Touches K W := by
  cases e with
  | request amb caller req =>
    obtain ⟨actor, _, _, h⟩ := h
    cases req with
    | createBooking bookingIn => exact .booked h
    | updateBooking bookingId bookingUpdate =>
      obtain ⟨b, notes, h⟩ := h
      exact .edited h
    | cancelBooking bookingId =>
      obtain ⟨b, notes, h⟩ := h
      exact .edited h
    | deleteBooking bookingId =>
      obtain ⟨b, notes, _, _, h⟩ := h
      exact .edited h
    | createReview reviewIn =>
      obtain ⟨b, h⟩ := h
      exact .reviewed h
    | updateReview reviewId reviewUpdate =>
      obtain ⟨r, h⟩ := h
      exact .aside (by simp [h.writes, Write.Aside])
    | deleteReview reviewId =>
      obtain ⟨r, h⟩ := h
      exact .aside (by simp [h.writes, Write.Aside])
    | markNotificationRead notificationId =>
      obtain ⟨n, h⟩ := h
      exact .aside (by simp [h.writes, Write.Aside])
    | markAllNotificationsRead =>
      have h : W = [.readAllNotifications actor.id amb.now] := h
      exact .aside (by simp [h, Write.Aside])
    | _ => exact h.elim
  | register amb userIn =>
    obtain ⟨hashedPw, h⟩ := h
    exact .aside (by simp [h.writes, Write.Aside])
  | reminderJob amb windowMinutes =>
    obtain ⟨rows, h⟩ := h
    exact .aside (h.writes ▸ aside_inserts _)
  | overdueJob amb =>
    obtain ⟨rows, h⟩ := h
    exact .aside (h.writes ▸ aside_inserts _)

/-- The rows after an edit, when the stored row need not be the loaded one. -/
theorem Edited.rows {amb : Ambient} {bookingId : UUID} {actor : User} {b b' : Booking}
    {notes : List Notification} (h : Edited amb bookingId actor b b' notes K W)
    (ht : t.toTables = s.afterAll W) :
    t.bookings = (s.bookings.map fun x =>
      if x.id = bookingId then x.patch (b.changes b') else x) ∧ t.reviews = s.reviews := by
  rw [ht, h.writes, Tables.afterAll_append, Tables.afterAll_inserts]
  exact ⟨rfl, rfl⟩

theorem Booked.rows {amb : Ambient} {caller : UUID} {bookingIn : BookingCreate}
    (h : Booked amb caller bookingIn K W) (ht : t.toTables = s.afterAll W) :
    t.bookings = s.bookings ++ [newBooking amb caller bookingIn] ∧ t.reviews = s.reviews := by
  rw [ht, h.tables]
  exact ⟨rfl, rfl⟩

theorem Reviewed.rows {amb : Ambient} {author : User} {reviewIn : ReviewCreate} {b : Booking}
    (h : Reviewed amb author reviewIn b K W) (ht : t.toTables = s.afterAll W) :
    t.bookings = s.bookings ∧ t.reviews = s.reviews ++ [newReview amb b author.id reviewIn] := by
  rw [ht, h.writes]
  exact ⟨rfl, rfl⟩

/-- Every row stays where it is; at most one of them is patched. -/
theorem Touches.rows (h : Touches K W) (ht : t.toTables = s.afterAll W) {x : Booking}
    (hx : x ∈ s.bookings) :
    x ∈ t.bookings ∨ ∃ amb actor b b' notes, Edited amb x.id actor b b' notes K W ∧
      x.patch (b.changes b') ∈ t.bookings := by
  cases h with
  | aside h =>
    rw [ht, (afterAll_aside h).1]
    exact .inl hx
  | booked h =>
    rw [(h.rows ht).1]
    exact .inl (List.mem_append_left _ hx)
  | reviewed h =>
    rw [(h.rows ht).1]
    exact .inl hx
  | @edited amb bookingId actor b b' notes h =>
    have hmem := List.mem_map_of_mem
      (f := fun x => if x.id = bookingId then x.patch (b.changes b') else x) hx
    rw [← (h.rows ht).1] at hmem
    by_cases hid : x.id = bookingId
    · subst hid
      exact .inr ⟨amb, actor, b, b', notes, h, by rwa [if_pos rfl] at hmem⟩
    · exact .inl (by rwa [if_neg hid] at hmem)

end Writes

end BookingPlatform
