import BookingPlatform.Calendar
import Mathlib.Data.List.Destutter

/-!
# The life of a booking

Where the row of a booking comes from and what a step makes of it, and from that
its whole history: which statuses it goes through, and who moves it.
-/

namespace BookingPlatform

set_option autoImplicit false

open Transact

/-- The event is a request that turns the row `b` into `b'`. -/
structure Edit (s : Store) (e : Event) (b b' : Booking) (amb : Ambient) (actor : User)
    (notes : List Notification) : Prop where
  request : ∃ req, e = .request amb actor.id req ∧ req.Edits b b'
  known : actor ∈ s.users
  edited : ∃ bookingId W, Edited amb bookingId actor b b' notes s.Says W

namespace Edit
variable {s : Store} {e : Event} {b b' : Booking} {amb : Ambient} {actor : User}
  {notes : List Notification} (h : Edit s e b b' amb actor notes)
include h

theorem mem : b ∈ s.bookings := by
  obtain ⟨_, _, h⟩ := h.edited
  exact h.mem

theorem sameId : b'.id = b.id := by
  obtain ⟨_, _, h⟩ := h.edited
  exact h.sameId

theorem sameCustomer : b'.customerId = b.customerId := by
  obtain ⟨_, _, h⟩ := h.edited
  exact h.sameCustomer

theorem sameProvider : b'.providerId = b.providerId := by
  obtain ⟨_, _, h⟩ := h.edited
  exact h.sameProvider

theorem access : b.accessibleTo actor := by
  obtain ⟨_, _, h⟩ := h.edited
  exact h.access

theorem nonterminal : ¬ b.status.Terminal := by
  obtain ⟨_, _, h⟩ := h.edited
  exact h.nonterminal

theorem status : StatusChange amb actor b b'.status notes := by
  obtain ⟨_, _, h⟩ := h.edited
  exact h.status

end Edit

section Effects
variable {s t : Store} {e : Event} {rows : Tables}

/-- Every row stays, or is edited. -/
theorem booking_kept_or_edited (h : Effect s e rows) (ht : t.toTables = rows) {b : Booking}
    (hb : b ∈ s.bookings) :
    b ∈ t.bookings ∨ ∃ b' ∈ t.bookings, ∃ amb actor notes, Edit s e b b' amb actor notes := by
  cases h with
  | booked hcustomer h =>
    rw [ht]
    exact .inl (List.mem_append_left _ hb)
  | @edited amb caller bookingId req actor x x' notes W hactor hreq h =>
    have hrows := fun y => mem_replaceBooking (x := y) ⟨x, h.mem, h.sameId.symm⟩
    obtain ⟨hmem, rfl⟩ := s.user?_eq_some.mp hactor
    rw [ht]
    by_cases hid : b.id = x'.id
    · obtain rfl := s.booking_unique hb h.mem (hid.trans h.sameId)
      exact .inr ⟨x', (hrows x').mpr (.inl rfl), amb, actor, notes, ⟨req, rfl, hreq⟩, hmem,
        bookingId, W, h⟩
    · exact .inl ((hrows b).mpr (.inr ⟨hb, hid⟩))
  | _ =>
    rw [ht]
    exact .inl hb

/-- Every row was there, was inserted as PENDING, or has been edited. -/
theorem booking_origin (h : Effect s e rows) (ht : t.toTables = rows) {b' : Booking}
    (hb' : b' ∈ t.bookings) :
    b' ∈ s.bookings ∨
      (s.booking? b'.id = none ∧ ∃ amb caller bookingIn,
        e = .request amb caller (.createBooking bookingIn) ∧
          b' = newBooking amb caller bookingIn) ∨
      ∃ b amb actor notes, Edit s e b b' amb actor notes := by
  cases h with
  | @booked amb caller bookingIn W customer hcustomer h =>
    have hrows : t.bookings = s.bookings ++ [newBooking amb caller bookingIn] := by rw [ht]
    rw [hrows] at hb'
    rcases List.mem_append.mp hb' with hb' | hb'
    · exact .inl hb'
    · obtain rfl := List.mem_singleton.mp hb'
      exact .inr (.inl ⟨s.absent_of_insert hrows, amb, caller, bookingIn, rfl, rfl⟩)
  | @edited amb caller bookingId req actor x x' notes W hactor hreq h =>
    obtain ⟨hmem, rfl⟩ := s.user?_eq_some.mp hactor
    rw [ht] at hb'
    rcases (mem_replaceBooking ⟨x, h.mem, h.sameId.symm⟩).mp hb' with rfl | ⟨hb', _⟩
    · exact .inr (.inr ⟨x, amb, actor, notes, ⟨req, rfl, hreq⟩, hmem, bookingId, W, h⟩)
    · exact .inl hb'
  | _ =>
    rw [ht] at hb'
    exact .inl hb'

end Effects

/-- The same booking: the columns nothing ever writes again. -/
def Booking.Same (b b' : Booking) : Prop :=
  b'.id = b.id ∧ b'.customerId = b.customerId ∧ b'.providerId = b.providerId

theorem booking_stays_step {s : Store} {b : Booking} (hb : b ∈ s.bookings) (e : Event) :
    ∃ b' ∈ (step s e).bookings, b.Same b' := by
  rcases booking_kept_or_edited (step_effect s e) rfl hb with hb | ⟨b', hb', _, _, _, h⟩
  · exact ⟨b, hb, rfl, rfl, rfl⟩
  · exact ⟨b', hb', h.sameId, h.sameCustomer, h.sameProvider⟩

theorem booking_stays {s : Store} {b : Booking} (hb : b ∈ s.bookings) (events : List Event) :
    ∃ b' ∈ (run s events).bookings, b.Same b' := by
  induction events generalizing s b with
  | nil => exact ⟨b, hb, rfl, rfl, rfl⟩
  | cons e events ih =>
    obtain ⟨b₁, hb₁, hid₁, hc₁, hp₁⟩ := booking_stays_step hb e
    obtain ⟨b₂, hb₂, hid₂, hc₂, hp₂⟩ := ih hb₁
    exact ⟨b₂, hb₂, hid₂.trans hid₁, hc₂.trans hc₁, hp₂.trans hp₁⟩

/-- A booking in a terminal status is never written again. -/
theorem terminal_stays {s : Store} {b : Booking} (hb : b ∈ s.bookings)
    (hterminal : b.status.Terminal) (events : List Event) : b ∈ (run s events).bookings := by
  induction events generalizing s with
  | nil => exact hb
  | cons e events ih =>
    refine ih ?_
    rcases booking_kept_or_edited (step_effect s e) rfl hb with hb | ⟨b', hb', _, _, _, h⟩
    · exact hb
    · exact absurd hterminal h.nonterminal

/-- A status that changes in a step is moved by one accessible, permitted request. -/
theorem status_change_step {s : Store} {e : Event} {b b' : Booking} (hb : b ∈ s.bookings)
    (hb' : b' ∈ (step s e).bookings) (hid : b'.id = b.id) (hne : b'.status ≠ b.status) :
    ∃ amb actor req, e = .request amb actor.id req ∧ actor ∈ s.users ∧ b.accessibleTo actor ∧
      b'.status ∈ validTransitions b.status ∧
      actor.role ∈ roleAllowedTransitions b.status b'.status := by
  rcases booking_kept_or_edited (step_effect s e) rfl hb with hkept | ⟨x, hx, amb, actor, notes, h⟩
  · obtain rfl := (step s e).booking_unique hb' hkept hid
    exact absurd rfl hne
  · obtain rfl := (step s e).booking_unique hb' hx (hid.trans h.sameId.symm)
    obtain ⟨req, he, _⟩ := h.request
    rcases h.status with ⟨hkeep, _⟩ | ⟨hvalid, hrole, _⟩
    · exact absurd hkeep hne
    · exact ⟨amb, actor, req, he, h.known, h.access, hvalid, hrole⟩

section History

def Store.status? (s : Store) (id : UUID) : Option BookingStatus :=
  (s.booking? id).map Booking.status

theorem Store.status?_eq_some {s : Store} {id : UUID} {st : BookingStatus} :
    s.status? id = some st ↔ ∃ b ∈ s.bookings, b.id = id ∧ b.status = st := by
  simp only [status?, Option.map_eq_some_iff, booking?_eq_some, and_assoc]

/-- The statuses of a booking in the states of a run, from the first to the last. -/
def statuses (id : UUID) : Store → List Event → List BookingStatus
  | s, [] => (s.status? id).toList
  | s, e :: events => (s.status? id).toList ++ statuses id (step s e) events

/-- The distinct statuses a booking goes through. -/
def statusHistory (s : Store) (events : List Event) (id : UUID) : List BookingStatus :=
  (statuses id s events).destutter (· ≠ ·)

theorem status_step (s : Store) (e : Event) (id : UUID) :
    (s.status? id = none ∧ ((step s e).status? id = none ∨
        (step s e).status? id = some .pending)) ∨
      ∃ x y, s.status? id = some x ∧ (step s e).status? id = some y ∧
        (y = x ∨ y ∈ validTransitions x) := by
  cases hx : s.status? id with
  | some x =>
    obtain ⟨b, hb, hid, hstatus⟩ := Store.status?_eq_some.mp hx
    obtain ⟨b', hb', hid', _, _⟩ := booking_stays_step hb e
    refine .inr ⟨x, b'.status, rfl,
      Store.status?_eq_some.mpr ⟨b', hb', hid'.trans hid, rfl⟩, ?_⟩
    by_cases hne : b'.status = b.status
    · exact .inl (hne.trans hstatus)
    · obtain ⟨_, _, _, _, _, _, hvalid, _⟩ := status_change_step hb hb' hid' hne
      exact .inr (hstatus ▸ hvalid)
  | none =>
    refine .inl ⟨rfl, ?_⟩
    cases hy : (step s e).status? id with
    | none => exact .inl rfl
    | some y =>
      obtain ⟨b', hb', hid', rfl⟩ := Store.status?_eq_some.mp hy
      have hnone : ∀ b ∈ s.bookings, b.id ≠ id :=
        s.booking?_eq_none.mp (Option.map_eq_none_iff.mp hx)
      rcases booking_origin (step_effect s e) rfl hb' with
        hb | ⟨_, amb, caller, bookingIn, _, rfl⟩ | ⟨b, _, _, _, h⟩
      · exact absurd hid' (hnone b' hb)
      · exact .inr rfl
      · exact absurd (h.sameId.symm.trans hid') (hnone b h.mem)

/-- Along a run a status is kept or moved by one transition. -/
def StatusStep (x y : BookingStatus) : Prop := y = x ∨ y ∈ validTransitions x

theorem statuses_isChain (id : UUID) (s : Store) (events : List Event) :
    (statuses id s events).IsChain StatusStep ∧
      ((statuses id s events).head? = s.status? id ∨
        (s.status? id = none ∧ (statuses id s events).head? = some .pending)) := by
  induction events generalizing s with
  | nil =>
    unfold statuses
    cases s.status? id with
    | none => exact ⟨.nil, .inl rfl⟩
    | some x => exact ⟨.singleton x, .inl rfl⟩
  | cons e events ih =>
    obtain ⟨hchain, hhead⟩ := ih (step s e)
    unfold statuses
    rcases status_step s e id with ⟨hx, hy⟩ | ⟨x, y, hx, hy, hxy⟩
    · rw [hx, Option.toList_none, List.nil_append]
      refine ⟨hchain, ?_⟩
      rcases hhead with hhead | ⟨_, hhead⟩
      · rw [hhead]
        exact hy.imp_right fun hy => ⟨rfl, hy⟩
      · exact .inr ⟨rfl, hhead⟩
    · rw [hx, Option.toList_some, List.singleton_append]
      refine ⟨List.isChain_cons.mpr ⟨fun z hz => ?_, hchain⟩, .inl rfl⟩
      rcases hhead with hhead | ⟨hnone, _⟩
      · rw [hhead, hy] at hz
        obtain rfl := Option.some.inj hz
        exact hxy
      · rw [hnone] at hy
        cases hy

/-- Dropping repetitions leaves the transitions. -/
theorem isChain_destutter'_of_step {x : BookingStatus} {xs : List BookingStatus}
    (h : (x :: xs).IsChain StatusStep) :
    ∃ ys, xs.destutter' (· ≠ ·) x = x :: ys ∧
      (x :: ys).IsChain fun a b => b ∈ validTransitions a := by
  induction xs generalizing x with
  | nil => exact ⟨[], rfl, .singleton x⟩
  | cons y xs ih =>
    obtain ⟨hxy, hrest⟩ := List.isChain_cons_cons.mp h
    by_cases hne : x ≠ y
    · obtain ⟨ys, hys, hchain⟩ := ih hrest
      refine ⟨y :: ys, ?_, List.isChain_cons_cons.mpr ⟨?_, hchain⟩⟩
      · rw [List.destutter'_cons_pos _ hne, hys]
      · exact hxy.resolve_left (Ne.symm hne)
    · obtain rfl := not_not.mp hne
      obtain ⟨ys, hys, hchain⟩ := ih hrest
      refine ⟨ys, ?_, hchain⟩
      rw [List.destutter'_cons_neg _ (by simp), hys]

theorem nothing_after_terminal {x : BookingStatus} {ys : List BookingStatus}
    (hx : x.Terminal) (h : (x :: ys).IsChain fun a b => b ∈ validTransitions a) : ys = [] := by
  cases ys with
  | nil => rfl
  | cons y ys =>
    have hy := (List.isChain_cons_cons.mp h).1
    rcases hx with rfl | rfl <;> cases hy

/-- From PENDING the transition table allows three maximal paths. -/
theorem path_of_transitions {ys : List BookingStatus}
    (h : (.pending :: ys).IsChain fun a b => b ∈ validTransitions a) :
    .pending :: ys <+: [.pending, .confirmed, .completed] ∨
      .pending :: ys <+: [.pending, .cancelled] ∨
      .pending :: ys <+: [.pending, .confirmed, .cancelled] := by
  match ys, h with
  | [], _ => exact .inl ⟨[.confirmed, .completed], rfl⟩
  | y :: ys, h =>
    obtain ⟨hy, h⟩ := List.isChain_cons_cons.mp h
    have hy : y = .confirmed ∨ y = .cancelled := by simpa [validTransitions] using hy
    rcases hy with rfl | rfl
    · match ys, h with
      | [], _ => exact .inl ⟨[.completed], rfl⟩
      | z :: zs, h =>
        obtain ⟨hz, h⟩ := List.isChain_cons_cons.mp h
        have hz : z = .completed ∨ z = .cancelled := by simpa [validTransitions] using hz
        rcases hz with rfl | rfl
        · obtain rfl := nothing_after_terminal (.inr rfl) h
          exact .inl (List.prefix_refl _)
        · obtain rfl := nothing_after_terminal (.inl rfl) h
          exact .inr (.inr (List.prefix_refl _))
    · obtain rfl := nothing_after_terminal (.inl rfl) h
      exact .inr (.inl (List.prefix_refl _))

theorem statusHistory_path {s₀ : Store} (h₀ : s₀.bookings = []) (events : List Event)
    (id : UUID) :
    statusHistory s₀ events id <+: [.pending, .confirmed, .completed] ∨
      statusHistory s₀ events id <+: [.pending, .cancelled] ∨
      statusHistory s₀ events id <+: [.pending, .confirmed, .cancelled] := by
  have hnone : s₀.status? id = none := by
    unfold Store.status? Tables.booking?
    rw [h₀]
    rfl
  obtain ⟨hchain, hhead⟩ := statuses_isChain id s₀ events
  unfold statusHistory
  cases hxs : statuses id s₀ events with
  | nil => exact .inl (List.nil_prefix)
  | cons x xs =>
    rw [hxs] at hchain hhead
    have hx : x = .pending := by
      rcases hhead with hhead | ⟨_, hhead⟩
      · rw [hnone] at hhead
        cases hhead
      · exact Option.some.inj hhead
    subst hx
    obtain ⟨ys, hys, hpath⟩ := isChain_destutter'_of_step hchain
    rw [List.destutter_cons', hys]
    exact path_of_transitions hpath

end History

/-- The whole life of a booking, from no bookings on: it stays and stays the same one, its
statuses follow one of three paths, every change is made by somebody entitled to it,
and nothing changes after the last. -/
theorem lifecycle {s₀ : Store} (h₀ : s₀.bookings = []) (events : List Event) :
    (∀ more, ∀ b ∈ (run s₀ events).bookings, ∃ b' ∈ (run s₀ (events ++ more)).bookings,
      b'.id = b.id ∧ b'.customerId = b.customerId ∧ b'.providerId = b.providerId) ∧
    (∀ id, statusHistory s₀ events id <+: [.pending, .confirmed, .completed] ∨
      statusHistory s₀ events id <+: [.pending, .cancelled] ∨
      statusHistory s₀ events id <+: [.pending, .confirmed, .cancelled]) ∧
    (∀ e, ∀ b ∈ (run s₀ events).bookings, ∀ b' ∈ (step (run s₀ events) e).bookings,
      b'.id = b.id → b'.status ≠ b.status →
        ∃ amb actor req, e = .request amb actor.id req ∧ actor ∈ (run s₀ events).users ∧
          (actor.role = .admin ∨ (actor.role = .customer ∧ b.customerId = actor.id) ∨
            (actor.role = .provider ∧ b.providerId = actor.id)) ∧
          actor.role ∈ roleAllowedTransitions b.status b'.status) ∧
    (∀ more, ∀ b ∈ (run s₀ events).bookings, b.status = .completed ∨ b.status = .cancelled →
      b ∈ (run s₀ (events ++ more)).bookings) := by
  refine ⟨fun more b hb => ?_, statusHistory_path h₀ events, ?_, fun more b hb hterminal => ?_⟩
  · rw [run_append]
    exact booking_stays hb more
  · intro e b hb b' hb' hid hne
    obtain ⟨amb, actor, req, he, hknown, haccess, _, hrole⟩ := status_change_step hb hb' hid hne
    exact ⟨amb, actor, req, he, hknown, haccess, hrole⟩
  · rw [run_append]
    exact terminal_stays hb hterminal.symm more

/-- A cancelled booking cannot be confirmed any more. -/
theorem lifecycle_cancelled :
    (⟨10, alice.id, paula.id, "Massage", 10 * hour, 11 * hour, .cancelled⟩ : Booking) ∈
      (run newPlatform ([booksAt alice 10 (10 * hour),
        .request (sampleAmbient 1 0) alice.id (.cancelBooking 10)] ++
        [.request (sampleAmbient 2 0) paula.id
          (.updateBooking 10 (statusOnly .confirmed))])).bookings :=
  (lifecycle rfl [booksAt alice 10 (10 * hour),
    .request (sampleAmbient 1 0) alice.id (.cancelBooking 10)]).2.2.2
    [.request (sampleAmbient 2 0) paula.id (.updateBooking 10 (statusOnly .confirmed))] _
    (by decide) (.inr rfl)

end BookingPlatform
