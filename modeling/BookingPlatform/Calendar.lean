import BookingPlatform.Effects
import BookingPlatform.Slots

/-!
# The calendar of a provider

What each active booking holds of its provider's time. Every commit of the platform
assigns one booking a slot, or none, in one calendar; solitary events only assign
slots that are free.
-/

namespace BookingPlatform

set_option autoImplicit false

open Transact Slots

/-- What a booking takes of a provider's time. -/
def Booking.takes (b : Booking) (providerId : UUID) : Option (Slot Time) :=
  if h : (b.providerId = providerId ∧ b.status ≠ .cancelled) ∧ b.startTime < b.endTime then
    some ⟨b.startTime, b.endTime, h.2⟩
  else none

theorem Booking.takes_eq_some {b : Booking} {providerId : UUID} {a : Slot Time} :
    b.takes providerId = some a ↔ b.providerId = providerId ∧ b.status ≠ .cancelled ∧
      b.startTime = a.first ∧ b.endTime = a.last := by
  unfold takes
  constructor
  · intro h
    split at h
    · rename_i hb
      obtain rfl := Option.some.inj h
      exact ⟨hb.1.1, hb.1.2, rfl, rfl⟩
    · cases h
  · rintro ⟨hp, hs, hst, hen⟩
    have hlt := a.proper
    rw [← hst, ← hen] at hlt
    rw [dif_pos ⟨⟨hp, hs⟩, hlt⟩]
    cases a
    simp_all

namespace Store
variable (s : Store)

/-- Which booking holds which slot of the provider's time. -/
def held (providerId id : UUID) : Option (Slot Time) :=
  (s.booking? id).bind fun b => b.takes providerId

theorem held_eq_some {providerId id : UUID} {a : Slot Time} :
    s.held providerId id = some a ↔ ∃ b ∈ s.bookings, b.id = id ∧ b.providerId = providerId ∧
      b.status ≠ .cancelled ∧ b.startTime = a.first ∧ b.endTime = a.last := by
  simp only [held, Option.bind_eq_some_iff, booking?_eq_some, Booking.takes_eq_some, and_assoc]

/-- No two active bookings of one provider overlap. -/
def NoOverlap : Prop :=
  ∀ a ∈ s.bookings, ∀ b ∈ s.bookings, a ≠ b → a.providerId = b.providerId →
    a.status ≠ .cancelled → b.status ≠ .cancelled →
      ¬ (a.startTime < b.endTime ∧ a.endTime > b.startTime)

instance : Decidable s.NoOverlap :=
  inferInstanceAs (Decidable (∀ a ∈ s.bookings, ∀ b ∈ s.bookings, _ → _ → _ → _ → ¬ (_ ∧ _)))

theorem noOverlap_iff_apart : s.NoOverlap ↔ ∀ providerId, Apart (s.held providerId) := by
  constructor
  · intro h p i j x y hi hj hij
    obtain ⟨a, ha, rfl, hap, has, hast, haen⟩ := s.held_eq_some.mp hi
    obtain ⟨b, hb, rfl, hbp, hbs, hbst, hben⟩ := s.held_eq_some.mp hj
    have hab : a ≠ b := fun hab => hij (hab ▸ rfl)
    have := h a ha b hb hab (hap.trans hbp.symm) has hbs
    rwa [hast, haen, hbst, hben] at this
  · intro h a ha b hb hab hp has hbs
    have hlt := s.sound.checkBookingEndAfterStart
    refine h b.providerId a.id b.id ⟨a.startTime, a.endTime, hlt a ha⟩
      ⟨b.startTime, b.endTime, hlt b hb⟩ (s.held_eq_some.mpr ?_) (s.held_eq_some.mpr ?_) ?_
    · exact ⟨a, ha, rfl, hp, has, rfl, rfl⟩
    · exact ⟨b, hb, rfl, rfl, hbs, rfl, rfl⟩
    · exact fun hid => hab (s.booking_unique ha hb hid)

variable {s}

/-- A conflict check that finds nothing says that the slot is free. -/
theorem free_of_conflict {providerId : UUID} {x : Option UUID} {a : Slot Time}
    (h : s.answer (.conflict providerId a.first a.last x) = none) {j : UUID} {b : Slot Time}
    (hj : s.held providerId j = some b) (hne : some j ≠ x) : ¬ a.Overlaps b := by
  obtain ⟨c, hc, rfl, hp, hs, hst, hen⟩ := s.held_eq_some.mp hj
  intro hab
  refine conflict_eq_none.mp h c hc ⟨hp, hs, ?_, ?_, hne⟩
  · rw [hst]
    exact hab.2
  · rw [hen]
    exact hab.1

variable {t : Store}

/-- An UPDATE of one booking assigns one holder anew. -/
theorem held_map {id : UUID} {g : Booking → Booking} (hg : ∀ b, b.id = id → (g b).id = id)
    (h : t.bookings = s.bookings.map fun b => if b.id = id then g b else b) (providerId : UUID) :
    t.held providerId = Function.update (s.held providerId) id
      ((s.booking? id).bind fun b => (g b).takes providerId) := by
  have hkey : ∀ b : Booking, (if b.id = id then g b else b).id = b.id := by
    intro b
    split
    · rename_i hid
      rw [hg b hid, hid]
    · rfl
  have hfind : ∀ j, t.booking? j =
      (s.booking? j).map fun b => if b.id = id then g b else b := by
    intro j
    unfold Tables.booking?
    rw [h, List.find?_map]
    congr 2
    funext b
    simp only [Function.comp, hkey]
  funext j
  unfold held
  rw [hfind]
  by_cases hj : j = id
  · subst j
    rw [Function.update_self]
    cases hb : s.booking? id with
    | none => rfl
    | some b =>
      have hid := (s.booking?_eq_some.mp hb).2
      simp [hid]
  · rw [Function.update_of_ne hj]
    cases hb : s.booking? j with
    | none => rfl
    | some b =>
      have hid := (s.booking?_eq_some.mp hb).2
      have hne : ¬ b.id = id := fun hbid => hj (hid.symm.trans hbid)
      simp [hne]

theorem held_replace {b b' : Booking} (hb : b ∈ s.bookings) (hid : b'.id = b.id)
    (h : t.bookings = replaceBooking s.bookings b') (providerId : UUID) :
    t.held providerId = Function.update (s.held providerId) b'.id (b'.takes providerId) := by
  have hmap := held_map (s := s) (t := t) (g := fun _ => b') (fun _ _ => rfl) h
  rw [hmap, s.booking?_eq_some.mpr ⟨hb, hid.symm⟩]
  rfl

/-- A row that could be inserted was not there. -/
theorem absent_of_insert {b : Booking} (h : t.bookings = s.bookings ++ [b]) :
    s.booking? b.id = none := by
  refine s.booking?_eq_none.mpr fun x hx hid => ?_
  have hkeys := t.sound.bookingsKey
  rw [h, List.map_append, List.nodup_append] at hkeys
  exact hkeys.2.2 _ (List.mem_map_of_mem hx) _ (List.mem_singleton.mpr rfl) hid

/-- An INSERT assigns one new holder. -/
theorem held_insert {b : Booking} (h : t.bookings = s.bookings ++ [b]) (providerId : UUID) :
    t.held providerId = Function.update (s.held providerId) b.id (b.takes providerId) := by
  funext j
  have hb : b ∈ t.bookings := by rw [h]; simp
  by_cases hj : j = b.id
  · subst j
    rw [Function.update_self, held, t.booking?_eq_some.mpr ⟨hb, rfl⟩]
    rfl
  · rw [Function.update_of_ne hj]
    have hne : ¬ b.id = j := fun hid => hj hid.symm
    unfold held Tables.booking?
    rw [h, List.find?_append]
    simp [hne]

/-- One booking is given a slot that is free for it, or none. -/
theorem NoOverlap.assign {id : UUID} {o : UUID → Option (Slot Time)} (hs : s.NoOverlap)
    (h : ∀ p, t.held p = Function.update (s.held p) id (o p))
    (hfree : ∀ p a, o p = some a → Free (s.held p) id a) : t.NoOverlap := by
  rw [noOverlap_iff_apart] at hs ⊢
  intro p
  rw [h p]
  exact (hs p).update (hfree p)

theorem NoOverlap.congr (hs : s.NoOverlap) (h : t.bookings = s.bookings) : t.NoOverlap := by
  unfold NoOverlap
  rw [h]
  exact hs

end Store

/-- A new booking takes a slot for which the conflict check has found nothing. -/
theorem newBooking_slot_free {amb : Ambient} {customerId : UUID} {bookingIn : BookingCreate}
    {s : Store}
    (h : s.answer (.conflict bookingIn.providerId bookingIn.startTime bookingIn.endTime none) =
      none) (p : UUID) (a : Slot Time)
    (ha : (newBooking amb customerId bookingIn).takes p = some a) :
    Free (s.held p) amb.uuid4 a := by
  obtain ⟨hp, _, hst, hen⟩ := Booking.takes_eq_some.mp ha
  have hp : bookingIn.providerId = p := hp
  have hst : bookingIn.startTime = a.first := hst
  have hen : bookingIn.endTime = a.last := hen
  subst hp
  rw [hst, hen] at h
  exact fun j b hj _ => Store.free_of_conflict h hj (by simp)

/-- An accepted change keeps the slot the booking has, moves to a free one, or gives
it up. -/
theorem Edited.slot_free {amb : Ambient} {bookingId : UUID} {actor : User} {b b' : Booking}
    {notes : List Notification} {s : Store} {W : List Write} (hs : s.NoOverlap)
    (h : Edited amb bookingId actor b b' notes s.Says W) (p : UUID) (a : Slot Time)
    (ha : b'.takes p = some a) : Free (s.held p) b'.id a := by
  obtain ⟨hp, hactive, hst, hen⟩ := Booking.takes_eq_some.mp ha
  rw [h.sameId]
  rcases h.schedule with ⟨hkeepst, hkeepen⟩ | ⟨hlt, hconflict⟩
  · refine (s.noOverlap_iff_apart.mp hs p).free (s.held_eq_some.mpr ⟨b, h.mem, rfl, ?_⟩)
    refine ⟨h.sameProvider.symm.trans hp, ?_, hkeepst.symm.trans hst, hkeepen.symm.trans hen⟩
    exact fun hcancelled => h.nonterminal (.inl hcancelled)
  · have hfree := Eq.symm hconflict
    rw [hst, hen, ← h.sameProvider, hp] at hfree
    exact fun j c hj hne => Store.free_of_conflict hfree hj fun hsome =>
      hne (Option.some.inj hsome)

theorem noOverlap_of_effect {s t : Store} {e : Event} {rows : Tables} (h : Effect s e rows)
    (ht : t.toTables = rows) (hs : s.NoOverlap) : t.NoOverlap := by
  cases h with
  | booked hcustomer h =>
    exact hs.assign (s.held_insert (congrArg Tables.bookings ht))
      (newBooking_slot_free (Eq.symm h.free))
  | edited hactor hreq h =>
    exact hs.assign (s.held_replace h.mem h.sameId (congrArg Tables.bookings ht))
      (h.slot_free hs)
  | _ => exact hs.congr (by rw [ht])

theorem noOverlap_step {s : Store} (hs : s.NoOverlap) (e : Event) : (step s e).NoOverlap :=
  noOverlap_of_effect (step_effect s e) rfl hs

/-- Every provider in the calendar is a user of role PROVIDER. -/
def Store.ProvidersProvide (s : Store) : Prop :=
  ∀ b ∈ s.bookings, ∃ u ∈ s.users, u.id = b.providerId ∧ u.role = .provider

/-- One participant of every booking is a user of a fixed role, as long as it is so of
every booking that is made: users stay, and bookings keep their participants. -/
theorem participants_of_effect {who : Booking → UUID} {role : UserRole} {s t : Store} {e : Event}
    {rows : Tables} (h : Effect s e rows) (ht : t.toTables = rows)
    (hwho : ∀ b b' : Booking, b'.customerId = b.customerId → b'.providerId = b.providerId →
      who b' = who b)
    (hnew : ∀ amb caller bookingIn W customer,
      e = .request amb caller (.createBooking bookingIn) → s.user? caller = some customer →
      Booked amb caller bookingIn s.Says W →
        ∃ u ∈ s.users, u.id = who (newBooking amb caller bookingIn) ∧ u.role = role)
    (hs : ∀ b ∈ s.bookings, ∃ u ∈ s.users, u.id = who b ∧ u.role = role) :
    ∀ b ∈ t.bookings, ∃ u ∈ t.users, u.id = who b ∧ u.role = role := by
  rw [ht]
  cases h with
  | @booked amb caller bookingIn W customer hcustomer h =>
    intro b hb
    rcases List.mem_append.mp hb with hb | hb
    · exact hs b hb
    · obtain rfl := List.mem_singleton.mp hb
      exact hnew amb caller bookingIn W customer rfl hcustomer h
  | @edited amb caller bookingId req actor b b' notes W hactor hreq h =>
    intro x hx
    rcases (mem_replaceBooking ⟨b, h.mem, h.sameId.symm⟩).mp hx with rfl | ⟨hx, _⟩
    · rw [hwho b x h.sameCustomer h.sameProvider]
      exact hs b h.mem
    · exact hs x hx
  | registered =>
    intro b hb
    obtain ⟨u, hu, hp⟩ := hs b hb
    exact ⟨u, List.mem_append_left _ hu, hp⟩
  | _ => exact hs

theorem providersProvide_step {s : Store} (hs : s.ProvidersProvide) (e : Event) :
    (step s e).ProvidersProvide := by
  refine participants_of_effect (step_effect s e) rfl (fun _ _ _ hp => hp) ?_ hs
  intro amb caller bookingIn W customer _ _ h
  obtain ⟨p, hp, hid, hrole⟩ := h.provider
  exact ⟨p, (s.user?_eq_some.mp (Eq.symm hp)).1, hid, hrole⟩

/-- What holds initially and survives every step holds in every reachable state. -/
theorem run_invariant {I : Store → Prop} {s₀ : Store} (h₀ : I s₀)
    (hstep : ∀ s e, I s → I (step s e)) (events : List Event) : I (run s₀ events) := by
  induction events generalizing s₀ with
  | nil => exact h₀
  | cons e events ih => exact ih (hstep s₀ e h₀)

/-- The active bookings of a provider. -/
def Tables.activeOf (t : Tables) (providerId : UUID) : List Booking :=
  t.bookings.filter fun b => b.providerId = providerId ∧ b.status ≠ .cancelled

/-- However they are sorted by start, each active booking ends before the next starts. -/
theorem Store.NoOverlap.isChain {s : Store} (hs : s.NoOverlap) {providerId : UUID}
    {rows : List Booking} (hperm : rows.Perm (s.activeOf providerId))
    (hsorted : rows.Pairwise fun a b => a.startTime ≤ b.startTime) :
    rows.IsChain fun a b => a.endTime ≤ b.startTime := by
  have hmem : ∀ b ∈ rows, b ∈ s.bookings ∧ b.providerId = providerId ∧ b.status ≠ .cancelled := by
    intro b hb
    have := hperm.mem_iff.mp hb
    simpa [Tables.activeOf] using this
  have hnodup : rows.Nodup :=
    hperm.nodup_iff.mpr (s.sound.bookingsKey.of_map.filter _)
  refine Slot.isChain_of_sorted
    (fun b hb => s.sound.checkBookingEndAfterStart b (hmem b hb).1) hsorted ?_
  refine List.Pairwise.imp_of_mem (fun {a b} ha hb hne => ?_) hnodup
  obtain ⟨ha, hap, hastatus⟩ := hmem a ha
  obtain ⟨hb, hbp, hbstatus⟩ := hmem b hb
  exact hs a ha b hb hne (hap.trans hbp.symm) hastatus hbstatus

/-- From no bookings on, whatever is executed, the calendar stays sound. -/
theorem calendar_sound {s₀ : Store} (h₀ : s₀.bookings = []) (events : List Event) :
    (∀ b ∈ (run s₀ events).bookings, b.endTime > b.startTime ∧ b.customerId ≠ b.providerId ∧
      ∃ u ∈ (run s₀ events).users, u.id = b.providerId ∧ u.role = .provider) ∧
    (∀ (providerId : UUID) (rows : List Booking), rows.Perm ((run s₀ events).activeOf providerId) →
      rows.Pairwise (fun a b => a.startTime ≤ b.startTime) →
        rows.IsChain fun a b => a.endTime ≤ b.startTime) ∧
    (run s₀ events).NoOverlap := by
  have hnone : s₀.NoOverlap ∧ s₀.ProvidersProvide := by
    unfold Store.NoOverlap Store.ProvidersProvide
    rw [h₀]
    simp
  have hinv := run_invariant (I := fun s => s.NoOverlap ∧ s.ProvidersProvide) hnone
    (fun s e h => ⟨noOverlap_step h.1 e, providersProvide_step h.2 e⟩)
    events
  have hsound := (run s₀ events).sound
  refine ⟨fun b hb => ⟨?_, ?_, hinv.2 b hb⟩, fun p rows hperm hsorted => ?_, hinv.1⟩
  · exact hsound.checkBookingEndAfterStart b hb
  · exact hsound.checkBookingCustomerNotProvider b hb
  · exact hinv.1.isChain hperm hsorted

theorem calendar_sound_twoHours :
    (run newPlatform [booksAt alice 10 (10 * hour), booksAt bob 20 (11 * hour)]).NoOverlap :=
  (calendar_sound rfl [booksAt alice 10 (10 * hour), booksAt bob 20 (11 * hour)]).2.2

end BookingPlatform
