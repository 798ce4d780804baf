import BookingPlatform.Calendar
import BookingPlatform.Concurrency

/-!
# Double booking

The conflict SELECT and the commit are separate steps. The calendar stays free of
overlaps as long as no slot is taken on reads that no longer hold.
-/

namespace BookingPlatform

set_option autoImplicit false

open Transact Slots

/-- The transaction gives some booking a slot that it does not hold in `s`. -/
inductive Assigns (W : List Write) (s : Store) : Prop where
  | books {b : Booking} (h : .insertBooking b ∈ W)
  | moves {id p : UUID} {c : BookingChanges} {now : Booking} {a : Slot Time}
      (h : .updateBooking id c ∈ W) (hnow : s.booking? id = some now)
      (hnew : (now.patch c).takes p = some a) (hold : now.takes p ≠ some a)

/-- What the client has been told of the calendar still holds: its conflict checks would
find nothing again, and the row it loaded has the schedule it had and is still active. -/
structure UpToDate (c : Client platform) (s : Store) : Prop where
  free : ∀ p st en x, Told c (.conflict p st en x) none → s.answer (.conflict p st en x) = none
  row : ∀ id b, Told c (.booking id) (some b) → ∀ now, s.booking? id = some now →
    now.startTime = b.startTime ∧ now.endTime = b.endTime ∧
      (now.status = .cancelled → b.status = .cancelled)

/-- An UPDATE of a row that still has the loaded schedule writes the intended one. -/
theorem patch_schedule {b now : Booking} (b' : Booking) (hst : now.startTime = b.startTime)
    (hen : now.endTime = b.endTime) :
    (now.patch (b.changes b')).startTime = b'.startTime ∧
      (now.patch (b.changes b')).endTime = b'.endTime := by
  unfold Booking.patch Booking.changes
  simp only [hst, hen, changed_getD, and_self]

variable {s t : Store} {W : List Write} {c : Client platform}

/-- A change that is made on a current row and a current conflict check takes a free slot. -/
theorem patched_slot_free {amb : Ambient} {bookingId p : UUID} {actor : User} {b b' now : Booking}
    {notes : List Notification} {a : Slot Time} (hs : s.NoOverlap)
    (h : Edited amb bookingId actor b b' notes (Told c) W) (hnow : s.booking? bookingId = some now)
    (hsame : b.Same now) (hadm : Assigns W s → UpToDate c s)
    (ha : (now.patch (b.changes b')).takes p = some a) : Free (s.held p) bookingId a := by
  have hheld : s.held p bookingId = now.takes p := by
    rw [Store.held, hnow, Option.bind_some]
  by_cases hkept : now.takes p = some a
  · exact (s.noOverlap_iff_apart.mp hs p).free (hheld.trans hkept)
  have hmoves : Write.updateBooking bookingId (b.changes b') ∈ W := by
    rw [h.writes]
    exact List.mem_append_right _ List.mem_cons_self
  have hcurrent := hadm (.moves hmoves hnow ha hkept)
  obtain ⟨hst, hen, hactive⟩ := hcurrent.row bookingId b h.told now hnow
  obtain ⟨hpatchst, hpatchen⟩ := patch_schedule b' hst hen
  obtain ⟨hp, _, hfirst, hlast⟩ := Booking.takes_eq_some.mp ha
  have hp : now.providerId = p := hp
  rw [hpatchst] at hfirst
  rw [hpatchen] at hlast
  rcases h.schedule with ⟨hkeepst, hkeepen⟩ | ⟨_, hconflict⟩
  · -- The loaded row was active, so the stored one is, and holds this slot already.
    refine absurd (Booking.takes_eq_some.mpr ⟨hp, fun hcancelled => ?_, ?_, ?_⟩) hkept
    · exact h.nonterminal (.inl (hactive hcancelled))
    · rw [hst, ← hkeepst, hfirst]
    · rw [hen, ← hkeepen, hlast]
  · have hfree := hcurrent.free _ _ _ _ hconflict
    rw [hfirst, hlast, ← hsame.2.2, hp, h.key] at hfree
    exact fun j x hj hne => Store.free_of_conflict hfree hj fun hsome => hne (Option.some.inj hsome)

theorem noOverlap_commit {e : Event} (hs : s.NoOverlap) (h : e.Commits (Told c) W)
    (hfacts : ∀ e ∈ c.log, Remains Booking.Same e s) (hadm : Assigns W s → UpToDate c s)
    (ht : t.toTables = s.afterAll W) : t.NoOverlap := by
  cases h.touches with
  | aside haside => exact hs.congr (by rw [ht, (afterAll_aside haside).1])
  | reviewed hreviewed => exact hs.congr (hreviewed.rows ht).1
  | booked hbooked =>
    have hcurrent := hadm (.books (by rw [hbooked.writes]; exact List.mem_cons_self))
    exact hs.assign (s.held_insert (hbooked.rows ht).1)
      (newBooking_slot_free (hcurrent.free _ _ _ _ hbooked.free))
  | @edited amb bookingId actor b b' notes hedited =>
    obtain ⟨now, hmem, hid, hsame⟩ := hedited.told.remains hfacts
    have hnow := s.booking?_eq_some.mpr ⟨hmem, hid⟩
    have hheld := s.held_map (g := fun x => x.patch (b.changes b')) (fun _ h => h)
      (hedited.rows ht).1
    refine hs.assign hheld fun p a ha => ?_
    rw [hnow, Option.bind_some] at ha
    exact patched_slot_free hs hedited hnow hsame hadm ha

/-- Rows stay, and stay the same bookings, whatever is committed. -/
theorem Touches.same {K : Knowledge} (h : Touches K W) (ht : t.toTables = s.afterAll W) :
    ∀ now ∈ s.bookings, ∃ later ∈ t.bookings, later.id = now.id ∧ now.Same later := by
  intro now hnow
  rcases h.rows ht hnow with hkept | ⟨_, _, _, _, _, _, hpatched⟩
  · exact ⟨now, hkept, rfl, rfl, rfl, rfl⟩
  · exact ⟨_, hpatched, rfl, rfl, rfl, rfl⟩

section Interleaved
variable {ι : Type} [DecidableEq ι] {events : ι → Event}

/-- Slots are taken on reads that still hold. -/
def TakesCurrently (_ : ι) (c : Client platform) (W : List Write) (s : Store) : Prop :=
  Assigns W s → UpToDate c s

theorem noOverlap_rules :
    System.Invariant (commitsOf events) TakesCurrently (fun s _ => s.NoOverlap)
      (Remains Booking.Same) where
  told := fun _ h => remains_of_current (fun _ => ⟨rfl, rfl, rfl⟩) h
  commit := by
    intro i c W s t C hs _ hfacts hO hadm happ
    have ht := tables_of_applyAll happ
    refine ⟨noOverlap_commit hs hO.2 hfacts hadm ht, fun e he => ?_⟩
    refine he.trans ?_ (hO.2.touches.same ht)
    rintro a b c ⟨h₁, h₂, h₃⟩ ⟨h₁', h₂', h₃'⟩
    exact ⟨h₁'.trans h₁, h₂'.trans h₂, h₃'.trans h₃⟩

/-- In every interleaving that takes slots only on reads that still hold, no committed
state has a double booking. -/
theorem no_double_booking {s₀ : Store} (h₀ : s₀.NoOverlap) (schedule : List ι)
    (hadm : (concurrently events s₀).Admits TakesCurrently schedule) (reached : List ι)
    (hreached : reached <+: schedule) :
    ((concurrently events s₀).run reached).store.NoOverlap := by
  obtain ⟨rest, rfl⟩ := hreached
  exact ((concurrently_holds h₀).run noOverlap_rules hadm.left).inv

end Interleaved

section Example

/-- Two customers who ask Paula for the same hour. -/
def sameHour : Bool → Event
  | true => booksAt alice 10 (10 * hour)
  | false => booksAt bob 20 (10 * hour)

/-- Both check while neither has committed, and both are booked. -/
theorem double_booked :
    newPlatform.NoOverlap ∧
      ¬ ((concurrently sameHour newPlatform).run [true, false, true, false, true, false, true, true,
        true, true, false, false, false, false]).store.NoOverlap := by
  decide

def nextHour : Bool → Event
  | true => booksAt alice 10 (10 * hour)
  | false => booksAt bob 20 (11 * hour)

theorem upToDate_of_current {c : Client platform} {s : Store} (h : ∀ e ∈ c.log, e.Current s) :
    UpToDate c s where
  free := fun _ _ _ _ htold => Eq.symm (htold.stands h)
  row := by
    intro id b htold now hnow
    have hb : some b = s.booking? id := htold.stands h
    rw [hnow] at hb
    obtain rfl := Option.some.inj hb
    exact ⟨rfl, rfl, fun hcancelled => hcancelled⟩

/-- The same steps with one hour after the other: no read is out of date. -/
theorem no_double_booking_nextHour :
    ((concurrently nextHour newPlatform).run [true, false, true, false, true, false, true, true,
      true, true, false, false, false, false]).store.bookings.length = 2 ∧
    ((concurrently nextHour newPlatform).run [true, false, true, false, true, false, true, true,
      true, true, false, false, false, false]).store.NoOverlap := by
  have hcurrent : (concurrently nextHour newPlatform).Admits
      (fun _ c _ s => ∀ e ∈ c.log, e.Current s) [true, false, true, false, true, false, true, true,
        true, true, false, false, false, false] := by
    decide
  exact ⟨by decide, no_double_booking (by decide) _
    (hcurrent.mono fun _ _ _ _ h _ => upToDate_of_current h) _ List.prefix_rfl⟩

end Example

end BookingPlatform
