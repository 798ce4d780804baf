import BookingPlatform.Lifecycle
import Mathlib.Data.List.Induction

/-!
# The record of a booking

The notifications about a booking, seen as a set of keys: an insert that gives way
to its unique constraint adds its key to the set, whether or not it adds a row. What
the keys of a booking are is determined by the history of the booking alone.
-/

namespace BookingPlatform

set_option autoImplicit false

open Transact

/-- There is a notification for this user, booking and type. -/
def Sent (rows : List Notification) (bookingId userId : UUID) (type : NotificationType) : Prop :=
  ∃ n ∈ rows, n.bookingId = some bookingId ∧ n.userId = userId ∧ n.type = type

section Keys
variable {rows notes : List Notification} {bookingId userId : UUID} {type : NotificationType}

theorem sent_nil : ¬ Sent [] bookingId userId type := by
  rintro ⟨n, hn, _⟩
  cases hn

theorem sent_append :
    Sent (rows ++ notes) bookingId userId type ↔
      Sent rows bookingId userId type ∨ Sent notes bookingId userId type := by
  constructor
  · rintro ⟨n, hn, hkey⟩
    exact (List.mem_append.mp hn).imp (fun hn => ⟨n, hn, hkey⟩) fun hn => ⟨n, hn, hkey⟩
  · rintro (⟨n, hn, hkey⟩ | ⟨n, hn, hkey⟩)
    · exact ⟨n, List.mem_append_left _ hn, hkey⟩
    · exact ⟨n, List.mem_append_right _ hn, hkey⟩

theorem sent_singleton {n : Notification} :
    Sent [n] bookingId userId type ↔
      n.bookingId = some bookingId ∧ n.userId = userId ∧ n.type = type := by
  simp [Sent]

theorem sent_addNotification {n : Notification} :
    Sent (Tables.addNotification rows n) bookingId userId type ↔
      Sent rows bookingId userId type ∨ Sent [n] bookingId userId type := by
  unfold Tables.addNotification
  split
  · rename_i hdup
    obtain ⟨m, hm, huser, hbooking, hsome, htype⟩ := hdup
    refine ⟨.inl, fun h => h.elim id fun h => ?_⟩
    obtain ⟨hb, hu, ht⟩ := sent_singleton.mp h
    exact ⟨m, hm, hbooking.trans hb, huser.trans hu, htype.trans ht⟩
  · exact sent_append

/-- Deduplicated inserts add keys, and nothing but keys. -/
theorem sent_addNotifications :
    Sent (addNotifications rows notes) bookingId userId type ↔
      Sent rows bookingId userId type ∨ Sent notes bookingId userId type := by
  induction notes generalizing rows with
  | nil => exact ⟨.inl, fun h => h.resolve_right sent_nil⟩
  | cons n notes ih =>
    have hcons : addNotifications rows (n :: notes) =
        addNotifications (Tables.addNotification rows n) notes := rfl
    rw [hcons, ih, sent_addNotification, or_assoc, ← sent_append]
    rfl

theorem sent_acknowledge {which : Notification → Bool} {readAt : Time} :
    Sent (acknowledge rows which readAt) bookingId userId type ↔
      Sent rows bookingId userId type := by
  constructor
  · rintro ⟨n, hn, hkey⟩
    obtain ⟨m, hm, rfl⟩ := List.mem_map.mp hn
    refine ⟨m, hm, ?_⟩
    split at hkey <;> exact hkey
  · rintro ⟨n, hn, hkey⟩
    refine ⟨_, List.mem_map_of_mem hn, ?_⟩
    split <;> exact hkey

theorem sent_cancellationNotes {amb : Ambient} {b : Booking} {actor : User} :
    Sent (cancellationNotes amb b actor) bookingId userId type ↔
      bookingId = b.id ∧ type = .bookingCancelled ∧
        (userId = b.customerId ∨ userId = b.providerId) ∧ userId ≠ actor.id := by
  unfold cancellationNotes
  rw [sent_append]
  split <;> split <;>
    simp only [sent_nil, sent_singleton, cancelledNote, Ambient.notification, Option.some.injEq]
  all_goals grind

/-- The keys of the lifecycle notifications of a status. -/
theorem sent_transitionNotes {amb : Ambient} {b : Booking} {actor : User} :
    Sent (transitionNotes amb b actor) bookingId userId type ↔
      bookingId = b.id ∧
        ((b.status = .confirmed ∧ type = .bookingConfirmed ∧ userId = b.customerId) ∨
        (b.status = .completed ∧ type = .bookingCompleted ∧ userId = b.customerId) ∨
        (b.status = .cancelled ∧ type = .bookingCancelled ∧
          (userId = b.customerId ∨ userId = b.providerId) ∧ userId ≠ actor.id)) := by
  unfold transitionNotes
  cases hs : b.status with
  | pending => simp [sent_nil]
  | confirmed =>
    simp only [sent_singleton, Ambient.notification, Option.some.injEq]
    grind
  | completed =>
    simp only [sent_singleton, Ambient.notification, Option.some.injEq]
    grind
  | cancelled =>
    simp only [sent_cancellationNotes]
    grind

theorem sent_notes {notice : Notice} {amb : Ambient} {bookings : List Booking} :
    Sent (bookings.flatMap (notice.notes amb)) bookingId userId type ↔
      type = notice.type ∧ ∃ b ∈ bookings, b.id = bookingId ∧
        (userId = b.customerId ∨ userId = b.providerId) := by
  simp only [Sent, List.mem_flatMap, Notice.notes, List.mem_cons, List.not_mem_nil, or_false]
  constructor
  · rintro ⟨n, ⟨b, hb, rfl | rfl⟩, hbooking, huser, htype⟩
    · exact ⟨htype.symm, b, hb, Option.some.inj hbooking, .inl huser.symm⟩
    · exact ⟨htype.symm, b, hb, Option.some.inj hbooking, .inr huser.symm⟩
  · rintro ⟨rfl, b, hb, rfl, rfl | rfl⟩
    · exact ⟨_, ⟨b, hb, .inl rfl⟩, rfl, rfl, rfl⟩
    · exact ⟨_, ⟨b, hb, .inr rfl⟩, rfl, rfl, rfl⟩

end Keys

/-- What the keys about `b` must be, given whether it has been CONFIRMED and who has
cancelled it. -/
structure Recorded (sent : UUID → NotificationType → Prop) (b : Booking) (wasConfirmed : Prop)
    (cancelledBy : UUID → Prop) : Prop where
  participants : ∀ u ty, sent u ty → u = b.customerId ∨ u = b.providerId
  created : ∀ u, sent u .bookingCreated ↔ u = b.providerId
  confirmed : ∀ u, sent u .bookingConfirmed ↔ wasConfirmed ∧ u = b.customerId
  completed : ∀ u, sent u .bookingCompleted ↔ b.status = .completed ∧ u = b.customerId
  cancelled : ∀ u, sent u .bookingCancelled ↔
    ∃ a, cancelledBy a ∧ (u = b.customerId ∨ u = b.providerId) ∧ u ≠ a
  jobs : ∀ u ty, ty = .bookingReminder ∨ ty = .bookingOverdue → sent u ty → wasConfirmed
  present : b.status = .confirmed → wasConfirmed
  canceller : b.status = .cancelled ↔ ∃ a, cancelledBy a
  once : ∀ a a', cancelledBy a → cancelledBy a' → a = a'

namespace Recorded
variable {sent sent' : UUID → NotificationType → Prop} {b b' : Booking}
  {wasConfirmed wasConfirmed' : Prop} {cancelledBy cancelledBy' : UUID → Prop}

theorem congr (h : Recorded sent b wasConfirmed cancelledBy)
    (hsent : ∀ u ty, sent' u ty ↔ sent u ty)
    (hconfirmed : wasConfirmed' ↔ wasConfirmed) (hby : ∀ a, cancelledBy' a ↔ cancelledBy a) :
    Recorded sent' b wasConfirmed' cancelledBy' := by
  have hs : sent' = sent := funext fun u => funext fun ty => propext (hsent u ty)
  have hc : cancelledBy' = cancelledBy := funext fun a => propext (hby a)
  rw [hs, hc, propext hconfirmed]
  exact h

theorem born (hstatus : b.status = .pending)
    (hsent : ∀ u ty, sent u ty ↔ ty = .bookingCreated ∧ u = b.providerId)
    (hconfirmed : ¬ wasConfirmed) (hby : ∀ a, ¬ cancelledBy a) :
    Recorded sent b wasConfirmed cancelledBy where
  participants u ty hu := .inr ((hsent u ty).mp hu).2
  created u := by simp [hsent]
  confirmed u := by simp [hsent, hconfirmed]
  completed u := by simp [hsent, hstatus]
  cancelled u := by simp [hsent, hby]
  jobs u ty hty hu := by
    obtain ⟨rfl, _⟩ := (hsent u ty).mp hu
    simp at hty
  present h := by simp [hstatus] at h
  canceller := by simp [hstatus, hby]
  once a _ ha := absurd ha (hby a)

/-- A job tells the participants of a CONFIRMED booking, and nobody else. -/
theorem told (h : Recorded sent b wasConfirmed cancelledBy) {type : NotificationType}
    (htype : type = .bookingReminder ∨ type = .bookingOverdue) {due : Prop}
    (hdue : due → b.status = .confirmed)
    (hsent : ∀ u ty, sent' u ty ↔ sent u ty ∨
      (due ∧ ty = type ∧ (u = b.customerId ∨ u = b.providerId))) :
    Recorded sent' b wasConfirmed cancelledBy := by
  have hother : ∀ u ty, ty ≠ .bookingReminder → ty ≠ .bookingOverdue →
      (sent' u ty ↔ sent u ty) := by
    intro u ty h₁ h₂
    rw [hsent]
    refine ⟨fun hu => hu.resolve_right ?_, .inl⟩
    rintro ⟨_, rfl, _⟩
    exact htype.elim h₁ h₂
  refine ⟨?_, ?_, ?_, ?_, ?_, ?_, h.present, h.canceller, h.once⟩
  · intro u ty hu
    rcases (hsent u ty).mp hu with hu | ⟨_, _, hu⟩
    · exact h.participants u ty hu
    · exact hu
  · exact fun u => (hother u _ (by simp) (by simp)).trans (h.created u)
  · exact fun u => (hother u _ (by simp) (by simp)).trans (h.confirmed u)
  · exact fun u => (hother u _ (by simp) (by simp)).trans (h.completed u)
  · exact fun u => (hother u _ (by simp) (by simp)).trans (h.cancelled u)
  · intro u ty hty hu
    rcases (hsent u ty).mp hu with hu | ⟨hd, _⟩
    · exact h.jobs u ty hty hu
    · exact h.present (hdue hd)

/-- The record is about the participants and the status of the row only. -/
theorem row (h : Recorded sent b wasConfirmed cancelledBy) (hc : b'.customerId = b.customerId)
    (hp : b'.providerId = b.providerId) (hs : b'.status = b.status) :
    Recorded sent b' wasConfirmed cancelledBy where
  participants := by simpa only [hc, hp] using h.participants
  created := by simpa only [hp] using h.created
  confirmed := by simpa only [hc] using h.confirmed
  completed := by simpa only [hc, hs] using h.completed
  cancelled := by simpa only [hc, hp] using h.cancelled
  jobs := h.jobs
  present := by simpa only [hs] using h.present
  canceller := by simpa only [hs] using h.canceller
  once := h.once

/-- A permitted transition of the row, with its notifications, continues the record. -/
theorem moved (h : Recorded sent b wasConfirmed cancelledBy) {actor : UUID}
    (hc : b'.customerId = b.customerId) (hp : b'.providerId = b.providerId)
    (hnobody : ∀ a, ¬ cancelledBy a) (hvalid : b'.status ∈ validTransitions b.status)
    (hsent : ∀ u ty, sent' u ty ↔ sent u ty ∨
      ((b'.status = .confirmed ∧ ty = .bookingConfirmed ∧ u = b.customerId) ∨
      (b'.status = .completed ∧ ty = .bookingCompleted ∧ u = b.customerId) ∨
      (b'.status = .cancelled ∧ ty = .bookingCancelled ∧
        (u = b.customerId ∨ u = b.providerId) ∧ u ≠ actor)))
    (hconfirmed : wasConfirmed' ↔ wasConfirmed ∨ b'.status = .confirmed)
    (hby : ∀ a, cancelledBy' a ↔ cancelledBy a ∨ (a = actor ∧ b'.status = .cancelled)) :
    Recorded sent' b' wasConfirmed' cancelledBy' := by
  have hopen : b.status ≠ .completed := by
    intro hs
    rw [hs] at hvalid
    cases hvalid
  refine ⟨?_, ?_, ?_, ?_, ?_, ?_, ?_, ?_, ?_⟩
  · intro u ty hu
    rw [hc, hp]
    rcases (hsent u ty).mp hu with hu | ⟨_, _, hu⟩ | ⟨_, _, hu⟩ | ⟨_, _, hu, _⟩
    · exact h.participants u ty hu
    · exact .inl hu
    · exact .inl hu
    · exact hu
  · intro u
    rw [hsent, hp, h.created]
    simp
  · intro u
    rw [hsent, hc, hconfirmed, h.confirmed]
    grind
  · intro u
    rw [hsent, hc, h.completed]
    grind
  · intro u
    rw [hsent, hc, hp, h.cancelled]
    simp only [hby, hnobody]
    grind
  · intro u ty hty hu
    rw [hconfirmed]
    rcases (hsent u ty).mp hu with hu | hu
    · exact .inl (h.jobs u ty hty hu)
    · grind
  · exact fun hs => hconfirmed.mpr (.inr hs)
  · simp [hby, hnobody]
  · intro a a' ha ha'
    simp only [hby, hnobody, false_or] at ha ha'
    exact ha.1.trans ha'.1.symm

/-- One permitted change of the row, with its notifications, continues the record. -/
theorem edited (h : Recorded sent b wasConfirmed cancelledBy) {amb : Ambient} {actor : User}
    {notes : List Notification} (hc : b'.customerId = b.customerId)
    (hp : b'.providerId = b.providerId) (hopen : ¬ b.status.Terminal)
    (hchange : StatusChange amb actor b b'.status notes)
    (hsent : ∀ u ty, sent' u ty ↔ sent u ty ∨ Sent notes b.id u ty)
    (hconfirmed : wasConfirmed' ↔ wasConfirmed ∨ b'.status = .confirmed)
    (hby : ∀ a, cancelledBy' a ↔ cancelledBy a ∨ (a = actor.id ∧ b'.status = .cancelled)) :
    Recorded sent' b' wasConfirmed' cancelledBy' := by
  rcases hchange with ⟨hkeep, rfl⟩ | ⟨hvalid, _, rfl⟩
  · have hcancelled : b'.status ≠ .cancelled := fun hs => hopen (.inl (hkeep ▸ hs))
    refine (h.row hc hp hkeep).congr (fun u ty => by simp [hsent, sent_nil]) ?_
      fun a => by simp [hby, hcancelled]
    exact hconfirmed.trans ⟨fun hw => hw.elim id fun hs => h.present (hkeep ▸ hs), .inl⟩
  · have hnobody : ∀ a, ¬ cancelledBy a := fun a ha => hopen (.inl (h.canceller.mpr ⟨a, ha⟩))
    refine h.moved hc hp hnobody hvalid (fun u ty => ?_) hconfirmed hby
    rw [hsent, sent_transitionNotes]
    simp

end Recorded

section History

/-- The booking was CONFIRMED in some state of the run. -/
def WasConfirmed (s₀ : Store) (events : List Event) (id : UUID) : Prop :=
  ∃ pre post, events = pre ++ post ∧ (run s₀ pre).status? id = some .confirmed

def Event.caller? : Event → Option UUID
  | .request _ caller _ => some caller
  | _ => none

/-- An event of this user made the booking CANCELLED. -/
def CancelledBy (s₀ : Store) (events : List Event) (id userId : UUID) : Prop :=
  ∃ pre e post, events = pre ++ e :: post ∧ e.caller? = some userId ∧
    (run s₀ pre).status? id ≠ some .cancelled ∧
    (run s₀ (pre ++ [e])).status? id = some .cancelled

variable {s₀ : Store} {events : List Event} {e : Event} {id : UUID}

theorem wasConfirmed_snoc : WasConfirmed s₀ (events ++ [e]) id ↔
    WasConfirmed s₀ events id ∨ (run s₀ (events ++ [e])).status? id = some .confirmed := by
  constructor
  · rintro ⟨pre, post, h, hs⟩
    rcases List.eq_nil_or_concat post with rfl | ⟨post, e', rfl⟩
    · rw [List.append_nil] at h
      exact .inr (h ▸ hs)
    · rw [List.concat_eq_append, ← List.append_assoc] at h
      exact .inl ⟨pre, post, (List.append_inj' h rfl).1, hs⟩
  · rintro (⟨pre, post, rfl, hs⟩ | hs)
    · exact ⟨pre, post ++ [e], List.append_assoc .., hs⟩
    · exact ⟨events ++ [e], [], (List.append_nil _).symm, hs⟩

theorem cancelledBy_snoc {userId : UUID} : CancelledBy s₀ (events ++ [e]) id userId ↔
    CancelledBy s₀ events id userId ∨ (e.caller? = some userId ∧
      (run s₀ events).status? id ≠ some .cancelled ∧
      (run s₀ (events ++ [e])).status? id = some .cancelled) := by
  constructor
  · rintro ⟨pre, e', post, h, hcaller, hbefore, hafter⟩
    rcases List.eq_nil_or_concat post with rfl | ⟨post, e'', rfl⟩
    · obtain ⟨rfl, he⟩ := List.append_inj' h rfl
      obtain rfl := List.singleton_inj.mp he
      exact .inr ⟨hcaller, hbefore, hafter⟩
    · rw [List.concat_eq_append, ← List.cons_append, ← List.append_assoc] at h
      exact .inl ⟨pre, e', post, (List.append_inj' h rfl).1, hcaller, hbefore, hafter⟩
  · rintro (⟨pre, e', post, rfl, h⟩ | h)
    · exact ⟨pre, e', post ++ [e], by simp, h⟩
    · exact ⟨events, e, [], rfl, h⟩

theorem Store.status?_of_mem {s : Store} {b : Booking} (hb : b ∈ s.bookings) :
    s.status? b.id = some b.status :=
  Store.status?_eq_some.mpr ⟨b, hb, rfl, rfl⟩

theorem Store.status?_eq_none {s : Store} :
    s.status? id = none ↔ ∀ b ∈ s.bookings, b.id ≠ id :=
  Option.map_eq_none_iff.trans s.booking?_eq_none

/-- A booking that is not there has no history. -/
theorem no_history (hnone : (run s₀ events).status? id = none) :
    ¬ WasConfirmed s₀ events id ∧ ∀ userId, ¬ CancelledBy s₀ events id userId := by
  have hstays : ∀ pre post st, events = pre ++ post → (run s₀ pre).status? id ≠ some st := by
    rintro pre post st rfl hs
    obtain ⟨b, hb, hid, _⟩ := Store.status?_eq_some.mp hs
    obtain ⟨b', hb', hid', _⟩ := booking_stays hb post
    rw [run_append] at hnone
    exact Store.status?_eq_none.mp hnone b' hb' (hid'.trans hid)
  refine ⟨?_, ?_⟩
  · rintro ⟨pre, post, h, hs⟩
    exact hstays pre post _ h hs
  · rintro userId ⟨pre, e, post, h, _, _, hs⟩
    exact hstays (pre ++ [e]) post _ (by simpa using h) hs

/-- No notification is about a booking that is not there. -/
theorem not_sent_of_absent {s : Store} (hnone : s.booking? id = none) (u : UUID)
    (ty : NotificationType) : ¬ Sent s.notifications id u ty := by
  rintro ⟨n, hn, hid, _⟩
  rcases s.sound.notificationsBooking n hn with hb | ⟨b, hb, hbid⟩
  · rw [hb] at hid
    cases hid
  · rw [hbid] at hid
    exact s.booking?_eq_none.mp hnone b hb (Option.some.inj hid)

/-- The record of a booking in the state that a run reaches. -/
def Store.RecordOf (s₀ : Store) (events : List Event) (b : Booking) : Prop :=
  Recorded (Sent (run s₀ events).notifications b.id) b (WasConfirmed s₀ events b.id)
    (CancelledBy s₀ events b.id)

section Step
variable {b b' : Booking}

theorem wasConfirmed_kept (hb' : b ∈ (run s₀ (events ++ [e])).bookings)
    (hpresent : b.status = .confirmed → WasConfirmed s₀ events b.id) :
    WasConfirmed s₀ (events ++ [e]) b.id ↔ WasConfirmed s₀ events b.id := by
  rw [wasConfirmed_snoc, Store.status?_of_mem hb']
  exact ⟨fun hw => hw.elim id fun hs => hpresent (Option.some.inj hs), .inl⟩

theorem cancelledBy_kept (hb : b ∈ (run s₀ events).bookings)
    (hb' : b ∈ (run s₀ (events ++ [e])).bookings) (a : UUID) :
    CancelledBy s₀ (events ++ [e]) b.id a ↔ CancelledBy s₀ events b.id a := by
  rw [cancelledBy_snoc, Store.status?_of_mem hb', Store.status?_of_mem hb]
  exact ⟨fun ha => ha.elim id fun ha => absurd ha.2.2 ha.2.1, .inl⟩

/-- A step that leaves the row, and the keys about it, continues its record. -/
theorem recordOf_kept (h : s₀.RecordOf events b) (hb : b ∈ (run s₀ events).bookings)
    (hb' : b ∈ (run s₀ (events ++ [e])).bookings)
    (hsent : ∀ u ty, Sent (run s₀ (events ++ [e])).notifications b.id u ty ↔
      Sent (run s₀ events).notifications b.id u ty) : s₀.RecordOf (events ++ [e]) b :=
  Recorded.congr h hsent (wasConfirmed_kept hb' h.present) (cancelledBy_kept hb hb')

/-- A job that selects only CONFIRMED bookings continues their records. -/
theorem recordOf_told (h : s₀.RecordOf events b) (hb : b ∈ (run s₀ events).bookings)
    (hb' : b ∈ (run s₀ (events ++ [e])).bookings) {amb : Ambient} {notice : Notice}
    {due : Booking → Bool}
    (htype : notice.type = .bookingReminder ∨ notice.type = .bookingOverdue)
    (hdue : due b → b.status = .confirmed)
    (hnotes : (run s₀ (events ++ [e])).notifications =
      addNotifications (run s₀ events).notifications
        (((run s₀ events).bookings.filter due).flatMap (notice.notes amb))) :
    s₀.RecordOf (events ++ [e]) b := by
  refine Recorded.congr (Recorded.told h htype hdue fun u ty => ?_) (fun _ _ => Iff.rfl)
    (wasConfirmed_kept hb' h.present) (cancelledBy_kept hb hb')
  rw [hnotes, sent_addNotifications, sent_notes]
  refine or_congr Iff.rfl ⟨?_, ?_⟩
  · rintro ⟨rfl, x, hx, hid, hu⟩
    obtain ⟨hmem, hx⟩ := List.mem_filter.mp hx
    obtain rfl := (run s₀ events).booking_unique hmem hb hid
    exact ⟨hx, rfl, hu⟩
  · rintro ⟨hx, rfl, hu⟩
    exact ⟨rfl, b, List.mem_filter.mpr ⟨hb, hx⟩, rfl, hu⟩

/-- The record of a new booking starts with its BOOKING_CREATED. -/
theorem recordOf_born {amb : Ambient} {caller : UUID} {bookingIn : BookingCreate}
    (hbookings : (run s₀ (events ++ [e])).bookings =
      (run s₀ events).bookings ++ [newBooking amb caller bookingIn])
    (hnotes : (run s₀ (events ++ [e])).notifications =
      addNotifications (run s₀ events).notifications
        [createdNote amb (newBooking amb caller bookingIn)]) :
    s₀.RecordOf (events ++ [e]) (newBooking amb caller bookingIn) := by
  have habsent := Store.absent_of_insert hbookings
  have hnone : (run s₀ events).status? (newBooking amb caller bookingIn).id = none := by
    rw [Store.status?, habsent]
    rfl
  have hmem : newBooking amb caller bookingIn ∈ (run s₀ (events ++ [e])).bookings := by
    rw [hbookings]
    simp
  obtain ⟨hconfirmed, hby⟩ := no_history hnone
  refine Recorded.born rfl (fun u ty => ?_) ?_ fun a => ?_
  · rw [hnotes, sent_addNotifications, sent_singleton]
    refine ⟨fun hsent => ?_, fun hkey => .inr ⟨rfl, hkey.2.symm, hkey.1.symm⟩⟩
    obtain ⟨_, hu, hty⟩ := hsent.resolve_left (not_sent_of_absent habsent u ty)
    exact ⟨hty.symm, hu.symm⟩
  · rw [wasConfirmed_snoc, Store.status?_of_mem hmem]
    exact fun hw => hw.elim hconfirmed fun hs => by cases hs
  · rw [cancelledBy_snoc, Store.status?_of_mem hmem]
    exact fun ha => ha.elim (hby a) fun hs => by cases hs.2.2

theorem recordOf_edited {amb : Ambient} {actor : User} {notes : List Notification}
    (h : s₀.RecordOf events b) (hedit : Edit (run s₀ events) e b b' amb actor notes)
    (hb' : b' ∈ (run s₀ (events ++ [e])).bookings)
    (hnotes : (run s₀ (events ++ [e])).notifications =
      addNotifications (run s₀ events).notifications notes) :
    s₀.RecordOf (events ++ [e]) b' := by
  obtain ⟨req, rfl, _⟩ := hedit.request
  have hbefore := Store.status?_of_mem hedit.mem
  have hafter := Store.status?_of_mem hb'
  unfold Store.RecordOf
  rw [hedit.sameId] at hafter ⊢
  refine Recorded.edited h hedit.sameCustomer hedit.sameProvider hedit.nonterminal hedit.status
    (fun u ty => ?_) ?_ fun a => ?_
  · rw [hnotes, sent_addNotifications]
  · rw [wasConfirmed_snoc, hafter, Option.some.injEq]
  · rw [cancelledBy_snoc, hafter, hbefore]
    refine or_congr Iff.rfl ⟨?_, ?_⟩
    · rintro ⟨hcaller, _, hs⟩
      exact ⟨(Option.some.inj hcaller).symm, Option.some.inj hs⟩
    · rintro ⟨rfl, hs⟩
      exact ⟨rfl, fun hopen => hedit.nonterminal (.inl (Option.some.inj hopen)), congrArg some hs⟩

/-- A change of a row is only ever notified about that row. -/
theorem StatusChange.about {amb : Ambient} {actor : User} {status : BookingStatus}
    {notes : List Notification} (h : StatusChange amb actor b status notes) {u : UUID}
    {ty : NotificationType} (hsent : Sent notes id u ty) : id = b.id := by
  rcases h with ⟨_, rfl⟩ | ⟨_, _, rfl⟩
  · exact absurd hsent sent_nil
  · exact (sent_transitionNotes.mp hsent).1

theorem recordOf_step (h : ∀ b ∈ (run s₀ events).bookings, s₀.RecordOf events b)
    (hb' : b' ∈ (run s₀ (events ++ [e])).bookings) : s₀.RecordOf (events ++ [e]) b' := by
  have heffect := step_effect (run s₀ events) e
  rw [← run_snoc] at heffect
  generalize hrows : (run s₀ (events ++ [e])).toTables = rows at heffect
  have hrest : rows.bookings = (run s₀ events).bookings →
      (∀ u ty, Sent rows.notifications b'.id u ty ↔
        Sent (run s₀ events).notifications b'.id u ty) → s₀.RecordOf (events ++ [e]) b' := by
    intro hbookings hsent
    rw [← hrows] at hbookings hsent
    have hb := hbookings ▸ hb'
    exact recordOf_kept (h b' hb) hb hb' hsent
  cases heffect with
  | @booked amb caller bookingIn W customer hcustomer hbooked =>
    have hbookings := congrArg Tables.bookings hrows
    have hnotes := congrArg Tables.notifications hrows
    by_cases hid : b'.id = amb.uuid4
    · have hnew := (congrArg (newBooking amb caller bookingIn ∈ ·) hbookings).mpr (by simp)
      obtain rfl := Store.booking_unique _ hb' hnew hid
      exact recordOf_born hbookings hnotes
    · have hb : b' ∈ (run s₀ events).bookings := by
        rw [hbookings] at hb'
        rcases List.mem_append.mp hb' with hb | hb
        · exact hb
        · exact absurd (congrArg Booking.id (List.mem_singleton.mp hb)) hid
      refine recordOf_kept (h b' hb) hb hb' fun u ty => ?_
      rw [hnotes, sent_addNotifications, sent_singleton]
      exact ⟨fun hs => hs.elim id fun hs => absurd (Option.some.inj hs.1).symm hid, .inl⟩
  | @edited amb caller bookingId req actor x x' notes W hactor hreq hedited =>
    obtain ⟨hmem, rfl⟩ := (run s₀ events).user?_eq_some.mp hactor
    have hbookings := congrArg Tables.bookings hrows
    have hnotes := congrArg Tables.notifications hrows
    have hb := hb'
    rw [hbookings] at hb
    rcases (mem_replaceBooking ⟨x, hedited.mem, hedited.sameId.symm⟩).mp hb with rfl | ⟨hb, hid⟩
    · exact recordOf_edited (h x hedited.mem) ⟨⟨req, rfl, hreq⟩, hmem, bookingId, W, hedited⟩ hb'
        hnotes
    · refine recordOf_kept (h b' hb) hb hb' fun u ty => ?_
      rw [hnotes, sent_addNotifications]
      refine ⟨fun hs => hs.elim id fun hs => ?_, .inl⟩
      exact absurd ((hedited.status.about hs).trans hedited.sameId.symm) hid
  | reminded =>
    have hb : b' ∈ (run s₀ events).bookings := congrArg Tables.bookings hrows ▸ hb'
    exact recordOf_told (h b' hb) hb hb' (.inl rfl) (fun hdue => (of_decide_eq_true hdue).1)
      (congrArg Tables.notifications hrows)
  | alerted =>
    have hb : b' ∈ (run s₀ events).bookings := congrArg Tables.bookings hrows ▸ hb'
    exact recordOf_told (h b' hb) hb hb' (.inr rfl) (fun hdue => (of_decide_eq_true hdue).1)
      (congrArg Tables.notifications hrows)
  | acknowledged which => exact hrest rfl fun u ty => sent_acknowledge
  | _ => exact hrest rfl fun u ty => Iff.rfl

theorem recordOf_run (h₀ : s₀.bookings = []) (events : List Event) :
    ∀ b ∈ (run s₀ events).bookings, s₀.RecordOf events b := by
  induction events using List.reverseRecOn with
  | nil =>
    intro b hb
    rw [run_nil, h₀] at hb
    cases hb
  | append_singleton events last ih => exact fun b hb => recordOf_step ih hb

end Step

end History

section Rows

/-- The notifications of one type about one booking. -/
def Tables.about (t : Tables) (bookingId : UUID) (type : NotificationType) : List Notification :=
  t.notifications.filter fun n => n.bookingId = some bookingId ∧ n.type = type

variable {s : Store} {id : UUID} {type : NotificationType}

theorem mem_about {n : Notification} : n ∈ s.about id type ↔
    n ∈ s.notifications ∧ n.bookingId = some id ∧ n.type = type := by
  simp [Tables.about]

theorem sent_iff_about {u : UUID} :
    Sent s.notifications id u type ↔ ∃ n ∈ s.about id type, n.userId = u := by
  constructor
  · rintro ⟨n, hn, hid, hu, hty⟩
    exact ⟨n, mem_about.mpr ⟨hn, hid, hty⟩, hu⟩
  · rintro ⟨n, hn, hu⟩
    obtain ⟨hn, hid, hty⟩ := mem_about.mp hn
    exact ⟨n, hn, hid, hu, hty⟩

theorem about_eq_nil : s.about id type = [] ↔ ∀ u, ¬ Sent s.notifications id u type := by
  simp only [sent_iff_about, List.eq_nil_iff_forall_not_mem]
  exact ⟨fun h u ⟨n, hn, _⟩ => h n hn, fun h n hn => h n.userId ⟨n, hn, rfl⟩⟩

/-- When only one user has been told, there is only one row. -/
theorem about_eq_singleton {w : UUID} (h : ∀ u, Sent s.notifications id u type ↔ u = w) :
    ∃ n, s.about id type = [n] ∧ n.userId = w := by
  obtain ⟨n, hn, hw⟩ := sent_iff_about.mp ((h w).mpr rfl)
  refine ⟨n, List.perm_singleton.mp ?_, hw⟩
  refine (List.perm_ext_iff_of_nodup ?_ (List.nodup_singleton n)).mpr fun m => ?_
  · exact s.sound.notificationsKey.of_map.filter _
  · rw [List.mem_singleton]
    refine ⟨fun hm => ?_, fun hm => hm ▸ hn⟩
    obtain ⟨hmem, hid, hty⟩ := mem_about.mp hm
    obtain ⟨hmem', hid', hty'⟩ := mem_about.mp hn
    have hmw := (h m.userId).mp (sent_iff_about.mpr ⟨m, hm, rfl⟩)
    exact s.notification_unique hmem hmem' ⟨hmw.trans hw.symm, hid.trans hid'.symm,
      by simp [hid], hty.trans hty'.symm⟩

end Rows

/-- The notifications about a booking are a faithful record of its life. -/
theorem record_faithful {s₀ : Store} (h₀ : s₀.bookings = []) (events : List Event) (b : Booking)
    (hb : b ∈ (run s₀ events).bookings) :
    (∀ n ∈ (run s₀ events).notifications, n.bookingId = some b.id →
      n.userId = b.customerId ∨ n.userId = b.providerId) ∧
    (run s₀ events).notifications.Pairwise (fun m n => ¬ (m.userId = n.userId ∧
      m.bookingId = n.bookingId ∧ m.bookingId ≠ none ∧ m.type = n.type)) ∧
    (∃ n, (run s₀ events).about b.id .bookingCreated = [n] ∧ n.userId = b.providerId) ∧
    ((WasConfirmed s₀ events b.id ∧
        ∃ n, (run s₀ events).about b.id .bookingConfirmed = [n] ∧ n.userId = b.customerId) ∨
      (¬ WasConfirmed s₀ events b.id ∧ (run s₀ events).about b.id .bookingConfirmed = [])) ∧
    ((b.status = .completed ∧
        ∃ n, (run s₀ events).about b.id .bookingCompleted = [n] ∧ n.userId = b.customerId) ∨
      (b.status ≠ .completed ∧ (run s₀ events).about b.id .bookingCompleted = [])) ∧
    ((b.status = .cancelled ∧ (run s₀ events).about b.id .bookingCancelled ≠ [] ∧
        ∃ canceller, (∀ a, CancelledBy s₀ events b.id a ↔ a = canceller) ∧
          ∀ u, (∃ n ∈ (run s₀ events).about b.id .bookingCancelled, n.userId = u) ↔
            (u = b.customerId ∨ u = b.providerId) ∧ u ≠ canceller) ∨
      (b.status ≠ .cancelled ∧ (run s₀ events).about b.id .bookingCancelled = [])) ∧
    (∀ n ∈ (run s₀ events).notifications, n.bookingId = some b.id →
      n.type = .bookingReminder ∨ n.type = .bookingOverdue → WasConfirmed s₀ events b.id) := by
  have h := recordOf_run h₀ events b hb
  refine ⟨fun n hn hid => ?_, (run s₀ events).sound.uqNotificationsUserBookingType,
    about_eq_singleton h.created, ?_, ?_, ?_, fun n hn hid hty => ?_⟩
  · exact h.participants n.userId n.type ⟨n, hn, hid, rfl, rfl⟩
  · by_cases hw : WasConfirmed s₀ events b.id
    · exact .inl ⟨hw, about_eq_singleton fun u => by simp [h.confirmed, hw]⟩
    · exact .inr ⟨hw, about_eq_nil.mpr fun u => by simp [h.confirmed, hw]⟩
  · by_cases hs : b.status = .completed
    · exact .inl ⟨hs, about_eq_singleton fun u => by simp [h.completed, hs]⟩
    · exact .inr ⟨hs, about_eq_nil.mpr fun u => by simp [h.completed, hs]⟩
  · by_cases hs : b.status = .cancelled
    · obtain ⟨a, ha⟩ := h.canceller.mp hs
      have honly : ∀ a', CancelledBy s₀ events b.id a' ↔ a' = a :=
        fun a' => ⟨fun ha' => h.once a' a ha' ha, fun heq => heq ▸ ha⟩
      have hsent : ∀ u, Sent (run s₀ events).notifications b.id u .bookingCancelled ↔
          (u = b.customerId ∨ u = b.providerId) ∧ u ≠ a := by
        intro u
        simp [h.cancelled, honly]
      refine .inl ⟨hs, fun hnil => ?_, a, honly, fun u => sent_iff_about.symm.trans (hsent u)⟩
      -- The customer is not the provider, so one of them is not the canceller.
      have hnobody := fun u hu => about_eq_nil.mp hnil u ((hsent u).mpr hu)
      have hdiffer := (run s₀ events).sound.checkBookingCustomerNotProvider b hb
      by_cases hc : b.customerId = a
      · exact hnobody b.providerId ⟨.inr rfl, fun hp => hdiffer (hc.trans hp.symm)⟩
      · exact hnobody b.customerId ⟨.inl rfl, hc⟩
    · refine .inr ⟨hs, about_eq_nil.mpr fun u hu => hs (h.canceller.mpr ?_)⟩
      obtain ⟨a, ha, _⟩ := (h.cancelled u).mp hu
      exact ⟨a, ha⟩
  · exact h.jobs n.userId n.type hty ⟨n, hn, hid, rfl, rfl⟩

theorem record_faithful_booked :
    ∃ n, (run newPlatform [booksAt alice 10 (10 * hour)]).about 10 .bookingCreated = [n] ∧
      n.userId = paula.id :=
  (record_faithful rfl [booksAt alice 10 (10 * hour)]
    ⟨10, alice.id, paula.id, "Massage", 10 * hour, 11 * hour, .pending⟩
    (by decide)).2.2.1

end BookingPlatform
