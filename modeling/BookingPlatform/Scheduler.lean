import BookingPlatform.JobExactness

/-!
# The scheduler's ticks

The loop runs the jobs, sleeps for the interval and starts again. The window of a reminder
and the interval are two settings; whether every booking meets a tick inside its window
depends on both.
-/

namespace BookingPlatform

set_option autoImplicit false

open Transact Transact.Program

section Ticks

/-- A loop that starts at `first` and sleeps for `period` meets every half-open window that
is at least as long. -/
theorem exists_tick {first period window s : Int} (hperiod : 0 < period)
    (hwindow : period ≤ window) (hs : first ≤ s - window) :
    ∃ k : Nat, s - window ≤ first + k * period ∧ first + k * period < s := by
  have hsplit := Int.mul_ediv_add_emod (s - window - first + period - 1) period
  have hlow := Int.emod_nonneg (s - window - first + period - 1) hperiod.ne'
  have hhigh := Int.emod_lt_of_pos (s - window - first + period - 1) hperiod
  have hquot : 0 ≤ (s - window - first + period - 1) / period :=
    Int.ediv_nonneg (by omega) hperiod.le
  refine ⟨((s - window - first + period - 1) / period).toNat, ?_⟩
  rw [Int.toNat_of_nonneg hquot, mul_comm]
  omega

end Ticks

/-- `app/core/config.py`: each of the two is at least 1. -/
structure Settings where
  bookingReminderMinutes : Int := 30
  backgroundJobIntervalMinutes : Int := 5
  reminderGe : 1 ≤ bookingReminderMinutes
  intervalGe : 1 ≤ backgroundJobIntervalMinutes

/-- `interval_seconds` is the interval times 60; the clock counts microseconds. -/
def Settings.tick (settings : Settings) (first : Time) (k : Nat) : Time :=
  first + k * (settings.backgroundJobIntervalMinutes * 60 * 1000000)

/-- What happens, and when. -/
abbrev Timeline := List (Time × Event)

def eventsOf (history : Timeline) : List Event := history.map Prod.snd

def eventsBefore (history : Timeline) (t : Time) : List Event :=
  eventsOf (history.filter fun x => x.1 < t)

section Schedule
variable (settings : Settings) (first : Time) (s₀ : Store) (history : Timeline)

/-- At every tick before `horizon` the reminder job runs without error. The overdue job that
follows it is among the other events. -/
structure OnSchedule (horizon : Time) : Prop where
  ordered : history.Pairwise fun x y => x.1 ≤ y.1
  ticks : ∀ k, settings.tick first k < horizon → ∃ past amb future,
    history = past ++
      (settings.tick first k, .reminderJob amb settings.bookingReminderMinutes) :: future ∧
    amb.now = settings.tick first k ∧
    (outcome (run s₀ (eventsOf past))
      (Event.reminderJob amb settings.bookingReminderMinutes).program).isOk

/-- In every state that is in force at some moment of `[since, start)` the booking is
CONFIRMED and starts at `start`. -/
def StaysConfirmed (id customerId providerId : UUID) (since start : Time) : Prop :=
  ∀ past future : Timeline, history = past ++ future → (∀ x ∈ past, x.1 < start) →
    (∀ x ∈ future, since ≤ x.1) →
      ∃ b ∈ (run s₀ (eventsOf past)).bookings, b.id = id ∧ b.customerId = customerId ∧
        b.providerId = providerId ∧ b.status = .confirmed ∧ b.startTime = start

/-- Some tick before `start` matches the booking, and by then both participants have been
reminded. -/
def Reminded (id customerId providerId : UUID) (start : Time) : Prop :=
  (∃ k past amb future, settings.tick first k < start ∧
    history = past ++
      (settings.tick first k, .reminderJob amb settings.bookingReminderMinutes) :: future ∧
    ∃ b ∈ (run s₀ (eventsOf past)).bookings, b.id = id ∧
      b.upcoming (settings.tick first k) settings.bookingReminderMinutes) ∧
  Sent (run s₀ (eventsBefore history start)).notifications id customerId .bookingReminder ∧
  Sent (run s₀ (eventsBefore history start)).notifications id providerId .bookingReminder

end Schedule

/-- No confirmed booking slips between two ticks. -/
def Settings.Covers (settings : Settings) : Prop :=
  ∀ first start, first ≤ start - settings.bookingReminderMinutes * 60000000 →
    ∀ s₀ history, OnSchedule settings first s₀ history start →
      ∀ id customerId providerId,
        StaysConfirmed s₀ history id customerId providerId
          (start - settings.bookingReminderMinutes * 60000000) start →
        Reminded settings first s₀ history id customerId providerId start

section Sent
variable {s : Store} {id userId : UUID} {type : NotificationType}

/-- No step takes a notification away. -/
theorem sent_step (h : Sent s.notifications id userId type) (e : Event) :
    Sent (step s e).notifications id userId type := by
  have heffect := step_effect s e
  generalize (step s e).toTables = rows at heffect ⊢
  cases heffect with
  | booked hcustomer hbooked => exact sent_addNotifications.mpr (.inl h)
  | edited hactor hreq hedited => exact sent_addNotifications.mpr (.inl h)
  | reminded => exact sent_addNotifications.mpr (.inl h)
  | alerted => exact sent_addNotifications.mpr (.inl h)
  | acknowledged which => exact sent_acknowledge.mpr h
  | _ => exact h

theorem sent_run (h : Sent s.notifications id userId type) (events : List Event) :
    Sent (run s events).notifications id userId type := by
  induction events generalizing s with
  | nil => exact h
  | cons e events ih => exact ih (sent_step h e)

end Sent

section Cover
variable {settings : Settings} {first start : Time} {s₀ : Store} {history : Timeline}

/-- In an ordered history everything up to an event before `t` is before `t`. -/
theorem eventsBefore_eq {past future : Timeline} {x : Time × Event} {t : Time}
    (hordered : (past ++ x :: future).Pairwise fun x y => x.1 ≤ y.1) (hx : x.1 < t) :
    eventsBefore (past ++ x :: future) t = eventsOf past ++ x.2 :: eventsBefore future t := by
  have hpast : ∀ y ∈ past, y.1 < t := fun y hy =>
    lt_of_le_of_lt ((List.pairwise_append.mp hordered).2.2 y hy x List.mem_cons_self) hx
  unfold eventsBefore eventsOf
  rw [List.filter_append, List.filter_cons_of_pos (by simpa using hx),
    List.filter_eq_self.mpr (by simpa using hpast), List.map_append, List.map_cons]

theorem reminded_of_interval_le
    (hle : settings.backgroundJobIntervalMinutes ≤ settings.bookingReminderMinutes)
    (hfirst : first ≤ start - settings.bookingReminderMinutes * 60000000)
    (hschedule : OnSchedule settings first s₀ history start) {id customerId providerId : UUID}
    (hstays : StaysConfirmed s₀ history id customerId providerId
      (start - settings.bookingReminderMinutes * 60000000) start) :
    Reminded settings first s₀ history id customerId providerId start := by
  have hinterval := settings.intervalGe
  have hperiod : 0 < settings.backgroundJobIntervalMinutes * 60 * 1000000 := by omega
  obtain ⟨k, hlow, hhigh⟩ := exists_tick hperiod (by omega) hfirst
  obtain ⟨past, amb, future, rfl, hnow, hok⟩ := hschedule.ticks k hhigh
  obtain ⟨_, htail, hpast⟩ := List.pairwise_append.mp hschedule.ordered
  obtain ⟨b, hb, hid, hcustomer, hprovider, hstatus, hstart⟩ := hstays past _ rfl
    (fun x hx => lt_of_le_of_lt (hpast x hx _ List.mem_cons_self) hhigh) (fun x hx => by
      rcases List.mem_cons.mp hx with rfl | hx
      · exact hlow
      · exact hlow.trans ((List.pairwise_cons.mp htail).1 x hx))
  have hupcoming : b.upcoming (settings.tick first k) settings.bookingReminderMinutes := by
    refine ⟨hstatus, hstart ▸ hhigh, ?_⟩
    rw [hstart]
    exact sub_le_iff_le_add.mp hlow
  have hsent : ∀ u, u = b.customerId ∨ u = b.providerId →
      Sent (run s₀ (eventsBefore (past ++ (settings.tick first k,
        .reminderJob amb settings.bookingReminderMinutes) :: future) start)).notifications
          id u .bookingReminder := by
    intro u hu
    obtain ⟨r, hr⟩ : ∃ r, outcome (run s₀ (eventsOf past))
        (Event.reminderJob amb settings.bookingReminderMinutes).program = .ok r := by
      generalize outcome (run s₀ (eventsOf past)) _ = ended at hok
      cases ended with
      | ok r => exact ⟨r, rfl⟩
      | error e => cases hok
    have hjob := sent_by_job rfl hr hb (decide_eq_true (hnow ▸ hupcoming)) hu
    rw [eventsBefore_eq hschedule.ordered hhigh, run_append, ← hid]
    exact sent_run hjob _
  exact ⟨⟨k, past, amb, future, hhigh, rfl, b, hb, hid, hupcoming⟩,
    hcustomer ▸ hsent _ (.inl rfl), hprovider ▸ hsent _ (.inr rfl)⟩

theorem covers_of_interval_le
    (hle : settings.backgroundJobIntervalMinutes ≤ settings.bookingReminderMinutes) :
    settings.Covers := by
  intro first start hfirst s₀ history hschedule id customerId providerId hstays
  exact reminded_of_interval_le hle hfirst hschedule hstays

/-- The defaults cover every booking. -/
example : (⟨30, 5, by decide, by decide⟩ : Settings).Covers :=
  covers_of_interval_le (by decide)

end Cover

section Slip

/-- Alice's hour with Paula that starts then, confirmed. -/
def confirmedAt (start : Time) : Booking :=
  ⟨10, alice.id, paula.id, "Massage", start, start + hour, .confirmed⟩

def awaiting (start : Time) : Store where
  toTables := newPlatform.after (.insertBooking (confirmedAt start))
  sound := constraints_insertBooking (by simp [newPlatform]) ⟨alice, by decide, rfl⟩
    ⟨paula, by decide, rfl⟩ (Int.lt_add_of_pos_right _ (by decide))
    (show alice.id ≠ paula.id by decide)

/-- The first tick, one microsecond before the window opens. -/
def firstTick (settings : Settings) : Timeline :=
  [(0, .reminderJob (sampleAmbient 0 0) settings.bookingReminderMinutes)]

theorem bookings_awaiting {start : Time} {b : Booking} (h : b ∈ (awaiting start).bookings) :
    b = confirmedAt start := List.mem_singleton.mp h

/-- The first tick finds nothing to do. -/
theorem firstTick_idle (settings : Settings) :
    outcome (awaiting (settings.bookingReminderMinutes * 60000000 + 1))
        (runBookingReminderJob (sampleAmbient 0 0) settings.bookingReminderMinutes) = .ok 0 ∧
      leaves (awaiting (settings.bookingReminderMinutes * 60000000 + 1))
        (runBookingReminderJob (sampleAmbient 0 0) settings.bookingReminderMinutes) =
          awaiting (settings.bookingReminderMinutes * 60000000 + 1) := by
  refine runNotificationJob_idle fun n hn => ?_
  obtain ⟨b, hb, hdue, _⟩ := Notice.mem_drawn hn
  obtain ⟨_, _, hstart⟩ := of_decide_eq_true hdue
  rw [bookings_awaiting hb] at hstart
  have hstart : settings.bookingReminderMinutes * 60000000 + 1 ≤
      0 + settings.bookingReminderMinutes * 60000000 := hstart
  omega

theorem firstTick_ok (settings : Settings) :
    (outcome (awaiting (settings.bookingReminderMinutes * 60000000 + 1))
      (Event.reminderJob (sampleAmbient 0 0)
        settings.bookingReminderMinutes).program).isOk := by
  change (outcome _ (Response.updatedCount <$> runBookingReminderJob _ _)).isOk
  rw [outcome_map, (firstTick_idle settings).1]
  rfl

theorem run_firstTick (settings : Settings) :
    run (awaiting (settings.bookingReminderMinutes * 60000000 + 1))
      (eventsOf (firstTick settings)) =
        awaiting (settings.bookingReminderMinutes * 60000000 + 1) :=
  (leaves_map _ _ _).trans (firstTick_idle settings).2

/-- When the interval is longer than the window the second tick is too late. -/
theorem firstTick_onSchedule (settings : Settings)
    (hlt : settings.bookingReminderMinutes < settings.backgroundJobIntervalMinutes) :
    OnSchedule settings 0 (awaiting (settings.bookingReminderMinutes * 60000000 + 1))
      (firstTick settings) (settings.bookingReminderMinutes * 60000000 + 1) := by
  refine ⟨List.pairwise_singleton _ _, fun k hk => ?_⟩
  unfold Settings.tick at hk ⊢
  cases k with
  | zero =>
    refine ⟨[], sampleAmbient 0 0, [], ?_, ?_, ?_⟩
    · simp [firstTick]
    · simp [sampleAmbient]
    · exact firstTick_ok settings
  | succ k =>
    exfalso
    have hk : 0 + ((k + 1 : Nat) : Int) * (settings.backgroundJobIntervalMinutes * 60 * 1000000) <
        settings.bookingReminderMinutes * 60000000 + 1 := hk
    have hterm : settings.backgroundJobIntervalMinutes * 60 * 1000000 ≤
        (k + 1 : Nat) * (settings.backgroundJobIntervalMinutes * 60 * 1000000) :=
      le_mul_of_one_le_left (by have := settings.intervalGe; omega) (by omega)
    omega

theorem firstTick_stays (settings : Settings) :
    StaysConfirmed (awaiting (settings.bookingReminderMinutes * 60000000 + 1))
      (firstTick settings) 10 alice.id paula.id 1
      (settings.bookingReminderMinutes * 60000000 + 1) := by
  intro past future hsplit _ _
  refine ⟨confirmedAt (settings.bookingReminderMinutes * 60000000 + 1), ?_, rfl, rfl, rfl, rfl,
    rfl⟩
  have hrow : confirmedAt (settings.bookingReminderMinutes * 60000000 + 1) ∈
      (awaiting (settings.bookingReminderMinutes * 60000000 + 1)).bookings :=
    List.mem_singleton.mpr rfl
  rcases List.singleton_eq_append_iff.mp hsplit with ⟨rfl, _⟩ | ⟨rfl, _⟩
  · exact hrow
  · change _ ∈ (run _ (eventsOf (firstTick settings))).bookings
    rw [run_firstTick]
    exact hrow

theorem not_reminded_of_firstTick (settings : Settings) :
    ¬ Reminded settings 0 (awaiting (settings.bookingReminderMinutes * 60000000 + 1))
      (firstTick settings) 10 alice.id paula.id
      (settings.bookingReminderMinutes * 60000000 + 1) := by
  intro ⟨_, ⟨n, hn, _⟩, _⟩
  have hall : eventsBefore (firstTick settings) (settings.bookingReminderMinutes * 60000000 + 1) =
      eventsOf (firstTick settings) := by
    refine congrArg eventsOf (List.filter_eq_self.mpr fun x hx => ?_)
    rw [List.mem_singleton.mp hx]
    have hwindow : (0 : Int) < settings.bookingReminderMinutes * 60000000 + 1 := by
      have := settings.reminderGe
      omega
    exact decide_eq_true hwindow
  rw [hall, run_firstTick] at hn
  cases hn

end Slip

/-- Every booking that stays confirmed while its window is open is reminded of in time exactly
when the interval of the loop is not longer than the window. -/
theorem covers_iff_interval_le (settings : Settings) :
    settings.Covers ↔
      settings.backgroundJobIntervalMinutes ≤ settings.bookingReminderMinutes := by
  constructor
  · intro hcovers
    by_contra hlong
    have hsince : settings.bookingReminderMinutes * 60000000 + 1 -
        settings.bookingReminderMinutes * 60000000 = 1 := by omega
    refine not_reminded_of_firstTick settings (hcovers 0 _ ?_ _ _
      (firstTick_onSchedule settings (not_le.mp hlong)) _ _ _ ?_)
    · rw [hsince]
      decide
    · rw [hsince]
      exact firstTick_stays settings
  · exact covers_of_interval_le

/-- A window of one minute with the default interval. -/
def oneMinute : Settings := ⟨1, 5, by decide, by decide⟩

/-- The booking is confirmed all through its minute, and nobody is reminded of it. -/
theorem reminder_slips_between_ticks :
    OnSchedule oneMinute 0 (awaiting 60000001) (firstTick oneMinute) 60000001 ∧
      StaysConfirmed (awaiting 60000001) (firstTick oneMinute) 10 alice.id paula.id 1 60000001 ∧
      ¬ Reminded oneMinute 0 (awaiting 60000001) (firstTick oneMinute) 10 alice.id paula.id
        60000001 :=
  ⟨firstTick_onSchedule oneMinute (by decide), firstTick_stays oneMinute,
    not_reminded_of_firstTick oneMinute⟩

end BookingPlatform
