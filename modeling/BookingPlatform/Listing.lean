import BookingPlatform.Cancellation
import BookingPlatform.Pages

/-!
# Lists and single items

What a user finds by going through a list page by page is what the same user may read
one by one: the SQL filter and the chain of checks agree for every role.
-/

namespace BookingPlatform

set_option autoImplicit false

open Transact Transact.Program Pages

section Orders

instance : Std.Total Booking.listedBefore where
  total a b := by
    unfold Booking.listedBefore
    rcases lt_trichotomy a.startTime b.startTime with h | h | h
    · exact .inl (.inl h)
    · rcases BitVec.le_total a.id b.id with hid | hid
      · exact .inl (.inr ⟨h, hid⟩)
      · exact .inr (.inr ⟨h.symm, hid⟩)
    · exact .inr (.inl h)

instance : IsTrans Booking Booking.listedBefore where
  trans a b c := by
    unfold Booking.listedBefore
    rintro (hab | ⟨hab, hid⟩) (hbc | ⟨hbc, hid'⟩)
    · exact .inl (hab.trans hbc)
    · exact .inl (hbc ▸ hab)
    · exact .inl (hab ▸ hbc)
    · exact .inr ⟨hab.trans hbc, BitVec.le_trans hid hid'⟩

instance : Std.Total Review.listedBefore where
  total a b := by
    unfold Review.listedBefore
    rcases lt_trichotomy a.createdAt b.createdAt with h | h | h
    · exact .inr (.inl h)
    · rcases BitVec.le_total a.id b.id with hid | hid
      · exact .inr (.inr ⟨h.symm, hid⟩)
      · exact .inl (.inr ⟨h, hid⟩)
    · exact .inl (.inl h)

instance : IsTrans Review Review.listedBefore where
  trans a b c := by
    unfold Review.listedBefore
    rintro (hab | ⟨hab, hid⟩) (hbc | ⟨hbc, hid'⟩)
    · exact .inl (hbc.trans hab)
    · exact .inl (hbc ▸ hab)
    · exact .inl (hab ▸ hbc)
    · exact .inr ⟨hab.trans hbc, BitVec.le_trans hid' hid⟩

/-- Strictly increasing in `(start_time, id)`. -/
def Booking.Before (a b : Booking) : Prop :=
  a.startTime < b.startTime ∨ (a.startTime = b.startTime ∧ a.id < b.id)

/-- Strictly decreasing in `(created_at, id)`. -/
def Review.Before (a b : Review) : Prop :=
  b.createdAt < a.createdAt ∨ (a.createdAt = b.createdAt ∧ b.id < a.id)

theorem Booking.before_of_listed {a b : Booking} (h : a.listedBefore b) (hne : a.id ≠ b.id) :
    a.Before b := h.imp_right fun ⟨hs, hid⟩ => ⟨hs, BitVec.lt_of_le_ne hid hne⟩

theorem Review.before_of_listed {a b : Review} (h : a.listedBefore b) (hne : a.id ≠ b.id) :
    a.Before b := h.imp_right fun ⟨hs, hid⟩ => ⟨hs, BitVec.lt_of_le_ne hid hne.symm⟩

end Orders

section Visibility

/-- The `where` clause of the list and the checks on one row say the same. -/
theorem Booking.visibleTo_iff (b : Booking) (u : User) :
    b.visibleTo u = true ↔ b.accessibleTo u := by
  unfold Booking.visibleTo Booking.accessibleTo
  cases u.role <;> simp

theorem Review.visibleTo_iff (r : Review) (u : User) : r.visibleTo u = true ↔ r.accessibleTo u := by
  unfold Review.visibleTo Review.accessibleTo
  cases u.role <;> simp

variable {s : Store} {u : User}

theorem getBookingById_ok {id : UUID} {b : Booking} :
    outcome s (getBookingById id u) = .ok b ↔ s.booking? id = some b ∧ b.accessibleTo u := by
  cases hb : s.booking? id with
  | none =>
    rw [outcome_of_exec (exec_getBookingById_missing hb)]
    simp
  | some x =>
    by_cases haccess : x.accessibleTo u
    · rw [outcome_of_exec (exec_getBookingById_granted hb haccess)]
      simp only [Except.ok.injEq, Option.some.injEq]
      constructor
      · rintro rfl
        exact ⟨rfl, haccess⟩
      · exact fun h => h.1
    · rw [outcome_of_exec (exec_getBookingById_denied hb haccess)]
      simp only [Option.some.injEq, reduceCtorEq, false_iff, not_and]
      rintro rfl
      exact haccess

section ReviewById
variable {id : UUID} {r : Review}

theorem exec_getReviewById_missing (hr : s.review? id = none) :
    (getReviewById id u).exec (.fresh s) = (.error (http 404 "Review not found"), .fresh s) := by
  refine exec_bind_error (exec_getOr404_none ?_)
  rw [exec_getReview, Session.fresh_working, hr]

theorem exec_getReviewById_granted (hr : s.review? id = some r) (haccess : r.accessibleTo u) :
    (getReviewById id u).exec (.fresh s) = (.ok r, .fresh s) := by
  refine (exec_bind_ok (exec_getOr404_some ?_)).trans (by rw [if_pos haccess]; rfl)
  rw [exec_getReview, Session.fresh_working, hr]

theorem exec_getReviewById_denied (hr : s.review? id = some r) (haccess : ¬ r.accessibleTo u) :
    (getReviewById id u).exec (.fresh s) =
      (.error (http 403 "Not authorized to access this review"), .fresh s) := by
  refine (exec_bind_ok (exec_getOr404_some ?_)).trans (by rw [if_neg haccess]; rfl)
  rw [exec_getReview, Session.fresh_working, hr]

theorem getReviewById_ok :
    outcome s (getReviewById id u) = .ok r ↔ s.review? id = some r ∧ r.accessibleTo u := by
  cases hr : s.review? id with
  | none =>
    rw [outcome_of_exec (exec_getReviewById_missing hr)]
    simp
  | some x =>
    by_cases haccess : x.accessibleTo u
    · rw [outcome_of_exec (exec_getReviewById_granted hr haccess)]
      simp only [Except.ok.injEq, Option.some.injEq]
      constructor
      · rintro rfl
        exact ⟨rfl, haccess⟩
      · exact fun h => h.1
    · rw [outcome_of_exec (exec_getReviewById_denied hr haccess)]
      simp only [Option.some.injEq, reduceCtorEq, false_iff, not_and]
      rintro rfl
      exact haccess

end ReviewById

end Visibility

section Collecting

/-- A filter that is not given lets every row pass. -/
theorem all_decide_iff {α β : Type} [DecidableEq β] {wanted : Option β} {f : α → β} {a : α} :
    (wanted.all fun x => f a = x) = true ↔ ∀ x ∈ wanted, f a = x := by
  cases wanted <;> simp

variable {s : Store} {u : User} {limit : Nat}

/-- All pages of `list_bookings`, one after the other. -/
def ListsBookings (s : Store) (u : User) (status : Option BookingStatus) (limit : Nat)
    (all : List Booking) : Prop :=
  Collected (fun skip page => outcome s (listBookings u status skip limit) = .ok page) limit 0 all

/-- All pages of `list_reviews`. -/
def ListsReviews (s : Store) (u : User) (providerId : Option UUID) (rating : Option Int)
    (limit : Nat) (all : List Review) : Prop :=
  Collected (fun skip page => outcome s (listReviews u providerId rating skip limit) = .ok page)
    limit 0 all

theorem listsBookings_iff (hlimit : 1 ≤ limit) (status : Option BookingStatus)
    (all : List Booking) : ListsBookings s u status limit all ↔
      all = (s.bookings.filter fun b =>
        b.visibleTo u && status.all fun x => b.status = x).insertionSort Booking.listedBefore := by
  refine collected_iff hlimit (fun skip page => ⟨fun h => ?_, fun h => ?_⟩) 0 all
  · exact (Except.ok.inj h).symm
  · exact congrArg Except.ok h.symm

theorem listsReviews_iff (hlimit : 1 ≤ limit) (providerId : Option UUID) (rating : Option Int)
    (all : List Review) : ListsReviews s u providerId rating limit all ↔
      all = (s.reviews.filter fun r =>
        r.visibleTo u && (providerId.all fun p => r.providerId = p) &&
          rating.all fun x => r.rating = x).insertionSort Review.listedBefore := by
  refine collected_iff hlimit (fun skip page => ⟨fun h => ?_, fun h => ?_⟩) 0 all
  · exact (Except.ok.inj h).symm
  · exact congrArg Except.ok h.symm

end Collecting

/-- Collecting the pages ends, with one result: each row the user may read and asked for,
once, in strict order. -/
theorem pages_list_what_is_readable (s : Store) (u : User) (limit : Nat) (hlimit : 1 ≤ limit) :
    (∀ status : Option BookingStatus, ∃ all,
      (∀ xs, ListsBookings s u status limit xs ↔ xs = all) ∧
      (∀ b, b ∈ all ↔ outcome s (getBookingById b.id u) = .ok b ∧ ∀ x ∈ status, b.status = x) ∧
      all.Pairwise Booking.Before) ∧
    (∀ (providerId : Option UUID) (rating : Option Int), ∃ all,
      (∀ xs, ListsReviews s u providerId rating limit xs ↔ xs = all) ∧
      (∀ r, r ∈ all ↔ outcome s (getReviewById r.id u) = .ok r ∧
        (∀ p ∈ providerId, r.providerId = p) ∧ ∀ x ∈ rating, r.rating = x) ∧
      all.Pairwise Review.Before) := by
  refine ⟨fun status => ⟨_, listsBookings_iff hlimit status, fun b => ?_, ?_⟩,
    fun providerId rating => ⟨_, listsReviews_iff hlimit providerId rating, fun r => ?_, ?_⟩⟩
  · rw [List.mem_insertionSort, List.mem_filter, getBookingById_ok, s.booking?_eq_some,
      Bool.and_eq_true, b.visibleTo_iff, all_decide_iff (f := Booking.status)]
    simp only [and_true, and_assoc]
  · exact strictly_sorted (k := Booking.id) (fun _ _ => Booking.before_of_listed)
      s.sound.bookingsKey _
  · rw [List.mem_insertionSort, List.mem_filter, getReviewById_ok, s.review?_eq_some,
      Bool.and_eq_true, Bool.and_eq_true, r.visibleTo_iff, all_decide_iff (f := Review.providerId),
      all_decide_iff (f := Review.rating)]
    simp only [and_true, and_assoc]
  · exact strictly_sorted (k := Review.id) (fun _ _ => Review.before_of_listed) s.sound.reviewsKey _

/-- Alice collects her two bookings one by one. -/
theorem pages_list_what_is_readable_alice :
    ∃ all, ListsBookings
      (run newPlatform [booksAt alice 11 (12 * hour), booksAt alice 10 (10 * hour)]) alice none 1
      all ∧ ∃ b ∈ all, b.id = 10 := by
  obtain ⟨all, hall, hmem, _⟩ := (pages_list_what_is_readable
    (run newPlatform [booksAt alice 11 (12 * hour), booksAt alice 10 (10 * hour)]) alice 1
    (by decide)).1 none
  have hbooked := hmem
    (newBooking (sampleAmbient 0 10) alice.id (slotOf (10 * hour) (11 * hour) (by decide)))
  exact ⟨all, (hall all).mpr rfl, _, hbooked.mpr ⟨rfl, by simp⟩, rfl⟩

end BookingPlatform
