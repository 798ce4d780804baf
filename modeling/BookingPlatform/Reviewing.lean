import BookingPlatform.Acceptance
import BookingPlatform.Calendar

/-!
# Reviews over whole runs

The review table changes by four routes only, each with its own check. Over a run every
review stays tied to a completed booking and to the customer who wrote it.
-/

namespace BookingPlatform

set_option autoImplicit false

open Transact Transact.Program

section OneStep

theorem Review.patch_changes (r : Review) (reviewUpdate : ReviewUpdate) :
    r.patch (r.changes (r.revised reviewUpdate)) = r.revised reviewUpdate := by
  simp only [Review.patch, Review.changes, Review.revised, changed_getD]

/-- What an event does to the review table, and on what grounds. -/
inductive ReviewChange (s : Store) (e : Event) : List Review → Prop
  | kept : ReviewChange s e s.reviews
  | added {amb : Ambient} {author : User} {reviewIn : ReviewCreate} {b : Booking}
      (he : e = .request amb author.id (.createReview reviewIn)) (hauthor : author ∈ s.users)
      (hb : b ∈ s.bookings) (hkey : b.id = reviewIn.bookingId) (hrole : author.role = .customer)
      (hown : b.customerId = author.id) (hcompleted : b.status = .completed)
      (hfirst : ∀ r ∈ s.reviews, r.bookingId ≠ b.id) :
      ReviewChange s e (s.reviews ++ [newReview amb b author.id reviewIn])
  | revised {amb : Ambient} {author : User} {reviewUpdate : ReviewUpdate} {r : Review}
      (he : e = .request amb author.id (.updateReview r.id reviewUpdate))
      (hauthor : author ∈ s.users) (hr : r ∈ s.reviews) (hrole : author.role = .customer)
      (hown : r.customerId = author.id) :
      ReviewChange s e
        (s.reviews.map fun x => if x.id = r.id then r.revised reviewUpdate else x)
  | withdrawn {amb : Ambient} {actor : User} {r : Review}
      (he : e = .request amb actor.id (.deleteReview r.id)) (hactor : actor ∈ s.users)
      (hr : r ∈ s.reviews)
      (haccess : actor.role = .customer ∧ r.customerId = actor.id ∨ actor.role = .admin) :
      ReviewChange s e (s.reviews.filter fun x => x.id ≠ r.id)

variable {s : Store}

theorem Revised.reviews {reviewId : UUID} {author : User} {reviewUpdate : ReviewUpdate}
    {r : Review} {W : List Write} (h : Revised reviewId author reviewUpdate r s.Says W) :
    r ∈ s.reviews ∧ (s.afterAll W).reviews =
      s.reviews.map fun x => if x.id = r.id then r.revised reviewUpdate else x := by
  have hr := (s.review?_eq_some.mp (Eq.symm h.told)).1
  refine ⟨hr, ?_⟩
  rw [h.writes, ← h.key]
  refine List.map_congr_left fun x hx => ?_
  split
  · rename_i hid
    obtain rfl := List.inj_on_of_nodup_map s.sound.reviewsKey hx hr hid
    exact x.patch_changes reviewUpdate
  · rfl

theorem Request.Commits.reviews {amb : Ambient} {actor : User} {req : Request} {W : List Write}
    (hactor : actor ∈ s.users) (h : req.Commits amb actor s.Says W) :
    ReviewChange s (.request amb actor.id req) (s.afterAll W).reviews := by
  cases req with
  | createBooking bookingIn =>
    have h : Booked amb actor.id bookingIn s.Says W := h
    rw [h.tables]
    exact .kept
  | updateBooking bookingId bookingUpdate =>
    obtain ⟨b, notes, h⟩ := h
    rw [h.tables]
    exact .kept
  | cancelBooking bookingId =>
    obtain ⟨b, notes, h⟩ := h
    rw [h.tables]
    exact .kept
  | deleteBooking bookingId =>
    obtain ⟨b, notes, _, _, h⟩ := h
    rw [h.tables]
    exact .kept
  | createReview reviewIn =>
    obtain ⟨b, h⟩ := h
    have hb := (s.booking?_eq_some.mp (Eq.symm h.told)).1
    have hfirst : s.reviews.find? (fun r => r.bookingId = reviewIn.bookingId) = none :=
      Eq.symm h.first
    rw [h.writes]
    refine .added rfl hactor hb h.key h.role h.own h.completed fun r hr hid => ?_
    exact find?_key_none.mp hfirst r hr (hid.trans h.key)
  | updateReview reviewId reviewUpdate =>
    obtain ⟨r, h⟩ := h
    obtain ⟨hr, hrows⟩ := h.reviews
    rw [hrows]
    exact .revised (by rw [h.key]) hactor hr h.role h.own
  | deleteReview reviewId =>
    obtain ⟨r, h⟩ := h
    have hr := (s.review?_eq_some.mp (Eq.symm h.told)).1
    rw [h.writes, ← h.key]
    exact .withdrawn rfl hactor hr h.access
  | markNotificationRead notificationId =>
    obtain ⟨n, h⟩ := h
    rw [h.writes]
    exact .kept
  | markAllNotificationsRead =>
    have h : W = [.readAllNotifications actor.id amb.now] := h
    rw [h]
    exact .kept
  | _ => exact h.elim

theorem step_reviews (s : Store) (e : Event) : ReviewChange s e (step s e).reviews := by
  rcases step_commits s e with ⟨hs, _⟩ | ⟨W, hW, happ⟩
  · rw [hs]
    exact .kept
  · rw [tables_of_applyAll happ]
    cases e with
    | request amb caller req =>
      obtain ⟨actor, hactor, rfl, hW⟩ := hW
      exact hW.reviews (s.user?_eq_some.mp (Eq.symm hactor)).1
    | register amb userIn =>
      obtain ⟨hashedPw, hW⟩ := hW
      rw [hW.writes]
      exact .kept
    | reminderJob amb windowMinutes =>
      obtain ⟨rows, hW⟩ := hW
      rw [hW.tables]
      exact .kept
    | overdueJob amb =>
      obtain ⟨rows, hW⟩ := hW
      rw [hW.tables]
      exact .kept

/-- Users stay as they are. -/
theorem user_stays_step {u : User} (hu : u ∈ s.users) (e : Event) : u ∈ (step s e).users := by
  have heffect := step_effect s e
  generalize htables : (step s e).toTables = rows at heffect
  cases heffect with
  | registered => exact List.mem_append_left _ hu
  | _ => exact hu

end OneStep

section Integrity
variable {s : Store}

/-- The review is of a completed booking, between the booking's own participants, and its
author is a user of role CUSTOMER. -/
structure Store.Rightful (s : Store) (r : Review) : Prop where
  booking : ∃ b ∈ s.bookings, b.id = r.bookingId ∧ b.status = .completed ∧
    r.customerId = b.customerId ∧ r.providerId = b.providerId
  author : ∃ u ∈ s.users, u.id = r.customerId ∧ u.role = .customer
  rating : 1 ≤ r.rating ∧ r.rating ≤ 5

/-- Only rating and comment differ. -/
def Review.SameButText (r r' : Review) : Prop :=
  r' = { r with rating := r'.rating, comment := r'.comment }

/-- What made a review rightful still does after a step, whatever its text. -/
theorem Store.Rightful.step {r r' : Review} (h : s.Rightful r) (e : Event)
    (hsame : r.SameButText r') (hr' : r' ∈ (step s e).reviews) : (step s e).Rightful r' := by
  obtain ⟨b, hb, hid, hcompleted, hc, hp⟩ := h.booking
  obtain ⟨u, hu, huid, hrole⟩ := h.author
  have hb' : b ∈ (BookingPlatform.step s e).bookings :=
    terminal_stays hb (.inr hcompleted) [e]
  rw [hsame]
  exact ⟨⟨b, hb', hid, hcompleted, hc, hp⟩, ⟨u, user_stays_step hu e, huid, hrole⟩,
    (BookingPlatform.step s e).sound.checkReviewRatingRange r' hr'⟩

theorem rightful_step (hs : ∀ r ∈ s.reviews, s.Rightful r) (e : Event) :
    ∀ r ∈ (step s e).reviews, (step s e).Rightful r := by
  intro r' hr'
  -- A review that was there before, with perhaps another text.
  have hold : ∀ r ∈ s.reviews, r.SameButText r' → (step s e).Rightful r' := fun r hr hsame =>
    (hs r hr).step e hsame hr'
  have hchange := step_reviews s e
  generalize hrows : (step s e).reviews = rows at hchange
  rw [hrows] at hr'
  cases hchange with
  | kept => exact hold r' hr' rfl
  | @added amb author reviewIn b he hauthor hb hkey hrole hown hcompleted hfirst =>
    rcases List.mem_append.mp hr' with hr' | hr'
    · exact hold r' hr' rfl
    · obtain rfl := List.mem_singleton.mp hr'
      exact ⟨⟨b, terminal_stays hb (.inr hcompleted) [e], rfl, hcompleted, hown.symm, rfl⟩,
        ⟨author, user_stays_step hauthor e, rfl, hrole⟩, reviewIn.ratingRange⟩
  | @revised amb author reviewUpdate r he hauthor hr hrole hown =>
    obtain ⟨x, hx, hx'⟩ := List.mem_map.mp hr'
    by_cases hid : x.id = r.id
    · rw [if_pos hid] at hx'
      exact hold r hr (hx' ▸ rfl)
    · rw [if_neg hid] at hx'
      exact hold x hx (hx' ▸ rfl)
  | withdrawn => exact hold r' (List.mem_of_mem_filter hr') rfl

theorem rightful_run {s₀ : Store} (h₀ : s₀.bookings = []) (events : List Event) :
    ∀ r ∈ (run s₀ events).reviews, (run s₀ events).Rightful r := by
  refine run_invariant (I := fun s => ∀ r ∈ s.reviews, s.Rightful r) ?_ ?_ events
  · intro r hr
    obtain ⟨b, hb, _⟩ := s₀.sound.reviewsBooking r hr
    rw [h₀] at hb
    cases hb
  · exact fun _ e hs => rightful_step hs e

/-- Completed and without a review. -/
def Store.Reviewable (s : Store) (bookingId : UUID) : Prop :=
  ∃ b ∈ s.bookings, b.id = bookingId ∧ b.status = .completed ∧
    ∀ r ∈ s.reviews, r.bookingId ≠ bookingId

/-- What is reviewable is what `create_review` takes from the booking's customer. -/
theorem createReview_ok_iff {amb : Ambient} {author : User} {b : Booking} {reviewIn : ReviewCreate}
    (hb : b ∈ s.bookings) (hid : b.id = reviewIn.bookingId) (hknown : author ∈ s.users)
    (hrole : author.role = .customer) (hown : b.customerId = author.id) (hfresh : amb.Fresh s) :
    (∃ r, outcome s (createReview amb author reviewIn) = .ok r) ↔ s.Reviewable b.id := by
  constructor
  · rintro ⟨r, hr⟩
    obtain ⟨W, ⟨x, h⟩, _⟩ := committed_of_ok
      (O := fun K W => ∃ b, Reviewed amb author reviewIn b K W)
      (createReview_wp rfl rfl amb author reviewIn)
      (fun hK ⟨b, h⟩ => ⟨b, { h with told := hK _ _ h.told, first := hK _ _ h.first }⟩) hr
    have hx := (s.booking?_eq_some.mp (Eq.symm h.told)).1
    obtain rfl := s.booking_unique hb hx (hid.trans h.key.symm)
    have hfirst : s.reviews.find? (fun r => r.bookingId = reviewIn.bookingId) = none :=
      Eq.symm h.first
    refine ⟨b, hb, rfl, h.completed, fun r hr hbooking => ?_⟩
    exact find?_key_none.mp hfirst r hr (hbooking.trans hid)
  · rintro ⟨x, hx, hxid, hcompleted, hfirst⟩
    obtain rfl := s.booking_unique hx hb hxid
    exact ⟨_, createReview_ok hb hid hknown hrole hown hcompleted hfirst hfresh⟩

/-- A deletion that is answered with success has removed its review and nothing else. -/
theorem deleteReview_tables {amb : Ambient} {caller reviewId : UUID} {r : Response}
    (hok : outcome s (serve amb caller (.deleteReview reviewId)) = .ok r) :
    (∃ x ∈ s.reviews, x.id = reviewId) ∧
      (step s (.request amb caller (.deleteReview reviewId))).toTables =
        { s.toTables with reviews := s.reviews.filter fun x => x.id ≠ reviewId } := by
  rcases step_commits s (.request amb caller (.deleteReview reviewId)) with
    ⟨_, hnone⟩ | ⟨W, hW, happ⟩
  · exact absurd trivial (hnone r hok)
  · obtain ⟨actor, _, _, x, h⟩ := hW
    rw [tables_of_applyAll happ, h.writes]
    exact ⟨⟨x, s.review?_eq_some.mp (Eq.symm h.told)⟩, rfl⟩

theorem reviewable_after_delete {amb : Ambient} {caller : UUID} {r : Review} {x : Response}
    (hs : ∀ r ∈ s.reviews, s.Rightful r) (hr : r ∈ s.reviews)
    (hok : outcome s (serve amb caller (.deleteReview r.id)) = .ok x) (bookingId : UUID) :
    (step s (.request amb caller (.deleteReview r.id))).Reviewable bookingId ↔
      s.Reviewable bookingId ∨ bookingId = r.bookingId := by
  have htables := (deleteReview_tables hok).2
  unfold Store.Reviewable
  rw [htables]
  constructor
  · rintro ⟨b, hb, hid, hcompleted, hfirst⟩
    by_cases hown : bookingId = r.bookingId
    · exact .inr hown
    · refine .inl ⟨b, hb, hid, hcompleted, fun y hy hbooking => ?_⟩
      refine hfirst y (List.mem_filter.mpr ⟨hy, ?_⟩) hbooking
      have hne : y.id ≠ r.id := by
        intro heq
        obtain rfl := List.inj_on_of_nodup_map s.sound.reviewsKey hy hr heq
        exact hown hbooking.symm
      simpa using hne
  · rintro (⟨b, hb, hid, hcompleted, hfirst⟩ | rfl)
    · exact ⟨b, hb, hid, hcompleted, fun y hy => hfirst y (List.mem_of_mem_filter hy)⟩
    · obtain ⟨b, hb, hid, hcompleted, _⟩ := (hs r hr).booking
      refine ⟨b, hb, hid, hcompleted, fun y hy hbooking => ?_⟩
      obtain ⟨hy, hne⟩ := List.mem_filter.mp hy
      obtain rfl := List.inj_on_of_nodup_map s.sound.reviewsBookingUnique hy hr hbooking
      simp at hne

/-- `update_review` writes at most the rating and the comment of its own review. -/
theorem updateReview_rows (s : Store) (amb : Ambient) (caller reviewId : UUID)
    (reviewUpdate : ReviewUpdate) :
    ∃ rating comment,
      (step s (.request amb caller (.updateReview reviewId reviewUpdate))).reviews =
        s.reviews.map fun r =>
          if r.id = reviewId then { r with rating := rating, comment := comment } else r := by
  have hchange := step_reviews s (.request amb caller (.updateReview reviewId reviewUpdate))
  -- Nothing changes when the rows written are the rows there.
  have hkept : ∃ rating comment, s.reviews = s.reviews.map fun r =>
      if r.id = reviewId then { r with rating := rating, comment := comment } else r := by
    cases hrow : s.review? reviewId with
    | none =>
      refine ⟨0, none, ((List.map_congr_left fun r hr => ?_).trans s.reviews.map_id).symm⟩
      exact if_neg (find?_key_none.mp hrow r hr)
    | some x =>
      obtain ⟨hx, rfl⟩ := s.review?_eq_some.mp hrow
      refine ⟨x.rating, x.comment, ((List.map_congr_left fun r hr => ?_).trans
        s.reviews.map_id).symm⟩
      split
      · rename_i hid
        obtain rfl := List.inj_on_of_nodup_map s.sound.reviewsKey hr hx hid
        rfl
      · rfl
  generalize (step s (.request amb caller (.updateReview reviewId reviewUpdate))).reviews = rows
    at hchange
  cases hchange with
  | kept => exact hkept
  | added he => cases he
  | withdrawn he => cases he
  | @revised amb author u x he hauthor hx hrole hown =>
    cases he
    refine ⟨(x.revised reviewUpdate).rating, (x.revised reviewUpdate).comment,
      List.map_congr_left fun r hr => ?_⟩
    split
    · rename_i hid
      obtain rfl := List.inj_on_of_nodup_map s.sound.reviewsKey hr hx hid
      rfl
    · rfl

end Integrity

/-- In every state of a run that starts without bookings, reviews are unique and rightful,
an edit touches their text only, and a deletion makes their booking, and no other,
reviewable again. -/
theorem review_integrity (s₀ : Store) (h₀ : s₀.bookings = []) (events : List Event) :
    (∀ r ∈ (run s₀ events).reviews, ∀ r' ∈ (run s₀ events).reviews,
      r.bookingId = r'.bookingId → r = r') ∧
    (∀ r ∈ (run s₀ events).reviews, (run s₀ events).Rightful r) ∧
    (∀ amb caller reviewId reviewUpdate, ∃ rating comment,
      (run s₀ (events ++ [.request amb caller (.updateReview reviewId reviewUpdate)])).reviews =
        (run s₀ events).reviews.map fun r =>
          if r.id = reviewId then { r with rating := rating, comment := comment } else r) ∧
    (∀ amb caller, ∀ r ∈ (run s₀ events).reviews, ∀ x,
      outcome (run s₀ events) (serve amb caller (.deleteReview r.id)) = .ok x →
        ∀ bookingId,
          (run s₀ (events ++ [.request amb caller (.deleteReview r.id)])).Reviewable bookingId ↔
            (run s₀ events).Reviewable bookingId ∨ bookingId = r.bookingId) ∧
    (∀ b ∈ (run s₀ events).bookings, ∀ author ∈ (run s₀ events).users,
      author.role = .customer → b.customerId = author.id → ∀ amb, amb.Fresh (run s₀ events) →
        ∀ reviewIn : ReviewCreate, b.id = reviewIn.bookingId →
          ((∃ r, outcome (run s₀ events) (createReview amb author reviewIn) = .ok r) ↔
            (run s₀ events).Reviewable b.id)) := by
  have hrightful := rightful_run h₀ events
  refine ⟨fun r hr r' hr' hid => ?_, hrightful, fun amb caller reviewId reviewUpdate => ?_,
    fun amb caller r hr x hok bookingId => ?_, fun b hb author hknown hrole hown amb hfresh
      reviewIn hid => ?_⟩
  · exact List.inj_on_of_nodup_map (run s₀ events).sound.reviewsBookingUnique hr hr' hid
  · rw [run_snoc]
    exact updateReview_rows _ amb caller reviewId reviewUpdate
  · rw [run_snoc]
    exact reviewable_after_delete hrightful hr hok bookingId
  · exact createReview_ok_iff hb hid hknown hrole hown hfresh

section Example

/-- Alice's hour with Paula, completed and reviewed. -/
def reviewedHour : List Event :=
  [booksAt alice 10 (10 * hour),
    .request (sampleAmbient 1 0) paula.id (.updateBooking 10 (statusOnly .confirmed)),
    .request (sampleAmbient 2 0) paula.id (.updateBooking 10 (statusOnly .completed)),
    .request (sampleAmbient 3 30) alice.id (.createReview ⟨10, 5, none, fiveStars, noComment⟩)]

/-- An admin deletes the review, and the booking can be reviewed again. -/
theorem review_integrity_again :
    (run newPlatform (reviewedHour ++
      [.request (sampleAmbient 4 0) dana.id (.deleteReview 30)])).Reviewable 10 := by
  obtain ⟨r, hr, hid, hbooking⟩ :
      ∃ r ∈ (run newPlatform reviewedHour).reviews, r.id = 30 ∧ r.bookingId = 10 := by
    decide
  rw [← hid, ← hbooking]
  refine ((review_integrity newPlatform rfl reviewedHour).2.2.2.1 (sampleAmbient 4 0) dana.id r hr
    .noContent ?_ r.bookingId).mpr (.inr rfl)
  rw [hid]
  rfl

end Example

end BookingPlatform
