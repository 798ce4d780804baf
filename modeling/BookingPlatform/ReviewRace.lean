import BookingPlatform.Acceptance
import BookingPlatform.Concurrency
import BookingPlatform.Transact.Rely

/-!
# Reviewing side by side

`create_review` looks for an existing review in one step and inserts its own in a later
one. What the look-up misses the unique constraint catches, and either way the loser is
told the same.
-/

namespace BookingPlatform

set_option autoImplicit false

open Transact Transact.Program

/-- One `create_review` request. -/
structure Submission where
  amb : Ambient
  caller : UUID
  reviewIn : ReviewCreate

namespace Submission
variable (x : Submission) (s₀ : Store)

def event : Event := .request x.amb x.caller (.createReview x.reviewIn)

/-- The request is about this booking, from its customer in role CUSTOMER. -/
def FromCustomerOf (b : Booking) : Prop :=
  x.reviewIn.bookingId = b.id ∧ ∃ u ∈ s₀.users, u.id = x.caller ∧ u.role = .customer ∧
    b.customerId = u.id

/-- The row the request adds, when it may. -/
structure Writes (r : Review) : Prop where
  booking : ∃ b ∈ s₀.bookings, x.FromCustomerOf s₀ b ∧ b.status = .completed ∧
    r = newReview x.amb b x.caller x.reviewIn

/-- Nothing has changed but for the reviews, and none of them is this request's. -/
structure Before (s : Store) : Prop where
  users : s.users = s₀.users
  bookings : s.bookings = s₀.bookings
  absent : ∀ r ∈ s.reviews, r.id ≠ x.amb.uuid4

/-- The one commit of the request. -/
def Adds (s t : Store) : Prop :=
  ∃ r, x.Writes s₀ r ∧ t.toTables = { s.toTables with reviews := s.reviews ++ [r] }

def alreadyReviewed : Error := http 409 "A review already exists for this booking"

/-- What the answer of the request says about the reviews. -/
def Answered : Except Error Response → List Write → Store → Prop
  | .ok (.review r), _, s => x.Writes s₀ r ∧ r ∈ s.reviews
  | .ok _, _, _ => False
  | .error e, _, s => (∃ code detail, e = http code detail) ∧
      (∀ r ∈ s.reviews, r.id ≠ x.amb.uuid4) ∧
      ∀ b ∈ s₀.bookings, x.FromCustomerOf s₀ b → b.status = .completed →
        e = alreadyReviewed ∧ ∃ r ∈ s.reviews, r.bookingId = b.id

variable {x s₀}

theorem Writes.id {r : Review} (h : x.Writes s₀ r) : r.id = x.amb.uuid4 := by
  obtain ⟨b, _, _, _, rfl⟩ := h.booking
  rfl

theorem Writes.bookingId {r : Review} (h : x.Writes s₀ r) :
    r.bookingId = x.reviewIn.bookingId := by
  obtain ⟨b, _, hown, _, rfl⟩ := h.booking
  exact hown.1.symm

theorem Adds.mem {s t : Store} (h : x.Adds s₀ s t) {r : Review} (hr : r ∈ s.reviews) :
    r ∈ t.reviews := by
  obtain ⟨y, _, ht⟩ := h
  rw [ht]
  exact List.mem_append_left _ hr

theorem Adds.new {s t : Store} (h : x.Adds s₀ s t) {r : Review} (hr : r ∈ t.reviews) :
    r ∈ s.reviews ∨ x.Writes s₀ r := by
  obtain ⟨y, hy, ht⟩ := h
  rw [ht] at hr
  rcases List.mem_append.mp hr with hr | hr
  · exact .inl hr
  · exact .inr (List.mem_singleton.mp hr ▸ hy)

end Submission

section Insert
variable {α : Type} {R G : Store → Store → Prop} {P K L : Store → Prop}
  {Q : Except Error Response → List Write → Store → Prop}

theorem select_eq (q : Query) : Program.select (D := platform) q =
    Program.query (D := platform) q fun r => .done (id <$> r) := by
  refine congrArg (Program.query (D := platform) q) (funext fun r => ?_)
  cases r <;> rfl

/-- An insert among others: with `K` its row is there to be refreshed, with `L` there was
one in its way. -/
theorem within_commitOr409 {ws : List Write} {row : Service (Option α)} {q : Query}
    {read : q.Answer → Option α} {f : α → Response} {a : α} {detail : String}
    (hrow : row = Program.query (D := platform) q fun r => .done (read <$> r))
    (hcommit : ∀ s t, P s → platform.applyAll ws s = .ok t → G s t ∧ K t)
    (hkept : Stable (D := platform) R K) (hread : ∀ s, K s → read (s.answer q) = some a)
    (hok : ∀ s, K s → Q (.ok (f a)) [] s)
    (hrefused : ∀ s e, P s → platform.applyAll ws s = .error e → e = .integrityError ∧ L s)
    (hbefore : Stable (D := platform) R P) (hlost : Stable (D := platform) R L)
    (herr : ∀ s, P s → L s → Q (.error (http 409 detail)) [] s) :
    Within (D := platform) R G (f <$> commitOr409 ws row detail) [] P Q := by
  subst hrow
  refine ⟨⟨K, hkept, hcommit, fun found => ?_⟩, fun e =>
    ⟨fun s => P s ∧ e = .integrityError ∧ L s, ?_, fun s hs happ => ⟨hs, hrefused s e hs happ⟩, ?_⟩⟩
  · -- The refresh reads the row that was inserted.
    refine ⟨fun s => K s ∧ read found = some a, hkept.fact, fun s hs hfound => ⟨hs, ?_⟩, ?_⟩
    · rw [← hfound]
      exact hread s hs
    · refine within_fact fun hfound => ?_
      change Within (D := platform) R G
        ((((Program.done (Except.ok (read found))).bind _).handle _).bind _) [] K Q
      rw [hfound]
      exact hok
  · exact hbefore.and (Stable.and (fun _ _ _ he => he) hlost)
  · cases e with
    | integrityError => exact fun s hs => herr s hs.1 hs.2.2
    | _ => exact fun s hs => nomatch hs.2.1

end Insert

section OneRequest
variable {x : Submission} {s₀ : Store} {R : Store → Store → Prop}

/-- The commits of the others: submissions with other identifiers. -/
def OthersReview (x : Submission) (s₀ s t : Store) : Prop :=
  ∃ y : Submission, y.amb.uuid4 ≠ x.amb.uuid4 ∧ y.Adds s₀ s t

theorem Submission.Before.stable : Stable (D := platform) (OthersReview x s₀) (x.Before s₀) := by
  rintro s t ⟨y, hne, hadds⟩ hs
  have hrows := hadds
  obtain ⟨r, hr, ht⟩ := hrows
  refine ⟨?_, ?_, fun r' hr' => ?_⟩
  · rw [ht]
    exact hs.users
  · rw [ht]
    exact hs.bookings
  · rcases hadds.new hr' with hold | hnew
    · exact hs.absent r' hold
    · rw [hnew.id]
      exact hne

theorem reviewed_stable {bookingId : UUID} :
    Stable (D := platform) (OthersReview x s₀) fun s =>
      ∃ r ∈ s.reviews, r.bookingId = bookingId := by
  rintro s t ⟨y, _, hadds⟩ ⟨r, hr, hid⟩
  exact ⟨r, hadds.mem hr, hid⟩

/-- A request that may not review the booking is refused with an HTTP error. -/
theorem refused_answer {code : Nat} {detail : String}
    (hnot : ∀ b ∈ s₀.bookings, x.FromCustomerOf s₀ b → b.status ≠ .completed) {s : Store}
    (hs : x.Before s₀ s) : x.Answered s₀ (.error (http code detail)) [] s :=
  ⟨⟨code, detail, rfl⟩, hs.absent, fun b hb hown hcompleted =>
    absurd hcompleted (hnot b hb hown)⟩

/-- A request that finds the booking reviewed already, by either way, loses. -/
theorem lost_answer {s : Store} (hs : x.Before s₀ s)
    (h : ∃ r ∈ s.reviews, r.bookingId = x.reviewIn.bookingId) :
    x.Answered s₀ (.error Submission.alreadyReviewed) [] s :=
  ⟨⟨_, _, rfl⟩, hs.absent, fun _ _ hown _ => ⟨rfl, hown.1 ▸ h⟩⟩

/-- The insert is refused only when the booking has a review. -/
theorem insert_refused {s : Store} {r : Review} {e : Error} (hs : x.Before s₀ s)
    (hr : x.Writes s₀ r) (h : platform.applyAll [.insertReview r] s = .error e) :
    e = .integrityError ∧ ∃ y ∈ s.reviews, y.bookingId = r.bookingId := by
  obtain ⟨rfl, hbroken⟩ := broken_of_refused (w := .insertReview r) rfl h
  refine ⟨rfl, ?_⟩
  by_contra hnone
  have hfirst : ∀ y ∈ s.reviews, y.bookingId ≠ r.bookingId := fun y hy hid => hnone ⟨y, hy, hid⟩
  obtain ⟨b, hb, ⟨_, u, hu, huid, _, hcustomer⟩, _, rfl⟩ := hr.booking
  rw [← hs.bookings] at hb
  rw [← hs.users] at hu
  exact hbroken (constraints_insertReview hs.absent hfirst ⟨b, hb, rfl⟩ ⟨u, hu, huid⟩
    (s.sound.bookingsProvider b hb) x.reviewIn.ratingRange)

theorem review_stable {r : Review} :
    Stable (D := platform) (OthersReview x s₀) fun s => r ∈ s.reviews := by
  rintro s t ⟨y, _, hadds⟩ hmem
  exact hadds.mem hmem

/-- The insert and what comes after it. -/
theorem within_insert {r : Review} (hr : x.Writes s₀ r) :
    Within (D := platform) (OthersReview x s₀) (x.Adds s₀)
      (Response.review <$> commitOr409 [.insertReview r] (getReview x.amb.uuid4)
        "A review already exists for this booking") [] (x.Before s₀) (x.Answered s₀) := by
  refine within_commitOr409 (K := fun s => r ∈ s.reviews)
    (L := fun s => ∃ y ∈ s.reviews, y.bookingId = x.reviewIn.bookingId) (select_eq _) ?_
    review_stable ?_ (fun s hmem => ⟨hr, hmem⟩) ?_ Submission.Before.stable reviewed_stable
    fun s hs hreviewed => lost_answer hs hreviewed
  · intro s t _ happ
    have ht := tables_of_applyAll happ
    have hrows : t.reviews = s.reviews ++ [r] := by
      rw [ht]
      rfl
    refine ⟨⟨r, hr, ht⟩, ?_⟩
    rw [hrows]
    exact List.mem_append_right _ List.mem_cons_self
  · intro s hmem
    exact s.review?_eq_some.mpr ⟨hmem, hr.id⟩
  · intro s e hs happ
    rw [← hr.bookingId]
    exact insert_refused hs hr happ

/-- The checks, once the caller and the booking are loaded. -/
theorem within_checks {u : User} {b : Booking} (hu : u ∈ s₀.users) (huid : u.id = x.caller)
    (hb : b ∈ s₀.bookings) (hbid : b.id = x.reviewIn.bookingId) (hrole : u.role = .customer) :
    Within (D := platform) (OthersReview x s₀) (x.Adds s₀)
      (Response.review <$> do
        Program.refuseIf (b.customerId ≠ u.id)
          (http 403 "Not authorized to review this booking")
        Program.refuseIf (b.status ≠ .completed)
          (http 400 ("Cannot review a booking with status '" ++ b.status.value ++
            "'. Only completed bookings can be reviewed."))
        let existingReview : Option Review ←
          Program.select (D := platform) (.reviewOfBooking x.reviewIn.bookingId)
        Program.refuseIf existingReview.isSome
          (http 409 "A review already exists for this booking")
        commitOr409 [.insertReview (newReview x.amb b u.id x.reviewIn)]
          (getReview x.amb.uuid4) "A review already exists for this booking")
      [] (x.Before s₀) (x.Answered s₀) := by
  have honly : ∀ d ∈ s₀.bookings, x.FromCustomerOf s₀ d → d = b := fun d hd hown =>
    s₀.booking_unique hd hb (hown.1.symm.trans hbid.symm)
  by_cases hown : b.customerId = u.id
  swap
  · rw [Program.refuseIf, if_pos hown]
    refine fun s hs => refused_answer (fun d hd hfrom _ => ?_) hs
    obtain rfl := honly d hd hfrom
    obtain ⟨_, v, hv, hvid, _, hcustomer⟩ := hfrom
    exact hown (hcustomer.trans (hvid.trans huid.symm))
  by_cases hcompleted : b.status = .completed
  swap
  · rw [Program.refuseIf, if_neg (not_not.mpr hown), Program.refuseIf, if_pos hcompleted]
    refine fun s hs => refused_answer (fun d hd hfrom => ?_) hs
    obtain rfl := honly d hd hfrom
    exact hcompleted
  rw [Program.refuseIf, if_neg (not_not.mpr hown), Program.refuseIf,
    if_neg (not_not.mpr hcompleted)]
  intro existing
  cases existing with
  | none =>
    refine ⟨x.Before s₀, Submission.Before.stable, fun s hs _ => hs, ?_⟩
    exact within_insert ⟨b, hb, ⟨hbid.symm, u, hu, huid, hrole, hown⟩, hcompleted, by rw [huid]⟩
  | some r =>
    refine ⟨fun s => x.Before s₀ s ∧ ∃ y ∈ s.reviews, y.bookingId = x.reviewIn.bookingId, ?_,
      fun s hs hfound => ⟨hs, r, ?_⟩, fun s hs => lost_answer hs.1 hs.2⟩
    · exact Submission.Before.stable.and reviewed_stable
    · have hfound : s.reviews.find? (fun y => y.bookingId = x.reviewIn.bookingId) = some r :=
        hfound
      exact (find?_key s.sound.reviewsBookingUnique).mp hfound

theorem within_submission :
    Within (D := platform) (OthersReview x s₀) (x.Adds s₀) x.event.program [] (x.Before s₀)
      (x.Answered s₀) := by
  intro found
  cases found with
  | none =>
    refine ⟨fun s => x.Before s₀ s ∧ s₀.user? x.caller = none,
      Submission.Before.stable.fact, fun s hs hfound => ⟨hs, ?_⟩, fun s hs => ?_⟩
    · have hfound : s.users.find? (fun u => u.id = x.caller) = none := hfound
      rw [hs.users] at hfound
      exact hfound
    · refine refused_answer (fun b _ hfrom => ?_) hs.1
      obtain ⟨_, u, hu, huid, _⟩ := hfrom
      exact absurd huid (find?_key_none.mp hs.2 u hu)
  | some u =>
    refine ⟨fun s => x.Before s₀ s ∧ u ∈ s₀.users ∧ u.id = x.caller,
      Submission.Before.stable.fact, fun s hs hfound => ⟨hs, ?_⟩, ?_⟩
    · rw [← hs.users]
      exact s.user?_eq_some.mp hfound
    · refine within_fact fun ⟨hu, huid⟩ => ?_
      change Within _ _ (Response.review <$> createReview x.amb u x.reviewIn) _ _ _
      unfold createReview
      by_cases hrole : u.role = .customer
      swap
      · rw [Program.refuseIf, if_pos hrole]
        refine fun s hs => refused_answer (fun b _ hfrom _ => ?_) hs
        obtain ⟨_, v, hv, hvid, hcustomer, _⟩ := hfrom
        obtain rfl := s₀.user_unique hv hu (hvid.trans huid.symm)
        exact hrole hcustomer
      rw [Program.refuseIf, if_neg (not_not.mpr hrole)]
      intro foundBooking
      cases foundBooking with
      | none =>
        refine ⟨fun s => x.Before s₀ s ∧ s₀.booking? x.reviewIn.bookingId = none,
          Submission.Before.stable.fact, fun s hs hfound => ⟨hs, ?_⟩, fun s hs => ?_⟩
        · have hfound : s.bookings.find? (fun b => b.id = x.reviewIn.bookingId) = none := hfound
          rw [hs.bookings] at hfound
          exact hfound
        · refine refused_answer (fun b hb hfrom _ => ?_) hs.1
          exact find?_key_none.mp hs.2 b hb hfrom.1.symm
      | some b =>
        refine ⟨fun s => x.Before s₀ s ∧ b ∈ s₀.bookings ∧ b.id = x.reviewIn.bookingId,
          Submission.Before.stable.fact, fun s hs hfound => ⟨hs, ?_⟩, ?_⟩
        · rw [← hs.bookings]
          exact s.booking?_eq_some.mp hfound
        · exact within_fact fun ⟨hb, hbid⟩ => within_checks hu huid hb hbid hrole

section Turns

theorem endsIn_getOr404 {α : Type} {row : Service (Option α)} (detail : String)
    (h : row.EndsIn 1) : (getOr404 row detail).EndsIn 1 := by
  refine h.bind (n := 0) fun found => ?_
  cases found <;> exact endsIn_done

theorem endsIn_commitOr409 {α : Type} {row : Service (Option α)} (staged : List Write)
    (detail : String) (h : row.EndsIn 1) : (commitOr409 staged row detail).EndsIn 3 := by
  refine EndsIn.tryCatch (m := 2) (n := 1) ?_ fun e => ?_
  · refine (endsIn_commitAll _).bind (n := 1) fun _ => h.bind (n := 0) fun found => ?_
    cases found <;> exact endsIn_done
  · cases e <;> exact endsIn_done

theorem endsIn_serve {amb : Ambient} {caller : UUID} {request : Request} {n : Nat}
    (h : ∀ u, (handle amb u request).EndsIn n) : (serve amb caller request).EndsIn (1 + n) := by
  refine EndsIn.bind ((endsIn_select _).bind (n := 0) fun found => ?_) h
  cases found <;> exact endsIn_done

/-- The SELECTs of the caller, the booking and the review, the commit, and what follows. -/
theorem submission_endsIn : x.event.program.EndsIn 6 := by
  refine endsIn_serve (n := 5) fun u => EndsIn.map ?_
  refine (endsIn_refuseIf _ _).bind (m := 0) (n := 5) fun _ => ?_
  refine (endsIn_getOr404 _ (endsIn_select _)).bind (n := 4) fun b => ?_
  refine (endsIn_refuseIf _ _).bind (m := 0) (n := 4) fun _ => ?_
  refine (endsIn_refuseIf _ _).bind (m := 0) (n := 4) fun _ => ?_
  refine (endsIn_select _).bind (n := 3) fun existing => ?_
  refine (endsIn_refuseIf _ _).bind (m := 0) (n := 3) fun _ => ?_
  exact endsIn_commitOr409 _ _ (endsIn_select _)

end Turns

end OneRequest

section Race
variable {ι : Type} [DecidableEq ι] {requests : ι → Submission} {s₀ : Store}

/-- The requests side by side, after the turns of the schedule. -/
def reviewRace (requests : ι → Submission) (s₀ : Store) (schedule : List ι) :
    System platform ι Response :=
  (concurrently (fun i => (requests i).event) s₀).run schedule

/-- Where every review of the store comes from. -/
def Submitted (requests : ι → Submission) (s₀ s : Store) : Prop :=
  ∀ r ∈ s.reviews, r ∈ s₀.reviews ∨ ∃ i, (requests i).Writes s₀ r

/-- In every interleaving, what a request has been answered holds of the reviews there are. -/
theorem submissions_run (hids : Function.Injective fun i => (requests i).amb.uuid4)
    (hfresh : ∀ i, ∀ r ∈ s₀.reviews, r.id ≠ (requests i).amb.uuid4) (schedule : List ι) :
    Submitted requests s₀ (reviewRace requests s₀ schedule).store ∧
    ∀ i r, (reviewRace requests s₀ schedule).outcome i = some r →
      ∃ ws, (requests i).Answered s₀ r ws (reviewRace requests s₀ schedule).store := by
  have hsafe : System.Safe (D := platform) (fun i => OthersReview (requests i) s₀)
      (fun i => (requests i).Adds s₀) (fun i => (requests i).Answered s₀)
      (concurrently (fun i => (requests i).event) s₀) :=
    .boot (fun i => Submission.Before.stable) (fun i => ⟨rfl, rfl, hfresh i⟩)
      fun i => within_submission
  obtain ⟨hsafe, hstore⟩ := hsafe.run (I := Submitted requests s₀)
    (fun i j s t hne hadds => ⟨requests j, fun heq => hne (hids heq).symm, hadds⟩)
    (fun i s t hadds hs r hr => (hadds.new hr).elim (hs r) fun h => .inr ⟨i, h⟩)
    (fun r hr => .inl hr) schedule
  exact ⟨hstore, fun i r hr => hsafe.ended hr⟩

end Race

section Example

/-- A completed hour of Alice's with Paula. -/
def completedHour : Store where
  users := newPlatform.users
  bookings := [⟨10, alice.id, paula.id, "Massage", 10 * hour, 11 * hour, .completed⟩]
  reviews := []
  notifications := []
  sound := by decide

/-- Alice submits her review twice. -/
def submittedTwice (i : Bool) : Submission where
  amb := sampleAmbient 0 (if i then 30 else 31)
  caller := alice.id
  reviewIn := ⟨10, if i then 5 else 4, none, by cases i <;> decide, noComment⟩

end Example

end BookingPlatform
