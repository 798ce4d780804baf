import BookingPlatform.Concurrency

/-!
# Terminal statuses

Every route guards the status it loaded, not the status it overwrites. A terminal status
is final as long as no status is written to a row that has become terminal since.
-/

namespace BookingPlatform

set_option autoImplicit false

open Transact

variable {s t : Store} {W : List Write} {c : Client platform}

/-- A row that gets a status was not taken into a terminal status after it was loaded. -/
def NotOvertaken (c : Client platform) (W : List Write) (s : Store) : Prop :=
  ∀ id ch, .updateBooking id ch ∈ W → ch.status ≠ none → ∀ b, Told c (.booking id) (some b) →
    ∀ now, s.booking? id = some now → now.status.Terminal → b.status.Terminal

/-- The transaction takes the booking into a terminal status. -/
def Finishes (W : List Write) (id : UUID) : Prop :=
  ∃ ch, .updateBooking id ch ∈ W ∧ ∃ x, ch.status = some x ∧ x.Terminal

/-- A request to take the booking into a terminal status. -/
def Event.Finishes (id : UUID) : Event → Prop
  | .request _ _ (.cancelBooking bookingId) => bookingId = id
  | .request _ _ (.deleteBooking bookingId) => bookingId = id
  | .request _ _ (.updateBooking bookingId bookingUpdate) =>
    bookingId = id ∧ ∃ x, bookingUpdate.status = some x ∧ x.Terminal
  | _ => False

/-- A terminal status is kept. -/
def Booking.Final (b b' : Booking) : Prop := b.status.Terminal → b'.status = b.status

theorem Booking.Final.trans {a b c : Booking} (hab : a.Final b) (hbc : b.Final c) : a.Final c :=
  fun ha => (hbc (by rwa [hab ha])).trans (hab ha)

section Commit
variable {K : Knowledge} {id : UUID}

theorem Edited.mem_writes {amb : Ambient} {bookingId : UUID} {actor : User} {b b' : Booking}
    {notes : List Notification} (h : Edited amb bookingId actor b b' notes K W) :
    .updateBooking bookingId (b.changes b') ∈ W := by
  rw [h.writes]
  exact List.mem_append_right _ List.mem_cons_self

/-- What finishes a booking is an edit that gives it a terminal status. -/
theorem Touches.finishes (h : Touches K W) (hfinishes : Finishes W id) :
    ∃ amb actor b b' notes, Edited amb id actor b b' notes K W ∧
      (b.changes b').status = some b'.status ∧ b'.status.Terminal := by
  obtain ⟨ch, hmem, x, hx, hterminal⟩ := hfinishes
  cases h with
  | aside h => exact (h _ hmem).elim
  | booked h => simp [h.writes] at hmem
  | reviewed h => simp [h.writes] at hmem
  | @edited amb bookingId actor b b' notes h =>
    rw [h.writes] at hmem
    rcases List.mem_append.mp hmem with hmem | hmem
    · exact (aside_inserts notes _ hmem).elim
    · cases List.mem_singleton.mp hmem
      have hstatus : (b.changes b').status = some b'.status := by
        unfold Booking.changes changed at hx ⊢
        dsimp only at hx ⊢
        split at hx
        · cases hx
        · rename_i hne
          rw [if_neg hne]
      obtain rfl := Option.some.inj (hx.symm.trans hstatus)
      exact ⟨amb, actor, b, b', notes, h, hstatus, hterminal⟩

/-- A commit that overtakes nobody keeps every terminal status. -/
theorem Touches.final (h : Touches (Told c) W) (hadm : NotOvertaken c W s)
    (ht : t.toTables = s.afterAll W) :
    ∀ now ∈ s.bookings, ∃ later ∈ t.bookings, later.id = now.id ∧ now.Final later := by
  intro now hnow
  rcases h.rows ht hnow with hkept | ⟨amb, actor, b, b', notes, hedited, hpatched⟩
  · exact ⟨now, hkept, rfl, fun _ => rfl⟩
  · refine ⟨_, hpatched, rfl, fun hterminal => ?_⟩
    have hnone : (b.changes b').status = none := by
      by_contra hwritten
      exact hedited.nonterminal (hadm now.id _ hedited.mem_writes hwritten b hedited.told now
        (s.booking?_eq_some.mpr ⟨hnow, rfl⟩) hterminal)
    unfold Booking.patch
    rw [hnone, Option.getD_none]

/-- The booking that a commit finishes was open before, and is not afterwards. -/
theorem Touches.finished (h : Touches (Told c) W) (hadm : NotOvertaken c W s)
    (hfacts : ∀ e ∈ c.log, Remains Booking.Final e s) (ht : t.toTables = s.afterAll W)
    (hfinishes : Finishes W id) :
    (∀ now ∈ s.bookings, now.id = id → ¬ now.status.Terminal) ∧
      ∃ later ∈ t.bookings, later.id = id ∧ later.status.Terminal := by
  obtain ⟨amb, actor, b, b', notes, hedited, hstatus, hterminal⟩ := h.finishes hfinishes
  refine ⟨fun now hnow hid hover => ?_, ?_⟩
  · exact hedited.nonterminal (hadm id _ hedited.mem_writes (by rw [hstatus]; simp) b hedited.told
      now (s.booking?_eq_some.mpr ⟨hnow, hid⟩) hover)
  · obtain ⟨now, hnow, hid, _⟩ := hedited.told.remains hfacts
    refine ⟨now.patch (b.changes b'), ?_, hid, ?_⟩
    · rw [(hedited.rows ht).1]
      refine List.mem_map.mpr ⟨now, hnow, ?_⟩
      rw [if_pos hid]
    · unfold Booking.patch
      rwa [hstatus]

theorem Edited.finishes {amb : Ambient} {bookingId : UUID} {actor : User} {b b' : Booking}
    {notes : List Notification} (h : Edited amb bookingId actor b b' notes K W)
    (hterminal : b'.status.Terminal) : Finishes W bookingId := by
  refine ⟨_, h.mem_writes, b'.status, if_neg fun heq => ?_, hterminal⟩
  exact h.nonterminal (heq ▸ hterminal)

theorem Event.Finishes.commits {e : Event} (h : e.Finishes id) (hW : e.Commits K W) :
    BookingPlatform.Finishes W id := by
  cases e with
  | request amb caller req =>
    obtain ⟨actor, _, _, hW⟩ := hW
    cases req with
    | updateBooking bookingId bookingUpdate =>
      obtain ⟨rfl, x, hx, hterminal⟩ := h
      obtain ⟨b, notes, hW⟩ := hW
      refine hW.finishes ?_
      unfold BookingUpdate.applied
      rwa [hx]
    | cancelBooking bookingId =>
      obtain rfl : bookingId = id := h
      obtain ⟨b, notes, hW⟩ := hW
      exact hW.finishes (.inl rfl)
    | deleteBooking bookingId =>
      obtain rfl : bookingId = id := h
      obtain ⟨b, notes, _, _, hW⟩ := hW
      exact hW.finishes (.inl rfl)
    | _ => exact h.elim
  | _ => exact h.elim

theorem Event.Finishes.writes {e : Event} (h : e.Finishes id) : e.Writes := by
  cases e with
  | request amb caller req =>
    cases req with
    | updateBooking bookingId bookingUpdate => trivial
    | cancelBooking bookingId => trivial
    | deleteBooking bookingId => trivial
    | _ => exact h.elim
  | _ => exact h.elim

end Commit

/-- Every review is of a completed booking. -/
def Store.ReviewsCompleted (s : Store) : Prop :=
  ∀ r ∈ s.reviews, ∃ b ∈ s.bookings, b.id = r.bookingId ∧ b.status = .completed

theorem reviewsCompleted_commit (hs : s.ReviewsCompleted) (h : Touches (Told c) W)
    (hadm : NotOvertaken c W s) (hfacts : ∀ e ∈ c.log, Remains Booking.Final e s)
    (ht : t.toTables = s.afterAll W) : t.ReviewsCompleted := by
  -- A completed booking of the store before is a completed booking of the store after.
  have keep : ∀ id, (∃ b ∈ s.bookings, b.id = id ∧ b.status = .completed) →
      ∃ b ∈ t.bookings, b.id = id ∧ b.status = .completed := by
    rintro id ⟨b, hb, rfl, hcompleted⟩
    obtain ⟨later, hlater, hid, hfinal⟩ := h.final hadm ht b hb
    exact ⟨later, hlater, hid, (hfinal (.inr hcompleted)).trans hcompleted⟩
  intro r hr
  refine keep r.bookingId ?_
  cases h with
  | aside haside =>
    rw [ht] at hr
    obtain ⟨r', hr', hid⟩ := (afterAll_aside haside).2 r hr
    rw [← hid]
    exact hs r' hr'
  | booked hbooked =>
    rw [(hbooked.rows ht).2] at hr
    exact hs r hr
  | edited hedited =>
    rw [(hedited.rows ht).2] at hr
    exact hs r hr
  | reviewed hreviewed =>
    rw [(hreviewed.rows ht).2] at hr
    rcases List.mem_append.mp hr with hr | hr
    · exact hs r hr
    · obtain rfl := List.mem_singleton.mp hr
      obtain ⟨now, hnow, hid, hfinal⟩ := hreviewed.told.remains hfacts
      refine ⟨now, hnow, hid.trans hreviewed.key.symm, ?_⟩
      exact (hfinal (.inr hreviewed.completed)).trans hreviewed.completed

section Interleaved
variable {ι : Type} {events : ι → Event}

/-- The client has committed the end of the booking. -/
def Ended (committed : List (List Write)) (id : UUID) : Prop := ∃ W ∈ committed, Finishes W id

/-- Nobody has finished a booking that is open, and no booking has been finished twice. -/
structure EndedOnce (events : ι → Event) (s : Store) (C : ι → List (List Write)) : Prop where
  own : ∀ i, ∀ W ∈ C i, ∃ K, (events i).Commits K W
  terminal : ∀ i id, Ended (C i) id → ∃ b ∈ s.bookings, b.id = id ∧ b.status.Terminal
  once : ∀ i j id, Ended (C i) id → Ended (C j) id → i = j

variable [DecidableEq ι]

theorem mem_update_committed {C : ι → List (List Write)} {i j : ι} {V : List Write}
    (h : V ∈ Function.update C i (C i ++ [W]) j) : (j = i ∧ V = W) ∨ V ∈ C j := by
  by_cases hj : j = i
  · subst j
    rw [Function.update_self] at h
    rcases List.mem_append.mp h with h | h
    · exact .inr h
    · exact .inl ⟨rfl, List.mem_singleton.mp h⟩
  · rw [Function.update_of_ne hj] at h
    exact .inr h

theorem endedOnce_commit {C : ι → List (List Write)} {i : ι} (hC : EndedOnce events s C)
    (h : (events i).Commits (Told c) W) (hadm : NotOvertaken c W s)
    (hfacts : ∀ e ∈ c.log, Remains Booking.Final e s) (ht : t.toTables = s.afterAll W) :
    EndedOnce events t (Function.update C i (C i ++ [W])) := by
  have hended : ∀ j id, Ended (Function.update C i (C i ++ [W]) j) id →
      (j = i ∧ Finishes W id) ∨ Ended (C j) id := by
    rintro j id ⟨V, hV, hfinishes⟩
    rcases mem_update_committed hV with ⟨rfl, rfl⟩ | hV
    · exact .inl ⟨rfl, hfinishes⟩
    · exact .inr ⟨V, hV, hfinishes⟩
  -- What was finished before is terminal, so this commit does not finish it.
  have hother : ∀ j id, Finishes W id → Ended (C j) id → False := by
    intro j id hfinishes hbefore
    obtain ⟨b, hb, hid, hterminal⟩ := hC.terminal j id hbefore
    exact (h.touches.finished hadm hfacts ht hfinishes).1 b hb hid hterminal
  refine ⟨fun j V hV => ?_, fun j id hj => ?_, fun j k id hj hk => ?_⟩
  · rcases mem_update_committed hV with ⟨rfl, rfl⟩ | hV
    · exact ⟨_, h⟩
    · exact hC.own j V hV
  · rcases hended j id hj with ⟨_, hfinishes⟩ | hbefore
    · exact (h.touches.finished hadm hfacts ht hfinishes).2
    · obtain ⟨b, hb, hid, hterminal⟩ := hC.terminal j id hbefore
      obtain ⟨later, hlater, hid', hfinal⟩ := h.touches.final hadm ht b hb
      exact ⟨later, hlater, hid'.trans hid, by rwa [hfinal hterminal]⟩
  · rcases hended j id hj with ⟨hji, hjnow⟩ | hjbefore <;>
      rcases hended k id hk with ⟨hki, hknow⟩ | hkbefore
    · exact hji.trans hki.symm
    · exact (hother k id hjnow hkbefore).elim
    · exact (hother j id hknow hjbefore).elim
    · exact hC.once j k id hjbefore hkbefore

/-- Statuses are written to rows that nobody has finished since. -/
def OvertakesNobody (_ : ι) (c : Client platform) (W : List Write) (s : Store) : Prop :=
  NotOvertaken c W s

/-- Both invariants in one: who has finished what, and what is reviewed. -/
theorem finality_rules (P : Prop) :
    System.Invariant (commitsOf events) OvertakesNobody
      (fun s C => EndedOnce events s C ∧ (P → s.ReviewsCompleted)) (Remains Booking.Final) where
  told := fun _ h => remains_of_current (fun _ _ => rfl) h
  commit := by
    rintro i c W s t C ⟨hC, hreviews⟩ _ hfacts ⟨_, hW⟩ hadm happ
    have ht := tables_of_applyAll happ
    refine ⟨⟨endedOnce_commit hC hW hadm hfacts ht, fun hP => ?_⟩, fun e he => ?_⟩
    · exact reviewsCompleted_commit (hreviews hP) hW.touches hadm hfacts ht
    · exact Remains.trans (P := Booking.Final) (fun h₁ h₂ => h₁.trans h₂)
        (hW.touches.final hadm ht) he

/-- In every interleaving that writes no status to a row that has been finished since it
was loaded, a terminal status is final, one request at most has brought it about, and what is
reviewed is completed. -/
theorem terminal_final (s₀ : Store) (before after : List ι)
    (hadm : (concurrently events s₀).Admits OvertakesNobody (before ++ after)) :
    (∀ b ∈ ((concurrently events s₀).run before).store.bookings,
      b.status = .completed ∨ b.status = .cancelled →
        ∃ b' ∈ ((concurrently events s₀).run (before ++ after)).store.bookings,
          b'.id = b.id ∧ b'.status = b.status) ∧
    (∀ id i j r r', (events i).Finishes id → (events j).Finishes id →
      ((concurrently events s₀).run (before ++ after)).outcome i = some (.ok r) →
      ((concurrently events s₀).run (before ++ after)).outcome j = some (.ok r') → i = j) ∧
    (s₀.ReviewsCompleted →
      ∀ r ∈ ((concurrently events s₀).run before).store.reviews,
        ∃ b ∈ ((concurrently events s₀).run (before ++ after)).store.bookings,
          b.id = r.bookingId ∧ b.status = .completed) := by
  have hstart : EndedOnce events s₀ (fun _ => []) ∧ (s₀.ReviewsCompleted → s₀.ReviewsCompleted) :=
    ⟨⟨fun _ _ h => absurd h List.not_mem_nil, fun _ _ ⟨_, h, _⟩ => absurd h List.not_mem_nil,
      fun _ _ _ ⟨_, h, _⟩ => absurd h List.not_mem_nil⟩, id⟩
  have hbefore := (concurrently_holds hstart).run (finality_rules s₀.ReviewsCompleted) hadm.left
  have hafter := (concurrently_holds hstart).run (finality_rules s₀.ReviewsCompleted) hadm
  have hfinal : ∀ b ∈ ((concurrently events s₀).run before).store.bookings,
      ∃ b' ∈ ((concurrently events s₀).run (before ++ after)).store.bookings,
        b'.id = b.id ∧ b.Final b' := by
    rw [System.run_append]
    refine hbefore.store_run (R := fun s t : Store => ∀ b ∈ s.bookings, ∃ b' ∈ t.bookings,
      b'.id = b.id ∧ b.Final b') (finality_rules _) hadm.right ?_ ?_ ?_
    · exact fun s b hb => ⟨b, hb, rfl, fun _ => rfl⟩
    · intro s t u hst htu b hb
      obtain ⟨b₁, hb₁, hid₁, hfinal₁⟩ := hst b hb
      obtain ⟨b₂, hb₂, hid₂, hfinal₂⟩ := htu b₁ hb₁
      exact ⟨b₂, hb₂, hid₂.trans hid₁, hfinal₁.trans hfinal₂⟩
    · exact fun _ hO hA happ => hO.2.touches.final hA (tables_of_applyAll happ)
  refine ⟨fun b hb hterminal => ?_, fun id i j r r' hi hj hri hrj => ?_, fun hP r hr => ?_⟩
  · obtain ⟨b', hb', hid, hb⟩ := hfinal b hb
    exact ⟨b', hb', hid, hb hterminal.symm⟩
  · have hended : ∀ k r, (events k).Finishes id →
        ((concurrently events s₀).run (before ++ after)).outcome k = some (.ok r) →
        Ended ((((concurrently events s₀).run (before ++ after)).procs k).client.committed) id := by
      intro k r hk hr
      obtain ⟨W, hW⟩ := List.exists_mem_of_ne_nil _ (hafter.ended hr hk.writes)
      obtain ⟨K, hK⟩ := hafter.inv.1.own k W hW
      exact ⟨W, hW, hk.commits hK⟩
    exact hafter.inv.1.once i j id (hended i r hi hri) (hended j r' hj hrj)
  · obtain ⟨b, hb, hid, hcompleted⟩ := hbefore.inv.2 hP r hr
    obtain ⟨b', hb', hid', hb⟩ := hfinal b hb
    exact ⟨b', hb', hid'.trans hid, (hb (.inr hcompleted)).trans hcompleted⟩

end Interleaved

section Example

/-- One booking, confirmed. -/
def confirmedHour : Store :=
  run newPlatform [booksAt alice 10 (10 * hour),
    .request (sampleAmbient 1 0) paula.id (.updateBooking 10 (statusOnly .confirmed))]

/-- Paula completes the booking, while Alice cancels it and reviews it. -/
def threeAtOnce : Fin 3 → Event
  | 0 => .request (sampleAmbient 2 0) paula.id (.updateBooking 10 (statusOnly .completed))
  | 1 => .request (sampleAmbient 2 0) alice.id (.cancelBooking 10)
  | 2 => .request (sampleAmbient 2 30) alice.id (.createReview ⟨10, 5, none, by decide, by simp⟩)

/-- The cancellation loads the row first and is committed last: the booking is completed,
reviewed and then cancelled, and both ends are reported as successes. -/
theorem completed_then_cancelled :
    ((concurrently threeAtOnce confirmedHour).run
      [1, 1, 0, 0, 0, 0, 0, 2, 2, 2, 2, 2]).store.bookings.map Booking.status = [.completed] ∧
    ((concurrently threeAtOnce confirmedHour).run
      [1, 1, 0, 0, 0, 0, 0, 2, 2, 2, 2, 2]).store.reviews.map Review.bookingId = [10] ∧
    ((concurrently threeAtOnce confirmedHour).run
      ([1, 1, 0, 0, 0, 0, 0, 2, 2, 2, 2, 2] ++ [1, 1, 1])).store.bookings.map Booking.status =
        [.cancelled] ∧
    (((concurrently threeAtOnce confirmedHour).run
      ([1, 1, 0, 0, 0, 0, 0, 2, 2, 2, 2, 2] ++ [1, 1, 1])).outcome 0).map Except.isOk =
        some true ∧
    (((concurrently threeAtOnce confirmedHour).run
      ([1, 1, 0, 0, 0, 0, 0, 2, 2, 2, 2, 2] ++ [1, 1, 1])).outcome 1).map Except.isOk =
        some true := by
  decide

theorem notOvertaken_of_current {c : Client platform} {s : Store} {W : List Write}
    (h : ∀ e ∈ c.log, e.Current s) : NotOvertaken c W s := by
  intro id ch _ _ b htold now hnow hterminal
  have hb : some b = s.booking? id := htold.stands h
  rw [hnow] at hb
  obtain rfl := Option.some.inj hb
  exact hterminal

/-- The same requests, when the cancellation loads the row after the completion. -/
theorem terminal_final_completed :
    ∃ b ∈ ((concurrently threeAtOnce confirmedHour).run
      ([1, 0, 0, 0, 0, 0] ++ [2, 1, 2, 2, 2, 1])).store.bookings,
        b.id = 10 ∧ b.status = .completed := by
  have hcurrent : (concurrently threeAtOnce confirmedHour).Admits
      (fun _ c _ s => ∀ e ∈ c.log, e.Current s) ([1, 0, 0, 0, 0, 0] ++ [2, 1, 2, 2, 2, 1]) := by
    decide
  have hcompleted : ∃ b ∈ ((concurrently threeAtOnce confirmedHour).run
      [1, 0, 0, 0, 0, 0]).store.bookings, b.id = 10 ∧ b.status = .completed := by
    decide
  obtain ⟨b, hb, hid, hstatus⟩ := hcompleted
  obtain ⟨b', hb', hid', hsame⟩ := (terminal_final confirmedHour [1, 0, 0, 0, 0, 0]
    [2, 1, 2, 2, 2, 1] (hcurrent.mono fun _ _ _ _ => notOvertaken_of_current)).1 b hb (.inl hstatus)
  exact ⟨b', hb', hid'.trans hid, hsame.trans hstatus⟩

end Example

end BookingPlatform
