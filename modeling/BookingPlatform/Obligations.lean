import BookingPlatform.Commits

/-!
# The commit of every program

One rule for every helper of the services, one theorem for every route, and from
them `event_wp`: whatever the store answers along the way, a program commits at
most once, and what `Event.Commits` says. Later modules never open a service.
-/

namespace BookingPlatform

set_option autoImplicit false

open Transact Transact.Program

/-- Queries whose answer pending notification inserts cannot change. -/
def Query.Steady : Query → Prop
  | .notification _ | .notificationsPage .. => False
  | _ => True

/-- The client was given this answer, and not because of its own inserts. -/
def Told (c : Client platform) (q : Query) (a : q.Answer) : Prop :=
  ∃ notes, (⟨inserts notes, q, a⟩ : Entry platform) ∈ c.log ∧ (notes = [] ∨ q.Steady)

/-- Only `db.refresh` can fail after a commit. -/
def late (e : Error) : Prop := e = .invalidRequestError

section Helpers
variable {α : Type} {O : Obligation platform} {c : Client platform}

theorem wpOk_getOr404 {row : Service (Option α)} {detail : String}
    {Q : α → Client platform → Prop}
    (h : row.wpOk late O c fun o d => d.committed = [] ∧ ∀ a, o = some a → Q a d) :
    (getOr404 row detail).wpOk late O c Q := by
  refine wpOk_bind.mpr (wpOk_mono h fun o d ho => ?_)
  cases o with
  | none => exact .inl ho.1
  | some a => exact ho.2 a rfl

theorem wpOk_refresh {row : Service (Option α)} {Q : α → Client platform → Prop}
    (h : row.wpOk late O c fun o d => ∀ a, o = some a → Q a d) :
    (refresh row).wpOk late O c Q := by
  refine wpOk_bind.mpr (wpOk_mono h fun o d ho => ?_)
  cases o with
  | none => exact .inr rfl
  | some a => exact ho a rfl

theorem wpOk_getUser {id : UUID} {Q : Option User → Client platform → Prop}
    (h : ∀ (s : Store) o, s.user? id = o → Q o (c.learn (.user id) o)) :
    (getUser id).wpOk late O c Q := fun s => h (platform.view c.pending s) _ rfl

theorem wpOk_getBooking {id : UUID} {Q : Option Booking → Client platform → Prop}
    (h : ∀ (s : Store) o, s.booking? id = o → Q o (c.learn (.booking id) o)) :
    (getBooking id).wpOk late O c Q := fun s => h (platform.view c.pending s) _ rfl

theorem wpOk_getReview {id : UUID} {Q : Option Review → Client platform → Prop}
    (h : ∀ (s : Store) o, s.review? id = o → Q o (c.learn (.review id) o)) :
    (getReview id).wpOk late O c Q := fun s => h (platform.view c.pending s) _ rfl

theorem wpOk_getNotification {id : UUID} {Q : Option Notification → Client platform → Prop}
    (h : ∀ (s : Store) o, s.notification? id = o → Q o (c.learn (.notification id) o)) :
    (getNotification id).wpOk late O c Q := fun s => h (platform.view c.pending s) _ rfl

theorem wpOk_isProviderAvailable {p : UUID} {st en : Time} {x : Option UUID}
    {Q : Bool → Client platform → Prop}
    (h : ∀ o : Option UUID, Q o.isNone (c.learn (.conflict p st en x) o)) :
    (isProviderAvailable p st en x).wpOk late O c Q :=
  wpOk_bind.mpr fun s => h (platform.answer (.conflict p st en x) (platform.view c.pending s))

theorem wpOk_createNotification {amb : Ambient} {userId : UUID} {bookingId : Option UUID}
    {type : NotificationType} {title message : String}
    {Q : Option Notification → Client platform → Prop}
    (hc : c.committed = [])
    (h : ∀ r, Q r (c.wroteAll (inserts [amb.notification userId bookingId type title message]))) :
    (createNotification amb userId bookingId type title message).wpOk late O c Q :=
  wpOk_send (D := platform) hc h

theorem wpOk_commitAndRefresh {staged : List Write} {row : Service (Option α)}
    {Q : α → Client platform → Prop} (hc : c.committed = []) (hO : O c (c.pending ++ staged))
    (h : row.wpOk late O (c.commit staged) fun o d => ∀ a, o = some a → Q a d) :
    (commitAndRefresh staged row).wpOk late O c Q :=
  wpOk_tryCatch (wpOk_bind.mpr (wpOk_commitAll hc hO (wpOk_refresh h)))
    fun _ _ => wpOk_rollback_throw

theorem wpOk_commitOrRollback {staged : List Write} {Q : Unit → Client platform → Prop}
    (hc : c.committed = []) (hO : O c (c.pending ++ staged)) (h : Q () (c.commit staged)) :
    (commitOrRollback staged).wpOk late O c Q :=
  wpOk_tryCatch (wpOk_commitAll hc hO h) fun _ _ => wpOk_rollback_throw

theorem wpOk_commitOr409 {staged : List Write} {row : Service (Option α)} {detail : String}
    {Q : α → Client platform → Prop} (hc : c.committed = []) (hO : O c (c.pending ++ staged))
    (h : row.wpOk late O (c.commit staged) fun o d => ∀ a, o = some a → Q a d) :
    (commitOr409 staged row detail).wpOk late O c Q := by
  refine wpOk_tryCatch (wpOk_bind.mpr (wpOk_commitAll hc hO (wpOk_refresh h))) fun e d he => ?_
  cases e with
  | integrityError => exact wpOk_rollback_throw (he.imp_right fun hlate => nomatch hlate)
  | _ => exact he

theorem wpOk_getUserByEmail {amb : Ambient} {email : String}
    {Q : Option User → Client platform → Prop}
    (hc : c.committed = [])
    (hnone : Q none (c.learn (.usersByEmail amb.sqlLower (amb.lower (amb.strip email))) []))
    (hsome : ∀ u rows,
      Q (some u) (c.learn (.usersByEmail amb.sqlLower (amb.lower (amb.strip email))) rows)) :
    (getUserByEmail amb email).wpOk late O c Q := by
  refine wpOk_bind.mpr fun s => ?_
  generalize platform.answer _ _ = rows
  match rows with
  | [] => exact hnone
  | [u] => exact hsome u _
  | u :: v :: us => exact .inl hc

/-- A conflict check that passes has been told that nothing conflicts. -/
theorem wpOk_checkProviderConflict {p : UUID} {st en : Time} {x : Option UUID}
    {Q : Unit → Client platform → Prop} (hc : c.committed = [])
    (h : Q () (c.learn (.conflict p st en x) none)) :
    (checkProviderConflict p st en x).wpOk late O c Q := by
  refine wpOk_bind.mpr (wpOk_isProviderAvailable fun o => ?_)
  refine wpOk_refuseIf hc fun havail => ?_
  cases o with
  | none => exact h
  | some i => exact absurd (not_not.mp havail) (by simp)

end Helpers

section Telling
variable {c : Client platform}

theorem wroteAll_inserts_nil (c : Client platform) : c.wroteAll (inserts []) = c :=
  Client.wroteAll_nil c

/-- Answers given before stay in the log. -/
theorem Told.learn {q q' : Query} {a : q.Answer} (h : Told c q a) (a' : q'.Answer) :
    Told (c.learn q' a') q a :=
  h.imp fun _ hn => ⟨List.mem_cons_of_mem _ hn.1, hn.2⟩

theorem Told.wroteAll {q : Query} {a : q.Answer} (h : Told c q a) (ws : List Write) :
    Told (c.wroteAll ws) q a := h

theorem told_learn (h : c.pending = []) (q : Query) (a : q.Answer) : Told (c.learn q a) q a :=
  ⟨[], by rw [Client.learn_log, h]; exact ⟨List.mem_cons_self, .inl rfl⟩⟩

theorem told_learn_steady {notes : List Notification} (h : c.pending = inserts notes)
    {q : Query} (hq : q.Steady) (a : q.Answer) : Told (c.learn q a) q a :=
  ⟨notes, by rw [Client.learn_log, h]; exact ⟨List.mem_cons_self, .inr hq⟩⟩

end Telling

section Transitions

theorem validateStatusTransition_ok {current target : BookingStatus} {role : UserRole}
    (h : validateStatusTransition current target role = .ok ()) (hne : target ≠ current) :
    target ∈ validTransitions current ∧ role ∈ roleAllowedTransitions current target := by
  unfold validateStatusTransition at h
  split at h
  · split at h <;> cases h
  split at h
  · split at h <;> cases h
  split at h
  · cases h
  rename_i hvalid
  split at h
  · split at h <;> cases h
  rename_i hrole
  exact ⟨not_not.mp hvalid, not_not.mp hrole⟩

/-- Nothing leaves a terminal status, not even for itself. -/
theorem nonterminal_of_validate_ok {current target : BookingStatus} {role : UserRole}
    (h : validateStatusTransition current target role = .ok ()) : ¬ current.Terminal := by
  rintro (rfl | rfl) <;> cases target <;> cases h

/-- Both cancelling routes end in the same transaction. -/
theorem cancelled_edit {amb : Ambient} {user : User} {b : Booking} {K : Knowledge}
    (htold : K (.booking b.id) (some b)) (haccess : b.accessibleTo user)
    (hvalid : .cancelled ∈ validTransitions b.status)
    (hrole : user.role ∈ roleAllowedTransitions b.status .cancelled)
    (hopen : ¬ b.status.Terminal) :
    Edited amb b.id user b b.cancelled (cancellationNotes amb b.cancelled user) K
      (inserts (cancellationNotes amb b.cancelled user) ++
        [.updateBooking b.id (b.changes b.cancelled)]) :=
  ⟨htold, rfl, haccess, hopen, .inr ⟨hvalid, hrole, rfl⟩, .inl ⟨rfl, rfl⟩, rfl, rfl, rfl, rfl⟩

variable {O : Obligation platform} {c : Client platform}

theorem wpOk_notifyCancelled {amb : Ambient} {b : Booking} {userId : UUID}
    {Q : Unit → Client platform → Prop}
    (hc : c.committed = []) (h : Q () (c.wroteAll (inserts [cancelledNote amb b userId]))) :
    (notifyCancelled amb b userId).wpOk late O c Q :=
  wpOk_bind.mpr (wpOk_createNotification hc fun _ => h)

theorem wpOk_notifyCancellation {amb : Ambient} {b : Booking} {actor : User}
    {Q : Unit → Client platform → Prop}
    (hc : c.committed = []) (h : Q () (c.wroteAll (inserts (cancellationNotes amb b actor)))) :
    (notifyCancellation amb b actor).wpOk late O c Q := by
  refine wpOk_bind.mpr ?_
  unfold cancellationNotes at h
  refine wpOk_runIf.mpr ⟨fun hcust => ?_, fun hcust => ?_⟩
  · rw [if_pos hcust] at h
    refine wpOk_notifyCancelled hc (wpOk_runIf.mpr ⟨fun hprov => ?_, fun hprov => ?_⟩)
    · rw [if_pos hprov, inserts_append, ← Client.wroteAll_wroteAll] at h
      exact wpOk_notifyCancelled hc h
    · rw [if_neg hprov, List.append_nil] at h
      exact h
  · rw [if_neg hcust, List.nil_append] at h
    refine wpOk_runIf.mpr ⟨fun hprov => ?_, fun hprov => ?_⟩
    · rw [if_pos hprov] at h
      exact wpOk_notifyCancelled hc h
    · rw [if_neg hprov, wroteAll_inserts_nil] at h
      exact h

theorem wpOk_notifyTransition {amb : Ambient} {b : Booking} {actor : User}
    {Q : Unit → Client platform → Prop}
    (hc : c.committed = []) (h : Q () (c.wroteAll (inserts (transitionNotes amb b actor)))) :
    (notifyTransition amb b actor).wpOk late O c Q := by
  unfold notifyTransition
  unfold transitionNotes at h
  cases hs : b.status with
  | pending =>
    rw [hs, wroteAll_inserts_nil] at h
    exact h
  | confirmed =>
    rw [hs] at h
    exact wpOk_bind.mpr (wpOk_createNotification hc fun _ => h)
  | completed =>
    rw [hs] at h
    exact wpOk_bind.mpr (wpOk_createNotification hc fun _ => h)
  | cancelled =>
    rw [hs] at h
    exact wpOk_notifyCancellation hc h

theorem wpOk_stageStatus {amb : Ambient} {b : Booking} {target : Option BookingStatus}
    {actor : User} {Q : Booking → Client platform → Prop}
    (hc : c.committed = []) (h : ∀ notes, StatusChange amb actor b (target.getD b.status) notes →
      Q { b with status := target.getD b.status } (c.wroteAll (inserts notes))) :
    (stageStatus amb b target actor).wpOk late O c Q := by
  unfold stageStatus
  cases target with
  | none =>
    have hkeep := h [] (.inl ⟨rfl, rfl⟩)
    rwa [wroteAll_inserts_nil] at hkeep
  | some target =>
    simp only
    split
    · rename_i heq
      subst heq
      have hkeep := h [] (.inl ⟨rfl, rfl⟩)
      rwa [wroteAll_inserts_nil] at hkeep
    · rename_i hne
      refine wpOk_bind.mpr (wpOk_ofExcept hc fun _ hok => ?_)
      refine wpOk_bind.mpr (wpOk_notifyTransition hc ?_)
      obtain ⟨hvalid, hrole⟩ := validateStatusTransition_ok hok hne
      exact h _ (.inr ⟨hvalid, hrole, rfl⟩)

theorem wpOk_stageSchedule {b : Booking} {st en : Option Time}
    {Q : Booking → Client platform → Prop}
    (hc : c.committed = []) (hkeep : st = none → en = none → Q b c)
    (hmove : st.getD b.startTime < en.getD b.endTime →
      Q { b with startTime := st.getD b.startTime, endTime := en.getD b.endTime }
        (c.learn (.conflict b.providerId (st.getD b.startTime) (en.getD b.endTime) (some b.id))
          none)) :
    (stageSchedule b st en).wpOk late O c Q := by
  unfold stageSchedule
  split
  · rename_i hnone
    exact hkeep hnone.1 hnone.2
  · refine wpOk_bind.mpr (wpOk_refuseIf hc fun hlt => ?_)
    exact wpOk_bind.mpr (wpOk_checkProviderConflict hc (hmove (not_le.mp hlt)))

end Transitions

section Routes
variable {c : Client platform} (hp : c.pending = []) (hc : c.committed = [])
include hp hc

theorem wpOk_getBookingById {O : Obligation platform} {bookingId : UUID} {user : User}
    {Q : Booking → Client platform → Prop}
    (h : ∀ b, b.id = bookingId → b.accessibleTo user →
      Told (c.learn (.booking bookingId) (some b)) (.booking bookingId) (some b) →
        Q b (c.learn (.booking bookingId) (some b))) :
    (getBookingById bookingId user).wpOk late O c Q := by
  refine wpOk_bind.mpr (wpOk_getOr404 (wpOk_getBooking fun s o ho => ⟨hc, ?_⟩))
  rintro b rfl
  split
  · rename_i haccess
    exact h b (s.booking?_eq_some.mp ho).2 haccess (told_learn hp _ _)
  · exact .inl hc

theorem createBooking_wp (amb : Ambient) (customerId : UUID) (bookingIn : BookingCreate) :
    (createBooking amb customerId bookingIn).wpOk late
      (Once fun c W => Booked amb customerId bookingIn (Told c) W) c
      fun _ d => d.committed ≠ [] := by
  refine wpOk_bind.mpr (wpOk_refuseIf hc fun hself => ?_)
  refine wpOk_bind.mpr (wpOk_getOr404 (wpOk_getUser fun s o ho => ⟨hc, ?_⟩))
  rintro p rfl
  refine wpOk_bind.mpr (wpOk_refuseIf hc fun hrole => ?_)
  refine wpOk_bind.mpr (wpOk_checkProviderConflict hc ?_)
  refine wpOk_bind.mpr (wpOk_send (D := platform) hc fun _ => ?_)
  refine wpOk_bind.mpr (wpOk_createNotification hc fun _ => ?_)
  have hid : p.id = bookingIn.providerId := (s.user?_eq_some.mp ho).2
  have hprov := told_learn hp (.user bookingIn.providerId) (some p)
  have hfree := told_learn (c := c.learn (.user bookingIn.providerId) (some p)) hp
    (.conflict bookingIn.providerId bookingIn.startTime bookingIn.endTime none) none
  refine wpOk_commitAndRefresh hc ⟨hc, hself, ⟨p, hprov.learn _, hid, not_not.mp hrole⟩, hfree, ?_⟩
    (wpOk_getBooking fun _ _ _ _ _ => by simp)
  simp [hp, createdNote, newBooking]

theorem updateBooking_wp (amb : Ambient) (bookingId : UUID) (bookingUpdate : BookingUpdate)
    (currentUser : User) :
    (updateBooking amb bookingId bookingUpdate currentUser).wpOk late
      (Once fun c W => ∃ b notes,
        Edited amb bookingId currentUser b (bookingUpdate.applied b) notes (Told c) W) c
      fun _ d => d.committed ≠ [] := by
  refine wpOk_bind.mpr (wpOk_getOr404 (wpOk_getBooking fun s o ho => ⟨hc, ?_⟩))
  rintro b rfl
  have hkey : b.id = bookingId := (s.booking?_eq_some.mp ho).2
  refine wpOk_bind.mpr (wpOk_refuseIf hc fun haccess => ?_)
  refine wpOk_bind.mpr (wpOk_refuseIf hc fun hopen => ?_)
  have htold := told_learn hp (.booking bookingId) (some b)
  refine wpOk_bind.mpr (wpOk_stageStatus hc fun notes hstatus => ?_)
  refine wpOk_bind.mpr (wpOk_stageSchedule hc (fun hst hen => ?_) fun hlt => ?_)
  · refine wpOk_commitAndRefresh hc ⟨hc, b, notes, ?_⟩ (wpOk_getBooking fun _ _ _ _ _ => by simp)
    refine ⟨htold, hkey, not_not.mp haccess, hopen, hstatus, .inl ?_, rfl, rfl, rfl, ?_⟩
    · simp [BookingUpdate.applied, hst, hen]
    · simp [hp, BookingUpdate.applied, Booking.renamed, hst, hen]
  · refine wpOk_commitAndRefresh hc ⟨hc, b, notes, ?_⟩ (wpOk_getBooking fun _ _ _ _ _ => by simp)
    refine ⟨(htold.wroteAll _).learn _, hkey, not_not.mp haccess, hopen, hstatus,
      .inr ⟨hlt, ?_⟩, rfl, rfl, rfl, ?_⟩
    · exact @told_learn_steady _ notes (by simp [hp]) (.conflict ..) trivial _
    · simp [hp, BookingUpdate.applied, Booking.renamed]

theorem cancelBooking_wp (amb : Ambient) (bookingId : UUID) (currentUser : User) :
    (cancelBooking amb bookingId currentUser).wpOk late
      (Once fun c W => ∃ b notes,
        Edited amb bookingId currentUser b b.cancelled notes (Told c) W) c
      fun _ d => d.committed ≠ [] := by
  refine wpOk_bind.mpr (wpOk_getBookingById hp hc fun b hkey haccess htold => ?_)
  subst hkey
  refine wpOk_bind.mpr (wpOk_ofExcept hc fun _ hok => ?_)
  refine wpOk_bind.mpr (wpOk_notifyCancellation hc ?_)
  have hopen := nonterminal_of_validate_ok hok
  obtain ⟨hvalid, hrole⟩ := validateStatusTransition_ok hok fun h => hopen (.inl h.symm)
  refine wpOk_commitAndRefresh hc ⟨hc, b, cancellationNotes amb b.cancelled currentUser, ?_⟩
    (wpOk_getBooking fun _ _ _ _ _ => by simp)
  rw [Client.wroteAll_pending, Client.learn_pending, hp]
  exact cancelled_edit (htold.wroteAll _) haccess hvalid hrole hopen

theorem deleteBooking_wp (amb : Ambient) (bookingId : UUID) (currentUser : User) :
    (deleteBooking amb bookingId currentUser).wpOk late
      (Once fun c W => ∃ b notes, b.status = .pending ∧ currentUser.role ≠ .provider ∧
        Edited amb bookingId currentUser b b.cancelled notes (Told c) W) c
      fun _ d => d.committed ≠ [] := by
  refine wpOk_bind.mpr (wpOk_getOr404 (wpOk_getBooking fun s o ho => ⟨hc, ?_⟩))
  rintro b rfl
  have hkey : b.id = bookingId := (s.booking?_eq_some.mp ho).2
  subst hkey
  refine wpOk_bind.mpr (wpOk_refuseIf hc fun hrole => ?_)
  refine wpOk_bind.mpr (wpOk_refuseIf hc fun howner => ?_)
  refine wpOk_bind.mpr (wpOk_refuseIf hc fun hcompleted => ?_)
  refine wpOk_bind.mpr (wpOk_refuseIf hc fun hconfirmed => ?_)
  refine wpOk_bind.mpr (wpOk_refuseIf hc fun hcancelled => ?_)
  refine wpOk_bind.mpr (wpOk_notifyCancellation hc ?_)
  have hpending : b.status = .pending := by
    cases hs : b.status <;> simp_all
  have haccess : b.accessibleTo currentUser := by
    cases hr : currentUser.role with
    | admin => exact .inl hr
    | provider => exact absurd hr hrole
    | customer => exact .inr (.inl ⟨hr, not_not.mp fun h => howner ⟨hr, h⟩⟩)
  have hallowed : currentUser.role ∈ roleAllowedTransitions b.status .cancelled := by
    rw [hpending]
    cases currentUser.role <;> decide
  refine wpOk_commitOrRollback hc ⟨hc, b, cancellationNotes amb b.cancelled currentUser, hpending,
    hrole, ?_⟩ (by simp)
  rw [Client.wroteAll_pending, Client.learn_pending, hp]
  exact cancelled_edit ((told_learn hp (.booking b.id) (some b)).wroteAll _) haccess
    (by rw [hpending]; decide) hallowed (by rw [hpending]; decide)

theorem createReview_wp (amb : Ambient) (currentUser : User) (reviewIn : ReviewCreate) :
    (createReview amb currentUser reviewIn).wpOk late
      (Once fun c W => ∃ b, Reviewed amb currentUser reviewIn b (Told c) W) c
      fun _ d => d.committed ≠ [] := by
  refine wpOk_bind.mpr (wpOk_refuseIf hc fun hrole => ?_)
  refine wpOk_bind.mpr (wpOk_getOr404 (wpOk_getBooking fun s o ho => ⟨hc, ?_⟩))
  rintro b rfl
  have hkey : b.id = reviewIn.bookingId := (s.booking?_eq_some.mp ho).2
  refine wpOk_bind.mpr (wpOk_refuseIf hc fun hown => ?_)
  refine wpOk_bind.mpr (wpOk_refuseIf hc fun hcompleted => ?_)
  refine wpOk_bind.mpr fun s => ?_
  refine wpOk_bind.mpr (wpOk_refuseIf hc fun hfirst => ?_)
  have hbooking := told_learn hp (.booking reviewIn.bookingId) (some b)
  have hnone : platform.answer (.reviewOfBooking reviewIn.bookingId) (platform.view _ s) = none :=
    Option.not_isSome_iff_eq_none.mp hfirst
  refine wpOk_commitOr409 hc ⟨hc, b, hbooking.learn _, hkey, not_not.mp hrole, not_not.mp hown,
    not_not.mp hcompleted, ?_, by simp [hp]⟩ (wpOk_getReview fun _ _ _ _ _ => by simp)
  rw [hnone]
  exact told_learn (c := c.learn _ _) hp (.reviewOfBooking reviewIn.bookingId) none

theorem updateReview_wp (reviewId : UUID) (reviewUpdate : ReviewUpdate) (currentUser : User) :
    (updateReview reviewId reviewUpdate currentUser).wpOk late
      (Once fun c W => ∃ r, Revised reviewId currentUser reviewUpdate r (Told c) W) c
      fun _ d => d.committed ≠ [] := by
  refine wpOk_bind.mpr (wpOk_getOr404 (wpOk_getReview fun s o ho => ⟨hc, ?_⟩))
  rintro r rfl
  refine wpOk_bind.mpr (wpOk_refuseIf hc fun hauthor => ?_)
  obtain ⟨hrole, hown⟩ := not_or.mp hauthor
  exact wpOk_commitAndRefresh hc ⟨hc, r, told_learn hp _ _, (s.review?_eq_some.mp ho).2,
    not_not.mp hrole, not_not.mp hown, by simp [hp]⟩ (wpOk_getReview fun _ _ _ _ _ => by simp)

theorem deleteReview_wp (reviewId : UUID) (currentUser : User) :
    (deleteReview reviewId currentUser).wpOk late
      (Once fun c W => ∃ r, Withdrawn reviewId currentUser r (Told c) W) c
      fun _ d => d.committed ≠ [] := by
  refine wpOk_bind.mpr (wpOk_getOr404 (wpOk_getReview fun s o ho => ⟨hc, ?_⟩))
  rintro r rfl
  refine wpOk_bind.mpr (wpOk_refuseIf hc fun haccess => ?_)
  exact wpOk_commitOrRollback hc ⟨hc, r, told_learn hp _ _, (s.review?_eq_some.mp ho).2,
    not_not.mp haccess, by simp [hp]⟩ (by simp)

theorem markNotificationAsRead_wp (amb : Ambient) (notificationId userId : UUID) :
    (markNotificationAsRead amb notificationId userId).wpOk late
      (Once fun c W => ∃ n, Acknowledged amb notificationId userId n (Told c) W) c
      fun _ _ => True := by
  refine wpOk_bind.mpr (wpOk_getOr404 (wpOk_getNotification fun s o ho => ⟨hc, ?_⟩))
  rintro n rfl
  refine wpOk_bind.mpr (wpOk_refuseIf hc fun hown => ?_)
  split
  · trivial
  · rename_i hunread
    exact wpOk_commitAndRefresh hc ⟨hc, n, told_learn hp _ _, (s.notification?_eq_some.mp ho).2,
      not_not.mp hown, Bool.eq_false_of_not_eq_true hunread, by simp [hp]⟩
      (wpOk_getNotification fun _ _ _ _ _ => trivial)

theorem markAllAsRead_wp (amb : Ambient) (userId : UUID) :
    (markAllAsRead amb userId).wpOk late
      (Once fun _ W => W = [Write.readAllNotifications userId amb.now]) c
      fun _ d => d.committed ≠ [] := by
  refine wpOk_bind.mpr (wpOk_send (D := platform) hc fun _ => ?_)
  exact wpOk_bind.mpr (wpOk_commitOrRollback hc ⟨hc, by simp [hp]⟩ (by simp))

theorem registerUser_wp (amb : Ambient) (userIn : UserRegister) :
    (registerUser amb userIn).wpOk late
      (Once fun c W => ∃ hashedPw, Registered amb userIn hashedPw (Told c) W) c
      fun _ d => d.committed ≠ [] := by
  refine wpOk_bind.mpr (wpOk_getUserByEmail hc ?_ fun u rows => ?_)
  · refine wpOk_bind.mpr (wpOk_refuseIf hc fun _ => ?_)
    refine wpOk_bind.mpr (wpOk_ofExcept hc fun hashedPw hhash => ?_)
    exact wpOk_commitOr409 hc ⟨hc, hashedPw, told_learn hp _ _, hhash, by simp [hp]⟩
      (wpOk_getUser fun _ _ _ _ _ => by simp)
  · exact wpOk_bind.mpr (wpOk_refuseIf hc fun h => absurd rfl h)

end Routes

section Jobs

/-- The loop sends the notes of every row, in order. -/
theorem wpOk_notifyParticipants {O : Obligation platform} {amb : Ambient} {notice : Notice}
    {rows : List Booking} {Q : Nat → Client platform → Prop} {c : Client platform}
    {createdCount : Nat}
    (hc : c.committed = [])
    (h : ∀ count, Q count (c.wroteAll (inserts (rows.flatMap (notice.notes amb))))) :
    (notifyParticipants amb notice rows createdCount).wpOk late O c Q := by
  induction rows generalizing c createdCount with
  | nil =>
    have hdone := h createdCount
    rwa [List.flatMap_nil, wroteAll_inserts_nil] at hdone
  | cons b rows ih =>
    refine wpOk_bind.mpr (wpOk_createNotification hc fun _ => ?_)
    refine wpOk_bind.mpr (wpOk_createNotification hc fun _ => ?_)
    refine ih hc fun count => ?_
    have hcount := h count
    rw [Client.wroteAll_wroteAll, Client.wroteAll_wroteAll, ← inserts_append, ← inserts_append]
    exact hcount

theorem runNotificationJob_wp {c : Client platform} (hp : c.pending = []) (hc : c.committed = [])
    (amb : Ambient) (notice : Notice) (due : Booking → Bool) :
    (runNotificationJob amb notice due).wpOk late
      (Once fun c W => ∃ rows, Notified amb notice due rows (Told c) W) c
      fun _ d => d.committed ≠ [] := by
  refine wpOk_bind.mpr fun s => ?_
  have htold := told_learn hp (.bookings due)
    (platform.answer (.bookings due) (platform.view c.pending s))
  refine wpOk_bind.mpr (wpOk_notifyParticipants hc fun _ => wpOk_bind.mpr ?_)
  exact wpOk_commitAll (D := platform) hc ⟨hc, _, htold.wroteAll _, by simp [hp]⟩ (by simp)

end Jobs

section Events

theorem handle_wp {c : Client platform} (hp : c.pending = []) (hc : c.committed = [])
    (amb : Ambient) (actor : User) (request : Request) :
    (handle amb actor request).wpOk late (Once fun c W => request.Commits amb actor (Told c) W) c
      fun _ d => request.Writes → d.committed ≠ [] := by
  cases request with
  | createBooking bookingIn =>
    exact wpOk_map.mpr (wpOk_mono (createBooking_wp hp hc amb actor.id bookingIn)
      fun _ _ h _ => h)
  | updateBooking bookingId bookingUpdate =>
    exact wpOk_map.mpr (wpOk_mono (updateBooking_wp hp hc amb bookingId bookingUpdate actor)
      fun _ _ h _ => h)
  | cancelBooking bookingId =>
    exact wpOk_map.mpr (wpOk_mono (cancelBooking_wp hp hc amb bookingId actor) fun _ _ h _ => h)
  | deleteBooking bookingId =>
    exact wpOk_map.mpr (wpOk_mono (deleteBooking_wp hp hc amb bookingId actor) fun _ _ h _ => h)
  | createReview reviewIn =>
    exact wpOk_map.mpr (wpOk_mono (createReview_wp hp hc amb actor reviewIn) fun _ _ h _ => h)
  | updateReview reviewId reviewUpdate =>
    exact wpOk_map.mpr (wpOk_mono (updateReview_wp hp hc reviewId reviewUpdate actor)
      fun _ _ h _ => h)
  | deleteReview reviewId =>
    exact wpOk_map.mpr (wpOk_mono (deleteReview_wp hp hc reviewId actor) fun _ _ h _ => h)
  | markNotificationRead notificationId =>
    exact wpOk_map.mpr (wpOk_mono (markNotificationAsRead_wp hp hc amb notificationId actor.id)
      fun _ _ _ h => h.elim)
  | markAllNotificationsRead =>
    exact wpOk_map.mpr (wpOk_mono (markAllAsRead_wp hp hc amb actor.id) fun _ _ h _ => h)
  | getBooking bookingId =>
    exact wpOk_map.mpr (wpOk_getBookingById hp hc fun _ _ _ _ h => h.elim)
  | listBookings status skip limit => exact wpOk_map.mpr fun _ h => h.elim
  | getReview reviewId =>
    refine wpOk_map.mpr (wpOk_bind.mpr (wpOk_getOr404 (wpOk_getReview fun _ _ _ => ?_)))
    refine ⟨hc, fun r _ => ?_⟩
    split
    · exact fun h => h.elim
    · exact .inl hc
  | listReviews providerId rating skip limit => exact wpOk_map.mpr fun _ h => h.elim
  | listNotifications skip limit unreadOnly => exact wpOk_map.mpr fun _ h => h.elim
  | checkProviderAvailability providerId startTime endTime =>
    refine wpOk_bind.mpr (wpOk_refuseIf hc fun _ => wpOk_map.mpr (wpOk_bind.mpr ?_))
    refine wpOk_bind.mpr (wpOk_getOr404 (wpOk_getUser fun _ _ _ => ⟨hc, fun p _ => ?_⟩))
    refine wpOk_bind.mpr (wpOk_refuseIf hc fun _ => ?_)
    refine wpOk_bind.mpr (wpOk_isProviderAvailable fun _ => ?_)
    exact wpOk_bind.mpr (wpOk_refuseIf hc fun _ h => h.elim)
  | getProviderReviewSummary providerId =>
    refine wpOk_map.mpr (wpOk_bind.mpr
      (wpOk_getOr404 (wpOk_getUser fun _ _ _ => ⟨hc, fun p _ => ?_⟩)))
    refine wpOk_bind.mpr (wpOk_refuseIf hc fun _ => ?_)
    refine wpOk_bind.mpr fun _ => wpOk_bind.mpr fun _ => ?_
    exact wpOk_ofExcept hc fun _ _ => wpOk_ofExcept hc fun _ _ h => h.elim

theorem serve_wp (amb : Ambient) (caller : UUID) (request : Request) :
    (serve amb caller request).wpOk late
      (Once fun c W => (Event.request amb caller request).Commits (Told c) W) .start
      fun _ d => request.Writes → d.committed ≠ [] := by
  refine wpOk_bind.mpr (wpOk_bind.mpr (wpOk_getUser fun s o ho => ?_))
  cases o with
  | none => exact .inl rfl
  | some actor =>
    have hid : actor.id = caller := (s.user?_eq_some.mp ho).2
    have hhandle := handle_wp (c := Client.start.learn (.user caller) (some actor)) rfl rfl amb
      actor request
    change (handle amb actor request).wpOk _ _ _ _
    refine wp_obligation (wp_remember hhandle List.mem_cons_self) ?_
    rintro d W ⟨htold, hc, hW⟩
    exact ⟨hc, actor, ⟨[], htold, .inl rfl⟩, hid, hW⟩

theorem event_wp (e : Event) :
    e.program.wpOk late (Once fun c W => e.Commits (Told c) W) .start
      fun _ d => e.Writes → d.committed ≠ [] := by
  cases e with
  | request amb caller req => exact serve_wp amb caller req
  | register amb userIn =>
    exact wpOk_map.mpr (wpOk_mono (registerUser_wp rfl rfl amb userIn) fun _ _ h _ => h)
  | reminderJob amb windowMinutes =>
    exact wpOk_map.mpr (wpOk_mono (runNotificationJob_wp rfl rfl amb reminderNotice _)
      fun _ _ h _ => h)
  | overdueJob amb =>
    exact wpOk_map.mpr (wpOk_mono (runNotificationJob_wp rfl rfl amb overdueNotice _)
      fun _ _ h _ => h)

end Events

end BookingPlatform
