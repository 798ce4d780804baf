import BookingPlatform.Acceptance
import BookingPlatform.Transact.Relational

/-!
# What a request on a booking looks at

The footprint of such a request: the users, its booking, the calendars of its providers, the
notifications about its booking and the identifiers it draws. Stores that agree on the
footprint answer the request alike, and the request touches nothing outside of it.
-/

namespace BookingPlatform

set_option autoImplicit false

open Transact Transact.Program

section Accepted
variable {s : Store}

theorem constraints_insertBooking_iff {b : Booking} :
    Constraints (s.after (.insertBooking b)) ↔
      (∀ x ∈ s.bookings, x.id ≠ b.id) ∧ (∃ u ∈ s.users, u.id = b.customerId) ∧
        (∃ u ∈ s.users, u.id = b.providerId) ∧ b.startTime < b.endTime ∧
        b.customerId ≠ b.providerId := by
  constructor
  · intro h
    have hb : b ∈ (s.after (.insertBooking b)).bookings :=
      List.mem_append_right _ List.mem_cons_self
    have hkeys := h.bookingsKey
    change ((s.bookings ++ [b]).map Booking.id).Nodup at hkeys
    rw [List.map_append, List.nodup_append] at hkeys
    exact ⟨fun x hx => hkeys.2.2 x.id (List.mem_map_of_mem hx) b.id (List.mem_singleton.mpr rfl),
      h.bookingsCustomer b hb, h.bookingsProvider b hb, h.checkBookingEndAfterStart b hb,
      h.checkBookingCustomerNotProvider b hb⟩
  · intro ⟨hnew, hcustomer, hprovider, hlt, hne⟩
    exact constraints_insertBooking hnew hcustomer hprovider hlt hne

theorem constraints_updateBooking_iff {id : UUID} {c : BookingChanges} :
    Constraints (s.after (.updateBooking id c)) ↔
      ∀ b ∈ s.bookings, b.id = id → (b.patch c).startTime < (b.patch c).endTime := by
  constructor
  · intro h b hb hid
    refine h.checkBookingEndAfterStart (b.patch c) (List.mem_map.mpr ⟨b, hb, ?_⟩)
    exact if_pos hid
  · exact constraints_updateBooking

/-- A notification goes in, or gives way to one with its key. -/
theorem constraints_insertNotification_iff {n : Notification} {id : UUID}
    (hbooking : n.bookingId = some id) :
    Constraints (s.after (.insertNotification n)) ↔
      (∃ m ∈ s.notifications, m.SameKey n) ∨
        (∃ u ∈ s.users, u.id = n.userId) ∧ (∃ b ∈ s.bookings, b.id = id) ∧
          ∀ m ∈ s.notifications, m.id ≠ n.id := by
  constructor
  · intro h
    by_cases hdup : ∃ m ∈ s.notifications, m.SameKey n
    · exact .inl hdup
    have hadd : (s.after (.insertNotification n)).notifications = s.notifications ++ [n] :=
      if_neg hdup
    have hn : n ∈ (s.after (.insertNotification n)).notifications := by
      rw [hadd]
      exact List.mem_append_right _ List.mem_cons_self
    have hkeys := h.notificationsKey
    rw [hadd, List.map_append, List.nodup_append] at hkeys
    refine .inr ⟨h.notificationsUser n hn, ?_, fun m hm =>
      hkeys.2.2 m.id (List.mem_map_of_mem hm) n.id (List.mem_singleton.mpr rfl)⟩
    rcases h.notificationsBooking n hn with hnone | ⟨b, hb, hid⟩
    · rw [hbooking] at hnone
      cases hnone
    · exact ⟨b, hb, Option.some.inj (hid.symm.trans hbooking)⟩
  · rintro (⟨m, hm, hkey⟩ | ⟨huser, ⟨b, hb, hid⟩, hnew⟩)
    · refine constraints_insertNotification ?_ ?_ (.inl ⟨m, hm, hkey⟩)
      · rw [← hkey.1]
        exact s.sound.notificationsUser m hm
      · rw [← hkey.2.1]
        exact (s.sound.notificationsBooking m hm).resolve_left hkey.2.2.1
    · exact constraints_insertNotification huser ⟨b, hb, by rw [hbooking, hid]⟩ (.inr hnew)

end Accepted

/-- What a request on the booking `target` looks at. -/
structure Footprint where
  users : List User
  target : UUID
  providers : List UUID
  amb : Ambient

/-- An identifier that the request may give to a notification. -/
def Footprint.Draws (f : Footprint) (id : UUID) : Prop :=
  ∃ u ∈ f.users, ∃ type, f.amb.notificationId u.id (some f.target) type = id

/-- The stores agree on everything in the footprint. -/
structure Footprint.Agrees (f : Footprint) (s t : Store) : Prop where
  left : s.users = f.users
  right : t.users = f.users
  bookings : ∀ b : Booking, b.id = f.target ∨ b.providerId ∈ f.providers →
    (b ∈ s.bookings ↔ b ∈ t.bookings)
  own : ∀ b ∈ s.bookings, b.id = f.target → b.providerId ∈ f.providers
  notifications : ∀ n : Notification, n.bookingId = some f.target →
    (n ∈ s.notifications ↔ n ∈ t.notifications)
  ids : ∀ id, f.Draws id →
    ((∃ n ∈ s.notifications, n.id = id) ↔ ∃ n ∈ t.notifications, n.id = id)

namespace Footprint
variable {f : Footprint} {s t : Store}

theorem Agrees.symm (h : f.Agrees s t) : f.Agrees t s where
  left := h.right
  right := h.left
  bookings b hb := (h.bookings b hb).symm
  own b hb hid := h.own b ((h.bookings b (.inl hid)).mpr hb) hid
  notifications n hn := (h.notifications n hn).symm
  ids id hid := (h.ids id hid).symm

theorem Agrees.users (h : f.Agrees s t) : s.users = t.users := h.left.trans h.right.symm

theorem Agrees.booking? (h : f.Agrees s t) : s.booking? f.target = t.booking? f.target := by
  refine Option.ext fun b => ?_
  rw [s.booking?_eq_some, t.booking?_eq_some]
  constructor
  · intro ⟨hb, hid⟩
    exact ⟨(h.bookings b (.inl hid)).mp hb, hid⟩
  · intro ⟨hb, hid⟩
    exact ⟨(h.bookings b (.inl hid)).mpr hb, hid⟩

theorem Agrees.exists_target (h : f.Agrees s t) :
    (∃ b ∈ s.bookings, b.id = f.target) ↔ ∃ b ∈ t.bookings, b.id = f.target := by
  constructor
  · intro ⟨b, hb, hid⟩
    exact ⟨b, (h.bookings b (.inl hid)).mp hb, hid⟩
  · intro ⟨b, hb, hid⟩
    exact ⟨b, (h.bookings b (.inl hid)).mpr hb, hid⟩

theorem Agrees.exists_key (h : f.Agrees s t) {n : Notification}
    (hn : n.bookingId = some f.target) :
    (∃ m ∈ s.notifications, m.SameKey n) ↔ ∃ m ∈ t.notifications, m.SameKey n := by
  constructor
  · intro ⟨m, hm, hkey⟩
    exact ⟨m, (h.notifications m (hkey.2.1.trans hn)).mp hm, hkey⟩
  · intro ⟨m, hm, hkey⟩
    exact ⟨m, (h.notifications m (hkey.2.1.trans hn)).mpr hm, hkey⟩

/-- A statement is respected when it is accepted alike on both sides and its rows agree. -/
theorem respects_of {w : Write} (hstale : ∀ s t, f.Agrees s t → s.stale w = t.stale w)
    (hok : ∀ s t, f.Agrees s t → Constraints (s.after w) →
      Constraints (t.after w) ∧ s.result w = t.result w ∧
        ∀ s' t' : Store, s'.toTables = s.after w → t'.toTables = t.after w → f.Agrees s' t') :
    Database.Respects (D := platform) f.Agrees w := by
  intro s t h
  have hboth := hstale s t h
  by_cases hs : s.stale w = true
  · have ht := hboth.symm.trans hs
    refine .inl ⟨.staleDataError, ?_, ?_⟩
    · exact if_pos hs
    · exact if_pos ht
  · have ht : ¬ t.stale w = true := fun ht => hs (hboth.trans ht)
    by_cases hc : Constraints (s.after w)
    · obtain ⟨hc', hresult, hrows⟩ := hok s t h hc
      refine .inr ⟨s.result w, ⟨s.after w, hc⟩, ⟨t.after w, hc'⟩, ?_, ?_, hrows _ _ rfl rfl⟩
      · exact (if_neg hs).trans (dif_pos hc)
      · rw [hresult]
        exact (if_neg ht).trans (dif_pos hc')
    · have hc' : ¬ Constraints (t.after w) := fun hc' => hc (hok t s h.symm hc').1
      refine .inl ⟨.integrityError, ?_, ?_⟩
      · exact (if_neg hs).trans (dif_neg hc)
      · exact (if_neg ht).trans (dif_neg hc')

theorem respects_insertNotification {n : Notification} (hn : n.bookingId = some f.target)
    (hid : f.Draws n.id) : Database.Respects (D := platform) f.Agrees (.insertNotification n) := by
  refine respects_of (fun _ _ _ => rfl) fun s t h hc => ?_
  have hkey := h.exists_key hn
  have hfresh : (∀ m ∈ s.notifications, m.id ≠ n.id) ↔ ∀ m ∈ t.notifications, m.id ≠ n.id := by
    have hids := not_congr (h.ids n.id hid)
    simpa only [not_exists, not_and] using hids
  refine ⟨?_, if_congr hkey rfl rfl, fun s' t' hs' ht' => ?_⟩
  · rw [constraints_insertNotification_iff hn] at hc ⊢
    rwa [← hkey, ← h.users, ← h.exists_target, ← hfresh]
  · have hs : ∀ m, m ∈ s'.notifications ↔
        m ∈ s.notifications ∨ (m = n ∧ ¬ ∃ k ∈ s.notifications, k.SameKey n) := by
      intro m
      rw [hs']
      exact mem_addNotification
    have ht : ∀ m, m ∈ t'.notifications ↔
        m ∈ t.notifications ∨ (m = n ∧ ¬ ∃ k ∈ s.notifications, k.SameKey n) := by
      intro m
      rw [ht', hkey]
      exact mem_addNotification
    refine ⟨?_, ?_, fun b hb => ?_, fun b hb => ?_, fun m hm => ?_, fun id hdraws => ?_⟩
    · rw [hs']
      exact h.left
    · rw [ht']
      exact h.right
    · rw [hs', ht']
      exact h.bookings b hb
    · rw [hs'] at hb
      exact h.own b hb
    · rw [hs, ht, h.notifications m hm]
    · simp only [hs, ht, or_and_right, exists_or]
      rw [h.ids id hdraws]

theorem respects_insertBooking {b : Booking} (hid : b.id = f.target)
    (hprovider : b.providerId ∈ f.providers) :
    Database.Respects (D := platform) f.Agrees (.insertBooking b) := by
  refine respects_of (fun _ _ _ => rfl) fun s t h hc => ⟨?_, rfl, fun s' t' hs' ht' => ?_⟩
  · have hnew : (∀ x ∈ s.bookings, x.id ≠ b.id) ↔ ∀ x ∈ t.bookings, x.id ≠ b.id := by
      have htarget := not_congr h.exists_target
      rw [← hid] at htarget
      simpa only [not_exists, not_and] using htarget
    rw [constraints_insertBooking_iff] at hc ⊢
    rwa [← hnew, ← h.users]
  · have hs : ∀ x, x ∈ s'.bookings ↔ x ∈ s.bookings ∨ x = b := by
      intro x
      rw [hs']
      exact List.mem_append.trans (or_congr_right List.mem_singleton)
    have ht : ∀ x, x ∈ t'.bookings ↔ x ∈ t.bookings ∨ x = b := by
      intro x
      rw [ht']
      exact List.mem_append.trans (or_congr_right List.mem_singleton)
    refine ⟨?_, ?_, fun x hx => ?_, fun x hx hxid => ?_, fun m hm => ?_, fun id hdraws => ?_⟩
    · rw [hs']
      exact h.left
    · rw [ht']
      exact h.right
    · rw [hs, ht, h.bookings x hx]
    · rcases (hs x).mp hx with hx | rfl
      · exact h.own x hx hxid
      · exact hprovider
    · rw [hs', ht']
      exact h.notifications m hm
    · rw [hs', ht']
      exact h.ids id hdraws

theorem respects_updateBooking (c : BookingChanges) :
    Database.Respects (D := platform) f.Agrees (.updateBooking f.target c) := by
  refine respects_of (fun s t h => ?_) fun s t h hc => ⟨?_, rfl, fun s' t' hs' ht' => ?_⟩
  · simp only [Tables.stale, h.booking?]
  · rw [constraints_updateBooking_iff] at hc ⊢
    intro b hb hid
    exact hc b ((h.bookings b (.inl hid)).mpr hb) hid
  · have hmem : ∀ (u u' : Store), u'.toTables = u.after (.updateBooking f.target c) →
        ∀ x, x ∈ u'.bookings ↔ (∃ b ∈ u.bookings, b.id = f.target ∧ b.patch c = x) ∨
          (x ∈ u.bookings ∧ x.id ≠ f.target) := by
      intro u u' hu' x
      rw [hu']
      constructor
      · intro hx
        obtain ⟨b, hb, rfl⟩ := List.mem_map.mp hx
        split
        · exact .inl ⟨b, hb, ‹_›, rfl⟩
        · exact .inr ⟨hb, ‹_›⟩
      · rintro (⟨b, hb, hid, rfl⟩ | ⟨hx, hid⟩)
        · exact List.mem_map.mpr ⟨b, hb, if_pos hid⟩
        · exact List.mem_map.mpr ⟨x, hx, if_neg hid⟩
    have hs := hmem s s' hs'
    have ht := hmem t t' ht'
    refine ⟨?_, ?_, fun x hx => ?_, fun x hx hxid => ?_, fun m hm => ?_, fun id hdraws => ?_⟩
    · rw [hs']
      exact h.left
    · rw [ht']
      exact h.right
    · rw [hs, ht]
      have hpatched : (∃ b ∈ s.bookings, b.id = f.target ∧ b.patch c = x) ↔
          ∃ b ∈ t.bookings, b.id = f.target ∧ b.patch c = x := by
        constructor
        · rintro ⟨b, hb, hid, hx⟩
          exact ⟨b, (h.bookings b (.inl hid)).mp hb, hid, hx⟩
        · rintro ⟨b, hb, hid, hx⟩
          exact ⟨b, (h.bookings b (.inl hid)).mpr hb, hid, hx⟩
      rw [hpatched, h.bookings x hx]
    · rcases (hs x).mp hx with ⟨b, hb, hid, rfl⟩ | ⟨_, hne⟩
      · exact h.own b hb hid
      · exact absurd hxid hne
    · rw [hs', ht']
      exact h.notifications m hm
    · rw [hs', ht']
      exact h.ids id hdraws

section Services
variable {α : Type}

theorem local_getUser (id : UUID) : Local f.Agrees (getUser id) :=
  local_select fun s t h => by
    change s.users.find? _ = t.users.find? _
    rw [h.users]

theorem local_getBooking : Local f.Agrees (getBooking f.target) :=
  local_select fun _ _ h => h.booking?

theorem local_getOr404 {row : Service (Option α)} (h : Local f.Agrees row) (detail : String) :
    Local f.Agrees (getOr404 row detail) := by
  refine local_bind h fun a _ => ?_
  cases a <;> exact local_done _

theorem local_commitAndRefresh {staged : List Write} {row : Service (Option α)}
    (hstaged : ∀ w ∈ staged, Database.Respects (D := platform) f.Agrees w)
    (hrow : Local f.Agrees row) : Local f.Agrees (commitAndRefresh staged row) := by
  refine local_tryCatch (local_bind (local_commitAll hstaged) fun _ _ => ?_) fun e =>
    local_bind local_rollbackAll fun _ _ => local_done _
  refine local_bind hrow fun a _ => ?_
  cases a <;> exact local_done _

theorem local_commitOrRollback {staged : List Write}
    (hstaged : ∀ w ∈ staged, Database.Respects (D := platform) f.Agrees w) :
    Local f.Agrees (commitOrRollback staged) :=
  local_tryCatch (local_commitAll hstaged) fun _ =>
    local_bind local_rollbackAll fun _ _ => local_done _

/-- Whose calendar is in the footprint is free or not, whatever else is booked. -/
theorem local_checkProviderConflict {providerId : UUID} (hprovider : providerId ∈ f.providers)
    (st en : Time) (x : Option UUID) :
    Local f.Agrees (checkProviderConflict providerId st en x) := by
  refine local_bind (fun σ τ h => ?_) fun _ _ => local_refuseIf _ _
  have hfree : σ.working.answer (.conflict providerId st en x) = none ↔
      τ.working.answer (.conflict providerId st en x) = none := by
    rw [conflict_eq_none, conflict_eq_none]
    constructor
    · intro hfree b hb hconflict
      exact hfree b ((h.2.bookings b (.inr (hconflict.1 ▸ hprovider))).mpr hb) hconflict
    · intro hfree b hb hconflict
      exact hfree b ((h.2.bookings b (.inr (hconflict.1 ▸ hprovider))).mp hb) hconflict
  rw [exec_isProviderAvailable, exec_isProviderAvailable]
  refine ⟨congrArg Except.ok ?_, h⟩
  exact Bool.eq_iff_iff.mpr (by simpa only [Option.isNone_iff_eq_none] using hfree)

theorem local_createNotification {userId : UUID} (huser : ∃ u ∈ f.users, u.id = userId)
    (type : NotificationType) (title message : String) :
    Local f.Agrees (createNotification f.amb userId (some f.target) type title message) := by
  obtain ⟨u, hu, rfl⟩ := huser
  exact local_send (respects_insertNotification rfl ⟨u, hu, type, rfl⟩)

/-- What the request knows of its booking once it has read it. -/
structure Owns (f : Footprint) (b : Booking) : Prop where
  target : b.id = f.target
  provider : b.providerId ∈ f.providers
  customerUser : ∃ u ∈ f.users, u.id = b.customerId
  providerUser : ∃ u ∈ f.users, u.id = b.providerId

theorem owns_of_booking? (h : f.Agrees s t) {b : Booking} (hb : s.booking? f.target = some b) :
    f.Owns b := by
  obtain ⟨hmem, hid⟩ := s.booking?_eq_some.mp hb
  refine ⟨hid, h.own b hmem hid, ?_, ?_⟩
  · rw [← h.left]
    exact s.sound.bookingsCustomer b hmem
  · rw [← h.left]
    exact s.sound.bookingsProvider b hmem

theorem owns_of_returns {detail : String} {b : Booking}
    (h : Returns f.Agrees (getOr404 (getBooking f.target) detail) b) : f.Owns b := by
  obtain ⟨σ, τ, hrel, hb⟩ := h
  cases hrow : σ.working.booking? f.target with
  | none =>
    have hnone : (getBooking f.target).exec σ = (.ok none, σ) := by rw [exec_getBooking, hrow]
    rw [exec_getOr404_none hnone] at hb
    cases hb
  | some b' =>
    have hsome : (getBooking f.target).exec σ = (.ok (some b'), σ) := by rw [exec_getBooking, hrow]
    rw [exec_getOr404_some hsome] at hb
    cases hb
    exact owns_of_booking? hrel.2 hrow

theorem known_of_returns {id : UUID} {detail : String} {u : User}
    (h : Returns f.Agrees (getOr404 (getUser id) detail) u) : ∃ u ∈ f.users, u.id = id := by
  obtain ⟨σ, τ, hrel, hu⟩ := h
  have hexec : (getOr404 (getUser id) detail).exec σ = (.ok u, _) := Prod.ext hu rfl
  obtain ⟨found, ρ, hrow, hexec⟩ := exec_bind_inv hexec
  obtain ⟨hfound, _⟩ := Prod.mk.inj ((exec_getUser id).symm.trans hrow)
  cases found with
  | none => cases hexec
  | some u =>
    obtain ⟨hmem, hid⟩ := σ.working.user?_eq_some.mp (Except.ok.inj hfound)
    exact ⟨u, hrel.2.left ▸ hmem, hid⟩

theorem local_getBookingById (user : User) : Local f.Agrees (getBookingById f.target user) := by
  refine local_bind (local_getOr404 local_getBooking _) fun b _ => ?_
  split
  · exact local_pure _
  · exact local_throw _

theorem owns_of_getBookingById {user : User} {b : Booking}
    (h : Returns f.Agrees (getBookingById f.target user) b) : f.Owns b := by
  obtain ⟨σ, τ, hrel, hb⟩ := h
  have hexec : (getBookingById f.target user).exec σ = (.ok b, _) := Prod.ext hb rfl
  obtain ⟨b', ρ, hrow, hexec⟩ := exec_bind_inv hexec
  have howns := owns_of_returns ⟨σ, τ, hrel, congrArg Prod.fst hrow⟩
  split at hexec
  · cases hexec
    exact howns
  · cases hexec

section Steps
variable {b : Booking} (h : f.Owns b)
include h

theorem local_notifyCancelled {userId : UUID} (huser : ∃ u ∈ f.users, u.id = userId) :
    Local f.Agrees (notifyCancelled f.amb b userId) := by
  unfold notifyCancelled
  rw [h.target]
  exact local_bind (local_createNotification huser _ _ _) fun _ _ => local_pure _

theorem local_notifyCancellation (actor : User) :
    Local f.Agrees (notifyCancellation f.amb b actor) :=
  local_bind (local_runIf (local_notifyCancelled h h.customerUser)) fun _ _ =>
    local_runIf (local_notifyCancelled h h.providerUser)

theorem local_notifyTransition (actor : User) :
    Local f.Agrees (notifyTransition f.amb b actor) := by
  unfold notifyTransition
  split
  · rw [h.target]
    exact local_bind (local_createNotification h.customerUser _ _ _) fun _ _ => local_pure _
  · rw [h.target]
    exact local_bind (local_createNotification h.customerUser _ _ _) fun _ _ => local_pure _
  · exact local_notifyCancellation h actor
  · exact local_pure _

theorem local_stageStatus (target : Option BookingStatus) (actor : User) :
    Local f.Agrees (stageStatus f.amb b target actor) := by
  unfold stageStatus
  cases target with
  | none => exact local_pure _
  | some target =>
    simp only
    split
    · exact local_pure _
    · refine local_bind (local_ofExcept _) fun _ _ => ?_
      have howns : f.Owns { b with status := target } := { h with }
      exact local_bind (local_notifyTransition howns actor) fun _ _ => local_pure _

theorem local_stageSchedule (st en : Option Time) :
    Local f.Agrees (stageSchedule b st en) := by
  unfold stageSchedule
  split
  · exact local_pure _
  · refine local_bind (local_refuseIf _ _) fun _ _ => ?_
    exact local_bind (local_checkProviderConflict h.provider _ _ _) fun _ _ => local_pure _

end Steps

section Requests
variable (f) (user : User)

theorem local_createBooking {bookingIn : BookingCreate} (htarget : f.amb.uuid4 = f.target)
    (hprovider : bookingIn.providerId ∈ f.providers) (customerId : UUID) :
    Local f.Agrees (createBooking f.amb customerId bookingIn) := by
  refine local_bind (local_refuseIf _ _) fun _ _ => ?_
  refine local_bind (local_getOr404 (local_getUser _) _) fun provider hfound => ?_
  refine local_bind (local_refuseIf _ _) fun _ _ => ?_
  refine local_bind (local_checkProviderConflict hprovider _ _ _) fun _ _ => ?_
  refine local_bind (local_send (respects_insertBooking htarget hprovider)) fun _ _ => ?_
  have hknown := known_of_returns hfound
  rw [htarget]
  refine local_bind (local_createNotification hknown _ _ _) fun _ _ => ?_
  exact local_commitAndRefresh (fun _ hw => absurd hw List.not_mem_nil) local_getBooking

theorem local_updateBooking (u : BookingUpdate) :
    Local f.Agrees (updateBooking f.amb f.target u user) := by
  refine local_bind (local_getOr404 local_getBooking _) fun b hb => ?_
  have howns := owns_of_returns hb
  refine local_bind (local_refuseIf _ _) fun _ _ => ?_
  refine local_bind (local_refuseIf _ _) fun _ _ => ?_
  refine local_bind (local_stageStatus howns _ _) fun staged hstaged => ?_
  have hstaged : f.Owns staged := by
    obtain ⟨σ, τ, _, hok⟩ := hstaged
    have hexec : (stageStatus f.amb b u.status user).exec σ = (.ok staged, _) := Prod.ext hok rfl
    rw [(stageStatus_ok hexec).1]
    exact { howns with }
  refine local_bind (local_stageSchedule hstaged _ _) fun staged' _ => ?_
  refine local_commitAndRefresh (fun w hw => ?_) local_getBooking
  rw [List.mem_singleton.mp hw]
  exact respects_updateBooking _

theorem local_cancelBooking : Local f.Agrees (cancelBooking f.amb f.target user) := by
  refine local_bind (local_getBookingById user) fun b hb => ?_
  have howns : f.Owns b.cancelled := { owns_of_getBookingById hb with }
  refine local_bind (local_ofExcept _) fun _ _ => ?_
  refine local_bind (local_notifyCancellation howns user) fun _ _ => ?_
  refine local_commitAndRefresh (fun w hw => ?_) local_getBooking
  rw [List.mem_singleton.mp hw]
  exact respects_updateBooking _

theorem local_deleteBooking : Local f.Agrees (deleteBooking f.amb f.target user) := by
  refine local_bind (local_getOr404 local_getBooking _) fun b hb => ?_
  have howns : f.Owns b.cancelled := { owns_of_returns hb with }
  iterate 5 refine local_bind (local_refuseIf _ _) fun _ _ => ?_
  refine local_bind (local_notifyCancellation howns user) fun _ _ => ?_
  refine local_commitOrRollback fun w hw => ?_
  rw [List.mem_singleton.mp hw]
  exact respects_updateBooking _

end Requests

end Services

end Footprint

end BookingPlatform
