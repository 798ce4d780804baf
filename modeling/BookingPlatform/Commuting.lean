import BookingPlatform.Alerts
import BookingPlatform.Separation

/-!
# Requests on different providers

Neither request touches what the other looks at. So each ends as it would have alone, and
both orders leave the same rows.
-/

namespace BookingPlatform

set_option autoImplicit false

open Transact Transact.Program

section Requests

/-- The booking that one of the four requests on bookings is about. -/
def Request.target? (amb : Ambient) : Request → Option UUID
  | .createBooking _ => some amb.uuid4
  | .updateBooking bookingId _ => some bookingId
  | .cancelBooking bookingId => some bookingId
  | .deleteBooking bookingId => some bookingId
  | _ => none

/-- The provider that a new booking asks for. -/
def Request.asked : Request → List UUID
  | .createBooking bookingIn => [bookingIn.providerId]
  | _ => []

/-- The providers of a request about the booking `id`: the one it asks for, and the one the
booking has. -/
def Request.providers (req : Request) (id : UUID) (s : Store) : List UUID :=
  req.asked ++ (s.booking? id).toList.map Booking.providerId

end Requests

namespace Footprint
variable {f g : Footprint} {req : Request} {user : User} {s t : Store}

/-- The footprint has all that the request looks at. -/
structure Covers (f : Footprint) (req : Request) (s : Store) : Prop where
  users : s.users = f.users
  target : req.target? f.amb = some f.target
  asked : ∀ p ∈ req.asked, p ∈ f.providers
  own : ∀ b ∈ s.bookings, b.id = f.target → b.providerId ∈ f.providers

theorem Covers.of_agrees (h : f.Covers req s) (ha : f.Agrees s t) : f.Covers req t :=
  ⟨ha.right, h.target, h.asked, ha.symm.own⟩

theorem covers_of_target (amb : Ambient) {id : UUID} (h : req.target? amb = some id) :
    (⟨s.users, id, req.providers id s, amb⟩ : Footprint).Covers req s := by
  refine ⟨rfl, h, fun p hp => List.mem_append_left _ hp, fun b hb hid => ?_⟩
  have hrow : s.booking? id = some b := s.booking?_eq_some.mpr ⟨hb, hid⟩
  refine List.mem_append_right _ ?_
  rw [hrow]
  exact List.mem_singleton.mpr rfl

/-- Stores that agree on the footprint answer the request alike. -/
theorem Covers.local_handle (h : f.Covers req s) (user : User) :
    Local f.Agrees (handle f.amb user req) := by
  have htarget := h.target
  cases req with
  | createBooking bookingIn =>
    exact local_map (local_createBooking f (Option.some.inj htarget)
      (h.asked _ (List.mem_singleton.mpr rfl)) user.id)
  | updateBooking bookingId u =>
    obtain rfl := Option.some.inj htarget
    exact local_map (local_updateBooking f user u)
  | cancelBooking bookingId =>
    obtain rfl := Option.some.inj htarget
    exact local_map (local_cancelBooking f user)
  | deleteBooking bookingId =>
    obtain rfl := Option.some.inj htarget
    exact local_map (local_deleteBooking f user)
  | _ => cases htarget

/-- Nothing outside of the footprint has been touched between `s` and `t`. -/
structure Frames (f : Footprint) (s t : Store) : Prop where
  users : t.users = s.users
  reviews : t.reviews = s.reviews
  bookings : ∀ b : Booking, b.id ≠ f.target → (b ∈ t.bookings ↔ b ∈ s.bookings)
  own : ∀ b ∈ t.bookings, b.id = f.target → b.providerId ∈ f.providers
  kept : ∀ n ∈ s.notifications, n ∈ t.notifications
  added : ∀ n ∈ t.notifications,
    n ∈ s.notifications ∨ (n.bookingId = some f.target ∧ f.Draws n.id)

theorem Frames.notifications (h : f.Frames s t) {n : Notification}
    (hn : n.bookingId ≠ some f.target) : n ∈ t.notifications ↔ n ∈ s.notifications := by
  constructor
  · intro hmem
    exact (h.added n hmem).resolve_right fun hadded => hn hadded.1
  · exact h.kept n

theorem frames_refl (h : f.Covers req s) : f.Frames s s :=
  ⟨rfl, rfl, fun _ _ => Iff.rfl, h.own, fun _ hn => hn, fun _ hn => .inl hn⟩

/-- The notifications of an edit are about the booking and go to its participants. -/
theorem mem_notes {amb : Ambient} {actor : User} {b : Booking} {status : BookingStatus}
    {notes : List Notification} (h : StatusChange amb actor b status notes) {n : Notification}
    (hn : n ∈ notes) : n.bookingId = some b.id ∧ ∃ userId type,
      (userId = b.customerId ∨ userId = b.providerId) ∧
        n.id = amb.notificationId userId (some b.id) type := by
  rcases h with ⟨_, rfl⟩ | ⟨_, _, rfl⟩
  · cases hn
  · unfold transitionNotes at hn
    split at hn
    · cases hn
    · rw [List.mem_singleton.mp hn]
      exact ⟨rfl, _, _, .inl rfl, rfl⟩
    · rw [List.mem_singleton.mp hn]
      exact ⟨rfl, _, _, .inl rfl, rfl⟩
    · rcases mem_cancellationNotes hn with rfl | rfl
      · exact ⟨rfl, _, _, .inl rfl, rfl⟩
      · exact ⟨rfl, _, _, .inr rfl, rfl⟩

theorem frames_of_booked (h : f.Covers req s) {customerId : UUID} {bookingIn : BookingCreate}
    {W : List Write} (htarget : f.amb.uuid4 = f.target)
    (hprovider : bookingIn.providerId ∈ f.providers)
    (hbooked : Booked f.amb customerId bookingIn s.Says W)
    (ht : platform.applyAll W s = .ok t) : f.Frames s t := by
  have htables := (tables_of_applyAll ht).trans hbooked.tables
  have hrows : ∀ b, b ∈ t.bookings ↔
      b ∈ s.bookings ∨ b = newBooking f.amb customerId bookingIn := by
    intro b
    rw [htables]
    exact List.mem_append.trans (or_congr_right List.mem_singleton)
  obtain ⟨p, hp, hid, _⟩ := hbooked.provider
  have hp : s.user? bookingIn.providerId = some p := Eq.symm hp
  refine ⟨?_, ?_, fun b hb => ?_, fun b hb hbid => ?_, fun n hn => ?_, fun n hn => ?_⟩
  · rw [htables]
  · rw [htables]
  · rw [hrows, or_iff_left]
    rintro rfl
    exact hb htarget
  · rcases (hrows b).mp hb with hb | rfl
    · exact h.own b hb hbid
    · exact hprovider
  · rw [htables]
    exact mem_addNotification.mpr (.inl hn)
  · rw [htables] at hn
    rcases mem_addNotification.mp hn with hn | ⟨rfl, _⟩
    · exact .inl hn
    · refine .inr ⟨congrArg some htarget, p, ?_, .bookingCreated, ?_⟩
      · rw [← h.users]
        exact (s.user?_eq_some.mp hp).1
      · rw [hid, ← htarget]
        rfl

theorem frames_of_edited (h : f.Covers req s) {actor : User} {b b' : Booking}
    {notes : List Notification} {W : List Write}
    (hedited : Edited f.amb f.target actor b b' notes s.Says W)
    (ht : platform.applyAll W s = .ok t) : f.Frames s t := by
  have htables := (tables_of_applyAll ht).trans hedited.tables
  have hb := hedited.mem
  have hkey : b'.id = f.target := hedited.sameId.trans hedited.key
  have hrows : ∀ x, x ∈ t.bookings ↔ x = b' ∨ (x ∈ s.bookings ∧ x.id ≠ b'.id) := by
    intro x
    rw [htables]
    exact mem_replaceBooking ⟨b, hb, hedited.sameId.symm⟩
  refine ⟨?_, ?_, fun x hx => ?_, fun x hx hxid => ?_, fun n hn => ?_, fun n hn => ?_⟩
  · rw [htables]
  · rw [htables]
  · rw [hrows]
    constructor
    · rintro (rfl | ⟨hmem, _⟩)
      · exact absurd hkey hx
      · exact hmem
    · intro hmem
      exact .inr ⟨hmem, fun hid => hx (hid.trans hkey)⟩
  · rcases (hrows x).mp hx with rfl | ⟨_, hne⟩
    · rw [hedited.sameProvider]
      exact h.own b hb hedited.key
    · exact absurd (hxid.trans hkey.symm) hne
  · rw [htables]
    exact mem_addNotifications_left hn
  · rw [htables] at hn
    rcases mem_addNotifications hn with hn | ⟨hn, _⟩
    · exact .inl hn
    · obtain ⟨hbooking, userId, type, huser, hid⟩ := mem_notes hedited.status hn
      rw [hedited.key] at hbooking hid
      have hknown : ∃ u ∈ s.users, u.id = userId := by
        rcases huser with rfl | rfl
        · exact s.sound.bookingsCustomer b hb
        · exact s.sound.bookingsProvider b hb
      obtain ⟨u, hu, rfl⟩ := hknown
      exact .inr ⟨hbooking, u, h.users ▸ hu, type, hid.symm⟩

/-- A request touches nothing outside of its footprint. -/
theorem Covers.frames (h : f.Covers req s) (user : User) :
    f.Frames s (leaves s (handle f.amb user req)) := by
  rcases leaves_cases (O := fun K W => req.Commits f.amb user K W) s
    (handle_wp rfl rfl f.amb user req) fun hK h => h.mono hK with ⟨hs, _⟩ | ⟨W, hW, ht, _⟩
  · rw [hs]
    exact frames_refl h
  have htarget := h.target
  cases req with
  | createBooking bookingIn =>
    exact frames_of_booked h (Option.some.inj htarget) (h.asked _ (List.mem_singleton.mpr rfl))
      hW ht
  | updateBooking bookingId u =>
    obtain rfl := Option.some.inj htarget
    obtain ⟨b, notes, hW⟩ := hW
    exact frames_of_edited h hW ht
  | cancelBooking bookingId =>
    obtain rfl := Option.some.inj htarget
    obtain ⟨b, notes, hW⟩ := hW
    exact frames_of_edited h hW ht
  | deleteBooking bookingId =>
    obtain rfl := Option.some.inj htarget
    obtain ⟨b, notes, _, _, hW⟩ := hW
    exact frames_of_edited h hW ht
  | _ => cases htarget

/-- The footprints meet in the users only. -/
structure Apart (f g : Footprint) : Prop where
  users : f.users = g.users
  target : f.target ≠ g.target
  providers : ∀ p ∈ f.providers, p ∉ g.providers
  ids : ∀ id, f.Draws id → ¬ g.Draws id

theorem Apart.symm (h : f.Apart g) : g.Apart f :=
  ⟨h.users.symm, h.target.symm, fun p hg hf => h.providers p hf hg,
    fun id hg hf => h.ids id hf hg⟩

/-- What stays inside of one footprint is not seen from the other. -/
theorem Frames.agrees {req' : Request} (h : f.Frames s t) (hf : f.Covers req s)
    (hg : g.Covers req' s) (hapart : f.Apart g) : g.Agrees s t := by
  refine ⟨hg.users, h.users.trans hg.users, fun b hb => ?_, hg.own, fun n hn => ?_,
    fun id hid => ?_⟩
  · by_cases hbf : b.id = f.target
    · have hprovider := hb.resolve_left fun hbg => hapart.target (hbf.symm.trans hbg)
      constructor
      · intro hmem
        exact absurd hprovider (hapart.providers _ (hf.own b hmem hbf))
      · intro hmem
        exact absurd hprovider (hapart.providers _ (h.own b hmem hbf))
    · exact (h.bookings b hbf).symm
  · refine (h.notifications fun hnf => hapart.target ?_).symm
    exact Option.some.inj (hnf.symm.trans hn)
  · constructor
    · intro ⟨n, hn, hnid⟩
      exact ⟨n, h.kept n hn, hnid⟩
    · intro ⟨n, hn, hnid⟩
      refine ⟨n, (h.added n hn).resolve_right fun hadded => ?_, hnid⟩
      exact hapart.ids id (hnid ▸ hadded.2) hid

end Footprint

/-- The same rows in the two tables that the requests write, and the same other tables. -/
structure SameRows (s t : Store) : Prop where
  users : s.users = t.users
  reviews : s.reviews = t.reviews
  bookings : s.bookings.Perm t.bookings
  notifications : s.notifications.Perm t.notifications

section Both
variable {f g : Footprint} {s s₁ s₂ s₁₂ s₂₁ : Store}

/-- Two ways round: `f` then `g`, and `g` then `f`. -/
theorem sameRows_of_frames (hne : f.target ≠ g.target) (h₁ : f.Frames s s₁)
    (h₂ : g.Frames s s₂) (h₁₂ : g.Frames s₁ s₁₂) (h₂₁ : f.Frames s₂ s₂₁)
    (hf : f.Agrees s₁ s₂₁) (hg : g.Agrees s₂ s₁₂) : SameRows s₁₂ s₂₁ := by
  have hbooking : ∀ b : Booking, b ∈ s₁₂.bookings ↔ b ∈ s₂₁.bookings := by
    intro b
    by_cases hbf : b.id = f.target
    · have hbg : b.id ≠ g.target := fun hbg => hne (hbf.symm.trans hbg)
      rw [h₁₂.bookings b hbg, hf.bookings b (.inl hbf)]
    · by_cases hbg : b.id = g.target
      · rw [h₂₁.bookings b hbf, hg.bookings b (.inl hbg)]
      · rw [h₁₂.bookings b hbg, h₁.bookings b hbf, h₂₁.bookings b hbf, h₂.bookings b hbg]
  have hnotification : ∀ n : Notification, n ∈ s₁₂.notifications ↔ n ∈ s₂₁.notifications := by
    intro n
    by_cases hnf : n.bookingId = some f.target
    · have hng : n.bookingId ≠ some g.target :=
        fun hng => hne (Option.some.inj (hnf.symm.trans hng))
      rw [h₁₂.notifications hng, hf.notifications n hnf]
    · by_cases hng : n.bookingId = some g.target
      · rw [h₂₁.notifications hnf, hg.notifications n hng]
      · rw [h₁₂.notifications hng, h₁.notifications hnf, h₂₁.notifications hnf,
          h₂.notifications hng]
  refine ⟨?_, ?_, ?_, ?_⟩
  · rw [h₁₂.users, h₁.users, h₂₁.users, h₂.users]
  · rw [h₁₂.reviews, h₁.reviews, h₂₁.reviews, h₂.reviews]
  · exact (List.perm_ext_iff_of_nodup (.of_map _ s₁₂.sound.bookingsKey)
      (.of_map _ s₂₁.sound.bookingsKey)).mpr hbooking
  · exact (List.perm_ext_iff_of_nodup (.of_map _ s₁₂.sound.notificationsKey)
      (.of_map _ s₂₁.sound.notificationsKey)).mpr hnotification

end Both

/-- Two requests on different bookings of different providers, whose notifications draw
different identifiers, end in either order as each does alone, and leave the same rows. -/
theorem different_providers_commute (s : Store) (amb amb' : Ambient) (user user' : User)
    (req req' : Request) {id id' : UUID} (htarget : req.target? amb = some id)
    (htarget' : req'.target? amb' = some id') (hbookings : id ≠ id')
    (hproviders : ∀ p ∈ req.providers id s, p ∉ req'.providers id' s)
    (hids : ∀ u ∈ s.users, ∀ v ∈ s.users, ∀ type type',
      amb.notificationId u.id (some id) type ≠ amb'.notificationId v.id (some id') type') :
    ∃ t t', t = leaves s (handle amb user req) ∧ t' = leaves s (handle amb' user' req') ∧
      outcome t (handle amb' user' req') = outcome s (handle amb' user' req') ∧
      outcome t' (handle amb user req) = outcome s (handle amb user req) ∧
      SameRows (leaves t (handle amb' user' req')) (leaves t' (handle amb user req)) := by
  have hf := Footprint.covers_of_target amb htarget (s := s)
  have hg := Footprint.covers_of_target amb' htarget' (s := s)
  have hapart : Footprint.Apart ⟨s.users, id, req.providers id s, amb⟩
      ⟨s.users, id', req'.providers id' s, amb'⟩ := by
    refine ⟨rfl, hbookings, hproviders, ?_⟩
    rintro _ ⟨u, hu, type, rfl⟩ ⟨v, hv, type', hsame⟩
    exact hids u hu v hv type type' hsame.symm
  have hframes := hf.frames user
  have hframes' := hg.frames user'
  have hagree := hframes.agrees hf hg hapart
  have hagree' := hframes'.agrees hg hf hapart.symm
  obtain ⟨hsame, hrest⟩ := hg.local_handle user' _ _ (Session.related_fresh hagree)
  obtain ⟨hsame', hrest'⟩ := hf.local_handle user _ _ (Session.related_fresh hagree')
  refine ⟨_, _, rfl, rfl, hsame.symm, hsame'.symm, ?_⟩
  exact sameRows_of_frames hbookings hframes hframes' ((hg.of_agrees hagree).frames user')
    ((hf.of_agrees hagree').frames user) hrest'.1 hrest.1

section Example

theorem NotificationType.code_lt (type : NotificationType) : type.code < 6 := by
  cases type <;> decide

theorem sample_ids : ∀ u ∈ newPlatform.users, ∀ v ∈ newPlatform.users,
    ∀ type type' : NotificationType,
      (sampleAmbient 0 10).notificationId u.id (some 10) type ≠
        (sampleAmbient 0 11).notificationId v.id (some 11) type' := by
  have hcodes : ∀ u ∈ newPlatform.users, ∀ v ∈ newPlatform.users, ∀ c < 6, ∀ c' < 6,
      BitVec.ofNat 128 (((10 : UUID).toNat * 100 + u.id.toNat) * 10 + c) ≠
        BitVec.ofNat 128 (((11 : UUID).toNat * 100 + v.id.toNat) * 10 + c') := by decide +kernel
  intro u hu v hv type type'
  exact hcodes u hu v hv type.code type.code_lt type'.code type'.code_lt

theorem second_hour : hour < 2 * hour := by decide

def paulasHour : Request := .createBooking (slotOf hour (2 * hour) second_hour)

def quinnsHour : Request :=
  .createBooking { slotOf hour (2 * hour) second_hour with providerId := quinn.id }

/-- Alice books the same hour with Paula and with Quinn, in either order. -/
theorem different_providers_commute_alice :
    ∃ t t', t = leaves newPlatform (handle (sampleAmbient 0 10) alice paulasHour) ∧
      t' = leaves newPlatform (handle (sampleAmbient 0 11) alice quinnsHour) ∧
      SameRows (leaves t (handle (sampleAmbient 0 11) alice quinnsHour))
        (leaves t' (handle (sampleAmbient 0 10) alice paulasHour)) := by
  have htarget : paulasHour.target? (sampleAmbient 0 10) = some 10 := rfl
  have htarget' : quinnsHour.target? (sampleAmbient 0 11) = some 11 := rfl
  have hproviders : ∀ p ∈ paulasHour.providers 10 newPlatform,
      p ∉ quinnsHour.providers 11 newPlatform := by
    have hpaula : paulasHour.providers 10 newPlatform = [paula.id] := rfl
    have hquinn : quinnsHour.providers 11 newPlatform = [quinn.id] := rfl
    rw [hpaula, hquinn]
    simp [paula, quinn]
  obtain ⟨t, t', ht, ht', _, _, hrows⟩ := different_providers_commute newPlatform
    (sampleAmbient 0 10) (sampleAmbient 0 11) alice alice paulasHour quinnsHour htarget htarget'
    (by decide) hproviders sample_ids
  exact ⟨t, t', ht, ht', hrows⟩

end Example

end BookingPlatform
