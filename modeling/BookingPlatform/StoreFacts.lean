import BookingPlatform.Statements
import BookingPlatform.Transact.Rules
import Mathlib.Data.List.Pairwise

/-!
# Reading and writing the store

What a look-up finds, and what the tables are after a transaction that went through.
Later modules use these facts and never unfold a statement.
-/

namespace BookingPlatform

set_option autoImplicit false

open Transact

/-- A look-up by a unique key finds exactly the row with that key. -/
theorem find?_key {α κ : Type} [DecidableEq κ] {key : α → κ} {rows : List α}
    (h : (rows.map key).Nodup) {k : κ} {a : α} :
    rows.find? (fun r => key r = k) = some a ↔ a ∈ rows ∧ key a = k := by
  constructor
  · intro ha
    exact ⟨List.mem_of_find?_eq_some ha, by simpa using List.find?_some ha⟩
  · rintro ⟨ha, rfl⟩
    cases hf : rows.find? (fun r => key r = key a) with
    | none => exact absurd (List.find?_eq_none.mp hf a ha) (by simp)
    | some b =>
      have hb := List.mem_of_find?_eq_some hf
      have hk : key b = key a := by simpa using List.find?_some hf
      rw [List.inj_on_of_nodup_map h hb ha hk]

theorem find?_key_none {α κ : Type} [DecidableEq κ] {key : α → κ} {rows : List α} {k : κ} :
    rows.find? (fun r => key r = k) = none ↔ ∀ a ∈ rows, key a ≠ k := by
  simp [List.find?_eq_none]

theorem Store.eq_of_toTables {s t : Store} (h : s.toTables = t.toTables) : s = t := by
  cases s
  cases t
  cases h
  rfl

namespace Store
variable (s : Store)

theorem user?_eq_some {id : UUID} {u : User} :
    s.user? id = some u ↔ u ∈ s.users ∧ u.id = id := find?_key s.sound.usersKey

theorem booking?_eq_some {id : UUID} {b : Booking} :
    s.booking? id = some b ↔ b ∈ s.bookings ∧ b.id = id := find?_key s.sound.bookingsKey

theorem booking?_eq_none {id : UUID} : s.booking? id = none ↔ ∀ b ∈ s.bookings, b.id ≠ id :=
  find?_key_none

theorem review?_eq_some {id : UUID} {r : Review} :
    s.review? id = some r ↔ r ∈ s.reviews ∧ r.id = id := find?_key s.sound.reviewsKey

theorem notification?_eq_some {id : UUID} {n : Notification} :
    s.notification? id = some n ↔ n ∈ s.notifications ∧ n.id = id :=
  find?_key s.sound.notificationsKey

theorem booking_unique {a b : Booking} (ha : a ∈ s.bookings) (hb : b ∈ s.bookings)
    (h : a.id = b.id) : a = b := List.inj_on_of_nodup_map s.sound.bookingsKey ha hb h

theorem user_unique {u v : User} (hu : u ∈ s.users) (hv : v ∈ s.users) (h : u.id = v.id) :
    u = v := List.inj_on_of_nodup_map s.sound.usersKey hu hv h

end Store

theorem conflict_eq_none {t : Tables} {p : UUID} {st en : Time} {x : Option UUID} :
    t.answer (.conflict p st en x) = none ↔ ∀ b ∈ t.bookings, ¬ b.conflictsWith p st en x := by
  change Option.map Booking.id _ = none ↔ _
  simp [List.find?_eq_none]

theorem Store.notification_unique {s : Store} {m n : Notification} (hm : m ∈ s.notifications)
    (hn : n ∈ s.notifications) (h : m.SameKey n) : m = n := by
  by_contra hne
  have : Std.Symm fun a b : Notification => ¬ a.SameKey b :=
    ⟨fun a b hab ⟨h₁, h₂, h₃, h₄⟩ => hab ⟨h₁.symm, h₂.symm, h₂ ▸ h₃, h₄.symm⟩⟩
  exact s.sound.uqNotificationsUserBookingType.forall hm hn hne h

section Transactions

theorem Store.apply_ok {w : Write} {s t : Store} {r : w.Result}
    (h : s.apply w = .ok (r, t)) : t.toTables = s.after w ∧ r = s.result w := by
  unfold Store.apply at h
  split at h
  · cases h
  · split at h
    · cases h
      exact ⟨rfl, rfl⟩
    · cases h

/-- The tables after the statements of a transaction. -/
def Tables.afterAll (t : Tables) (ws : List Write) : Tables := ws.foldl Tables.after t

@[simp] theorem Tables.afterAll_nil (t : Tables) : t.afterAll [] = t := rfl

@[simp] theorem Tables.afterAll_cons (t : Tables) (w : Write) (ws : List Write) :
    t.afterAll (w :: ws) = (t.after w).afterAll ws := rfl

theorem Tables.afterAll_append (t : Tables) (us ws : List Write) :
    t.afterAll (us ++ ws) = (t.afterAll us).afterAll ws := List.foldl_append

theorem tables_of_applyAll {ws : List Write} {s t : Store}
    (h : platform.applyAll ws s = .ok t) : t.toTables = s.afterAll ws := by
  induction ws generalizing s with
  | nil => rw [← Except.ok.inj h, Tables.afterAll_nil]
  | cons w ws ih =>
    simp only [Database.applyAll] at h
    split at h
    · rename_i r u heq
      rw [ih h, Tables.afterAll_cons, (Store.apply_ok heq).1]
    · cases h

/-- A single statement whose row is not stale is refused for a constraint it would break. -/
theorem broken_of_refused {w : Write} {s : Store} {e : Error} (hrow : s.stale w = false)
    (h : platform.applyAll [w] s = .error e) :
    e = .integrityError ∧ ¬ Constraints (s.after w) := by
  have happ : s.apply w = .error e := by
    simp only [Database.applyAll] at h
    split at h
    · cases h
    · rename_i heq
      rw [heq, Except.error.inj h]
  unfold Store.apply at happ
  rw [if_neg (by simp [hrow])] at happ
  by_cases hsound : Constraints (s.after w)
  · rw [dif_pos hsound] at happ
    cases happ
  · rw [dif_neg hsound] at happ
    exact ⟨(Except.error.inj happ).symm, hsound⟩

/-- The rows of a transaction that only inserts notifications. -/
def inserts (notes : List Notification) : List Write := notes.map .insertNotification

@[simp] theorem inserts_nil : inserts [] = [] := rfl

@[simp] theorem inserts_cons (n : Notification) (notes : List Notification) :
    inserts (n :: notes) = .insertNotification n :: inserts notes := rfl

theorem inserts_append (m n : List Notification) :
    inserts (m ++ n) = inserts m ++ inserts n := List.map_append

def addNotifications (rows notes : List Notification) : List Notification :=
  notes.foldl Tables.addNotification rows

theorem Tables.afterAll_inserts (t : Tables) (notes : List Notification) :
    t.afterAll (inserts notes) =
      { t with notifications := addNotifications t.notifications notes } := by
  induction notes generalizing t with
  | nil => rfl
  | cons n notes ih =>
    rw [inserts_cons, Tables.afterAll_cons, ih]
    rfl

/-- Pending notification inserts do not change what a query about anything else sees. -/
theorem view_inserts (s : Store) (notes : List Notification) :
    (platform.view (inserts notes) s).users = s.users ∧
      (platform.view (inserts notes) s).bookings = s.bookings ∧
      (platform.view (inserts notes) s).reviews = s.reviews := by
  induction notes generalizing s with
  | nil => exact ⟨rfl, rfl, rfl⟩
  | cons n notes ih =>
    simp only [inserts_cons, Database.view]
    split
    · rename_i r t heq
      obtain ⟨h₁, h₂, h₃⟩ := ih t
      have ht := (Store.apply_ok heq).1
      rw [h₁, h₂, h₃, ht]
      exact ⟨rfl, rfl, rfl⟩
    · exact ih s

end Transactions

section Rows

theorem changed_getD {α : Type} [DecidableEq α] (a b : α) : (changed a b).getD a = b := by
  unfold changed
  split
  · rename_i h
    rw [h, Option.getD_none]
  · rfl

theorem Booking.patch_changes {b b' : Booking} (hid : b'.id = b.id)
    (hc : b'.customerId = b.customerId) (hp : b'.providerId = b.providerId) :
    b.patch (b.changes b') = b' := by
  cases b
  cases b'
  simp only at hid hc hp
  subst hid hc hp
  simp only [Booking.patch, Booking.changes, changed_getD]

@[simp] theorem Booking.patch_id (b : Booking) (c : BookingChanges) : (b.patch c).id = b.id := rfl

@[simp] theorem Booking.patch_customerId (b : Booking) (c : BookingChanges) :
    (b.patch c).customerId = b.customerId := rfl

@[simp] theorem Booking.patch_providerId (b : Booking) (c : BookingChanges) :
    (b.patch c).providerId = b.providerId := rfl

/-- Which notifications are there after an insert that gives way to its key. -/
theorem mem_addNotification {rows : List Notification} {m n : Notification} :
    m ∈ Tables.addNotification rows n ↔
      m ∈ rows ∨ (m = n ∧ ¬ ∃ k ∈ rows, k.SameKey n) := by
  unfold Tables.addNotification
  split
  · rename_i h
    simp [h]
  · rename_i h
    simp [h]

theorem mem_addNotifications_left {rows notes : List Notification} {n : Notification}
    (hn : n ∈ rows) : n ∈ addNotifications rows notes := by
  induction notes generalizing rows with
  | nil => exact hn
  | cons m notes ih => exact ih (mem_addNotification.mpr (.inl hn))

end Rows

end BookingPlatform
