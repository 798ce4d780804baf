import BookingPlatform.Migrations
import BookingPlatform.Schema
import Mathlib.Data.Set.List

/-!
# The rows at the head

What the migrations declare at the last revision is what a `Store` carries: a database at the
head is valid exactly when its rows are those of tables on which `Constraints` holds and whose
texts are not too long for their columns. The mapped classes, which declare their tables a second
time, demand the same of the rows.
-/

namespace BookingPlatform

set_option autoImplicit false

open Sql

section Encoding

def UserRole.value : UserRole → String
  | .admin => "admin"
  | .provider => "provider"
  | .customer => "customer"

def NotificationType.value : NotificationType → String
  | .bookingCreated => "booking_created"
  | .bookingConfirmed => "booking_confirmed"
  | .bookingCancelled => "booking_cancelled"
  | .bookingReminder => "booking_reminder"
  | .bookingCompleted => "booking_completed"
  | .bookingOverdue => "booking_overdue"

def nullOr {α : Type} (f : α → Value) : Option α → Value
  | none => .null
  | some a => f a

/-- A row with its `created_at` and `updated_at`. -/
def User.row (u : User) (createdAt updatedAt : Time) : Row := Row.of [
  ("id", .uuid u.id), ("name", .text u.name), ("email", .text u.email),
  ("role", .label u.role.value), ("created_at", .timestamp createdAt),
  ("updated_at", .timestamp updatedAt), ("password_hash", .text u.passwordHash)]

def Booking.row (b : Booking) (createdAt updatedAt : Time) : Row := Row.of [
  ("id", .uuid b.id), ("customer_id", .uuid b.customerId), ("provider_id", .uuid b.providerId),
  ("service_name", .text b.serviceName), ("start_time", .timestamp b.startTime),
  ("end_time", .timestamp b.endTime), ("status", .label b.status.value),
  ("created_at", .timestamp createdAt), ("updated_at", .timestamp updatedAt)]

def Review.row (r : Review) (updatedAt : Time) : Row := Row.of [
  ("id", .uuid r.id), ("booking_id", .uuid r.bookingId), ("customer_id", .uuid r.customerId),
  ("provider_id", .uuid r.providerId), ("rating", .integer r.rating),
  ("comment", nullOr .text r.comment), ("created_at", .timestamp r.createdAt),
  ("updated_at", .timestamp updatedAt)]

def Notification.row (n : Notification) : Row := Row.of [
  ("id", .uuid n.id), ("user_id", .uuid n.userId), ("booking_id", nullOr .uuid n.bookingId),
  ("type", .label n.type.value), ("title", .text n.title), ("message", .text n.message),
  ("is_read", .boolean n.isRead), ("created_at", .timestamp n.createdAt),
  ("read_at", nullOr .timestamp n.readAt)]

/-- Tables, and the times of their rows that the model of the services leaves out. -/
structure Stamped where
  users : List (User × Time × Time)
  bookings : List (Booking × Time × Time)
  reviews : List (Review × Time)
  notifications : List Notification

def Stamped.tables (t : Stamped) : Tables where
  users := t.users.map Prod.fst
  bookings := t.bookings.map Prod.fst
  reviews := t.reviews.map Prod.fst
  notifications := t.notifications

/-- Every row made at the epoch. -/
def Tables.atEpoch (t : Tables) : Stamped where
  users := t.users.map fun u => (u, 0, 0)
  bookings := t.bookings.map fun b => (b, 0, 0)
  reviews := t.reviews.map fun r => (r, 0)
  notifications := t.notifications

theorem tables_atEpoch (t : Tables) : t.atEpoch.tables = t := by
  simp [Stamped.tables, Tables.atEpoch, Function.comp_def]

def Stamped.database (t : Stamped) : Database :=
  headDatabase (t.users.map fun p => p.1.row p.2.1 p.2.2)
    (t.bookings.map fun p => p.1.row p.2.1 p.2.2) (t.reviews.map fun p => p.1.row p.2)
    (t.notifications.map Notification.row)

/-- No text is longer than its column. -/
structure Tables.FitColumns (t : Tables) : Prop where
  users : ∀ u ∈ t.users, u.name.length ≤ 255 ∧ u.email.length ≤ 255 ∧ u.passwordHash.length ≤ 255
  bookings : ∀ b ∈ t.bookings, b.serviceName.length ≤ 255
  notifications : ∀ n ∈ t.notifications, n.title.length ≤ 255

end Encoding

section Decoding
variable {r : Row}

/-- The values of a type, by what they are made of. -/
def ColumnValue (v : Value) : ColumnType → Prop
  | .uuid => ∃ id, v = .uuid id
  | .string length => ∃ s, v = .text s ∧ s.length ≤ length
  | .text => ∃ s, v = .text s
  | .enum _ labels => ∃ l ∈ labels, v = .label l
  | .integer => ∃ i, v = .integer i ∧ -2147483648 ≤ i ∧ i ≤ 2147483647
  | .boolean => ∃ b, v = .boolean b
  | .timestamptz => ∃ t, v = .timestamp t

theorem admits_iff (type : ColumnType) (v : Value) :
    type.admits v = true ↔ ColumnValue v type := by
  cases type <;> cases v <;> simp [ColumnType.admits, ColumnValue]

theorem admits_uuid {v : Value} : ColumnType.uuid.admits v = true ↔ ∃ id, v = .uuid id :=
  admits_iff .uuid v

theorem admits_string {v : Value} {length : Nat} :
    (ColumnType.string length).admits v = true ↔ ∃ s, v = .text s ∧ s.length ≤ length :=
  admits_iff (.string length) v

theorem admits_text {v : Value} : ColumnType.text.admits v = true ↔ ∃ s, v = .text s :=
  admits_iff .text v

theorem admits_enum {v : Value} {name : String} {labels : List String} :
    (ColumnType.enum name labels).admits v = true ↔ ∃ l ∈ labels, v = .label l :=
  admits_iff (.enum name labels) v

theorem admits_integer {v : Value} : ColumnType.integer.admits v = true ↔
    ∃ i, v = .integer i ∧ -2147483648 ≤ i ∧ i ≤ 2147483647 :=
  admits_iff .integer v

theorem admits_boolean {v : Value} : ColumnType.boolean.admits v = true ↔ ∃ b, v = .boolean b :=
  admits_iff .boolean v

theorem admits_timestamptz {v : Value} :
    ColumnType.timestamptz.admits v = true ↔ ∃ t, v = .timestamp t :=
  admits_iff .timestamptz v

theorem admits_userRole {v : Value} :
    userRole.admits v = true ↔ ∃ role : UserRole, v = .label role.value := by
  refine admits_enum.trans ⟨?_, ?_⟩
  · rintro ⟨l, hl, rfl⟩
    simp only [List.mem_cons, List.not_mem_nil, or_false] at hl
    rcases hl with rfl | rfl | rfl
    · exact ⟨.admin, rfl⟩
    · exact ⟨.provider, rfl⟩
    · exact ⟨.customer, rfl⟩
  · rintro ⟨role, rfl⟩
    refine ⟨_, ?_, rfl⟩
    cases role <;> decide

theorem admits_bookingStatus {v : Value} :
    bookingStatus.admits v = true ↔ ∃ status : BookingStatus, v = .label status.value := by
  refine admits_enum.trans ⟨?_, ?_⟩
  · rintro ⟨l, hl, rfl⟩
    simp only [List.mem_cons, List.not_mem_nil, or_false] at hl
    rcases hl with rfl | rfl | rfl | rfl
    · exact ⟨.pending, rfl⟩
    · exact ⟨.confirmed, rfl⟩
    · exact ⟨.completed, rfl⟩
    · exact ⟨.cancelled, rfl⟩
  · rintro ⟨status, rfl⟩
    refine ⟨_, ?_, rfl⟩
    cases status <;> decide

theorem admits_notificationType {v : Value} :
    notificationType.admits v = true ↔ ∃ type : NotificationType, v = .label type.value := by
  refine admits_enum.trans ⟨?_, ?_⟩
  · rintro ⟨l, hl, rfl⟩
    simp only [List.mem_cons, List.not_mem_nil, or_false] at hl
    rcases hl with rfl | rfl | rfl | rfl | rfl | rfl
    · exact ⟨.bookingCreated, rfl⟩
    · exact ⟨.bookingConfirmed, rfl⟩
    · exact ⟨.bookingCancelled, rfl⟩
    · exact ⟨.bookingReminder, rfl⟩
    · exact ⟨.bookingCompleted, rfl⟩
    · exact ⟨.bookingOverdue, rfl⟩
  · rintro ⟨type, rfl⟩
    refine ⟨_, ?_, rfl⟩
    cases type <;> decide

theorem nullOr_iff {α : Type} {f : α → Value} {v : Value} :
    (v = .null ∨ ∃ a, v = f a) ↔ ∃ a : Option α, v = nullOr f a := by
  constructor
  · rintro (rfl | ⟨a, rfl⟩)
    · exact ⟨none, rfl⟩
    · exact ⟨some a, rfl⟩
  · rintro ⟨a, rfl⟩
    cases a with
    | none => exact .inl rfl
    | some a => exact .inr ⟨a, rfl⟩

theorem user_fills {u : User} {createdAt updatedAt : Time} :
    (u.row createdAt updatedAt).Fills usersWithHash ↔
      u.name.length ≤ 255 ∧ u.email.length ≤ 255 ∧ u.passwordHash.length ≤ 255 := by
  refine (Row.fills_of rfl).trans ?_
  simp [usersWithHash, usersTable, passwordHash, column, admits_uuid, admits_string,
    admits_userRole, admits_timestamptz]

theorem booking_fills {b : Booking} {createdAt updatedAt : Time} :
    (b.row createdAt updatedAt).Fills bookingsTable ↔ b.serviceName.length ≤ 255 := by
  refine (Row.fills_of rfl).trans ?_
  simp [bookingsTable, column, admits_uuid, admits_string, admits_bookingStatus,
    admits_timestamptz]

theorem review_fills {x : Review} {updatedAt : Time} :
    (x.row updatedAt).Fills reviewsTable ↔ -2147483648 ≤ x.rating ∧ x.rating ≤ 2147483647 := by
  refine (Row.fills_of rfl).trans ?_
  simp [reviewsTable, column, nullableColumn, admits_uuid, admits_text, admits_integer,
    admits_timestamptz, nullOr_iff]

theorem notification_fills {n : Notification} :
    n.row.Fills notificationsTable ↔ n.title.length ≤ 255 := by
  refine (Row.fills_of rfl).trans ?_
  simp [notificationsTable, column, nullableColumn, admits_uuid, admits_string, admits_text,
    admits_boolean, admits_notificationType, admits_timestamptz, nullOr_iff]

/-! Conversely, a row that fills the columns of a table is the row of something. -/

theorem user_of_fills (h : r.Fills usersWithHash) :
    ∃ p : User × Time × Time, r = p.1.row p.2.1 p.2.2 := by
  have typed := h.typed
  simp only [usersWithHash, usersTable, passwordHash, column, List.cons_append, List.nil_append,
    List.forall_mem_cons, List.not_mem_nil, IsEmpty.forall_iff, implies_true, admits_uuid,
    admits_string, admits_userRole, admits_timestamptz, Bool.false_eq_true, and_false, false_or,
    and_true] at typed
  obtain ⟨⟨id, hid⟩, ⟨name, hname, _⟩, ⟨email, hemail, _⟩, ⟨role, hrole⟩,
    ⟨createdAt, hcreated⟩, ⟨updatedAt, hupdated⟩, ⟨hash, hhash, _⟩⟩ := typed
  refine ⟨(⟨id, name, email, role, hash⟩, createdAt, updatedAt), h.eq rfl ?_⟩
  simp only [List.forall_mem_cons, List.not_mem_nil, IsEmpty.forall_iff, implies_true, and_true]
  exact ⟨hid, hname, hemail, hrole, hcreated, hupdated, hhash⟩

theorem booking_of_fills (h : r.Fills bookingsTable) :
    ∃ p : Booking × Time × Time, r = p.1.row p.2.1 p.2.2 := by
  have typed := h.typed
  simp only [bookingsTable, column, List.forall_mem_cons, List.not_mem_nil, IsEmpty.forall_iff,
    implies_true, admits_uuid, admits_string, admits_bookingStatus, admits_timestamptz,
    Bool.false_eq_true, and_false, false_or, and_true] at typed
  obtain ⟨⟨id, hid⟩, ⟨customer, hcustomer⟩, ⟨provider, hprovider⟩, ⟨name, hname, _⟩,
    ⟨start, hstart⟩, ⟨stop, hstop⟩, ⟨status, hstatus⟩, ⟨createdAt, hcreated⟩,
    ⟨updatedAt, hupdated⟩⟩ := typed
  refine ⟨(⟨id, customer, provider, name, start, stop, status⟩, createdAt, updatedAt),
    h.eq rfl ?_⟩
  simp only [List.forall_mem_cons, List.not_mem_nil, IsEmpty.forall_iff, implies_true, and_true]
  exact ⟨hid, hcustomer, hprovider, hname, hstart, hstop, hstatus, hcreated, hupdated⟩

theorem review_of_fills (h : r.Fills reviewsTable) :
    ∃ p : Review × Time, r = p.1.row p.2 := by
  have typed := h.typed
  simp only [reviewsTable, column, nullableColumn, List.forall_mem_cons, List.not_mem_nil,
    IsEmpty.forall_iff, implies_true, admits_uuid, admits_text, admits_integer,
    admits_timestamptz, Bool.false_eq_true, and_false, false_or, and_true, nullOr_iff] at typed
  obtain ⟨⟨id, hid⟩, ⟨booking, hbooking⟩, ⟨customer, hcustomer⟩, ⟨provider, hprovider⟩,
    ⟨rating, hrating, _⟩, ⟨comment, hcomment⟩, ⟨createdAt, hcreated⟩,
    ⟨updatedAt, hupdated⟩⟩ := typed
  refine ⟨(⟨id, booking, customer, provider, rating, comment, createdAt⟩, updatedAt),
    h.eq rfl ?_⟩
  simp only [List.forall_mem_cons, List.not_mem_nil, IsEmpty.forall_iff, implies_true, and_true]
  exact ⟨hid, hbooking, hcustomer, hprovider, hrating, hcomment, hcreated, hupdated⟩

theorem notification_of_fills (h : r.Fills notificationsTable) :
    ∃ n : Notification, r = n.row := by
  have typed := h.typed
  simp only [notificationsTable, column, nullableColumn, List.forall_mem_cons, List.not_mem_nil,
    IsEmpty.forall_iff, implies_true, admits_uuid, admits_string, admits_text, admits_boolean,
    admits_notificationType, admits_timestamptz, Bool.false_eq_true, and_false, false_or,
    and_true, nullOr_iff] at typed
  obtain ⟨⟨id, hid⟩, ⟨user, huser⟩, ⟨booking, hbooking⟩, ⟨type, htype⟩, ⟨title, htitle, _⟩,
    ⟨message, hmessage⟩, ⟨isRead, hread⟩, ⟨createdAt, hcreated⟩, ⟨readAt, hreadAt⟩⟩ := typed
  refine ⟨⟨id, user, booking, type, title, message, isRead, createdAt, readAt⟩, h.eq rfl ?_⟩
  simp only [List.forall_mem_cons, List.not_mem_nil, IsEmpty.forall_iff, implies_true, and_true]
  exact ⟨hid, huser, hbooking, htype, htitle, hmessage, hread, hcreated, hreadAt⟩

end Decoding

section Sound
variable {t : Stamped}

/-- Keys of rows as keys of what they are the rows of. -/
theorem distinct_rows {α κ : Type} {xs : List α} {row : α → Row} {columns : List String}
    {key : α → κ} {values : κ → List Value}
    (hkey : ∀ x, (row x).key columns = some (values (key x)))
    (hinj : Function.Injective values) :
    Distinct columns (xs.map row) ↔ (xs.map key).Nodup := by
  unfold Distinct List.Nodup
  rw [List.pairwise_map, List.pairwise_map]
  simp only [hkey, Option.some_ne_none, false_or, ne_eq, Option.some.injEq, hinj.eq_iff]

theorem values_uuid : Function.Injective fun id : UUID => [Value.uuid id] := by
  intro a b h
  simpa using h

theorem values_text : Function.Injective fun s : String => [Value.text s] := by
  intro a b h
  simpa using h

/-- The unique constraint on the address and the unique index say the same. -/
theorem sound_users : Table.Sound ⟨usersWithHash, usersIndexes,
      t.users.map fun p => p.1.row p.2.1 p.2.2⟩ ↔
    (∀ u ∈ t.tables.users, u.name.length ≤ 255 ∧ u.email.length ≤ 255 ∧
      u.passwordHash.length ≤ 255) ∧
    (t.tables.users.map User.id).Nodup ∧ (t.tables.users.map User.email).Nodup := by
  have hfills : (∀ r ∈ t.users.map fun p => p.1.row p.2.1 p.2.2, r.Fills usersWithHash) ↔
      ∀ u ∈ t.tables.users, u.name.length ≤ 255 ∧ u.email.length ≤ 255 ∧
        u.passwordHash.length ≤ 255 := by
    simp only [Stamped.tables, List.forall_mem_map, user_fills]
  have hids : Distinct ["id"] (t.users.map fun p => p.1.row p.2.1 p.2.2) ↔
      (t.users.map fun p => p.1.id).Nodup := distinct_rows (fun _ => rfl) values_uuid
  have hemails : Distinct ["email"] (t.users.map fun p => p.1.row p.2.1 p.2.2) ↔
      (t.users.map fun p => p.1.email).Nodup := distinct_rows (fun _ => rfl) values_text
  rw [Table.sound_iff, hfills]
  simp [usersWithHash, usersTable, usersIndexes, hids, hemails, Stamped.tables, Function.comp_def]

theorem check_times {b : Booking} {createdAt updatedAt : Time} :
    Condition.eval (b.row createdAt updatedAt)
      (.compare .gt (.column "end_time") (.column "start_time")) = some false ↔
    ¬ b.startTime < b.endTime := by
  simp [Condition.eval, Operand.value, Booking.row, Comparison.holds,
    Value.rank]

theorem check_parties {b : Booking} {createdAt updatedAt : Time} :
    Condition.eval (b.row createdAt updatedAt)
      (.compare .ne (.column "customer_id") (.column "provider_id")) = some false ↔
    b.customerId = b.providerId := by
  simp [Condition.eval, Operand.value, Booking.row, Comparison.holds]

theorem check_rating {x : Review} {updatedAt : Time} :
    Condition.eval (x.row updatedAt) (.and (.compare .ge (.column "rating") (.literal 1))
      (.compare .le (.column "rating") (.literal 5))) = some false ↔
    ¬ (1 ≤ x.rating ∧ x.rating ≤ 5) := by
  simp [Condition.eval, Operand.value, Review.row, Comparison.holds,
    Value.rank]

theorem sound_bookings : Table.Sound ⟨bookingsTable, bookingsIndexes,
      t.bookings.map fun p => p.1.row p.2.1 p.2.2⟩ ↔
    (∀ b ∈ t.tables.bookings, b.serviceName.length ≤ 255) ∧
    (t.tables.bookings.map Booking.id).Nodup ∧
    (∀ b ∈ t.tables.bookings, b.startTime < b.endTime) ∧
    ∀ b ∈ t.tables.bookings, b.customerId ≠ b.providerId := by
  have hfills : (∀ r ∈ t.bookings.map fun p => p.1.row p.2.1 p.2.2, r.Fills bookingsTable) ↔
      ∀ b ∈ t.tables.bookings, b.serviceName.length ≤ 255 := by
    simp only [Stamped.tables, List.forall_mem_map, booking_fills]
  have hchecks : (∀ c ∈ bookingsTable.checks, ∀ r ∈ t.bookings.map fun p =>
      p.1.row p.2.1 p.2.2, c.condition.eval r ≠ some false) ↔
      (∀ b ∈ t.tables.bookings, b.startTime < b.endTime) ∧
        ∀ b ∈ t.tables.bookings, b.customerId ≠ b.providerId := by
    simp only [bookingsTable, Stamped.tables, List.forall_mem_cons, List.forall_mem_map, ne_eq,
      check_times, check_parties, not_not, List.not_mem_nil, IsEmpty.forall_iff, implies_true,
      and_true]
  have hids : Distinct ["id"] (t.bookings.map fun p => p.1.row p.2.1 p.2.2) ↔
      (t.tables.bookings.map Booking.id).Nodup := by
    rw [Stamped.tables, List.map_map]
    exact distinct_rows (fun _ => rfl) values_uuid
  rw [Table.sound_iff, hfills, hchecks]
  simp only [bookingsTable, bookingsIndexes, Option.mem_def, Option.some.injEq, forall_eq', hids,
    List.forall_mem_cons, List.not_mem_nil, IsEmpty.forall_iff, implies_true, Bool.false_eq_true,
    true_and]

/-- The range of a rating is narrower than what its column holds. -/
theorem sound_reviews : Table.Sound ⟨reviewsTable, reviewsIndexes,
      t.reviews.map fun p => p.1.row p.2⟩ ↔
    (t.tables.reviews.map Review.id).Nodup ∧ (t.tables.reviews.map Review.bookingId).Nodup ∧
    ∀ x ∈ t.tables.reviews, 1 ≤ x.rating ∧ x.rating ≤ 5 := by
  have hchecks : (∀ c ∈ reviewsTable.checks, ∀ r ∈ t.reviews.map fun p => p.1.row p.2,
      c.condition.eval r ≠ some false) ↔
      ∀ x ∈ t.tables.reviews, 1 ≤ x.rating ∧ x.rating ≤ 5 := by
    simp only [reviewsTable, Stamped.tables, List.forall_mem_cons, List.forall_mem_map, ne_eq,
      check_rating, not_not, List.not_mem_nil, IsEmpty.forall_iff, implies_true, and_true]
  have hids : Distinct ["id"] (t.reviews.map fun p => p.1.row p.2) ↔
      (t.tables.reviews.map Review.id).Nodup := by
    rw [Stamped.tables, List.map_map]
    exact distinct_rows (fun _ => rfl) values_uuid
  have hbookings : Distinct ["booking_id"] (t.reviews.map fun p => p.1.row p.2) ↔
      (t.tables.reviews.map Review.bookingId).Nodup := by
    rw [Stamped.tables, List.map_map]
    exact distinct_rows (fun _ => rfl) values_uuid
  have hfills : (∀ x ∈ t.tables.reviews, 1 ≤ x.rating ∧ x.rating ≤ 5) →
      ∀ r ∈ t.reviews.map fun p => p.1.row p.2, r.Fills reviewsTable := by
    intro h r hr
    obtain ⟨p, hp, rfl⟩ := List.mem_map.mp hr
    have hrange := h p.1 (List.mem_map_of_mem hp)
    exact review_fills.mpr (by omega)
  rw [Table.sound_iff, hchecks]
  simp only [show reviewsTable.primaryKey = some ["id"] from rfl,
    show reviewsTable.uniques = [⟨none, ["booking_id"]⟩] from rfl, reviewsIndexes, Option.mem_def,
    Option.some.injEq, forall_eq', hids, hbookings, List.forall_mem_cons, List.not_mem_nil,
    IsEmpty.forall_iff, implies_true, Bool.false_eq_true, and_true]
  constructor
  · rintro ⟨_, hkey, hunique, _, hrange⟩
    exact ⟨hkey, hunique, hrange⟩
  · rintro ⟨hkey, hunique, hrange⟩
    exact ⟨hfills hrange, hkey, hunique, fun _ => hunique, hrange⟩

theorem NotificationType.value_injective : Function.Injective NotificationType.value := by
  intro a b h
  cases a <;> cases b <;> simp [NotificationType.value] at h ⊢

theorem sameKey_row {m n : Notification} :
    (m.row.key ["user_id", "booking_id", "type"] = none ∨
      m.row.key ["user_id", "booking_id", "type"] ≠ n.row.key ["user_id", "booking_id", "type"]) ↔
    ¬ m.SameKey n := by
  unfold Notification.SameKey
  cases hm : m.bookingId <;> cases hn : n.bookingId <;>
    simp [Row.key, Notification.row, hm, hn, nullOr,
      NotificationType.value_injective.eq_iff]

theorem sound_notifications : Table.Sound ⟨notificationsTable, notificationsIndexes,
      t.notifications.map Notification.row⟩ ↔
    (∀ n ∈ t.tables.notifications, n.title.length ≤ 255) ∧
    (t.tables.notifications.map Notification.id).Nodup ∧
    t.tables.notifications.Pairwise fun m n => ¬ m.SameKey n := by
  have hfills : (∀ r ∈ t.notifications.map Notification.row, r.Fills notificationsTable) ↔
      ∀ n ∈ t.tables.notifications, n.title.length ≤ 255 := by
    simp only [Stamped.tables, List.forall_mem_map, notification_fills]
  have hids : Distinct ["id"] (t.notifications.map Notification.row) ↔
      (t.tables.notifications.map Notification.id).Nodup :=
    distinct_rows (fun _ => rfl) values_uuid
  have hkeys : Distinct ["user_id", "booking_id", "type"] (t.notifications.map Notification.row) ↔
      t.tables.notifications.Pairwise fun m n => ¬ m.SameKey n := by
    unfold Distinct
    rw [List.pairwise_map]
    simp only [sameKey_row]
    rfl
  rw [Table.sound_iff, hfills]
  simp only [notificationsTable, notificationsIndexes, Option.mem_def, Option.some.injEq,
    forall_eq', hids, hkeys, List.forall_mem_cons, List.not_mem_nil, IsEmpty.forall_iff,
    implies_true, Bool.false_eq_true, and_true]

end Sound

section Valid
variable {t : Stamped}

/-- A key that leads to rows with an identifier, or nowhere. -/
theorem refers_iff {α β γ : Type} {db : Database} {table column : String} {xs : List γ}
    {row : γ → Row} {ys : List β} {idOf : β → UUID} (p : γ → α) (f : α → Option UUID)
    (hholds : ∀ id, db.Holds table ["id"] [.uuid id] ↔ ∃ y ∈ ys, idOf y = id)
    (hkey : ∀ x, (row x).key [column] = (f (p x)).map fun id => [Value.uuid id]) :
    (∀ r ∈ xs.map row, ∀ k, r.key [column] = some k → db.Holds table ["id"] k) ↔
      ∀ x ∈ xs.map p, ∀ id ∈ f x, ∃ y ∈ ys, idOf y = id := by
  rw [List.forall_mem_map, List.forall_mem_map]
  refine forall₂_congr fun x _ => ?_
  rw [hkey]
  cases f (p x) with
  | none => simp
  | some id => simp [hholds]

theorem refers_iff_some {α β γ : Type} {db : Database} {table column : String} {xs : List γ}
    {row : γ → Row} {ys : List β} {idOf : β → UUID} (p : γ → α) (f : α → UUID)
    (hholds : ∀ id, db.Holds table ["id"] [.uuid id] ↔ ∃ y ∈ ys, idOf y = id)
    (hkey : ∀ x, (row x).key [column] = some [.uuid (f (p x))]) :
    (∀ r ∈ xs.map row, ∀ k, r.key [column] = some k → db.Holds table ["id"] k) ↔
      ∀ x ∈ xs.map p, ∃ y ∈ ys, idOf y = f x := by
  rw [refers_iff p (fun x => some (f x)) hholds hkey]
  simp

theorem head_names : (t.database.tables.map Prod.fst).Nodup := by
  have hnodup : ["users", "bookings", "reviews", "notifications"].Nodup := by decide
  exact hnodup

/-- The identifiers that a table with rows of its own holds. -/
theorem holds_iff {β γ : Type} {name : String} {schema : TableSchema} {indexes : List Index}
    {xs : List γ} {row : γ → Row} (p : γ → β) (idOf : β → UUID)
    (hmem : (name, ⟨schema, indexes, xs.map row⟩) ∈ t.database.tables)
    (hkey : ∀ x, (row x).key ["id"] = some [.uuid (idOf (p x))]) (id : UUID) :
    t.database.Holds name ["id"] [.uuid id] ↔ ∃ y ∈ xs.map p, idOf y = id := by
  constructor
  · rintro ⟨table, htable, r, hr, hid⟩
    obtain rfl : table = ⟨schema, indexes, xs.map row⟩ :=
      congrArg Prod.snd (List.inj_on_of_nodup_map head_names htable hmem rfl)
    obtain ⟨x, hx, rfl⟩ := List.mem_map.mp hr
    refine ⟨p x, List.mem_map_of_mem hx, ?_⟩
    rw [hkey] at hid
    cases hid
    rfl
  · rintro ⟨y, hy, rfl⟩
    obtain ⟨x, hx, rfl⟩ := List.mem_map.mp hy
    exact ⟨_, hmem, row x, List.mem_map_of_mem hx, hkey x⟩

theorem holds_users (id : UUID) :
    t.database.Holds "users" ["id"] [.uuid id] ↔ ∃ u ∈ t.tables.users, u.id = id :=
  holds_iff Prod.fst User.id List.mem_cons_self (fun _ => rfl) id

theorem holds_bookings (id : UUID) :
    t.database.Holds "bookings" ["id"] [.uuid id] ↔ ∃ b ∈ t.tables.bookings, b.id = id :=
  holds_iff Prod.fst Booking.id (List.mem_cons_of_mem _ List.mem_cons_self) (fun _ => rfl) id

theorem bookingKey (n : Notification) :
    n.row.key ["booking_id"] = n.bookingId.map fun id => [Value.uuid id] := by
  cases hid : n.bookingId <;> simp [Row.key, Notification.row, hid, nullOr]

/-- The foreign keys, table by table. -/
theorem foreign_iff : (∀ p ∈ t.database.tables, ∀ fk ∈ p.2.schema.foreignKeys, ∀ r ∈ p.2.rows,
      ∀ k, r.key fk.columns = some k → t.database.Holds fk.table fk.references k) ↔
    ((∀ b ∈ t.tables.bookings, ∃ u ∈ t.tables.users, u.id = b.customerId) ∧
      ∀ b ∈ t.tables.bookings, ∃ u ∈ t.tables.users, u.id = b.providerId) ∧
    ((∀ x ∈ t.tables.reviews, ∃ b ∈ t.tables.bookings, b.id = x.bookingId) ∧
      (∀ x ∈ t.tables.reviews, ∃ u ∈ t.tables.users, u.id = x.customerId) ∧
      ∀ x ∈ t.tables.reviews, ∃ u ∈ t.tables.users, u.id = x.providerId) ∧
    (∀ n ∈ t.tables.notifications, ∀ id ∈ n.bookingId, ∃ b ∈ t.tables.bookings, b.id = id) ∧
    ∀ n ∈ t.tables.notifications, ∃ u ∈ t.tables.users, u.id = n.userId := by
  have hbookings : (∀ fk ∈ bookingsTable.foreignKeys, ∀ r ∈ t.bookings.map fun p =>
      p.1.row p.2.1 p.2.2, ∀ k, r.key fk.columns = some k →
        t.database.Holds fk.table fk.references k) ↔ _ :=
    List.forall_mem_cons.trans (and_congr
      (refers_iff_some Prod.fst Booking.customerId holds_users fun _ => rfl)
      (List.forall_mem_singleton.trans
        (refers_iff_some Prod.fst Booking.providerId holds_users fun _ => rfl)))
  have hreviews : (∀ fk ∈ reviewsTable.foreignKeys, ∀ r ∈ t.reviews.map fun p => p.1.row p.2,
      ∀ k, r.key fk.columns = some k → t.database.Holds fk.table fk.references k) ↔ _ :=
    List.forall_mem_cons.trans (and_congr
      (refers_iff_some Prod.fst Review.bookingId holds_bookings fun _ => rfl)
      (List.forall_mem_cons.trans (and_congr
        (refers_iff_some Prod.fst Review.customerId holds_users fun _ => rfl)
        (List.forall_mem_singleton.trans
          (refers_iff_some Prod.fst Review.providerId holds_users fun _ => rfl)))))
  have hnotifications : (∀ fk ∈ notificationsTable.foreignKeys, ∀ r ∈
      t.notifications.map Notification.row, ∀ k, r.key fk.columns = some k →
        t.database.Holds fk.table fk.references k) ↔ _ :=
    List.forall_mem_cons.trans (and_congr
      (refers_iff id Notification.bookingId holds_bookings bookingKey)
      (List.forall_mem_singleton.trans
        (refers_iff_some id Notification.userId holds_users fun _ => rfl)))
  rw [List.map_id] at hnotifications
  exact List.forall_mem_cons.trans ((and_iff_right (fun _ h => absurd h List.not_mem_nil)).trans
    (List.forall_mem_cons.trans (and_congr hbookings (List.forall_mem_cons.trans
      (and_congr hreviews (List.forall_mem_singleton.trans hnotifications))))))

/-- What the migrations declare says `Constraints` and that the texts fit, and nothing else. -/
theorem stamped_valid : t.database.Valid ↔ Constraints t.tables ∧ t.tables.FitColumns := by
  have hsound : (∀ p ∈ t.database.tables, p.2.Sound) ↔ _ :=
    List.forall_mem_cons.trans (and_congr sound_users (List.forall_mem_cons.trans
      (and_congr sound_bookings (List.forall_mem_cons.trans
        (and_congr sound_reviews (List.forall_mem_singleton.trans sound_notifications))))))
  rw [Database.valid_iff, foreign_iff, hsound, and_iff_right head_names]
  constructor
  · rintro ⟨⟨⟨usersFit, usersKey, usersEmail⟩, ⟨bookingsFit, bookingsKey, times, parties⟩,
      ⟨reviewsKey, reviewsBookingUnique, ratings⟩, notificationsFit, notificationsKey, keys⟩,
      ⟨bookingsCustomer, bookingsProvider⟩, ⟨reviewsBooking, reviewsCustomer, reviewsProvider⟩,
      notificationsBooking, notificationsUser⟩
    refine ⟨⟨usersKey, usersEmail, bookingsKey, bookingsCustomer, bookingsProvider, times,
      parties, reviewsKey, reviewsBookingUnique, reviewsBooking, reviewsCustomer, reviewsProvider,
      ratings, notificationsKey, notificationsUser, fun n hn => ?_, keys⟩,
      ⟨usersFit, bookingsFit, notificationsFit⟩⟩
    cases hid : n.bookingId with
    | none => exact .inl rfl
    | some id =>
      obtain ⟨b, hb, rfl⟩ := notificationsBooking n hn id hid
      exact .inr ⟨b, hb, rfl⟩
  · rintro ⟨h, hfit⟩
    refine ⟨⟨⟨hfit.users, h.usersKey, h.usersEmail⟩,
      ⟨hfit.bookings, h.bookingsKey, h.checkBookingEndAfterStart,
        h.checkBookingCustomerNotProvider⟩,
      ⟨h.reviewsKey, h.reviewsBookingUnique, h.checkReviewRatingRange⟩,
      hfit.notifications, h.notificationsKey, h.uqNotificationsUserBookingType⟩,
      ⟨h.bookingsCustomer, h.bookingsProvider⟩,
      ⟨h.reviewsBooking, h.reviewsCustomer, h.reviewsProvider⟩, fun n hn id hid => ?_,
      h.notificationsUser⟩
    rcases h.notificationsBooking n hn with hnone | ⟨b, hb, hsome⟩
    · rw [hnone] at hid
      cases hid
    · rw [hsome] at hid
      cases hid
      exact ⟨b, hb, rfl⟩

theorem exists_map {α : Type} {row : α → Row} {rows : List Row} (h : ∀ r ∈ rows, ∃ x, r = row x) :
    ∃ xs : List α, rows = xs.map row := by
  induction rows with
  | nil => exact ⟨[], rfl⟩
  | cons r rows ih =>
    obtain ⟨x, rfl⟩ := h r List.mem_cons_self
    obtain ⟨xs, rfl⟩ := ih fun r hr => h r (List.mem_cons_of_mem _ hr)
    exact ⟨x :: xs, rfl⟩

theorem head_valid_iff {us bs rs ns : List Row} : (headDatabase us bs rs ns).Valid ↔
    ∃ t : Stamped, t.database = headDatabase us bs rs ns ∧ Constraints t.tables ∧
      t.tables.FitColumns := by
  constructor
  · intro h
    have hsound : ∀ p ∈ (headDatabase us bs rs ns).tables, p.2.Sound := fun p hp =>
      h.sound p.1 p.2 hp
    obtain ⟨husers, hsound⟩ := List.forall_mem_cons.mp hsound
    obtain ⟨hbookings, hsound⟩ := List.forall_mem_cons.mp hsound
    obtain ⟨hreviews, hsound⟩ := List.forall_mem_cons.mp hsound
    have hnotifications := List.forall_mem_singleton.mp hsound
    obtain ⟨users, rfl⟩ := exists_map fun r hr => user_of_fills (husers.fills r hr)
    obtain ⟨bookings, rfl⟩ := exists_map fun r hr => booking_of_fills (hbookings.fills r hr)
    obtain ⟨reviews, rfl⟩ := exists_map fun r hr => review_of_fills (hreviews.fills r hr)
    obtain ⟨notifications, rfl⟩ := exists_map fun r hr =>
      notification_of_fills (hnotifications.fills r hr)
    exact ⟨⟨users, bookings, reviews, notifications⟩, rfl, stamped_valid.mp h⟩
  · rintro ⟨t, ht, h⟩
    rw [← ht]
    exact stamped_valid.mpr h

end Valid

section Models

/-! What the mapped classes declare. A column that is both unique and indexed gives a unique
index only, and the columns stand in another order than the migrations leave them in. -/

def usersModel : TableSchema where
  columns := [column "id" .uuid, column "name" (.string 255), column "email" (.string 255),
    column "role" userRole, column "password_hash" (.string 255),
    column "created_at" .timestamptz, column "updated_at" .timestamptz]
  primaryKey := some ["id"]
  uniques := []
  foreignKeys := []
  checks := []

def bookingsModel : TableSchema where
  columns := [column "id" .uuid, column "customer_id" .uuid, column "provider_id" .uuid,
    column "service_name" (.string 255), column "start_time" .timestamptz,
    column "end_time" .timestamptz, column "status" bookingStatus,
    column "created_at" .timestamptz, column "updated_at" .timestamptz]
  primaryKey := some ["id"]
  uniques := []
  foreignKeys := [foreignKey "customer_id" "users", foreignKey "provider_id" "users"]
  checks := [
    ⟨"check_booking_end_after_start",
      .compare .gt (.column "end_time") (.column "start_time")⟩,
    ⟨"check_booking_customer_not_provider",
      .compare .ne (.column "customer_id") (.column "provider_id")⟩]

def reviewsModel : TableSchema where
  columns := [column "id" .uuid, column "booking_id" .uuid, column "customer_id" .uuid,
    column "provider_id" .uuid, column "rating" .integer, nullableColumn "comment" .text,
    column "created_at" .timestamptz, column "updated_at" .timestamptz]
  primaryKey := some ["id"]
  uniques := []
  foreignKeys := [foreignKey "booking_id" "bookings", foreignKey "customer_id" "users",
    foreignKey "provider_id" "users"]
  checks := [⟨"check_review_rating_range",
    .and (.compare .ge (.column "rating") (.literal 1))
      (.compare .le (.column "rating") (.literal 5))⟩]

def notificationsModel : TableSchema where
  columns := [column "id" .uuid, column "user_id" .uuid, nullableColumn "booking_id" .uuid,
    column "type" notificationType, column "title" (.string 255), column "message" .text,
    column "is_read" .boolean, column "created_at" .timestamptz,
    nullableColumn "read_at" .timestamptz]
  primaryKey := some ["id"]
  uniques := [⟨some "uq_notifications_user_booking_type", ["user_id", "booking_id", "type"]⟩]
  foreignKeys := [foreignKey "user_id" "users", foreignKey "booking_id" "bookings"]
  checks := []

def bookingsModelIndexes : List Index := [
  ⟨"ix_bookings_customer_status", ["customer_id", "status"], false⟩,
  ⟨"ix_bookings_provider_status", ["provider_id", "status"], false⟩,
  ⟨"ix_bookings_customer_id", ["customer_id"], false⟩,
  ⟨"ix_bookings_provider_id", ["provider_id"], false⟩,
  ⟨"ix_bookings_start_time", ["start_time"], false⟩,
  ⟨"ix_bookings_status", ["status"], false⟩]

def reviewsModelIndexes : List Index := [
  ⟨"ix_reviews_provider_rating", ["provider_id", "rating"], false⟩,
  ⟨"ix_reviews_booking_id", ["booking_id"], true⟩,
  ⟨"ix_reviews_customer_id", ["customer_id"], false⟩,
  ⟨"ix_reviews_provider_id", ["provider_id"], false⟩]

def notificationsModelIndexes : List Index := [
  ⟨"ix_notifications_user_is_read", ["user_id", "is_read"], false⟩,
  ⟨"ix_notifications_user_created_at", ["user_id", "created_at"], false⟩,
  ⟨"ix_notifications_user_id", ["user_id"], false⟩,
  ⟨"ix_notifications_booking_id", ["booking_id"], false⟩,
  ⟨"ix_notifications_type", ["type"], false⟩,
  ⟨"ix_notifications_is_read", ["is_read"], false⟩]

/-- `Base.metadata`, with rows. -/
def metadataDatabase (users bookings reviews notifications : List Row) : Database where
  types := ["user_role", "booking_status", "notification_type"]
  tables := [("users", ⟨usersModel, [⟨"ix_users_email", ["email"], true⟩], users⟩),
    ("bookings", ⟨bookingsModel, bookingsModelIndexes, bookings⟩),
    ("reviews", ⟨reviewsModel, reviewsModelIndexes, reviews⟩),
    ("notifications", ⟨notificationsModel, notificationsModelIndexes, notifications⟩)]

variable {us bs rs ns : List Row}

/-- Two lists with the same members. -/
theorem mem_iff_of_subset {α : Type} {xs ys : List α} (h : xs ⊆ ys) (h' : ys ⊆ xs) (a : α) :
    a ∈ xs ↔ a ∈ ys := ⟨fun ha => h ha, fun ha => h' ha⟩

theorem metadata_demanded :
    Demanded (metadataDatabase us bs rs ns) (headDatabase us bs rs ns) := by
  have husers : SameDemands ⟨usersModel, [⟨"ix_users_email", ["email"], true⟩], us⟩
      ⟨usersWithHash, usersIndexes, us⟩ := by
    have hsub : usersModel.columns ⊆ usersWithHash.columns := by decide
    have hsup : usersWithHash.columns ⊆ usersModel.columns := by decide
    refine ⟨rfl, mem_iff_of_subset hsub hsup, fun k => ?_, fun _ => Iff.rfl, fun _ => Iff.rfl⟩
    simp [Table.distinctKeys, usersModel, usersWithHash, usersTable, usersIndexes]
  have hbookings : SameDemands ⟨bookingsModel, bookingsModelIndexes, bs⟩
      ⟨bookingsTable, bookingsIndexes, bs⟩ :=
    ⟨rfl, fun _ => Iff.rfl, fun _ => Iff.rfl, fun _ => Iff.rfl, fun _ => Iff.rfl⟩
  have hreviews : SameDemands ⟨reviewsModel, reviewsModelIndexes, rs⟩
      ⟨reviewsTable, reviewsIndexes, rs⟩ := by
    refine ⟨rfl, fun _ => Iff.rfl, fun k => ?_, fun _ => Iff.rfl, fun _ => Iff.rfl⟩
    simp [Table.distinctKeys, reviewsModel, reviewsTable, reviewsIndexes, reviewsModelIndexes]
  have hnotifications : SameDemands ⟨notificationsModel, notificationsModelIndexes, ns⟩
      ⟨notificationsTable, notificationsIndexes, ns⟩ := by
    have hsub : notificationsModel.foreignKeys ⊆ notificationsTable.foreignKeys := by decide
    have hsup : notificationsTable.foreignKeys ⊆ notificationsModel.foreignKeys := by decide
    exact ⟨rfl, fun _ => Iff.rfl, fun _ => Iff.rfl, fun _ => Iff.rfl,
      mem_iff_of_subset hsub hsup⟩
  exact .cons ⟨rfl, husers⟩ (.cons ⟨rfl, hbookings⟩ (.cons ⟨rfl, hreviews⟩
    (.cons ⟨rfl, hnotifications⟩ .nil)))

/-- The migrations and the mapped classes accept the same rows: those of a `Store` whose texts
are not too long. -/
theorem schemas_accept_stores :
    ((headDatabase us bs rs ns).Valid ↔ ∃ t : Stamped,
      t.database = headDatabase us bs rs ns ∧ Constraints t.tables ∧ t.tables.FitColumns) ∧
    ((metadataDatabase us bs rs ns).Valid ↔ (headDatabase us bs rs ns).Valid) :=
  ⟨head_valid_iff, metadata_demanded.valid_iff⟩

end Models

end BookingPlatform
