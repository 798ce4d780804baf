import BookingPlatform.Sql.Ddl

/-!
# The three migrations

Each migration as its two lists of commands. What is declared at each revision is written out,
so that the rows can vary.
-/

namespace BookingPlatform

set_option autoImplicit false

open Sql

section Migrations

structure Migration where
  revision : String
  downRevision : Option String
  upgrade : List Command
  downgrade : List Command

def column (name : String) (type : ColumnType) : Column := ⟨name, type, false⟩

def nullableColumn (name : String) (type : ColumnType) : Column := ⟨name, type, true⟩

def userRole : ColumnType := .enum "user_role" ["admin", "provider", "customer"]

def bookingStatus : ColumnType :=
  .enum "booking_status" ["pending", "confirmed", "completed", "cancelled"]

def notificationType : ColumnType :=
  .enum "notification_type" ["booking_created", "booking_confirmed", "booking_cancelled",
    "booking_reminder", "booking_completed", "booking_overdue"]

/-- `sa.ForeignKeyConstraint([name], [table + ".id"])`. -/
def foreignKey (name table : String) : ForeignKey := ⟨[name], table, ["id"]⟩

def usersTable : TableSchema where
  columns := [column "id" .uuid, column "name" (.string 255), column "email" (.string 255),
    column "role" userRole, column "created_at" .timestamptz, column "updated_at" .timestamptz]
  primaryKey := some ["id"]
  uniques := [⟨none, ["email"]⟩]
  foreignKeys := []
  checks := []

def bookingsTable : TableSchema where
  columns := [column "id" .uuid, column "customer_id" .uuid, column "provider_id" .uuid,
    column "service_name" (.string 255), column "start_time" .timestamptz,
    column "end_time" .timestamptz, column "status" bookingStatus,
    column "created_at" .timestamptz, column "updated_at" .timestamptz]
  primaryKey := some ["id"]
  uniques := []
  foreignKeys := [foreignKey "customer_id" "users", foreignKey "provider_id" "users"]
  checks := [
    ⟨"check_booking_end_after_start",
      .compare .gt (.column "end_time") (.column "start_time")⟩,
    ⟨"check_booking_customer_not_provider",
      .compare .ne (.column "customer_id") (.column "provider_id")⟩]

def reviewsTable : TableSchema where
  columns := [column "id" .uuid, column "booking_id" .uuid, column "customer_id" .uuid,
    column "provider_id" .uuid, column "rating" .integer, nullableColumn "comment" .text,
    column "created_at" .timestamptz, column "updated_at" .timestamptz]
  primaryKey := some ["id"]
  uniques := [⟨none, ["booking_id"]⟩]
  foreignKeys := [foreignKey "booking_id" "bookings", foreignKey "customer_id" "users",
    foreignKey "provider_id" "users"]
  checks := [⟨"check_review_rating_range",
    .and (.compare .ge (.column "rating") (.literal 1))
      (.compare .le (.column "rating") (.literal 5))⟩]

def notificationsTable : TableSchema where
  columns := [column "id" .uuid, column "user_id" .uuid, nullableColumn "booking_id" .uuid,
    column "type" notificationType, column "title" (.string 255), column "message" .text,
    column "is_read" .boolean, column "created_at" .timestamptz,
    nullableColumn "read_at" .timestamptz]
  primaryKey := some ["id"]
  uniques := [⟨some "uq_notifications_user_booking_type", ["user_id", "booking_id", "type"]⟩]
  foreignKeys := [foreignKey "booking_id" "bookings", foreignKey "user_id" "users"]
  checks := []

def usersIndexes : List Index := [⟨"ix_users_email", ["email"], true⟩]

def bookingsIndexes : List Index := [
  ⟨"ix_bookings_customer_id", ["customer_id"], false⟩,
  ⟨"ix_bookings_provider_id", ["provider_id"], false⟩,
  ⟨"ix_bookings_start_time", ["start_time"], false⟩,
  ⟨"ix_bookings_status", ["status"], false⟩,
  ⟨"ix_bookings_customer_status", ["customer_id", "status"], false⟩,
  ⟨"ix_bookings_provider_status", ["provider_id", "status"], false⟩]

def reviewsIndexes : List Index := [
  ⟨"ix_reviews_booking_id", ["booking_id"], true⟩,
  ⟨"ix_reviews_customer_id", ["customer_id"], false⟩,
  ⟨"ix_reviews_provider_id", ["provider_id"], false⟩,
  ⟨"ix_reviews_provider_rating", ["provider_id", "rating"], false⟩]

def notificationsIndexes : List Index := [
  ⟨"ix_notifications_user_id", ["user_id"], false⟩,
  ⟨"ix_notifications_booking_id", ["booking_id"], false⟩,
  ⟨"ix_notifications_type", ["type"], false⟩,
  ⟨"ix_notifications_is_read", ["is_read"], false⟩,
  ⟨"ix_notifications_user_is_read", ["user_id", "is_read"], false⟩,
  ⟨"ix_notifications_user_created_at", ["user_id", "created_at"], false⟩]

/-- `op.create_table` and `op.create_index` for each index. -/
def createTable (name : String) (schema : TableSchema) (indexes : List Index) : List Command :=
  .createTable name schema :: indexes.map (.createIndex name)

/-- `op.drop_index` in the reverse order, and `op.drop_table`. -/
def dropTable (name : String) (indexes : List Index) : List Command :=
  (indexes.reverse.map fun i => .dropIndex name i.name) ++ [.dropTable name]

def Migration.initialSchema : Migration where
  revision := "0001_initial_schema"
  downRevision := none
  upgrade :=
    createTable "users" usersTable usersIndexes ++
      (createTable "bookings" bookingsTable bookingsIndexes ++
        createTable "reviews" reviewsTable reviewsIndexes)
  downgrade :=
    dropTable "reviews" reviewsIndexes ++
      (dropTable "bookings" bookingsIndexes ++
        (dropTable "users" usersIndexes ++
          [.dropTypeIfExists "booking_status", .dropTypeIfExists "user_role"]))

/-- The hash is that of a secret nobody has been told. -/
def Migration.addUserPasswordHash (unusableHash : String) : Migration where
  revision := "0002_add_user_password_hash"
  downRevision := some "0001_initial_schema"
  upgrade := [
    .addColumn "users" (nullableColumn "password_hash" (.string 255)),
    .fillNulls "users" "password_hash" (.text unusableHash),
    .setNotNull "users" "password_hash"]
  downgrade := [.dropColumn "users" "password_hash"]

def Migration.addNotifications : Migration where
  revision := "0003_add_notifications"
  downRevision := some "0002_add_user_password_hash"
  upgrade := createTable "notifications" notificationsTable notificationsIndexes
  downgrade := dropTable "notifications" notificationsIndexes ++
    [.dropTypeIfExists "notification_type"]

def versions (unusableHash : String) : List Migration :=
  [Migration.initialSchema, Migration.addUserPasswordHash unusableHash, Migration.addNotifications]

end Migrations

section Revisions

def passwordHash : Column := column "password_hash" (.string 255)

def usersWithHash : TableSchema :=
  { usersTable with columns := usersTable.columns ++ [passwordHash] }

def usersWithNullableHash : TableSchema :=
  { usersTable with
    columns := usersTable.columns ++ [nullableColumn "password_hash" (.string 255)] }

/-- The database at each revision, with whatever rows. -/
def initialDatabase (users bookings reviews : List Row) : Database where
  types := ["user_role", "booking_status"]
  tables := [("users", ⟨usersTable, usersIndexes, users⟩),
    ("bookings", ⟨bookingsTable, bookingsIndexes, bookings⟩),
    ("reviews", ⟨reviewsTable, reviewsIndexes, reviews⟩)]

def hashedDatabase (users bookings reviews : List Row) : Database where
  types := ["user_role", "booking_status"]
  tables := [("users", ⟨usersWithHash, usersIndexes, users⟩),
    ("bookings", ⟨bookingsTable, bookingsIndexes, bookings⟩),
    ("reviews", ⟨reviewsTable, reviewsIndexes, reviews⟩)]

/-- Between adding the column and requiring it. -/
def nullableDatabase (users bookings reviews : List Row) : Database where
  types := ["user_role", "booking_status"]
  tables := [("users", ⟨usersWithNullableHash, usersIndexes, users⟩),
    ("bookings", ⟨bookingsTable, bookingsIndexes, bookings⟩),
    ("reviews", ⟨reviewsTable, reviewsIndexes, reviews⟩)]

def headDatabase (users bookings reviews notifications : List Row) : Database where
  types := ["user_role", "booking_status", "notification_type"]
  tables := [("users", ⟨usersWithHash, usersIndexes, users⟩),
    ("bookings", ⟨bookingsTable, bookingsIndexes, bookings⟩),
    ("reviews", ⟨reviewsTable, reviewsIndexes, reviews⟩),
    ("notifications", ⟨notificationsTable, notificationsIndexes, notifications⟩)]

variable {us bs rs ns : List Row} {hash : String}

theorem upgrade_initialSchema :
    runAll Migration.initialSchema.upgrade ⟨[], []⟩ = .ok (initialDatabase [] [] []) := by
  rfl

theorem downgrade_initialSchema :
    runAll Migration.initialSchema.downgrade (initialDatabase us bs rs) = .ok ⟨[], []⟩ := by
  have hreviews : runAll (dropTable "reviews" reviewsIndexes) (initialDatabase us bs rs) =
      .ok ⟨["user_role", "booking_status"], [("users", ⟨usersTable, usersIndexes, us⟩),
        ("bookings", ⟨bookingsTable, bookingsIndexes, bs⟩)]⟩ := rfl
  have hbookings : runAll (dropTable "bookings" bookingsIndexes)
      ⟨["user_role", "booking_status"], [("users", ⟨usersTable, usersIndexes, us⟩),
        ("bookings", ⟨bookingsTable, bookingsIndexes, bs⟩)]⟩ =
      .ok ⟨["user_role", "booking_status"], [("users", ⟨usersTable, usersIndexes, us⟩)]⟩ := rfl
  have husers : runAll (dropTable "users" usersIndexes ++
      [.dropTypeIfExists "booking_status", .dropTypeIfExists "user_role"])
      ⟨["user_role", "booking_status"], [("users", ⟨usersTable, usersIndexes, us⟩)]⟩ =
      .ok ⟨[], []⟩ := rfl
  refine (runAll_append ..).trans ?_
  rw [hreviews]
  refine (runAll_append ..).trans ?_
  rw [hbookings]
  exact husers

theorem upgrade_addNotifications :
    runAll Migration.addNotifications.upgrade (hashedDatabase us bs rs) =
      .ok (headDatabase us bs rs []) := by
  rfl

theorem downgrade_addNotifications :
    runAll Migration.addNotifications.downgrade (headDatabase us bs rs ns) =
      .ok (hashedDatabase us bs rs) := by
  rfl

/-- What `alter` does to a table that it finds and does not refuse. -/
theorem alter_eq {db : Database} {name : String} {t : Table} {refuse : Table → Option Sql.Error}
    {f : Table → Table} (htable : db.table? name = some t) (hrefuse : refuse t = none) :
    db.alter name refuse f = .ok (db.modify name (f t)) := by
  unfold Database.alter
  rw [htable]
  simp only [hrefuse]

/-- The column is added without values, filled, and only then required. -/
theorem upgrade_addUserPasswordHash (hlength : hash.length ≤ 255)
    (hblank : ∀ r ∈ us, r "password_hash" = .null) :
    runAll (Migration.addUserPasswordHash hash).upgrade (initialDatabase us bs rs) =
      .ok (hashedDatabase (us.map fun r => r.set "password_hash" (.text hash)) bs rs) := by
  have hadd : Command.apply (initialDatabase us bs rs)
      (.addColumn "users" (nullableColumn "password_hash" (.string 255))) =
      .ok (nullableDatabase us bs rs) := rfl
  have hfill : Command.apply (nullableDatabase us bs rs)
      (.fillNulls "users" "password_hash" (.text hash)) =
      .ok (nullableDatabase (us.map fun r => r.set "password_hash" (.text hash)) bs rs) := by
    have hrows : us.map (fun r => if r "password_hash" = .null then
        r.set "password_hash" (.text hash) else r) =
        us.map fun r => r.set "password_hash" (.text hash) :=
      List.map_congr_left fun r hr => if_pos (hblank r hr)
    have htable : (nullableDatabase us bs rs).table? "users" =
        some ⟨usersWithNullableHash, usersIndexes, us⟩ := rfl
    simp only [Command.apply]
    refine (alter_eq htable ?_).trans ?_
    · refine refuseIf_none.mpr ⟨of_decide_eq_true rfl, refuseIf_none.mpr ⟨?_,
        refuseIf_none.mpr ⟨of_decide_eq_true rfl, rfl⟩⟩⟩
      rintro ⟨c, hc, hname, hadmits⟩
      have hstring : ∀ c ∈ usersWithNullableHash.columns, c.name = "password_hash" →
          c.type = .string 255 := by decide
      rw [hstring c hc hname] at hadmits
      exact of_decide_eq_false hadmits hlength
    · rw [← hrows]
      rfl
  have hrequire : Command.apply
      (nullableDatabase (us.map fun r => r.set "password_hash" (.text hash)) bs rs)
      (.setNotNull "users" "password_hash") =
      .ok (hashedDatabase (us.map fun r => r.set "password_hash" (.text hash)) bs rs) := by
    have htable : (nullableDatabase (us.map fun r => r.set "password_hash" (.text hash)) bs
        rs).table? "users" = some ⟨usersWithNullableHash, usersIndexes,
          us.map fun r => r.set "password_hash" (.text hash)⟩ := rfl
    simp only [Command.apply]
    refine (alter_eq htable ?_).trans rfl
    refine refuseIf_none.mpr ⟨of_decide_eq_true rfl, refuseIf_none.mpr ⟨?_, rfl⟩⟩
    rintro ⟨r', hr', hnull⟩
    obtain ⟨r, _, rfl⟩ := List.mem_map.mp hr'
    rw [Row.set_self] at hnull
    cases hnull
  simp only [Migration.addUserPasswordHash, runAll, hadd, hfill, hrequire]

theorem downgrade_addUserPasswordHash :
    runAll (Migration.addUserPasswordHash hash).downgrade (hashedDatabase us bs rs) =
      .ok (initialDatabase (us.map fun r => r.set "password_hash" .null) bs rs) := by
  rfl

end Revisions

end BookingPlatform
