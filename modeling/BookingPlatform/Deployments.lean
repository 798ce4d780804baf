import BookingPlatform.HeadSchema
import BookingPlatform.Api

/-!
# The deployed database

`alembic upgrade +1` and `alembic downgrade -1` in any order, and in between whatever the
application commits. None of them is ever refused, an upgrade loses no value, and going back
undoes it.
-/

namespace BookingPlatform

set_option autoImplicit false

open Sql

section Alembic

/-- The database with its row of `alembic_version`. -/
structure Deployment where
  version : Option String
  database : Database

variable (history : List Migration)

/-- The next migration; at the head there is none, and nothing is done. -/
def Deployment.upgrade (d : Deployment) : Except Sql.Error Deployment :=
  match history.find? fun m => m.downRevision = d.version with
  | none => .ok d
  | some m => do
    let database ← runAll m.upgrade d.database
    pure ⟨some m.revision, database⟩

def Deployment.downgrade (d : Deployment) : Except Sql.Error Deployment :=
  match history.find? fun m => some m.revision = d.version with
  | none => .ok d
  | some m => do
    let database ← runAll m.downgrade d.database
    pure ⟨m.downRevision, database⟩

/-- What is declared, without the rows. -/
def declared (db : Database) : List String × List (String × TableSchema × List Index) :=
  (db.types, db.tables.map fun p => (p.1, p.2.schema, p.2.indexes))

/-- Every table of `db` is there in `db'`, with all its rows and their values. -/
def KeptIn (db db' : Database) : Prop :=
  ∀ p ∈ db.tables, ∃ t, (p.1, t) ∈ db'.tables ∧
    List.Forall₂ (fun r r' => ∀ c ∈ p.2.schema.columns, r' c.name = r c.name) p.2.rows t.rows

/-- What a deployment can become, from an empty database on. A commit is of any rows that the
database accepts. -/
inductive Migrated : Deployment → Prop
  | new : Migrated ⟨none, ⟨[], []⟩⟩
  | upgrade {d d' : Deployment} {hash : String} (hd : Migrated d) (hlength : hash.length ≤ 255)
    (h : d.upgrade (versions hash) = .ok d') : Migrated d'
  | downgrade {d d' : Deployment} {hash : String} (hd : Migrated d)
    (h : d.downgrade (versions hash) = .ok d') : Migrated d'
  | commit {d : Deployment} {db : Database} (hd : Migrated d)
    (hdeclared : declared db = declared d.database) (hvalid : db.Valid) :
    Migrated ⟨d.version, db⟩

end Alembic

section Revisions

/-- A valid database of each revision, under the name of the revision. -/
inductive Deployed : Deployment → Prop
  | new : Deployed ⟨none, ⟨[], []⟩⟩
  | initial {us bs rs : List Row} (h : (initialDatabase us bs rs).Valid) :
    Deployed ⟨some "0001_initial_schema", initialDatabase us bs rs⟩
  | hashed {us bs rs : List Row} (h : (hashedDatabase us bs rs).Valid) :
    Deployed ⟨some "0002_add_user_password_hash", hashedDatabase us bs rs⟩
  | head {us bs rs ns : List Row} (h : (headDatabase us bs rs ns).Valid) :
    Deployed ⟨some "0003_add_notifications", headDatabase us bs rs ns⟩

variable {d d' : Deployment} {hash : String}

theorem Deployed.valid (h : Deployed d) : d.database.Valid := by
  cases h with
  | new => exact ⟨List.nodup_nil, fun _ _ h => absurd h List.not_mem_nil,
      fun _ _ h => absurd h List.not_mem_nil⟩
  | initial h => exact h
  | hashed h => exact h
  | head h => exact h

theorem of_declared_cons {tables : List (String × Table)} {name : String} {schema : TableSchema}
    {indexes : List Index} {rest : List (String × TableSchema × List Index)}
    (h : tables.map (fun p => (p.1, p.2.schema, p.2.indexes)) = (name, schema, indexes) :: rest) :
    ∃ rows tables', tables = (name, ⟨schema, indexes, rows⟩) :: tables' ∧
      tables'.map (fun p => (p.1, p.2.schema, p.2.indexes)) = rest := by
  obtain ⟨p, tables', rfl, hp, hrest⟩ := List.map_eq_cons_iff.mp h
  cases hp
  exact ⟨p.2.rows, tables', rfl, hrest⟩

theorem Deployed.commit (h : Deployed d) {db : Database}
    (hdeclared : declared db = declared d.database) (hvalid : db.Valid) :
    Deployed ⟨d.version, db⟩ := by
  obtain ⟨types, tables⟩ := db
  obtain ⟨htypes, htables⟩ := Prod.mk.inj hdeclared
  clear hdeclared
  dsimp only at htypes htables
  cases h with
  | new =>
    obtain rfl := List.map_eq_nil_iff.mp htables
    obtain rfl := htypes
    exact .new
  | initial _ =>
    obtain ⟨us, tables, rfl, hbookings⟩ := of_declared_cons htables
    obtain ⟨bs, tables, rfl, hreviews⟩ := of_declared_cons hbookings
    obtain ⟨rs, tables, rfl, hnone⟩ := of_declared_cons hreviews
    obtain rfl := List.map_eq_nil_iff.mp hnone
    obtain rfl := htypes
    exact .initial hvalid
  | hashed _ =>
    obtain ⟨us, tables, rfl, hbookings⟩ := of_declared_cons htables
    obtain ⟨bs, tables, rfl, hreviews⟩ := of_declared_cons hbookings
    obtain ⟨rs, tables, rfl, hnone⟩ := of_declared_cons hreviews
    obtain rfl := List.map_eq_nil_iff.mp hnone
    obtain rfl := htypes
    exact .hashed hvalid
  | head _ =>
    obtain ⟨us, tables, rfl, hbookings⟩ := of_declared_cons htables
    obtain ⟨bs, tables, rfl, hreviews⟩ := of_declared_cons hbookings
    obtain ⟨rs, tables, rfl, hnotifications⟩ := of_declared_cons hreviews
    obtain ⟨ns, tables, rfl, hnone⟩ := of_declared_cons hnotifications
    obtain rfl := List.map_eq_nil_iff.mp hnone
    obtain rfl := htypes
    exact .head hvalid

theorem upgrade_eq {m : Migration} {db : Database}
    (hfind : (versions hash).find? (fun m => m.downRevision = d.version) = some m)
    (hrun : runAll m.upgrade d.database = .ok db) :
    d.upgrade (versions hash) = .ok ⟨some m.revision, db⟩ := by
  unfold Deployment.upgrade
  rw [hfind]
  simp only [hrun]
  rfl

theorem downgrade_eq {m : Migration} {db : Database}
    (hfind : (versions hash).find? (fun m => some m.revision = d.version) = some m)
    (hrun : runAll m.downgrade d.database = .ok db) :
    d.downgrade (versions hash) = .ok ⟨m.downRevision, db⟩ := by
  unfold Deployment.downgrade
  rw [hfind]
  simp only [hrun]
  rfl

variable {us bs rs ns : List Row}

/-! At the base and at the head nothing is left to do. -/

theorem downgrade_new : Deployment.downgrade (versions hash) ⟨none, ⟨[], []⟩⟩ =
    .ok ⟨none, ⟨[], []⟩⟩ := rfl

theorem downgrade_initial : Deployment.downgrade (versions hash) ⟨some "0001_initial_schema",
    initialDatabase us bs rs⟩ = .ok ⟨none, ⟨[], []⟩⟩ :=
  downgrade_eq (m := .initialSchema) rfl downgrade_initialSchema

theorem downgrade_hashed : Deployment.downgrade (versions hash)
      ⟨some "0002_add_user_password_hash", hashedDatabase us bs rs⟩ =
    .ok ⟨some "0001_initial_schema",
      initialDatabase (us.map fun r => r.set "password_hash" .null) bs rs⟩ :=
  downgrade_eq (m := .addUserPasswordHash hash) rfl downgrade_addUserPasswordHash

theorem downgrade_head : Deployment.downgrade (versions hash)
      ⟨some "0003_add_notifications", headDatabase us bs rs ns⟩ =
    .ok ⟨some "0002_add_user_password_hash", hashedDatabase us bs rs⟩ :=
  downgrade_eq (m := .addNotifications) rfl downgrade_addNotifications

end Revisions

section Keeping
variable {us bs rs ns : List Row} {hash : String}

theorem blank_of_valid (h : (initialDatabase us bs rs).Valid) :
    ∀ r ∈ us, r "password_hash" = .null := by
  intro r hr
  have hother : ∀ c ∈ usersTable.columns, c.name ≠ "password_hash" := by decide
  exact ((h.sound "users" _ List.mem_cons_self).fills r hr).blank "password_hash" hother

/-- The column of the hashes is filled and emptied again. -/
theorem map_set_null (hblank : ∀ r ∈ us, r "password_hash" = .null) :
    (us.map fun r => r.set "password_hash" (.text hash)).map
      (fun r => r.set "password_hash" .null) = us := by
  rw [List.map_map]
  refine (List.map_congr_left fun r hr => ?_).trans (List.map_id us)
  funext name
  by_cases hname : name = "password_hash"
  · rw [hname]
    exact (Row.set_self ..).trans (hblank r hr).symm
  · exact (Row.set_other _ _ hname).trans (Row.set_other _ _ hname)

theorem keptIn_refl (db : Database) : KeptIn db db := fun p hp =>
  ⟨p.2, hp, List.forall₂_same.mpr fun _ _ _ _ => rfl⟩

theorem set_passwordHash (r : Row) (v : Value) :
    ∀ c ∈ usersTable.columns, r.set "password_hash" v c.name = r c.name := by
  have hother : ∀ c ∈ usersTable.columns, c.name ≠ "password_hash" := by decide
  exact fun c hc => r.set_other v (hother c hc)

theorem initial_keptIn_hashed :
    KeptIn (initialDatabase us bs rs)
      (hashedDatabase (us.map fun r => r.set "password_hash" (.text hash)) bs rs) := by
  refine List.forall_mem_cons.mpr ⟨⟨_, List.mem_cons_self, ?_⟩, fun p hp => ?_⟩
  · exact List.forall₂_map_right_iff.mpr (List.forall₂_same.mpr fun r _ => set_passwordHash r _)
  · exact ⟨p.2, List.mem_cons_of_mem _ hp, List.forall₂_same.mpr fun _ _ _ _ => rfl⟩

theorem nulled_keptIn_hashed :
    KeptIn (initialDatabase (us.map fun r => r.set "password_hash" .null) bs rs)
      (hashedDatabase us bs rs) := by
  refine List.forall_mem_cons.mpr ⟨⟨_, List.mem_cons_self, ?_⟩, fun p hp => ?_⟩
  · refine List.forall₂_map_left_iff.mpr (List.forall₂_same.mpr fun r _ c hc => ?_)
    exact (set_passwordHash r _ c hc).symm
  · exact ⟨p.2, List.mem_cons_of_mem _ hp, List.forall₂_same.mpr fun _ _ _ _ => rfl⟩

theorem hashed_keptIn_head : KeptIn (hashedDatabase us bs rs) (headDatabase us bs rs ns) := by
  intro p hp
  refine ⟨p.2, ?_, List.forall₂_same.mpr fun _ _ _ _ => rfl⟩
  exact List.mem_append_left [("notifications", ⟨notificationsTable, notificationsIndexes, ns⟩)] hp

end Keeping

section Runs
variable {d d' : Deployment} {hash : String}

/-- What is deployed can be upgraded: to a valid database again, with every value. -/
theorem Deployed.upgrades (h : Deployed d) (hlength : hash.length ≤ 255) :
    ∃ d', d.upgrade (versions hash) = .ok d' ∧ Deployed d' ∧ KeptIn d.database d'.database ∧
      (d.version = some "0003_add_notifications" ∧ d' = d ∨
        ∀ hash', d'.downgrade (versions hash') = .ok d) := by
  cases h with
  | new =>
    refine ⟨_, upgrade_eq (m := .initialSchema) rfl upgrade_initialSchema, .initial ?_,
      fun p hp => absurd hp List.not_mem_nil, .inr fun _ => downgrade_initial⟩
    exact runAll_valid Deployed.new.valid upgrade_initialSchema
  | initial h =>
    have hblank := blank_of_valid h
    refine ⟨_, upgrade_eq (m := .addUserPasswordHash hash) rfl
      (upgrade_addUserPasswordHash hlength hblank), .hashed ?_, initial_keptIn_hashed,
      .inr fun _ => ?_⟩
    · exact runAll_valid h (upgrade_addUserPasswordHash hlength hblank)
    · refine downgrade_hashed.trans ?_
      rw [map_set_null hblank]
  | hashed h =>
    refine ⟨_, upgrade_eq (m := .addNotifications) rfl upgrade_addNotifications, .head ?_,
      hashed_keptIn_head, .inr fun _ => downgrade_head⟩
    exact runAll_valid h upgrade_addNotifications
  | head h => exact ⟨_, rfl, .head h, keptIn_refl _, .inl ⟨rfl, rfl⟩⟩

theorem Deployed.downgrades (h : Deployed d) (hash : String) :
    ∃ d', d.downgrade (versions hash) = .ok d' ∧ Deployed d' ∧ KeptIn d'.database d.database := by
  cases h with
  | new => exact ⟨_, downgrade_new, .new, keptIn_refl _⟩
  | initial h => exact ⟨_, downgrade_initial, .new, fun p hp => absurd hp List.not_mem_nil⟩
  | @hashed us bs rs h =>
    have hrun : runAll (Migration.addUserPasswordHash hash).downgrade (hashedDatabase us bs rs) =
      .ok _ := downgrade_addUserPasswordHash
    exact ⟨_, downgrade_hashed, .initial (runAll_valid h hrun), nulled_keptIn_hashed⟩
  | head h =>
    refine ⟨_, downgrade_head, .hashed ?_, hashed_keptIn_head⟩
    exact runAll_valid h downgrade_addNotifications

theorem Migrated.deployed (h : Migrated d) : Deployed d := by
  induction h with
  | new => exact .new
  | upgrade _ hlength heq ih =>
    obtain ⟨d', hd', h, _⟩ := ih.upgrades hlength
    cases hd'.symm.trans heq
    exact h
  | downgrade _ heq ih =>
    obtain ⟨d', hd', h, _⟩ := ih.downgrades _
    cases hd'.symm.trans heq
    exact h
  | commit _ hdeclared hvalid ih => exact ih.commit hdeclared hvalid

/-- Every store whose texts fit can be what is deployed. -/
theorem stamped_migrated {t : Stamped} (h : t.database.Valid) :
    Migrated ⟨some "0003_add_notifications", t.database⟩ := by
  have hlength : "".length ≤ 255 := by decide
  have hinitial : Migrated ⟨some "0001_initial_schema", initialDatabase [] [] []⟩ :=
    .upgrade .new hlength (upgrade_eq (m := .initialSchema) rfl upgrade_initialSchema)
  have hhashed : Migrated ⟨some "0002_add_user_password_hash", hashedDatabase [] [] []⟩ :=
    .upgrade hinitial hlength (upgrade_eq (m := .addUserPasswordHash "") rfl
      (upgrade_addUserPasswordHash hlength fun _ h => absurd h List.not_mem_nil))
  have hhead : Migrated ⟨some "0003_add_notifications", headDatabase [] [] [] []⟩ :=
    .upgrade hhashed hlength (upgrade_eq (m := .addNotifications) rfl upgrade_addNotifications)
  exact .commit hhead rfl h

/-- However often a database was migrated up and down while it was used, its rows satisfy what
is declared at its revision; the next upgrade and the next downgrade go through, change no value
of a column that stays, and an upgrade is undone by its downgrade. -/
theorem migrations_lose_nothing (h : Migrated d) (hlength : hash.length ≤ 255) :
    d.database.Valid ∧
    (d.version = some "0003_add_notifications" →
      ∃ t : Stamped, d.database = t.database ∧ Constraints t.tables) ∧
    (∃ d', d.upgrade (versions hash) = .ok d' ∧ KeptIn d.database d'.database ∧
      (d.version = some "0003_add_notifications" ∧ d' = d ∨
        ∀ hash', d'.downgrade (versions hash') = .ok d)) ∧
    ∃ d', d.downgrade (versions hash) = .ok d' ∧ KeptIn d'.database d.database := by
  have hd := h.deployed
  refine ⟨hd.valid, fun hversion => ?_, ?_, ?_⟩
  · cases hd with
    | new => cases hversion
    | initial _ => simp at hversion
    | hashed _ => simp at hversion
    | head hvalid =>
      obtain ⟨t, ht, hsound, _⟩ := head_valid_iff.mp hvalid
      exact ⟨t, ht.symm, hsound⟩
  · obtain ⟨d', heq, _, hkept, hback⟩ := hd.upgrades hlength
    exact ⟨d', heq, hkept, hback⟩
  · obtain ⟨d', heq, _, hkept⟩ := hd.downgrades hash
    exact ⟨d', heq, hkept⟩

/-- The tables of the samples. -/
def samplePlatform : Stamped := newPlatform.toTables.atEpoch

theorem newPlatform_fitColumns : newPlatform.toTables.FitColumns :=
  ⟨by decide, fun b hb => absurd hb List.not_mem_nil, fun n hn => absurd hn List.not_mem_nil⟩

theorem samplePlatform_valid : samplePlatform.database.Valid := by
  refine stamped_valid.mpr ?_
  rw [samplePlatform, tables_atEpoch]
  exact ⟨newPlatform.sound, newPlatform_fitColumns⟩

/-- Going back from the head with the samples, and forth with another hash. -/
theorem migrations_lose_nothing_samples :
    samplePlatform.database.Valid ∧
    (some "0003_add_notifications" = some "0003_add_notifications" →
      ∃ t : Stamped, samplePlatform.database = t.database ∧ Constraints t.tables) ∧
    (∃ d', Deployment.upgrade (versions "$2b$12$unusable")
        ⟨some "0003_add_notifications", samplePlatform.database⟩ = .ok d' ∧
      KeptIn samplePlatform.database d'.database ∧
      (some "0003_add_notifications" = some "0003_add_notifications" ∧
          d' = ⟨some "0003_add_notifications", samplePlatform.database⟩ ∨
        ∀ hash', d'.downgrade (versions hash') =
          .ok ⟨some "0003_add_notifications", samplePlatform.database⟩)) ∧
    ∃ d', Deployment.downgrade (versions "$2b$12$unusable")
        ⟨some "0003_add_notifications", samplePlatform.database⟩ = .ok d' ∧
      KeptIn d'.database samplePlatform.database :=
  migrations_lose_nothing (stamped_migrated samplePlatform_valid) (by decide)

end Runs

end BookingPlatform
