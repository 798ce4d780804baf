import Mathlib.Data.List.Forall2
import Mathlib.Data.List.Nodup

/-!
# Tables, their declared constraints, and the commands that change them

A database is a list of named tables, each with its schema, its indexes and its rows. A DDL
command raises when the database would refuse it, and otherwise rows that satisfied what was
declared satisfy what is declared afterwards.
-/

namespace Sql

set_option autoImplicit false

inductive Value where
  | null
  | uuid (id : BitVec 128)
  | text (s : String)
  | label (name : String)
  | integer (i : Int)
  | boolean (b : Bool)
  | timestamp (t : Int)
  deriving DecidableEq, Repr

inductive ColumnType where
  | uuid
  | string (length : Nat)
  | text
  | enum (name : String) (labels : List String)
  | integer
  | boolean
  | timestamptz
  deriving DecidableEq, Repr

def ColumnType.admits : ColumnType → Value → Bool
  | .uuid, .uuid _ => true
  | .string length, .text s => s.length ≤ length
  | .text, .text _ => true
  | .enum _ labels, .label name => name ∈ labels
  | .integer, .integer i => -2147483648 ≤ i ∧ i ≤ 2147483647
  | .boolean, .boolean _ => true
  | .timestamptz, .timestamp _ => true
  | _, _ => false

/-- The type that `CREATE TYPE` makes for the column. -/
def ColumnType.enumName : ColumnType → Option String
  | .enum name _ => some name
  | .uuid => none
  | .string _ => none
  | .text => none
  | .integer => none
  | .boolean => none
  | .timestamptz => none

structure Column where
  name : String
  type : ColumnType
  nullable : Bool
  deriving DecidableEq, Repr

/-- A row gives its columns their values, and NULL to every other name. -/
abbrev Row := String → Value

def Row.set (r : Row) (column : String) (v : Value) : Row := fun name =>
  if name = column then v else r name

@[simp] theorem Row.set_self (r : Row) (column : String) (v : Value) :
    r.set column v column = v := if_pos rfl

theorem Row.set_other (r : Row) {column name : String} (v : Value) (h : name ≠ column) :
    r.set column v name = r name := if_neg h

/-- The row with these values. -/
def Row.of (values : List (String × Value)) : Row := fun name =>
  (values.lookup name).getD .null

@[simp] theorem Row.of_nil (name : String) : Row.of [] name = .null := rfl

@[simp] theorem Row.of_cons (column : String) (v : Value) (values : List (String × Value))
    (name : String) :
    Row.of ((column, v) :: values) name = if name = column then v else Row.of values name := by
  unfold Row.of
  rw [List.lookup_cons]
  by_cases h : name = column
  · rw [if_pos h, h, beq_self_eq_true]
    rfl
  · rw [if_neg h, beq_eq_false_iff_ne.mpr h]

/-- The values of some columns, unless one of them is NULL. -/
def Row.key (r : Row) (columns : List String) : Option (List Value) :=
  if Value.null ∈ columns.map r then none else some (columns.map r)

theorem Row.key_set {r : Row} {column : String} {columns : List String} (v : Value)
    (h : column ∉ columns) : (r.set column v).key columns = r.key columns := by
  have hmap : columns.map (r.set column v) = columns.map r :=
    List.map_congr_left fun name hname => r.set_other v fun heq => h (heq ▸ hname)
  unfold Row.key
  rw [hmap]

section Conditions

inductive Operand where
  | column (name : String)
  | literal (i : Int)
  deriving DecidableEq, Repr

inductive Comparison where
  | gt
  | ge
  | le
  | ne
  deriving DecidableEq, Repr

inductive Condition where
  | compare (op : Comparison) (a b : Operand)
  | and (c d : Condition)
  deriving DecidableEq, Repr

def Operand.value (r : Row) : Operand → Value
  | .column name => r name
  | .literal i => .integer i

def Operand.names : Operand → List String
  | .column name => [name]
  | .literal _ => []

def Condition.names : Condition → List String
  | .compare _ a b => a.names ++ b.names
  | .and c d => c.names ++ d.names

/-- What the order of the values is read from, of numbers and timestamps. -/
def Value.rank : Value → Option Int
  | .integer i => some i
  | .timestamp t => some t
  | .null => none
  | .uuid _ => none
  | .text _ => none
  | .label _ => none
  | .boolean _ => none

def Comparison.holds (op : Comparison) (v w : Value) : Bool :=
  match op with
  | .gt => decide (∃ i ∈ w.rank, ∃ j ∈ v.rank, i < j)
  | .ge => decide (∃ i ∈ w.rank, ∃ j ∈ v.rank, i ≤ j)
  | .le => decide (∃ i ∈ v.rank, ∃ j ∈ w.rank, i ≤ j)
  | .ne => v ≠ w

/-- Unknown as soon as NULL is compared; a conjunction with a false side is false. -/
def Condition.eval (r : Row) : Condition → Option Bool
  | .compare op a b =>
    if a.value r = .null ∨ b.value r = .null then none
    else some (op.holds (a.value r) (b.value r))
  | .and c d =>
    if c.eval r = some false ∨ d.eval r = some false then some false
    else if c.eval r = some true ∧ d.eval r = some true then some true
    else none

theorem Condition.eval_set {r : Row} {column : String} {c : Condition} (v : Value)
    (h : column ∉ c.names) : c.eval (r.set column v) = c.eval r := by
  have hvalue : ∀ a : Operand, column ∉ a.names → a.value (r.set column v) = a.value r := by
    intro a ha
    cases a with
    | column name => exact r.set_other v fun heq => ha (heq ▸ List.mem_singleton.mpr rfl)
    | literal i => rfl
  induction c with
  | compare op a b =>
    have h := List.mem_append.not.mp h
    rw [not_or] at h
    unfold Condition.eval
    rw [hvalue a h.1, hvalue b h.2]
  | and c d ihc ihd =>
    have h := List.mem_append.not.mp h
    rw [not_or] at h
    unfold Condition.eval
    rw [ihc h.1, ihd h.2]

end Conditions

structure Unique where
  name : Option String
  columns : List String
  deriving DecidableEq, Repr

structure Check where
  name : String
  condition : Condition
  deriving DecidableEq, Repr

structure ForeignKey where
  columns : List String
  table : String
  references : List String
  deriving DecidableEq, Repr

structure Index where
  name : String
  columns : List String
  unique : Bool
  deriving DecidableEq, Repr

structure TableSchema where
  columns : List Column
  primaryKey : Option (List String)
  uniques : List Unique
  foreignKeys : List ForeignKey
  checks : List Check
  deriving DecidableEq, Repr

/-- A value of its type in every column, and no other. -/
structure Row.Fills (schema : TableSchema) (r : Row) : Prop where
  typed : ∀ c ∈ schema.columns,
    (r c.name = .null ∧ c.nullable = true) ∨ c.type.admits (r c.name) = true
  blank : ∀ name, (∀ c ∈ schema.columns, c.name ≠ name) → r name = .null

structure Table where
  schema : TableSchema
  indexes : List Index
  rows : List Row

structure Database where
  types : List String
  tables : List (String × Table)

section Validity

/-- As always in SQL, rows with a NULL in the key are never equal under it. -/
def Distinct (columns : List String) (rows : List Row) : Prop :=
  rows.Pairwise fun r r' => r.key columns = none ∨ r.key columns ≠ r'.key columns

instance (columns : List String) (rows : List Row) : Decidable (Distinct columns rows) :=
  inferInstanceAs (Decidable (rows.Pairwise _))

/-- The rows of a table satisfy what is declared of the table by itself. -/
structure Table.Sound (t : Table) : Prop where
  fills : ∀ r ∈ t.rows, r.Fills t.schema
  primary : ∀ columns ∈ t.schema.primaryKey, Distinct columns t.rows
  uniques : ∀ u ∈ t.schema.uniques, Distinct u.columns t.rows
  indexes : ∀ i ∈ t.indexes, i.unique = true → Distinct i.columns t.rows
  checks : ∀ c ∈ t.schema.checks, ∀ r ∈ t.rows, c.condition.eval r ≠ some false

/-- Some row of the table has this key. -/
def Database.Holds (db : Database) (table : String) (columns : List String) (k : List Value) :
    Prop :=
  ∃ t, (table, t) ∈ db.tables ∧ ∃ r ∈ t.rows, r.key columns = some k

/-- Every row satisfies what is declared of it. -/
structure Database.Valid (db : Database) : Prop where
  names : (db.tables.map Prod.fst).Nodup
  sound : ∀ name t, (name, t) ∈ db.tables → t.Sound
  foreign : ∀ name t, (name, t) ∈ db.tables → ∀ fk ∈ t.schema.foreignKeys, ∀ r ∈ t.rows,
    ∀ k, r.key fk.columns = some k → db.Holds fk.table fk.references k

theorem Table.sound_iff {schema : TableSchema} {indexes : List Index} {rows : List Row} :
    Table.Sound ⟨schema, indexes, rows⟩ ↔ (∀ r ∈ rows, r.Fills schema) ∧
      (∀ columns ∈ schema.primaryKey, Distinct columns rows) ∧
      (∀ u ∈ schema.uniques, Distinct u.columns rows) ∧
      (∀ i ∈ indexes, i.unique = true → Distinct i.columns rows) ∧
      ∀ c ∈ schema.checks, ∀ r ∈ rows, c.condition.eval r ≠ some false :=
  ⟨fun h => ⟨h.fills, h.primary, h.uniques, h.indexes, h.checks⟩,
    fun ⟨hfills, hprimary, huniques, hindexes, hchecks⟩ =>
      ⟨hfills, hprimary, huniques, hindexes, hchecks⟩⟩

theorem Database.valid_iff {db : Database} : db.Valid ↔ (db.tables.map Prod.fst).Nodup ∧
    (∀ p ∈ db.tables, p.2.Sound) ∧ ∀ p ∈ db.tables, ∀ fk ∈ p.2.schema.foreignKeys,
      ∀ r ∈ p.2.rows, ∀ k, r.key fk.columns = some k → db.Holds fk.table fk.references k :=
  ⟨fun h => ⟨h.names, fun p hp => h.sound p.1 p.2 hp, fun p hp => h.foreign p.1 p.2 hp⟩,
    fun ⟨hnames, hsound, hforeign⟩ =>
      ⟨hnames, fun name t ht => hsound (name, t) ht, fun name t ht => hforeign (name, t) ht⟩⟩

end Validity

section Filling
variable {schema : TableSchema} {r : Row} {values : List (String × Value)}

theorem Row.of_blank {name : String} (h : name ∉ values.map Prod.fst) :
    Row.of values name = .null := by
  unfold Row.of
  rw [List.lookup_eq_none_iff.mpr, Option.getD_none]
  intro p hp
  exact bne_iff_ne.mpr fun heq => h (heq ▸ List.mem_map_of_mem hp)

theorem Row.fills_of (hnames : schema.columns.map Column.name = values.map Prod.fst) :
    (Row.of values).Fills schema ↔ ∀ c ∈ schema.columns,
      (Row.of values c.name = .null ∧ c.nullable = true) ∨
        c.type.admits (Row.of values c.name) = true := by
  refine ⟨fun h => h.typed, fun htyped => ⟨htyped, fun name hname => Row.of_blank fun hmem => ?_⟩⟩
  rw [← hnames] at hmem
  obtain ⟨c, hc, heq⟩ := List.mem_map.mp hmem
  exact hname c hc heq

/-- There is no other row with these values. -/
theorem Row.Fills.eq (h : r.Fills schema)
    (hnames : schema.columns.map Column.name = values.map Prod.fst)
    (hvalues : ∀ p ∈ values, r p.1 = p.2) : r = Row.of values := by
  funext name
  by_cases hname : name ∈ values.map Prod.fst
  · have hlookup : ∀ v, values.lookup name = some v → r name = v := by
      intro v hv
      obtain ⟨l, l', rfl, _⟩ := List.lookup_eq_some_iff.mp hv
      exact hvalues (name, v) (by simp)
    unfold Row.of
    cases hv : values.lookup name with
    | some v => exact hlookup v hv
    | none =>
      obtain ⟨p, hp, rfl⟩ := List.mem_map.mp hname
      have hne := List.lookup_eq_none_iff.mp hv p hp
      simp at hne
  · rw [Row.of_blank hname]
    refine h.blank name fun c hc heq => hname ?_
    rw [← hnames]
    exact heq ▸ List.mem_map_of_mem hc

end Filling

section Commands

inductive Command where
  | createTable (name : String) (schema : TableSchema)
  | createIndex (table : String) (index : Index)
  | dropIndex (table name : String)
  | dropTable (name : String)
  | addColumn (table : String) (column : Column)
  | fillNulls (table column : String) (value : Value)
  | setNotNull (table column : String)
  | dropColumn (table column : String)
  | dropTypeIfExists (name : String)
  deriving DecidableEq, Repr

inductive Error where
  | duplicateTable
  | duplicateObject
  | duplicateColumn
  | undefinedTable
  | undefinedObject
  | undefinedColumn
  | dependentObjectsStillExist
  | uniqueViolation
  | notNullViolation
  | datatypeMismatch
  | unsupported
  deriving DecidableEq, Repr

def TableSchema.enumNames (s : TableSchema) : List String :=
  s.columns.filterMap fun c => c.type.enumName

/-- The columns that a constraint mentions. -/
def TableSchema.mentioned (s : TableSchema) : List String :=
  s.primaryKey.getD [] ++ s.uniques.flatMap Unique.columns ++
    s.foreignKeys.flatMap ForeignKey.columns ++ s.checks.flatMap fun c => c.condition.names

def TableSchema.dropColumn (s : TableSchema) (column : String) : TableSchema where
  columns := s.columns.filter fun c => c.name ≠ column
  primaryKey := s.primaryKey.filter fun columns => column ∉ columns
  uniques := s.uniques.filter fun u => column ∉ u.columns
  foreignKeys := s.foreignKeys.filter fun fk => column ∉ fk.columns
  checks := s.checks.filter fun c => column ∉ c.condition.names

namespace Table

def columnNames (t : Table) : List String := t.schema.columns.map Column.name

def addIndex (t : Table) (index : Index) : Table := { t with indexes := t.indexes ++ [index] }

def dropIndex (t : Table) (name : String) : Table :=
  { t with indexes := t.indexes.filter fun i => i.name ≠ name }

def addColumn (t : Table) (column : Column) : Table :=
  { t with schema := { t.schema with columns := t.schema.columns ++ [column] } }

/-- `UPDATE ... SET column = value WHERE column IS NULL`. -/
def fillNulls (t : Table) (column : String) (value : Value) : Table :=
  { t with rows := t.rows.map fun r => if r column = .null then r.set column value else r }

def setNotNull (t : Table) (column : String) : Table :=
  { t with schema := { t.schema with
      columns := t.schema.columns.map fun c =>
        if c.name = column then { c with nullable := false } else c } }

/-- A column goes with the constraints and the indexes that mention it. -/
def dropColumn (t : Table) (column : String) : Table where
  schema := t.schema.dropColumn column
  indexes := t.indexes.filter fun i => column ∉ i.columns
  rows := t.rows.map fun r => r.set column .null

end Table

namespace Database
variable (db : Database)

def names : List String := db.tables.map Prod.fst

def indexNames : List String := db.tables.flatMap fun p => p.2.indexes.map Index.name

/-- The columns of the table that foreign keys refer to. -/
def referenced (name : String) : List String :=
  db.tables.flatMap fun p =>
    (p.2.schema.foreignKeys.filter fun fk => fk.table = name).flatMap ForeignKey.references

def table? (name : String) : Option Table :=
  (db.tables.find? fun p => p.1 = name).map Prod.snd

def modify (name : String) (t' : Table) : Database :=
  { db with tables := db.tables.map fun p => if p.1 = name then (p.1, t') else p }

/-- `ALTER TABLE`, unless it is refused. -/
def alter (name : String) (refuse : Table → Option Error) (f : Table → Table) :
    Except Error Database :=
  match db.table? name with
  | none => .error .undefinedTable
  | some t =>
    match refuse t with
    | some e => .error e
    | none => .ok (db.modify name (f t))

end Database

/-- `if c: e`, else the next check. -/
def refuseIf (c : Prop) [Decidable c] (e : Error) (next : Option Error) : Option Error :=
  if c then some e else next

def Command.apply (db : Database) : Command → Except Error Database
  | .createTable name schema =>
    if ∃ type ∈ schema.enumNames, type ∈ db.types then .error .duplicateObject
    else if name ∈ db.names then .error .duplicateTable
    else if ∃ fk ∈ schema.foreignKeys, fk.table ∉ name :: db.names then .error .undefinedTable
    else .ok ⟨db.types ++ schema.enumNames, db.tables ++ [(name, ⟨schema, [], []⟩)]⟩
  | .createIndex table index =>
    db.alter table (fun t =>
      refuseIf (index.name ∈ db.indexNames) .duplicateObject <|
      refuseIf (∃ column ∈ index.columns, column ∉ t.columnNames) .undefinedColumn <|
      refuseIf (index.unique = true ∧ ¬ Distinct index.columns t.rows) .uniqueViolation none)
      fun t => t.addIndex index
  | .dropIndex table name =>
    db.alter table (fun t =>
      refuseIf (name ∉ t.indexes.map Index.name) .undefinedObject none)
      fun t => t.dropIndex name
  | .dropTable name =>
    if name ∉ db.names then .error .undefinedTable
    else if ∃ p ∈ db.tables, ∃ fk ∈ p.2.schema.foreignKeys, fk.table = name then
      .error .dependentObjectsStillExist
    else .ok { db with tables := db.tables.filter fun p => p.1 ≠ name }
  | .addColumn table column =>
    db.alter table (fun t =>
      refuseIf (column.name ∈ t.columnNames) .duplicateColumn <|
      refuseIf (column.nullable = false ∧ t.rows ≠ []) .notNullViolation none)
      fun t => t.addColumn column
  -- Of a column under a constraint the update is not modelled.
  | .fillNulls table column value =>
    db.alter table (fun t =>
      refuseIf (column ∉ t.columnNames) .undefinedColumn <|
      refuseIf (∃ c ∈ t.schema.columns, c.name = column ∧ c.type.admits value = false)
        .datatypeMismatch <|
      refuseIf (column ∈ t.schema.mentioned ++ t.indexes.flatMap Index.columns ++
        db.referenced table) .unsupported none)
      fun t => t.fillNulls column value
  | .setNotNull table column =>
    db.alter table (fun t =>
      refuseIf (column ∉ t.columnNames) .undefinedColumn <|
      refuseIf (∃ r ∈ t.rows, r column = .null) .notNullViolation none)
      fun t => t.setNotNull column
  | .dropColumn table column =>
    db.alter table (fun t =>
      refuseIf (column ∉ t.columnNames) .undefinedColumn <|
      refuseIf (column ∈ db.referenced table) .dependentObjectsStillExist none)
      fun t => t.dropColumn column
  | .dropTypeIfExists name =>
    if ∃ p ∈ db.tables, name ∈ p.2.schema.enumNames then .error .dependentObjectsStillExist
    else .ok { db with types := db.types.filter fun type => type ≠ name }

/-- One command after the other; the first that raises ends the migration. -/
def runAll : List Command → Database → Except Error Database
  | [], db => .ok db
  | c :: cs, db =>
    match c.apply db with
    | .ok db' => runAll cs db'
    | .error e => .error e

theorem runAll_append (cs ds : List Command) (db : Database) :
    runAll (cs ++ ds) db = runAll cs db >>= runAll ds := by
  induction cs generalizing db with
  | nil => rfl
  | cons c cs ih =>
    simp only [List.cons_append, runAll]
    cases c.apply db with
    | error e => rfl
    | ok db' => exact ih db'

end Commands

section Soundness
variable {db db' : Database} {name : String} {t t' : Table}

theorem distinct_map {columns : List String} {rows : List Row} {f : Row → Row}
    (h : Distinct columns rows) (hf : ∀ r, (f r).key columns = r.key columns) :
    Distinct columns (rows.map f) := by
  refine List.pairwise_map.mpr (h.imp fun {r r'} hr => ?_)
  rwa [hf, hf]

theorem table?_mem (h : db.table? name = some t) : (name, t) ∈ db.tables := by
  obtain ⟨p, hp, rfl⟩ := Option.map_eq_some_iff.mp h
  have hname : p.1 = name := by simpa using List.find?_some hp
  exact hname ▸ List.mem_of_find?_eq_some hp

theorem Database.Valid.unique (hdb : db.Valid) (h : (name, t) ∈ db.tables)
    (h' : (name, t') ∈ db.tables) : t = t' :=
  congrArg Prod.snd (List.inj_on_of_nodup_map hdb.names h h' rfl)

theorem mem_modify {n : String} {u : Table} (h : (n, u) ∈ (db.modify name t').tables) :
    (n = name ∧ u = t') ∨ (n ≠ name ∧ (n, u) ∈ db.tables) := by
  obtain ⟨p, hp, heq⟩ := List.mem_map.mp h
  by_cases hname : p.1 = name
  · rw [if_pos hname] at heq
    cases heq
    exact .inl ⟨hname, rfl⟩
  · rw [if_neg hname] at heq
    subst heq
    exact .inr ⟨hname, hp⟩

theorem modify_self (ht : (name, t) ∈ db.tables) : (name, t') ∈ (db.modify name t').tables := by
  refine List.mem_map.mpr ⟨(name, t), ht, ?_⟩
  exact if_pos rfl

theorem modify_other {n : String} {u : Table} (hn : n ≠ name) (hu : (n, u) ∈ db.tables) :
    (n, u) ∈ (db.modify name t').tables := by
  refine List.mem_map.mpr ⟨(n, u), hu, ?_⟩
  exact if_neg hn

theorem modify_names : ((db.modify name t').tables.map Prod.fst) = db.tables.map Prod.fst := by
  unfold Database.modify
  rw [List.map_map]
  refine List.map_congr_left fun p _ => ?_
  simp only [Function.comp]
  split
  · rfl
  · rfl

/-- A table may be changed when what is declared of it is kept, none of its foreign keys is new,
and no key goes that another table refers to. -/
theorem valid_modify (hdb : db.Valid) (ht : (name, t) ∈ db.tables) (hsound : t'.Sound)
    (hforeign : ∀ fk ∈ t'.schema.foreignKeys, fk ∈ t.schema.foreignKeys ∧
      ∀ r' ∈ t'.rows, ∃ r ∈ t.rows, r.key fk.columns = r'.key fk.columns)
    (hkeys : ∀ n u, (n, u) ∈ db.tables → ∀ fk ∈ u.schema.foreignKeys, fk.table = name →
      ∀ r ∈ t.rows, ∃ r' ∈ t'.rows, r'.key fk.references = r.key fk.references) :
    (db.modify name t').Valid := by
  have holds : ∀ n u, (n, u) ∈ db.tables → ∀ fk ∈ u.schema.foreignKeys, ∀ k,
      db.Holds fk.table fk.references k → (db.modify name t').Holds fk.table fk.references k := by
    rintro n u hu fk hfk k ⟨v, hv, r, hr, hkey⟩
    by_cases hname : fk.table = name
    · obtain rfl : v = t := hdb.unique (hname ▸ hv) ht
      obtain ⟨r', hr', hsame⟩ := hkeys n u hu fk hfk hname r hr
      refine ⟨t', ?_, r', hr', hsame.trans hkey⟩
      rw [hname]
      exact modify_self ht
    · exact ⟨v, modify_other hname hv, r, hr, hkey⟩
  refine ⟨?_, fun n u hu => ?_, fun n u hu fk hfk r hr k hkey => ?_⟩
  · rw [modify_names]
    exact hdb.names
  · rcases mem_modify hu with ⟨_, rfl⟩ | ⟨_, hu⟩
    · exact hsound
    · exact hdb.sound n u hu
  · rcases mem_modify hu with ⟨_, rfl⟩ | ⟨_, hu⟩
    · obtain ⟨hfk', hrows⟩ := hforeign fk hfk
      obtain ⟨r₀, hr₀, hsame⟩ := hrows r hr
      exact holds name t ht fk hfk' k (hdb.foreign name t ht fk hfk' r₀ hr₀ k (hsame.trans hkey))
    · exact holds n u hu fk hfk k (hdb.foreign n u hu fk hfk r hr k hkey)

/-- In particular while its rows stay. -/
theorem valid_modify_rows (hdb : db.Valid) (ht : (name, t) ∈ db.tables) (hsound : t'.Sound)
    (hrows : t'.rows = t.rows)
    (hforeign : ∀ fk ∈ t'.schema.foreignKeys, fk ∈ t.schema.foreignKeys) :
    (db.modify name t').Valid := by
  refine valid_modify hdb ht hsound (fun fk hfk => ⟨hforeign fk hfk, fun r hr => ?_⟩) ?_
  · exact ⟨r, hrows ▸ hr, rfl⟩
  · exact fun _ _ _ _ _ _ r hr => ⟨r, hrows ▸ hr, rfl⟩

theorem alter_ok {refuse : Table → Option Error} {f : Table → Table}
    (h : db.alter name refuse f = .ok db') :
    ∃ t, (name, t) ∈ db.tables ∧ refuse t = none ∧ db' = db.modify name (f t) := by
  unfold Database.alter at h
  split at h
  · cases h
  · rename_i t ht
    split at h
    · cases h
    · cases h
      exact ⟨t, table?_mem ht, ‹_›, rfl⟩

theorem refuseIf_none {c : Prop} [Decidable c] {e : Error} {next : Option Error} :
    refuseIf c e next = none ↔ ¬ c ∧ next = none := by
  unfold refuseIf
  by_cases hc : c
  · simp [hc]
  · simp [hc]

theorem sound_addIndex (ht : t.Sound) {index : Index}
    (h : ¬ (index.unique = true ∧ ¬ Distinct index.columns t.rows)) : (t.addIndex index).Sound :=
  { ht with
    indexes := by
      intro i hi hunique
      rcases List.mem_append.mp hi with hi | hi
      · exact ht.indexes i hi hunique
      · obtain rfl := List.mem_singleton.mp hi
        by_contra hnot
        exact h ⟨hunique, hnot⟩ }

theorem sound_dropIndex (ht : t.Sound) (index : String) : (t.dropIndex index).Sound :=
  { ht with
    indexes := fun i hi => ht.indexes i (List.mem_of_mem_filter hi) }

theorem sound_addColumn (ht : t.Sound) {column : Column} (hnew : column.name ∉ t.columnNames)
    (hnull : ¬ (column.nullable = false ∧ t.rows ≠ [])) : (t.addColumn column).Sound :=
  { ht with
    fills := by
      intro r hr
      refine ⟨fun c hc => ?_, fun name hname => ?_⟩
      · rcases List.mem_append.mp hc with hc | hc
        · exact (ht.fills r hr).typed c hc
        · obtain rfl := List.mem_singleton.mp hc
          refine .inl ⟨(ht.fills r hr).blank c.name fun x hx heq => hnew ?_, ?_⟩
          · exact List.mem_map.mpr ⟨x, hx, heq⟩
          · by_contra hnot
            exact hnull ⟨Bool.eq_false_iff.mpr hnot, List.ne_nil_of_mem hr⟩
      · exact (ht.fills r hr).blank name fun c hc => hname c (List.mem_append_left _ hc) }

theorem sound_setNotNull (ht : t.Sound) {column : String}
    (h : ¬ ∃ r ∈ t.rows, r column = .null) : (t.setNotNull column).Sound :=
  { ht with
    fills := by
      intro r hr
      refine ⟨fun c hc => ?_, fun name hname => (ht.fills r hr).blank name fun c hc => ?_⟩
      · obtain ⟨x, hx, rfl⟩ := List.mem_map.mp hc
        by_cases hname : x.name = column
        · rw [if_pos hname]
          rcases (ht.fills r hr).typed x hx with ⟨hnull, _⟩ | htyped
          · exact absurd ⟨r, hr, hname ▸ hnull⟩ h
          · exact .inr htyped
        · rw [if_neg hname]
          exact (ht.fills r hr).typed x hx
      · have hc' := hname _ (List.mem_map_of_mem hc)
        split at hc'
        · exact hc'
        · exact hc' }

/-- The values of other columns do not change. -/
theorem key_fill {r : Row} {column : String} {columns : List String} {value : Value}
    (h : column ∉ columns) :
    (if r column = .null then r.set column value else r).key columns = r.key columns := by
  split
  · exact Row.key_set value h
  · rfl

theorem sound_fillNulls (ht : t.Sound) {column : String} {value : Value}
    (hcolumn : column ∈ t.columnNames)
    (htyped : ¬ ∃ c ∈ t.schema.columns, c.name = column ∧ c.type.admits value = false)
    (hfree : column ∉ t.schema.mentioned ++ t.indexes.flatMap Index.columns) :
    (t.fillNulls column value).Sound := by
  have hfree' : ∀ {columns : List String}, (∀ name ∈ columns,
      name ∈ t.schema.mentioned ++ t.indexes.flatMap Index.columns) → column ∉ columns :=
    fun hsub hmem => hfree (hsub column hmem)
  have hdistinct : ∀ columns : List String, (∀ name ∈ columns,
      name ∈ t.schema.mentioned ++ t.indexes.flatMap Index.columns) → Distinct columns t.rows →
      Distinct columns (t.fillNulls column value).rows :=
    fun columns hsub h => distinct_map h fun r => key_fill (hfree' hsub)
  have hrows : ∀ r' ∈ (t.fillNulls column value).rows, ∃ r ∈ t.rows,
      r' = if r column = .null then r.set column value else r := by
    intro r' hr'
    obtain ⟨r, hr, rfl⟩ := List.mem_map.mp hr'
    exact ⟨r, hr, rfl⟩
  refine ⟨fun r' hr' => ⟨fun c hc => ?_, fun name hname => ?_⟩, fun columns hcolumns => ?_,
    fun u hu => ?_, fun i hi hunique => ?_, fun c hc r' hr' => ?_⟩
  · obtain ⟨r, hr, rfl⟩ := hrows r' hr'
    by_cases hname : c.name = column
    · split
      · rw [hname, Row.set_self]
        refine .inr (by_contra fun hnot => htyped ⟨c, hc, hname, ?_⟩)
        exact Bool.eq_false_iff.mpr hnot
      · exact (ht.fills r hr).typed c hc
    · split
      · rw [Row.set_other _ _ hname]
        exact (ht.fills r hr).typed c hc
      · exact (ht.fills r hr).typed c hc
  · obtain ⟨r, hr, rfl⟩ := hrows r' hr'
    have hother : name ≠ column := by
      rintro rfl
      obtain ⟨c, hc, heq⟩ := List.mem_map.mp hcolumn
      exact hname c hc heq
    split
    · rw [Row.set_other _ _ hother]
      exact (ht.fills r hr).blank name hname
    · exact (ht.fills r hr).blank name hname
  · refine hdistinct columns (fun name hn => ?_) (ht.primary columns hcolumns)
    have hkey : t.schema.primaryKey = some columns := hcolumns
    have hget : t.schema.primaryKey.getD [] = columns := by rw [hkey, Option.getD_some]
    simp only [TableSchema.mentioned, hget, List.mem_append, hn, true_or]
  · refine hdistinct u.columns (fun name hn => ?_) (ht.uniques u hu)
    have hmem : name ∈ t.schema.uniques.flatMap Unique.columns := List.mem_flatMap.mpr ⟨u, hu, hn⟩
    simp only [TableSchema.mentioned, List.mem_append, hmem, true_or, or_true]
  · refine hdistinct i.columns (fun name hn => ?_) (ht.indexes i hi hunique)
    exact List.mem_append_right _ (List.mem_flatMap.mpr ⟨i, hi, hn⟩)
  · obtain ⟨r, hr, rfl⟩ := hrows r' hr'
    split
    · rw [Condition.eval_set]
      · exact ht.checks c hc r hr
      · refine hfree' fun name hn => ?_
        have hmem : name ∈ t.schema.checks.flatMap fun c => c.condition.names :=
          List.mem_flatMap.mpr ⟨c, hc, hn⟩
        simp only [TableSchema.mentioned, List.mem_append, hmem, true_or, or_true]
    · exact ht.checks c hc r hr

theorem sound_dropColumn (ht : t.Sound) (column : String) : (t.dropColumn column).Sound := by
  have hdistinct : ∀ columns : List String, column ∉ columns → Distinct columns t.rows →
      Distinct columns (t.dropColumn column).rows :=
    fun columns hcolumn h => distinct_map h fun r => Row.key_set _ hcolumn
  refine ⟨fun r' hr' => ⟨fun c hc => ?_, fun name hname => ?_⟩, fun columns hcolumns => ?_,
    fun u hu => ?_, fun i hi hunique => ?_, fun c hc r' hr' => ?_⟩
  · obtain ⟨r, hr, rfl⟩ := List.mem_map.mp hr'
    obtain ⟨hc, hother⟩ := List.mem_filter.mp hc
    rw [Row.set_other _ _ (of_decide_eq_true hother)]
    exact (ht.fills r hr).typed c hc
  · obtain ⟨r, hr, rfl⟩ := List.mem_map.mp hr'
    by_cases hcolumn : name = column
    · rw [hcolumn, Row.set_self]
    · rw [Row.set_other _ _ hcolumn]
      refine (ht.fills r hr).blank name fun c hc heq => hname c ?_ heq
      exact List.mem_filter.mpr ⟨hc, decide_eq_true (heq ▸ hcolumn)⟩
  · obtain ⟨hmem, hcolumn⟩ := Option.mem_filter_iff.mp hcolumns
    exact hdistinct columns (of_decide_eq_true hcolumn) (ht.primary columns hmem)
  · obtain ⟨hu, hcolumn⟩ := List.mem_filter.mp hu
    exact hdistinct u.columns (of_decide_eq_true hcolumn) (ht.uniques u hu)
  · obtain ⟨hi, hcolumn⟩ := List.mem_filter.mp hi
    exact hdistinct i.columns (of_decide_eq_true hcolumn) (ht.indexes i hi hunique)
  · obtain ⟨r, hr, rfl⟩ := List.mem_map.mp hr'
    obtain ⟨hc, hcolumn⟩ := List.mem_filter.mp hc
    rw [Condition.eval_set _ (of_decide_eq_true hcolumn)]
    exact ht.checks c hc r hr

theorem not_referenced {column : String} {n : String} {u : Table} (hu : (n, u) ∈ db.tables)
    {fk : ForeignKey} (hfk : fk ∈ u.schema.foreignKeys) (htable : fk.table = name)
    (h : column ∉ db.referenced name) : column ∉ fk.references := by
  intro hcolumn
  refine h (List.mem_flatMap.mpr ⟨(n, u), hu, List.mem_flatMap.mpr ⟨fk, ?_, hcolumn⟩⟩)
  exact List.mem_filter.mpr ⟨hfk, decide_eq_true htable⟩

/-- A table that appears empty, and one that goes while nothing refers to it. -/
theorem valid_createTable (hdb : db.Valid) {schema : TableSchema} (hnew : name ∉ db.names)
    (types : List String) :
    Database.Valid ⟨types, db.tables ++ [(name, ⟨schema, [], []⟩)]⟩ := by
  have hnil : ∀ {P : Row → Prop}, ∀ r ∈ ([] : List Row), P r := fun r hr =>
    absurd hr List.not_mem_nil
  refine ⟨?_, fun n u hu => ?_, fun n u hu fk hfk r hr k hkey => ?_⟩
  · rw [List.map_append, List.nodup_append]
    refine ⟨hdb.names, List.nodup_singleton _, fun a ha b hb heq => hnew ?_⟩
    obtain rfl : b = name := List.mem_singleton.mp hb
    exact heq ▸ ha
  · rcases List.mem_append.mp hu with hu | hu
    · exact hdb.sound n u hu
    · cases List.mem_singleton.mp hu
      exact ⟨hnil, fun _ _ => List.Pairwise.nil, fun _ _ => List.Pairwise.nil,
        fun i hi => absurd hi List.not_mem_nil, fun _ _ => hnil⟩
  · rcases List.mem_append.mp hu with hu | hu
    · obtain ⟨v, hv, hholds⟩ := hdb.foreign n u hu fk hfk r hr k hkey
      exact ⟨v, List.mem_append_left _ hv, hholds⟩
    · cases List.mem_singleton.mp hu
      exact absurd hr List.not_mem_nil

theorem valid_dropTable (hdb : db.Valid)
    (hfree : ¬ ∃ p ∈ db.tables, ∃ fk ∈ p.2.schema.foreignKeys, fk.table = name) :
    Database.Valid { db with tables := db.tables.filter fun p => p.1 ≠ name } := by
  refine ⟨?_, fun n u hu => ?_, fun n u hu fk hfk r hr k hkey => ?_⟩
  · exact hdb.names.sublist (List.filter_sublist.map _)
  · exact hdb.sound n u (List.mem_of_mem_filter hu)
  · have hu := List.mem_of_mem_filter hu
    obtain ⟨v, hv, hholds⟩ := hdb.foreign n u hu fk hfk r hr k hkey
    refine ⟨v, List.mem_filter.mpr ⟨hv, decide_eq_true fun htable => hfree ?_⟩, hholds⟩
    exact ⟨(n, u), hu, fk, hfk, htable⟩

/-- No command that goes through leaves a row that breaks what is declared. -/
theorem apply_valid (hdb : db.Valid) {c : Command} (h : c.apply db = .ok db') : db'.Valid := by
  cases c with
  | createTable name schema =>
    simp only [Command.apply] at h
    split at h
    · cases h
    split at h
    · cases h
    split at h
    · cases h
    cases h
    exact valid_createTable hdb ‹_› _
  | createIndex table index =>
    obtain ⟨t, ht, hrefuse, rfl⟩ := alter_ok h
    simp only [refuseIf_none] at hrefuse
    exact valid_modify_rows hdb ht (sound_addIndex (hdb.sound _ t ht) hrefuse.2.2.1) rfl
      fun fk hfk => hfk
  | dropIndex table index =>
    obtain ⟨t, ht, _, rfl⟩ := alter_ok h
    exact valid_modify_rows hdb ht (sound_dropIndex (hdb.sound _ t ht) index) rfl
      fun fk hfk => hfk
  | dropTable name =>
    simp only [Command.apply] at h
    split at h
    · cases h
    split at h
    · cases h
    cases h
    exact valid_dropTable hdb ‹_›
  | addColumn table column =>
    obtain ⟨t, ht, hrefuse, rfl⟩ := alter_ok h
    simp only [refuseIf_none] at hrefuse
    exact valid_modify_rows hdb ht (sound_addColumn (hdb.sound _ t ht) hrefuse.1 hrefuse.2.1) rfl
      fun fk hfk => hfk
  | fillNulls table column value =>
    obtain ⟨t, ht, hrefuse, rfl⟩ := alter_ok h
    simp only [refuseIf_none, List.mem_append, not_or] at hrefuse
    obtain ⟨hcolumn, htyped, ⟨⟨hfree, hindex⟩, href⟩, _⟩ := hrefuse
    have hnot : column ∉ t.schema.mentioned ++ t.indexes.flatMap Index.columns := fun hmem =>
      (List.mem_append.mp hmem).elim hfree hindex
    have hcolumn := not_not.mp hcolumn
    refine valid_modify hdb ht (sound_fillNulls (hdb.sound _ t ht) hcolumn htyped hnot) ?_ ?_
    · refine fun fk hfk => ⟨hfk, fun r' hr' => ?_⟩
      obtain ⟨r, hr, rfl⟩ := List.mem_map.mp hr'
      refine ⟨r, hr, (key_fill fun hmem => hfree ?_).symm⟩
      have hmem : column ∈ t.schema.foreignKeys.flatMap ForeignKey.columns :=
        List.mem_flatMap.mpr ⟨fk, hfk, hmem⟩
      simp only [TableSchema.mentioned, List.mem_append, hmem, true_or, or_true]
    · intro n u hu fk hfk htable r hr
      exact ⟨_, List.mem_map_of_mem hr, key_fill (not_referenced hu hfk htable href)⟩
  | setNotNull table column =>
    obtain ⟨t, ht, hrefuse, rfl⟩ := alter_ok h
    simp only [refuseIf_none] at hrefuse
    exact valid_modify_rows hdb ht (sound_setNotNull (hdb.sound _ t ht) hrefuse.2.1) rfl
      fun fk hfk => hfk
  | dropColumn table column =>
    obtain ⟨t, ht, hrefuse, rfl⟩ := alter_ok h
    simp only [refuseIf_none] at hrefuse
    refine valid_modify hdb ht (sound_dropColumn (hdb.sound _ t ht) column) ?_ ?_
    · intro fk hfk
      obtain ⟨hfk, hcolumn⟩ := List.mem_filter.mp hfk
      refine ⟨hfk, fun r' hr' => ?_⟩
      obtain ⟨r, hr, rfl⟩ := List.mem_map.mp hr'
      exact ⟨r, hr, (Row.key_set _ (of_decide_eq_true hcolumn)).symm⟩
    · intro n u hu fk hfk htable r hr
      exact ⟨_, List.mem_map_of_mem hr,
        Row.key_set _ (not_referenced hu hfk htable hrefuse.2.1)⟩
  | dropTypeIfExists name =>
    simp only [Command.apply] at h
    split at h
    · cases h
    cases h
    exact ⟨hdb.names, hdb.sound, hdb.foreign⟩

theorem runAll_valid {cs : List Command} (hdb : db.Valid) (h : runAll cs db = .ok db') :
    db'.Valid := by
  induction cs generalizing db with
  | nil =>
    cases h
    exact hdb
  | cons c cs ih =>
    simp only [runAll] at h
    split at h
    · exact ih (apply_valid hdb ‹_›) h
    · cases h

end Soundness

section Demands

/-- The columns under which rows have to be distinct, however that is declared. -/
def Table.distinctKeys (t : Table) : List (List String) :=
  t.schema.primaryKey.toList ++ t.schema.uniques.map Unique.columns ++
    (t.indexes.filter fun i => i.unique).map Index.columns

/-- The same rows, and the same demanded of them. -/
structure SameDemands (t t' : Table) : Prop where
  rows : t.rows = t'.rows
  columns : ∀ c, c ∈ t.schema.columns ↔ c ∈ t'.schema.columns
  keys : ∀ k, k ∈ t.distinctKeys ↔ k ∈ t'.distinctKeys
  checks : ∀ c, c ∈ t.schema.checks ↔ c ∈ t'.schema.checks
  foreignKeys : ∀ fk, fk ∈ t.schema.foreignKeys ↔ fk ∈ t'.schema.foreignKeys

variable {t t' : Table} {db db' : Database}

theorem SameDemands.symm (h : SameDemands t t') : SameDemands t' t :=
  ⟨h.rows.symm, fun c => (h.columns c).symm, fun k => (h.keys k).symm,
    fun c => (h.checks c).symm, fun fk => (h.foreignKeys fk).symm⟩

theorem Table.Sound.distinct (h : t.Sound) {k : List String} (hk : k ∈ t.distinctKeys) :
    Distinct k t.rows := by
  simp only [Table.distinctKeys, List.mem_append, Option.mem_toList, List.mem_map,
    List.mem_filter] at hk
  rcases hk with (hk | ⟨u, hu, rfl⟩) | ⟨i, ⟨hi, hunique⟩, rfl⟩
  · exact h.primary k hk
  · exact h.uniques u hu
  · exact h.indexes i hi hunique

theorem SameDemands.sound (h : SameDemands t t') (ht : t.Sound) : t'.Sound := by
  have hdistinct : ∀ k ∈ t'.distinctKeys, Distinct k t'.rows := fun k hk =>
    h.rows ▸ ht.distinct ((h.keys k).mpr hk)
  refine ⟨fun r hr => ?_, fun k hk => hdistinct k ?_, fun u hu => hdistinct _ ?_,
    fun i hi hunique => hdistinct _ ?_, fun c hc r hr => ?_⟩
  · rw [← h.rows] at hr
    refine ⟨fun c hc => (ht.fills r hr).typed c ((h.columns c).mpr hc), fun name hname => ?_⟩
    exact (ht.fills r hr).blank name fun c hc => hname c ((h.columns c).mp hc)
  · exact List.mem_append_left _ (List.mem_append_left _ (Option.mem_toList.mpr hk))
  · exact List.mem_append_left _ (List.mem_append_right _ (List.mem_map_of_mem hu))
  · exact List.mem_append_right _ (List.mem_map_of_mem (List.mem_filter.mpr ⟨hi, hunique⟩))
  · exact ht.checks c ((h.checks c).mpr hc) r (h.rows ▸ hr)

/-- The tables in the same order under the same names. -/
def Demanded (db db' : Database) : Prop :=
  List.Forall₂ (fun p p' => p.1 = p'.1 ∧ SameDemands p.2 p'.2) db.tables db'.tables

theorem Demanded.symm (h : Demanded db db') : Demanded db' db :=
  List.Forall₂.flip (h.imp fun _ _ hp => ⟨hp.1.symm, hp.2.symm⟩)

theorem Demanded.mem (h : Demanded db db') {name : String} (ht : (name, t) ∈ db.tables) :
    ∃ t', (name, t') ∈ db'.tables ∧ SameDemands t t' := by
  obtain ⟨types, tables⟩ := db
  obtain ⟨types', tables'⟩ := db'
  unfold Demanded at h
  dsimp only at h ht ⊢
  induction h with
  | nil => exact absurd ht List.not_mem_nil
  | @cons p p' _ _ hp _ ih =>
    rcases List.mem_cons.mp ht with rfl | ht
    · obtain ⟨hname, hsame⟩ := hp
      refine ⟨p'.2, ?_, hsame⟩
      rw [show name = p'.1 from hname]
      exact List.mem_cons_self
    · obtain ⟨t', ht', hsame⟩ := ih ht
      exact ⟨t', List.mem_cons_of_mem _ ht', hsame⟩

theorem Demanded.names (h : Demanded db db') :
    db.tables.map Prod.fst = db'.tables.map Prod.fst := by
  obtain ⟨types, tables⟩ := db
  obtain ⟨types', tables'⟩ := db'
  unfold Demanded at h
  dsimp only at h ⊢
  induction h with
  | nil => rfl
  | cons hp _ ih => rw [List.map_cons, List.map_cons, hp.1, ih]

theorem Demanded.valid (h : Demanded db db') (hdb : db.Valid) : db'.Valid := by
  refine ⟨h.names ▸ hdb.names, fun name t' ht' => ?_, fun name t' ht' fk hfk r hr k hkey => ?_⟩
  · obtain ⟨t, ht, hsame⟩ := h.symm.mem ht'
    exact hsame.symm.sound (hdb.sound name t ht)
  · obtain ⟨t, ht, hsame⟩ := h.symm.mem ht'
    obtain ⟨u, hu, hholds⟩ := hdb.foreign name t ht fk ((hsame.foreignKeys fk).mp hfk) r
      (hsame.rows ▸ hr) k hkey
    obtain ⟨u', hu', hsame'⟩ := h.mem hu
    exact ⟨u', hu', hsame'.rows ▸ hholds⟩

theorem Demanded.valid_iff (h : Demanded db db') : db.Valid ↔ db'.Valid :=
  ⟨h.valid, h.symm.valid⟩

end Demands

end Sql
