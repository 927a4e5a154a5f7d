import Mathlib.Data.List.Basic

namespace Catalog
variable {V : Type}

/-- A column as declared: its name, and its type and constraints. -/
structure Column where
  name : String
  declaration : String
  deriving DecidableEq, Repr

/-- A stored table: its columns and table constraints, and rows with a value for
each column. -/
structure Relation (V : Type) where
  columns : List Column
  constraints : List String
  rows : List (List V)
  width : ∀ row ∈ rows, row.length = columns.length

/-- An index: its table, and the columns with whether they are descending. -/
structure Index where
  table : String
  columns : List (String × Bool)
  deriving DecidableEq, Repr

/-- The tables and indexes of a database file, by name. -/
structure Database (V : Type) where
  table : String → Option (Relation V)
  index : String → Option Index

namespace Relation

def names (r : Relation V) : List String := r.columns.map Column.name

def create (columns : List Column) (constraints : List String) : Relation V where
  columns
  constraints
  rows := []
  width := fun _ member => nomatch member

theorem ext {r r' : Relation V} (columns : r.columns = r'.columns) (constraints : r.constraints = r'.constraints)
    (rows : r.rows = r'.rows) : r = r' := by
  cases r
  cases r'
  cases columns
  cases constraints
  cases rows
  rfl

/-- `ADD COLUMN`: a stored row gets `null` in it. -/
def addColumn (null : V) (column : Column) (r : Relation V) : Relation V where
  columns := r.columns ++ [column]
  constraints := r.constraints
  rows := r.rows.map (· ++ [null])
  width := fun row member => by
    obtain ⟨old, inTable, rfl⟩ := List.mem_map.mp member
    rw [List.length_append, List.length_append, r.width old inTable]
    rfl

@[simp] theorem addColumn_columns (null : V) (column : Column) (r : Relation V) :
    (r.addColumn null column).columns = r.columns ++ [column] := rfl

@[simp] theorem addColumn_rows (null : V) (column : Column) (r : Relation V) :
    (r.addColumn null column).rows = r.rows.map (· ++ [null]) := rfl

/-- The values of a named column. -/
def values (null : V) (column : String) (r : Relation V) : List V :=
  r.rows.map fun row => ((r.names.zip row).lookup column).getD null

/-- `INSERT INTO … (column) VALUES (value)` -/
def insert (null : V) (column : String) (value : V) (r : Relation V) : Relation V :=
  { r with
    rows := r.rows ++ [r.columns.map fun c => if c.name = column then value else null]
    width := fun row member => by
      rcases List.mem_append.mp member with old | new
      · exact r.width row old
      · rw [List.mem_singleton.mp new, List.length_map] }

/-- `UPDATE … SET column = value` -/
def update (column : String) (value : V) (r : Relation V) : Relation V :=
  { r with
    rows := r.rows.map fun row => List.zipWith (fun c v => if c.name = column then value else v) r.columns row
    width := fun row member => by
      obtain ⟨old, inTable, rfl⟩ := List.mem_map.mp member
      rw [List.length_zipWith, r.width old inTable, Nat.min_self] }

@[simp] theorem insert_rows (null : V) (column : String) (value : V) (r : Relation V) :
    (r.insert null column value).rows = r.rows ++ [r.columns.map fun c => if c.name = column then value else null] :=
  rfl

@[simp] theorem update_rows (column : String) (value : V) (r : Relation V) : (r.update column value).rows =
    r.rows.map fun row => List.zipWith (fun c v => if c.name = column then value else v) r.columns row := rfl

/-- All columns and all rows of the first are there in the second, the rows with
all their values, and with `null` in the columns that are new. -/
def Extends (null : V) (r r' : Relation V) : Prop :=
  ∃ new : List Column, r'.columns = r.columns ++ new ∧
    r'.rows = r.rows.map (· ++ List.replicate new.length null)

theorem Extends.refl (null : V) (r : Relation V) : r.Extends null r :=
  ⟨[], (List.append_nil _).symm, by simp⟩

theorem Extends.addColumn {null : V} {r r' : Relation V} (extend : r.Extends null r') (column : Column) :
    r.Extends null (r'.addColumn null column) := by
  obtain ⟨new, columns, rows⟩ := extend
  refine ⟨new ++ [column], ?_, ?_⟩
  · rw [addColumn_columns, columns, List.append_assoc]
  · rw [addColumn_rows, rows, List.map_map]
    refine List.map_congr_left fun row _ => ?_
    rw [Function.comp_apply, List.append_assoc, List.length_append, List.length_singleton, List.replicate_succ']

end Relation

namespace Database

theorem ext {db db' : Database V} (table : ∀ name, db.table name = db'.table name)
    (index : ∀ name, db.index name = db'.index name) : db = db' := by
  cases db
  cases db'
  cases funext table
  cases funext index
  rfl

/-- A file without any table. -/
def empty : Database V := ⟨fun _ => none, fun _ => none⟩

def setTable (name : String) (r : Relation V) (db : Database V) : Database V :=
  { db with table := fun other => if other = name then some r else db.table other }

@[simp] theorem table_setTable (name : String) (r : Relation V) (db : Database V) (other : String) :
    (db.setTable name r).table other = if other = name then some r else db.table other := rfl

theorem table_setTable_self (name : String) (r : Relation V) (db : Database V) :
    (db.setTable name r).table name = some r := if_pos rfl

theorem table_setTable_of_ne {name other : String} (different : other ≠ name) (r : Relation V) (db : Database V) :
    (db.setTable name r).table other = db.table other := if_neg different

/-- `CREATE TABLE IF NOT EXISTS` -/
def createTable (name : String) (columns : List Column) (constraints : List String) (db : Database V) :
    Option (Database V) :=
  if (db.table name).isSome then some db else some (db.setTable name (.create columns constraints))

/-- `CREATE INDEX IF NOT EXISTS`: the columns have to be there. -/
def createIndex (name : String) (index : Index) (db : Database V) : Option (Database V) :=
  if (db.index name).isSome then some db
  else match db.table index.table with
    | none => none
    | some r =>
      if index.columns.all fun c => r.names.contains c.1 then
        some { db with index := fun other => if other = name then some index else db.index other }
      else none

/-- `PRAGMA table_info`: the names of the columns, none for a missing table. -/
def columnNames (name : String) (db : Database V) : List String :=
  match db.table name with
  | none => []
  | some r => r.names

/-- `ALTER TABLE … ADD COLUMN`: the name must be new. -/
def addColumn (null : V) (name : String) (column : Column) (db : Database V) : Option (Database V) :=
  match db.table name with
  | none => none
  | some r => if column.name ∈ r.names then none else some (db.setTable name (r.addColumn null column))

/-- `SELECT column FROM name` -/
def select (null : V) (name column : String) (db : Database V) : Option (List V) :=
  match db.table name with
  | none => none
  | some r => if column ∈ r.names then some (r.values null column) else none

def insert (null : V) (name column : String) (value : V) (db : Database V) : Option (Database V) :=
  match db.table name with
  | none => none
  | some r => if column ∈ r.names then some (db.setTable name (r.insert null column value)) else none

def update (name column : String) (value : V) (db : Database V) : Option (Database V) :=
  match db.table name with
  | none => none
  | some r => if column ∈ r.names then some (db.setTable name (r.update column value)) else none

/-- All tables of the first are in the second as they are, and so are its indexes. -/
structure Includes (db db' : Database V) : Prop where
  table : ∀ name r, db.table name = some r → db'.table name = some r
  index : ∀ name, (db.index name).isSome → (db'.index name).isSome

theorem Includes.refl (db : Database V) : db.Includes db := ⟨fun _ _ => id, fun _ => id⟩

theorem Includes.trans {db db' db'' : Database V} (first : db.Includes db') (second : db'.Includes db'') :
    db.Includes db'' :=
  ⟨fun name r found => second.table name r (first.table name r found),
    fun name present => second.index name (first.index name present)⟩

section Statements
variable {db : Database V} {name : String} {r : Relation V}

theorem createTable_of_present {columns : List Column} {constraints : List String} (found : db.table name = some r) :
    db.createTable name columns constraints = some db := by
  rw [createTable, found]
  rfl

theorem createTable_of_absent {columns : List Column} {constraints : List String} (absent : db.table name = none) :
    db.createTable name columns constraints = some (db.setTable name (.create columns constraints)) := by
  rw [createTable, absent]
  rfl

theorem includes_setTable (absent : db.table name = none) (r : Relation V) : db.Includes (db.setTable name r) := by
  refine ⟨fun other r' found => ?_, fun _ => id⟩
  have different : other ≠ name := by
    intro same
    rw [same, absent] at found
    cases found
  rw [table_setTable_of_ne different, found]

/-- With its columns there the statement succeeds. -/
theorem createIndex_of_columns (name : String) {index : Index} (found : db.table index.table = some r)
    (covered : ∀ c ∈ index.columns, c.1 ∈ r.names) : ∃ db', db.createIndex name index = some db' ∧
      db'.table = db.table ∧ (db'.index name).isSome ∧ db.Includes db' := by
  unfold createIndex
  split
  · rename_i present
    exact ⟨db, rfl, rfl, present, .refl db⟩
  · rw [found]
    dsimp only
    rw [if_pos (List.all_eq_true.mpr fun c member => List.contains_iff_mem.mpr (covered c member))]
    refine ⟨_, rfl, rfl, ?_, fun _ _ => id, fun other present => ?_⟩
    · dsimp only
      rw [if_pos rfl]
      rfl
    · dsimp only
      split
      · rfl
      · exact present

theorem createIndex_of_present {index : Index} (present : (db.index name).isSome) :
    db.createIndex name index = some db := by
  rw [createIndex, if_pos present]

theorem addColumn_of_new {null : V} {column : Column} (found : db.table name = some r)
    (fresh : column.name ∉ r.names) :
    db.addColumn null name column = some (db.setTable name (r.addColumn null column)) := by
  rw [addColumn, found]
  exact if_neg fresh

end Statements

/-- The tables of the first that are named in the list are there in the second,
with all their rows. -/
def Keeps (null : V) (names : List String) (db db' : Database V) : Prop :=
  ∀ name ∈ names, ∀ r, db.table name = some r → ∃ r', db'.table name = some r' ∧ r.Extends null r'

namespace Keeps
variable {null : V} {names : List String} {db db' : Database V}

theorem refl (null : V) (names : List String) (db : Database V) : db.Keeps null names db :=
  fun _ _ r found => ⟨r, found, .refl null r⟩

theorem of_table (keeps : db.Keeps null names db') {db'' : Database V} (same : db''.table = db'.table) :
    db.Keeps null names db'' := by
  intro name member r found
  rw [same]
  exact keeps name member r found

/-- A table may be created, and changed in a way that extends what is there. -/
theorem setTable (keeps : db.Keeps null names db') {name : String} {r' : Relation V}
    (extend : name ∈ names → ∀ r, db.table name = some r → r.Extends null r') :
    db.Keeps null names (db'.setTable name r') := by
  intro other member r found
  rw [table_setTable]
  split
  · rename_i here
    subst here
    exact ⟨r', rfl, extend member r found⟩
  · exact keeps other member r found

theorem create (keeps : db.Keeps null names db') {name : String} (absent : db'.table name = none) (r' : Relation V) :
    db.Keeps null names (db'.setTable name r') := by
  refine keeps.setTable fun member r found => ?_
  obtain ⟨_, there, _⟩ := keeps name member r found
  rw [absent] at there
  cases there

theorem addColumn (keeps : db.Keeps null names db') {name : String} {r' : Relation V} (there : db'.table name = some r')
    (column : Column) : db.Keeps null names (db'.setTable name (r'.addColumn null column)) := by
  refine keeps.setTable fun member r found => ?_
  obtain ⟨_, there', extend⟩ := keeps name member r found
  cases Option.some.inj (there.symm.trans there')
  exact extend.addColumn column

end Keeps

end Database

end Catalog
