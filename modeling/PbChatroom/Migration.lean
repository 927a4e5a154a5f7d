import PbChatroom.Store.Bootstrap

namespace PbChatroom
open Catalog Transactional

/-- What the tables can look like while they are migrated. -/
def Shape : String → Relation Value → Prop
  | "threads", r => ∃ added, added <+: addedColumns ∧ r.columns = threadsColumns ++ added
  | "messages", r => r.columns = messagesColumns
  | "thread_recipients", r => r.columns = recipientsColumns
  | "schema_version", r => r.columns = versionColumns ∧ (r.rows = [] ∨ ∃ version, r.rows = [[.integer version]])
  | _, _ => True

/-- The tables with the rows of the API. -/
def dataTables : List String := ["threads", "messages", "thread_recipients"]

/-- What a migration that began with `start` may leave where it is stopped. -/
structure Stage (start db : DbFile) : Prop where
  shape : ∀ name r, db.table name = some r → Shape name r
  keeps : start.Keeps .null dataTables db

/-- `_DDL` has been executed. -/
structure Based (db : DbFile) : Prop where
  threads : ∃ r, db.table "threads" = some r
  messages : ∃ r, db.table "messages" = some r
  byThread : (db.index "idx_messages_thread_created").isSome
  byStatus : (db.index "idx_threads_to_status").isSome

theorem Based.includes {db db' : DbFile} (based : Based db) (includes : db.Includes db') : Based db' where
  threads := based.threads.imp (includes.table "threads")
  messages := based.messages.imp (includes.table "messages")
  byThread := includes.index _ based.byThread
  byStatus := includes.index _ based.byStatus

theorem Stage.setTable {start db : DbFile} (stage : Stage start db) (name : String) (r : Relation Value)
    (shape : Shape name r) (keeps : start.Keeps .null dataTables (db.setTable name r)) :
    Stage start (db.setTable name r) := by
  refine ⟨fun other r' found => ?_, keeps⟩
  rw [Database.table_setTable] at found
  split at found
  · rename_i here
    cases found
    exact here ▸ shape
  · exact stage.shape other r' found

theorem runs_connect {I Q : DbFile → Prop} {next : Script DbFile} {db : DbFile} (now : I db)
    (rest : Script.Runs I Q next (.new db)) : Script.Runs I Q (connect next) (.new db) :=
  .reconnect now (.autocommit now rfl (.autocommit now rfl rest))

section Statements
variable {start db : DbFile} {Q : DbFile → Prop} {next : Script DbFile} (stage : Stage start db)
include stage

theorem runs_createTable {name : String} {columns : List Column} {constraints : List String}
    (shape : Shape name (.create columns constraints))
    (rest : ∀ db', Stage start db' → db.Includes db' → (∃ r, db'.table name = some r) →
      Script.Runs (Stage start) Q next (.new db')) :
    Script.Runs (Stage start) Q (.define (Database.createTable name columns constraints) next) (.new db) := by
  cases found : db.table name with
  | some r =>
    exact .autocommit stage (Database.createTable_of_present found) (rest db stage (.refl db) ⟨r, found⟩)
  | none =>
    have stage' := stage.setTable name _ shape (stage.keeps.create found _)
    have includes := Database.includes_setTable found (.create columns constraints)
    refine .autocommit stage (Database.createTable_of_absent found) (rest _ stage' includes ?_)
    exact ⟨_, Database.table_setTable_self ..⟩

theorem runs_createIndex {name : String} {index : Index} {r : Relation Value} (found : db.table index.table = some r)
    (covered : ∀ c ∈ index.columns, c.1 ∈ r.names)
    (rest : ∀ db', Stage start db' → db.Includes db' → (db'.index name).isSome →
      Script.Runs (Stage start) Q next (.new db')) :
    Script.Runs (Stage start) Q (.define (Database.createIndex name index) next) (.new db) := by
  obtain ⟨db', created, same, present, includes⟩ := Database.createIndex_of_columns name found covered
  have stage' : Stage start db' :=
    ⟨fun other r' found' => stage.shape other r' (same ▸ found'), stage.keeps.of_table same⟩
  exact .autocommit stage created (rest db' stage' includes present)

theorem runs_ddl (rest : ∀ db', Stage start db' → Based db' → Script.Runs (Stage start) Q next (.new db')) :
    Script.Runs (Stage start) Q (executescript ddl next) (.new db) := by
  refine .commit stage (runs_createTable stage ⟨[], List.nil_prefix, rfl⟩ fun db₁ stage₁ _ threads => ?_)
  refine runs_createTable stage₁ rfl fun db₂ stage₂ includes₂ messages => ?_
  obtain ⟨m, atMessages⟩ := messages
  have messagesShape : m.columns = messagesColumns := stage₂.shape _ m atMessages
  refine runs_createIndex stage₂ atMessages (by rw [Relation.names, messagesShape]; decide)
    fun db₃ stage₃ includes₃ byThread => ?_
  obtain ⟨t, atThreads⟩ := threads
  have atThreads₃ := includes₃.table _ t (includes₂.table _ t atThreads)
  obtain ⟨added, _, threadsShape⟩ : ∃ added, added <+: addedColumns ∧ t.columns = threadsColumns ++ added :=
    stage₃.shape _ t atThreads₃
  refine runs_createIndex stage₃ atThreads₃ ?_ fun db₄ stage₄ includes₄ byStatus => ?_
  · intro c member
    rw [Relation.names, threadsShape, List.map_append]
    refine List.mem_append_left _ ?_
    revert c
    decide
  · refine rest db₄ stage₄ ⟨⟨t, includes₄.table _ t atThreads₃⟩, ⟨m, ?_⟩, includes₄.index _ byThread, byStatus⟩
    exact includes₄.table _ m (includes₃.table _ m atMessages)

end Statements

/-- No column of `threads` is named twice: the missing ones are new to the table. -/
theorem missing_fresh {added missing : List Column} (split : addedColumns = added ++ missing) :
    ∀ c ∈ missing, c.name ∉ (threadsColumns ++ added).map Column.name := by
  have distinct : ((threadsColumns ++ addedColumns).map Column.name).Nodup := by decide
  rw [split, ← List.append_assoc, List.map_append, List.nodup_append] at distinct
  intro c member there
  exact distinct.2.2 _ there _ (List.mem_map_of_mem member) rfl

/-- The columns that the table already has are skipped. -/
theorem addMissing_append {threadCols : List String} {there : List Column} (present : ∀ c ∈ there, c.name ∈ threadCols)
    (missing : List Column) (next : Script DbFile) :
    addMissing threadCols (there ++ missing) next = addMissing threadCols missing next := by
  induction there with
  | nil => rfl
  | cons c there ih =>
    rw [List.cons_append, addMissing, if_pos (present c (List.mem_cons_self ..))]
    exact ih fun d member => present d (List.mem_cons_of_mem _ member)

/-- The table `threads` of v0.4. -/
def FullThreads (db : DbFile) : Prop :=
  ∃ r, db.table "threads" = some r ∧ r.columns = threadsColumns ++ addedColumns

/-- The loop over the missing columns; `added` are those that are there. -/
theorem runs_addMissing {start : DbFile} {Q : DbFile → Prop} {next : Script DbFile} {threadCols : List String}
    {missing : List Column} (absent : ∀ c ∈ missing, c.name ∉ threadCols) :
    ∀ {added : List Column} {db : DbFile} {r : Relation Value}, addedColumns = added ++ missing → Stage start db →
      Based db → db.table "threads" = some r → r.columns = threadsColumns ++ added →
      (∀ db', Stage start db' → Based db' → FullThreads db' → Script.Runs (Stage start) Q next (.new db')) →
      Script.Runs (Stage start) Q (addMissing threadCols missing next) (.new db) := by
  induction missing with
  | nil =>
    intro added db r split stage based found columns rest
    rw [List.append_nil] at split
    exact rest db stage based ⟨r, found, split ▸ columns⟩
  | cons c missing ih =>
    intro added db r split stage based found columns rest
    rw [addMissing, if_neg (absent c (List.mem_cons_self ..))]
    have fresh : c.name ∉ r.names := by
      rw [Relation.names, columns]
      exact missing_fresh split c (List.mem_cons_self ..)
    have split' : addedColumns = (added ++ [c]) ++ missing := by rw [split, List.append_assoc, List.singleton_append]
    have columns' : (r.addColumn .null c).columns = threadsColumns ++ (added ++ [c]) := by
      rw [Relation.addColumn_columns, columns, List.append_assoc]
    have stage' := stage.setTable "threads" (r.addColumn .null c)
      ⟨added ++ [c], ⟨missing, split'.symm⟩, columns'⟩ (stage.keeps.addColumn found c)
    refine .autocommit stage (Database.addColumn_of_new found fresh) ?_
    have found' := Database.table_setTable_self "threads" (r.addColumn .null c) db
    refine ih (fun d member => absent d (List.mem_cons_of_mem _ member)) split' stage' ?_ found' columns' rest
    obtain ⟨m, messages⟩ := based.messages
    have other : "messages" ≠ "threads" := by decide
    have messages' := (Database.table_setTable_of_ne other (r.addColumn .null c) db).trans messages
    exact ⟨⟨_, found'⟩, ⟨m, messages'⟩, based.byThread, based.byStatus⟩

/-- The table `schema_version` holds one version, of at least 4. -/
def Versioned (db : DbFile) : Prop :=
  ∃ r version, db.table "schema_version" = some r ∧ r.columns = versionColumns ∧
    r.rows = [[.integer version]] ∧ 4 ≤ version

theorem select_version {db : DbFile} {r : Relation Value} (found : db.table "schema_version" = some r)
    (columns : r.columns = versionColumns) (versions : List Int)
    (rows : r.rows = versions.map fun version => [.integer version]) :
    db.select .null "schema_version" "version" = some (versions.map .integer) := by
  have named : "version" ∈ r.names := by
    rw [Relation.names, columns]
    decide
  rw [Database.select, found]
  dsimp only
  rw [if_pos named, Relation.values, rows, List.map_map, Relation.names, columns]
  rfl

theorem runs_writeVersion {start db : DbFile} {Q : DbFile → Prop} {next : Script DbFile} {r : Relation Value}
    (stage : Stage start db) (found : db.table "schema_version" = some r)
    (rest : ∀ db', Stage start db' → Versioned db' → db'.index = db.index →
      (∀ name, name ≠ "schema_version" → db'.table name = db.table name) →
      Script.Runs (Stage start) Q next (.new db')) :
    Script.Runs (Stage start) Q (writeVersion next) (.new db) := by
  obtain ⟨columns, rows⟩ : r.columns = versionColumns ∧ (r.rows = [] ∨ ∃ version, r.rows = [[.integer version]]) :=
    stage.shape _ r found
  have named : "version" ∈ r.names := by
    rw [Relation.names, columns]
    decide
  -- Both ways of writing leave the one row with version 4.
  have writes : ∀ (change : DbFile → Option DbFile) (r' : Relation Value),
      change db = some (db.setTable "schema_version" r') → r'.columns = versionColumns → r'.rows = [[.integer 4]] →
      Script.Runs (Stage start) Q (.modify change (.commit next)) (.new db) := by
    intro change r' changes columns' rows'
    have stage' := stage.setTable "schema_version" r' ⟨columns', Or.inr ⟨4, rows'⟩⟩
      (stage.keeps.setTable fun member => absurd member (by decide))
    have versioned : Versioned (db.setTable "schema_version" r') :=
      ⟨r', 4, Database.table_setTable_self .., columns', rows', Int.le_refl 4⟩
    exact .transaction stage changes
      (rest _ stage' versioned rfl fun _ other => Database.table_setTable_of_ne other r' db)
  refine .read stage ?_
  rcases rows with noRows | ⟨version, single⟩
  · rw [select_version found columns [] noRows]
    refine writes _ (r.insert .null "version" (.integer 4)) ?_ columns ?_
    · rw [Database.insert, found]
      exact if_pos named
    · rw [Relation.insert_rows, noRows, columns]
      rfl
  · rw [select_version found columns [version] single]
    show Script.Runs _ _ (if version < 4 then _ else _) _
    split
    · refine writes _ (r.update "version" (.integer 4)) ?_ columns ?_
      · rw [Database.update, found]
        exact if_pos named
      · rw [Relation.update_rows, single, columns]
        rfl
    · rename_i recent
      refine .commit stage (rest db stage ⟨r, version, found, columns, single, Int.not_lt.mp recent⟩ rfl fun _ _ => rfl)

/-- A database that needs no migration: all tables and columns of v0.4 are there,
and one version. -/
structure Migrated (db : DbFile) : Prop where
  based : Based db
  threads : FullThreads db
  recipients : ∃ r, db.table "thread_recipients" = some r ∧ r.columns = recipientsColumns
  versioned : Versioned db

theorem runs_initSchemaV04 {start db : DbFile} {Q : DbFile → Prop} {next : Script DbFile} (stage : Stage start db)
    (rest : ∀ db', Stage start db' → Migrated db' → Script.Runs (Stage start) Q next (.new db')) :
    Script.Runs (Stage start) Q (initSchemaV04 next) (.new db) := by
  refine runs_connect stage (runs_ddl stage fun db₁ stage₁ based₁ => .read stage₁ ?_)
  obtain ⟨r, found⟩ := based₁.threads
  obtain ⟨added, ⟨missing, split⟩, columns⟩ : ∃ added, added <+: addedColumns ∧ r.columns = threadsColumns ++ added :=
    stage₁.shape _ r found
  have threadCols : db₁.columnNames "threads" = (threadsColumns ++ added).map Column.name := by
    rw [Database.columnNames, found, ← columns]
    rfl
  have present : ∀ c ∈ added, c.name ∈ db₁.columnNames "threads" := by
    rw [threadCols]
    exact fun c member => List.mem_map_of_mem (List.mem_append_right _ member)
  have absent : ∀ c ∈ missing, c.name ∉ db₁.columnNames "threads" := by
    rw [threadCols]
    exact missing_fresh split.symm
  have skips := addMissing_append present missing
  rw [split] at skips
  rw [skips]
  refine runs_addMissing absent split.symm stage₁ based₁ found columns fun db₂ stage₂ based₂ full₂ => ?_
  refine runs_createTable stage₂ rfl fun db₃ stage₃ includes₃ recipients => ?_
  refine runs_createTable stage₃ ⟨rfl, Or.inl rfl⟩ fun db₄ stage₄ includes₄ version => ?_
  obtain ⟨v, atVersion⟩ := version
  have includes := includes₃.trans includes₄
  refine runs_writeVersion stage₄ atVersion fun db₅ stage₅ versioned index others => rest db₅ stage₅ ?_
  obtain ⟨t, atThreads, full⟩ := full₂
  obtain ⟨m, atMessages⟩ := based₂.messages
  obtain ⟨p, atRecipients⟩ := recipients
  have threads₅ := (others "threads" (by decide)).trans (includes.table _ t atThreads)
  have messages₅ := (others "messages" (by decide)).trans (includes.table _ m atMessages)
  have recipients₅ := (others "thread_recipients" (by decide)).trans (includes₄.table _ p atRecipients)
  exact
    { based := ⟨⟨t, threads₅⟩, ⟨m, messages₅⟩, index ▸ includes.index _ based₂.byThread,
        index ▸ includes.index _ based₂.byStatus⟩
      threads := ⟨t, threads₅, full⟩
      recipients := ⟨p, recipients₅, stage₅.shape _ p recipients₅⟩
      versioned }

/-- From every stage the migration completes, and all its stops are stages. -/
theorem runs_initSchema {start db : DbFile} (stage : Stage start db) :
    Script.Runs (Stage start) (fun db' => Stage start db' ∧ Migrated db') initSchema (.new db) := by
  refine runs_connect stage (runs_ddl stage fun db₁ stage₁ _ => .commit stage₁ ?_)
  exact runs_initSchemaV04 stage₁ fun db₂ stage₂ migrated => .done stage₂ ⟨stage₂, migrated⟩

section Again
variable {db : DbFile} {Q : DbFile → Prop} {next : Script DbFile}

theorem Based.stays (based : Based db) (rest : Script.Runs (· = db) Q next (.new db)) :
    Script.Runs (· = db) Q (connect (executescript ddl next)) (.new db) := by
  obtain ⟨t, threads⟩ := based.threads
  obtain ⟨m, messages⟩ := based.messages
  refine runs_connect rfl (.commit rfl ?_)
  refine .autocommit rfl (Database.createTable_of_present threads) ?_
  refine .autocommit rfl (Database.createTable_of_present messages) ?_
  refine .autocommit rfl (Database.createIndex_of_present based.byThread) ?_
  exact .autocommit rfl (Database.createIndex_of_present based.byStatus) rest

/-- A migrated database stays as it is, wherever the next migration stops. -/
theorem Migrated.stays (migrated : Migrated db) : Script.Runs (· = db) (· = db) initSchema (.new db) := by
  obtain ⟨t, threads, full⟩ := migrated.threads
  obtain ⟨p, recipients, _⟩ := migrated.recipients
  obtain ⟨v, version, atVersion, columns, single, recent⟩ := migrated.versioned
  have present : ∀ c ∈ addedColumns, c.name ∈ db.columnNames "threads" := by
    rw [Database.columnNames, threads]
    dsimp only
    rw [Relation.names, full]
    exact fun c member => List.mem_map_of_mem (List.mem_append_right _ member)
  refine migrated.based.stays (.commit rfl (migrated.based.stays (.read rfl ?_)))
  have skips := addMissing_append present []
  rw [List.append_nil] at skips
  rw [skips, addMissing]
  refine .autocommit rfl (Database.createTable_of_present recipients) ?_
  refine .autocommit rfl (Database.createTable_of_present atVersion) (.read rfl ?_)
  rw [select_version atVersion columns [version] single]
  show Script.Runs _ _ (if version < 4 then _ else _) _
  rw [if_neg (Int.not_lt.mpr recent)]
  exact .commit rfl (.done rfl rfl)

end Again

/-- A file without tables. -/
def Empty (db : DbFile) : Prop := ∀ name, db.table name = none

/-- A database of v0.3, with any rows. -/
structure V03 (db : DbFile) : Prop where
  threads : ∃ r, db.table "threads" = some r ∧ r.columns = threadsColumns
  messages : ∃ r, db.table "messages" = some r ∧ r.columns = messagesColumns
  recipients : db.table "thread_recipients" = none
  version : db.table "schema_version" = none

/-- A database of v0.4, with any rows next to its version. -/
structure V04 (db : DbFile) : Prop where
  threads : FullThreads db
  messages : ∃ r, db.table "messages" = some r ∧ r.columns = messagesColumns
  recipients : ∃ r, db.table "thread_recipients" = some r ∧ r.columns = recipientsColumns
  version : ∃ r version, db.table "schema_version" = some r ∧ r.columns = versionColumns ∧
    r.rows = [[.integer version]]

theorem Stage.start {db : DbFile} (shape : ∀ name r, db.table name = some r → Shape name r) : Stage db db :=
  ⟨shape, .refl .null dataTables db⟩

theorem Empty.stage {db : DbFile} (isEmpty : Empty db) : Stage db db := by
  refine .start fun name r found => ?_
  rw [isEmpty name] at found
  cases found

theorem V03.stage {db : DbFile} (v03 : V03 db) : Stage db db := by
  obtain ⟨⟨t, threads, threadsShape⟩, ⟨m, messages, messagesShape⟩, recipients, version⟩ := v03
  refine .start fun name r found => ?_
  unfold Shape
  split
  · cases Option.some.inj (threads.symm.trans found)
    exact ⟨[], List.nil_prefix, by rw [threadsShape, List.append_nil]⟩
  · cases Option.some.inj (messages.symm.trans found)
    exact messagesShape
  · rw [recipients] at found
    cases found
  · rw [version] at found
    cases found
  · trivial

theorem V04.stage {db : DbFile} (v04 : V04 db) : Stage db db := by
  obtain ⟨⟨t, threads, full⟩, ⟨m, messages, messagesShape⟩, ⟨p, recipients, recipientsShape⟩,
    v, version, atVersion, columns, single⟩ := v04
  refine .start fun name r found => ?_
  unfold Shape
  split
  · cases Option.some.inj (threads.symm.trans found)
    exact ⟨addedColumns, List.prefix_refl _, full⟩
  · cases Option.some.inj (messages.symm.trans found)
    exact messagesShape
  · cases Option.some.inj (recipients.symm.trans found)
    exact recipientsShape
  · cases Option.some.inj (atVersion.symm.trans found)
    exact ⟨columns, Or.inr ⟨version, single⟩⟩
  · trivial

/-- However often the migration is interrupted, the next complete run succeeds: it
ends in a migrated database with all rows of the start, and further runs, complete
or not, change nothing. -/
theorem migration_recovers {start : DbFile} (known : Empty start ∨ V03 start ∨ V04 start) (stops : List Nat) :
    ∃ db, initSchema.Completes (initSchema.interrupted stops start) db ∧ Migrated db ∧
      start.Keeps .null dataTables db ∧ initSchema.Completes db db ∧
      ∀ stops', initSchema.interrupted stops' db = db := by
  have stage : Stage start start := by
    rcases known with isEmpty | v03 | v04
    · exact isEmpty.stage
    · exact v03.stage
    · exact v04.stage
  obtain ⟨db, completes, stage', migrated⟩ := Script.recovers (fun _ => runs_initSchema) stops stage
  exact ⟨db, completes, migrated, stage'.keeps, Script.completes_of_stays migrated.stays,
    Script.interrupted_of_stays migrated.stays⟩

/-- Stopped between two of the new columns, and later before the commit of the
version: the thread of v0.3 is there, with four nulls. -/
theorem migration_recovers_of_v03 :
    let start : DbFile := ⟨fun
      | "threads" => some ⟨threadsColumns, [], [["t", "s", "a", "open", "2026", "2026"].map .text], by decide⟩
      | "messages" => some (.create messagesColumns [])
      | _ => none, fun _ => none⟩
    ∃ db r, initSchema.Completes (initSchema.interrupted [20, 24] start) db ∧ db.table "threads" = some r ∧
      r.rows = [["t", "s", "a", "open", "2026", "2026"].map .text ++ [.null, .null, .null, .null]] := by
  intro start
  have v03 : V03 start := ⟨⟨_, rfl, rfl⟩, ⟨_, rfl, rfl⟩, rfl, rfl⟩
  obtain ⟨db, completes, migrated, keeps, _⟩ := migration_recovers (Or.inr (Or.inl v03)) [20, 24]
  obtain ⟨r, found, new, columns, rows⟩ := keeps "threads" (by decide) _ rfl
  obtain ⟨r', found', full⟩ := migrated.threads
  cases Option.some.inj (found.symm.trans found')
  have isNew : new = addedColumns := List.append_cancel_left (columns.symm.trans full)
  exact ⟨db, r, completes, found, by rw [rows, isNew]; rfl⟩

end PbChatroom
