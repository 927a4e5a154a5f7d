import PbChatroom.Persistence

namespace PbChatroom
open Catalog Relational Transactional

/-- A store as v0.3 has it: no thread has a type or a claim, and nobody is listed. -/
structure Db.Old (db : Db) : Prop where
  untyped : ∀ row ∈ db.threads.rows, row.discussionType = none
  unclaimed : ∀ row ∈ db.threads.rows, row.claim = ⟨none, none, none⟩
  unlisted : db.threadRecipients.rows = []

/-- The values of the columns of v0.3. -/
def ThreadRow.valuesV03 (row : ThreadRow) : List Value :=
  [.text row.id, .text row.subject, .text row.createdBy, .text row.status.text, row.createdAt.value,
    row.lastMessageAt.value]

theorem versionColumns_width (version : Int) : [Value.integer version].length = versionColumns.length := rfl

/-- The file on its way from v0.3: some of the new columns of `threads` are there,
perhaps the table of the recipients, and perhaps the one of the version; the messages
and the indexes are those of v0.4. -/
def Db.partFile (db : Db) (added : List Column) (listed : Bool) (versions : Option (List Int)) : DbFile where
  table
    | "threads" =>
      some (stored (threadsColumns ++ added) [] (fun row => row.valuesV03 ++ List.replicate added.length .null)
        (fun row => by rw [List.length_append, List.length_append, List.length_replicate]; rfl) db.threads.rows)
    | "thread_recipients" =>
      if listed then some (.create recipientsColumns ["PRIMARY KEY (thread_id, participant_id)"]) else none
    | "schema_version" =>
      versions.map (stored versionColumns [] (fun version => [.integer version]) versionColumns_width)
    | name => db.file.table name
  index := db.file.index

/-- The file in which v0.3 holds the store. -/
def Db.fileV03 (db : Db) : DbFile := db.partFile [] false none

section Stages
variable {db : Db} {added : List Column} {listed : Bool} {versions : Option (List Int)}

theorem Db.partFile_based : Based (db.partFile added listed versions) := ⟨⟨_, rfl⟩, ⟨_, rfl⟩, rfl, rfl⟩

/-- With all that is new the file is the one of v0.4. -/
theorem Db.Old.partFile_full (old : db.Old) : db.partFile addedColumns true (some [4]) = db.file := by
  refine Database.ext (fun name => ?_) fun _ => rfl
  unfold Db.partFile
  dsimp only
  split
  · refine congrArg some (Relation.ext rfl rfl (List.map_congr_left fun row member => ?_))
    rw [ThreadRow.values, old.untyped row member, old.unclaimed row member]
    rfl
  · refine congrArg some (Relation.ext rfl rfl ?_)
    show [] = db.threadRecipients.rows.map RecipientRow.values
    rw [old.unlisted, List.map_nil]
  · rfl
  · rfl

/-- A table that is created or changed is the next stage if it is the table there
and the stages differ in no other. -/
theorem Db.setTable_partFile {name : String} {r : Relation Value} {added' : List Column} {listed' : Bool}
    {versions' : Option (List Int)} (here : (db.partFile added' listed' versions').table name = some r)
    (others : ∀ other, other ≠ name →
      (db.partFile added listed versions).table other = (db.partFile added' listed' versions').table other) :
    (db.partFile added listed versions).setTable name r = db.partFile added' listed' versions' := by
  refine Database.ext (fun other => ?_) fun _ => rfl
  rw [Database.table_setTable]
  split
  · rename_i same
    rw [same, here]
  · exact others other (by assumption)

theorem Db.addColumn_partFile {column : Column} (fresh : column.name ∉ (threadsColumns ++ added).map Column.name) :
    (db.partFile added listed versions).addColumn .null "threads" column =
      some (db.partFile (added ++ [column]) listed versions) := by
  rw [Database.addColumn_of_new rfl fresh]
  refine congrArg some (Db.setTable_partFile (congrArg some ?_) fun other different => ?_)
  · refine Relation.ext (List.append_assoc ..).symm rfl ?_
    rw [Relation.addColumn_rows]
    show db.threads.rows.map _ = (db.threads.rows.map _).map _
    rw [List.map_map]
    refine List.map_congr_left fun row _ => ?_
    rw [Function.comp_apply, List.append_assoc, List.length_append, List.length_singleton, List.replicate_succ']
  · unfold Db.partFile
    dsimp only
    split <;> first | rfl | contradiction

theorem Db.createRecipients_partFile :
    (db.partFile added listed versions).createTable "thread_recipients" recipientsColumns
      ["PRIMARY KEY (thread_id, participant_id)"] = some (db.partFile added true versions) := by
  cases listed with
  | true => exact Database.createTable_of_present rfl
  | false =>
    rw [Database.createTable_of_absent rfl]
    refine congrArg some (Db.setTable_partFile rfl fun other different => ?_)
    unfold Db.partFile
    dsimp only
    split <;> first | rfl | contradiction

theorem Db.partFile_of_ne {other : String} (different : other ≠ "schema_version") (versions' : Option (List Int)) :
    (db.partFile added listed versions).table other = (db.partFile added listed versions').table other := by
  unfold Db.partFile
  dsimp only
  split <;> first | rfl | contradiction

theorem Db.createVersion_partFile :
    (db.partFile added listed versions).createTable "schema_version" versionColumns [] =
      some (db.partFile added listed (some (versions.getD []))) := by
  cases versions with
  | some versions => exact Database.createTable_of_present rfl
  | none =>
    rw [Database.createTable_of_absent rfl]
    exact congrArg some (Db.setTable_partFile rfl fun other different => Db.partFile_of_ne different _)

theorem Db.insertVersion_partFile :
    (db.partFile added listed (some [])).insert .null "schema_version" "version" (.integer 4) =
      some (db.partFile added listed (some [4])) := by
  have named : "version" ∈ versionColumns.map Column.name := by decide
  rw [Database.insert]
  refine Eq.trans (b := some _) (if_pos named) (congrArg some ?_)
  exact Db.setTable_partFile rfl fun other different => Db.partFile_of_ne different _

end Stages

/-- How far the table of the version is. -/
inductive Versioning : Option (List Int) → Prop
  | missing : Versioning none
  | empty : Versioning (some [])
  | written : Versioning (some [4])

/-- What an upgrade may leave of a file of v0.3 where it is stopped. -/
def Db.Upgrading (db : Db) (file : DbFile) : Prop :=
  ∃ added listed versions, file = db.partFile added listed versions ∧ added <+: addedColumns ∧ Versioning versions

section Runs
variable {db : Db} {I Q : DbFile → Prop} {next : Script DbFile}

/-- `_DDL` finds all that it would create. -/
theorem Based.runs_ddl {file : DbFile} (based : Based file) (now : I file) (rest : Script.Runs I Q next (.new file)) :
    Script.Runs I Q (executescript ddl next) (.new file) := by
  obtain ⟨t, threads⟩ := based.threads
  obtain ⟨m, messages⟩ := based.messages
  refine .commit now (.autocommit now (Database.createTable_of_present threads) ?_)
  refine .autocommit now (Database.createTable_of_present messages) ?_
  refine .autocommit now (Database.createIndex_of_present based.byThread) ?_
  exact .autocommit now (Database.createIndex_of_present based.byStatus) rest

theorem runs_addMissing_partFile {threadCols : List String} {listed : Bool} {versions : Option (List Int)}
    {missing : List Column} (absent : ∀ c ∈ missing, c.name ∉ threadCols)
    (stages : ∀ added, added <+: addedColumns → I (db.partFile added listed versions))
    (rest : Script.Runs I Q next (.new (db.partFile addedColumns listed versions))) :
    ∀ {added : List Column}, added ++ missing = addedColumns →
      Script.Runs I Q (addMissing threadCols missing next) (.new (db.partFile added listed versions)) := by
  induction missing with
  | nil =>
    intro added split
    rw [List.append_nil] at split
    rwa [addMissing, split]
  | cons c missing ih =>
    intro added split
    rw [addMissing, if_neg (absent c (List.mem_cons_self ..))]
    have fresh := missing_fresh split.symm c (List.mem_cons_self ..)
    refine .autocommit (stages added ⟨_, split⟩) (Db.addColumn_partFile fresh) ?_
    refine ih (fun d member => absent d (List.mem_cons_of_mem _ member)) ?_
    rw [List.append_assoc, List.singleton_append, split]

theorem runs_writeVersion_partFile {listed : Bool} {versions : Option (List Int)} (known : Versioning versions)
    (stages : ∀ versions, Versioning versions → I (db.partFile addedColumns listed versions))
    (rest : Script.Runs I Q next (.new (db.partFile addedColumns listed (some [4])))) :
    Script.Runs I Q (writeVersion next) (.new (db.partFile addedColumns listed (some (versions.getD [])))) := by
  have empty : I (db.partFile addedColumns listed (some [])) := stages _ .empty
  have insert : Script.Runs I Q (writeVersion next) (.new (db.partFile addedColumns listed (some []))) := by
    refine .read empty ?_
    rw [select_version rfl rfl [] rfl]
    exact .transaction empty Db.insertVersion_partFile rest
  cases known with
  | missing => exact insert
  | empty => exact insert
  | written =>
    have full : I (db.partFile addedColumns listed (some [4])) := stages _ .written
    refine .read full ?_
    rw [select_version rfl rfl [4] rfl]
    exact .commit full rest

/-- From each stage the upgrade comes to its end, and all its stops are stages. -/
theorem Db.Old.runs_initSchema (old : db.Old) {file : DbFile} (stage : db.Upgrading file) :
    Script.Runs db.Upgrading (· = db.file) initSchema (.new file) := by
  obtain ⟨added, listed, versions, rfl, ⟨missing, split⟩, known⟩ := id stage
  have based : Based (db.partFile added listed versions) := Db.partFile_based
  refine runs_connect stage (based.runs_ddl stage (.commit stage (runs_connect stage ?_)))
  refine based.runs_ddl stage (.read stage ?_)
  have present : ∀ c ∈ added, c.name ∈ (db.partFile added listed versions).columnNames "threads" := fun c member =>
    List.mem_map_of_mem (List.mem_append_right _ member)
  have skips := addMissing_append present missing
  rw [split] at skips
  rw [skips]
  refine runs_addMissing_partFile (missing_fresh split.symm)
    (fun added isPrefix => ⟨added, listed, versions, rfl, isPrefix, known⟩) ?_ split
  have stages : ∀ listed versions, Versioning versions → db.Upgrading (db.partFile addedColumns listed versions) :=
    fun listed versions known => ⟨addedColumns, listed, versions, rfl, List.prefix_rfl, known⟩
  refine .autocommit (stages listed versions known) Db.createRecipients_partFile ?_
  refine .autocommit (stages true versions known) Db.createVersion_partFile ?_
  refine runs_writeVersion_partFile known (stages true) (.done (stages true _ .written) ?_)
  exact old.partFile_full

end Runs

/-- However often it is interrupted, the upgrade of a file of v0.3 ends with the file
of the same store: the server goes on with just the threads and messages that v0.3
has left, with no type, claim or recipient. -/
theorem upgrade_completes {db : Db} (old : db.Old) (stops : List Nat) :
    initSchema.Completes (initSchema.interrupted stops db.fileV03) db.file := by
  have start : db.Upgrading db.fileV03 := ⟨[], false, none, rfl, List.nil_prefix, .missing⟩
  obtain ⟨file, completes, rfl⟩ := Script.recovers (fun _ => old.runs_initSchema) stops start
  exact completes

/-- The upgrade is stopped between two of the new columns, and once more before the
version is committed. -/
theorem upgrade_completes_of_thread :
    let db := (server.run World.init (.arrive (.postThread (some "a") ⟨some "b", [], "s", "hello", none, none⟩) ::
      .step 0 (.draw ⟨reading 0 1, "t", "m0"⟩) :: transactions 0 1)).store
    initSchema.Completes (initSchema.interrupted [20, 24] db.fileV03) db.file :=
  upgrade_completes ⟨by decide, by decide, rfl⟩ [20, 24]

end PbChatroom
