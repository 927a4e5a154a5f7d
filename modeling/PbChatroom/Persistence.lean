import PbChatroom.Migration
import PbChatroom.Server

namespace PbChatroom
open Catalog Transactional

def Status.text : Status → String
  | .opened => "open"
  | .acked => "acked"

def Kind.text : Kind → String
  | .message => "message"
  | .ack => "ack"

def Timestamp.value (t : Timestamp) : Value := .text (String.ofList t.text)

/-- A value, or NULL. -/
def orNull {α : Type} (value : α → Value) (o : Option α) : Value := (o.map value).getD .null

def ThreadRow.values (row : ThreadRow) : List Value :=
  [.text row.id, .text row.subject, .text row.createdBy, .text row.status.text, row.createdAt.value,
    row.lastMessageAt.value, orNull .text row.discussionType, orNull .text row.claim.claimedBy,
    orNull Timestamp.value row.claim.claimedAt, orNull .text row.claim.claimScope]

def Message.values (m : Message) : List Value :=
  [.text m.id, .text m.threadId, .text m.fromParticipant, .text m.toParticipant, .text m.body, .text m.kind.text,
    .text m.metadata, m.createdAt.value]

def RecipientRow.values (r : RecipientRow) : List Value :=
  [.text r.threadId, .text r.participantId, orNull Timestamp.value r.ackedAt]

/-- The rows of a typed table under the columns of the file. -/
def stored {α : Type} (columns : List Column) (constraints : List String) (values : α → List Value)
    (width : ∀ a, (values a).length = columns.length) (rows : List α) : Relation Value where
  columns
  constraints
  rows := rows.map values
  width := fun row member => by
    obtain ⟨a, _, rfl⟩ := List.mem_map.mp member
    exact width a

/-- The file that holds a store. -/
def Db.file (db : Db) : DbFile where
  table
    | "threads" =>
      some (stored (threadsColumns ++ addedColumns) [] ThreadRow.values (fun _ => rfl) db.threads.rows)
    | "messages" => some (stored messagesColumns [] Message.values (fun _ => rfl) db.messages.rows)
    | "thread_recipients" =>
      some (stored recipientsColumns ["PRIMARY KEY (thread_id, participant_id)"] RecipientRow.values (fun _ => rfl)
        db.threadRecipients.rows)
    | "schema_version" => some (stored versionColumns [] (fun version => [.integer version]) (fun _ => rfl) [4])
    | _ => none
  index
    | "idx_messages_thread_created" => some messagesIndex
    | "idx_threads_to_status" => some threadsIndex
    | _ => none

theorem Db.file_migrated (db : Db) : Migrated db.file where
  based := ⟨⟨_, rfl⟩, ⟨_, rfl⟩, rfl, rfl⟩
  threads := ⟨_, rfl, rfl⟩
  recipients := ⟨_, rfl, rfl⟩
  versioned := ⟨_, 4, rfl, rfl, rfl, Int.le_refl 4⟩

theorem Db.file_v04 (db : Db) : V04 db.file where
  threads := db.file_migrated.threads
  messages := ⟨_, rfl, rfl⟩
  recipients := db.file_migrated.recipients
  version := ⟨_, 4, rfl, rfl, rfl⟩

/-- A restart of the server, and any number of interrupted ones before it, leave
every store as it is. -/
theorem restart_keeps (db : Db) (stops : List Nat) :
    initSchema.interrupted stops db.file = db.file ∧ initSchema.Completes db.file db.file :=
  ⟨Script.interrupted_of_stays db.file_migrated.stays stops, Script.completes_of_stays db.file_migrated.stays⟩

/-- The first start makes a new file the empty store, with which the server begins. -/
theorem bootstrap_init : initSchema.Completes .empty World.init.store.file := by
  refine ⟨31, _, rfl, Database.ext (fun name => ?_) fun name => ?_⟩
  · unfold Db.file
    dsimp only
    split
    · rfl
    · rfl
    · rfl
    · rfl
    · rename_i threads messages recipients version
      show (if name = "schema_version" then _ else if name = "schema_version" then _
        else if name = "thread_recipients" then _ else if name = "threads" then _ else if name = "threads" then _
        else if name = "threads" then _ else if name = "threads" then _ else if name = "messages" then _
        else if name = "threads" then _ else none) = none
      simp only [if_neg threads, if_neg messages, if_neg recipients, if_neg version]
  · unfold Db.file
    dsimp only
    split
    · rfl
    · rfl
    · rename_i byThread byStatus
      show (if name = "idx_threads_to_status" then _ else if name = "idx_messages_thread_created" then _ else none) =
        none
      rw [if_neg byStatus, if_neg byThread]

end PbChatroom
