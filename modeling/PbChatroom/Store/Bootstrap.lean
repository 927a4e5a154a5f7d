import PbChatroom.Lib.Catalog
import PbChatroom.Lib.Transactional

namespace PbChatroom
open Catalog Transactional

/-- A stored value, by its storage class; a real number by its bits. -/
inductive Value where
  | null
  | integer (n : Int)
  | real (bits : UInt64)
  | text (s : String)
  | blob (bytes : List UInt8)
  deriving DecidableEq, Repr

/-- The database file as SQLite sees it. -/
abbrev DbFile := Database Value

def threadsColumns : List Column :=
  [⟨"id", "TEXT PRIMARY KEY"⟩, ⟨"subject", "TEXT NOT NULL"⟩, ⟨"created_by", "TEXT NOT NULL"⟩,
    ⟨"status", "TEXT NOT NULL CHECK(status IN ('open', 'acked'))"⟩, ⟨"created_at", "TEXT NOT NULL"⟩,
    ⟨"last_message_at", "TEXT NOT NULL"⟩]

def messagesColumns : List Column :=
  [⟨"id", "TEXT PRIMARY KEY"⟩, ⟨"thread_id", "TEXT NOT NULL REFERENCES threads(id) ON DELETE CASCADE"⟩,
    ⟨"from_participant", "TEXT NOT NULL"⟩, ⟨"to_participant", "TEXT NOT NULL"⟩, ⟨"body", "TEXT NOT NULL"⟩,
    ⟨"kind", "TEXT NOT NULL CHECK(kind IN ('message', 'ack'))"⟩, ⟨"metadata", "TEXT NOT NULL DEFAULT '\x7b\x7d'"⟩,
    ⟨"created_at", "TEXT NOT NULL"⟩]

/-- The columns that v0.4.0 adds to `threads`. -/
def addedColumns : List Column :=
  [⟨"discussion_type", "TEXT"⟩, ⟨"claimed_by", "TEXT"⟩, ⟨"claimed_at", "TEXT"⟩, ⟨"claim_scope", "TEXT"⟩]

def recipientsColumns : List Column :=
  [⟨"thread_id", "TEXT NOT NULL REFERENCES threads(id) ON DELETE CASCADE"⟩, ⟨"participant_id", "TEXT NOT NULL"⟩,
    ⟨"acked_at", "TEXT"⟩]

def versionColumns : List Column := [⟨"version", "INTEGER NOT NULL"⟩]

def messagesIndex : Index := ⟨"messages", [("thread_id", false), ("created_at", false)]⟩

def threadsIndex : Index := ⟨"threads", [("status", false), ("last_message_at", true)]⟩

/-- `_DDL` -/
def ddl : List (DbFile → Option DbFile) :=
  [Database.createTable "threads" threadsColumns [],
    Database.createTable "messages" messagesColumns [],
    Database.createIndex "idx_messages_thread_created" messagesIndex,
    Database.createIndex "idx_threads_to_status" threadsIndex]

/-- `connect`, with its two PRAGMAs, which touch no table. -/
def connect (body : Script DbFile) : Script DbFile := .reconnect (.define some (.define some body))

/-- `executescript` commits first and then runs the statements one by one. -/
def executescript (statements : List (DbFile → Option DbFile)) (next : Script DbFile) : Script DbFile :=
  .commit (statements.foldr .define next)

/-- The loop over the columns: `ALTER TABLE` for each that was not there. -/
def addMissing (threadCols : List String) : List Column → Script DbFile → Script DbFile
  | [], next => next
  | column :: columns, next =>
    if column.name ∈ threadCols then addMissing threadCols columns next
    else .define (Database.addColumn .null "threads" column) (addMissing threadCols columns next)

/-- `value < 4` of a double. Those without a sign are ordered as their bits are, with
4.0 at 0x4010000000000000; those with one are below zero, up to the bits of -∞. -/
def realBelowFour (bits : UInt64) : Bool :=
  bits < 0x4010000000000000 || (0x8000000000000000 ≤ bits && bits ≤ 0xfff0000000000000)

/-- The version is read and then written. A version that is no number cannot be
compared. -/
def writeVersion (next : Script DbFile) : Script DbFile :=
  .read fun db =>
    match db.select .null "schema_version" "version" with
    | none => .raise
    | some [] => .modify (Database.insert .null "schema_version" "version" (.integer 4)) (.commit next)
    | some (.integer version :: _) =>
      if version < 4 then .modify (Database.update "schema_version" "version" (.integer 4)) (.commit next)
      else .commit next
    | some (.real bits :: _) =>
      if realBelowFour bits then .modify (Database.update "schema_version" "version" (.integer 4)) (.commit next)
      else .commit next
    | some _ => .raise

def initSchemaV04 (next : Script DbFile) : Script DbFile :=
  connect <| executescript ddl <| .read fun db =>
    addMissing (db.columnNames "threads") addedColumns <|
    .define (Database.createTable "thread_recipients" recipientsColumns ["PRIMARY KEY (thread_id, participant_id)"]) <|
    .define (Database.createTable "schema_version" versionColumns []) <|
    writeVersion next

def initSchema : Script DbFile := connect <| executescript ddl <| .commit <| initSchemaV04 .done

end PbChatroom
