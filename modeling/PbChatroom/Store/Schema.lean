import PbChatroom.Lib.Table
import PbChatroom.Schemas

namespace PbChatroom
open Relational

abbrev Uuid := String

/-- `CHECK(status IN ('open', 'acked'))` -/
inductive Status where
  | opened
  | acked
  deriving DecidableEq, Repr

/-- `CHECK(kind IN ('message', 'ack'))` -/
inductive Kind where
  | message
  | ack
  deriving DecidableEq, Repr

/-- The three claim columns of a thread. -/
structure Claim where
  claimedBy : Option String
  claimedAt : Option Timestamp
  claimScope : Option String
  deriving DecidableEq, Repr

/-- A row of `threads`. -/
structure ThreadRow where
  id : Uuid
  subject : String
  createdBy : String
  status : Status
  createdAt : Timestamp
  lastMessageAt : Timestamp
  discussionType : Option String
  claim : Claim
  deriving DecidableEq, Repr

/-- A row of `messages`, and the dict the API returns for it; `metadata` is
kept as its JSON text. -/
structure Message where
  id : Uuid
  threadId : Uuid
  fromParticipant : String
  toParticipant : String
  body : String
  kind : Kind
  metadata : String
  createdAt : Timestamp
  deriving DecidableEq, Repr

/-- A row of `thread_recipients`. -/
structure RecipientRow where
  threadId : Uuid
  participantId : String
  ackedAt : Option Timestamp
  deriving DecidableEq, Repr

/-- `PRIMARY KEY (thread_id, participant_id)` -/
def RecipientRow.key (r : RecipientRow) : Uuid × String := (r.threadId, r.participantId)

/-- The three tables. The primary keys are in the tables, the foreign keys
are fields here: SQLite enforces both on every connection of the store. -/
structure Db where
  threads : Table ThreadRow ThreadRow.id
  messages : Table Message Message.id
  threadRecipients : Table RecipientRow RecipientRow.key
  messages_thread : ∀ m ∈ messages.rows, (threads.get? m.threadId).isSome
  recipients_thread : ∀ r ∈ threadRecipients.rows, (threads.get? r.threadId).isSome

namespace Db

theorem ext {db db' : Db} (threads : db.threads = db'.threads) (messages : db.messages = db'.messages)
    (recipients : db.threadRecipients = db'.threadRecipients) : db = db' := by
  cases db
  cases db'
  cases threads
  cases messages
  cases recipients
  rfl

def empty : Db where
  threads := .empty
  messages := .empty
  threadRecipients := .empty
  messages_thread := by simp [Table.empty]
  recipients_thread := by simp [Table.empty]

def thread? (db : Db) (threadId : Uuid) : Option ThreadRow := db.threads.get? threadId

/-- `WHERE thread_id = ?` over `messages`, in insertion order. -/
def messagesOf (db : Db) (threadId : Uuid) : List Message :=
  db.messages.rows.filter fun m => m.threadId = threadId

/-- `WHERE thread_id = ?` over `thread_recipients`. SQLite reads the rows from the index
of the primary key, by participant. The order of insertion is the model's: statements are
about the rows as a set. -/
def recipientsOf (db : Db) (threadId : Uuid) : List RecipientRow :=
  db.threadRecipients.rows.filter fun r => r.threadId = threadId

/-- `INSERT INTO threads`; `none` is SQLite's IntegrityError. -/
def insertThread? (db : Db) (row : ThreadRow) : Option Db :=
  match inserted : db.threads.insert? row with
  | none => none
  | some threads => some { db with
      threads
      messages_thread := fun m member => by
        rw [Table.get?_of_insert? inserted]
        split
        · rfl
        · exact db.messages_thread m member
      recipients_thread := fun r member => by
        rw [Table.get?_of_insert? inserted]
        split
        · rfl
        · exact db.recipients_thread r member }

/-- `INSERT INTO messages`; `none` is SQLite's IntegrityError. -/
def insertMessage? (db : Db) (row : Message) : Option Db :=
  if parent : (db.threads.get? row.threadId).isSome then
    match inserted : db.messages.insert? row with
    | none => none
    | some messages => some { db with
        messages
        messages_thread := fun m member => by
          rw [(Table.insert?_eq_some_iff.mp inserted).2, List.mem_append, List.mem_singleton] at member
          rcases member with old | rfl
          · exact db.messages_thread m old
          · exact parent }
  else none

/-- `INSERT OR IGNORE INTO thread_recipients`. The conflict clause covers the
primary key only: a missing thread is still an IntegrityError. -/
def insertOrIgnoreRecipient? (db : Db) (row : RecipientRow) : Option Db :=
  if parent : (db.threads.get? row.threadId).isSome then
    some { db with
      threadRecipients := db.threadRecipients.insertOrIgnore row
      recipients_thread := fun r member => by
        rw [Table.insertOrIgnore] at member
        cases inserted : db.threadRecipients.insert? row with
        | none =>
          rw [inserted] at member
          exact db.recipients_thread r member
        | some recipients =>
          rw [inserted, Option.getD_some, (Table.insert?_eq_some_iff.mp inserted).2, List.mem_append,
            List.mem_singleton] at member
          rcases member with old | rfl
          · exact db.recipients_thread r old
          · exact parent }
  else none

/-- `UPDATE threads SET … WHERE id = ?` -/
def updateThread (db : Db) (threadId : Uuid) (set : ThreadRow → ThreadRow) (keeps : ∀ row, (set row).id = row.id) :
    Db :=
  { db with
    threads := db.threads.update threadId set keeps
    messages_thread := fun m member => by
      rw [Table.get?_update]
      have old := db.messages_thread m member
      split <;> simpa using old
    recipients_thread := fun r member => by
      rw [Table.get?_update]
      have old := db.recipients_thread r member
      split <;> simpa using old }

/-- `UPDATE thread_recipients SET acked_at = ? WHERE thread_id = ? AND participant_id = ?` -/
def updateRecipient (db : Db) (threadId : Uuid) (participantId : String) (ackedAt : Timestamp) : Db :=
  { db with
    threadRecipients :=
      db.threadRecipients.update (threadId, participantId) (fun r => { r with ackedAt := some ackedAt }) fun _ => rfl
    recipients_thread := fun r member => by
      obtain ⟨old, inTable, same⟩ := List.mem_map.mp member
      have parent := db.recipients_thread old inTable
      subst same
      split <;> exact parent }

theorem insertThread?_eq_some {db db' : Db} {row : ThreadRow} (inserted : db.insertThread? row = some db') :
    db.threads.insert? row = some db'.threads ∧ db'.messages = db.messages ∧
      db'.threadRecipients = db.threadRecipients := by
  unfold insertThread? at inserted
  split at inserted
  · cases inserted
  · cases inserted
    exact ⟨by assumption, rfl, rfl⟩

theorem insertThread?_eq_none_iff {db : Db} {row : ThreadRow} :
    db.insertThread? row = none ↔ ∃ old, db.thread? row.id = some old := by
  rw [thread?, ← Table.insert?_eq_none_iff]
  unfold insertThread?
  split <;> simp_all

theorem insertMessage?_eq_some {db db' : Db} {row : Message} (inserted : db.insertMessage? row = some db') :
    db'.threads = db.threads ∧ db.messages.insert? row = some db'.messages ∧
      db'.threadRecipients = db.threadRecipients := by
  unfold insertMessage? at inserted
  split at inserted
  · split at inserted
    · cases inserted
    · cases inserted
      exact ⟨rfl, by assumption, rfl⟩
  · cases inserted

/-- The primary key of a new message is not free. -/
def MessageIdTaken (db : Db) (id : Uuid) : Prop := (db.messages.get? id).isSome

instance (db : Db) (id : Uuid) : Decidable (db.MessageIdTaken id) :=
  inferInstanceAs (Decidable ((db.messages.get? id).isSome = true))

theorem insertMessage?_eq_none_iff {db : Db} (row : Message) {thread : ThreadRow}
    (found : db.thread? row.threadId = some thread) : db.insertMessage? row = none ↔ db.MessageIdTaken row.id := by
  have parent : (db.threads.get? row.threadId).isSome := by
    rw [thread?] at found
    rw [found]
    rfl
  rw [MessageIdTaken, Option.isSome_iff_exists, ← Table.insert?_eq_none_iff]
  unfold insertMessage?
  rw [dif_pos parent]
  split <;> simp_all

/-- The key of a message that was added was free. -/
theorem free_of_added {db db' : Db} {m : Message} (added : db'.messages.rows = db.messages.rows ++ [m]) :
    ¬db.MessageIdTaken m.id := by
  intro taken
  obtain ⟨old, found⟩ := Option.isSome_iff_exists.mp taken
  obtain ⟨member, same⟩ := Table.get?_eq_some_iff.mp found
  have unique := db'.messages.unique
  rw [added, List.map_append, List.nodup_append] at unique
  exact unique.2.2 _ (List.mem_map_of_mem member) _ (List.mem_singleton.mpr rfl) same

theorem insertMessage?_rows {db db' : Db} {row : Message} (inserted : db.insertMessage? row = some db') :
    db'.messages.rows = db.messages.rows ++ [row] :=
  (Table.insert?_eq_some_iff.mp (insertMessage?_eq_some inserted).2.1).2

theorem insertOrIgnoreRecipient?_eq_some {db db' : Db} {row : RecipientRow}
    (inserted : db.insertOrIgnoreRecipient? row = some db') :
    db'.threads = db.threads ∧ db'.messages = db.messages ∧
      db'.threadRecipients = db.threadRecipients.insertOrIgnore row := by
  unfold insertOrIgnoreRecipient? at inserted
  split at inserted
  · cases inserted
    exact ⟨rfl, rfl, rfl⟩
  · cases inserted

/-- With its thread present the insertion of a recipient cannot fail. -/
theorem insertOrIgnoreRecipient?_of_thread {db : Db} (row : RecipientRow) {thread : ThreadRow}
    (found : db.thread? row.threadId = some thread) : ∃ db', db.insertOrIgnoreRecipient? row = some db' := by
  have parent : (db.threads.get? row.threadId).isSome := by
    rw [thread?] at found
    rw [found]
    rfl
  exact ⟨_, dif_pos parent⟩

/-- By the foreign key nothing is inserted for a thread that is not there. -/
theorem insertMessage?_of_absent {db : Db} (row : Message) (absent : db.thread? row.threadId = none) :
    db.insertMessage? row = none :=
  dif_neg (by rw [← thread?, absent]; exact Bool.false_ne_true)

theorem insertOrIgnoreRecipient?_of_absent {db : Db} (row : RecipientRow) (absent : db.thread? row.threadId = none) :
    db.insertOrIgnoreRecipient? row = none :=
  dif_neg (by rw [← thread?, absent]; exact Bool.false_ne_true)

@[simp] theorem messages_updateThread (db : Db) (threadId : Uuid) (set : ThreadRow → ThreadRow)
    (keeps : ∀ row, (set row).id = row.id) : (db.updateThread threadId set keeps).messages = db.messages := rfl

theorem thread?_updateThread (db : Db) (threadId : Uuid) (set : ThreadRow → ThreadRow)
    (keeps : ∀ row, (set row).id = row.id) (t : Uuid) :
    (db.updateThread threadId set keeps).thread? t = if t = threadId then (db.thread? t).map set else db.thread? t :=
  Table.get?_update _ _ _ keeps _

theorem thread?_of_updateThread {db : Db} {t : Uuid} {set : ThreadRow → ThreadRow}
    {keeps : ∀ row, (set row).id = row.id} (u : Uuid) (row' : ThreadRow)
    (found : (db.updateThread t set keeps).thread? u = some row') : ∃ row, db.thread? u = some row := by
  rw [thread?_updateThread] at found
  split at found
  · obtain ⟨row, atRow, _⟩ := Option.map_eq_some_iff.mp found
    exact ⟨row, atRow⟩
  · exact ⟨row', found⟩

/-- `SELECT … FROM threads WHERE id = ?`, for one column or several. -/
def column {α : Type} (db : Db) (get : ThreadRow → α) (threadId : Uuid) : Option α := (db.thread? threadId).map get

theorem column_updateThread {α : Type} {db : Db} {get : ThreadRow → α} {threadId : Uuid}
    {set : ThreadRow → ThreadRow} {keeps : ∀ row, (set row).id = row.id} (sets : ∀ row, get (set row) = get row)
    (t : Uuid) : (db.updateThread threadId set keeps).column get t = db.column get t := by
  rw [column, column, thread?_updateThread]
  split
  · rw [Option.map_map]
    exact Option.map_congr fun row _ => sets row
  · rfl

theorem messagesOf_congr {db db' : Db} (same : db'.messages = db.messages) (threadId : Uuid) :
    db'.messagesOf threadId = db.messagesOf threadId := by
  rw [messagesOf, messagesOf, same]

/-- The row for one participant of one thread. -/
def recipient? (db : Db) (threadId : Uuid) (participantId : String) : Option RecipientRow :=
  db.threadRecipients.get? (threadId, participantId)

theorem recipient?_spec {db : Db} {threadId : Uuid} {participantId : String} {r : RecipientRow}
    (found : db.recipient? threadId participantId = some r) :
    r ∈ db.threadRecipients.rows ∧ r.threadId = threadId ∧ r.participantId = participantId := by
  have key : r.key = (threadId, participantId) := Table.get?_key found
  exact ⟨Table.get?_mem found, congrArg Prod.fst key, congrArg Prod.snd key⟩

theorem mem_recipientsOf {db : Db} {threadId : Uuid} {r : RecipientRow} :
    r ∈ db.recipientsOf threadId ↔ db.recipient? threadId r.participantId = some r := by
  simp only [recipientsOf, recipient?, List.mem_filter, decide_eq_true_eq, Table.get?_eq_some_iff, RecipientRow.key,
    Prod.mk.injEq, and_true]

theorem mem_recipientsOf_iff_exists {db : Db} {threadId : Uuid} {p : String} :
    p ∈ (db.recipientsOf threadId).map RecipientRow.participantId ↔ ∃ r, db.recipient? threadId p = some r := by
  rw [List.mem_map]
  constructor
  · rintro ⟨r, member, rfl⟩
    exact ⟨r, mem_recipientsOf.mp member⟩
  · rintro ⟨r, found⟩
    obtain ⟨_, _, same⟩ := recipient?_spec found
    subst same
    exact ⟨r, mem_recipientsOf.mpr found, rfl⟩

/-- By the primary key each participant has one row of a thread. -/
theorem recipientsOf_nodup (db : Db) (threadId : Uuid) :
    ((db.recipientsOf threadId).map RecipientRow.participantId).Nodup := by
  have keys : (db.recipientsOf threadId).map RecipientRow.key =
      ((db.recipientsOf threadId).map RecipientRow.participantId).map fun p => (threadId, p) := by
    rw [List.map_map]
    refine List.map_congr_left fun r member => ?_
    obtain ⟨_, same⟩ := List.mem_filter.mp member
    exact Prod.ext (of_decide_eq_true same) rfl
  have unique : ((db.recipientsOf threadId).map RecipientRow.key).Nodup :=
    db.threadRecipients.unique.sublist (List.filter_sublist.map _)
  rw [keys] at unique
  exact unique.of_map _

theorem recipient?_updateRecipient (db : Db) (threadId : Uuid) (participantId : String) (ackedAt : Timestamp)
    (t : Uuid) (p : String) : (db.updateRecipient threadId participantId ackedAt).recipient? t p =
      if (t, p) = (threadId, participantId) then (db.recipient? t p).map fun r => { r with ackedAt := some ackedAt }
      else db.recipient? t p :=
  Table.get?_update db.threadRecipients (threadId, participantId) (fun r => { r with ackedAt := some ackedAt })
    (fun _ => rfl) (t, p)

/-- By the foreign key a thread that does not exist has no messages. -/
theorem messagesOf_eq_nil {db : Db} {threadId : Uuid} (absent : db.thread? threadId = none) :
    db.messagesOf threadId = [] := by
  rw [messagesOf, List.filter_eq_nil_iff]
  intro m member same
  have parent := db.messages_thread m member
  rw [of_decide_eq_true same] at parent
  rw [thread?] at absent
  simp [absent] at parent

theorem recipient?_eq_none {db : Db} {threadId : Uuid} (absent : db.thread? threadId = none) (p : String) :
    db.recipient? threadId p = none := by
  cases found : db.recipient? threadId p with
  | none => rfl
  | some r =>
    obtain ⟨member, same, _⟩ := recipient?_spec found
    have parent := db.recipients_thread r member
    rw [thread?] at absent
    simp [same, absent] at parent

end Db

end PbChatroom
