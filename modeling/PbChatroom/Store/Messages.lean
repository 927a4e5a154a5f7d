import PbChatroom.Store.Threads

namespace PbChatroom
open Relational

/-- `_INSERT_MSG`, with its parameters in column order. -/
def insertMsg (db : Db) (id threadId : Uuid) (fromParticipant toParticipant body : String) (kind : Kind)
    (metadata : String) (createdAt : Timestamp) : Option Db :=
  db.insertMessage? ⟨id, threadId, fromParticipant, toParticipant, body, kind, metadata, createdAt⟩

/-- `UPDATE threads SET last_message_at = ? WHERE id = ?` -/
def setLastMessageAt (db : Db) (threadId : Uuid) (createdAt : Timestamp) : Db :=
  db.updateThread threadId (fun row => { row with lastMessageAt := createdAt }) fun _ => rfl

/-- `append_message`, called without metadata. -/
def appendMessage (db : Db) (msgId threadId : Uuid) (now : DateTime) (fromParticipant toParticipant body : String) :
    Except StoreError (Message × Db) :=
  let createdAt := nowIso now
  match db.thread? threadId with
  | none => .error (.threadNotFound threadId)
  | some _ =>
    match insertMsg db msgId threadId fromParticipant toParticipant body .message "\x7b\x7d" createdAt with
    | none => .error .integrity
    | some db' =>
      .ok (⟨msgId, threadId, fromParticipant, toParticipant, body, .message, "\x7b\x7d", createdAt⟩,
        setLastMessageAt db' threadId createdAt)

/-- `append_ack`, called without metadata: one more column is set than in
`append_message`, in the same transaction. -/
def appendAck (db : Db) (msgId threadId : Uuid) (now : DateTime) (fromParticipant toParticipant body : String) :
    Except StoreError (Message × Db) :=
  let createdAt := nowIso now
  match db.thread? threadId with
  | none => .error (.threadNotFound threadId)
  | some _ =>
    match insertMsg db msgId threadId fromParticipant toParticipant body .ack "\x7b\x7d" createdAt with
    | none => .error .integrity
    | some db' =>
      .ok (⟨msgId, threadId, fromParticipant, toParticipant, body, .ack, "\x7b\x7d", createdAt⟩,
        db'.updateThread threadId (fun row => { row with status := .acked, lastMessageAt := createdAt }) fun _ => rfl)

/-- `list_messages` -/
def listMessages (db : Db) (threadId : Uuid) : List Message := orderBy createdNoLater (db.messagesOf threadId)

/-- Inserting a message and then updating its thread is one `Appended`. -/
theorem appended_of_insertMessage? {db middle : Db} {m : Message} {set : ThreadRow → ThreadRow}
    {keeps : ∀ row, (set row).id = row.id} (parent : ∃ row, db.thread? m.threadId = some row)
    (inserted : db.insertMessage? m = some middle) : Appended set db m (middle.updateThread m.threadId set keeps) := by
  obtain ⟨threads, _, recipients⟩ := Db.insertMessage?_eq_some inserted
  refine ⟨parent, ?_, ?_, recipients⟩
  · intro t
    rw [Db.thread?_updateThread, Db.thread?, Db.thread?, threads]
  · rw [Db.messages_updateThread, Db.insertMessage?_rows inserted]

theorem insertMsg_eq_none_iff {db : Db} {msgId t : Uuid} {sender receiver body metadata : String} {kind : Kind}
    {time : Timestamp} {row : ThreadRow} (found : db.thread? t = some row) :
    insertMsg db msgId t sender receiver body kind metadata time = none ↔ db.MessageIdTaken msgId :=
  Db.insertMessage?_eq_none_iff ⟨msgId, t, sender, receiver, body, kind, metadata, time⟩ found

theorem appendMessage_ok {db db' : Db} {msgId threadId : Uuid} {now : DateTime}
    {fromParticipant toParticipant body : String} {m : Message}
    (appended : appendMessage db msgId threadId now fromParticipant toParticipant body = .ok (m, db')) :
    m = ⟨msgId, threadId, fromParticipant, toParticipant, body, .message, "\x7b\x7d", nowIso now⟩ ∧
      Appended (fun row => { row with lastMessageAt := m.createdAt }) db m db' := by
  unfold appendMessage at appended
  dsimp only at appended
  split at appended
  · cases appended
  · rename_i row found
    split at appended
    · cases appended
    · rename_i inserted
      cases appended
      exact ⟨rfl, appended_of_insertMessage? ⟨row, found⟩ inserted⟩

theorem appendMessage_of_free {db : Db} {msgId t : Uuid} {now : DateTime} {sender receiver body : String}
    {row : ThreadRow} (found : db.thread? t = some row) (free : ¬db.MessageIdTaken msgId) :
    ∃ m db', appendMessage db msgId t now sender receiver body = .ok (m, db') := by
  unfold appendMessage
  dsimp only
  rw [found]
  dsimp only
  split
  · rename_i failed
    exact absurd ((insertMsg_eq_none_iff found).mp failed) free
  · exact ⟨_, _, rfl⟩

theorem appendMessage_of_taken {db : Db} {msgId t : Uuid} {now : DateTime} {sender receiver body : String}
    {row : ThreadRow} (found : db.thread? t = some row) (taken : db.MessageIdTaken msgId) :
    appendMessage db msgId t now sender receiver body = .error .integrity := by
  unfold appendMessage
  dsimp only
  rw [found]
  dsimp only
  rw [(insertMsg_eq_none_iff found).mpr taken]

theorem appendMessage_threadNotFound {db : Db} {msgId threadId t : Uuid} {now : DateTime}
    {fromParticipant toParticipant body : String}
    (failed : appendMessage db msgId threadId now fromParticipant toParticipant body = .error (.threadNotFound t)) :
    db.thread? threadId = none := by
  unfold appendMessage at failed
  dsimp only at failed
  split at failed
  · assumption
  · split at failed <;> cases failed

theorem appendAck_ok {db db' : Db} {msgId threadId : Uuid} {now : DateTime}
    {fromParticipant toParticipant body : String} {m : Message}
    (appended : appendAck db msgId threadId now fromParticipant toParticipant body = .ok (m, db')) :
    m = ⟨msgId, threadId, fromParticipant, toParticipant, body, .ack, "\x7b\x7d", nowIso now⟩ ∧
      Appended (fun row => { row with status := .acked, lastMessageAt := m.createdAt }) db m db' := by
  unfold appendAck at appended
  dsimp only at appended
  split at appended
  · cases appended
  · rename_i row found
    split at appended
    · cases appended
    · rename_i inserted
      cases appended
      exact ⟨rfl, appended_of_insertMessage? ⟨row, found⟩ inserted⟩

theorem appendAck_of_free {db : Db} {msgId t : Uuid} {now : DateTime} {sender receiver body : String}
    {row : ThreadRow} (found : db.thread? t = some row) (free : ¬db.MessageIdTaken msgId) :
    ∃ m db', appendAck db msgId t now sender receiver body = .ok (m, db') := by
  unfold appendAck
  dsimp only
  rw [found]
  dsimp only
  split
  · rename_i failed
    exact absurd ((insertMsg_eq_none_iff found).mp failed) free
  · exact ⟨_, _, rfl⟩

theorem appendAck_of_taken {db : Db} {msgId t : Uuid} {now : DateTime} {sender receiver body : String}
    {row : ThreadRow} (found : db.thread? t = some row) (taken : db.MessageIdTaken msgId) :
    appendAck db msgId t now sender receiver body = .error .integrity := by
  unfold appendAck
  dsimp only
  rw [found]
  dsimp only
  rw [(insertMsg_eq_none_iff found).mpr taken]

theorem appendAck_threadNotFound {db : Db} {msgId threadId t : Uuid} {now : DateTime}
    {fromParticipant toParticipant body : String}
    (failed : appendAck db msgId threadId now fromParticipant toParticipant body = .error (.threadNotFound t)) :
    db.thread? threadId = none := by
  unfold appendAck at failed
  dsimp only at failed
  split at failed
  · assumption
  · split at failed <;> cases failed

end PbChatroom
