import PbChatroom.Store.Schema

namespace PbChatroom
open Relational

/-- `store/errors.py`, and the IntegrityError of SQLite itself. -/
inductive StoreError where
  | threadNotFound (threadId : Uuid)
  | claimConflict (claimedBy : Option String)
  | integrity
  deriving DecidableEq, Repr

/-- The dict that `create_thread` returns, with the two keys that the handler
adds to it later. -/
structure CreatedThread where
  id : Uuid
  subject : String
  createdBy : String
  status : Status
  createdAt : Timestamp
  lastMessageAt : Timestamp
  discussionType : Option String
  recipients : List String
  deriving DecidableEq, Repr

/-- `create_thread`: the thread and its seed message in one transaction. -/
def createThread (db : Db) (threadId msgId : Uuid) (now : DateTime) (subject createdBy toParticipant body : String) :
    Except StoreError (CreatedThread × Db) :=
  let at_ := nowUtc now
  match db.insertThread? ⟨threadId, subject, createdBy, .opened, at_, at_, none, ⟨none, none, none⟩⟩ with
  | none => .error .integrity
  | some db' =>
    match db'.insertMessage? ⟨msgId, threadId, createdBy, toParticipant, body, .message, "\x7b\x7d", at_⟩ with
    | none => .error .integrity
    | some db'' => .ok (⟨threadId, subject, createdBy, .opened, at_, at_, none, []⟩, db'')

def setDiscussionType (db : Db) (threadId : Uuid) (discussionType : String) : Db :=
  db.updateThread threadId (fun row => { row with discussionType := some discussionType }) fun _ => rfl

def updateThreadStatus (db : Db) (threadId : Uuid) (status : Status) : Db :=
  db.updateThread threadId (fun row => { row with status }) fun _ => rfl

/-- The conditional UPDATE of `set_claim`. -/
def claimIfFree (db : Db) (threadId : Uuid) (claim : Claim) : Db :=
  db.updateThread threadId (fun row => if row.claim.claimedBy = none then { row with claim } else row) fun row => by
    split <;> rfl

/-- How many rows the conditional UPDATE of `set_claim` matches. -/
def claimRowcount (db : Db) (threadId : Uuid) : Nat :=
  (db.threads.rows.filter fun row => row.id = threadId ∧ row.claim.claimedBy = none).length

/-- `set_claim`: one transaction, with the store it commits or leaves behind. -/
def setClaim (db : Db) (threadId : Uuid) (participantId scope : String) (now : DateTime) :
    Except StoreError Claim × Db :=
  let claim : Claim := ⟨some participantId, some (nowUtc now), some scope⟩
  if claimRowcount db threadId = 0 then
    match db.thread? threadId with
    | none => (.error (.threadNotFound threadId), db)
    | some row =>
      if row.claim.claimedBy = some participantId then (.ok row.claim, db)
      else (.error (.claimConflict row.claim.claimedBy), db)
  else (.ok claim, claimIfFree db threadId claim)

/-- `ORDER BY created_at ASC`: the column is text. -/
def createdNoLater (m n : Message) : Prop := ¬n.createdAt.text < m.createdAt.text

instance : DecidableRel createdNoLater := fun _ _ => inferInstanceAs (Decidable (¬_))

theorem createdNoLater_iff {m n : Message} : createdNoLater m n ↔ m.createdAt.text ≤ n.createdAt.text := not_lt

instance : Std.Total createdNoLater :=
  ⟨fun _ _ => (le_total _ _).imp createdNoLater_iff.mpr createdNoLater_iff.mpr⟩

instance : IsTrans Message createdNoLater :=
  ⟨fun _ _ _ first second =>
    createdNoLater_iff.mpr (le_trans (createdNoLater_iff.mp first) (createdNoLater_iff.mp second))⟩

structure ThreadWithMessages where
  thread : ThreadRow
  messages : List Message
  recipients : List String
  deriving DecidableEq, Repr

/-- `get_thread_with_messages`. Its three SELECTs are one read here: what the
handlers use of the thread row never changes, so all is as the SELECT over
`messages` finds it. -/
def getThreadWithMessages (db : Db) (threadId : Uuid) : Option ThreadWithMessages :=
  (db.thread? threadId).map fun thread =>
    { thread
      messages := orderBy createdNoLater (db.messagesOf threadId)
      recipients := (db.recipientsOf threadId).map RecipientRow.participantId }

/-- `list(dict.fromkeys(keys))`: the first occurrence of each key stays. -/
def dictFromKeys : List String → List String
  | [] => []
  | key :: keys => key :: (dictFromKeys keys).filter (· ≠ key)

/-- `GROUP_CONCAT(participant_id, ',')`, which is NULL over no rows. -/
def groupConcat (ids : List String) : Option String :=
  if ids = [] then none else some (String.intercalate "," ids)

/-- `text.split(',')` -/
def splitComma (text : String) : List String := (text.toList.splitOn ',').map String.ofList

/-- One dict of the result of `list_threads`. -/
structure ThreadSummary where
  id : Uuid
  subject : String
  createdBy : String
  status : Status
  createdAt : Timestamp
  lastMessageAt : Timestamp
  toParticipant : Option String
  messageCount : Nat
  claimedBy : Option String
  claimedAt : Option Timestamp
  discussionType : Option String
  recipients : List String
  deriving DecidableEq, Repr

/-- The filters of `list_threads`. -/
structure ThreadFilter where
  toParticipant : Option String
  status : Option Status
  discussionTypes : Option (List String)
  since : Option (List Char)

/-- The WHERE clause: each filter that is set adds one conjunct. -/
def ThreadFilter.matches (f : ThreadFilter) (db : Db) (t : ThreadRow) : Bool :=
  (match f.toParticipant with
    | none => true
    | some p => (db.messages.rows.any fun m => m.toParticipant = p ∧ m.threadId = t.id) ||
        db.threadRecipients.rows.any fun r => r.participantId = p ∧ r.threadId = t.id) &&
  (match f.status with
    | none => true
    | some status => t.status = status) &&
  (match f.discussionTypes with
    | none | some [] => true
    | some types => types.any fun type => t.discussionType = some type) &&
  match f.since with
    | none => true
    | some since => ¬t.lastMessageAt.text < since

/-- `ORDER BY CASE status WHEN 'open' THEN 0 ELSE 1 END, last_message_at DESC` -/
def listedNoLater (t u : ThreadRow) : Prop :=
  t.status = .opened ∧ u.status = .acked ∨ t.status = u.status ∧ ¬t.lastMessageAt.text < u.lastMessageAt.text

instance : DecidableRel listedNoLater := fun _ _ => inferInstanceAs (Decidable (_ ∨ _))

def summarize (db : Db) (t : ThreadRow) : ThreadSummary :=
  let root := (orderBy createdNoLater (db.messagesOf t.id)).head?.map Message.toParticipant
  let extra := groupConcat ((db.recipientsOf t.id).map RecipientRow.participantId)
  { id := t.id
    subject := t.subject
    createdBy := t.createdBy
    status := t.status
    createdAt := t.createdAt
    lastMessageAt := t.lastMessageAt
    toParticipant := root
    messageCount := (db.messagesOf t.id).length
    claimedBy := t.claim.claimedBy
    claimedAt := t.claim.claimedAt
    discussionType := t.discussionType
    recipients := dictFromKeys ((if truthy root then root.toList else []) ++
      if truthy extra then splitComma (extra.getD "") else []) }

/-- `list_threads`. SQL leaves the order open among threads of one status and one text of
`last_message_at`, and SQLite has them by id where it looks up the ids of `?to=`; the
model has them as they were inserted, and statements about the order are up to such
ties. -/
def listThreads (db : Db) (f : ThreadFilter) : List ThreadSummary :=
  (orderBy listedNoLater (db.threads.rows.filter (f.matches db))).map (summarize db)

/-- A transaction that inserts the message `m` and applies `set` to the row of
its thread, which exists, and does nothing else. -/
structure Appended (set : ThreadRow → ThreadRow) (db : Db) (m : Message) (db' : Db) : Prop where
  parent : ∃ row, db.thread? m.threadId = some row
  threads : ∀ t, db'.thread? t = if t = m.threadId then (db.thread? t).map set else db.thread? t
  messages : db'.messages.rows = db.messages.rows ++ [m]
  recipients : db'.threadRecipients = db.threadRecipients

/-- What `create_thread` commits: the id was free, and exactly one thread and
its seed message are added. -/
structure Created (db : Db) (row : ThreadRow) (seed : Message) (db' : Db) : Prop where
  fresh : db.thread? row.id = none
  threads : ∀ t, db'.thread? t = if t = row.id then some row else db.thread? t
  messages : db'.messages.rows = db.messages.rows ++ [seed]
  recipients : db'.threadRecipients = db.threadRecipients

theorem Appended.column {α : Type} {set : ThreadRow → ThreadRow} {db db' : Db} {m : Message} {get : ThreadRow → α}
    (appended : Appended set db m db') (t : Uuid) (sets : t = m.threadId → ∀ row, get (set row) = get row) :
    db'.column get t = db.column get t := by
  rw [Db.column, Db.column, appended.threads]
  split
  · rename_i here
    rw [Option.map_map]
    exact Option.map_congr fun row _ => sets here row
  · rfl

theorem Created.column {α : Type} {db db' : Db} {row : ThreadRow} {seed : Message} {get : ThreadRow → α}
    (created : Created db row seed db') {t : Uuid} (other : t ≠ row.id) : db'.column get t = db.column get t := by
  rw [Db.column, Db.column, created.threads, if_neg other]

theorem createThread_ok {db db' : Db} {threadId msgId : Uuid} {now : DateTime}
    {subject createdBy toParticipant body : String} {result : CreatedThread}
    (created : createThread db threadId msgId now subject createdBy toParticipant body = .ok (result, db')) :
    result = ⟨threadId, subject, createdBy, .opened, nowUtc now, nowUtc now, none, []⟩ ∧
      Created db ⟨threadId, subject, createdBy, .opened, nowUtc now, nowUtc now, none, ⟨none, none, none⟩⟩
        ⟨msgId, threadId, createdBy, toParticipant, body, .message, "\x7b\x7d", nowUtc now⟩ db' := by
  unfold createThread at created
  dsimp only at created
  split at created
  · cases created
  · rename_i middle insertedThread
    split at created
    · cases created
    · rename_i insertedSeed
      cases created
      obtain ⟨threads, messages, recipients⟩ := Db.insertThread?_eq_some insertedThread
      obtain ⟨threads', _, recipients'⟩ := Db.insertMessage?_eq_some insertedSeed
      refine ⟨rfl, ⟨(Table.insert?_eq_some_iff.mp threads).1, ?_, ?_, recipients'.trans recipients⟩⟩
      · intro t
        rw [Db.thread?, threads', Table.get?_of_insert? threads]
        rfl
      · rw [Db.insertMessage?_rows insertedSeed, messages]

theorem thread?_setDiscussionType (db : Db) (threadId : Uuid) (discussionType : String) (t : Uuid) :
    (setDiscussionType db threadId discussionType).thread? t =
      if t = threadId then (db.thread? t).map fun row => { row with discussionType := some discussionType }
      else db.thread? t :=
  Db.thread?_updateThread ..

theorem thread?_updateThreadStatus (db : Db) (threadId : Uuid) (status : Status) (t : Uuid) :
    (updateThreadStatus db threadId status).thread? t =
      if t = threadId then (db.thread? t).map fun row => { row with status } else db.thread? t :=
  Db.thread?_updateThread ..

theorem claimRowcount_eq_zero_iff {db : Db} {threadId : Uuid} :
    claimRowcount db threadId = 0 ↔ ∀ row, db.thread? threadId = some row → row.claim.claimedBy ≠ none := by
  simp only [claimRowcount, List.length_eq_zero_iff, List.filter_eq_nil_iff, decide_eq_true_eq, not_and]
  constructor
  · intro unmatched row found
    exact unmatched row (Table.get?_mem found) (Table.get?_key found)
  · intro claimed row member same
    exact claimed row (Table.get?_eq_some_iff.mpr ⟨member, same⟩)

end PbChatroom
