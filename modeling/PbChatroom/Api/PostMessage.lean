import PbChatroom.Api.PostThread
import PbChatroom.Store.Messages

namespace PbChatroom

/-- Where a call of `post_message` stands between its transactions. -/
inductive PostMessage where
  | start
  | listing (thread : ThreadWithMessages)
  | drawing (recipient : String)
  | appending (recipient : String) (d : Draw)
  | typing (result : Message) (discussionType : String)
  | done (answer : Except HTTPException Message)

namespace PostMessage

def step (threadId : Uuid) (caller : Participant) (payload : MessageCreate) (x : Input) (db : Db) :
    PostMessage → Db × PostMessage
  | .start =>
    match x with
    | .draw _ => (db, .start)
    | .transaction =>
      match getThreadWithMessages db threadId with
      | none => (db, .done (.error threadNotFound))
      | some thread => (db, .listing thread)
  | .listing thread =>
    match x with
    | .draw _ => (db, .listing thread)
    | .transaction =>
      match resolveParticipants thread caller.id ((listRecipients db threadId).map RecipientRow.participantId) with
      | .error e => (db, .done (.error e))
      | .ok recipient => (db, .drawing recipient)
  | .drawing recipient =>
    match x with
    | .transaction => (db, .drawing recipient)
    | .draw d => (db, .appending recipient d)
  | .appending recipient d =>
    match x with
    | .draw _ => (db, .appending recipient d)
    | .transaction =>
      match appendMessage db d.uuid threadId d.now caller.id recipient payload.body with
      | .error (.threadNotFound _) => (db, .done (.error threadNotFound))
      | .error _ => (db, .done (.error internalServerError))
      | .ok (result, db') =>
        match payload.discussionType with
        | none => (db', .done (.ok result))
        | some discussionType =>
          if discussionType ≠ "" then (db', .typing result discussionType) else (db', .done (.ok result))
  | .typing result discussionType =>
    match x with
    | .draw _ => (db, .typing result discussionType)
    | .transaction => (setDiscussionType db threadId discussionType, .done (.ok result))
  | .done answer => (db, .done answer)

/-- Everything one step of a call can do. -/
inductive Moves (threadId : Uuid) (caller : Participant) (payload : MessageCreate) (db : Db) :
    PostMessage → Db → PostMessage → Prop
  | idle pc : Moves threadId caller payload db pc db pc
  | notFound : db.thread? threadId = none →
      Moves threadId caller payload db .start db (.done (.error threadNotFound))
  | reads {thread} : getThreadWithMessages db threadId = some thread →
      Moves threadId caller payload db .start db (.listing thread)
  | refused {thread e} :
      resolveParticipants thread caller.id ((listRecipients db threadId).map RecipientRow.participantId) = .error e →
      Moves threadId caller payload db (.listing thread) db (.done (.error e))
  | resolves {thread recipient} :
      resolveParticipants thread caller.id ((listRecipients db threadId).map RecipientRow.participantId) =
        .ok recipient →
      Moves threadId caller payload db (.listing thread) db (.drawing recipient)
  | draws recipient d : Moves threadId caller payload db (.drawing recipient) db (.appending recipient d)
  | appendFails recipient d {e} : (db.thread? threadId = none ∨ e = internalServerError) →
      Moves threadId caller payload db (.appending recipient d) db (.done (.error e))
  | appendsTyped {recipient d result db' discussionType} :
      appendMessage db d.uuid threadId d.now caller.id recipient payload.body = .ok (result, db') →
      payload.discussionType = some discussionType → discussionType ≠ "" →
      Moves threadId caller payload db (.appending recipient d) db' (.typing result discussionType)
  | appends {recipient d result db'} :
      appendMessage db d.uuid threadId d.now caller.id recipient payload.body = .ok (result, db') →
      ¬truthy payload.discussionType →
      Moves threadId caller payload db (.appending recipient d) db' (.done (.ok result))
  | types result discussionType :
      Moves threadId caller payload db (.typing result discussionType) (setDiscussionType db threadId discussionType)
        (.done (.ok result))

theorem step_moves (threadId : Uuid) (caller : Participant) (payload : MessageCreate) (x : Input) (db : Db)
    (pc : PostMessage) : Moves threadId caller payload db pc (step threadId caller payload x db pc).1
      (step threadId caller payload x db pc).2 := by
  cases pc with
  | start =>
    cases x with
    | draw => exact .idle _
    | transaction =>
      simp only [step]
      split
      · rename_i absent
        exact .notFound (by simpa [getThreadWithMessages] using absent)
      · exact .reads (by assumption)
  | listing thread =>
    cases x with
    | draw => exact .idle _
    | transaction =>
      simp only [step]
      split
      · exact .refused (by assumption)
      · exact .resolves (by assumption)
  | drawing recipient =>
    cases x with
    | transaction => exact .idle _
    | draw d => exact .draws recipient d
  | appending recipient d =>
    cases x with
    | draw => exact .idle _
    | transaction =>
      simp only [step]
      split
      · rename_i failed
        exact .appendFails recipient d (Or.inl (appendMessage_threadNotFound failed))
      · exact .appendFails recipient d (Or.inr rfl)
      · rename_i result db' appended
        split
        · rename_i absent
          exact .appends appended (by simp [absent, truthy])
        · rename_i discussionType given
          split
          · rename_i nonempty
            exact .appendsTyped appended given nonempty
          · rename_i empty
            exact .appends appended (by simpa [given, truthy] using empty)
  | typing result discussionType =>
    cases x with
    | draw => exact .idle _
    | transaction => exact .types result discussionType
  | done => exact .idle _

end PostMessage

end PbChatroom
