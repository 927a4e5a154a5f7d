import PbChatroom.Api.Participants
import PbChatroom.Store.Recipients

namespace PbChatroom

/-- What the clock and `uuid4` return where a handler calls them. -/
structure Draw where
  now : DateTime
  uuid : Uuid
  uuid' : Uuid
  deriving DecidableEq, Repr

/-- A handler moves by one database transaction, or by reading the clock and
drawing ids, which happens before the transaction that uses them. -/
inductive Input where
  | transaction
  | draw (d : Draw)
  deriving DecidableEq, Repr

/-- Where a call of `post_thread` stands between its transactions. -/
inductive PostThread where
  | start
  | creating (d : Draw)
  | typing (result : CreatedThread) (discussionType : String)
  | adding (result : CreatedThread) (recipient : String) (rest : List String)
  | done (answer : Except HTTPException CreatedThread)

namespace PostThread

/-- The handler goes on to its loop over `[primary] + extras`. -/
def beginAdding (payload : ThreadCreate) (result : CreatedThread) : PostThread :=
  .adding result payload.primary payload.extras

def step (caller : Participant) (payload : ThreadCreate) (x : Input) (db : Db) : PostThread → Db × PostThread
  | .start =>
    match x with
    | .transaction => (db, .start)
    | .draw d => (db, .creating d)
  | .creating d =>
    match x with
    | .draw _ => (db, .creating d)
    | .transaction =>
      match createThread db d.uuid d.uuid' d.now payload.subject caller.id payload.primary payload.body with
      | .error _ => (db, .done (.error internalServerError))
      | .ok (result, db') =>
        match payload.discussionType with
        | none => (db', beginAdding payload result)
        | some discussionType =>
          if discussionType ≠ "" then (db', .typing result discussionType) else (db', beginAdding payload result)
  | .typing result discussionType =>
    match x with
    | .draw _ => (db, .typing result discussionType)
    | .transaction =>
      (setDiscussionType db result.id discussionType,
        beginAdding payload { result with discussionType := some discussionType })
  | .adding result recipient rest =>
    match x with
    | .draw _ => (db, .adding result recipient rest)
    | .transaction =>
      match addRecipient db result.id recipient with
      | none => (db, .done (.error internalServerError))
      | some db' =>
        match rest with
        | next :: rest => (db', .adding result next rest)
        | [] => (db', .done (.ok { result with recipients := payload.allRecipients }))
  | .done answer => (db, .done answer)

/-- Everything one step of a call can do. Inputs that do not fit leave the
call where it stands. -/
inductive Moves (caller : Participant) (payload : ThreadCreate) (db : Db) : PostThread → Db → PostThread → Prop
  | idle pc : Moves caller payload db pc db pc
  | draws d : Moves caller payload db .start db (.creating d)
  | createFails d : Moves caller payload db (.creating d) db (.done (.error internalServerError))
  | createsTyped d {result db' discussionType} :
      createThread db d.uuid d.uuid' d.now payload.subject caller.id payload.primary payload.body = .ok (result, db') →
      payload.discussionType = some discussionType → discussionType ≠ "" →
      Moves caller payload db (.creating d) db' (.typing result discussionType)
  | creates d {result db'} :
      createThread db d.uuid d.uuid' d.now payload.subject caller.id payload.primary payload.body = .ok (result, db') →
      ¬truthy payload.discussionType → Moves caller payload db (.creating d) db' (beginAdding payload result)
  | types result discussionType :
      Moves caller payload db (.typing result discussionType) (setDiscussionType db result.id discussionType)
        (beginAdding payload { result with discussionType := some discussionType })
  | addFails result recipient rest : addRecipient db result.id recipient = none →
      Moves caller payload db (.adding result recipient rest) db (.done (.error internalServerError))
  | adds {result recipient next rest db'} : addRecipient db result.id recipient = some db' →
      Moves caller payload db (.adding result recipient (next :: rest)) db' (.adding result next rest)
  | finishes {result recipient db'} : addRecipient db result.id recipient = some db' →
      Moves caller payload db (.adding result recipient []) db'
        (.done (.ok { result with recipients := payload.allRecipients }))

theorem step_moves (caller : Participant) (payload : ThreadCreate) (x : Input) (db : Db) (pc : PostThread) :
    Moves caller payload db pc (step caller payload x db pc).1 (step caller payload x db pc).2 := by
  cases pc with
  | start =>
    cases x with
    | transaction => exact .idle _
    | draw d => exact .draws d
  | creating d =>
    cases x with
    | draw => exact .idle _
    | transaction =>
      simp only [step]
      split
      · exact .createFails d
      · rename_i result db' created
        split
        · rename_i absent
          exact .creates d created (by simp [absent, truthy])
        · rename_i discussionType given
          split
          · rename_i nonempty
            exact .createsTyped d created given nonempty
          · rename_i empty
            exact .creates d created (by simpa [given, truthy] using empty)
  | typing result discussionType =>
    cases x with
    | draw => exact .idle _
    | transaction => exact .types result discussionType
  | adding result recipient rest =>
    cases x with
    | draw => exact .idle _
    | transaction =>
      simp only [step]
      split
      · exact .addFails result recipient rest (by assumption)
      · cases rest with
        | nil => exact .finishes (by assumption)
        | cons => exact .adds (by assumption)
  | done => exact .idle _

end PostThread

end PbChatroom
