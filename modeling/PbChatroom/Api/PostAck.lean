import PbChatroom.Api.PostMessage

namespace PbChatroom

/-- The two paths of `post_ack`, by whether the caller is in `extra_ids`. -/
inductive AckPath where
  | recipient
  | closing
  deriving DecidableEq, Repr

/-- Where a call of `post_ack` stands between its transactions. -/
inductive PostAck where
  | start
  | listing (thread : ThreadWithMessages)
  | drawing (path : AckPath) (recipient : String)
  | appending (path : AckPath) (recipient : String) (d : Draw)
  | stamping (recipient : String) (d : Draw)
  | marking (recipient : String) (d : Draw) (now : DateTime)
  | checking (recipient : String) (d : Draw)
  | flipping (recipient : String) (d : Draw)
  | done (answer : Except HTTPException Message)

namespace PostAck

/-- `payload.body if payload is not None else 'Ack'` -/
def body (payload : Option MessageCreate) : String :=
  match payload with
  | some payload => payload.body
  | none => "Ack"

/-- The transaction that the recipient path inlines: the ack row without any
change of the status. -/
def insertAck (db : Db) (threadId : Uuid) (caller recipient body : String) (d : Draw) : Except StoreError Db :=
  let createdAt := nowIso d.now
  match db.thread? threadId with
  | none => .error (.threadNotFound threadId)
  | some _ =>
    match insertMsg db d.uuid threadId caller recipient body .ack "\x7b\x7d" createdAt with
    | none => .error .integrity
    | some db' => .ok (setLastMessageAt db' threadId createdAt)

/-- The dict that the recipient path returns. It is the handler's value: FastAPI serves
its `created_at` as the time that it says, with a Z behind it. -/
def response (threadId : Uuid) (caller recipient body : String) (d : Draw) : Message :=
  { id := d.uuid
    threadId
    fromParticipant := caller
    toParticipant := recipient
    body
    kind := .ack
    metadata := "\x7b\x7d"
    createdAt := nowIso d.now }

def step (threadId : Uuid) (caller : Participant) (payload : Option MessageCreate) (x : Input) (db : Db) :
    PostAck → Db × PostAck
  | .start =>
    match x with
    | .draw _ => (db, .start)
    | .transaction =>
      match getThreadWithMessages db threadId with
      | none => (db, .done (.error threadNotFound))
      | some thread => (db, .listing thread)
  | .listing thread =>
    match x with
    | .draw _ => (db, .listing thread)
    | .transaction =>
      let extraIds := (listRecipients db threadId).map RecipientRow.participantId
      match resolveParticipants thread caller.id extraIds with
      | .error e => (db, .done (.error e))
      | .ok recipient => (db, .drawing (if caller.id ∈ extraIds then .recipient else .closing) recipient)
  | .drawing path recipient =>
    match x with
    | .transaction => (db, .drawing path recipient)
    | .draw d => (db, .appending path recipient d)
  | .appending path recipient d =>
    match x with
    | .draw _ => (db, .appending path recipient d)
    | .transaction =>
      match path with
      | .recipient =>
        match insertAck db threadId caller.id recipient (body payload) d with
        | .error _ => (db, .done (.error internalServerError))
        | .ok db' => (db', .stamping recipient d)
      | .closing =>
        match appendAck db d.uuid threadId d.now caller.id recipient (body payload) with
        | .error (.threadNotFound _) => (db, .done (.error threadNotFound))
        | .error _ => (db, .done (.error internalServerError))
        | .ok (result, db') => (db', .done (.ok result))
  | .stamping recipient d =>
    match x with
    | .transaction => (db, .stamping recipient d)
    | .draw d' => (db, .marking recipient d d'.now)
  | .marking recipient d now =>
    match x with
    | .draw _ => (db, .marking recipient d now)
    | .transaction => (markRecipientAcked db threadId caller.id now, .checking recipient d)
  | .checking recipient d =>
    match x with
    | .draw _ => (db, .checking recipient d)
    | .transaction =>
      if allRecipientsAcked db threadId then (db, .flipping recipient d)
      else (db, .done (.ok (response threadId caller.id recipient (body payload) d)))
  | .flipping recipient d =>
    match x with
    | .draw _ => (db, .flipping recipient d)
    | .transaction =>
      (updateThreadStatus db threadId .acked,
        .done (.ok (response threadId caller.id recipient (body payload) d)))
  | .done answer => (db, .done answer)

theorem insertAck_ok {db db' : Db} {threadId : Uuid} {caller recipient body : String} {d : Draw}
    (inserted : insertAck db threadId caller recipient body d = .ok db') :
    Appended (fun row => { row with lastMessageAt := nowIso d.now }) db
      (response threadId caller recipient body d) db' := by
  unfold insertAck at inserted
  dsimp only at inserted
  split at inserted
  · cases inserted
  · rename_i row found
    split at inserted
    · cases inserted
    · rename_i inserted'
      cases inserted
      exact appended_of_insertMessage? (m := response threadId caller recipient body d) ⟨row, found⟩ inserted'

theorem insertAck_of_free {db : Db} {t : Uuid} {caller recipient body : String} {d : Draw} {row : ThreadRow}
    (found : db.thread? t = some row) (free : ¬db.MessageIdTaken d.uuid) :
    ∃ db', insertAck db t caller recipient body d = .ok db' := by
  unfold insertAck
  dsimp only
  rw [found]
  dsimp only
  split
  · rename_i failed
    exact absurd ((insertMsg_eq_none_iff found).mp failed) free
  · exact ⟨_, rfl⟩

theorem insertAck_of_taken {db : Db} {t : Uuid} {caller recipient body : String} {d : Draw} {row : ThreadRow}
    (found : db.thread? t = some row) (taken : db.MessageIdTaken d.uuid) :
    insertAck db t caller recipient body d = .error .integrity := by
  unfold insertAck
  dsimp only
  rw [found]
  dsimp only
  rw [(insertMsg_eq_none_iff found).mpr taken]

/-- Everything one step of a call can do. -/
inductive Moves (threadId : Uuid) (caller : Participant) (payload : Option MessageCreate) (db : Db) :
    PostAck → Db → PostAck → Prop
  | idle pc : Moves threadId caller payload db pc db pc
  | notFound : db.thread? threadId = none →
      Moves threadId caller payload db .start db (.done (.error threadNotFound))
  | reads {thread} : getThreadWithMessages db threadId = some thread →
      Moves threadId caller payload db .start db (.listing thread)
  | refused {thread e} :
      resolveParticipants thread caller.id ((listRecipients db threadId).map RecipientRow.participantId) = .error e →
      Moves threadId caller payload db (.listing thread) db (.done (.error e))
  | resolves {thread path recipient} :
      resolveParticipants thread caller.id ((listRecipients db threadId).map RecipientRow.participantId) =
        .ok recipient →
      (path = .recipient ↔ caller.id ∈ (listRecipients db threadId).map RecipientRow.participantId) →
      Moves threadId caller payload db (.listing thread) db (.drawing path recipient)
  | draws path recipient d : Moves threadId caller payload db (.drawing path recipient) db (.appending path recipient d)
  | appendFails path recipient d {e} : (db.thread? threadId = none ∨ e = internalServerError) →
      Moves threadId caller payload db (.appending path recipient d) db (.done (.error e))
  | inserts {recipient d db'} : insertAck db threadId caller.id recipient (body payload) d = .ok db' →
      Moves threadId caller payload db (.appending .recipient recipient d) db' (.stamping recipient d)
  | closes {recipient d result db'} :
      appendAck db d.uuid threadId d.now caller.id recipient (body payload) = .ok (result, db') →
      Moves threadId caller payload db (.appending .closing recipient d) db' (.done (.ok result))
  | stamps recipient d now :
      Moves threadId caller payload db (.stamping recipient d) db (.marking recipient d now)
  | marks recipient d now :
      Moves threadId caller payload db (.marking recipient d now) (markRecipientAcked db threadId caller.id now)
        (.checking recipient d)
  | completes recipient d : allRecipientsAcked db threadId →
      Moves threadId caller payload db (.checking recipient d) db (.flipping recipient d)
  | leavesOpen recipient d : ¬allRecipientsAcked db threadId →
      Moves threadId caller payload db (.checking recipient d) db
        (.done (.ok (response threadId caller.id recipient (body payload) d)))
  | flips recipient d :
      Moves threadId caller payload db (.flipping recipient d) (updateThreadStatus db threadId .acked)
        (.done (.ok (response threadId caller.id recipient (body payload) d)))

theorem step_moves (threadId : Uuid) (caller : Participant) (payload : Option MessageCreate) (x : Input) (db : Db)
    (pc : PostAck) : Moves threadId caller payload db pc (step threadId caller payload x db pc).1
      (step threadId caller payload x db pc).2 := by
  cases pc with
  | start =>
    cases x with
    | draw => exact .idle _
    | transaction =>
      simp only [step]
      split
      · rename_i absent
        exact .notFound (by simpa [getThreadWithMessages] using absent)
      · exact .reads (by assumption)
  | listing thread =>
    cases x with
    | draw => exact .idle _
    | transaction =>
      simp only [step]
      split
      · exact .refused (by assumption)
      · rename_i accepted
        exact .resolves accepted (by split <;> simp_all)
  | drawing path recipient =>
    cases x with
    | transaction => exact .idle _
    | draw d => exact .draws path recipient d
  | appending path recipient d =>
    cases x with
    | draw => exact .idle _
    | transaction =>
      cases path with
      | recipient =>
        simp only [step]
        split
        · exact .appendFails _ recipient d (Or.inr rfl)
        · exact .inserts (by assumption)
      | closing =>
        simp only [step]
        split
        · rename_i failed
          exact .appendFails _ recipient d (Or.inl (appendAck_threadNotFound failed))
        · exact .appendFails _ recipient d (Or.inr rfl)
        · exact .closes (by assumption)
  | stamping recipient d =>
    cases x with
    | transaction => exact .idle _
    | draw d' => exact .stamps recipient d d'.now
  | marking recipient d now =>
    cases x with
    | draw => exact .idle _
    | transaction => exact .marks recipient d now
  | checking recipient d =>
    cases x with
    | draw => exact .idle _
    | transaction =>
      simp only [step]
      split
      · exact .completes recipient d (by assumption)
      · exact .leavesOpen recipient d (by assumption)
  | flipping recipient d =>
    cases x with
    | draw => exact .idle _
    | transaction => exact .flips recipient d
  | done => exact .idle _

end PostAck

end PbChatroom
