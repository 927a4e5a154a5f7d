import PbChatroom.Server

namespace PbChatroom
open Interleaving Relational

/-- The message that the next transaction of a request inserts. -/
def Flight.writing : Flight → Option Message
  | .postThread caller payload (.creating d) =>
    some ⟨d.uuid', d.uuid, caller.id, payload.primary, payload.body, .message, "\x7b\x7d", nowUtc d.now⟩
  | .postMessage t caller payload (.appending recipient d) =>
    some ⟨d.uuid, t, caller.id, recipient, payload.body, .message, "\x7b\x7d", nowIso d.now⟩
  | .postAck t caller payload (.appending _ recipient d) =>
    some (PostAck.response t caller.id recipient (PostAck.body payload) d)
  | _ => none

/-- Everything one step of a request can commit, by the place the request has
reached. -/
inductive Flight.Commits (db : Db) : Flight → Db → Prop
  | nothing f : Commits db f db
  | opens {caller payload d seed db'} : Flight.writing (.postThread caller payload (.creating d)) = some seed →
      Created db ⟨d.uuid, payload.subject, caller.id, .opened, nowUtc d.now, nowUtc d.now, none, ⟨none, none, none⟩⟩
        seed db' →
      Commits db (.postThread caller payload (.creating d)) db'
  | typesOpening caller payload result discussionType :
      Commits db (.postThread caller payload (.typing result discussionType))
        (setDiscussionType db result.id discussionType)
  | adds {caller payload result recipient rest db'} : addRecipient db result.id recipient = some db' →
      Commits db (.postThread caller payload (.adding result recipient rest)) db'
  | posts {t caller payload recipient d m db'} :
      Flight.writing (.postMessage t caller payload (.appending recipient d)) = some m →
      Appended (fun row => { row with lastMessageAt := nowIso d.now }) db m db' →
      Commits db (.postMessage t caller payload (.appending recipient d)) db'
  | types t caller payload result discussionType :
      Commits db (.postMessage t caller payload (.typing result discussionType)) (setDiscussionType db t discussionType)
  | claims t caller payload now :
      Commits db (.postClaim t caller payload (.claiming now)) (setClaim db t caller.id payload.scope now).2
  | inserts {t caller payload recipient d m db'} :
      Flight.writing (.postAck t caller payload (.appending .recipient recipient d)) = some m →
      Appended (fun row => { row with lastMessageAt := nowIso d.now }) db m db' →
      Commits db (.postAck t caller payload (.appending .recipient recipient d)) db'
  | closes {t caller payload recipient d m db'} :
      Flight.writing (.postAck t caller payload (.appending .closing recipient d)) = some m →
      Appended (fun row => { row with status := .acked, lastMessageAt := nowIso d.now }) db m db' →
      Commits db (.postAck t caller payload (.appending .closing recipient d)) db'
  | marks t caller payload recipient d now :
      Commits db (.postAck t caller payload (.marking recipient d now)) (markRecipientAcked db t caller.id now)
  | flips t caller payload recipient d :
      Commits db (.postAck t caller payload (.flipping recipient d)) (updateThreadStatus db t .acked)

theorem Flight.Moves.commits {db db' : Db} {f f' : Flight} (moves : Moves db f db' f') : Commits db f db' := by
  cases moves with
  | refused => exact .nothing _
  | postThread move =>
    cases move with
    | createsTyped _ created => exact .opens rfl (createThread_ok created).2
    | creates _ created => exact .opens rfl (createThread_ok created).2
    | types => exact .typesOpening ..
    | adds added => exact .adds added
    | finishes added => exact .adds added
    | _ => exact .nothing _
  | postMessage move =>
    cases move with
    | appendsTyped append =>
      obtain ⟨rfl, appended⟩ := appendMessage_ok append
      exact .posts rfl appended
    | appends append =>
      obtain ⟨rfl, appended⟩ := appendMessage_ok append
      exact .posts rfl appended
    | types => exact .types ..
    | _ => exact .nothing _
  | postClaim move =>
    cases move with
    | claims => exact .claims ..
    | _ => exact .nothing _
  | postAck move =>
    cases move with
    | inserts inserted => exact .inserts rfl (PostAck.insertAck_ok inserted)
    | closes append =>
      obtain ⟨rfl, appended⟩ := appendAck_ok append
      exact .closes rfl appended
    | marks => exact .marks ..
    | flips => exact .flips ..
    | _ => exact .nothing _

theorem Flight.step_commits (x : Input) (db : Db) (f : Flight) : Commits db f (server.step x db f).1 :=
  (f.step_moves x db).commits

/-- Reading the clock and drawing ids commits nothing. -/
theorem Flight.step_draw (d : Draw) (db : Db) (f : Flight) : (server.step (.draw d) db f).1 = db := by
  cases f with
  | refused => rfl
  | postThread caller payload pc => cases pc <;> rfl
  | postMessage t caller payload pc => cases pc <;> rfl
  | postClaim t caller payload pc => cases pc <;> rfl
  | postAck t caller payload pc => cases pc <;> rfl

/-- `set_claim` writes no column but the three of the claim. -/
theorem setClaim_row {db : Db} {t : Uuid} {p scope : String} {now : DateTime} {u : Uuid} {row' : ThreadRow}
    (found : (setClaim db t p scope now).2.thread? u = some row') :
    ∃ row, db.thread? u = some row ∧ row' = { row with claim := row'.claim } := by
  unfold setClaim at found
  dsimp only at found
  split at found
  · have same : db.thread? u = some row' := by
      split at found
      · exact found
      · split at found <;> exact found
    exact ⟨row', same, rfl⟩
  · rw [claimIfFree, Db.thread?_updateThread] at found
    split at found
    · obtain ⟨row, atRow, same⟩ := Option.map_eq_some_iff.mp found
      refine ⟨row, atRow, ?_⟩
      subst same
      split <;> rfl
    · exact ⟨row', found, rfl⟩

theorem setClaim_column {α : Type} {get : ThreadRow → α} (keeps : ∀ row claim, get { row with claim } = get row)
    (db : Db) (t : Uuid) (p scope : String) (now : DateTime) (u : Uuid) :
    (setClaim db t p scope now).2.column get u = db.column get u := by
  unfold setClaim
  dsimp only
  split
  · split
    · rfl
    · split <;> rfl
  · refine Db.column_updateThread (fun row => ?_) u
    split
    · exact keeps row _
    · rfl

theorem setClaim_messages (db : Db) (t : Uuid) (p scope : String) (now : DateTime) :
    (setClaim db t p scope now).2.messages = db.messages := by
  unfold setClaim
  dsimp only
  split
  · split
    · rfl
    · split <;> rfl
  · rfl

theorem setClaim_recipients (db : Db) (t : Uuid) (p scope : String) (now : DateTime) :
    (setClaim db t p scope now).2.threadRecipients = db.threadRecipients := by
  unfold setClaim
  dsimp only
  split
  · split
    · rfl
    · split <;> rfl
  · rfl

theorem addRecipient_thread? {db db' : Db} {t : Uuid} {p : String} (added : addRecipient db t p = some db')
    (u : Uuid) : db'.thread? u = db.thread? u := by
  rw [Db.thread?, Db.thread?, (Db.insertOrIgnoreRecipient?_eq_some added).1]

theorem addRecipient_column {α : Type} {db db' : Db} {t : Uuid} {p : String} (added : addRecipient db t p = some db')
    (get : ThreadRow → α) (u : Uuid) : db'.column get u = db.column get u := by
  rw [Db.column, Db.column, addRecipient_thread? added]

theorem addRecipient_messages {db db' : Db} {t : Uuid} {p : String} (added : addRecipient db t p = some db') :
    db'.messages = db.messages :=
  (Db.insertOrIgnoreRecipient?_eq_some added).2.1

namespace Flight.Commits
variable {db db' : Db} {f : Flight}

/-- A row of the log comes from the old log or is the one that was written. -/
theorem messages (commits : Commits db f db') : db'.messages.rows = db.messages.rows ∨
    ∃ m, f.writing = some m ∧ db'.messages.rows = db.messages.rows ++ [m] := by
  cases commits with
  | opens writing created => exact Or.inr ⟨_, writing, created.messages⟩
  | posts writing appended => exact Or.inr ⟨_, writing, appended.messages⟩
  | inserts writing appended => exact Or.inr ⟨_, writing, appended.messages⟩
  | closes writing appended => exact Or.inr ⟨_, writing, appended.messages⟩
  | adds added => exact Or.inl (congrArg _ (addRecipient_messages added))
  | claims => exact Or.inl (congrArg _ (setClaim_messages ..))
  | _ => exact Or.inl rfl

/-- A thread becomes acked by `append_ack` or by the update of its status. -/
theorem acked (commits : Commits db f db') {t : Uuid} {row' : ThreadRow} (found : db'.thread? t = some row')
    (acked : row'.status = .acked) : (∃ row, db.thread? t = some row ∧ row.status = .acked) ∨
      (∃ caller payload recipient d, f = .postAck t caller payload (.appending .closing recipient d) ∧
        PostAck.response t caller.id recipient (PostAck.body payload) d ∈ db'.messages.rows) ∨
      ∃ caller payload recipient d, f = .postAck t caller payload (.flipping recipient d) := by
  cases commits with
  | opens _ created =>
    rw [created.threads] at found
    split at found
    · cases Option.some.inj found
      cases acked
    · exact Or.inl ⟨row', found, acked⟩
  | typesOpening | types =>
    rw [thread?_setDiscussionType] at found
    split at found
    · obtain ⟨row, atRow, same⟩ := Option.map_eq_some_iff.mp found
      subst same
      exact Or.inl ⟨row, atRow, acked⟩
    · exact Or.inl ⟨row', found, acked⟩
  | adds added => exact Or.inl ⟨row', (addRecipient_thread? added t) ▸ found, acked⟩
  | posts _ appended | inserts _ appended =>
    rw [appended.threads] at found
    split at found
    · obtain ⟨row, atRow, same⟩ := Option.map_eq_some_iff.mp found
      subst same
      exact Or.inl ⟨row, atRow, acked⟩
    · exact Or.inl ⟨row', found, acked⟩
  | claims =>
    obtain ⟨row, atRow, same⟩ := setClaim_row found
    rw [same] at acked
    exact Or.inl ⟨row, atRow, acked⟩
  | @closes u caller payload recipient d _ _ writing appended =>
    rw [appended.threads] at found
    cases Option.some.inj writing
    split at found
    · rename_i here
      obtain rfl : t = u := here
      exact Or.inr (Or.inl ⟨caller, payload, recipient, d, rfl, by simp [appended.messages]⟩)
    · exact Or.inl ⟨row', found, acked⟩
  | flips =>
    rw [thread?_updateThreadStatus] at found
    split at found
    · rename_i here
      cases here
      exact Or.inr (Or.inr ⟨_, _, _, _, rfl⟩)
    · exact Or.inl ⟨row', found, acked⟩
  | nothing | marks => exact Or.inl ⟨row', found, acked⟩

/-- Only `mark_recipient_acked` sets the `acked_at` of a recipient, and an ack
request marks its own caller. -/
theorem ackedAt (commits : Commits db f db') {t : Uuid} {p : String} {r' : RecipientRow}
    (found : db'.recipient? t p = some r') (acked : r'.ackedAt.isSome) :
    (∃ r, db.recipient? t p = some r ∧ r.ackedAt.isSome) ∨
      ∃ caller payload recipient d now, f = .postAck t caller payload (.marking recipient d now) ∧ caller.id = p := by
  have of_eq : db'.threadRecipients = db.threadRecipients → ∃ r, db.recipient? t p = some r ∧ r.ackedAt.isSome := by
    intro same
    rw [Db.recipient?, same] at found
    exact ⟨r', found, acked⟩
  cases commits with
  | opens _ created => exact Or.inl (of_eq created.recipients)
  | adds added =>
    rw [Db.recipient?, (Db.insertOrIgnoreRecipient?_eq_some added).2.2, Table.get?_insertOrIgnore] at found
    split at found
    · cases old : db.recipient? t p with
      | some r =>
        rw [Db.recipient?] at old
        rw [old, Option.getD_some] at found
        cases Option.some.inj found
        exact Or.inl ⟨_, rfl, acked⟩
      | none =>
        rw [Db.recipient?] at old
        rw [old, Option.getD_none] at found
        cases Option.some.inj found
        cases acked
    · exact Or.inl ⟨r', found, acked⟩
  | posts _ appended | inserts _ appended | closes _ appended => exact Or.inl (of_eq appended.recipients)
  | claims => exact Or.inl (of_eq (setClaim_recipients ..))
  | marks u caller payload recipient d now =>
    rw [markRecipientAcked, Db.recipient?_updateRecipient] at found
    split at found
    · rename_i here
      obtain ⟨rfl, rfl⟩ := Prod.mk.inj here
      exact Or.inr ⟨caller, payload, recipient, d, now, rfl, rfl⟩
    · exact Or.inl ⟨r', found, acked⟩
  | _ => exact Or.inl ⟨r', found, acked⟩

/-- A thread comes to be by `create_thread` only. -/
theorem thread_of (commits : Commits db f db') {t : Uuid} {row' : ThreadRow}
    (found : db'.thread? t = some row') : (∃ row, db.thread? t = some row) ∨
      ∃ caller payload d, f = .postThread caller payload (.creating d) ∧ d.uuid = t := by
  cases commits with
  | nothing => exact Or.inl ⟨row', found⟩
  | @opens caller payload d _ _ _ created =>
    rw [created.threads] at found
    split at found
    · rename_i here
      exact Or.inr ⟨caller, payload, d, rfl, here.symm⟩
    · exact Or.inl ⟨row', found⟩
  | typesOpening => exact Or.inl (Db.thread?_of_updateThread t row' found)
  | types => exact Or.inl (Db.thread?_of_updateThread t row' found)
  | flips => exact Or.inl (Db.thread?_of_updateThread t row' found)
  | adds added => exact Or.inl ⟨row', (addRecipient_thread? added t) ▸ found⟩
  | posts _ appended | inserts _ appended | closes _ appended =>
    rw [appended.threads] at found
    split at found
    · obtain ⟨row, atRow, _⟩ := Option.map_eq_some_iff.mp found
      exact Or.inl ⟨row, atRow⟩
    · exact Or.inl ⟨row', found⟩
  | claims =>
    obtain ⟨row, atRow, _⟩ := setClaim_row found
    exact Or.inl ⟨row, atRow⟩
  | marks => exact Or.inl ⟨row', found⟩

end Flight.Commits

end PbChatroom
