import PbChatroom.Commits

namespace PbChatroom
open Interleaving Relational

namespace ThreadRow

/-- What every transaction keeps of a thread: who created what and when, an
acked status, and a claim once there is one. -/
structure Later (row row' : ThreadRow) : Prop where
  id : row'.id = row.id
  subject : row'.subject = row.subject
  createdBy : row'.createdBy = row.createdBy
  createdAt : row'.createdAt = row.createdAt
  acked : row.status = .acked → row'.status = .acked
  claim : row.claim.claimedBy ≠ none → row'.claim = row.claim

theorem Later.refl (row : ThreadRow) : row.Later row := ⟨rfl, rfl, rfl, rfl, fun acked => acked, fun _ => rfl⟩

theorem Later.trans (a b c : ThreadRow) (first : a.Later b) (second : b.Later c) : a.Later c where
  id := second.id.trans first.id
  subject := second.subject.trans first.subject
  createdBy := second.createdBy.trans first.createdBy
  createdAt := second.createdAt.trans first.createdAt
  acked h := second.acked (first.acked h)
  claim h := by
    have same := first.claim h
    rw [second.claim (by rwa [same]), same]

end ThreadRow

/-- An ack is never taken back. -/
def RecipientRow.Later (r r' : RecipientRow) : Prop := r.ackedAt.isSome → r'.ackedAt.isSome

theorem RecipientRow.Later.refl (r : RecipientRow) : r.Later r := fun acked => acked

theorem RecipientRow.Later.trans (a b c : RecipientRow) (first : a.Later b) (second : b.Later c) : a.Later c :=
  fun acked => second (first acked)

namespace Db

/-- How the database of a running server may differ from what it was: no row
is lost, messages are only added behind the old ones, and the columns named in
`ThreadRow.Later` and `RecipientRow.Later` only move forward. -/
structure Later (db db' : Db) : Prop where
  threads : db.threads.Extends ThreadRow.Later db'.threads
  messages : db.messages.rows <+: db'.messages.rows
  recipients : db.threadRecipients.Extends RecipientRow.Later db'.threadRecipients

theorem Later.refl (db : Db) : db.Later db where
  threads := .refl ThreadRow.Later.refl _
  messages := List.prefix_rfl
  recipients := .refl RecipientRow.Later.refl _

theorem Later.trans {a b c : Db} (first : a.Later b) (second : b.Later c) : a.Later c where
  threads := .trans ThreadRow.Later.trans first.threads second.threads
  messages := first.messages.trans second.messages
  recipients := .trans RecipientRow.Later.trans first.recipients second.recipients

theorem Later.thread? {db db' : Db} (later : db.Later db') {t : Uuid} {row : ThreadRow}
    (found : db.thread? t = some row) : ∃ row', db'.thread? t = some row' ∧ row.Later row' :=
  later.threads t row found

theorem Later.recipient? {db db' : Db} (later : db.Later db') {t : Uuid} {p : String} {r : RecipientRow}
    (found : db.recipient? t p = some r) : ∃ r', db'.recipient? t p = some r' ∧ r.Later r' :=
  later.recipients (t, p) r found

section Kept
variable {db db' : Db} {t : Uuid} {p : String}

theorem Later.listed (later : db.Later db') (listed : ∃ r, db.recipient? t p = some r) :
    ∃ r, db'.recipient? t p = some r := by
  obtain ⟨r, found⟩ := listed
  obtain ⟨r', found', _⟩ := later.recipient? found
  exact ⟨r', found'⟩

theorem Later.marked (later : db.Later db') (marked : ∃ r, db.recipient? t p = some r ∧ r.ackedAt.isSome) :
    ∃ r, db'.recipient? t p = some r ∧ r.ackedAt.isSome := by
  obtain ⟨r, found, acked⟩ := marked
  obtain ⟨r', found', step⟩ := later.recipient? found
  exact ⟨r', found', step acked⟩

theorem Later.closed (later : db.Later db') (closed : ∃ row, db.thread? t = some row ∧ row.status = .acked) :
    ∃ row, db'.thread? t = some row ∧ row.status = .acked := by
  obtain ⟨row, found, acked⟩ := closed
  obtain ⟨row', found', step⟩ := later.thread? found
  exact ⟨row', found', step.acked acked⟩

end Kept

theorem Later.messagesOf {db db' : Db} (later : db.Later db') (t : Uuid) : db.messagesOf t <+: db'.messagesOf t :=
  later.messages.filter _

theorem Later.messageIdTaken {db db' : Db} (later : db.Later db') {id : Uuid} (taken : db.MessageIdTaken id) :
    db'.MessageIdTaken id := by
  rw [MessageIdTaken, Table.get?_isSome_iff] at taken ⊢
  exact List.map_subset Message.id later.messages.subset taken

theorem Later.updateThread (db : Db) (t : Uuid) {set : ThreadRow → ThreadRow} {keeps : ∀ row, (set row).id = row.id}
    (step : ∀ row, ThreadRow.Later row (set row)) : db.Later (db.updateThread t set keeps) where
  threads := .update ThreadRow.Later.refl _ _ keeps step
  messages := List.prefix_rfl
  recipients := .refl RecipientRow.Later.refl _

end Db

theorem Appended.later {set : ThreadRow → ThreadRow} {db db' : Db} {m : Message} (appended : Appended set db m db')
    (step : ∀ row, ThreadRow.Later row (set row)) : db.Later db' where
  threads t row found := by
    have found' : db.thread? t = some row := found
    have after := appended.threads t
    rw [found'] at after
    split at after
    · exact ⟨set row, after, step row⟩
    · exact ⟨row, after, .refl row⟩
  messages := ⟨[m], appended.messages.symm⟩
  recipients := by rw [appended.recipients]; exact .refl RecipientRow.Later.refl _

theorem Created.later {db db' : Db} {row : ThreadRow} {seed : Message} (created : Created db row seed db') :
    db.Later db' where
  threads t old found := by
    have found' : db.thread? t = some old := found
    have other : t ≠ row.id := by
      rintro rfl
      rw [created.fresh] at found'
      cases found'
    have after := created.threads t
    rw [if_neg other, found'] at after
    exact ⟨old, after, .refl old⟩
  messages := ⟨[seed], created.messages.symm⟩
  recipients := by rw [created.recipients]; exact .refl RecipientRow.Later.refl _

theorem setDiscussionType_later (db : Db) (t : Uuid) (discussionType : String) :
    db.Later (setDiscussionType db t discussionType) :=
  .updateThread db t fun _ => ⟨rfl, rfl, rfl, rfl, id, fun _ => rfl⟩

theorem updateThreadStatus_later (db : Db) (t : Uuid) : db.Later (updateThreadStatus db t .acked) :=
  .updateThread db t fun _ => ⟨rfl, rfl, rfl, rfl, fun _ => rfl, fun _ => rfl⟩

theorem markRecipientAcked_later (db : Db) (t : Uuid) (p : String) (now : DateTime) :
    db.Later (markRecipientAcked db t p now) := by
  have forward : db.threadRecipients.Extends RecipientRow.Later (db.threadRecipients.update (t, p)
      (fun r => { r with ackedAt := some (nowUtc now) }) fun _ => rfl) :=
    .update RecipientRow.Later.refl _ _ _ fun _ _ => rfl
  exact ⟨.refl ThreadRow.Later.refl _, List.prefix_rfl, forward⟩

theorem addRecipient_later {db db' : Db} {t : Uuid} {p : String} (added : addRecipient db t p = some db') :
    db.Later db' := by
  obtain ⟨threads, messages, recipients⟩ := Db.insertOrIgnoreRecipient?_eq_some added
  exact {
    threads := by rw [threads]; exact .refl ThreadRow.Later.refl _
    messages := messages ▸ List.prefix_rfl
    recipients := by rw [recipients]; exact .insertOrIgnore RecipientRow.Later.refl _ _ }

theorem setClaim_later (db : Db) (t : Uuid) (p scope : String) (now : DateTime) :
    db.Later (setClaim db t p scope now).2 := by
  unfold setClaim
  dsimp only
  split
  · split
    · exact .refl db
    · split <;> exact .refl db
  · refine .updateThread db t fun row => ?_
    split
    · rename_i free
      exact ⟨rfl, rfl, rfl, rfl, id, fun claimed => absurd free claimed⟩
    · exact .refl row

/-- No commit of any request takes the database out of `Db.Later`. -/
theorem Flight.Commits.later {db db' : Db} {f : Flight} (commits : Commits db f db') : db.Later db' := by
  cases commits with
  | nothing => exact .refl db
  | opens _ created => exact created.later
  | typesOpening | types => exact setDiscussionType_later ..
  | adds added => exact addRecipient_later added
  | posts _ appended | inserts _ appended => exact appended.later fun _ => ⟨rfl, rfl, rfl, rfl, id, fun _ => rfl⟩
  | closes _ appended => exact appended.later fun _ => ⟨rfl, rfl, rfl, rfl, fun _ => rfl, fun _ => rfl⟩
  | claims => exact setClaim_later ..
  | marks => exact markRecipientAcked_later ..
  | flips => exact updateThreadStatus_later ..

theorem Flight.Moves.later {db db' : Db} {f f' : Flight} (moves : Moves db f db' f') : db.Later db' :=
  moves.commits.later

theorem step_later (x : Input) (db : Db) (f : Flight) : db.Later (server.step x db f).1 :=
  (f.step_commits x db).later

/-- From any state of the server on, the database only moves forward. -/
theorem run_later (w : World) (es : List (Event Request Input)) : w.store.Later (server.run w es).store :=
  server.store_evolves Db.Later.refl (fun _ _ _ => Db.Later.trans) step_later es w

end PbChatroom
