import PbChatroom.Store.Schema

namespace PbChatroom
open Relational

/-- `add_recipient`; `none` is SQLite's IntegrityError. -/
def addRecipient (db : Db) (threadId : Uuid) (participantId : String) : Option Db :=
  db.insertOrIgnoreRecipient? ⟨threadId, participantId, none⟩

/-- `list_recipients`, whose callers ask only who is in it. -/
def listRecipients (db : Db) (threadId : Uuid) : List RecipientRow := db.recipientsOf threadId

def markRecipientAcked (db : Db) (threadId : Uuid) (participantId : String) (now : DateTime) : Db :=
  db.updateRecipient threadId participantId (nowUtc now)

/-- `SELECT COUNT(*) … WHERE thread_id = ? AND acked_at IS NULL` is zero. -/
def allRecipientsAcked (db : Db) (threadId : Uuid) : Bool :=
  (db.threadRecipients.rows.filter fun r => r.threadId = threadId ∧ r.ackedAt = none).length = 0

theorem allRecipientsAcked_iff {db : Db} {threadId : Uuid} :
    allRecipientsAcked db threadId ↔ ∀ p r, db.recipient? threadId p = some r → r.ackedAt.isSome := by
  simp only [allRecipientsAcked, decide_eq_true_eq, List.length_eq_zero_iff, List.filter_eq_nil_iff, not_and]
  constructor
  · intro noUnmarked p r found
    obtain ⟨member, same, _⟩ := Db.recipient?_spec found
    have marked := noUnmarked r member same
    exact Option.isSome_iff_ne_none.mpr marked
  · intro all r member same
    have found : db.recipient? threadId r.participantId = some r :=
      Table.get?_eq_some_iff.mpr ⟨member, by rw [RecipientRow.key, same]⟩
    exact Option.isSome_iff_ne_none.mp (all _ r found)

end PbChatroom
