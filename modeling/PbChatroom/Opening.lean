import PbChatroom.Evolution

namespace PbChatroom
open Interleaving Relational

namespace Db

/-- The message that `create_thread` wrote, which is the first of its thread
in insertion order. -/
def seed? (db : Db) (t : Uuid) : Option Message := (db.messagesOf t).head?

/-- The thread exists, `creator` opened it and its seed is addressed to
`primary`. -/
def OpenedFor (db : Db) (t : Uuid) (creator primary : String) : Prop :=
  ∃ row seed, db.thread? t = some row ∧ db.seed? t = some seed ∧
    row.createdBy = creator ∧ seed.toParticipant = primary

/-- Those whom the stored rows let write in a thread. -/
def Party (db : Db) (t : Uuid) (p : String) : Prop :=
  ∃ creator primary, db.OpenedFor t creator primary ∧
    (p = creator ∨ p = primary ∨ ∃ r, db.recipient? t p = some r)

/-- Those to whom a message of a thread may be addressed. -/
def Addressee (db : Db) (t : Uuid) (p : String) : Prop :=
  ∃ creator primary, db.OpenedFor t creator primary ∧ (p = creator ∨ p = primary)

theorem Later.seed? {db db' : Db} (later : db.Later db') {t : Uuid} {seed : Message}
    (found : db.seed? t = some seed) : db'.seed? t = some seed := by
  obtain ⟨rest, same⟩ := later.messagesOf t
  rw [Db.seed?, ← same, List.head?_append, ← Db.seed?, found, Option.some_or]

theorem OpenedFor.later {db db' : Db} {t : Uuid} {creator primary : String}
    (opened : db.OpenedFor t creator primary) (later : db.Later db') : db'.OpenedFor t creator primary := by
  obtain ⟨row, seed, atRow, atSeed, byCreator, forPrimary⟩ := opened
  obtain ⟨row', atRow', step⟩ := later.thread? atRow
  exact ⟨row', seed, atRow', later.seed? atSeed, step.createdBy.trans byCreator, forPrimary⟩

theorem OpenedFor.unique {db : Db} {t : Uuid} {creator primary creator' primary' : String}
    (first : db.OpenedFor t creator primary) (second : db.OpenedFor t creator' primary') :
    creator = creator' ∧ primary = primary' := by
  obtain ⟨row, seed, atRow, atSeed, byCreator, forPrimary⟩ := first
  obtain ⟨row', seed', atRow', atSeed', byCreator', forPrimary'⟩ := second
  cases Option.some.inj (atRow.symm.trans atRow')
  cases Option.some.inj (atSeed.symm.trans atSeed')
  exact ⟨byCreator.symm.trans byCreator', forPrimary.symm.trans forPrimary'⟩

theorem Party.later {db db' : Db} {t : Uuid} {p : String} (party : db.Party t p) (later : db.Later db') :
    db'.Party t p := by
  obtain ⟨creator, primary, opened, isParty⟩ := party
  refine ⟨creator, primary, opened.later later, ?_⟩
  rcases isParty with isCreator | isPrimary | ⟨r, listed⟩
  · exact Or.inl isCreator
  · exact Or.inr (Or.inl isPrimary)
  · obtain ⟨r', listed', _⟩ := later.recipient? listed
    exact Or.inr (Or.inr ⟨r', listed'⟩)

theorem Addressee.later {db db' : Db} {t : Uuid} {p : String} (addressee : db.Addressee t p)
    (later : db.Later db') : db'.Addressee t p := by
  obtain ⟨creator, primary, opened, isEither⟩ := addressee
  exact ⟨creator, primary, opened.later later, isEither⟩

theorem mem_messagesOf {db : Db} {t : Uuid} {m : Message} :
    m ∈ db.messagesOf t ↔ m ∈ db.messages.rows ∧ m.threadId = t := by
  rw [messagesOf, List.mem_filter, decide_eq_true_eq]

end Db

theorem Appended.messagesOf {set : ThreadRow → ThreadRow} {db db' : Db} {m : Message}
    (appended : Appended set db m db') (t : Uuid) :
    db'.messagesOf t = db.messagesOf t ++ if m.threadId = t then [m] else [] := by
  rw [Db.messagesOf, Db.messagesOf, appended.messages, List.filter_append]
  congr 1
  by_cases same : m.threadId = t <;> simp [same]

theorem Created.messagesOf {db db' : Db} {row : ThreadRow} {seed : Message} (created : Created db row seed db')
    (t : Uuid) : db'.messagesOf t = db.messagesOf t ++ if seed.threadId = t then [seed] else [] := by
  rw [Db.messagesOf, Db.messagesOf, created.messages, List.filter_append]
  congr 1
  by_cases same : seed.threadId = t <;> simp [same]

theorem Created.seed? {db db' : Db} {row : ThreadRow} {seed : Message} (created : Created db row seed db')
    (inThread : seed.threadId = row.id) : db'.seed? row.id = some seed := by
  rw [Db.seed?, created.messagesOf, Db.messagesOf_eq_nil created.fresh, if_pos inThread, List.nil_append,
    List.head?_cons]

theorem Created.openedFor {db db' : Db} {row : ThreadRow} {seed : Message} (created : Created db row seed db')
    (inThread : seed.threadId = row.id) : db'.OpenedFor row.id row.createdBy seed.toParticipant :=
  ⟨row, seed, by rw [created.threads, if_pos rfl], created.seed? inThread, rfl, rfl⟩

end PbChatroom
