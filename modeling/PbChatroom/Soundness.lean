import PbChatroom.Opening

namespace PbChatroom
open Interleaving Relational

namespace Db

/-- The store invariant behind the participant check: every thread has its
seed, and every message is from a party of its thread to an addressee. -/
structure Sound (db : Db) : Prop where
  seeded : ∀ t row, db.thread? t = some row → ∃ seed, db.seed? t = some seed ∧
    seed.fromParticipant = row.createdBy ∧ seed.createdAt = row.createdAt ∧ seed.kind = .message
  sent : ∀ m ∈ db.messages.rows, db.Party m.threadId m.fromParticipant
  addressed : ∀ m ∈ db.messages.rows, db.Addressee m.threadId m.toParticipant

theorem Sound.empty : Db.empty.Sound where
  seeded _ _ found := nomatch found
  sent _ member := nomatch member
  addressed _ member := nomatch member

theorem Sound.openedFor {db : Db} (sound : db.Sound) {t : Uuid} {row : ThreadRow}
    (found : db.thread? t = some row) : ∃ primary, db.OpenedFor t row.createdBy primary := by
  obtain ⟨seed, atSeed, _⟩ := sound.seeded t row found
  exact ⟨seed.toParticipant, row, seed, found, atSeed, rfl, rfl⟩

/-- The steps that insert no message and no thread keep the invariant. -/
theorem Sound.of_later {db db' : Db} (sound : db.Sound) (later : db.Later db')
    (messages : db'.messages = db.messages)
    (threads : ∀ t row', db'.thread? t = some row' → ∃ row, db.thread? t = some row) : db'.Sound where
  seeded t row' found := by
    obtain ⟨row, atRow⟩ := threads t row' found
    obtain ⟨seed, atSeed, sender, time, kind⟩ := sound.seeded t row atRow
    obtain ⟨row'', atRow'', step⟩ := later.thread? atRow
    cases Option.some.inj (found.symm.trans atRow'')
    exact ⟨seed, later.seed? atSeed, sender.trans step.createdBy.symm, time.trans step.createdAt.symm, kind⟩
  sent m member := by
    rw [messages] at member
    exact (sound.sent m member).later later
  addressed m member := by
    rw [messages] at member
    exact (sound.addressed m member).later later

end Db

theorem Created.sound {db db' : Db} {row : ThreadRow} {seed : Message} (created : Created db row seed db')
    (sound : db.Sound) (inThread : seed.threadId = row.id) (sender : seed.fromParticipant = row.createdBy)
    (time : seed.createdAt = row.createdAt) (kind : seed.kind = .message) : db'.Sound where
  seeded t row' found := by
    rw [created.threads] at found
    split at found
    · rename_i same
      subst same
      cases Option.some.inj found
      exact ⟨seed, created.seed? inThread, sender, time, kind⟩
    · obtain ⟨old, atSeed, facts⟩ := sound.seeded t row' found
      exact ⟨old, created.later.seed? atSeed, facts⟩
  sent m member := by
    rw [created.messages, List.mem_append, List.mem_singleton] at member
    rcases member with old | rfl
    · exact (sound.sent m old).later created.later
    · exact ⟨_, _, inThread ▸ created.openedFor inThread, Or.inl sender⟩
  addressed m member := by
    rw [created.messages, List.mem_append, List.mem_singleton] at member
    rcases member with old | rfl
    · exact (sound.addressed m old).later created.later
    · exact ⟨_, _, inThread ▸ created.openedFor inThread, Or.inr rfl⟩

theorem Appended.sound {set : ThreadRow → ThreadRow} {db db' : Db} {m : Message} (appended : Appended set db m db')
    (step : ∀ row, ThreadRow.Later row (set row)) (sound : db.Sound) (party : db.Party m.threadId m.fromParticipant)
    (addressee : db.Addressee m.threadId m.toParticipant) : db'.Sound where
  seeded t row' found := by
    have later := appended.later step
    rw [appended.threads] at found
    split at found
    · obtain ⟨row, atRow, same⟩ := Option.map_eq_some_iff.mp found
      obtain ⟨seed, atSeed, sender, time, kind⟩ := sound.seeded t row atRow
      subst same
      exact ⟨seed, later.seed? atSeed, sender.trans (step row).createdBy.symm, time.trans (step row).createdAt.symm,
        kind⟩
    · obtain ⟨seed, atSeed, facts⟩ := sound.seeded t row' found
      exact ⟨seed, later.seed? atSeed, facts⟩
  sent n member := by
    have later := appended.later step
    rw [appended.messages, List.mem_append, List.mem_singleton] at member
    rcases member with old | rfl
    · exact (sound.sent n old).later later
    · exact party.later later
  addressed n member := by
    have later := appended.later step
    rw [appended.messages, List.mem_append, List.mem_singleton] at member
    rcases member with old | rfl
    · exact (sound.addressed n old).later later
    · exact addressee.later later

/-- What a handler has read of a thread agrees with the thread in all that the
participant check looks at. -/
def Snapshot (db : Db) (t : Uuid) (thread : ThreadWithMessages) : Prop :=
  ∃ creator primary, db.OpenedFor t creator primary ∧ thread.thread.createdBy = creator ∧
    ∃ first rest, thread.messages = first :: rest ∧ (first.toParticipant = creator ∨ first.toParticipant = primary)

theorem Snapshot.later {db db' : Db} {t : Uuid} {thread : ThreadWithMessages} (snapshot : Snapshot db t thread)
    (later : db.Later db') : Snapshot db' t thread := by
  obtain ⟨creator, primary, opened, facts⟩ := snapshot
  exact ⟨creator, primary, opened.later later, facts⟩

/-- Reading a thread of a sound store never finds the message list empty. -/
theorem Db.Sound.snapshot {db : Db} (sound : db.Sound) {t : Uuid} {thread : ThreadWithMessages}
    (read : getThreadWithMessages db t = some thread) : Snapshot db t thread := by
  obtain ⟨row, atRow, same⟩ := Option.map_eq_some_iff.mp read
  obtain ⟨primary, opened⟩ := sound.openedFor atRow
  obtain ⟨seed, atSeed, _⟩ := sound.seeded t row atRow
  subst same
  refine ⟨row.createdBy, primary, opened, rfl, ?_⟩
  dsimp only
  cases sorted : orderBy createdNoLater (db.messagesOf t) with
  | nil =>
    rw [orderBy_eq_nil_iff] at sorted
    rw [Db.seed?, sorted] at atSeed
    cases atSeed
  | cons first rest =>
    have member : first ∈ db.messagesOf t :=
      (mem_orderBy createdNoLater).mp (by rw [sorted]; exact List.mem_cons_self ..)
    obtain ⟨inRows, inThread⟩ := Db.mem_messagesOf.mp member
    obtain ⟨creator, primary', opened', isEither⟩ := sound.addressed first inRows
    rw [inThread] at opened'
    obtain ⟨rfl, rfl⟩ := opened.unique opened'
    exact ⟨first, rest, rfl, isEither⟩

/-- A caller who passes the check is a party, and the reply has an addressee. -/
theorem Snapshot.resolve {db : Db} {t : Uuid} {thread : ThreadWithMessages} {caller recipient : String}
    (snapshot : Snapshot db t thread) (accepted : resolveParticipants thread caller
      ((listRecipients db t).map RecipientRow.participantId) = .ok recipient) :
    db.Party t caller ∧ db.Addressee t recipient := by
  obtain ⟨creator, primary, opened, byCreator, first, rest, messages, isEither⟩ := snapshot
  obtain ⟨seed, others, messages', route⟩ := resolveParticipants_ok_iff.mp accepted
  rw [messages] at messages'
  obtain ⟨rfl, _⟩ := List.cons.inj messages'
  rw [byCreator] at route
  rcases route with ⟨isCreator, rfl⟩ | ⟨_, isFirst | listed, rfl⟩
  · exact ⟨⟨creator, primary, opened, Or.inl isCreator⟩, creator, primary, opened, isEither⟩
  · refine ⟨⟨_, primary, opened, ?_⟩, _, primary, opened, Or.inl rfl⟩
    rw [isFirst]
    exact isEither.imp_right Or.inl
  · refine ⟨⟨_, primary, opened, Or.inr (Or.inr ?_)⟩, _, primary, opened, Or.inl rfl⟩
    exact Db.mem_recipientsOf_iff_exists.mp listed

end PbChatroom
