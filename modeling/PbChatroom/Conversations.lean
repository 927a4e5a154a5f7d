import PbChatroom.Isolation
import PbChatroom.Lib.Conversation
import PbChatroom.Recovery

namespace PbChatroom
open Interleaving Relational

def Message.utterance (m : Message) : Utterance String String where
  sender := m.fromParticipant
  addressee := m.toParticipant
  isAck := m.kind = .ack
  text := m.body

/-- The conversation that the rows of a thread stand for. -/
def storedConversation (row : ThreadRow) (seed : Message) (messages : List Message)
    (recipient? : String → Option RecipientRow) : Conversation String String where
  creator := row.createdBy
  primary := seed.toParticipant
  log := messages.map Message.utterance
  invited := {p | ∃ r, recipient? p = some r}
  acked := {p | ∃ r, recipient? p = some r ∧ r.ackedAt.isSome}
  closed := row.status = .acked
  holder := row.claim.claimedBy

/-- What a thread of the store is for its participants. -/
def Db.conversation (db : Db) (t : Uuid) : Option (Conversation String String) :=
  match db.thread? t, db.seed? t with
  | some row, some seed => some (storedConversation row seed (db.messagesOf t) (db.recipient? t))
  | _, _ => none

namespace Db
variable {db db' : Db} {t : Uuid} {row : ThreadRow} {seed : Message}

theorem conversation_of (found : db.thread? t = some row) (atSeed : db.seed? t = some seed) :
    db.conversation t = some (storedConversation row seed (db.messagesOf t) (db.recipient? t)) := by
  rw [conversation, found, atSeed]

theorem conversation_of_absent (absent : db.thread? t = none) : db.conversation t = none := by
  rw [conversation, absent]

theorem SameThread.conversation (same : db.SameThread t db') : db'.conversation t = db.conversation t := by
  have recipient? : db'.recipient? t = db.recipient? t := funext same.recipient?
  rw [Db.conversation, Db.conversation, same.thread, seed?, seed?, same.messages, recipient?]

/-- In a sound store every thread is a conversation. -/
theorem Sound.conversation (sound : db.Sound) (found : db.thread? t = some row) :
    ∃ seed, db.seed? t = some seed ∧
      db.conversation t = some (storedConversation row seed (db.messagesOf t) (db.recipient? t)) := by
  obtain ⟨seed, atSeed, _⟩ := sound.seeded t row found
  exact ⟨seed, atSeed, conversation_of found atSeed⟩

/-- An update of the thread row shows in the status and the claim only. -/
theorem conversation_updateThread {set : ThreadRow → ThreadRow} {keeps : ∀ row, (set row).id = row.id}
    (found : db.thread? t = some row) (atSeed : db.seed? t = some seed) :
    (db.updateThread t set keeps).conversation t =
      some (storedConversation (set row) seed (db.messagesOf t) (db.recipient? t)) := by
  have found' : (db.updateThread t set keeps).thread? t = some (set row) := by
    rw [thread?_updateThread, if_pos rfl, found, Option.map_some]
  rw [conversation_of found' (show (db.updateThread t set keeps).seed? t = some seed from atSeed)]
  rfl

theorem conversation_updateThread_of_absent {set : ThreadRow → ThreadRow} {keeps : ∀ row, (set row).id = row.id}
    (absent : db.thread? t = none) : (db.updateThread t set keeps).conversation t = none :=
  conversation_of_absent (by rw [thread?_updateThread, if_pos rfl, absent, Option.map_none])

/-- Those whom the rows let write are the party of the conversation. -/
theorem Party.mem_party {p : String} (party : db.Party t p) (found : db.thread? t = some row)
    (atSeed : db.seed? t = some seed) :
    p ∈ (storedConversation row seed (db.messagesOf t) (db.recipient? t)).party := by
  obtain ⟨_, _, ⟨_, _, found', atSeed', rfl, rfl⟩, isParty⟩ := party
  cases Option.some.inj (found.symm.trans found')
  cases Option.some.inj (atSeed.symm.trans atSeed')
  rcases isParty with rfl | rfl | listed
  · exact Set.mem_insert ..
  · exact Set.mem_insert_of_mem _ (Set.mem_insert ..)
  · exact Set.mem_insert_of_mem _ (Set.mem_insert_of_mem _ listed)

theorem Addressee.mem_addressees {p : String} (addressee : db.Addressee t p) (found : db.thread? t = some row)
    (atSeed : db.seed? t = some seed) :
    p ∈ (storedConversation row seed (db.messagesOf t) (db.recipient? t)).addressees := by
  obtain ⟨_, _, ⟨_, _, found', atSeed', rfl, rfl⟩, isEither⟩ := addressee
  cases Option.some.inj (found.symm.trans found')
  cases Option.some.inj (atSeed.symm.trans atSeed')
  rcases isEither with rfl | rfl
  · exact Set.mem_insert ..
  · exact Set.mem_insert_of_mem _ rfl

end Db

/-- A transaction that appends a message is an entry of the conversation. -/
theorem Appended.conversation {set : ThreadRow → ThreadRow} {db db' : Db} {m : Message} {row : ThreadRow}
    {seed : Message} (appended : Appended set db m db') (found : db.thread? m.threadId = some row)
    (atSeed : db.seed? m.threadId = some seed) : db'.conversation m.threadId =
      some (storedConversation (set row) seed (db.messagesOf m.threadId ++ [m]) (db.recipient? m.threadId)) := by
  have found' : db'.thread? m.threadId = some (set row) := by
    rw [appended.threads, if_pos rfl, found, Option.map_some]
  have messages : db'.messagesOf m.threadId = db.messagesOf m.threadId ++ [m] := by
    rw [appended.messagesOf, if_pos rfl]
  have atSeed' : db'.seed? m.threadId = some seed := by
    rw [Db.seed?] at atSeed ⊢
    rw [messages, List.head?_append, atSeed, Option.some_or]
  have recipient? : db'.recipient? m.threadId = db.recipient? m.threadId := by
    funext p
    rw [Db.recipient?, Db.recipient?, appended.recipients]
  rw [Db.conversation_of found' atSeed', messages, recipient?]

/-- A new thread is a conversation that is opened. -/
theorem Created.conversation {db db' : Db} {row : ThreadRow} {seed : Message} (created : Created db row seed db')
    (inThread : seed.threadId = row.id) (sender : seed.fromParticipant = row.createdBy) (kind : seed.kind = .message)
    (isOpen : row.status = .opened) (free : row.claim.claimedBy = none) :
    db'.conversation row.id = some (.opened row.createdBy seed.toParticipant seed.body) := by
  have found' : db'.thread? row.id = some row := by rw [created.threads, if_pos rfl]
  have messages : db'.messagesOf row.id = [seed] := by
    rw [created.messagesOf, if_pos inThread, Db.messagesOf_eq_nil created.fresh, List.nil_append]
  have nobody : ∀ p, db'.recipient? row.id p = none := by
    intro p
    rw [Db.recipient?, created.recipients]
    exact Db.recipient?_eq_none created.fresh p
  rw [Db.conversation_of found' (created.seed? inThread), messages]
  refine congrArg some (Conversation.ext rfl rfl ?_ ?_ ?_ ?_ free)
  · simp [storedConversation, Conversation.opened, Message.utterance, sender, kind]
  · ext p
    simp [storedConversation, Conversation.opened, nobody]
  · ext p
    simp [storedConversation, Conversation.opened, nobody]
  · simp [storedConversation, Conversation.opened, isOpen]

/-- A recipient that is added is somebody who is asked in. -/
theorem conversation_addRecipient {db db' : Db} {t : Uuid} {p : String} {row : ThreadRow} {seed : Message}
    (added : addRecipient db t p = some db') (found : db.thread? t = some row) (atSeed : db.seed? t = some seed) :
    Conversation.Step (some (storedConversation row seed (db.messagesOf t) (db.recipient? t)))
      (db'.conversation t) := by
  obtain ⟨threads, messages, recipients⟩ := Db.insertOrIgnoreRecipient?_eq_some added
  have found' : db'.thread? t = some row := by rw [Db.thread?, threads]; exact found
  have log : db'.messagesOf t = db.messagesOf t := Db.messagesOf_congr messages t
  have atSeed' : db'.seed? t = some seed := by rw [Db.seed?, log]; exact atSeed
  have recipient? : ∀ q, db'.recipient? t q =
      if q = p then some ((db.recipient? t q).getD ⟨t, p, none⟩) else db.recipient? t q := by
    intro q
    rw [Db.recipient?, recipients, Table.get?_insertOrIgnore]
    simp [RecipientRow.key, Db.recipient?]
  have after : db'.conversation t = some
      { storedConversation row seed (db.messagesOf t) (db.recipient? t) with
        invited := insert p {q | ∃ r, db.recipient? t q = some r} } := by
    rw [Db.conversation_of found' atSeed', log]
    refine congrArg some (Conversation.ext rfl rfl rfl ?_ ?_ rfl rfl)
    · ext q
      by_cases isP : q = p <;> simp [storedConversation, recipient?, isP]
    · ext q
      by_cases isP : q = p
      · subst isP
        cases before : db.recipient? t q <;> simp [storedConversation, recipient?, before]
      · simp [storedConversation, recipient?, isP]
  rw [after]
  exact .invites (storedConversation row seed (db.messagesOf t) (db.recipient? t)) p

/-- The mark of a recipient who has sent an ack. -/
theorem conversation_markRecipientAcked {db : Db} {t : Uuid} {p : String} {r : RecipientRow} {m : Message}
    {row : ThreadRow} {seed : Message} (now : DateTime) (found : db.thread? t = some row)
    (atSeed : db.seed? t = some seed) (listed : db.recipient? t p = some r) (sent : m ∈ db.messagesOf t)
    (isAck : m.kind = .ack) (sender : m.fromParticipant = p) :
    Conversation.Step (some (storedConversation row seed (db.messagesOf t) (db.recipient? t)))
      ((markRecipientAcked db t p now).conversation t) := by
  have recipient? : ∀ q, (markRecipientAcked db t p now).recipient? t q =
      if q = p then some { r with ackedAt := some (nowUtc now) } else db.recipient? t q := by
    intro q
    rw [markRecipientAcked, Db.recipient?_updateRecipient]
    by_cases isP : q = p <;> simp [isP, listed]
  have after : (markRecipientAcked db t p now).conversation t = some
      { storedConversation row seed (db.messagesOf t) (db.recipient? t) with
        acked := insert p {q | ∃ r, db.recipient? t q = some r ∧ r.ackedAt.isSome} } := by
    rw [Db.conversation_of (show (markRecipientAcked db t p now).thread? t = some row from found)
      (show (markRecipientAcked db t p now).seed? t = some seed from atSeed)]
    refine congrArg some (Conversation.ext rfl rfl rfl ?_ ?_ rfl rfl)
    · ext q
      by_cases isP : q = p <;> simp [storedConversation, recipient?, isP, listed]
    · ext q
      by_cases isP : q = p <;> simp [storedConversation, recipient?, isP]
  rw [after]
  exact .marks (storedConversation row seed (db.messagesOf t) (db.recipient? t)) p ⟨r, listed⟩
    ⟨m.utterance, List.mem_map_of_mem sent, isAck, sender⟩

section Commits
variable {db db' : Db} {t : Uuid}

/-- An update of a thread is a step of its conversation if it is one of the row. -/
theorem Db.Sound.conversation_updateThread (sound : db.Sound) (u : Uuid) {set : ThreadRow → ThreadRow}
    {keeps : ∀ row, (set row).id = row.id}
    (step : ∀ row seed, db.thread? u = some row → Relation.ReflGen Conversation.Step
      (some (storedConversation row seed (db.messagesOf u) (db.recipient? u)))
      (some (storedConversation (set row) seed (db.messagesOf u) (db.recipient? u)))) :
    Relation.ReflGen Conversation.Step (db.conversation t) ((db.updateThread u set keeps).conversation t) := by
  by_cases here : t = u
  · subst here
    cases found : db.thread? t with
    | none =>
      rw [Db.conversation_of_absent found, Db.conversation_updateThread_of_absent found]
    | some row =>
      obtain ⟨seed, atSeed, before⟩ := sound.conversation found
      rw [before, Db.conversation_updateThread found atSeed]
      exact step row seed found
  · rw [(Db.sameThread_updateThread here).conversation]

/-- A message that is appended is an entry by the party, and perhaps the last. -/
theorem Appended.conversation_step {set : ThreadRow → ThreadRow} {m : Message} (appended : Appended set db m db')
    (sound : db.Sound) (party : db.Party m.threadId m.fromParticipant)
    (addressee : db.Addressee m.threadId m.toParticipant)
    (sets : ∀ row, (set row).createdBy = row.createdBy ∧ (set row).claim = row.claim ∧
      ((set row).status = row.status ∨ (set row).status = .acked ∧ m.kind = .ack)) :
    Relation.ReflGen Conversation.Step (db.conversation t) (db'.conversation t) := by
  by_cases here : t = m.threadId
  · subst here
    obtain ⟨row, found⟩ := appended.parent
    obtain ⟨seed, atSeed, before⟩ := sound.conversation found
    obtain ⟨creator, claim, status⟩ := sets row
    have sender := party.mem_party found atSeed
    have receiver := addressee.mem_addressees found atSeed
    rw [before, appended.conversation found atSeed]
    unfold storedConversation at sender receiver ⊢
    rw [creator, claim, List.map_append]
    refine .single ?_
    rcases status with same | ⟨acked, isAck⟩
    · rw [same]
      exact .speaks _ m.utterance sender receiver
    · rw [acked, eq_true rfl]
      exact .concludes _ m.utterance sender receiver isAck
  · rw [(appended.sameThread here).conversation]

/-- Every commit is a step of each conversation, or none. -/
theorem Flight.Commits.conversation {f : Flight} (commits : Commits db f db') (sound : db.Sound)
    (placed : f.Placed db) (recorded : f.Recorded db) (t : Uuid) :
    Relation.ReflGen Conversation.Step (db.conversation t) (db'.conversation t) := by
  cases commits with
  | nothing => exact .refl
  | @opens caller payload d seed _ writing created =>
    cases Option.some.inj writing
    by_cases here : t = d.uuid
    · subst here
      have opened := created.conversation rfl rfl rfl rfl rfl
      rw [Db.conversation_of_absent created.fresh]
      rw [opened]
      exact .single (.opens _ _ _)
    · rw [(created.sameThread rfl here).conversation]
  | typesOpening caller payload result discussionType =>
    exact sound.conversation_updateThread result.id fun row seed _ => .refl
  | types u => exact sound.conversation_updateThread u fun row seed _ => .refl
  | @adds caller payload result recipient rest _ added =>
    by_cases here : t = result.id
    · subst here
      obtain ⟨row, _, found, _⟩ : db.OpenedFor result.id caller.id payload.primary := placed
      obtain ⟨seed, atSeed, before⟩ := sound.conversation found
      rw [before]
      exact .single (conversation_addRecipient added found atSeed)
    · rw [(addRecipient_sameThread added here).conversation]
  | posts writing appended =>
    cases Option.some.inj writing
    exact appended.conversation_step sound placed.1 placed.2 fun row => ⟨rfl, rfl, Or.inl rfl⟩
  | inserts writing appended =>
    cases Option.some.inj writing
    exact appended.conversation_step sound placed.1 placed.2 fun row => ⟨rfl, rfl, Or.inl rfl⟩
  | closes writing appended =>
    cases Option.some.inj writing
    exact appended.conversation_step sound placed.1 placed.2 fun row => ⟨rfl, rfl, Or.inr ⟨rfl, rfl⟩⟩
  | claims u caller payload now =>
    unfold setClaim
    dsimp only
    split
    · split
      · exact .refl
      · split <;> exact .refl
    · refine sound.conversation_updateThread u fun row seed _ => ?_
      split
      · rename_i free
        exact .single (.holds _ caller.id free)
      · exact .refl
  | marks u caller payload recipient d now =>
    by_cases here : t = u
    · subst here
      obtain ⟨r, listed⟩ := recorded
      cases found : db.thread? t with
      | none =>
        rw [Db.recipient?_eq_none found] at listed
        cases listed
      | some row =>
        obtain ⟨seed, atSeed, before⟩ := sound.conversation found
        rw [before]
        have said : _ ∈ db.messagesOf t := Db.mem_messagesOf.mpr ⟨placed, rfl⟩
        exact .single (conversation_markRecipientAcked now found atSeed listed said rfl rfl)
    · rw [markRecipientAcked, (Db.sameThread_updateRecipient here).conversation]
  | flips u caller payload recipient d =>
    refine sound.conversation_updateThread u fun row seed _ => .single ?_
    have acked : Status.acked = Status.acked := rfl
    unfold storedConversation
    rw [eq_true acked]
    exact .closes _ caller.id recorded

end Commits

theorem conversation_exec (es : List (Event Request Input)) (e : Event Request Input) (t : Uuid) :
    Conversation.Steps ((server.run World.init es).store.conversation t)
      ((server.exec (server.run World.init es) e).store.conversation t) := by
  cases e with
  | arrive => exact .refl
  | step i x =>
    cases at_i : (server.run World.init es).pool[i]? with
    | none =>
      rw [server.exec_idle x at_i]
    | some f =>
      rw [server.exec_step x at_i]
      have member := List.mem_of_getElem? at_i
      have sound := World.Sound.reachable es
      have commits := f.step_commits x (server.run World.init es).store
      exact (commits.conversation sound.1 (sound.2 f member) (recorded_reachable es member) t).to_reflTransGen

theorem conversation_run (es es' : List (Event Request Input)) (t : Uuid) :
    Conversation.Steps ((server.run World.init es).store.conversation t)
      ((server.run World.init (es ++ es')).store.conversation t) := by
  induction es' using List.reverseRecOn with
  | nil => rw [List.append_nil]
  | append_singleton es' e ih =>
    have last := conversation_exec (es ++ es') e t
    rw [← List.append_assoc, server.run_append, server.run_cons, server.run_nil]
    exact ih.trans last

theorem conversation_sound (es : List (Event Request Input)) {t : Uuid} {c : Conversation String String}
    (here : (server.run World.init es).store.conversation t = some c) : c.Sound := by
  have steps := conversation_run [] es t
  have nothing : (server.run World.init []).store.conversation t = none := rfl
  rw [nothing] at steps
  exact (Conversation.Steps.sound steps (fun _ same => nomatch same) here).1

/-- The server implements conversations. Whatever requests come in and however their
transactions interleave, each thread goes on by steps of a conversation, and every
thread of the store is one. -/
theorem conversations_refined (t : Uuid) (es es' : List (Event Request Input)) :
    let w := server.run World.init es
    let w' := server.run w es'
    Conversation.Steps (w.store.conversation t) (w'.store.conversation t) ∧
      ((w.store.conversation t).isSome ↔ (w.store.thread? t).isSome) := by
  intro w w'
  have steps := conversation_run es es' t
  rw [server.run_append] at steps
  refine ⟨steps, ?_⟩
  cases found : w.store.thread? t with
  | none =>
    rw [Db.conversation_of_absent found]
    exact iff_of_false Bool.false_ne_true Bool.false_ne_true
  | some row =>
    obtain ⟨seed, _, here⟩ := (World.Sound.reachable es).1.conversation found
    rw [here]
    exact iff_of_true rfl rfl

/-- No thread is closed and no recipient is marked without an ack message in the
thread, the mark of a recipient only with one of its own; and all messages of a
thread are addressed to its creator or to the primary recipient. -/
theorem acks_on_record (es : List (Event Request Input)) {t : Uuid} {row : ThreadRow}
    (found : (server.run World.init es).store.thread? t = some row) :
    let db := (server.run World.init es).store
    (row.status = .acked → ∃ m ∈ db.messagesOf t, m.kind = .ack ∧ db.Party t m.fromParticipant) ∧
    (∀ p r, db.recipient? t p = some r → r.ackedAt.isSome →
      ∃ m ∈ db.messagesOf t, m.kind = .ack ∧ m.fromParticipant = p) ∧
    ∃ primary, db.OpenedFor t row.createdBy primary ∧
      ∀ m ∈ db.messagesOf t, m.toParticipant = row.createdBy ∨ m.toParticipant = primary := by
  intro db
  have sound := (World.Sound.reachable es).1
  obtain ⟨seed, atSeed, here⟩ := sound.conversation found
  have conversation := conversation_sound es here
  refine ⟨fun acked => ?_, fun p r listed marked => ?_, seed.toParticipant, ⟨row, seed, found, atSeed, rfl, rfl⟩,
    fun m member => ?_⟩
  · obtain ⟨u, said, isAck⟩ := conversation.closed_said acked
    obtain ⟨m, member, rfl⟩ := List.mem_map.mp said
    obtain ⟨inTable, inThread⟩ := Db.mem_messagesOf.mp member
    exact ⟨m, member, isAck, inThread ▸ sound.sent m inTable⟩
  · obtain ⟨u, said, isAck, sender⟩ := conversation.acked_said p ⟨r, listed, marked⟩
    obtain ⟨m, member, rfl⟩ := List.mem_map.mp said
    exact ⟨m, member, isAck, sender⟩
  · exact conversation.addressed m.utterance (List.mem_map_of_mem member)

/-- The thread that its only recipient has acked. -/
theorem acks_on_record_of_acked :
    let db := (server.run World.init
      (.arrive (.postThread (some "a") ⟨some "b", [], "s", "hello", none, none⟩) ::
        .step 0 (.draw ⟨reading 0 1, "t", "m0"⟩) :: transactions 0 2 ++ .arrive (.postAck "t" (some "b") none) ::
        transactions 1 2 ++ .step 1 (.draw ⟨reading 1 0, "m1", ""⟩) :: transactions 1 1 ++
        .step 1 (.draw ⟨reading 1 1, "", ""⟩) :: transactions 1 3)).store
    ∃ m ∈ db.messagesOf "t", m.kind = .ack ∧ db.Party "t" m.fromParticipant := by
  intro db
  obtain ⟨row, found, acked⟩ : ∃ row, db.thread? "t" = some row ∧ row.status = .acked := ⟨_, rfl, rfl⟩
  exact (acks_on_record _ found).1 acked

end PbChatroom
