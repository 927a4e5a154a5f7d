import PbChatroom.Creation
import PbChatroom.Requests

namespace PbChatroom
open Interleaving Relational

/-- The messages of a thread behind its seed, in the order of their commits. -/
def Db.repliesOf (db : Db) (t : Uuid) : List Message := (db.messagesOf t).tail

theorem Db.Sound.messagesOf_eq {db : Db} (sound : db.Sound) {t : Uuid} {row : ThreadRow}
    (found : db.thread? t = some row) : ∃ seed, db.seed? t = some seed ∧ db.messagesOf t = seed :: db.repliesOf t := by
  obtain ⟨seed, atSeed, _⟩ := sound.seeded t row found
  exact ⟨seed, atSeed, List.eq_cons_of_mem_head? atSeed⟩

theorem Created.repliesOf {db db' : Db} {row : ThreadRow} {seed : Message} (created : Created db row seed db')
    (inThread : seed.threadId = row.id) (t : Uuid) : db'.repliesOf t = db.repliesOf t := by
  rw [Db.repliesOf, Db.repliesOf, created.messagesOf]
  by_cases same : seed.threadId = t
  · have absent : db.messagesOf t = [] := Db.messagesOf_eq_nil (by rw [← same, inThread]; exact created.fresh)
    rw [if_pos same, absent]
    rfl
  · rw [if_neg same, List.append_nil]

theorem Appended.repliesOf {set : ThreadRow → ThreadRow} {db db' : Db} {m : Message}
    (appended : Appended set db m db') (sound : db.Sound) (t : Uuid) :
    db'.repliesOf t = db.repliesOf t ++ if m.threadId = t then [m] else [] := by
  rw [Db.repliesOf, Db.repliesOf, appended.messagesOf]
  by_cases same : m.threadId = t
  · obtain ⟨row, found⟩ := appended.parent
    obtain ⟨seed, _, messages⟩ := sound.messagesOf_eq (same ▸ found)
    rw [messages]
    rfl
  · rw [if_neg same, List.append_nil, List.append_nil]

/-- The log of one thread over one step: it stays, or its seed is written, or one
reply is added behind it. -/
theorem Flight.Commits.log {db db' : Db} {f : Flight} (commits : Commits db f db') (sound : db.Sound) (t : Uuid) :
    db'.messagesOf t = db.messagesOf t ∨
    (∃ caller payload d seed, f = .postThread caller payload (.creating d) ∧ f.writing = some seed ∧
      db.messagesOf t = [] ∧ db'.messagesOf t = [seed]) ∨
    ∃ m, f.writing = some m ∧ m.threadId = t ∧ m.createdAt.writer = .nowIso ∧ (∃ row, db.thread? t = some row) ∧
      db'.messagesOf t = db.messagesOf t ++ [m] ∧ db'.seed? t = db.seed? t ∧
      db'.repliesOf t = db.repliesOf t ++ [m] := by
  have appends : ∀ {set : ThreadRow → ThreadRow} {m : Message} {db' : Db}, Appended set db m db' →
      db'.messagesOf t = db.messagesOf t ∨ m.threadId = t ∧ (∃ row, db.thread? t = some row) ∧
        db'.messagesOf t = db.messagesOf t ++ [m] ∧ db'.seed? t = db.seed? t ∧
        db'.repliesOf t = db.repliesOf t ++ [m] := by
    intro set m db' appended
    have messages := appended.messagesOf t
    have replies := appended.repliesOf sound t
    by_cases same : m.threadId = t
    · rw [if_pos same] at messages replies
      obtain ⟨row, found⟩ := appended.parent
      obtain ⟨seed, atSeed, _⟩ := sound.messagesOf_eq found
      refine Or.inr ⟨same, ⟨row, same ▸ found⟩, messages, ?_, replies⟩
      rw [same, Db.seed?] at atSeed
      rw [Db.seed?, Db.seed?, messages, List.head?_append, atSeed, Option.some_or]
    · rw [if_neg same, List.append_nil] at messages
      exact Or.inl messages
  cases commits with
  | @opens caller payload d seed _ writing created =>
    have messages := created.messagesOf t
    by_cases same : seed.threadId = t
    · cases Option.some.inj writing
      have absent : db.messagesOf t = [] := Db.messagesOf_eq_nil (same ▸ created.fresh)
      rw [if_pos same, absent, List.nil_append] at messages
      exact Or.inr (Or.inl ⟨caller, payload, d, _, rfl, rfl, absent, messages⟩)
    · rw [if_neg same, List.append_nil] at messages
      exact Or.inl messages
  | posts writing appended =>
    refine (appends appended).imp_right fun facts => Or.inr ⟨_, writing, facts.1, ?_, facts.2⟩
    cases writing
    rfl
  | inserts writing appended =>
    refine (appends appended).imp_right fun facts => Or.inr ⟨_, writing, facts.1, ?_, facts.2⟩
    cases writing
    rfl
  | closes writing appended =>
    refine (appends appended).imp_right fun facts => Or.inr ⟨_, writing, facts.1, ?_, facts.2⟩
    cases writing
    rfl
  | adds added => exact Or.inl (Db.messagesOf_congr (addRecipient_messages added) t)
  | claims => exact Or.inl (Db.messagesOf_congr (setClaim_messages ..) t)
  | _ => exact Or.inl rfl

/-- The response of an accepted message or ack request on `t`. -/
def Flight.responded (t : Uuid) : Flight → Option Message
  | .postMessage u _ _ (.done (.ok m)) | .postAck u _ _ (.done (.ok m)) => if u = t then some m else none
  | _ => none

/-- The row that a message or ack request on `t` has stored, answered or not. -/
def Flight.stored (t : Uuid) : Flight → Option Message
  | .postMessage u _ _ (.typing m _) => if u = t then some m else none
  | .postAck u caller payload (.stamping recipient d) | .postAck u caller payload (.marking recipient d _)
  | .postAck u caller payload (.checking recipient d) | .postAck u caller payload (.flipping recipient d) =>
    if u = t then some (PostAck.response u caller.id recipient (PostAck.body payload) d) else none
  | f => f.responded t

/-- The request is answered. -/
def Flight.Finished : Flight → Prop
  | .refused .. | .postThread _ _ (.done _) | .postMessage _ _ _ (.done _) | .postClaim _ _ _ (.done _)
  | .postAck _ _ _ (.done _) => True
  | _ => False

instance : DecidablePred Flight.Finished
  | .refused .. | .postThread _ _ (.done _) | .postMessage _ _ _ (.done _) | .postClaim _ _ _ (.done _)
  | .postAck _ _ _ (.done _) => isTrue trivial
  | .postThread _ _ .start | .postThread _ _ (.creating _) | .postThread _ _ (.typing ..)
  | .postThread _ _ (.adding ..) | .postMessage _ _ _ .start | .postMessage _ _ _ (.listing _)
  | .postMessage _ _ _ (.drawing _) | .postMessage _ _ _ (.appending ..) | .postMessage _ _ _ (.typing ..)
  | .postClaim _ _ _ .start | .postClaim _ _ _ (.claiming _) | .postAck _ _ _ .start | .postAck _ _ _ (.listing _)
  | .postAck _ _ _ (.drawing ..) | .postAck _ _ _ (.appending ..) | .postAck _ _ _ (.stamping ..)
  | .postAck _ _ _ (.marking ..) | .postAck _ _ _ (.checking ..) | .postAck _ _ _ (.flipping ..) => isFalse id

theorem Flight.Finished.stored {f : Flight} (finished : f.Finished) (t : Uuid) : f.stored t = f.responded t := by
  unfold Finished at finished
  split at finished
  · rfl
  · rfl
  · rfl
  · rfl
  · rfl
  · exact finished.elim

theorem Flight.Fresh.stored {f : Flight} (fresh : f.Fresh) (t : Uuid) : f.stored t = none := by
  cases fresh <;> rfl

/-- Double entry for one step: the replies of a thread grow by exactly the row
that the request has stored with the step. -/
theorem Flight.Moves.entry {db db' : Db} {f f' : Flight} (moves : Moves db f db' f') (sound : db.Sound) (t : Uuid) :
    db'.repliesOf t = db.repliesOf t ∧ f'.stored t = f.stored t ∨
      f.stored t = none ∧ db'.repliesOf t = db.repliesOf t ++ (f'.stored t).toList := by
  have same : ∀ {db' : Db}, db'.messages = db.messages → db'.repliesOf t = db.repliesOf t := by
    intro db' messages
    rw [Db.repliesOf, Db.repliesOf, Db.messagesOf_congr messages]
  have appends : ∀ {set : ThreadRow → ThreadRow} {u : Uuid} {m : Message} {db' : Db}, Appended set db m db' →
      m.threadId = u → db'.repliesOf t = db.repliesOf t ++ (if u = t then some m else none).toList := by
    rintro set u m db' appended rfl
    rw [appended.repliesOf sound]
    split <;> rfl
  cases moves with
  | refused => exact Or.inl ⟨rfl, rfl⟩
  | postThread move =>
    cases move with
    | createsTyped _ created => exact Or.inl ⟨(createThread_ok created).2.repliesOf rfl t, rfl⟩
    | creates _ created => exact Or.inl ⟨(createThread_ok created).2.repliesOf rfl t, rfl⟩
    | types => exact Or.inl ⟨same rfl, rfl⟩
    | adds added | finishes added => exact Or.inl ⟨same (addRecipient_messages added), rfl⟩
    | _ => exact Or.inl ⟨rfl, rfl⟩
  | postMessage move =>
    cases move with
    | appendsTyped append =>
      obtain ⟨rfl, appended⟩ := appendMessage_ok append
      exact Or.inr ⟨rfl, appends appended rfl⟩
    | appends append =>
      obtain ⟨rfl, appended⟩ := appendMessage_ok append
      exact Or.inr ⟨rfl, appends appended rfl⟩
    | types => exact Or.inl ⟨same rfl, rfl⟩
    | _ => exact Or.inl ⟨rfl, rfl⟩
  | postClaim move =>
    cases move with
    | claims => exact Or.inl ⟨same (setClaim_messages ..), rfl⟩
    | _ => exact Or.inl ⟨rfl, rfl⟩
  | postAck move =>
    cases move with
    | inserts inserted => exact Or.inr ⟨rfl, appends (PostAck.insertAck_ok inserted) rfl⟩
    | closes append =>
      obtain ⟨rfl, appended⟩ := appendAck_ok append
      exact Or.inr ⟨rfl, appends appended rfl⟩
    | marks => exact Or.inl ⟨same rfl, rfl⟩
    | flips => exact Or.inl ⟨same rfl, rfl⟩
    | _ => exact Or.inl ⟨rfl, rfl⟩

/-- What a request has read of the thread `t`. -/
def Flight.read (t : Uuid) : Flight → Option ThreadWithMessages
  | .postMessage u _ _ (.listing thread) | .postAck u _ _ (.listing thread) => if u = t then some thread else none
  | _ => none

theorem Flight.Placed.read {db : Db} {f : Flight} (placed : f.Placed db) {t : Uuid} {thread : ThreadWithMessages}
    (read : f.read t = some thread) : Snapshot db t thread := by
  unfold Flight.read at read
  split at read
  · split at read
    · rename_i same
      cases read
      exact same ▸ placed
    · cases read
  · split at read
    · rename_i same
      cases read
      exact same ▸ placed
    · cases read
  · cases read

theorem Snapshot.nonempty {db : Db} {t : Uuid} {thread : ThreadWithMessages} (snapshot : Snapshot db t thread) :
    thread.messages ≠ [] := by
  obtain ⟨_, _, _, _, first, rest, messages, _⟩ := snapshot
  rw [messages]
  exact List.cons_ne_nil first rest

theorem Flight.Placed.responded {db : Db} {f : Flight} (placed : f.Placed db) {t : Uuid} {m : Message}
    (responded : f.responded t = some m) : f.request.header = some m.fromParticipant ∧ m ∈ db.messagesOf t := by
  unfold Flight.responded at responded
  split at responded
  · split at responded
    · cases responded
      obtain ⟨stored, inThread, sender, _⟩ := placed
      exact ⟨congrArg some sender.symm, Db.mem_messagesOf.mpr ⟨stored, inThread.trans (by assumption)⟩⟩
    · cases responded
  · split at responded
    · cases responded
      obtain ⟨stored, inThread, sender, _⟩ := placed
      exact ⟨congrArg some sender.symm, Db.mem_messagesOf.mpr ⟨stored, inThread.trans (by assumption)⟩⟩
    · cases responded
  · cases responded

theorem Flight.Placed.creator {db : Db} {f : Flight} (placed : f.Placed db) {t : Uuid} (creates : f.creates = some t)
    {row : ThreadRow} (found : db.thread? t = some row) : f.request.header = some row.createdBy := by
  have byCreator : ∀ {creator primary : String}, db.OpenedFor t creator primary → row.createdBy = creator := by
    rintro creator primary ⟨row', _, found', _, same, _⟩
    cases Option.some.inj (found.symm.trans found')
    exact same
  unfold Flight.creates at creates
  split at creates
  · cases creates
    exact congrArg some (byCreator placed).symm
  · cases creates
    exact congrArg some (byCreator placed).symm
  · cases creates
    exact congrArg some (byCreator placed).symm
  · cases creates

end PbChatroom
