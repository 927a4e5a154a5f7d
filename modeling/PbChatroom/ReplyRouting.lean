import PbChatroom.MessageLog

namespace PbChatroom
open Interleaving Relational

/-- To whom a message of `sender` goes: the primary recipient if the creator
sends it, else the creator. -/
def route (creator primary sender : String) : String := if sender = creator then primary else creator

namespace Db

/-- `thread['messages'][0]` is the seed of the thread. -/
def SeedFirst (db : Db) (t : Uuid) : Prop :=
  ∀ thread ∈ getThreadWithMessages db t, thread.messages.head? = db.seed? t

/-- Every message of the thread goes where its sender alone decides. -/
def Routed (db : Db) (t : Uuid) : Prop :=
  ∀ row ∈ db.thread? t, ∀ seed ∈ db.seed? t, ∀ m ∈ db.messagesOf t,
    m.toParticipant = route row.createdBy seed.toParticipant m.fromParticipant

instance (db : Db) (t : Uuid) : Decidable (db.SeedFirst t) :=
  inferInstanceAs (Decidable (∀ thread ∈ getThreadWithMessages db t, thread.messages.head? = db.seed? t))

instance (db : Db) (t : Uuid) : Decidable (db.Routed t) :=
  inferInstanceAs (Decidable (∀ row ∈ db.thread? t, ∀ seed ∈ db.seed? t, ∀ m ∈ db.messagesOf t,
    m.toParticipant = route row.createdBy seed.toParticipant m.fromParticipant))

theorem routed_iff {db : Db} {t : Uuid} : db.Routed t ↔ ∀ creator primary, db.OpenedFor t creator primary →
    ∀ m ∈ db.messagesOf t, m.toParticipant = route creator primary m.fromParticipant := by
  constructor
  · rintro routed creator primary ⟨row, seed, found, atSeed, rfl, rfl⟩
    exact routed row found seed atSeed
  · intro routed row found seed atSeed
    exact routed _ _ ⟨row, seed, found, atSeed, rfl, rfl⟩

/-- The clock reading `e` of a reply is so much later than the reading `d` of
the seed that the texts that the two writers make of them are in that order:
later, and not in the second of a seed that was written on the full second. -/
def Outlasts (d e : DateTime) : Prop := ¬(e ≤ d ∨ d.microsecond.val = 0 ∧ e.toSecond = d.toSecond)

instance : DecidableRel Outlasts := fun _ _ => inferInstanceAs (Decidable (¬_))

/-- All replies of the thread have readings that outlast the seed's. -/
def RepliesOutlast (db : Db) (t : Uuid) : Prop :=
  ∀ seed ∈ db.seed? t, ∀ m ∈ db.repliesOf t, Outlasts seed.createdAt.instant m.createdAt.instant

/-- Who wrote the timestamps of a thread: `_now_utc` that of the seed and
`_now_iso` those of all replies. -/
def Stamped (db : Db) (t : Uuid) : Prop :=
  (∀ seed ∈ db.seed? t, seed.createdAt.writer = .nowUtc) ∧ ∀ m ∈ db.repliesOf t, m.createdAt.writer = .nowIso

end Db

namespace Db

theorem createdNoLater_iff_outlasts {seed m : Message} (bySeed : seed.createdAt.writer = .nowUtc)
    (byReply : m.createdAt.writer = .nowIso) :
    createdNoLater seed m ↔ Outlasts seed.createdAt.instant m.createdAt.instant := by
  have seedText : seed.createdAt = nowUtc seed.createdAt.instant := by rw [nowUtc, ← bySeed]
  have replyText : m.createdAt = nowIso m.createdAt.instant := by rw [nowIso, ← byReply]
  rw [createdNoLater, seedText, replyText, Timestamp.nowIso_text_lt_nowUtc_iff]
  exact Iff.rfl

/-- The seed sorts first exactly as long as all replies outlast it. -/
theorem Sound.seedFirst_iff {db : Db} (sound : db.Sound) {t : Uuid} (stamped : db.Stamped t) :
    db.SeedFirst t ↔ db.RepliesOutlast t := by
  cases found : db.thread? t with
  | none =>
    have empty : db.seed? t = none := by rw [seed?, messagesOf_eq_nil found]; rfl
    have unread : getThreadWithMessages db t = none := by rw [getThreadWithMessages, found]; rfl
    constructor
    · intro _ seed atSeed
      rw [empty] at atSeed
      cases atSeed
    · intro _ thread read
      rw [unread] at read
      cases read
  | some row =>
    obtain ⟨seed, atSeed, messages⟩ := sound.messagesOf_eq found
    have read : getThreadWithMessages db t = some ⟨row, orderBy createdNoLater (db.messagesOf t),
        (db.recipientsOf t).map RecipientRow.participantId⟩ := by rw [getThreadWithMessages, found]; rfl
    have bySeed := stamped.1 seed atSeed
    calc db.SeedFirst t ↔ (orderBy createdNoLater (db.messagesOf t)).head? = some seed := by
          simp only [SeedFirst, read, Option.mem_def, Option.some.injEq, forall_eq', atSeed]
      _ ↔ ∀ m ∈ db.repliesOf t, createdNoLater seed m := by rw [messages, head?_orderBy_cons]
      _ ↔ ∀ m ∈ db.repliesOf t, Outlasts seed.createdAt.instant m.createdAt.instant :=
          forall₂_congr fun m member => createdNoLater_iff_outlasts bySeed (stamped.2 m member)
      _ ↔ db.RepliesOutlast t := by
          simp only [RepliesOutlast, atSeed, Option.mem_def, Option.some.injEq, forall_eq']

end Db

theorem Flight.Commits.stamped {db db' : Db} {f : Flight} (commits : Commits db f db') (sound : db.Sound) {t : Uuid}
    (stamped : db.Stamped t) : db'.Stamped t := by
  rcases commits.log sound t with same | ⟨_, _, _, seed, rfl, writing, _, messages⟩ |
    ⟨m, _, _, byReply, _, _, atSeed, replies⟩
  · rwa [Db.Stamped, Db.seed?, Db.repliesOf, same]
  · cases Option.some.inj writing
    rw [Db.Stamped, Db.seed?, Db.repliesOf, messages]
    refine ⟨fun seed atSeed => ?_, fun m member => ?_⟩
    · cases atSeed
      rfl
    · cases member
  · rw [Db.Stamped, atSeed, replies]
    refine ⟨stamped.1, fun n member => ?_⟩
    rcases List.mem_append.mp member with old | new
    · exact stamped.2 n old
    · rw [List.mem_singleton.mp new]
      exact byReply

theorem Db.RepliesOutlast.of_later {db db' : Db} {t : Uuid} (outlast : db'.RepliesOutlast t) (later : db.Later db') :
    db.RepliesOutlast t := by
  intro seed atSeed m member
  refine outlast seed (later.seed? atSeed) m ?_
  obtain ⟨rest, same⟩ := later.messagesOf t
  rw [Db.repliesOf, ← same, List.tail_append_of_ne_nil]
  · exact List.mem_append_left _ member
  · rintro empty
    rw [Db.repliesOf, empty] at member
    cases member

/-- The caller of a message or ack request on `t` that has passed the
participant check, with the recipient that the check has found. -/
def Flight.replies (t : Uuid) : Flight → Option (String × String)
  | .postMessage u caller _ (.drawing recipient) | .postMessage u caller _ (.appending recipient _)
  | .postAck u caller _ (.drawing _ recipient) | .postAck u caller _ (.appending _ recipient _) =>
    if u = t then some (caller.id, recipient) else none
  | _ => none

/-- What the request has read of `t` has the seed first, and the recipient it
has found is the right one. -/
structure Flight.Straight (t : Uuid) (db : Db) (f : Flight) : Prop where
  read : ∀ thread, f.read t = some thread → ∃ creator primary, db.OpenedFor t creator primary ∧
    thread.thread.createdBy = creator ∧ thread.messages.head?.map Message.toParticipant = some primary
  replies : ∀ caller recipient, f.replies t = some (caller, recipient) → ∃ creator primary,
    db.OpenedFor t creator primary ∧ recipient = route creator primary caller

theorem Flight.Straight.later {t : Uuid} {db db' : Db} {f : Flight} (straight : f.Straight t db)
    (later : db.Later db') : f.Straight t db' where
  read thread isRead := by
    obtain ⟨creator, primary, opened, facts⟩ := straight.read thread isRead
    exact ⟨creator, primary, opened.later later, facts⟩
  replies caller recipient isReply := by
    obtain ⟨creator, primary, opened, routed⟩ := straight.replies caller recipient isReply
    exact ⟨creator, primary, opened.later later, routed⟩

theorem Flight.Fresh.straight {f : Flight} (fresh : f.Fresh) (t : Uuid) (db : Db) : f.Straight t db := by
  cases fresh <;> exact ⟨fun _ isRead => (nomatch isRead), fun _ _ isReply => nomatch isReply⟩

/-- A thread whose seed is first is read straight. -/
theorem Db.Sound.straight_read {db : Db} (sound : db.Sound) {t : Uuid} (first : db.SeedFirst t)
    {thread : ThreadWithMessages} (read : getThreadWithMessages db t = some thread) : ∃ creator primary,
      db.OpenedFor t creator primary ∧ thread.thread.createdBy = creator ∧
        thread.messages.head?.map Message.toParticipant = some primary := by
  have head := first thread read
  obtain ⟨row, found, same⟩ := Option.map_eq_some_iff.mp read
  obtain ⟨seed, atSeed, _⟩ := sound.seeded t row found
  refine ⟨row.createdBy, seed.toParticipant, ⟨row, seed, found, atSeed, rfl, rfl⟩, by rw [← same], ?_⟩
  rw [head, atSeed, Option.map_some]

/-- From a thread that was read straight the check finds the right recipient. -/
theorem resolveParticipants_route {thread : ThreadWithMessages} {caller recipient creator primary : String}
    {extra : List String} (accepted : resolveParticipants thread caller extra = .ok recipient)
    (byCreator : thread.thread.createdBy = creator)
    (forPrimary : thread.messages.head?.map Message.toParticipant = some primary) :
    recipient = route creator primary caller := by
  obtain ⟨seed, rest, messages, outcome⟩ := resolveParticipants_ok_iff.mp accepted
  rw [messages, List.head?_cons, Option.map_some, Option.some.injEq] at forPrimary
  rw [byCreator] at outcome
  rcases outcome with ⟨isCreator, toPrimary⟩ | ⟨other, _, toCreator⟩
  · rw [route, if_pos isCreator, toPrimary, forPrimary]
  · rw [route, if_neg other, toCreator]

theorem Flight.Moves.straight {db db' : Db} {f f' : Flight} (moves : Moves db f db' f') (sound : db.Sound) {t : Uuid}
    (first : db.SeedFirst t) (straight : f.Straight t db) : f'.Straight t db' := by
  have later := moves.later
  have unread : ∀ {g : Flight}, g.read t = none → g.replies t = none → g.Straight t db' := by
    intro g noRead noReply
    refine ⟨fun _ isRead => ?_, fun _ _ isReply => ?_⟩
    · rw [noRead] at isRead
      cases isRead
    · rw [noReply] at isReply
      cases isReply
  cases moves with
  | refused => exact straight
  | postThread => exact unread rfl rfl
  | postClaim => exact unread rfl rfl
  | @postMessage u caller payload _ _ _ move =>
    cases move with
    | idle => exact straight
    | reads read =>
      refine ⟨fun thread isRead => ?_, fun _ _ isReply => nomatch isReply⟩
      rw [Flight.read] at isRead
      split at isRead
      · rename_i same
        cases isRead
        exact sound.straight_read first (same ▸ read)
      · cases isRead
    | resolves accepted =>
      refine ⟨fun _ isRead => (nomatch isRead), fun c r isReply => ?_⟩
      rw [Flight.replies] at isReply
      split at isReply
      · rename_i same
        cases isReply
        obtain ⟨creator, primary, opened, byCreator, forPrimary⟩ := straight.read _ (if_pos same)
        exact ⟨creator, primary, opened, resolveParticipants_route accepted byCreator forPrimary⟩
      · cases isReply
    | draws recipient d => exact ⟨straight.read, straight.replies⟩
    | _ => exact unread rfl rfl
  | @postAck u caller payload _ _ _ move =>
    cases move with
    | idle => exact straight
    | reads read =>
      refine ⟨fun thread isRead => ?_, fun _ _ isReply => nomatch isReply⟩
      rw [Flight.read] at isRead
      split at isRead
      · rename_i same
        cases isRead
        exact sound.straight_read first (same ▸ read)
      · cases isRead
    | resolves accepted byPath =>
      refine ⟨fun _ isRead => (nomatch isRead), fun c r isReply => ?_⟩
      rw [Flight.replies] at isReply
      split at isReply
      · rename_i same
        cases isReply
        obtain ⟨creator, primary, opened, byCreator, forPrimary⟩ := straight.read _ (if_pos same)
        exact ⟨creator, primary, opened, resolveParticipants_route accepted byCreator forPrimary⟩
      · cases isReply
    | draws path recipient d => exact ⟨straight.read, straight.replies⟩
    | _ => exact unread rfl rfl

/-- A reply is addressed as its request has found. -/
theorem Flight.replies_of_writing {f : Flight} {m : Message} (writing : f.writing = some m)
    (byReply : m.createdAt.writer = .nowIso) : f.replies m.threadId = some (m.fromParticipant, m.toParticipant) := by
  unfold Flight.writing at writing
  split at writing
  · cases writing
    cases byReply
  · cases writing
    exact if_pos rfl
  · cases writing
    exact if_pos rfl
  · cases writing

/-- The seed is addressed to the primary recipient, by definition of both. -/
theorem Db.Sound.seed_routed {db : Db} (sound : db.Sound) {t : Uuid} {creator primary : String}
    (opened : db.OpenedFor t creator primary) {seed : Message} (atSeed : db.seed? t = some seed) :
    seed.toParticipant = route creator primary seed.fromParticipant := by
  obtain ⟨row, seed', found, atSeed', byCreator, forPrimary⟩ := opened
  cases Option.some.inj (atSeed.symm.trans atSeed')
  obtain ⟨seed', atSeed', sender, _⟩ := sound.seeded t row found
  cases Option.some.inj (atSeed.symm.trans atSeed')
  rw [route, if_pos (sender.trans byCreator), forPrimary]

theorem Flight.Moves.routed {db db' : Db} {f f' : Flight} (moves : Moves db f db' f') (sound : db.Sound)
    (sound' : db'.Sound) {t : Uuid} (straight : f.Straight t db) (routed : db.Routed t) : db'.Routed t := by
  have later := moves.later
  rw [Db.routed_iff] at routed ⊢
  intro creator primary opened m member
  have old : m ∈ db.messagesOf t → m.toParticipant = route creator primary m.fromParticipant := by
    intro before
    obtain ⟨stored, rfl⟩ := Db.mem_messagesOf.mp before
    obtain ⟨row, found⟩ := Option.isSome_iff_exists.mp (db.messages_thread m stored)
    obtain ⟨primary', opened'⟩ := sound.openedFor found
    obtain ⟨rfl, rfl⟩ := opened.unique (opened'.later later)
    exact routed _ _ opened' m before
  rcases moves.commits.log sound t with same | ⟨_, _, _, seed, _, _, _, messages⟩ |
    ⟨n, writing, rfl, byReply, _, messages, _⟩
  · exact old (same ▸ member)
  · rw [messages, List.mem_singleton] at member
    subst member
    exact sound'.seed_routed opened (by rw [Db.seed?, messages, List.head?_cons])
  · rw [messages, List.mem_append, List.mem_singleton] at member
    rcases member with before | rfl
    · exact old before
    · obtain ⟨creator', primary', opened', reply⟩ := straight.replies _ _ (f.replies_of_writing writing byReply)
      obtain ⟨rfl, rfl⟩ := opened.unique (opened'.later later)
      exact reply

/-- While the replies of the thread outlast its seed, everything about them is
as it should be. -/
structure World.Straight (t : Uuid) (w : World) : Prop where
  sound : w.Sound
  stamped : w.store.Stamped t
  routed : w.store.RepliesOutlast t → w.store.Routed t
  flights : w.store.RepliesOutlast t → ∀ f ∈ w.pool, f.Straight t w.store

theorem World.Straight.exec {t : Uuid} (w : World) (e : Event Request Input) (straight : w.Straight t) :
    World.Straight t (server.exec w e) := by
  have sound := straight.sound.exec e
  cases e with
  | arrive request =>
    refine ⟨sound, straight.stamped, straight.routed, fun outlast f member => ?_⟩
    rcases List.mem_append.mp member with old | new
    · exact straight.flights outlast f old
    · rw [List.mem_singleton.mp new]
      exact request.receive_fresh.straight t w.store
  | step i x =>
    cases at_i : w.pool[i]? with
    | none => rwa [server.exec_idle x at_i]
    | some f =>
      rw [server.exec_step x at_i] at sound ⊢
      have inPool := List.mem_of_getElem? at_i
      have moves := f.step_moves x w.store
      have stamped := moves.commits.stamped straight.sound.1 straight.stamped
      refine ⟨sound, stamped, fun outlast => ?_, fun outlast g member => ?_⟩
      · have before := outlast.of_later moves.later
        exact moves.routed straight.sound.1 sound.1 (straight.flights before f inPool) (straight.routed before)
      · have before := outlast.of_later moves.later
        have first := (straight.sound.1.seedFirst_iff straight.stamped).mpr before
        rcases Machine.mem_pool_set member with rfl | old
        · exact moves.straight straight.sound.1 first (straight.flights before f inPool)
        · exact (straight.flights before g old).later moves.later

theorem World.Straight.reachable (t : Uuid) (es : List (Event Request Input)) :
    World.Straight t (server.run World.init es) := by
  have empty : World.Straight t World.init := {
    sound := .init
    stamped := ⟨fun _ found => (nomatch found), fun _ member => nomatch member⟩
    routed := fun _ _ found => nomatch found
    flights := fun _ _ member => nomatch member }
  exact server.run_preserves (fun w e holds => World.Straight.exec w e holds) es empty

/-- Through a whole run the seed is the first message of its thread and every
message is routed by its sender alone, exactly if the replies that the run has
stored all outlast the seed. -/
theorem reply_routing_iff (t : Uuid) (es : List (Event Request Input)) :
    server.Throughout (fun w => w.store.SeedFirst t ∧ w.store.Routed t) World.init es ↔
      (server.run World.init es).store.RepliesOutlast t := by
  constructor
  · intro all
    have last := World.Straight.reachable t es
    exact (last.sound.1.seedFirst_iff last.stamped).mp all.last.1
  · intro outlast
    rw [Machine.throughout_iff]
    rintro before after rfl
    rw [server.run_append] at outlast
    have here := World.Straight.reachable t before
    have outlastHere := outlast.of_later (run_later _ after)
    exact ⟨(here.sound.1.seedFirst_iff here.stamped).mpr outlastHere, here.routed outlastHere⟩

/-- The thread is opened on the full second and `b` replies half a second later:
the text of the seed, which has no fraction, sorts behind that of the reply, and
the next message of `a` goes to `a`. -/
theorem reply_misrouted : ¬server.Throughout (fun w => w.store.SeedFirst "t" ∧ w.store.Routed "t") World.init
    (.arrive (.postThread (some "a") ⟨some "b", [], "s", "hello", none, none⟩) ::
      .step 0 (.draw ⟨reading 0 0, "t", "m0"⟩) :: transactions 0 2 ++
      .arrive (.postMessage "t" (some "b") ⟨"hi", none⟩) :: transactions 1 2 ++
      .step 1 (.draw ⟨reading 0 500000, "m1", ""⟩) :: transactions 1 1 ++
      .arrive (.postMessage "t" (some "a") ⟨"and?", none⟩) :: transactions 2 2 ++
      .step 2 (.draw ⟨reading 1 0, "m2", ""⟩) :: transactions 2 1) := by
  intro all
  have last := all.last.2
  revert last
  decide

end PbChatroom
