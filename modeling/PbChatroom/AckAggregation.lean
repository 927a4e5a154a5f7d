import PbChatroom.AckProgress

namespace PbChatroom
open Interleaving Relational

namespace Db

def AllAcked (db : Db) (t : Uuid) : Prop := ∀ p r, db.recipient? t p = some r → r.ackedAt.isSome

/-- The creator, who is no recipient, has an ack stored. -/
def ClosedBy (db : Db) (t : Uuid) (creator : String) : Prop :=
  db.recipient? t creator = none ∧ ∃ m ∈ db.messagesOf t, m.kind = .ack ∧ m.fromParticipant = creator

/-- The thread is complete and its status does not lie: acked means that all
recipients have acked or the creator has, and an ack of the creator is an
acked thread. -/
structure Tallied (db : Db) (t : Uuid) (creator : String) : Prop where
  complete : ∃ primary r, db.OpenedFor t creator primary ∧ db.recipient? t primary = some r
  acked : ∀ row, db.thread? t = some row → row.status = .acked → db.AllAcked t ∨ db.ClosedBy t creator
  closed : db.ClosedBy t creator → ∃ row, db.thread? t = some row ∧ row.status = .acked

end Db

theorem Db.SameRecipients.absent {t : Uuid} {db db' : Db} (same : db.SameRecipients t db') {p : String} :
    db'.recipient? t p = none ↔ db.recipient? t p = none := by
  have iff := same p
  rw [← Option.isSome_iff_exists, ← Option.isSome_iff_exists] at iff
  rw [← Option.not_isSome_iff_eq_none, ← Option.not_isSome_iff_eq_none, iff]

theorem Db.AllAcked.later {t : Uuid} {db db' : Db} (all : db.AllAcked t) (later : db.Later db')
    (same : db.SameRecipients t db') : db'.AllAcked t := by
  intro p r' found
  obtain ⟨r, old⟩ := (same p).mp ⟨r', found⟩
  obtain ⟨r'', found'', step⟩ := later.recipient? old
  cases Option.some.inj (found.symm.trans found'')
  exact step (all p r old)

theorem Db.ClosedBy.later {t : Uuid} {creator : String} {db db' : Db} (closed : db.ClosedBy t creator)
    (later : db.Later db') (same : db.SameRecipients t db') : db'.ClosedBy t creator := by
  obtain ⟨outside, m, member, facts⟩ := closed
  exact ⟨same.absent.mpr outside, m, (later.messagesOf t).subset member, facts⟩

/-- What an ack request on a complete thread knows: whether its caller is one
of the recipients, then that the caller has acked, then that all have. -/
def PostAck.Tallied (t : Uuid) (caller creator : String) (db : Db) : PostAck → Prop
  | .drawing .recipient _ | .appending .recipient _ _ | .stamping .. | .marking .. =>
    ∃ r, db.recipient? t caller = some r
  | .drawing .closing _ | .appending .closing _ _ => caller = creator ∧ db.recipient? t caller = none
  | .checking .. => ∃ r, db.recipient? t caller = some r ∧ r.ackedAt.isSome
  | .flipping .. => db.AllAcked t
  | _ => True

def Flight.Tallied (t : Uuid) (creator : String) (db : Db) : Flight → Prop
  | .postAck u caller _ pc => u = t → pc.Tallied t caller.id creator db
  | _ => True

theorem PostAck.Tallied.later {t : Uuid} {caller creator : String} {db db' : Db} {pc : PostAck}
    (tallied : pc.Tallied t caller creator db) (later : db.Later db') (same : db.SameRecipients t db') :
    pc.Tallied t caller creator db' := by
  have listed : (∃ r, db.recipient? t caller = some r) → ∃ r, db'.recipient? t caller = some r := (same caller).mpr
  cases pc with
  | drawing path =>
    cases path with
    | recipient => exact listed tallied
    | closing => exact ⟨tallied.1, same.absent.mpr tallied.2⟩
  | appending path =>
    cases path with
    | recipient => exact listed tallied
    | closing => exact ⟨tallied.1, same.absent.mpr tallied.2⟩
  | stamping => exact listed tallied
  | marking => exact listed tallied
  | checking => exact later.marked tallied
  | flipping => exact Db.AllAcked.later tallied later same
  | _ => trivial

theorem Flight.Tallied.later {t : Uuid} {creator : String} {db db' : Db} {f : Flight}
    (tallied : f.Tallied t creator db) (later : db.Later db') (same : db.SameRecipients t db') :
    f.Tallied t creator db' := by
  cases f with
  | postAck => exact fun here => PostAck.Tallied.later (tallied here) later same
  | _ => trivial

/-- On a complete thread an accepted caller is a recipient or the creator. -/
theorem Db.Tallied.resolves {t : Uuid} {creator caller recipient : String} {db : Db} {thread : ThreadWithMessages}
    {path : AckPath} (tallied : db.Tallied t creator) (snapshot : Snapshot db t thread)
    (accepted : resolveParticipants thread caller ((listRecipients db t).map RecipientRow.participantId) =
      .ok recipient)
    (byPath : path = .recipient ↔ caller ∈ (listRecipients db t).map RecipientRow.participantId) :
    (PostAck.drawing path recipient).Tallied t caller creator db := by
  have listed : path = .recipient ↔ ∃ r, db.recipient? t caller = some r := by
    rw [byPath, ← Db.mem_recipientsOf_iff_exists, listRecipients]
  cases path with
  | recipient => exact listed.mp rfl
  | closing =>
    have outside : ¬∃ r, db.recipient? t caller = some r := fun inside => nomatch listed.mpr inside
    obtain ⟨creator', primary, opened, party⟩ := (snapshot.resolve accepted).1
    obtain ⟨primary', r, opened', atPrimary⟩ := tallied.complete
    obtain ⟨rfl, rfl⟩ := opened.unique opened'
    refine ⟨?_, Option.not_isSome_iff_eq_none.mp fun inside => outside (Option.isSome_iff_exists.mp inside)⟩
    rcases party with isCreator | isPrimary | inside
    · exact isCreator
    · rw [isPrimary] at outside
      exact absurd ⟨r, atPrimary⟩ outside
    · exact absurd inside outside

theorem PostAck.Moves.tallied {t : Uuid} {caller : Participant} {payload : Option MessageCreate} {creator : String}
    {db db' : Db} {pc pc' : PostAck} (move : PostAck.Moves t caller payload db pc db' pc')
    (store : db.Tallied t creator) (placed : pc.Placed t caller payload db)
    (tallied : pc.Tallied t caller.id creator db) : pc'.Tallied t caller.id creator db' := by
  cases move with
  | idle => exact tallied
  | notFound => trivial
  | reads => trivial
  | refused => trivial
  | resolves accepted byPath => exact store.resolves placed accepted byPath
  | draws path => cases path <;> exact tallied
  | appendFails => trivial
  | inserts inserted =>
    obtain ⟨r, found⟩ := tallied
    exact ⟨r, by rwa [Db.recipient?, (insertAck_ok inserted).recipients]⟩
  | closes => trivial
  | stamps => exact tallied
  | marks recipient d now =>
    obtain ⟨r, found⟩ := tallied
    refine ⟨{ r with ackedAt := some (nowUtc now) }, ?_, rfl⟩
    rw [markRecipientAcked, Db.recipient?_updateRecipient, if_pos rfl, found]
    rfl
  | completes _ _ all => exact fun p r found => allRecipientsAcked_iff.mp all p r found
  | leavesOpen => trivial
  | flips => trivial

theorem Flight.Moves.tallied {db db' : Db} {f f' : Flight} (moves : Moves db f db' f') {t : Uuid} {creator : String}
    (store : db.Tallied t creator) (placed : f.Placed db) (tallied : f.Tallied t creator db) :
    f'.Tallied t creator db' := by
  cases moves with
  | postAck move =>
    rintro rfl
    exact move.tallied store placed (tallied rfl)
  | _ => trivial

/-- One step keeps the tally of a complete thread. -/
theorem Flight.Moves.tally {db db' : Db} {f f' : Flight} (moves : Moves db f db' f') {t : Uuid} {creator : String}
    (store : db.Tallied t creator) (tallied : f.Tallied t creator db) (same : db.SameRecipients t db') :
    db'.Tallied t creator := by
  have later := moves.later
  have commits := moves.commits
  obtain ⟨primary, r, opened, atPrimary⟩ := store.complete
  obtain ⟨r', atPrimary', _⟩ := later.recipient? atPrimary
  refine ⟨⟨primary, r', opened.later later, atPrimary'⟩, fun row' found acked => ?_, ?_⟩
  · rcases commits.acked found acked with ⟨row, atRow, old⟩ | ⟨caller, _, _, _, rfl, stored⟩ | ⟨_, _, _, _, rfl⟩
    · exact (store.acked row atRow old).imp (·.later later same) (·.later later same)
    · obtain ⟨rfl, outside⟩ := tallied rfl
      exact Or.inr ⟨same.absent.mpr outside, _, Db.mem_messagesOf.mpr ⟨stored, rfl⟩, rfl, rfl⟩
    · exact Or.inl (Db.AllAcked.later (tallied rfl) later same)
  · rintro ⟨outside, m, member, isAck, byCreator⟩
    have outsideBefore := same.absent.mp outside
    obtain ⟨inRows, inThread⟩ := Db.mem_messagesOf.mp member
    have acked_of : m ∈ db.messages.rows → ∃ row, db'.thread? t = some row ∧ row.status = .acked := by
      intro old
      have closedBefore := store.closed ⟨outsideBefore, m, Db.mem_messagesOf.mpr ⟨old, inThread⟩, isAck, byCreator⟩
      exact later.closed closedBefore
    cases commits with
    | @closes u caller payload recipient d _ _ writing appended =>
      cases Option.some.inj writing
      rw [appended.messages, List.mem_append, List.mem_singleton] at inRows
      rcases inRows with old | rfl
      · exact acked_of old
      · obtain ⟨row, parent⟩ := appended.parent
        refine ⟨{ row with status := .acked, lastMessageAt := nowIso d.now }, ?_, rfl⟩
        rw [appended.threads, if_pos inThread.symm, ← inThread, parent]
        rfl
    | inserts writing appended =>
      cases Option.some.inj writing
      rw [appended.messages, List.mem_append, List.mem_singleton] at inRows
      rcases inRows with old | rfl
      · exact acked_of old
      · obtain ⟨r, listed⟩ := tallied inThread
        rw [byCreator.symm] at outsideBefore
        exact absurd (listed.symm.trans outsideBefore) (Option.some_ne_none r)
    | posts writing appended =>
      cases Option.some.inj writing
      rw [appended.messages, List.mem_append, List.mem_singleton] at inRows
      rcases inRows with old | rfl
      · exact acked_of old
      · cases isAck
    | opens writing created =>
      cases Option.some.inj writing
      rw [created.messages, List.mem_append, List.mem_singleton] at inRows
      rcases inRows with old | rfl
      · exact acked_of old
      · cases isAck
    | adds added => exact acked_of (by rwa [addRecipient_messages added] at inRows)
    | claims => exact acked_of (by rwa [setClaim_messages] at inRows)
    | _ => exact acked_of inRows

/-- No closing ack is lost: when a thread has recipients and all have acked, it is
acked or some request still has to close it. -/
def World.Decided (t : Uuid) (w : World) : Prop :=
  (∃ p r, w.store.recipient? t p = some r) → w.store.AllAcked t →
    (∃ row, w.store.thread? t = some row ∧ row.status = .acked) ∨ ∃ f ∈ w.pool, f.Deciding t

theorem Flight.Moves.deciding {db db' : Db} {f f' : Flight} (moves : Moves db f db' f') {t : Uuid}
    (deciding : f.Deciding t) (found : ∃ row, db.thread? t = some row) (all : db.AllAcked t) :
    f'.Deciding t ∨ ∃ row, db'.thread? t = some row ∧ row.status = .acked := by
  cases moves with
  | postAck move =>
    cases move with
    | idle => exact Or.inl deciding
    | completes => exact Or.inl deciding
    | leavesOpen _ _ unmarked =>
      obtain rfl : _ = t := deciding
      exact absurd (allRecipientsAcked_iff.mpr all) unmarked
    | flips =>
      obtain rfl : _ = t := deciding
      obtain ⟨row, atRow⟩ := found
      refine Or.inr ⟨{ row with status := .acked }, ?_, rfl⟩
      rw [thread?_updateThreadStatus, if_pos rfl, atRow]
      rfl
    | _ => exact deciding.elim
  | _ => exact deciding.elim

/-- The request that marks the last recipient is the one that decides; a recipient
who is added has not acked. -/
theorem Flight.Moves.last_marks {db db' : Db} {f f' : Flight} (moves : Moves db f db' f') {t : Uuid}
    (listed : ∃ p r, db'.recipient? t p = some r) (all : db'.AllAcked t)
    (before : ¬((∃ p r, db.recipient? t p = some r) ∧ db.AllAcked t)) : f'.Deciding t := by
  obtain ⟨p, r', found', unmarked⟩ : ∃ p r', db'.recipient? t p = some r' ∧
      ¬∃ r, db.recipient? t p = some r ∧ r.ackedAt.isSome := by
    by_contra allOld
    have old : ∀ p r', db'.recipient? t p = some r' → ∃ r, db.recipient? t p = some r ∧ r.ackedAt.isSome :=
      fun p r' found' => not_not.mp fun unmarked => allOld ⟨p, r', found', unmarked⟩
    obtain ⟨p, r', found'⟩ := listed
    obtain ⟨r, found, _⟩ := old p r' found'
    refine before ⟨⟨p, r, found⟩, fun q s atQ => ?_⟩
    obtain ⟨s', atQ', _⟩ := moves.later.recipient? atQ
    obtain ⟨same, atSame, acked⟩ := old q s' atQ'
    cases Option.some.inj (atQ.symm.trans atSame)
    exact acked
  rcases moves.commits.ackedAt found' (all p r' found') with marked | ⟨_, _, _, _, _, rfl, _⟩
  · exact absurd marked unmarked
  · cases moves with
    | postAck move =>
      cases move with
      | idle => exact absurd ⟨r', found', all p r' found'⟩ unmarked
      | marks => rfl

theorem World.Decided.exec {t : Uuid} : ∀ (w : World) (e : Event Request Input),
    w.Decided t → World.Decided t (server.exec w e) := by
  refine server.exec_preserves ?_ ?_
  · exact fun w request decided listed all =>
      (decided listed all).imp_right fun ⟨f, member, deciding⟩ => ⟨f, List.mem_append_left _ member, deciding⟩
  · intro w i f x at_i decided listed all
    have bound : i < w.pool.length := (List.getElem?_eq_some_iff.mp at_i).1
    have moves := f.step_moves x w.store
    by_cases before : (∃ p r, w.store.recipient? t p = some r) ∧ w.store.AllAcked t
    · rcases decided before.1 before.2 with closed | ⟨g, member, deciding⟩
      · exact Or.inl (moves.later.closed closed)
      · obtain ⟨j, at_j⟩ := List.mem_iff_getElem?.mp member
        by_cases self : i = j
        · subst self
          cases Option.some.inj (at_i.symm.trans at_j)
          obtain ⟨p, r, found⟩ := before.1
          have there : ∃ row, w.store.thread? t = some row := by
            refine Option.isSome_iff_exists.mp (Option.ne_none_iff_isSome.mp fun absent => ?_)
            exact Option.some_ne_none r (found.symm.trans (Db.recipient?_eq_none absent p))
          rcases moves.deciding deciding there before.2 with still | closed
          · exact Or.inr ⟨_, List.mem_set bound _, still⟩
          · exact Or.inl closed
        · exact Or.inr ⟨g, List.mem_iff_getElem?.mpr ⟨j, (List.getElem?_set_ne self).trans at_j⟩, deciding⟩
    · exact Or.inr ⟨_, List.mem_set bound _, moves.last_marks listed all before⟩

theorem World.Decided.reachable (t : Uuid) (es : List (Event Request Input)) :
    World.Decided t (server.run World.init es) :=
  server.run_preserves World.Decided.exec es fun ⟨_, _, found⟩ => nomatch found

/-- The invariant of a complete thread on which no ack came before its
creation was over. -/
structure World.Tallied (t : Uuid) (creator : String) (w : World) : Prop where
  accounted : w.Accounted
  isSealed : w.Sealed t
  store : w.store.Tallied t creator
  flights : ∀ f ∈ w.pool, f.Tallied t creator w.store
  decided : w.Decided t

theorem Flight.Fresh.tallied {f : Flight} (fresh : f.Fresh) (t : Uuid) (creator : String) (db : Db) :
    f.Tallied t creator db := by
  cases fresh with
  | postAck => exact fun _ => trivial
  | _ => trivial

theorem World.Tallied.exec {t : Uuid} {creator : String} (w : World) (e : Event Request Input)
    (tallied : w.Tallied t creator) : World.Tallied t creator (server.exec w e) := by
  have accounted := tallied.accounted.exec e
  have isSealed := tallied.isSealed.exec w e
  have decided := tallied.decided.exec w e
  cases e with
  | arrive request =>
    refine ⟨accounted, isSealed, tallied.store, fun f member => ?_, decided⟩
    rcases List.mem_append.mp member with old | new
    · exact tallied.flights f old
    · rw [List.mem_singleton.mp new]
      exact request.receive_fresh.tallied t creator w.store
  | step i x =>
    cases at_i : w.pool[i]? with
    | none => rwa [server.exec_idle x at_i]
    | some f =>
      rw [server.exec_step x at_i] at accounted isSealed decided ⊢
      have inPool := List.mem_of_getElem? at_i
      have moves := f.step_moves x w.store
      have same := moves.sameRecipients (tallied.isSealed.2 f inPool)
      have later := moves.later
      have placed := tallied.accounted.sound.2 f inPool
      have store := moves.tally tallied.store (tallied.flights f inPool) same
      refine ⟨accounted, isSealed, store, fun g member => ?_, decided⟩
      rcases Machine.mem_pool_set member with rfl | old
      · exact moves.tallied tallied.store placed (tallied.flights f inPool)
      · exact (tallied.flights g old).later later same

/-- When the creating request is answered and no ack has passed the participant
check, the tally is right. -/
theorem World.Tallied.completed {es : List (Event Request Input)} {i : Nat} {creator : Participant}
    {payload : ThreadCreate} {created : CreatedThread}
    (answered : (server.run World.init es).pool[i]? = some (.postThread creator payload (.done (.ok created))))
    (unadmitted : ∀ f ∈ (server.run World.init es).pool, ¬f.AckAdmitted created.id) :
    World.Tallied created.id creator.id (server.run World.init es) := by
  have accounted := World.Accounted.reachable es
  have untouched := untouched_of_unwritten created.id es fun f member written => unadmitted f member (by
    unfold Flight.AckAdmitted
    split
    · exact written.elim
    · exact written.elim
    · exact written)
  obtain ⟨opened, built⟩ := accounted.1.2 _ (List.mem_of_getElem? answered)
  obtain ⟨r, atPrimary⟩ := (built payload.primary).mpr (List.mem_cons_self ..)
  refine ⟨accounted, accounted.sealed answered, ⟨⟨payload.primary, r, opened, atPrimary⟩, ?_, ?_⟩, ?_, ?_⟩
  · exact fun row found acked => absurd acked (untouched.status row found)
  · rintro ⟨_, m, member, isAck, _⟩
    exact absurd isAck (untouched.kind m member)
  · intro f member
    cases f with
    | postAck u caller payload pc =>
      rintro rfl
      have outside := unadmitted _ member
      cases pc with
      | start => trivial
      | listing => trivial
      | done => trivial
      | _ => exact absurd rfl outside
    | _ => trivial
  · exact World.Decided.reachable created.id es

theorem World.Tallied.run {t : Uuid} {creator : String} {w : World} (tallied : w.Tallied t creator)
    (es : List (Event Request Input)) : World.Tallied t creator (server.run w es) :=
  server.run_preserves (fun w e holds => World.Tallied.exec w e holds) es tallied

/-- With no ack in flight the status is the tally. -/
theorem World.Tallied.acked_iff {t : Uuid} {creator : String} {w : World} (tallied : w.Tallied t creator)
    (quiet : ∀ f ∈ w.pool, ¬f.AckInFlight t) {row : ThreadRow} (found : w.store.thread? t = some row) :
    row.status = .acked ↔ w.store.AllAcked t ∨ w.store.ClosedBy t creator := by
  have of_acked : (∃ row, w.store.thread? t = some row ∧ row.status = .acked) → row.status = .acked := by
    rintro ⟨row', found', acked⟩
    cases Option.some.inj (found.symm.trans found')
    exact acked
  constructor
  · exact tallied.store.acked row found
  · rintro (all | closed)
    · obtain ⟨primary, r, _, atPrimary⟩ := tallied.store.complete
      rcases tallied.decided ⟨primary, r, atPrimary⟩ all with acked | ⟨f, member, deciding⟩
      · exact of_acked acked
      · exact absurd deciding.inFlight (quiet f member)
    · exact of_acked (tallied.store.closed closed)

/-- The status of a complete thread adds up its acks, whatever else happens to
the database in between: an acked thread has been acked by all its recipients,
or by its creator who is none of them; a thread so acked is closed as soon as
no ack request is in flight; and nothing of it is ever taken back. -/
theorem ack_aggregation {es : List (Event Request Input)} {i : Nat} {creator : Participant} {payload : ThreadCreate}
    {created : CreatedThread}
    (answered : (server.run World.init es).pool[i]? = some (.postThread creator payload (.done (.ok created))))
    (unadmitted : ∀ f ∈ (server.run World.init es).pool, ¬f.AckAdmitted created.id)
    (es' : List (Event Request Input)) :
    let w := server.run (server.run World.init es) es'
    let acks p := ∃ r, w.store.recipient? created.id p = some r ∧ r.ackedAt.isSome
    let closedByCreator := creator.id ∉ payload.allRecipients ∧
      ∃ m ∈ w.store.messagesOf created.id, m.kind = .ack ∧ m.fromParticipant = creator.id
    ∃ row, w.store.thread? created.id = some row ∧ row.createdBy = creator.id ∧
      (∀ p, (∃ r, w.store.recipient? created.id p = some r) ↔ p ∈ payload.allRecipients) ∧
      (row.status = .acked → (∀ p ∈ payload.allRecipients, acks p) ∨ closedByCreator) ∧
      ((∀ f ∈ w.pool, ¬f.AckInFlight created.id) →
        (∀ p ∈ payload.allRecipients, acks p) ∨ closedByCreator → row.status = .acked) ∧
      ∀ es'', (row.status = .acked →
          ∃ row', (server.run w es'').store.thread? created.id = some row' ∧ row'.status = .acked) ∧
        ∀ p, acks p → ∃ r, (server.run w es'').store.recipient? created.id p = some r ∧ r.ackedAt.isSome := by
  intro w acks closedByCreator
  have tallied : World.Tallied created.id creator.id w := (World.Tallied.completed answered unadmitted).run es'
  have listed := ((World.Complete.of_answered answered).run es').listed
  have all_iff : w.store.AllAcked created.id ↔ ∀ p ∈ payload.allRecipients, acks p := by
    constructor
    · intro all p member
      obtain ⟨r, found⟩ := (listed p).mpr member
      exact ⟨r, found, all p r found⟩
    · intro all p r found
      obtain ⟨r', found', acked⟩ := all p ((listed p).mp ⟨r, found⟩)
      cases Option.some.inj (found.symm.trans found')
      exact acked
  have closed_iff : w.store.ClosedBy created.id creator.id ↔ closedByCreator := by
    rw [Db.ClosedBy, ← Option.not_isSome_iff_eq_none, Option.isSome_iff_exists, listed]
  obtain ⟨row, found⟩ := tallied.isSealed.1
  obtain ⟨_, _, opened, _⟩ := tallied.store.complete
  obtain ⟨row', _, found', _, byCreator, _⟩ := opened
  cases Option.some.inj (found.symm.trans found')
  refine ⟨row, found, byCreator, listed, ?_, ?_, ?_⟩
  · rw [← all_iff, ← closed_iff]
    exact tallied.store.acked row found
  · rw [← all_iff, ← closed_iff]
    exact fun quiet => (tallied.acked_iff quiet found).mpr
  · have later := run_later w
    exact fun es'' => ⟨fun acked => (later es'').closed ⟨row, found, acked⟩, fun p => (later es'').marked⟩

/-- Two recipients who mark themselves before either asks whether all have
acked both find that all have, and the thread is closed. -/
theorem ack_aggregation_of_two :
    let es := .arrive (.postThread (some "a") ⟨none, ["b", "c"], "s", "hello", none, none⟩) ::
      .step 0 (.draw ⟨reading 0 1, "t", "m0"⟩) :: transactions 0 3
    let es' := .arrive (.postAck "t" (some "b") none) :: .arrive (.postAck "t" (some "c") none) :: transactions 1 2 ++
      transactions 2 2 ++ .step 1 (.draw ⟨reading 1 0, "m1", ""⟩) :: .step 2 (.draw ⟨reading 1 1, "m2", ""⟩) ::
      transactions 1 1 ++ transactions 2 1 ++ .step 1 (.draw ⟨reading 2 0, "", ""⟩) ::
      .step 2 (.draw ⟨reading 2 1, "", ""⟩) :: transactions 1 1 ++ transactions 2 1 ++ transactions 1 2 ++
      transactions 2 2
    ∃ row, (server.run (server.run World.init es) es').store.thread? "t" = some row ∧ row.status = .acked := by
  intro es es'
  have answered : (server.run World.init es).pool[0]? = some (.postThread ⟨"a", rfl⟩
      ⟨⟨none, ["b", "c"], "s", "hello", none, none⟩, by decide, by decide, by decide, by decide⟩
      (.done (.ok ⟨"t", "s", "a", .opened, nowUtc (reading 0 1), nowUtc (reading 0 1), none, ["b", "c"]⟩))) := rfl
  obtain ⟨row, found, _, _, _, closes, _⟩ := ack_aggregation answered (by decide) es'
  have marked : ∀ p ∈ ["b", "c"], (((server.run (server.run World.init es) es').store.recipient? "t" p).bind
      RecipientRow.ackedAt).isSome := by decide
  refine ⟨row, found, closes (by decide) (Or.inl fun p member => ?_)⟩
  obtain ⟨ackedAt, acked⟩ := Option.isSome_iff_exists.mp (marked p member)
  obtain ⟨r, listed, same⟩ := Option.bind_eq_some_iff.mp acked
  exact ⟨r, listed, by rw [same]; rfl⟩

end PbChatroom
