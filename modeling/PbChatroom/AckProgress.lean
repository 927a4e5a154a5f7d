import PbChatroom.Creation

namespace PbChatroom
open Interleaving Relational

/-- An ack request on `t` that has stored its ack row. -/
def Flight.AckWritten (t : Uuid) : Flight → Prop
  | .postAck u _ _ (.stamping ..) | .postAck u _ _ (.marking ..) | .postAck u _ _ (.checking ..)
  | .postAck u _ _ (.flipping ..) | .postAck u _ _ (.done (.ok _)) => u = t
  | _ => False

/-- An ack request on `t` that has passed the participant check. -/
def Flight.AckAdmitted (t : Uuid) : Flight → Prop
  | .postAck u _ _ (.drawing ..) | .postAck u _ _ (.appending ..) => u = t
  | f => f.AckWritten t

/-- An ack request on `t` that is not answered yet. -/
def Flight.AckInFlight (t : Uuid) : Flight → Prop
  | .postAck _ _ _ (.done _) => False
  | .postAck u _ _ _ => u = t
  | _ => False

/-- An ack request on `t` that has marked its caller and has yet to decide
whether the thread is to be closed. -/
def Flight.Deciding (t : Uuid) : Flight → Prop
  | .postAck u _ _ (.checking ..) | .postAck u _ _ (.flipping ..) => u = t
  | _ => False

instance (t : Uuid) : DecidablePred (Flight.AckAdmitted t) := fun f => by
  unfold Flight.AckAdmitted
  split
  · infer_instance
  · infer_instance
  · unfold Flight.AckWritten
    split <;> infer_instance

instance (t : Uuid) : DecidablePred (Flight.AckInFlight t) := fun f => by
  unfold Flight.AckInFlight
  split <;> infer_instance

theorem Flight.Deciding.inFlight {t : Uuid} {f : Flight} (deciding : f.Deciding t) : f.AckInFlight t := by
  unfold Deciding at deciding
  split at deciding
  · exact deciding
  · exact deciding
  · exact deciding.elim

section Untouched

/-- No trace of an ack in the thread. -/
structure Db.Untouched (db : Db) (t : Uuid) : Prop where
  status : ∀ row, db.thread? t = some row → row.status ≠ .acked
  ackedAt : ∀ p r, db.recipient? t p = some r → ¬r.ackedAt.isSome
  kind : ∀ m ∈ db.messagesOf t, m.kind ≠ .ack

theorem Db.Untouched.empty (t : Uuid) : Db.empty.Untouched t where
  status _ found := nomatch found
  ackedAt _ _ found := nomatch found
  kind _ member := nomatch member

theorem Flight.Moves.ackWritten {db db' : Db} {f f' : Flight} (moves : Moves db f db' f') {t : Uuid}
    (written : f.AckWritten t) : f'.AckWritten t := by
  cases moves with
  | postAck move => cases move <;> first | exact written | exact written.elim
  | _ => exact written.elim

theorem Flight.Moves.appending_ack {db db' : Db} {t : Uuid} {caller : Participant} {payload : Option MessageCreate}
    {path : AckPath} {recipient : String} {d : Draw} {f' : Flight}
    (moves : Moves db (.postAck t caller payload (.appending path recipient d)) db' f') :
    db' = db ∨ f'.AckWritten t := by
  cases moves with
  | postAck move =>
    cases move with
    | idle => exact Or.inl rfl
    | appendFails => exact Or.inl rfl
    | inserts => exact Or.inr rfl
    | closes => exact Or.inr rfl

theorem Flight.Moves.untouched {db db' : Db} {f f' : Flight} (moves : Moves db f db' f') {t : Uuid}
    (untouched : db.Untouched t) (unwritten : ¬f'.AckWritten t) : db'.Untouched t := by
  have before : ¬f.AckWritten t := fun written => unwritten (moves.ackWritten written)
  have commits := moves.commits
  have unchanged : ∀ caller payload path recipient d, f = .postAck t caller payload (.appending path recipient d) →
      db' = db := by
    rintro caller payload path recipient d rfl
    exact moves.appending_ack.resolve_right unwritten
  refine ⟨fun row' found acked => ?_, fun p r' found acked => ?_, fun m member isAck => ?_⟩
  · rcases commits.acked found acked with ⟨row, atRow, old⟩ | ⟨_, _, _, _, closing, _⟩ | ⟨_, _, _, _, flipping⟩
    · exact untouched.status row atRow old
    · rw [unchanged _ _ _ _ _ closing] at found
      exact untouched.status row' found acked
    · subst flipping
      exact before rfl
  · rcases commits.ackedAt found acked with ⟨r, atRow, old⟩ | ⟨_, _, _, _, _, marking, _⟩
    · exact untouched.ackedAt p r atRow old
    · subst marking
      exact before rfl
  · obtain ⟨inRows, inThread⟩ := Db.mem_messagesOf.mp member
    rcases commits.messages with same | ⟨written, writing, rows⟩
    · rw [same] at inRows
      exact untouched.kind m (Db.mem_messagesOf.mpr ⟨inRows, inThread⟩) isAck
    · rw [rows, List.mem_append, List.mem_singleton] at inRows
      rcases inRows with old | rfl
      · exact untouched.kind m (Db.mem_messagesOf.mpr ⟨old, inThread⟩) isAck
      · unfold Flight.writing at writing
        split at writing
        · cases Option.some.inj writing
          cases isAck
        · cases Option.some.inj writing
          cases isAck
        · cases Option.some.inj writing
          obtain rfl : _ = t := inThread
          rw [unchanged _ _ _ _ _ rfl] at member
          exact untouched.kind _ member isAck
        · cases writing

/-- A thread on which no ack has been written is as its creation left it. -/
theorem untouched_of_unwritten (t : Uuid) (es : List (Event Request Input))
    (unwritten : ∀ f ∈ (server.run World.init es).pool, ¬f.AckWritten t) :
    (server.run World.init es).store.Untouched t := by
  refine server.run_preserves (I := fun w => (∀ f ∈ w.pool, ¬f.AckWritten t) → w.store.Untouched t)
    (server.exec_preserves ?_ ?_) es ?_ unwritten
  · exact fun w request holds unwritten => holds fun f member => unwritten f (List.mem_append_left _ member)
  · intro w i f x at_i holds unwritten
    have bound : i < w.pool.length := (List.getElem?_eq_some_iff.mp at_i).1
    have moves := f.step_moves x w.store
    have moved : ¬(f.step x w.store).2.AckWritten t := unwritten _ (List.mem_set bound _)
    refine moves.untouched (holds fun g member written => ?_) moved
    obtain ⟨j, at_j⟩ := List.mem_iff_getElem?.mp member
    by_cases same : i = j
    · subst same
      cases Option.some.inj (at_i.symm.trans at_j)
      exact moved (moves.ackWritten written)
    · refine unwritten g (List.mem_iff_getElem?.mpr ⟨j, ?_⟩) written
      exact (List.getElem?_set_ne same).trans at_j
  · exact fun _ => .empty t

end Untouched

section Recorded

/-- What an ack that has passed its check leaves on record: a mark of its sender if
the sender is listed, and a closed thread otherwise. -/
def PostAck.Recorded (t : Uuid) (caller : Participant) (db : Db) : PostAck → Prop
  | .drawing .recipient _ | .appending .recipient .. | .stamping .. | .marking .. =>
    ∃ r, db.recipient? t caller.id = some r
  | .checking .. | .flipping .. => ∃ r, db.recipient? t caller.id = some r ∧ r.ackedAt.isSome
  | .done (.ok _) => (∃ r, db.recipient? t caller.id = some r ∧ r.ackedAt.isSome) ∨
      ∃ row, db.thread? t = some row ∧ row.status = .acked
  | _ => True

def Flight.Recorded (db : Db) : Flight → Prop
  | .postAck t caller _ pc => pc.Recorded t caller db
  | _ => True

theorem Flight.Fresh.recorded {f : Flight} (fresh : f.Fresh) (db : Db) : f.Recorded db := by
  cases fresh <;> trivial

theorem Flight.Recorded.later {db db' : Db} {f : Flight} (recorded : f.Recorded db) (later : db.Later db') :
    f.Recorded db' := by
  cases f with
  | postAck t caller payload pc =>
    cases pc with
    | drawing path =>
      cases path with
      | recipient => exact later.listed recorded
      | closing => trivial
    | appending path =>
      cases path with
      | recipient => exact later.listed recorded
      | closing => trivial
    | stamping => exact later.listed recorded
    | marking => exact later.listed recorded
    | checking => exact later.marked recorded
    | flipping => exact later.marked recorded
    | done answer =>
      cases answer with
      | error => trivial
      | ok => exact recorded.imp later.marked later.closed
    | _ => trivial
  | _ => trivial

theorem Flight.Moves.recorded {db db' : Db} {f f' : Flight} (moves : Moves db f db' f') (recorded : f.Recorded db) :
    f'.Recorded db' := by
  cases moves with
  | @postAck t caller payload _ _ _ move =>
    cases move with
    | idle => exact recorded
    | @resolves thread path recipient accepted onPath =>
      cases path with
      | recipient => exact Db.mem_recipientsOf_iff_exists.mp (onPath.mp rfl)
      | closing => trivial
    | draws path =>
      cases path with
      | recipient => exact recorded
      | closing => trivial
    | @inserts recipient d _ inserted =>
      have later := (PostAck.insertAck_ok inserted).later fun _ => ⟨rfl, rfl, rfl, rfl, id, fun _ => rfl⟩
      exact later.listed recorded
    | closes append =>
      obtain ⟨rfl, appended⟩ := appendAck_ok append
      obtain ⟨row, found⟩ := appended.parent
      exact Or.inr ⟨_, by rw [appended.threads, if_pos rfl, found, Option.map_some], rfl⟩
    | stamps => exact recorded
    | marks recipient d now =>
      obtain ⟨r, found⟩ := recorded
      refine ⟨{ r with ackedAt := some (nowUtc now) }, ?_, rfl⟩
      rw [markRecipientAcked, Db.recipient?_updateRecipient, if_pos rfl, found, Option.map_some]
    | completes => exact recorded
    | leavesOpen => exact Or.inl recorded
    | flips => exact Or.inl recorded
    | _ => trivial
  | _ => trivial

/-- Every ack that is stored is one of a recipient, or has closed its thread. -/
def Db.AcksFiled (db : Db) : Prop :=
  ∀ m ∈ db.messages.rows, m.kind = .ack → (∃ r, db.recipient? m.threadId m.fromParticipant = some r) ∨
    ∃ row, db.thread? m.threadId = some row ∧ row.status = .acked

theorem Flight.Moves.acksFiled {db db' : Db} {f f' : Flight} (moves : Moves db f db' f') (filed : db.AcksFiled)
    (recorded : f.Recorded db) : db'.AcksFiled := by
  have later := moves.later
  intro m member isAck
  have of_old : m ∈ db.messages.rows → (∃ r, db'.recipient? m.threadId m.fromParticipant = some r) ∨
      ∃ row, db'.thread? m.threadId = some row ∧ row.status = .acked :=
    fun old => (filed m old isAck).imp later.listed later.closed
  have commits := moves.commits
  rcases commits.messages with same | ⟨written, writing, rows⟩
  · exact of_old (same ▸ member)
  · rw [rows, List.mem_append, List.mem_singleton] at member
    rcases member with old | rfl
    · exact of_old old
    · cases commits with
      | @closes t caller payload recipient d written' _ writing' appended =>
        cases Option.some.inj writing
        cases Option.some.inj writing'
        obtain ⟨row, found⟩ := appended.parent
        exact Or.inr ⟨_, by rw [appended.threads, if_pos rfl, found, Option.map_some], rfl⟩
      | inserts =>
        cases Option.some.inj writing
        exact Or.inl (later.listed recorded)
      | nothing =>
        exact of_old (by rw [rows]; exact List.mem_append_right _ (List.mem_singleton.mpr rfl))
      | opens | posts =>
        cases Option.some.inj writing
        cases isAck
      | _ => cases writing

theorem acksFiled_run (es : List (Event Request Input)) :
    Machine.Annotated Db.AcksFiled Flight.Recorded (server.run World.init es) := by
  refine server.run_preserves (server.annotated_exec (R := Db.Later) ?_ ?_ step_later ?_) es ⟨?_, ?_⟩
  · exact fun db request _ => request.receive_fresh.recorded db
  · intro x db f filed recorded
    have moves := f.step_moves x db
    exact ⟨moves.acksFiled filed recorded, moves.recorded recorded⟩
  · exact fun _ _ _ later recorded => recorded.later later
  · exact fun _ member => nomatch member
  · exact fun _ member => nomatch member

theorem recorded_reachable (es : List (Event Request Input)) {f : Flight}
    (member : f ∈ (server.run World.init es).pool) : f.Recorded (server.run World.init es).store :=
  (acksFiled_run es).2 f member

end Recorded

end PbChatroom
