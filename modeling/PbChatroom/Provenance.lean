import PbChatroom.Atomicity
import PbChatroom.DiscussionType
import PbChatroom.Isolation

namespace PbChatroom
open Interleaving Relational

namespace Request

/-- What the request says, with the kind of the message that says it. -/
def text : Request → Option (Kind × String)
  | .postThread _ body => some (.message, body.body)
  | .postMessage _ _ body => some (.message, body.body)
  | .postClaim .. => none
  | .postAck _ _ body => some (.ack, (body.map MessageCreateBody.body).getD "Ack")

/-- The request asks for the thread of the row. -/
def Opens (row : ThreadRow) : Request → Prop
  | .postThread header body => header = some row.createdBy ∧ body.subject = row.subject
  | _ => False

/-- The body of the request lists the participant. -/
def Lists (p : String) : Request → Prop
  | .postThread _ body => body.toParticipant = some p ∨ p ∈ body.toParticipants
  | _ => False

/-- The request is addressed to the thread, or asks for it. -/
def For (db : Db) (t : Uuid) (r : Request) : Prop :=
  r.addressed = some t ∨ ∃ row, db.thread? t = some row ∧ r.Opens row

theorem Opens.later {row row' : ThreadRow} {r : Request} (opens : r.Opens row) (later : row.Later row') :
    r.Opens row' := by
  cases r with
  | postThread header body =>
    obtain ⟨header, subject⟩ := opens
    exact ⟨header.trans (congrArg some later.createdBy.symm), subject.trans later.subject.symm⟩
  | _ => exact opens.elim

theorem For.later {db db' : Db} {t : Uuid} {r : Request} (is_for : r.For db t) (later : db.Later db') :
    r.For db' t := by
  rcases is_for with addressed | ⟨row, found, opens⟩
  · exact Or.inl addressed
  · obtain ⟨row', found', step⟩ := later.thread? found
    exact Or.inr ⟨row', found', opens.later step⟩

end Request

namespace Db

/-- All in which the second store differs from the first has been asked for by
requests of `R`, and is put down to those who asked. -/
structure Traced (R : Request → Prop) (db db' : Db) : Prop where
  threads : ∀ t row', db'.thread? t = some row' → (∃ row, db.thread? t = some row) ∨ ∃ r, R r ∧ r.Opens row'
  messages : ∀ m ∈ db'.messages.rows, m ∈ db.messages.rows ∨
    ∃ r, R r ∧ r.For db' m.threadId ∧ r.header = some m.fromParticipant ∧ r.text = some (m.kind, m.body)
  recipients : ∀ t p r', db'.recipient? t p = some r' → (∃ r, db.recipient? t p = some r) ∨
    ∃ row' r, db'.thread? t = some row' ∧ R r ∧ r.Opens row' ∧ r.Lists p
  marks : ∀ t p r', db'.recipient? t p = some r' → r'.ackedAt.isSome →
    (∃ r, db.recipient? t p = some r ∧ r.ackedAt.isSome) ∨ ∃ body, R (.postAck t (some p) body)
  claims : ∀ t row', db'.thread? t = some row' → row'.claim.claimedBy ≠ none →
    (∃ row, db.thread? t = some row ∧ row.claim = row'.claim) ∨
      ∃ p scope now, R (.postClaim t (some p) scope) ∧ row'.claim = ⟨some p, some (nowUtc now), some scope⟩
  closed : ∀ t row', db'.thread? t = some row' → row'.status = .acked →
    (∃ row, db.thread? t = some row ∧ row.status = .acked) ∨ ∃ p body, R (.postAck t (some p) body)
  types : ∀ t discussionType, db'.discussionType? t = some discussionType →
    db.discussionType? t = some discussionType ∨ ∃ r, R r ∧ r.For db' t ∧ r.carries = some discussionType

theorem Traced.refl (R : Request → Prop) (db : Db) : db.Traced R db where
  threads _ row found := Or.inl ⟨row, found⟩
  messages _ member := Or.inl member
  recipients _ _ r found := Or.inl ⟨r, found⟩
  marks _ _ r found acked := Or.inl ⟨r, found, acked⟩
  claims _ row found _ := Or.inl ⟨row, found, rfl⟩
  closed _ row found acked := Or.inl ⟨row, found, acked⟩
  types _ _ found := Or.inl found

theorem Traced.trans {R : Request → Prop} {a b c : Db} (first : a.Traced R b) (second : b.Traced R c)
    (later : b.Later c) : a.Traced R c where
  threads t row'' found'' := by
    rcases second.threads t row'' found'' with ⟨row', found'⟩ | asked
    · rcases first.threads t row' found' with old | ⟨r, isR, opens⟩
      · exact Or.inl old
      · obtain ⟨_, found, step⟩ := later.thread? found'
        cases Option.some.inj (found.symm.trans found'')
        exact Or.inr ⟨r, isR, opens.later step⟩
    · exact Or.inr asked
  messages m member := by
    rcases second.messages m member with before | asked
    · rcases first.messages m before with old | ⟨r, isR, is_for, said⟩
      · exact Or.inl old
      · exact Or.inr ⟨r, isR, is_for.later later, said⟩
    · exact Or.inr asked
  recipients t p r'' found'' := by
    rcases second.recipients t p r'' found'' with ⟨r', found'⟩ | asked
    · rcases first.recipients t p r' found' with old | ⟨row', r, atRow', isR, opens, lists⟩
      · exact Or.inl old
      · obtain ⟨row'', atRow'', step⟩ := later.thread? atRow'
        exact Or.inr ⟨row'', r, atRow'', isR, opens.later step, lists⟩
    · exact Or.inr asked
  marks t p r'' found'' acked'' := by
    rcases second.marks t p r'' found'' acked'' with ⟨r', found', acked'⟩ | asked
    · exact first.marks t p r' found' acked'
    · exact Or.inr asked
  claims t row'' found'' claimed'' := by
    rcases second.claims t row'' found'' claimed'' with ⟨row', found', same⟩ | asked
    · rw [← same] at claimed'' ⊢
      exact first.claims t row' found' claimed''
    · exact Or.inr asked
  closed t row'' found'' acked'' := by
    rcases second.closed t row'' found'' acked'' with ⟨row', found', acked'⟩ | asked
    · exact first.closed t row' found' acked'
    · exact Or.inr asked
  types t discussionType found'' := by
    rcases second.types t discussionType found'' with found' | asked
    · rcases first.types t discussionType found' with old | ⟨r, isR, is_for, carries⟩
      · exact Or.inl old
      · exact Or.inr ⟨r, isR, is_for.later later, carries⟩
    · exact Or.inr asked

end Db

section Backed

/-- The thread is there, as the call has asked for it. -/
def Db.OpenedAs (db : Db) (t : Uuid) (caller : Participant) (payload : ThreadCreate) : Prop :=
  ∃ row, db.thread? t = some row ∧ row.createdBy = caller.id ∧ row.subject = payload.subject

/-- What a request has still to write comes from its body. -/
def Flight.Backed (db : Db) : Flight → Prop
  | .postThread caller payload (.typing result discussionType) =>
    payload.discussionType.filter (· ≠ "") = some discussionType ∧ db.OpenedAs result.id caller payload
  | .postThread caller payload (.adding result recipient rest) =>
    (∀ p ∈ recipient :: rest, p ∈ payload.allRecipients) ∧ db.OpenedAs result.id caller payload
  | .postMessage _ _ payload (.typing _ discussionType) =>
    payload.discussionType.filter (· ≠ "") = some discussionType
  | _ => True

variable {db db' : Db} {t : Uuid} {caller : Participant} {payload : ThreadCreate}

theorem Db.OpenedAs.later (opened : db.OpenedAs t caller payload) (later : db.Later db') :
    db'.OpenedAs t caller payload := by
  obtain ⟨row, found, byCaller, subject⟩ := opened
  obtain ⟨row', found', step⟩ := later.thread? found
  exact ⟨row', found', step.createdBy.trans byCaller, step.subject.trans subject⟩

theorem Db.OpenedAs.opens (opened : db.OpenedAs t caller payload) :
    ∃ row, db.thread? t = some row ∧ (Request.postThread (some caller.id) payload.toThreadCreateBody).Opens row := by
  obtain ⟨row, found, byCaller, subject⟩ := opened
  exact ⟨row, found, congrArg some byCaller.symm, subject.symm⟩

theorem Flight.Fresh.backed {f : Flight} (fresh : f.Fresh) (db : Db) : f.Backed db := by
  cases fresh <;> trivial

theorem Flight.Backed.later {f : Flight} (backed : f.Backed db) (later : db.Later db') : f.Backed db' := by
  unfold Backed at backed ⊢
  split at backed
  · exact ⟨backed.1, backed.2.later later⟩
  · exact ⟨backed.1, backed.2.later later⟩
  · exact backed
  · trivial

theorem Flight.Moves.backed {f f' : Flight} (moves : Moves db f db' f') (backed : f.Backed db) : f'.Backed db' := by
  cases moves with
  | refused => trivial
  | @postThread caller payload _ _ _ move =>
    have opened : ∀ {d : Draw} {db' : Db} {result : CreatedThread},
        createThread db d.uuid d.uuid' d.now payload.subject caller.id payload.primary payload.body =
          .ok (result, db') → db'.OpenedAs result.id caller payload := by
      intro d db' result created
      obtain ⟨rfl, create⟩ := createThread_ok created
      exact ⟨_, (create.threads _).trans (if_pos rfl), rfl, rfl⟩
    cases move with
    | idle => exact backed
    | createsTyped _ created given nonempty => exact ⟨carries_eq_some given nonempty, opened created⟩
    | creates _ created => exact ⟨fun p member => member, opened created⟩
    | types result discussionType =>
      exact ⟨fun p member => member, backed.2.later (setDiscussionType_later ..)⟩
    | adds added =>
      exact ⟨fun p member => backed.1 p (List.mem_cons_of_mem _ member), backed.2.later (addRecipient_later added)⟩
    | _ => trivial
  | postMessage move =>
    cases move with
    | idle => exact backed
    | appendsTyped _ given nonempty => exact carries_eq_some given nonempty
    | _ => trivial
  | postClaim => trivial
  | postAck => trivial

end Backed

section Tracing
variable {R : Request → Prop} {db db' : Db}

/-- What a transaction that writes to the log commits. -/
theorem Appended.traced {set : ThreadRow → ThreadRow} {m : Message} {r : Request} (appended : Appended set db m db')
    (isR : R r) (addressed : r.addressed = some m.threadId) (sender : r.header = some m.fromParticipant)
    (text : r.text = some (m.kind, m.body)) (claim : ∀ row, (set row).claim = row.claim)
    (type : ∀ row, (set row).discussionType = row.discussionType)
    (closed : ∀ row, (set row).status = .acked →
      row.status = .acked ∨ ∃ p body, R (.postAck m.threadId (some p) body)) :
    db.Traced R db' where
  threads t row' found := by
    rw [appended.threads] at found
    split at found
    · obtain ⟨row, atRow, _⟩ := Option.map_eq_some_iff.mp found
      exact Or.inl ⟨row, atRow⟩
    · exact Or.inl ⟨row', found⟩
  messages n member := by
    rw [appended.messages, List.mem_append, List.mem_singleton] at member
    rcases member with old | rfl
    · exact Or.inl old
    · exact Or.inr ⟨r, isR, Or.inl addressed, sender, text⟩
  recipients t p r' found := by
    rw [Db.recipient?, appended.recipients] at found
    exact Or.inl ⟨r', found⟩
  marks t p r' found acked := by
    rw [Db.recipient?, appended.recipients] at found
    exact Or.inl ⟨r', found, acked⟩
  claims t row' found _ := by
    rw [appended.threads] at found
    split at found
    · obtain ⟨row, atRow, rfl⟩ := Option.map_eq_some_iff.mp found
      exact Or.inl ⟨row, atRow, (claim row).symm⟩
    · exact Or.inl ⟨row', found, rfl⟩
  closed t row' found acked := by
    rw [appended.threads] at found
    split at found
    · rename_i here
      obtain ⟨row, atRow, rfl⟩ := Option.map_eq_some_iff.mp found
      rcases closed row acked with before | asked
      · exact Or.inl ⟨row, atRow, before⟩
      · exact Or.inr (here ▸ asked)
    · exact Or.inl ⟨row', found, acked⟩
  types t discussionType found := by
    rw [Db.discussionType?, appended.column t fun _ => type] at found
    exact Or.inl found

/-- What an UPDATE of one thread commits. -/
theorem Db.traced_updateThread {t : Uuid} {set : ThreadRow → ThreadRow} {keeps : ∀ row, (set row).id = row.id}
    (claims : ∀ row, (set row).claim = row.claim ∨
      ∃ p scope now, R (.postClaim t (some p) scope) ∧ (set row).claim = ⟨some p, some (nowUtc now), some scope⟩)
    (closed : ∀ row, (set row).status = .acked → row.status = .acked ∨ ∃ p body, R (.postAck t (some p) body))
    (types : ∀ row discussionType, (set row).discussionType = some discussionType →
      row.discussionType = some discussionType ∨
        ∃ r, R r ∧ r.For (db.updateThread t set keeps) t ∧ r.carries = some discussionType) :
    db.Traced R (db.updateThread t set keeps) where
  threads u row' found := Or.inl (Db.thread?_of_updateThread u row' found)
  messages _ member := Or.inl member
  recipients _ _ r found := Or.inl ⟨r, found⟩
  marks _ _ r found acked := Or.inl ⟨r, found, acked⟩
  claims u row' found _ := by
    rw [Db.thread?_updateThread] at found
    split at found
    · rename_i here
      subst here
      obtain ⟨row, atRow, rfl⟩ := Option.map_eq_some_iff.mp found
      rcases claims row with same | asked
      · exact Or.inl ⟨row, atRow, same.symm⟩
      · exact Or.inr asked
    · exact Or.inl ⟨row', found, rfl⟩
  closed u row' found acked := by
    rw [Db.thread?_updateThread] at found
    split at found
    · rename_i here
      subst here
      obtain ⟨row, atRow, rfl⟩ := Option.map_eq_some_iff.mp found
      rcases closed row acked with before | asked
      · exact Or.inl ⟨row, atRow, before⟩
      · exact Or.inr asked
    · exact Or.inl ⟨row', found, acked⟩
  types u discussionType found := by
    obtain ⟨row', found', typed⟩ : ∃ row', (db.updateThread t set keeps).thread? u = some row' ∧
        row'.discussionType = some discussionType := by
      rw [Db.discussionType?, Db.column, Option.join_eq_some_iff] at found
      exact Option.map_eq_some_iff.mp found
    have of_row : ∀ {row}, db.thread? u = some row → row.discussionType = some discussionType →
        db.discussionType? u = some discussionType := by
      intro row atRow typed
      rw [Db.discussionType?, Db.column, atRow, Option.map_some, typed]
      rfl
    rw [Db.thread?_updateThread] at found'
    split at found'
    · rename_i here
      subst here
      obtain ⟨row, atRow, rfl⟩ := Option.map_eq_some_iff.mp found'
      rcases types row discussionType typed with before | asked
      · exact Or.inl (of_row atRow before)
      · exact Or.inr asked
    · exact Or.inl (of_row found' typed)

theorem setDiscussionType_traced {t : Uuid} {discussionType : String} {r : Request} (isR : R r) (is_for : r.For db t)
    (carries : r.carries = some discussionType) : db.Traced R (setDiscussionType db t discussionType) := by
  refine Db.traced_updateThread (fun row => Or.inl rfl) (fun row acked => Or.inl acked) fun row type typed => ?_
  cases Option.some.inj typed
  exact Or.inr ⟨r, isR, is_for.later (setDiscussionType_later db t discussionType), carries⟩

theorem setClaim_traced {t : Uuid} {p scope : String} (now : DateTime) (isR : R (.postClaim t (some p) scope)) :
    db.Traced R (setClaim db t p scope now).2 := by
  unfold setClaim
  dsimp only
  split
  · split
    · exact .refl R db
    · split <;> exact .refl R db
  · refine Db.traced_updateThread (fun row => ?_) (fun row acked => ?_) fun row type typed => ?_
    · split
      · exact Or.inr ⟨p, scope, now, isR, rfl⟩
      · exact Or.inl rfl
    · split at acked <;> exact Or.inl acked
    · split at typed <;> exact Or.inl typed

theorem addRecipient_traced {t : Uuid} {p : String} {row : ThreadRow} {r : Request}
    (added : addRecipient db t p = some db') (found : db.thread? t = some row) (isR : R r) (opens : r.Opens row)
    (lists : r.Lists p) : db.Traced R db' where
  threads u row' found' := Or.inl ⟨row', (addRecipient_thread? added u) ▸ found'⟩
  messages m member := by
    rw [addRecipient_messages added] at member
    exact Or.inl member
  recipients u q r' found' := by
    rcases (addRecipient_recipient? added u q).mp ⟨r', found'⟩ with old | ⟨rfl, rfl⟩
    · exact Or.inl old
    · exact Or.inr ⟨row, r, (addRecipient_thread? added u).trans found, isR, opens, lists⟩
  marks u q r' found' acked := by
    obtain ⟨_, _, recipients⟩ := Db.insertOrIgnoreRecipient?_eq_some added
    rw [Db.recipient?, recipients, Table.get?_insertOrIgnore] at found'
    split at found'
    · cases old : db.threadRecipients.get? (u, q) with
      | none =>
        rw [old, Option.getD_none] at found'
        cases Option.some.inj found'
        cases acked
      | some r =>
        rw [old, Option.getD_some] at found'
        cases Option.some.inj found'
        exact Or.inl ⟨_, old, acked⟩
    · exact Or.inl ⟨r', found', acked⟩
  claims u row' found' _ := Or.inl ⟨row', (addRecipient_thread? added u) ▸ found', rfl⟩
  closed u row' found' acked := Or.inl ⟨row', (addRecipient_thread? added u) ▸ found', acked⟩
  types u discussionType found' := by
    rw [Db.discussionType?, addRecipient_column added] at found'
    exact Or.inl found'

theorem markRecipientAcked_traced {t : Uuid} {p : String} {body : Option MessageCreateBody} (now : DateTime)
    (isR : R (.postAck t (some p) body)) : db.Traced R (markRecipientAcked db t p now) where
  threads _ row found := Or.inl ⟨row, found⟩
  messages _ member := Or.inl member
  recipients u q r' found := Or.inl ((markRecipientAcked_sameRecipients db u t p now q).mp ⟨r', found⟩)
  marks u q r' found acked := by
    rw [markRecipientAcked, Db.recipient?_updateRecipient] at found
    split at found
    · rename_i here
      obtain ⟨rfl, rfl⟩ := Prod.mk.inj here
      exact Or.inr ⟨body, isR⟩
    · exact Or.inl ⟨r', found, acked⟩
  claims _ row found _ := Or.inl ⟨row, found, rfl⟩
  closed _ row found acked := Or.inl ⟨row, found, acked⟩
  types _ _ found := Or.inl found

/-- What `create_thread` commits. -/
theorem Created.traced {row : ThreadRow} {seed : Message} {r : Request} (created : Created db row seed db') (isR : R r)
    (opens : r.Opens row) (inThread : seed.threadId = row.id) (sender : r.header = some seed.fromParticipant)
    (text : r.text = some (seed.kind, seed.body)) (unclaimed : row.claim.claimedBy = none)
    (opened : row.status = .opened) (untyped : row.discussionType = none) : db.Traced R db' where
  threads t row' found := by
    rw [created.threads] at found
    split at found
    · cases Option.some.inj found
      exact Or.inr ⟨r, isR, opens⟩
    · exact Or.inl ⟨row', found⟩
  messages m member := by
    rw [created.messages, List.mem_append, List.mem_singleton] at member
    rcases member with old | rfl
    · exact Or.inl old
    · exact Or.inr ⟨r, isR, Or.inr ⟨row, (created.threads _).trans (if_pos inThread), opens⟩, sender, text⟩
  recipients t p r' found := by
    rw [Db.recipient?, created.recipients] at found
    exact Or.inl ⟨r', found⟩
  marks t p r' found acked := by
    rw [Db.recipient?, created.recipients] at found
    exact Or.inl ⟨r', found, acked⟩
  claims t row' found claimed := by
    rw [created.threads] at found
    split at found
    · cases Option.some.inj found
      exact absurd unclaimed claimed
    · exact Or.inl ⟨row', found, rfl⟩
  closed t row' found acked := by
    rw [created.threads] at found
    split at found
    · cases Option.some.inj found
      rw [opened] at acked
      cases acked
    · exact Or.inl ⟨row', found, acked⟩
  types t discussionType found := by
    by_cases here : t = row.id
    · rw [Db.discussionType?, Db.column, created.threads, if_pos here, Option.map_some, untyped] at found
      cases found
    · rw [Db.discussionType?, created.column here] at found
      exact Or.inl found

/-- Whatever a request commits, it has asked for. -/
theorem Flight.Commits.traced {f : Flight} (commits : Commits db f db') (backed : f.Backed db) (isR : R f.request) :
    db.Traced R db' := by
  cases commits with
  | nothing => exact .refl R db
  | opens writing created =>
    cases Option.some.inj writing
    exact created.traced isR ⟨rfl, rfl⟩ rfl rfl rfl rfl rfl rfl
  | typesOpening caller payload result discussionType =>
    obtain ⟨given, opened⟩ := backed
    exact setDiscussionType_traced isR (Or.inr opened.opens) given
  | @adds caller payload result recipient rest _ added =>
    obtain ⟨listed, opened⟩ := backed
    obtain ⟨row, found, opens⟩ := opened.opens
    refine addRecipient_traced added found isR opens ?_
    rcases List.mem_cons.mp (listed recipient (List.mem_cons_self ..)) with isPrimary | extra
    · rw [isPrimary]
      exact payload.primary_mem
    · exact Or.inr (List.mem_of_mem_drop extra)
  | posts writing appended =>
    cases Option.some.inj writing
    exact appended.traced isR rfl rfl rfl (fun _ => rfl) (fun _ => rfl) fun _ acked => Or.inl acked
  | types t caller payload result discussionType => exact setDiscussionType_traced isR (Or.inl rfl) backed
  | claims t caller payload now => exact setClaim_traced now isR
  | @inserts t caller payload _ _ _ _ writing appended =>
    cases Option.some.inj writing
    refine appended.traced isR rfl rfl ?_ (fun _ => rfl) (fun _ => rfl) fun _ acked => Or.inl acked
    cases payload <;> rfl
  | @closes t caller payload _ _ _ _ writing appended =>
    cases Option.some.inj writing
    refine appended.traced isR rfl rfl ?_ (fun _ => rfl) (fun _ => rfl) fun _ _ => Or.inr ⟨caller.id, _, isR⟩
    cases payload <;> rfl
  | marks t caller payload recipient d now => exact markRecipientAcked_traced now isR
  | flips t caller payload recipient d =>
    exact Db.traced_updateThread (fun _ => Or.inl rfl) (fun _ _ => Or.inr ⟨caller.id, _, isR⟩)
      fun _ _ typed => Or.inl typed

end Tracing

theorem backed_reachable (es : List (Event Request Input)) :
    ∀ f ∈ (server.run World.init es).pool, f.Backed (server.run World.init es).store := by
  have start : Machine.Annotated (fun _ => True) (fun db f => Flight.Backed db f) World.init :=
    ⟨trivial, fun _ member => nomatch member⟩
  have annotated := server.run_preserves (server.annotated_exec (R := Db.Later) ?_ ?_ step_later ?_) es start
  · exact annotated.2
  · exact fun db request _ => request.receive_fresh.backed db
  · exact fun x db f _ backed => ⟨trivial, (f.step_moves x db).backed backed⟩
  · exact fun db db' f later backed => Flight.Backed.later backed later

/-- Every request that is not answered yet is one of `R`. -/
def World.Live (R : Request → Prop) (w : World) : Prop := ∀ f ∈ w.pool, f.Finished ∨ R f.request

theorem World.Live.exec {R : Request → Prop} {w : World} (live : w.Live R) (e : Event Request Input)
    (sent : ∀ r ∈ arrivals [e], R r) : World.Live R (server.exec w e) := by
  intro f member
  cases e with
  | arrive request =>
    rcases List.mem_append.mp member with old | new
    · exact live f old
    · rw [List.mem_singleton.mp new]
      have same : (server.receive request).request = request := request.receive_request
      rw [same]
      exact Or.inr (sent request (List.mem_singleton_self request))
  | step i x =>
    cases at_i : w.pool[i]? with
    | none =>
      rw [server.exec_idle x at_i] at member
      exact live f member
    | some p =>
      rw [server.exec_step x at_i] at member
      obtain ⟨j, at_j⟩ := List.mem_iff_getElem?.mp member
      rcases Machine.getElem?_pool_set at_i at_j with ⟨_, rfl⟩ | ⟨_, old⟩
      · have same : (server.step x w.store p).2.request = p.request := (p.step_moves x w.store).request
        rcases live p (List.mem_of_getElem? at_i) with finished | isR
        · rw [finished_absorbing x w.store p finished]
          exact Or.inl finished
        · exact Or.inr (same ▸ isR)
      · exact live f (List.mem_of_getElem? old)

/-- The requests that are not answered stay of one kind, and what they have changed is
traced to it. -/
theorem World.Live.run {R : Request → Prop} (es es' : List (Event Request Input))
    (live : World.Live R (server.run World.init es)) (sent : ∀ r ∈ arrivals es', R r) :
    World.Live R (server.run (server.run World.init es) es') ∧
      (server.run World.init es).store.Traced R (server.run (server.run World.init es) es').store := by
  induction es' using List.reverseRecOn with
  | nil => exact ⟨live, .refl R _⟩
  | append_singleton es' e ih =>
    have split : arrivals (es' ++ [e]) = arrivals es' ++ arrivals [e] := List.filterMap_append
    rw [split] at sent
    obtain ⟨live', before⟩ := ih fun r member => sent r (List.mem_append_left _ member)
    rw [server.run_append, server.run_cons, server.run_nil]
    refine ⟨live'.exec e fun r member => sent r (List.mem_append_right _ member), ?_⟩
    have backed := backed_reachable (es ++ es')
    rw [server.run_append] at backed
    generalize server.run (server.run World.init es) es' = w at live' before backed ⊢
    cases e with
    | arrive request => exact before
    | step i x =>
      cases at_i : w.pool[i]? with
      | none =>
        rw [server.exec_idle x at_i]
        exact before
      | some f =>
        have member := List.mem_of_getElem? at_i
        rw [server.exec_step x at_i]
        refine before.trans ?_ (step_later x w.store f)
        rcases live' f member with finished | isR
        · rw [finished_absorbing x w.store f finished]
          exact .refl R _
        · exact (f.step_commits x w.store).traced (backed f member) isR

/-- Nothing comes from nowhere. Whatever the state of the server: if all requests
that are under way or come in are of one kind, then every thread, message,
recipient, mark, claim, closing and type that the store gains has been asked for
by a request of that kind, and is put down to its sender. -/
theorem changes_traced {R : Request → Prop} (es es' : List (Event Request Input))
    (live : World.Live R (server.run World.init es)) (sent : ∀ r ∈ arrivals es', R r) :
    (server.run World.init es).store.Traced R (server.run (server.run World.init es) es').store :=
  (live.run es es' sent).2

/-- The only one to move is the recipient, with a reply. -/
theorem changes_traced_of_reply :
    let es := .arrive (.postThread (some "a") ⟨some "b", [], "s", "hello", none, none⟩) ::
      .step 0 (.draw ⟨reading 0 1, "t", "m0"⟩) :: transactions 0 2
    let es' := .arrive (.postMessage "t" (some "b") ⟨"hi", none⟩) :: transactions 1 2 ++
      .step 1 (.draw ⟨reading 1 0, "m1", ""⟩) :: transactions 1 1
    (server.run World.init es).store.Traced (fun r => r.header = some "b")
      (server.run (server.run World.init es) es').store := by
  intro es es'
  have live : ∀ f ∈ (server.run World.init es).pool, f.Finished ∨ f.request.header = some "b" := by decide +kernel
  have sent : ∀ r ∈ arrivals es', r.header = some "b" := by decide +kernel
  exact changes_traced es es' live sent

end PbChatroom
