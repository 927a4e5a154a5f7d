import PbChatroom.Isolation

namespace PbChatroom
open Interleaving

/-- The route `get_thread`. -/
def getThread (db : Db) (threadId : Uuid) : Except HTTPException ThreadWithMessages :=
  match getThreadWithMessages db threadId with
  | none => .error threadNotFound
  | some result => .ok result

/-- The thread is as a call of `post_thread` has written it, up to its type. -/
def Db.WrittenAs (db : Db) (t : Uuid) (caller : Participant) (payload : ThreadCreate) (discussionType : Option String) :
    Prop :=
  ∃ now msgId, db.thread? t = some ⟨t, payload.subject, caller.id, .opened, nowUtc now, nowUtc now, discussionType,
      ⟨none, none, none⟩⟩ ∧
    db.messagesOf t =
      [⟨msgId, t, caller.id, payload.primary, payload.body, .message, "\x7b\x7d", nowUtc now⟩]

/-- The type of the payload, where the empty one is none. -/
def ThreadCreate.givenType (payload : ThreadCreate) : Option String := payload.discussionType.filter (· ≠ "")

/-- What the thread of a call is, as far as the call has come. -/
def PostThread.Written (caller : Participant) (payload : ThreadCreate) (db : Db) : PostThread → Prop
  | .typing result discussionType =>
    payload.givenType = some discussionType ∧ db.WrittenAs result.id caller payload none
  | .adding result _ _ => db.WrittenAs result.id caller payload payload.givenType
  | .done (.ok result) => db.WrittenAs result.id caller payload payload.givenType
  | _ => True

def Flight.Written (db : Db) : Flight → Prop
  | .postThread caller payload pc => pc.Written caller payload db
  | _ => True

theorem Db.WrittenAs.same {db db' : Db} {t : Uuid} {caller : Participant} {payload : ThreadCreate}
    {discussionType : Option String} (written : db.WrittenAs t caller payload discussionType)
    (thread : db'.thread? t = db.thread? t) (messages : db'.messagesOf t = db.messagesOf t) :
    db'.WrittenAs t caller payload discussionType := by
  obtain ⟨now, msgId, found, single⟩ := written
  exact ⟨now, msgId, thread.trans found, messages.trans single⟩

theorem createThread_written {db db' : Db} {caller : Participant} {payload : ThreadCreate} {d : Draw}
    {result : CreatedThread}
    (created : createThread db d.uuid d.uuid' d.now payload.subject caller.id payload.primary payload.body =
      .ok (result, db')) : db'.WrittenAs result.id caller payload none := by
  obtain ⟨rfl, create⟩ := createThread_ok created
  refine ⟨d.now, d.uuid', ?_, ?_⟩
  · rw [create.threads, if_pos rfl]
  · rw [create.messagesOf, if_pos rfl, Db.messagesOf_eq_nil create.fresh, List.nil_append]

theorem addRecipient_written {db db' : Db} {t : Uuid} {p : String} {caller : Participant} {payload : ThreadCreate}
    {discussionType : Option String} (written : db.WrittenAs t caller payload discussionType)
    (added : addRecipient db t p = some db') : db'.WrittenAs t caller payload discussionType := by
  obtain ⟨threads, messages, _⟩ := Db.insertOrIgnoreRecipient?_eq_some added
  exact written.same (by rw [Db.thread?, Db.thread?, threads]) (Db.messagesOf_congr messages t)

theorem setDiscussionType_written {db : Db} {t : Uuid} {discussionType : String} {caller : Participant}
    {payload : ThreadCreate} (written : db.WrittenAs t caller payload none) :
    (setDiscussionType db t discussionType).WrittenAs t caller payload (some discussionType) := by
  obtain ⟨now, msgId, found, single⟩ := written
  refine ⟨now, msgId, ?_, single⟩
  rw [thread?_setDiscussionType, if_pos rfl, found, Option.map_some]

theorem PostThread.Moves.written {caller : Participant} {payload : ThreadCreate} {db db' : Db} {pc pc' : PostThread}
    (move : PostThread.Moves caller payload db pc db' pc') (written : pc.Written caller payload db) :
    pc'.Written caller payload db' := by
  cases move with
  | idle => exact written
  | draws => trivial
  | createFails => trivial
  | createsTyped _ created given nonempty =>
    refine ⟨?_, createThread_written created⟩
    rw [ThreadCreate.givenType, given, Option.filter_some, if_pos (decide_eq_true nonempty)]
  | creates _ created untyped =>
    have untypedPayload : payload.givenType = none := by
      rw [ThreadCreate.givenType, Option.filter_eq_none_iff]
      intro discussionType given nonempty
      exact untyped (truthy_iff.mpr ⟨discussionType, given, of_decide_eq_true nonempty⟩)
    rw [beginAdding, Written, untypedPayload]
    exact createThread_written created
  | types result discussionType =>
    obtain ⟨given, untyped⟩ := written
    rw [beginAdding, Written, given]
    exact setDiscussionType_written untyped
  | addFails => trivial
  | adds added => exact addRecipient_written written added
  | finishes added => exact addRecipient_written written added

theorem Flight.Moves.written {db db' : Db} {f f' : Flight} (moves : Moves db f db' f') (written : f.Written db) :
    f'.Written db' := by
  cases moves with
  | postThread move => exact move.written written
  | _ => trivial

theorem Flight.Fresh.written {f : Flight} (fresh : f.Fresh) (db : Db) : f.Written db := by
  cases fresh <;> trivial

/-- A call that has created no thread yet, or whose thread is the same. -/
theorem Flight.Written.same {db db' : Db} {f : Flight} (written : f.Written db)
    (same : ∀ t, f.creates = some t → db.SameThread t db') : f.Written db' := by
  cases f with
  | postThread caller payload pc =>
    cases pc with
    | typing result discussionType =>
      have here := same result.id rfl
      exact ⟨written.1, written.2.same here.thread here.messages⟩
    | adding result recipient rest =>
      have here := same result.id rfl
      exact Db.WrittenAs.same written here.thread here.messages
    | done answer =>
      cases answer with
      | error => trivial
      | ok result =>
        have here := same result.id rfl
        exact Db.WrittenAs.same written here.thread here.messages
    | _ => trivial
  | _ => trivial

/-- As long as no request is addressed to the thread that a call has created, it
is as the call has written it. -/
def World.Fresh (w : World) : Prop :=
  ∀ f ∈ w.pool, (∀ t, f.creates = some t → ∀ g ∈ w.pool, g.request.addressed ≠ some t) → f.Written w.store

theorem World.Fresh.exec {w : World} (accounted : w.Accounted) (fresh : w.Fresh) (e : Event Request Input) :
    World.Fresh (server.exec w e) := by
  have before : ∀ t, (∀ g ∈ (server.exec w e).pool, g.request.addressed ≠ some t) →
      ∀ g ∈ w.pool, g.request.addressed ≠ some t := by
    intro t unaddressed g member
    obtain ⟨g', there, same⟩ := request_stays w e member
    rw [← same]
    exact unaddressed g' there
  intro f member unaddressed
  cases e with
  | arrive request =>
    rcases List.mem_append.mp member with old | new
    · exact fresh f old fun t creates => before t (unaddressed t creates)
    · rw [List.mem_singleton.mp new]
      exact request.receive_fresh.written _
  | step i x =>
    cases at_i : w.pool[i]? with
    | none =>
      rw [server.exec_idle x at_i] at member unaddressed ⊢
      exact fresh f member unaddressed
    | some p =>
      rw [server.exec_step x at_i] at member unaddressed before ⊢
      have inPool := List.mem_of_getElem? at_i
      have moves := p.step_moves x w.store
      obtain ⟨j, at_j⟩ := List.mem_iff_getElem?.mp member
      rcases Machine.getElem?_pool_set at_i at_j with ⟨_, rfl⟩ | ⟨other, old⟩
      · refine moves.written (fresh p inPool fun t creates => before t (unaddressed t ?_))
        exact moves.creates_stays (accounted.1.2 p inPool).1 creates
      · have member' := List.mem_of_getElem? old
        refine (fresh f member' fun t creates => before t (unaddressed t creates)).same fun t creates => ?_
        obtain ⟨_, _, row, _, found, _⟩ := (accounted.1.2 f member').1.creates creates
        refine moves.commits.sameThread found fun concerned => ?_
        rcases Flight.concerns_iff.mp concerned with addressed | creates'
        · exact before t (unaddressed t creates) p inPool addressed
        · exact accounted.2 i j p f other at_i old t creates' creates

theorem World.Fresh.reachable (es : List (Event Request Input)) : World.Fresh (server.run World.init es) := by
  refine (server.run_preserves (I := fun w => World.Accounted w ∧ World.Fresh w) ?_ es
    ⟨World.Accounted.init, fun _ member => nomatch member⟩).2
  rintro w e ⟨accounted, fresh⟩
  exact ⟨accounted.exec e, fresh.exec accounted e⟩

/-- The answer of `get_thread` is the payload: an open, unclaimed thread of the
caller, with one message. -/
structure Reads (caller : Participant) (payload : ThreadCreate) (metadata : String)
    (answer : Except HTTPException ThreadWithMessages) : Prop where
  read : ∃ found m, answer = .ok found ∧ found.thread.status = .opened ∧ found.thread.subject = payload.subject ∧
    found.thread.createdBy = caller.id ∧ found.thread.discussionType = payload.givenType ∧
    found.thread.claim = ⟨none, none, none⟩ ∧ found.messages = [m] ∧ m.body = payload.body ∧
    m.fromParticipant = caller.id ∧ m.toParticipant = payload.primary ∧ m.metadata = metadata

theorem Db.WrittenAs.reads {db : Db} {t : Uuid} {caller : Participant} {payload : ThreadCreate}
    (written : db.WrittenAs t caller payload payload.givenType) :
    Reads caller payload "\x7b\x7d" (getThread db t) := by
  obtain ⟨now, msgId, found, single⟩ := written
  rw [getThread, getThreadWithMessages, found, single]
  exact ⟨_, _, rfl, rfl, rfl, rfl, rfl, rfl, rfl, rfl, rfl, rfl, rfl⟩

/-- A thread that has been created, and to which no request has been addressed
since, is read as it was posted, exactly if it was posted without metadata. -/
theorem posted_is_read_iff {es : List (Event Request Input)} {i : Nat} {creator : Participant} {payload : ThreadCreate}
    {created : CreatedThread}
    (answered : (server.run World.init es).pool[i]? = some (.postThread creator payload (.done (.ok created))))
    (unaddressed : ∀ f ∈ (server.run World.init es).pool, f.request.addressed ≠ some created.id) :
    Reads creator payload (payload.metadata.getD "\x7b\x7d") (getThread (server.run World.init es).store created.id) ↔
      payload.metadata.getD "\x7b\x7d" = "\x7b\x7d" := by
  have written := World.Fresh.reachable es _ (List.mem_of_getElem? answered) fun t creates => by
    cases creates
    exact unaddressed
  have reads := Db.WrittenAs.reads written
  constructor
  · rintro ⟨found, m, answer, _, _, _, _, _, single, _, _, _, metadata⟩
    obtain ⟨found', m', answer', _, _, _, _, _, single', _, _, _, metadata'⟩ := reads.read
    cases Except.ok.inj (answer.symm.trans answer')
    cases List.singleton_inj.mp (single.symm.trans single')
    exact metadata.symm.trans metadata'
  · intro empty
    rwa [empty]

/-- The empty type is read as none. -/
theorem posted_is_read_of_empty_type :
    let es := .arrive (.postThread (some "a") ⟨none, ["b", "c"], "s", "hello", some "", none⟩) ::
      .step 0 (.draw ⟨reading 0 1, "t", "m0"⟩) :: transactions 0 3
    Reads ⟨"a", rfl⟩ ⟨⟨none, ["b", "c"], "s", "hello", some "", none⟩, by decide, by decide, by decide, by decide⟩
      "\x7b\x7d" (getThread (server.run World.init es).store "t") := by
  intro es
  have answered : (server.run World.init es).pool[0]? = some (.postThread ⟨"a", rfl⟩
      ⟨⟨none, ["b", "c"], "s", "hello", some "", none⟩, by decide, by decide, by decide, by decide⟩
      (.done (.ok ⟨"t", "s", "a", .opened, nowUtc (reading 0 1), nowUtc (reading 0 1), none, ["b", "c"]⟩))) := rfl
  have unaddressed : ∀ f ∈ (server.run World.init es).pool, f.request.addressed ≠ some "t" := by
    intro f member
    cases List.mem_singleton.mp member
    exact fun addressed => nomatch addressed
  exact (posted_is_read_iff answered unaddressed).mpr rfl

/-- Metadata in the body of the request are lost. -/
theorem metadata_dropped :
    let metadata := "\x7b\"ticket_key\": \"pvcpipesupplies/widgets#42\"\x7d"
    let payload : ThreadCreate :=
      ⟨⟨some "b", [], "s", "hello", none, some metadata⟩, by decide, by decide, by decide, by decide⟩
    let w : World := server.run World.init (.arrive (.postThread (some "a") payload.toThreadCreateBody) ::
      .step 0 (.draw ⟨reading 0 1, "t", "m0"⟩) :: transactions 0 2)
    w.pool[0]? = some (.postThread ⟨"a", rfl⟩ payload
      (.done (.ok ⟨"t", "s", "a", .opened, nowUtc (reading 0 1), nowUtc (reading 0 1), none, ["b"]⟩))) ∧
    (w.store.messagesOf "t").map Message.metadata = ["\x7b\x7d"] ∧
    ¬Reads ⟨"a", rfl⟩ payload metadata (getThread w.store "t") := by
  refine ⟨rfl, by decide, ?_⟩
  rintro ⟨found, m, answer, _, _, _, _, _, single, _, _, _, same⟩
  have read := congrArg (fun answer => answer.toOption.map fun found => found.messages.map Message.metadata) answer
  dsimp only [Except.toOption, Option.map_some] at read
  rw [single, List.map_singleton, same] at read
  exact absurd read (by decide)

end PbChatroom
