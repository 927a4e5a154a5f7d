import PbChatroom.AccessControl
import PbChatroom.ClaimProtocol
import PbChatroom.Mcp.Tools

namespace PbChatroom
open Interleaving

/-- The store has gained one message, of the given thread, sender, body and kind. -/
structure Db.Gained (db : Db) (t : Uuid) (sender body : String) (kind : Kind) (m : Message) (db' : Db) : Prop where
  messages : db'.messages.rows = db.messages.rows ++ [m]
  threadId : m.threadId = t
  fromParticipant : m.fromParticipant = sender
  body : m.body = body
  kind : m.kind = kind

/-- The request is answered as accepted, and what it asks for is in the store. -/
def Flight.CarriedOut (db db' : Db) : Flight → Prop
  | .postMessage t caller payload (.done (.ok m)) => db.Gained t caller.id payload.body .message m db'
  | .postAck t caller payload (.done (.ok m)) => db.Gained t caller.id (PostAck.body payload) .ack m db'
  | .postClaim t caller _ (.done (.ok claim)) =>
    claim.claimedBy = some caller.id ∧ (db'.thread? t).map ThreadRow.claim = some claim
  | _ => False

def Outcome.CarriedOut (db : Db) (o : Outcome) : Prop := ∃ f ∈ o.ran, f.CarriedOut db o.store

section Handlers
variable {db : Db} {t : Uuid} {caller : Participant}

/-- The three ways in which a message or an ack ends, run alone: refused by the
check, without its row because its id is taken, or with its row. -/
inductive Ended {α : Type} (db : Db) (t : Uuid) (caller : String) (id : Uuid) (Good : α → Db → Prop) :
    Db × Except HTTPException α → Prop
  | refused {e} : db.Refuses t caller → e = threadNotFound ∨ e = notAParticipant →
      Ended db t caller id Good (db, .error e)
  | clash : ¬db.Refuses t caller → db.MessageIdTaken id → Ended db t caller id Good (db, .error internalServerError)
  | written {a db'} : ¬db.Refuses t caller → ¬db.MessageIdTaken id → Good a db' →
      Ended db t caller id Good (db', .ok a)

/-- Messages and acks begin alike, and end where the check does not let them in. -/
theorem Db.Sound.ended_of_check {α : Type} (sound : db.Sound) {caller : String} {id : Uuid} {Good : α → Db → Prop}
    {called : Db × Except HTTPException α}
    (absent : getThreadWithMessages db t = none → called = (db, .error threadNotFound))
    (forbidden : ∀ thread e, getThreadWithMessages db t = some thread →
      resolveParticipants thread caller ((listRecipients db t).map RecipientRow.participantId) = .error e →
        called = (db, .error e))
    (admitted : ∀ thread row recipient, getThreadWithMessages db t = some thread → db.thread? t = some row →
      resolveParticipants thread caller ((listRecipients db t).map RecipientRow.participantId) = .ok recipient →
        ¬db.Refuses t caller → Ended db t caller id Good called) : Ended db t caller id Good called := by
  cases read : getThreadWithMessages db t with
  | none =>
    rw [absent read]
    refine .refused (fun thread recipient read' => ?_) (Or.inl rfl)
    rw [read] at read'
    cases read'
  | some thread =>
    cases check : resolveParticipants thread caller ((listRecipients db t).map RecipientRow.participantId) with
    | error e =>
      rw [forbidden thread e read check]
      refine .refused (fun thread' recipient read' accepted => ?_)
        (Or.inr (resolveParticipants_error check (sound.snapshot read).nonempty))
      cases Option.some.inj (read.symm.trans read')
      rw [check] at accepted
      cases accepted
    | ok recipient =>
      obtain ⟨row, found, _⟩ := Option.map_eq_some_iff.mp read
      exact admitted thread row recipient read found check fun refuses => refuses thread recipient read check

theorem Db.Sound.message_ended (sound : db.Sound) (payload : MessageCreate) (d : Draw) :
    Ended db t caller.id d.uuid (db.Gained t caller.id payload.body .message)
      (PostMessage.call t caller payload d db) := by
  unfold PostMessage.call
  refine sound.ended_of_check (fun read => ?_) (fun thread e read check => ?_) ?_
  · rw [read]
  · rw [read]
    dsimp only
    rw [check]
  · intro thread row recipient read found check accepts
    rw [read]
    dsimp only
    rw [check]
    dsimp only
    by_cases taken : db.MessageIdTaken d.uuid
    · rw [appendMessage_of_taken found taken]
      exact .clash accepts taken
    · obtain ⟨m, db', append⟩ : ∃ m db',
          appendMessage db d.uuid t d.now caller.id recipient payload.body = .ok (m, db') :=
        appendMessage_of_free found taken
      obtain ⟨isRow, appended⟩ := appendMessage_ok append
      have gained : db.Gained t caller.id payload.body .message m db' :=
        ⟨appended.messages, isRow ▸ rfl, isRow ▸ rfl, isRow ▸ rfl, isRow ▸ rfl⟩
      rw [append]
      dsimp only
      split
      · exact .written accepts taken gained
      · refine .written accepts taken { gained with messages := ?_ }
        split <;> exact gained.messages

theorem Db.Sound.ack_ended (sound : db.Sound) (payload : Option MessageCreate) (d d' : Draw) :
    Ended db t caller.id d.uuid (db.Gained t caller.id (PostAck.body payload) .ack)
      (PostAck.call t caller payload d d' db) := by
  unfold PostAck.call
  refine sound.ended_of_check (fun read => ?_) (fun thread e read check => ?_) ?_
  · rw [read]
  · rw [read]
    dsimp only
    rw [check]
  · intro thread row recipient read found check accepts
    rw [read]
    dsimp only
    rw [check]
    dsimp only
    by_cases taken : db.MessageIdTaken d.uuid
    · rw [PostAck.insertAck_of_taken found taken, appendAck_of_taken found taken]
      split <;> exact .clash accepts taken
    · split
      · obtain ⟨db', insert⟩ : ∃ db', PostAck.insertAck db t caller.id recipient (PostAck.body payload) d = .ok db' :=
          PostAck.insertAck_of_free found taken
        have appended := PostAck.insertAck_ok insert
        rw [insert]
        refine .written accepts taken ⟨?_, rfl, rfl, rfl, rfl⟩
        split <;> exact appended.messages
      · obtain ⟨m, db', append⟩ : ∃ m db',
            appendAck db d.uuid t d.now caller.id recipient (PostAck.body payload) = .ok (m, db') :=
          appendAck_of_free found taken
        obtain ⟨isRow, appended⟩ := appendAck_ok append
        rw [append]
        exact .written accepts taken ⟨appended.messages, isRow ▸ rfl, isRow ▸ rfl, isRow ▸ rfl, isRow ▸ rfl⟩

end Handlers

/-- The tool returns a dict exactly if the server has carried out the write, and
otherwise an error string, with the store unchanged. -/
structure Outcome.Reports (db : Db) (o : Outcome) : Prop where
  dict_iff : (∃ json, o.result = .dict json) ↔ o.CarriedOut db
  otherwise : (¬∃ json, o.result = .dict json) → (∃ error, o.result = .text error) ∧ o.store = db

section Shapes
variable {db : Db} {o : Outcome}

theorem Outcome.reports_text {error : ErrorText} (text : o.result = .text error) (same : o.store = db)
    (not : ¬o.CarriedOut db) : o.Reports db := by
  have no : ¬∃ json, o.result = .dict json := by
    rintro ⟨json, isDict⟩
    rw [text] at isDict
    cases isDict
  exact ⟨iff_of_false no not, fun _ => ⟨⟨error, text⟩, same⟩⟩

theorem Outcome.reports_dict_iff {json : Json} (isDict : o.result = .dict json) : o.Reports db ↔ o.CarriedOut db :=
  ⟨fun reports => reports.dict_iff.mp ⟨json, isDict⟩,
    fun carriedOut => ⟨iff_of_true ⟨json, isDict⟩ carriedOut, fun no => absurd ⟨json, isDict⟩ no⟩⟩

theorem Outcome.not_reports_raised (raised : o.result = .raised) : ¬o.Reports db := by
  intro reports
  obtain ⟨⟨error, text⟩, _⟩ := reports.otherwise (by
    rintro ⟨json, isDict⟩
    rw [raised] at isDict
    cases isDict)
  rw [raised] at text
  cases text

end Shapes

/-- The request validates, and the row that it adds does not come under an id
that is taken. -/
def Request.Handled (d : Draw) (db : Db) : Request → Prop
  | .postThread .. => False
  | .postMessage t header body => (∃ payload, MessageCreate.validate body = .ok payload) ∧
      (db.Refuses t (header.getD "") ∨ ¬db.MessageIdTaken d.uuid)
  | .postClaim _ _ scope => ∃ payload, ClaimRequest.validate scope = .ok payload
  | .postAck t header body => (∃ payload, validateAck body = .ok payload) ∧
      (db.Refuses t (header.getD "") ∨ ¬db.MessageIdTaken d.uuid)

/-- The tool refuses its arguments itself, or its path leads to an endpoint that
can handle what it posts, or to a 404 or to no server at all. -/
def ToolCall.Handled (c : Client) (d : Draw) (db : Db) (call : ToolCall) : Prop :=
  match call.posting c.baseUrl with
  | .error _ => True
  | .ok posting =>
    match c.deliver posting.path with
    | .endpoint endpoint =>
      ∃ request, endpoint.request posting.json c.participant.id = .ok request ∧ request.Handled d db
    | .notFound | .connectError => True
    | .methodNotAllowed | .redirected | .unsent => False

/-- An ack without a body, of a thread that the caller has a part in. -/
def ToolCall.BareAck (c : Client) (db : Db) (call : ToolCall) : Prop :=
  ∃ t, call = .chatAck t none ∧ db.Party t c.participant.id

/-- The tool reports what the server did, and an ack without a body is carried
out as one that says `Ack`. -/
structure ToolCall.Meets (c : Client) (d d' : Draw) (db : Db) (call : ToolCall) : Prop where
  reports : (call.run c d d' db).Reports db
  bareAck : ∀ t, call = .chatAck t none → db.Party t c.participant.id →
    ∃ m, db.Gained t c.participant.id "Ack" .ack m (call.run c d d' db).store

section Endpoints
variable {db : Db} {posting : Posting} {threadId : Uuid}

theorem Outcome.not_carriedOut_none {store : Db} {result : ToolResult} :
    ¬Outcome.CarriedOut db ⟨store, none, result⟩ := by
  rintro ⟨f, member, _⟩
  cases member

/-- A message or an ack that has reached its handler is reported, unless its row
was not inserted because its id is taken. -/
theorem reports_of_ended (finish : posting.finish = finishPost threadId) (wrap : Except HTTPException Message → Flight)
    (code : Nat) (succeeds : code ≠ 404 ∧ code ≠ 403) {Good : Message → Db → Prop}
    (okReply : ∀ m, (wrap (.ok m)).reply = .response code (some (.message m)))
    (errorReply : ∀ e, (wrap (.error e)).reply = e.reply)
    (accepted : ∀ m db', Good m db' → (wrap (.ok m)).CarriedOut db db')
    (refused : ∀ e db', ¬(wrap (.error e)).CarriedOut db db') {t id : Uuid} {caller : String}
    {called : Db × Except HTTPException Message} (ended : Ended db t caller id Good called) :
    (posting.outcome ⟨called.1, some (wrap called.2), (wrap called.2).reply⟩).Reports db ↔
      db.Refuses t caller ∨ ¬db.MessageIdTaken id := by
  have not : ∀ {e reply}, ¬(posting.outcome ⟨db, some (wrap (.error e)), reply⟩).CarriedOut db := by
    rintro e reply ⟨f, member, carriedOut⟩
    cases member
    exact refused e _ carriedOut
  cases ended with
  | refused refuses isRefusal =>
    refine iff_of_true ?_ (Or.inl refuses)
    rcases isRefusal with rfl | rfl
    · exact Outcome.reports_text (by rw [errorReply, Posting.outcome, finish]; rfl) rfl not
    · exact Outcome.reports_text (by rw [errorReply, Posting.outcome, finish]; rfl) rfl not
  | clash accepts taken =>
    refine iff_of_false (Outcome.not_reports_raised ?_) (not_or.mpr ⟨accepts, not_not_intro taken⟩)
    rw [errorReply, Posting.outcome, finish]
    rfl
  | @written m db' accepts free good =>
    have isDict : (posting.outcome ⟨db', some (wrap (.ok m)), (wrap (.ok m)).reply⟩).result = .dict (.message m) := by
      rw [okReply, Posting.outcome, finish]
      exact (if_neg succeeds.1).trans (if_neg succeeds.2)
    exact iff_of_true ((Outcome.reports_dict_iff isDict).mpr ⟨_, rfl, accepted m db' good⟩) (Or.inr free)

/-- A claim that has reached its handler is reported. -/
theorem reports_of_claim (finish : posting.finish = finishClaim threadId) {t : Uuid} {caller : Participant}
    {payload : ClaimRequest} {d : Draw} :
    let called := PostClaim.call t caller payload d db
    (posting.outcome ⟨called.1, some (.postClaim t caller payload (.done called.2)),
      (Flight.postClaim t caller payload (.done called.2)).reply⟩).Reports db := by
  intro called
  have told := setClaim_told db t caller payload.scope d.now
  cases claimed : (setClaim db t caller.id payload.scope d.now).1 with
  | ok claim =>
    have answered : called.2 = .ok claim := congrArg PostClaim.answer claimed
    rw [claimed] at told
    obtain ⟨own, row, found, same⟩ := told
    rw [answered]
    have isDict : (posting.outcome ⟨called.1, some (.postClaim t caller payload (.done (.ok claim))),
        (Flight.postClaim t caller payload (.done (.ok claim))).reply⟩).result = .dict (.claim claim) := by
      rw [Posting.outcome, finish]
      rfl
    refine (Outcome.reports_dict_iff isDict).mpr ⟨_, rfl, own, ?_⟩
    show (Db.thread? _ _).map ThreadRow.claim = some claim
    rw [show (posting.outcome ⟨called.1, _, _⟩).store = (setClaim db t caller.id payload.scope d.now).2 from rfl, found,
      Option.map_some, same]
  | error e =>
    have unchanged : called.1 = db := setClaim_of_error claimed
    have answered : called.2 = PostClaim.answer (.error e) := congrArg PostClaim.answer claimed
    rw [claimed] at told
    rw [answered, unchanged]
    have not : ∀ {e : HTTPException} {reply : Reply},
        ¬(posting.outcome ⟨db, some (.postClaim t caller payload (.done (.error e))), reply⟩).CarriedOut db := by
      rintro e reply ⟨f, member, carriedOut⟩
      cases member
      exact carriedOut
    cases e with
    | threadNotFound => exact Outcome.reports_text (by rw [Posting.outcome, finish]; rfl) rfl not
    | claimConflict => exact Outcome.reports_text (by rw [Posting.outcome, finish]; rfl) rfl not
    | integrity =>
      rcases told with unknown | ⟨_, _, _, _, _, conflict⟩
      · cases unknown
      · cases conflict

/-- What is answered 422 is not carried out, and still returned as a dict. -/
theorem not_reports_unprocessable {json : Json} {ran : Option Flight}
    (finish : posting.finish 422 (some json) = .dict json) (refused : ∀ f ∈ ran, ∃ request e, f = .refused request e) :
    ¬(posting.outcome ⟨db, ran, .response 422 (some json)⟩).Reports db := by
  rw [Outcome.reports_dict_iff finish]
  rintro ⟨f, member, carriedOut⟩
  obtain ⟨request, e, rfl⟩ := refused f member
  exact carriedOut

end Endpoints

/-- The tools post and end in two ways. -/
theorem ToolCall.posting_cases {call : ToolCall} {baseUrl : String} {posting : Posting}
    (posts : call.posting baseUrl = .ok posting) : ∃ threadId,
      posting.finish = finishPost threadId ∧ posting.json.scope = none ∨
      posting.finish = finishClaim threadId ∧ posting.json.body = none := by
  cases call with
  | chatSend threadId body discussionType =>
    refine ⟨threadId, Or.inl ?_⟩
    rw [ToolCall.posting, PbChatroom.chatSend] at posts
    split at posts
    · cases posts
    · split at posts
      · cases posts
      · dsimp only at posts
        split at posts
        · cases posts
          exact ⟨rfl, rfl⟩
        · split at posts
          · cases posts
          · cases posts
            exact ⟨rfl, rfl⟩
  | chatAck threadId body =>
    refine ⟨threadId, Or.inl ?_⟩
    rw [ToolCall.posting, PbChatroom.chatAck] at posts
    split at posts
    · cases posts
    · cases posts
      exact ⟨rfl, rfl⟩
  | chatClaim threadId scope =>
    refine ⟨threadId, Or.inr ?_⟩
    rw [ToolCall.posting, PbChatroom.chatClaim] at posts
    split at posts
    · cases posts
    · split at posts
      · cases posts
      · cases posts
        exact ⟨rfl, rfl⟩

section Requests
variable {db : Db} {posting : Posting} {threadId t : Uuid} {caller : Participant} {d d' : Draw}

/-- What comes of a posting whose request is run, alone, in the server. -/
def Posting.served (posting : Posting) (d d' : Draw) (db : Db) (request : Request) : Outcome :=
  let served := request.receive.serve d d' db
  posting.outcome ⟨served.1, some served.2, served.2.reply⟩

theorem not_reports_of_invalid {request : Request} {e : ValidationError}
    (finish : ∀ json, posting.finish 422 (some json) = .dict json)
    (refused : request.receive = .refused request (unprocessable e)) :
    ¬(posting.served d d' db request).Reports db := by
  rw [Posting.served, refused, serve_refused]
  refine not_reports_unprocessable (finish _) fun f member => ?_
  cases member
  exact ⟨request, unprocessable e, rfl⟩

theorem reports_message_iff (sound : db.Sound) (finish : posting.finish = finishPost threadId)
    (body : MessageCreateBody) : (posting.served d d' db (.postMessage t (some caller.id) body)).Reports db ↔
      (Request.postMessage t (some caller.id) body).Handled d db := by
  cases validated : MessageCreate.validate body with
  | error e =>
    refine iff_of_false (not_reports_of_invalid (by rw [finish]; exact fun _ => rfl)
      (by rw [Request.receive, validated])) fun handled => ?_
    obtain ⟨⟨payload, accepted⟩, _⟩ := handled
    rw [validated] at accepted
    cases accepted
  | ok payload =>
    have receives : (Request.postMessage t (some caller.id) body).receive = .postMessage t caller payload .start := by
      rw [Request.receive, validated, resolveParticipant_id]
    rw [Posting.served, receives, serve_message, Request.Handled, and_iff_right ⟨payload, validated⟩]
    exact reports_of_ended finish (fun answer => .postMessage t caller payload (.done answer)) 201 (by decide)
      (fun _ => rfl) (fun _ => rfl) (fun _ _ good => good) (fun _ _ => id) (sound.message_ended payload d)

theorem reports_ack_iff (sound : db.Sound) (finish : posting.finish = finishPost threadId)
    (body : Option MessageCreateBody) : (posting.served d d' db (.postAck t (some caller.id) body)).Reports db ↔
      (Request.postAck t (some caller.id) body).Handled d db := by
  cases validated : validateAck body with
  | error e =>
    refine iff_of_false (not_reports_of_invalid (by rw [finish]; exact fun _ => rfl)
      (by rw [Request.receive, validated])) fun handled => ?_
    obtain ⟨⟨payload, accepted⟩, _⟩ := handled
    rw [validated] at accepted
    cases accepted
  | ok payload =>
    have receives : (Request.postAck t (some caller.id) body).receive = .postAck t caller payload .start := by
      rw [Request.receive, validated, resolveParticipant_id]
    rw [Posting.served, receives, serve_ack, Request.Handled, and_iff_right ⟨payload, validated⟩]
    exact reports_of_ended finish (fun answer => .postAck t caller payload (.done answer)) 200 (by decide)
      (fun _ => rfl) (fun _ => rfl) (fun _ _ good => good) (fun _ _ => id) (sound.ack_ended payload d d')

theorem reports_claim_iff (finish : posting.finish = finishClaim threadId) (scope : String) :
    (posting.served d d' db (.postClaim t (some caller.id) scope)).Reports db ↔
      (Request.postClaim t (some caller.id) scope).Handled d db := by
  cases validated : ClaimRequest.validate scope with
  | error e =>
    refine iff_of_false (not_reports_of_invalid (by rw [finish]; exact fun _ => rfl)
      (by rw [Request.receive, validated])) fun handled => ?_
    obtain ⟨payload, accepted⟩ := handled
    rw [validated] at accepted
    cases accepted
  | ok payload =>
    have receives : (Request.postClaim t (some caller.id) scope).receive = .postClaim t caller payload .start := by
      rw [Request.receive, validated, resolveParticipant_id]
    rw [Posting.served, receives, serve_claim]
    exact iff_of_true (reports_of_claim finish) ⟨payload, validated⟩

/-- A request that has come to an endpoint is reported exactly if it is handled. -/
theorem reports_request_iff (sound : db.Sound) {endpoint : Endpoint} {request : Request}
    (kind : posting.finish = finishPost threadId ∧ posting.json.scope = none ∨
      posting.finish = finishClaim threadId ∧ posting.json.body = none)
    (matched : endpoint.request posting.json caller.id = .ok request) :
    (posting.served d d' db request).Reports db ↔ request.Handled d db := by
  unfold Endpoint.request at matched
  split at matched
  · cases matched
  · split at matched
    · cases matched
    · rename_i given
      cases matched
      rcases kind with ⟨finish, _⟩ | ⟨_, absent⟩
      · exact reports_message_iff sound finish _
      · rw [given] at absent
        cases absent
  · split at matched
    · cases matched
    · rename_i given
      cases matched
      rcases kind with ⟨_, absent⟩ | ⟨finish, _⟩
      · rw [given] at absent
        cases absent
      · exact reports_claim_iff finish _
  · split at matched
    · cases matched
    · rename_i given
      cases matched
      rcases kind with ⟨finish, _⟩ | ⟨_, absent⟩
      · exact reports_ack_iff sound finish _
      · rw [given] at absent
        cases absent

end Requests

/-- The tools report what the server did exactly where the call can be handled. -/
theorem ToolCall.reports_iff {db : Db} (sound : db.Sound) (c : Client) (d d' : Draw) (call : ToolCall) :
    (call.run c d d' db).Reports db ↔ call.Handled c d db := by
  unfold ToolCall.run ToolCall.Handled
  cases posts : call.posting c.baseUrl with
  | error text => exact iff_of_true (Outcome.reports_text rfl rfl Outcome.not_carriedOut_none) trivial
  | ok posting =>
    obtain ⟨threadId, kind⟩ := ToolCall.posting_cases posts
    dsimp only
    rw [Client.post]
    cases c.deliver posting.path with
    | endpoint endpoint =>
      dsimp only
      cases matched : endpoint.request posting.json c.participant.id with
      | error field =>
        refine iff_of_false (not_reports_unprocessable ?_ fun f member => by cases member) fun handled => ?_
        · rcases kind with ⟨finish, _⟩ | ⟨finish, _⟩ <;> rw [finish] <;> rfl
        · obtain ⟨request, same, _⟩ := handled
          cases same
      | ok request =>
        refine (reports_request_iff sound kind matched).trans ⟨fun handled => ⟨request, rfl, handled⟩, ?_⟩
        rintro ⟨request', same, handled⟩
        cases same
        exact handled
    | notFound =>
      have text : posting.finish 404 (some (.error (.text "Not Found"))) =
          .text (.text s!"thread {threadId} not found") := by
        rcases kind with ⟨finish, _⟩ | ⟨finish, _⟩ <;> rw [finish] <;> rfl
      exact iff_of_true (Outcome.reports_text text rfl Outcome.not_carriedOut_none) trivial
    | methodNotAllowed =>
      have isDict : posting.finish 405 (some (.error (.text "Method Not Allowed"))) =
          .dict (.error (.text "Method Not Allowed")) := by
        rcases kind with ⟨finish, _⟩ | ⟨finish, _⟩ <;> rw [finish] <;> rfl
      exact iff_of_false (fun reports => Outcome.not_carriedOut_none ((Outcome.reports_dict_iff isDict).mp reports)) id
    | redirected =>
      have raises : posting.finish 307 none = .raised := by
        rcases kind with ⟨finish, _⟩ | ⟨finish, _⟩ <;> rw [finish] <;> rfl
      exact iff_of_false (Outcome.not_reports_raised raises) id
    | connectError => exact iff_of_true (Outcome.reports_text rfl rfl Outcome.not_carriedOut_none) trivial
    | unsent => exact iff_of_false (Outcome.not_reports_raised rfl) id

/-- An ack without a body never changes the store. -/
theorem ToolCall.bareAck_store (c : Client) (d d' : Draw) (db : Db) (t : Uuid) :
    ((ToolCall.chatAck t none).run c d d' db).store = db := by
  rw [ToolCall.run, ToolCall.posting, PbChatroom.chatAck]
  by_cases empty : t = ""
  · rw [if_pos empty]
  · rw [if_neg empty]
    dsimp only
    rw [Posting.outcome, Client.post]
    dsimp only
    split
    · rename_i endpoint _
      cases endpoint <;> rfl
    · rfl
    · rfl
    · rfl
    · rfl
    · rfl

/-- The bodies that a message model accepts. -/
theorem MessageCreate.validate_ok_iff {b : MessageCreateBody} : (∃ payload, validate b = .ok payload) ↔
    (1 ≤ b.body.length ∧ b.body.length ≤ 10000) ∧
      (truthy b.discussionType → b.discussionType ∈ discussionTypes.map some) := by
  unfold validate
  by_cases length : 1 ≤ b.body.length ∧ b.body.length ≤ 10000
  · by_cases type : truthy b.discussionType → b.discussionType ∈ discussionTypes.map some
    · rw [dif_pos length, dif_pos type]
      exact iff_of_true ⟨_, rfl⟩ ⟨length, type⟩
    · rw [dif_pos length, dif_neg type]
      refine iff_of_false ?_ fun both => type both.2
      rintro ⟨_, accepted⟩
      cases accepted
  · rw [dif_neg length]
    refine iff_of_false ?_ fun both => length both.1
    rintro ⟨_, accepted⟩
    cases accepted

theorem validateAck_ok_iff {body : MessageCreateBody} :
    (∃ payload, validateAck (some body) = .ok payload) ↔ ∃ payload, MessageCreate.validate body = .ok payload := by
  rw [validateAck]
  cases MessageCreate.validate body with
  | error =>
    refine iff_of_false ?_ ?_
    · rintro ⟨_, accepted⟩
      cases accepted
    · rintro ⟨_, accepted⟩
      cases accepted
  | ok payload => exact iff_of_true ⟨_, rfl⟩ ⟨_, rfl⟩

section Arguments
variable {c : Client} {d : Draw} {db : Db} {t : Uuid}

theorem ToolCall.handled_iff_of_arrives {call : ToolCall} {posting : Posting} {endpoint : Endpoint} {request : Request}
    (posts : call.posting c.baseUrl = .ok posting) (arrives : c.deliver posting.path = .endpoint endpoint)
    (matched : endpoint.request posting.json c.participant.id = .ok request) :
    call.Handled c d db ↔ request.Handled d db := by
  unfold ToolCall.Handled
  rw [posts]
  dsimp only
  rw [arrives]
  dsimp only
  rw [matched]
  constructor
  · rintro ⟨request', same, handled⟩
    cases same
    exact handled
  · exact fun handled => ⟨request, rfl, handled⟩

/-- A message that `chat_send` does not refuse itself can be handled unless it is
too long: every type that the tool allows the server accepts. -/
theorem chatSend_handled_iff {body : String} {discussionType : Option String} (named : t ≠ "") (nonempty : body ≠ "")
    (allowed : ∀ given ∈ discussionType, given ∈ allowedDiscussionTypes)
    (arrives : c.deliver s!"/api/threads/{t}/messages" = .endpoint (.messages t)) :
    (ToolCall.chatSend t body discussionType).Handled c d db ↔
      body.length ≤ 10000 ∧ (db.Refuses t c.participant.id ∨ ¬db.MessageIdTaken d.uuid) := by
  obtain ⟨unreachable, posts⟩ : ∃ unreachable, (ToolCall.chatSend t body discussionType).posting c.baseUrl =
      .ok ⟨s!"/api/threads/{t}/messages", ⟨some body, none, discussionType⟩, unreachable, finishPost t⟩ := by
    rw [ToolCall.posting, chatSend, if_neg named, if_neg nonempty]
    cases discussionType with
    | none => exact ⟨_, rfl⟩
    | some given => exact ⟨_, if_neg (not_not_intro (allowed given rfl))⟩
  have validated : (∃ payload, MessageCreate.validate ⟨body, discussionType⟩ = .ok payload) ↔ body.length ≤ 10000 := by
    have positive : 1 ≤ body.length :=
      Nat.one_le_iff_ne_zero.mpr fun zero => nonempty (String.length_eq_zero_iff.mp zero)
    rw [MessageCreate.validate_ok_iff, and_iff_left, and_iff_right positive]
    intro truthy
    obtain ⟨given, rfl, _⟩ := truthy_iff.mp truthy
    exact List.mem_map_of_mem (allowed given rfl)
  rw [ToolCall.handled_iff_of_arrives posts arrives rfl, Request.Handled, validated, Option.getD_some]

/-- The same for `chat_ack` with a body, which may be empty there. -/
theorem chatAck_handled_iff {body : String} (named : t ≠ "")
    (arrives : c.deliver s!"/api/threads/{t}/ack" = .endpoint (.ack t)) :
    (ToolCall.chatAck t (some body)).Handled c d db ↔ (1 ≤ body.length ∧ body.length ≤ 10000) ∧
      (db.Refuses t c.participant.id ∨ ¬db.MessageIdTaken d.uuid) := by
  obtain ⟨unreachable, posts⟩ : ∃ unreachable, (ToolCall.chatAck t (some body)).posting c.baseUrl =
      .ok ⟨s!"/api/threads/{t}/ack", ⟨some body, none, none⟩, unreachable, finishPost t⟩ := ⟨_, if_neg named⟩
  have validated : (∃ payload, validateAck (some ⟨body, none⟩) = .ok payload) ↔
      1 ≤ body.length ∧ body.length ≤ 10000 := by
    rw [validateAck_ok_iff, MessageCreate.validate_ok_iff]
    exact and_iff_left fun no => absurd no Bool.false_ne_true
  rw [ToolCall.handled_iff_of_arrives posts arrives rfl, Request.Handled, validated, Option.getD_some]

/-- A claim can be handled whether or not the thread is there and free. -/
theorem chatClaim_handled_iff {scope : String} (named : t ≠ "") (nonempty : scope ≠ "")
    (arrives : c.deliver s!"/api/threads/{t}/claim" = .endpoint (.claim t)) :
    (ToolCall.chatClaim t scope).Handled c d db ↔ scope.length ≤ 500 := by
  obtain ⟨unreachable, posts⟩ : ∃ unreachable, (ToolCall.chatClaim t scope).posting c.baseUrl =
      .ok ⟨s!"/api/threads/{t}/claim", ⟨none, some scope, none⟩, unreachable, finishClaim t⟩ :=
    ⟨_, (if_neg named).trans (if_neg nonempty)⟩
  have positive : 1 ≤ scope.length :=
    Nat.one_le_iff_ne_zero.mpr fun zero => nonempty (String.length_eq_zero_iff.mp zero)
  rw [ToolCall.handled_iff_of_arrives posts arrives rfl, Request.Handled, ClaimRequest.validate]
  by_cases length : scope.length ≤ 500
  · rw [dif_pos ⟨positive, length⟩]
    exact iff_of_true ⟨_, rfl⟩ length
  · rw [dif_neg fun both => length both.2]
    refine iff_of_false ?_ length
    rintro ⟨_, accepted⟩
    cases accepted

end Arguments

/-- The writing tools of the MCP server report what the server did, and an ack
without a body is carried out, exactly for the calls that the tool refuses
itself, or that come to an endpoint which can handle them, to a 404 or to no
server; the ack without a body of a thread of one's own is never among them. -/
theorem tools_report_iff (es : List (Event Request Input)) (c : Client) (d d' : Draw) (call : ToolCall) :
    let db := (server.run World.init es).store
    call.Meets c d d' db ↔ call.Handled c d db ∧ ¬call.BareAck c db := by
  intro db
  have sound : db.Sound := (World.Sound.reachable es).1
  rw [← ToolCall.reports_iff sound c d d' call]
  constructor
  · rintro ⟨reports, bareAck⟩
    refine ⟨reports, ?_⟩
    rintro ⟨t, rfl, party⟩
    obtain ⟨m, gained⟩ := bareAck t rfl party
    have more := gained.messages
    rw [ToolCall.bareAck_store] at more
    exact List.cons_ne_nil _ _ (List.self_eq_append_right.mp more)
  · rintro ⟨reports, other⟩
    exact ⟨reports, fun t same party => absurd ⟨t, same, party⟩ other⟩

/-- A recipient acks without a body: the server refuses the empty JSON object and
acks nothing, and the tool returns the refusal as a dict. -/
theorem bare_ack_refused :
    let es := .arrive (.postThread (some "a") ⟨some "b", [], "s", "hello", none, none⟩) ::
      .step 0 (.draw ⟨reading 0 1, "t", "m0"⟩) :: transactions 0 2
    let db := (server.run World.init es).store
    let c : Client := ⟨"http://127.0.0.1:7476/", ⟨"b", rfl⟩,
      fun path => if path = "/api/threads/t/ack" then .endpoint (.ack "t") else .notFound⟩
    let call := ToolCall.chatAck "t" none
    let d : Draw := ⟨reading 1 0, "m1", ""⟩
    (call.run c d d db).result = .dict (.missing "body") ∧ (call.run c d d db).store = db ∧ ¬call.Meets c d d db := by
  intro es db c call d
  have isDict : (call.run c d d db).result = .dict (.missing "body") := rfl
  refine ⟨isDict, rfl, fun meets => ?_⟩
  exact Outcome.not_carriedOut_none (meets.reports.dict_iff.mp ⟨_, isDict⟩)

end PbChatroom
