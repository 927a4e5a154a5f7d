import PbChatroom.Isolation
import PbChatroom.Sequential

namespace PbChatroom
open Interleaving

/-- The JSON that a tool posts, by its keys. -/
structure JsonBody where
  body : Option String
  scope : Option String
  discussionType : Option String
  deriving DecidableEq, Repr

/-- The JSON of a response, which is always a dict: what a handler returns, the
detail of an error, or the report on a required field that is not there. -/
inductive Json where
  | thread (result : CreatedThread)
  | message (result : Message)
  | claim (result : Claim)
  | error (detail : Detail)
  | missing (field : String)
  deriving DecidableEq, Repr

/-- The POST endpoints of the server. -/
inductive Endpoint where
  | threads
  | messages (threadId : Uuid)
  | claim (threadId : Uuid)
  | ack (threadId : Uuid)
  deriving DecidableEq, Repr

/-- Where a path leads: to an endpoint, to an answer of the router, or to an
exception of the client. -/
inductive Delivery where
  | endpoint (endpoint : Endpoint)
  | notFound
  | methodNotAllowed
  | redirected
  | connectError
  | unsent
  deriving DecidableEq, Repr

/-- The client of `build_http_client`. `deliver` is what httpx, under the
header of the participant, and the router of the server make of a path. -/
structure Client where
  baseUrl : String
  participant : Participant
  deliver : String → Delivery

/-- What `client.post` returns or raises; a body that is no JSON is `none`. -/
inductive Reply where
  | response (statusCode : Nat) (json : Option Json)
  | connectError
  | raised
  deriving DecidableEq, Repr

/-- FastAPI matches the JSON with the model of the endpoint before it validates
it; the error is the first required field that is not there. The payload of an
ack is optional, and not given only where no JSON is sent at all. -/
def Endpoint.request (json : JsonBody) (header : String) : Endpoint → Except String Request
  | .threads => .error "subject"
  | .messages t =>
    match json.body with
    | none => .error "body"
    | some body => .ok (.postMessage t (some header) ⟨body, json.discussionType⟩)
  | .claim t =>
    match json.scope with
    | none => .error "scope"
    | some scope => .ok (.postClaim t (some header) scope)
  | .ack t =>
    match json.body with
    | none => .error "body"
    | some body => .ok (.postAck t (some header) (some ⟨body, json.discussionType⟩))

/-- The response to an error; what the server answers to an exception it has no
handler for is plain text. -/
def HTTPException.reply (e : HTTPException) : Reply :=
  .response e.statusCode (if e = internalServerError then none else some (.error e.detail))

/-- The response to a request that has been answered. -/
def Flight.reply : Flight → Reply
  | .refused _ e => e.reply
  | .postThread _ _ (.done (.ok result)) => .response 201 (some (.thread result))
  | .postMessage _ _ _ (.done (.ok result)) => .response 201 (some (.message result))
  | .postClaim _ _ _ (.done (.ok result)) => .response 200 (some (.claim result))
  | .postAck _ _ _ (.done (.ok result)) => .response 200 (some (.message result))
  | .postThread _ _ (.done (.error e)) | .postMessage _ _ _ (.done (.error e)) | .postClaim _ _ _ (.done (.error e))
  | .postAck _ _ _ (.done (.error e)) => e.reply
  | _ => .raised

/-- What comes of a POST: the store after it, the request that the server has
run, if it has run one, and what the client gets. -/
structure Exchange where
  store : Db
  ran : Option Flight
  reply : Reply

def Client.post (c : Client) (d d' : Draw) (db : Db) (path : String) (json : JsonBody) : Exchange :=
  match c.deliver path with
  | .endpoint endpoint =>
    match endpoint.request json c.participant.id with
    | .error field => ⟨db, none, .response 422 (some (.missing field))⟩
    | .ok request =>
      let served := request.receive.serve d d' db
      ⟨served.1, some served.2, served.2.reply⟩
  | .notFound => ⟨db, none, .response 404 (some (.error (.text "Not Found")))⟩
  | .methodNotAllowed => ⟨db, none, .response 405 (some (.error (.text "Method Not Allowed")))⟩
  | .redirected => ⟨db, none, .response 307 none⟩
  | .connectError => ⟨db, none, .connectError⟩
  | .unsent => ⟨db, none, .raised⟩

/-- The error strings of the tools; the value in the message of
`invalidDiscussionType` is quoted by `repr`. -/
inductive ErrorText where
  | text (message : String)
  | invalidDiscussionType (given : String)
  deriving DecidableEq, Repr

/-- What a tool returns, if it does not raise. -/
inductive ToolResult where
  | dict (json : Json)
  | text (error : ErrorText)
  | raised
  deriving DecidableEq, Repr

/-- A tool at its `await client.post`: what it posts, its text for a server that
it does not reach, and what it makes of a response. -/
structure Posting where
  path : String
  json : JsonBody
  unreachable : String
  finish : Nat → Option Json → ToolResult

/-- `return response.json()` -/
def returnJson : Option Json → ToolResult
  | some json => .dict json
  | none => .raised

/-- How `chat_send` and `chat_ack` end. -/
def finishPost (threadId : Uuid) (statusCode : Nat) (json : Option Json) : ToolResult :=
  if statusCode = 404 then .text (.text s!"thread {threadId} not found")
  else if statusCode = 403 then .text (.text s!"not a participant of thread {threadId}")
  else returnJson json

/-- `ALLOWED_DISCUSSION_TYPES` -/
def allowedDiscussionTypes : List String :=
  ["claim_request", "claim_accepted", "design_question", "debate", "postmortem", "escalation"]

/-- `chat_send` -/
def chatSend (baseUrl : String) (threadId : Uuid) (body : String) (discussionType : Option String) :
    Except ErrorText Posting :=
  if threadId = "" then
    .error (.text "chat_send requires a thread_id — root-thread creation is parent-only via /chat threads-open")
  else if body = "" then .error (.text "body is required")
  else
    let posting : Posting :=
      { path := s!"/api/threads/{threadId}/messages"
        json := ⟨some body, none, discussionType⟩
        unreachable := s!"server unreachable at {baseUrl} — is pb-chatroom-server running?"
        finish := finishPost threadId }
    match discussionType with
    | none => .ok posting
    | some given => if given ∉ allowedDiscussionTypes then .error (.invalidDiscussionType given) else .ok posting

/-- `text.rstrip('/')` -/
def rstripSlash (text : String) : String := String.ofList (text.toList.reverse.dropWhile (· = '/')).reverse

/-- `chat_ack`: without a body it posts the empty JSON object. -/
def chatAck (baseUrl : String) (threadId : Uuid) (body : Option String) : Except ErrorText Posting :=
  let base := rstripSlash baseUrl
  if threadId = "" then .error (.text "chat_ack requires a thread_id")
  else .ok
    { path := s!"/api/threads/{threadId}/ack"
      json := ⟨body, none, none⟩
      unreachable := s!"server unreachable at {base} — is pb-chatroom-server running?"
      finish := finishPost threadId }

/-- The text for a 409, which goes two `get`s deep into the JSON. -/
def claimConflict : Option Json → ToolResult
  | none => .raised
  | some (.error (.claimedBy claimedBy)) =>
    let existing := claimedBy.getD "None"
    .text (.text s!"claim conflict: thread already claimed by {existing}")
  | some (.error (.text _)) | some (.error (.invalidBody _)) | some (.missing _) => .raised
  | some (.thread _) | some (.message _) | some (.claim _) =>
    .text (.text "claim conflict: thread already claimed by unknown")

/-- How `chat_claim` ends. -/
def finishClaim (threadId : Uuid) (statusCode : Nat) (json : Option Json) : ToolResult :=
  if statusCode = 404 then .text (.text s!"thread {threadId} not found")
  else if statusCode = 409 then claimConflict json
  else returnJson json

/-- `chat_claim` -/
def chatClaim (baseUrl : String) (threadId : Uuid) (scope : String) : Except ErrorText Posting :=
  if threadId = "" then .error (.text "chat_claim requires a thread_id")
  else if scope = "" then .error (.text "scope is required")
  else .ok
    { path := s!"/api/threads/{threadId}/claim"
      json := ⟨none, some scope, none⟩
      unreachable := s!"server unreachable at {baseUrl}"
      finish := finishClaim threadId }

/-- A call of one of the three writing tools, with its arguments. -/
inductive ToolCall where
  | chatSend (threadId : Uuid) (body : String) (discussionType : Option String)
  | chatAck (threadId : Uuid) (body : Option String)
  | chatClaim (threadId : Uuid) (scope : String)
  deriving DecidableEq, Repr

def ToolCall.posting (baseUrl : String) : ToolCall → Except ErrorText Posting
  | .chatSend threadId body discussionType => PbChatroom.chatSend baseUrl threadId body discussionType
  | .chatAck threadId body => PbChatroom.chatAck baseUrl threadId body
  | .chatClaim threadId scope => PbChatroom.chatClaim baseUrl threadId scope

/-- What comes of a call: the store after it, the request that the server has
run, and what the tool returns. -/
structure Outcome where
  store : Db
  ran : Option Flight
  result : ToolResult

/-- The rest of a tool, once its POST is back. -/
def Posting.outcome (posting : Posting) (exchange : Exchange) : Outcome where
  store := exchange.store
  ran := exchange.ran
  result :=
    match exchange.reply with
    | .connectError => .text (.text posting.unreachable)
    | .raised => .raised
    | .response statusCode json => posting.finish statusCode json

def ToolCall.run (c : Client) (d d' : Draw) (db : Db) (call : ToolCall) : Outcome :=
  match call.posting c.baseUrl with
  | .error text => ⟨db, none, .text text⟩
  | .ok posting => posting.outcome (c.post d d' db posting.path posting.json)

end PbChatroom
