import PbChatroom.Api.PostAck
import PbChatroom.Api.PostClaim
import PbChatroom.Lib.Interleaving

namespace PbChatroom
open Interleaving

/-- The write requests of the REST API, as sent: path, header and body. -/
inductive Request where
  | postThread (header : Option String) (body : ThreadCreateBody)
  | postMessage (threadId : Uuid) (header : Option String) (body : MessageCreateBody)
  | postClaim (threadId : Uuid) (header : Option String) (scope : String)
  | postAck (threadId : Uuid) (header : Option String) (body : Option MessageCreateBody)
  deriving DecidableEq, Repr

/-- A request in the server: refused before its first transaction, or a call
of its handler and the place that call has reached. -/
inductive Flight where
  | refused (request : Request) (answer : HTTPException)
  | postThread (caller : Participant) (payload : ThreadCreate) (pc : PostThread)
  | postMessage (threadId : Uuid) (caller : Participant) (payload : MessageCreate) (pc : PostMessage)
  | postClaim (threadId : Uuid) (caller : Participant) (payload : ClaimRequest) (pc : PostClaim)
  | postAck (threadId : Uuid) (caller : Participant) (payload : Option MessageCreate) (pc : PostAck)

/-- The optional body of an ack is validated only when it is there. -/
def validateAck : Option MessageCreateBody → Except ValidationError (Option MessageCreate)
  | none => .ok none
  | some body => (MessageCreate.validate body).map some

/-- FastAPI validates the body before the handler looks at the header. -/
def Request.receive (request : Request) : Flight :=
  match request with
  | .postThread header body =>
    match ThreadCreate.validate body, resolveParticipant header with
    | .error e, _ => .refused request (unprocessable e)
    | .ok _, .error e => .refused request e
    | .ok payload, .ok caller => .postThread caller payload .start
  | .postMessage threadId header body =>
    match MessageCreate.validate body, resolveParticipant header with
    | .error e, _ => .refused request (unprocessable e)
    | .ok _, .error e => .refused request e
    | .ok payload, .ok caller => .postMessage threadId caller payload .start
  | .postClaim threadId header scope =>
    match ClaimRequest.validate scope, resolveParticipant header with
    | .error e, _ => .refused request (unprocessable e)
    | .ok _, .error e => .refused request e
    | .ok payload, .ok caller => .postClaim threadId caller payload .start
  | .postAck threadId header body =>
    match validateAck body, resolveParticipant header with
    | .error e, _ => .refused request (unprocessable e)
    | .ok _, .error e => .refused request e
    | .ok payload, .ok caller => .postAck threadId caller payload .start

namespace Flight

def step (x : Input) (db : Db) : Flight → Db × Flight
  | .refused request answer => (db, .refused request answer)
  | .postThread caller payload pc =>
    ((PostThread.step caller payload x db pc).1, .postThread caller payload (PostThread.step caller payload x db pc).2)
  | .postMessage threadId caller payload pc =>
    ((PostMessage.step threadId caller payload x db pc).1,
      .postMessage threadId caller payload (PostMessage.step threadId caller payload x db pc).2)
  | .postClaim threadId caller payload pc =>
    ((PostClaim.step threadId caller payload x db pc).1,
      .postClaim threadId caller payload (PostClaim.step threadId caller payload x db pc).2)
  | .postAck threadId caller payload pc =>
    ((PostAck.step threadId caller payload x db pc).1,
      .postAck threadId caller payload (PostAck.step threadId caller payload x db pc).2)

/-- The moves of the four handlers as moves of a request. -/
inductive Moves (db : Db) : Flight → Db → Flight → Prop
  | refused request answer : Moves db (.refused request answer) db (.refused request answer)
  | postThread {caller payload pc db' pc'} : PostThread.Moves caller payload db pc db' pc' →
      Moves db (.postThread caller payload pc) db' (.postThread caller payload pc')
  | postMessage {threadId caller payload pc db' pc'} : PostMessage.Moves threadId caller payload db pc db' pc' →
      Moves db (.postMessage threadId caller payload pc) db' (.postMessage threadId caller payload pc')
  | postClaim {threadId caller payload pc db' pc'} : PostClaim.Moves threadId caller payload db pc db' pc' →
      Moves db (.postClaim threadId caller payload pc) db' (.postClaim threadId caller payload pc')
  | postAck {threadId caller payload pc db' pc'} : PostAck.Moves threadId caller payload db pc db' pc' →
      Moves db (.postAck threadId caller payload pc) db' (.postAck threadId caller payload pc')

theorem step_moves (x : Input) (db : Db) (f : Flight) : Moves db f (step x db f).1 (step x db f).2 := by
  cases f with
  | refused => exact .refused ..
  | postThread caller payload pc => exact .postThread (PostThread.step_moves ..)
  | postMessage threadId caller payload pc => exact .postMessage (PostMessage.step_moves ..)
  | postClaim threadId caller payload pc => exact .postClaim (PostClaim.step_moves ..)
  | postAck threadId caller payload pc => exact .postAck (PostAck.step_moves ..)

/-- A request that has just come in has not reached its first transaction. -/
inductive Fresh : Flight → Prop
  | refused request answer : Fresh (.refused request answer)
  | postThread caller payload : Fresh (.postThread caller payload .start)
  | postMessage threadId caller payload : Fresh (.postMessage threadId caller payload .start)
  | postClaim threadId caller payload : Fresh (.postClaim threadId caller payload .start)
  | postAck threadId caller payload : Fresh (.postAck threadId caller payload .start)

end Flight

theorem Request.receive_fresh (request : Request) : request.receive.Fresh := by
  unfold receive
  cases request <;> dsimp only <;> split <;> constructor

/-- The server: every request of the API over the one database file. -/
def server : Machine Db Request Flight Input where
  receive := Request.receive
  step := Flight.step

abbrev World := Config Db Flight

/-- The empty database after `init_schema`, and no request yet. -/
def World.init : World := ⟨.empty, []⟩

section Scenario

/-- Clock readings of one morning, for runs on concrete inputs. -/
def reading (second microsecond : Nat) : DateTime :=
  ⟨2026, 6, 26, 8, 0, Fin.ofNat 60 second, Fin.ofNat 1000000 microsecond⟩

/-- The next `n` transactions of the request at `i`. -/
def transactions (i n : Nat) : List (Event Request Input) := List.replicate n (.step i .transaction)

end Scenario

end PbChatroom
