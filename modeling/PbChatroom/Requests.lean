import PbChatroom.Server

namespace PbChatroom
open Interleaving

/-- The request as it was sent, which its handler carries along. -/
def Flight.request : Flight → Request
  | .refused request _ => request
  | .postThread caller payload _ => .postThread (some caller.id) payload.toThreadCreateBody
  | .postMessage threadId caller payload _ => .postMessage threadId (some caller.id) payload.toMessageCreateBody
  | .postClaim threadId caller payload _ => .postClaim threadId (some caller.id) payload.scope
  | .postAck threadId caller payload _ =>
    .postAck threadId (some caller.id) (payload.map MessageCreate.toMessageCreateBody)

/-- The participant header of a request. -/
def Request.header : Request → Option String
  | .postThread header _ | .postMessage _ header _ | .postClaim _ header _ | .postAck _ header _ => header

theorem Flight.Moves.request {db db' : Db} {f f' : Flight} (moves : Moves db f db' f') : f'.request = f.request := by
  cases moves <;> rfl

theorem Request.receive_request (request : Request) : request.receive.request = request := by
  unfold receive
  cases request with
  | postThread header body =>
    dsimp only
    split
    · rfl
    · rfl
    · rename_i accepted known
      rw [Flight.request, ThreadCreate.validate_eq accepted, resolveParticipant_header known]
  | postMessage threadId header body =>
    dsimp only
    split
    · rfl
    · rfl
    · rename_i accepted known
      rw [Flight.request, MessageCreate.validate_eq accepted, resolveParticipant_header known]
  | postClaim threadId header scope =>
    dsimp only
    split
    · rfl
    · rfl
    · rename_i accepted known
      rw [Flight.request, ClaimRequest.validate_eq accepted, resolveParticipant_header known]
  | postAck threadId header body =>
    dsimp only
    split
    · rfl
    · rfl
    · rename_i payload caller accepted known
      have same : payload.map MessageCreate.toMessageCreateBody = body := by
        cases body with
        | none =>
          cases accepted
          rfl
        | some b =>
          rw [validateAck] at accepted
          cases validated : MessageCreate.validate b with
          | error => rw [validated] at accepted; cases accepted
          | ok message =>
            rw [validated] at accepted
            cases accepted
            rw [Option.map_some, MessageCreate.validate_eq validated]
      rw [Flight.request, same, resolveParticipant_header known]

theorem validateAck_body (payload : Option MessageCreate) :
    validateAck (payload.map MessageCreate.toMessageCreateBody) = .ok payload := by
  cases payload with
  | none => rfl
  | some payload =>
    rw [Option.map_some, validateAck, MessageCreate.validate_body]
    rfl

/-- A request with a valid header and a valid body gets to its handler. -/
theorem Flight.Fresh.receive {f : Flight} (fresh : f.Fresh) (called : ∀ request e, f ≠ .refused request e) :
    f.request.receive = f := by
  cases fresh with
  | refused request e => exact absurd rfl (called request e)
  | postThread => rw [Flight.request, Request.receive, ThreadCreate.validate_body, resolveParticipant_id]
  | postMessage => rw [Flight.request, Request.receive, MessageCreate.validate_body, resolveParticipant_id]
  | postClaim => rw [Flight.request, Request.receive, ClaimRequest.validate_scope, resolveParticipant_id]
  | postAck => rw [Flight.request, Request.receive, validateAck_body, resolveParticipant_id]

/-- The requests that come in during a run. -/
def arrivals (es : List (Event Request Input)) : List Request :=
  es.filterMap fun
    | .arrive request => some request
    | .step _ _ => none

/-- The server holds the requests that came in, each once and in order. -/
theorem pool_requests (w : World) (es : List (Event Request Input)) :
    (server.run w es).pool.map Flight.request = w.pool.map Flight.request ++ arrivals es := by
  induction es generalizing w with
  | nil => simp [arrivals]
  | cons e es ih =>
    rw [server.run_cons, ih]
    cases e with
    | arrive request =>
      have sent : (server.receive request).request = request := request.receive_request
      simp [Machine.exec, arrivals, sent]
    | step i x =>
      have same : (server.exec w (.step i x)).pool.map Flight.request = w.pool.map Flight.request := by
        cases at_i : w.pool[i]? with
        | none => rw [server.exec_idle x at_i]
        | some f =>
          have kept : (server.step x w.store f).2.request = f.request := (f.step_moves x w.store).request
          obtain ⟨bound, value⟩ := List.getElem?_eq_some_iff.mp at_i
          have inside : i < (w.pool.map Flight.request).length := by simpa using bound
          have there : f.request = (w.pool.map Flight.request)[i] := by simp [value]
          rw [server.exec_step x at_i, List.map_set, kept, there, List.set_getElem_self]
      rw [same]
      rfl

/-- No request leaves the server. -/
theorem request_stays (w : World) (e : Event Request Input) {f : Flight} (member : f ∈ w.pool) :
    ∃ f' ∈ (server.exec w e).pool, f'.request = f.request := by
  have requests := pool_requests w [e]
  rw [server.run_cons, server.run_nil] at requests
  have there : f.request ∈ (server.exec w e).pool.map Flight.request := by
    rw [requests]
    exact List.mem_append_left _ (List.mem_map_of_mem member)
  exact List.mem_map.mp there

end PbChatroom
