import PbChatroom.Api.PostThread

namespace PbChatroom

/-- Where a call of `post_claim` stands: `set_claim` reads the clock first. -/
inductive PostClaim where
  | start
  | claiming (now : DateTime)
  | done (answer : Except HTTPException Claim)

namespace PostClaim

/-- How the handler answers what `set_claim` returns or raises. -/
def answer : Except StoreError Claim → Except HTTPException Claim
  | .ok claim => .ok claim
  | .error (.claimConflict claimedBy) => .error ⟨409, .claimedBy claimedBy⟩
  | .error (.threadNotFound _) => .error threadNotFound
  | .error .integrity => .error internalServerError

def step (threadId : Uuid) (caller : Participant) (payload : ClaimRequest) (x : Input) (db : Db) :
    PostClaim → Db × PostClaim
  | .start =>
    match x with
    | .transaction => (db, .start)
    | .draw d => (db, .claiming d.now)
  | .claiming now =>
    match x with
    | .draw _ => (db, .claiming now)
    | .transaction =>
      ((setClaim db threadId caller.id payload.scope now).2,
        .done (answer (setClaim db threadId caller.id payload.scope now).1))
  | .done a => (db, .done a)

/-- Everything one step of a call can do. -/
inductive Moves (threadId : Uuid) (caller : Participant) (payload : ClaimRequest) (db : Db) :
    PostClaim → Db → PostClaim → Prop
  | idle pc : Moves threadId caller payload db pc db pc
  | draws now : Moves threadId caller payload db .start db (.claiming now)
  | claims now : Moves threadId caller payload db (.claiming now) (setClaim db threadId caller.id payload.scope now).2
      (.done (answer (setClaim db threadId caller.id payload.scope now).1))

theorem step_moves (threadId : Uuid) (caller : Participant) (payload : ClaimRequest) (x : Input) (db : Db)
    (pc : PostClaim) : Moves threadId caller payload db pc (step threadId caller payload x db pc).1
      (step threadId caller payload x db pc).2 := by
  cases pc with
  | start =>
    cases x with
    | transaction => exact .idle _
    | draw d => exact .draws d.now
  | claiming now =>
    cases x with
    | draw => exact .idle _
    | transaction => exact .claims now
  | done => exact .idle _

end PostClaim

end PbChatroom
