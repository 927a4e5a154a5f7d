import PbChatroom.Timestamp

namespace PbChatroom

/-- `DISCUSSION_TYPES` -/
def discussionTypes : List String :=
  ["claim_request", "claim_accepted", "design_question", "debate", "postmortem", "escalation"]

/-- The truth value of an optional string: `None` and `''` are false. -/
def truthy : Option String → Bool
  | none => false
  | some s => s ≠ ""

theorem truthy_iff {o : Option String} : truthy o ↔ ∃ s, o = some s ∧ s ≠ "" := by
  cases o <;> simp [truthy]

/-- Why a request body is refused: a field outside its length bounds, or the
message of one of the model validators. -/
inductive ValidationError where
  | length (field : String)
  | recipientRequired
  | invalidDiscussionType (given : String)
  deriving DecidableEq, Repr

/-- The fields of a POST /api/threads body as sent. `toParticipant` is the
field `to`, and `metadata` is kept as its JSON text. -/
structure ThreadCreateBody where
  toParticipant : Option String
  toParticipants : List String
  subject : String
  body : String
  discussionType : Option String
  metadata : Option String
  deriving DecidableEq, Repr

/-- `ThreadCreate`: a body that the field bounds and both validators accept. -/
structure ThreadCreate extends ThreadCreateBody where
  subjectLength : 1 ≤ subject.length ∧ subject.length ≤ 200
  bodyLength : 1 ≤ body.length ∧ body.length ≤ 10000
  atLeastOneRecipient : truthy toParticipant ∨ toParticipants ≠ []
  validDiscussionType : truthy discussionType → discussionType ∈ discussionTypes.map some

def ThreadCreate.validate (b : ThreadCreateBody) : Except ValidationError ThreadCreate :=
  if subjectLength : 1 ≤ b.subject.length ∧ b.subject.length ≤ 200 then
    if bodyLength : 1 ≤ b.body.length ∧ b.body.length ≤ 10000 then
      if atLeastOneRecipient : truthy b.toParticipant ∨ b.toParticipants ≠ [] then
        if validDiscussionType : truthy b.discussionType → b.discussionType ∈ discussionTypes.map some then
          .ok { b with subjectLength, bodyLength, atLeastOneRecipient, validDiscussionType }
        else .error (.invalidDiscussionType (b.discussionType.getD ""))
      else .error .recipientRequired
    else .error (.length "body")
  else .error (.length "subject")

structure MessageCreateBody where
  body : String
  discussionType : Option String
  deriving DecidableEq, Repr

/-- `MessageCreate` -/
structure MessageCreate extends MessageCreateBody where
  bodyLength : 1 ≤ body.length ∧ body.length ≤ 10000
  validDiscussionType : truthy discussionType → discussionType ∈ discussionTypes.map some

def MessageCreate.validate (b : MessageCreateBody) : Except ValidationError MessageCreate :=
  if bodyLength : 1 ≤ b.body.length ∧ b.body.length ≤ 10000 then
    if validDiscussionType : truthy b.discussionType → b.discussionType ∈ discussionTypes.map some then
      .ok { b with bodyLength, validDiscussionType }
    else .error (.invalidDiscussionType (b.discussionType.getD ""))
  else .error (.length "body")

/-- `ClaimRequest` -/
structure ClaimRequest where
  scope : String
  scopeLength : 1 ≤ scope.length ∧ scope.length ≤ 500

def ClaimRequest.validate (scope : String) : Except ValidationError ClaimRequest :=
  if scopeLength : 1 ≤ scope.length ∧ scope.length ≤ 500 then .ok { scope, scopeLength }
  else .error (.length "scope")

/-- Validation changes no field of a body. -/
theorem ThreadCreate.validate_eq {b : ThreadCreateBody} {payload : ThreadCreate}
    (accepted : ThreadCreate.validate b = .ok payload) : payload.toThreadCreateBody = b := by
  unfold validate at accepted
  repeat' split at accepted
  all_goals cases accepted
  rfl

theorem MessageCreate.validate_eq {b : MessageCreateBody} {payload : MessageCreate}
    (accepted : MessageCreate.validate b = .ok payload) : payload.toMessageCreateBody = b := by
  unfold validate at accepted
  repeat' split at accepted
  all_goals cases accepted
  rfl

/-- A validated body validates again. -/
theorem ThreadCreate.validate_body (payload : ThreadCreate) : validate payload.toThreadCreateBody = .ok payload := by
  unfold validate
  rw [dif_pos payload.subjectLength, dif_pos payload.bodyLength, dif_pos payload.atLeastOneRecipient,
    dif_pos payload.validDiscussionType]

theorem MessageCreate.validate_body (payload : MessageCreate) : validate payload.toMessageCreateBody = .ok payload := by
  unfold validate
  rw [dif_pos payload.bodyLength, dif_pos payload.validDiscussionType]

theorem ClaimRequest.validate_scope (payload : ClaimRequest) : validate payload.scope = .ok payload := by
  unfold validate
  rw [dif_pos payload.scopeLength]

theorem ClaimRequest.validate_eq {scope : String} {payload : ClaimRequest}
    (accepted : ClaimRequest.validate scope = .ok payload) : payload.scope = scope := by
  unfold validate at accepted
  split at accepted
  · cases accepted
    rfl
  · cases accepted

/-- `payload.to or payload.to_participants[0]` -/
def ThreadCreate.primary (p : ThreadCreate) : String :=
  match p.toParticipant with
  | some name => if name ≠ "" then name else p.toParticipants.headD ""
  | none => p.toParticipants.headD ""

/-- `payload.to_participants[1:] if payload.to_participants else []` -/
def ThreadCreate.extras (p : ThreadCreate) : List String := p.toParticipants.drop 1

/-- `[primary] + extras` -/
def ThreadCreate.allRecipients (p : ThreadCreate) : List String := p.primary :: p.extras

/-- The validator makes the index in `to_participants[0]` safe. -/
theorem ThreadCreate.primary_mem (p : ThreadCreate) :
    p.toParticipant = some p.primary ∨ p.primary ∈ p.toParticipants := by
  have member : ¬truthy p.toParticipant → p.toParticipants.headD "" ∈ p.toParticipants := by
    intro falsy
    have nonempty := p.atLeastOneRecipient.resolve_left falsy
    cases listed : p.toParticipants with
    | nil => exact absurd listed nonempty
    | cons first rest => exact List.mem_cons_self ..
  unfold primary
  split
  · rename_i name given
    split
    · exact Or.inl given
    · rename_i empty
      exact Or.inr (member (by simpa [given, truthy] using empty))
  · rename_i absent
    exact Or.inr (member (by simp [absent, truthy]))

end PbChatroom
