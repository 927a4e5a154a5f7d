import PbChatroom.Identity
import PbChatroom.Store.Threads

namespace PbChatroom

/-- The detail of an error response: a text, the dict of a claim conflict, or
the report on a body that does not validate. -/
inductive Detail where
  | text (detail : String)
  | claimedBy (participant : Option String)
  | invalidBody (error : ValidationError)
  deriving DecidableEq, Repr

structure HTTPException where
  statusCode : Nat
  detail : Detail
  deriving DecidableEq, Repr

def threadNotFound : HTTPException := ⟨404, .text "thread not found"⟩

def notAParticipant : HTTPException := ⟨403, .text "caller is not a participant of this thread"⟩

/-- What the server answers when a handler raises anything else. -/
def internalServerError : HTTPException := ⟨500, .text "Internal Server Error"⟩

/-- What FastAPI answers, without running the handler, when the body does not
validate. -/
def unprocessable (error : ValidationError) : HTTPException := ⟨422, .invalidBody error⟩

/-- `_resolve_participant` -/
def resolveParticipant (header : Option String) : Except HTTPException Participant :=
  match header with
  | none => .error ⟨400, .text "X-PB-Chatroom-Participant header required"⟩
  | some id =>
    if id = "" then .error ⟨400, .text "X-PB-Chatroom-Participant header required"⟩
    else match accepted : validate id with
      | .error _ => .error ⟨400, .text "invalid participant id"⟩
      | .ok id' => .ok ⟨id', validate_eq accepted ▸ accepted⟩

/-- `_resolve_participants`. The subscript `thread['messages'][0]` is the only
way in which it can fail other than by the 403. -/
def resolveParticipants (thread : ThreadWithMessages) (caller : String) (extraRecipients : List String) :
    Except HTTPException String :=
  match thread.messages with
  | [] => .error internalServerError
  | seed :: _ =>
    if caller = thread.thread.createdBy then .ok seed.toParticipant
    else if caller = seed.toParticipant then .ok thread.thread.createdBy
    else if extraRecipients ≠ [] ∧ caller ∈ extraRecipients then .ok thread.thread.createdBy
    else .error notAParticipant

theorem resolveParticipant_header {header : Option String} {p : Participant}
    (accepted : resolveParticipant header = .ok p) : header = some p.id := by
  unfold resolveParticipant at accepted
  split at accepted
  · cases accepted
  · split at accepted
    · cases accepted
    · split at accepted
      · cases accepted
      · rename_i valid
        cases accepted
        exact congrArg some (validate_eq valid).symm

/-- A valid id passes as it is. -/
theorem resolveParticipant_id (p : Participant) : resolveParticipant (some p.id) = .ok p := by
  unfold resolveParticipant
  dsimp only
  rw [if_neg p.id_ne_empty]
  split
  · rename_i refused
    rw [p.valid] at refused
    cases refused
  · rename_i accepted
    exact congrArg Except.ok (Participant.ext (validate_eq accepted))

/-- Every form in which `_resolve_participants` accepts a caller, with the
recipient of the reply. -/
theorem resolveParticipants_ok_iff {thread : ThreadWithMessages} {caller : String} {extra : List String}
    {recipient : String} : resolveParticipants thread caller extra = .ok recipient ↔
      ∃ seed rest, thread.messages = seed :: rest ∧
        (caller = thread.thread.createdBy ∧ recipient = seed.toParticipant ∨
          caller ≠ thread.thread.createdBy ∧ (caller = seed.toParticipant ∨ caller ∈ extra) ∧
            recipient = thread.thread.createdBy) := by
  unfold resolveParticipants
  cases thread.messages with
  | nil => simp
  | cons seed rest =>
    dsimp only
    constructor
    · intro accepted
      refine ⟨seed, rest, rfl, ?_⟩
      split at accepted
      · exact Or.inl ⟨by assumption, (Except.ok.inj accepted).symm⟩
      · rename_i other
        split at accepted
        · exact Or.inr ⟨other, Or.inl (by assumption), (Except.ok.inj accepted).symm⟩
        · split at accepted
          · rename_i listed
            exact Or.inr ⟨other, Or.inr listed.2, (Except.ok.inj accepted).symm⟩
          · cases accepted
    · rintro ⟨first, others, same, ⟨isCreator, rfl⟩ | ⟨other, isSeed | listed, rfl⟩⟩
      · rw [if_pos isCreator, (List.cons.inj same).1]
      · rw [if_neg other, (List.cons.inj same).1, if_pos isSeed]
      · rw [if_neg other]
        split
        · rfl
        · rw [if_pos ⟨List.ne_nil_of_mem listed, listed⟩]

end PbChatroom
