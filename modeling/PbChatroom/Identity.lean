import Mathlib.Data.String.Basic

namespace PbChatroom

/-- One character of the class `[a-z0-9_-]`. -/
def idChar (c : Char) : Bool :=
  ('a' ≤ c && c ≤ 'z') || ('0' ≤ c && c ≤ '9') || c == '_' || c == '-'

/-- `re.compile(r'^[a-z0-9_-]+$').match`: the dollar also matches before a
newline that ends the string. -/
def validMatch (id : List Char) : Bool :=
  let core := if id.getLast? = some '\n' then id.dropLast else id
  !core.isEmpty && core.all idChar

def maxLen : Nat := 64

/-- The two messages of `_validate`. -/
inductive ValueError where
  | charactersOutside (id : String)
  | tooLong (length : Nat)
  deriving DecidableEq, Repr

/-- `identity._validate` -/
def validate (id : String) : Except ValueError String :=
  if !validMatch id.toList then .error (.charactersOutside id)
  else if id.length > maxLen then .error (.tooLong id.length)
  else .ok id

theorem validate_eq {id id' : String} (accepted : validate id = .ok id') : id' = id := by
  unfold validate at accepted
  split at accepted
  · cases accepted
  · split at accepted
    · cases accepted
    · cases accepted
      rfl

/-- A participant id that has passed `_validate`. -/
structure Participant where
  id : String
  valid : validate id = .ok id

theorem Participant.id_ne_empty (p : Participant) : p.id ≠ "" := by
  intro empty
  have valid := p.valid
  rw [empty] at valid
  cases valid

theorem Participant.ext {p q : Participant} (same : p.id = q.id) : p = q := by
  cases p
  cases q
  cases same
  rfl

end PbChatroom
