import PbChatroom.Lib.Regex
import PbChatroom.SessionIdentity

namespace PbChatroom
open Regex

/-- `_VALID` -/
def validPattern : Pattern := .seq .caret (.seq (.plus (.one idChar)) .dollar)

/-- `_VALID.match` as the model computes it is the match of the pattern. -/
theorem validMatch_iff {id : List Char} : validMatch id ↔ validPattern.Match id := by
  have core_iff : ∀ core : List Char, (!core.isEmpty && core.all idChar) = true ↔
      core ≠ [] ∧ ∀ c ∈ core, idChar c := fun core => by simp
  have newline : ¬idChar '\n' := by decide
  rw [validPattern, Pattern.match_line_iff, validMatch, core_iff]
  split
  · rename_i ends
    obtain ⟨core, rfl⟩ := List.getLast?_eq_some_iff.mp ends
    rw [List.dropLast_concat]
    constructor
    · rintro ⟨nonempty, ofClass⟩
      exact ⟨core, nonempty, ofClass, Or.inr rfl⟩
    · rintro ⟨cs, nonempty, ofClass, rfl | same⟩
      · exact absurd (ofClass '\n' (by simp)) newline
      · rw [List.append_cancel_right same]
        exact ⟨nonempty, ofClass⟩
  · rename_i other
    constructor
    · rintro ⟨nonempty, ofClass⟩
      exact ⟨id, nonempty, ofClass, Or.inl rfl⟩
    · rintro ⟨cs, nonempty, ofClass, rfl | rfl⟩
      · exact ⟨nonempty, ofClass⟩
      · exact absurd List.getLast?_concat other

/-- The grammar in the docstring of the module: `[a-z0-9_-]+`, 1–64 characters. -/
structure Documented (id : String) : Prop where
  characters : ∀ c ∈ id.toList, idChar c
  nonempty : 1 ≤ id.length
  short : id.length ≤ 64

theorem documented_host : Documented "host" :=
  ⟨List.all_eq_true.mp (by decide), by decide, by decide⟩

/-- An id of the grammar, up to one character below the bound, and a newline. -/
def NewlineBehind (id : String) : Prop := ∃ core, id = core ++ "\n" ∧ Documented core ∧ core.length ≤ 63

theorem NewlineBehind.not_documented {id : String} (behind : NewlineBehind id) : ¬Documented id := by
  obtain ⟨core, rfl, _⟩ := behind
  intro documented
  have newline := documented.characters '\n' (by simp)
  exact absurd newline (by decide)

theorem documented_iff {id : String} :
    Documented id ↔ (id.toList ≠ [] ∧ ∀ c ∈ id.toList, idChar c) ∧ id.length ≤ maxLen := by
  have nonempty_iff : 1 ≤ id.length ↔ id.toList ≠ [] := by
    rw [← String.length_toList, Nat.one_le_iff_ne_zero, ne_eq, List.length_eq_zero_iff]
  constructor
  · rintro ⟨characters, nonempty, short⟩
    exact ⟨⟨nonempty_iff.mp nonempty, characters⟩, short⟩
  · rintro ⟨⟨nonempty, characters⟩, short⟩
    exact ⟨characters, nonempty_iff.mpr nonempty, short⟩

theorem newlineBehind_iff {id : String} : NewlineBehind id ↔
    (∃ cs, cs ≠ [] ∧ (∀ c ∈ cs, idChar c) ∧ id.toList = cs ++ ['\n']) ∧ id.length ≤ maxLen := by
  constructor
  · rintro ⟨core, rfl, documented, short⟩
    obtain ⟨⟨nonempty, characters⟩, _⟩ := documented_iff.mp documented
    refine ⟨⟨core.toList, nonempty, characters, by simp⟩, ?_⟩
    rw [String.length_append]
    exact Nat.succ_le_succ short
  · rintro ⟨⟨cs, nonempty, characters, text⟩, short⟩
    have whole : id = String.ofList cs ++ "\n" := by
      rw [← String.toList_inj, text]
      simp
    rw [whole, String.length_append] at short
    have short' : (String.ofList cs).length ≤ 63 := Nat.le_of_succ_le_succ short
    refine ⟨_, whole, documented_iff.mpr ⟨?_, short'.trans (by decide)⟩, short'⟩
    rw [String.toList_ofList]
    exact ⟨nonempty, characters⟩

/-- What `_validate` accepts. -/
theorem validate_ok_iff {s id : String} : validate s = .ok id ↔ id = s ∧ (Documented s ∨ NewlineBehind s) := by
  have accepted_iff : Documented s ∨ NewlineBehind s ↔ validMatch s.toList ∧ s.length ≤ maxLen := by
    rw [documented_iff, newlineBehind_iff, ← or_and_right, validMatch_iff, validPattern, Pattern.match_line_iff]
    refine and_congr_left fun _ => ?_
    constructor
    · rintro (⟨nonempty, characters⟩ | ⟨cs, nonempty, characters, text⟩)
      · exact ⟨_, nonempty, characters, Or.inl rfl⟩
      · exact ⟨cs, nonempty, characters, Or.inr text⟩
    · rintro ⟨cs, nonempty, characters, text | text⟩
      · exact Or.inl (text ▸ ⟨nonempty, characters⟩)
      · exact Or.inr ⟨cs, nonempty, characters, text⟩
  rw [accepted_iff]
  constructor
  · intro accepted
    have same := validate_eq accepted
    subst same
    refine ⟨rfl, ?_⟩
    unfold validate at accepted
    split at accepted
    · cases accepted
    · rename_i isMatch
      split at accepted
      · cases accepted
      · rename_i short
        exact ⟨by simpa using isMatch, Nat.le_of_not_lt short⟩
  · rintro ⟨rfl, isMatch, short⟩
    rw [validate, isMatch, if_neg (by decide), if_neg (Nat.not_lt.mpr short)]

/-- `_validate` returns the string if it is in the grammar, and raises otherwise. -/
def Exact (s : String) : Prop :=
  (Documented s → validate s = .ok s) ∧ (¬Documented s → ∃ e, validate s = .error e)

theorem exact_iff {s : String} : Exact s ↔ ¬NewlineBehind s := by
  constructor
  · rintro ⟨_, rejects⟩ behind
    obtain ⟨e, rejected⟩ := rejects behind.not_documented
    rw [validate_ok_iff.mpr ⟨rfl, Or.inr behind⟩] at rejected
    cases rejected
  · intro notBehind
    refine ⟨fun documented => validate_ok_iff.mpr ⟨rfl, Or.inl documented⟩, fun undocumented => ?_⟩
    cases result : validate s with
    | error e => exact ⟨e, rfl⟩
    | ok id => exact absurd (validate_ok_iff.mp result).2 (not_or.mpr ⟨undocumented, notBehind⟩)

/-- `resolve_participant_id` in any environment. What `str.lower` makes of letters
outside ASCII is left open. -/
def resolveParticipantIdIn (lower : String → String) (participantId ddevProject : Option String) :
    Except ValueError String :=
  match participantId with
  | some override => validate override
  | none =>
    match ddevProject with
    | some project => validate ("container-" ++ lower project)
    | none => .ok "host"

/-- Project names in ASCII are the case that the shells are compared in. -/
theorem resolveParticipantId_eq (env : Environment) :
    resolveParticipantId env = resolveParticipantIdIn lower env.participantId env.ddevProject := rfl

/-- The result is an error or an id of the grammar. -/
def Conforms (result : Except ValueError String) : Prop := ∀ id, result = .ok id → Documented id

theorem conforms_validate_iff {s : String} : Conforms (validate s) ↔ ¬NewlineBehind s := by
  constructor
  · intro conforms behind
    exact behind.not_documented (conforms s (validate_ok_iff.mpr ⟨rfl, Or.inr behind⟩))
  · intro notBehind id accepted
    obtain ⟨rfl, documented | behind⟩ := validate_ok_iff.mp accepted
    · exact documented
    · exact absurd behind notBehind

/-- The ids that pass the check are those of the documented grammar, except that
the dollar lets one newline pass; with a newline behind the variable that counts,
the id of the process has it, too. -/
theorem participant_grammar_iff (s : String) (lower : String → String) (participantId ddevProject : Option String) :
    (Exact s ↔ ¬NewlineBehind s) ∧
    (Conforms (resolveParticipantIdIn lower participantId ddevProject) ↔
      (∀ override ∈ participantId, ¬NewlineBehind override) ∧
        (participantId = none → ∀ project ∈ ddevProject, ¬NewlineBehind ("container-" ++ lower project))) := by
  refine ⟨exact_iff, ?_⟩
  cases participantId with
  | some override =>
    rw [resolveParticipantIdIn, conforms_validate_iff]
    simp
  | none =>
    cases ddevProject with
    | some project =>
      rw [resolveParticipantIdIn, conforms_validate_iff]
      simp
    | none =>
      refine iff_of_true ?_ (by simp)
      intro id fallback
      cases fallback
      exact documented_host

/-- `host` and a newline. -/
theorem newline_accepted : validate "host\n" = .ok "host\n" ∧ ¬Documented "host\n" ∧ ¬Exact "host\n" ∧
    ∀ lower, ¬Conforms (resolveParticipantIdIn lower (some "host\n") none) := by
  have behind : NewlineBehind "host\n" := ⟨"host", rfl, documented_host, by decide⟩
  have accepted : validate "host\n" = .ok "host\n" := rfl
  refine ⟨accepted, behind.not_documented, fun isExact => exact_iff.mp isExact behind, fun lower conforms => ?_⟩
  exact behind.not_documented (conforms "host\n" accepted)

end PbChatroom
