import PbChatroom.Identity
import PbChatroom.Lib.Shell

namespace PbChatroom
open Shell

/-- The two variables of the environment that name a session. A project name is
in ASCII, where lowering its letters is the same for all. -/
structure Environment where
  participantId : Option String
  ddevProject : Option String
  ascii : ddevProject.all fun project => project.toList.all fun c => c.toNat < 128

def lower (s : String) : String := String.ofList (s.toList.map Char.toLower)

/-- `resolve_participant_id` -/
def resolveParticipantId (env : Environment) : Except ValueError String :=
  match env.participantId with
  | some override => validate override
  | none =>
    match env.ddevProject with
    | some project => validate ("container-" ++ lower project)
    | none => .ok "host"

/-- `PARTICIPANT` in check_messages.sh. -/
def hookParticipant (env : Environment) : String :=
  orDefault (some (orDefault env.participantId (ifSet env.ddevProject fun project => "container-" ++ project))) "host"

/-- `PARTICIPANT` in the snippet of the slash commands. -/
def slashParticipant (env : Environment) : String :=
  orDefault (some (orDefault env.participantId (ifSet env.ddevProject fun project =>
    "container-" ++ String.ofList (substitution (trLower (echo project.toList)))))) "host"

/-- A project name that goes through the shell as it is: it is there, has no
capitals, does not end in a newline, and `echo` prints it. -/
def Plain (project : String) : Prop :=
  project ≠ "" ∧ (∀ c ∈ project.toList, ¬c.isUpper) ∧ project.toList.getLast? ≠ some '\n' ∧
    ¬isEchoOption project.toList

instance (project : String) : Decidable (Plain project) :=
  decidable_of_iff (project ≠ "" ∧ (project.toList.all fun c => !c.isUpper) ∧
    project.toList.getLast? ≠ some '\n' ∧ ¬isEchoOption project.toList) (by simp [Plain])

theorem container_ne (s : String) : "container-" ++ s ≠ "" := by
  simp

theorem container_inj {s t : String} : "container-" ++ s = "container-" ++ t ↔ s = t := by
  rw [← String.toList_inj, String.toList_append, String.toList_append, List.append_cancel_left_eq, String.toList_inj]

theorem lower_eq_self_iff {s : String} : lower s = s ↔ ∀ c ∈ s.toList, ¬c.isUpper := by
  rw [← trLower_eq_self_iff, lower, trLower, ← String.toList_inj, String.toList_ofList]

/-- For a project that is named both shells prefix what they make of the name. -/
theorem participants_of_project {project : String} {ascii} (nonempty : project ≠ "") :
    hookParticipant ⟨none, some project, ascii⟩ = "container-" ++ project ∧
      slashParticipant ⟨none, some project, ascii⟩ =
        "container-" ++ String.ofList (substitution (trLower (echo project.toList))) := by
  rw [hookParticipant, slashParticipant]
  simp only [orDefault, ifSet, nonempty, if_false, container_ne, and_self]

/-- The hook and the slash commands agree with the server on the identity of a
session, exactly if it is given, or there is no project, or its name is plain. -/
theorem session_identity_iff {env : Environment} {id : String} (resolved : resolveParticipantId env = .ok id) :
    hookParticipant env = id ∧ slashParticipant env = id ↔
      env.participantId ≠ none ∨ ∀ project ∈ env.ddevProject, Plain project := by
  obtain ⟨participantId, ddevProject, ascii⟩ := env
  cases participantId with
  | some override =>
    have isOverride : id = override := validate_eq resolved
    have nonempty : override ≠ "" := Participant.id_ne_empty ⟨override, isOverride ▸ resolved⟩
    simp [hookParticipant, slashParticipant, orDefault, nonempty, isOverride]
  | none =>
    cases ddevProject with
    | none =>
      cases resolved
      simp [hookParticipant, slashParticipant, orDefault, ifSet]
    | some project =>
      have isLowered : id = "container-" ++ lower project := validate_eq resolved
      simp only [ne_eq, not_true_eq_false, false_or, Option.mem_def, Option.some.injEq, forall_eq', Plain]
      by_cases empty : project = ""
      · subst empty
        refine iff_of_false (fun same => ?_) (fun plain => plain.1 rfl)
        have hook : hookParticipant ⟨none, some "", ascii⟩ = "host" := rfl
        rw [hook, isLowered] at same
        exact absurd same.1 (by decide)
      · obtain ⟨hook, slash⟩ := @participants_of_project project ascii empty
        rw [hook, slash, isLowered, container_inj, container_inj, eq_comm, lower_eq_self_iff, and_iff_right empty]
        refine and_congr_right fun lowered => ?_
        rw [lower, ← String.toList_inj, String.toList_ofList, String.toList_ofList]
        by_cases option : isEchoOption project.toList
        · rw [substitution_echo_option option, eq_comm, List.map_eq_nil_iff, String.toList_eq_nil_iff]
          exact iff_of_false empty fun plain => plain.2 option
        · rw [and_iff_left option]
          exact substitution_echo_eq_iff option

theorem session_identity_of_acme : hookParticipant ⟨none, some "acme", rfl⟩ = "container-acme" ∧
    slashParticipant ⟨none, some "acme", rfl⟩ = "container-acme" := by
  have resolved : resolveParticipantId ⟨none, some "acme", rfl⟩ = .ok "container-acme" := rfl
  refine (session_identity_iff resolved).mpr (Or.inr fun project named => ?_)
  cases named
  decide

/-- A project with capitals: the hook polls an inbox of nobody. -/
theorem hook_identity_differs :
    let env : Environment := ⟨none, some "AcmeCorp", rfl⟩
    resolveParticipantId env = .ok "container-acmecorp" ∧ slashParticipant env = "container-acmecorp" ∧
      hookParticipant env = "container-AcmeCorp" :=
  ⟨rfl, by decide, by decide⟩

end PbChatroom
