import PbChatroom.Creation

namespace PbChatroom
open Interleaving Relational

/-- The body names `p` as a recipient, alone or in the list. -/
def ThreadCreateBody.Names (b : ThreadCreateBody) (p : String) : Prop :=
  p ≠ "" ∧ (b.toParticipant = some p ∨ p ∈ b.toParticipants)

/-- The list has no empty id behind its first, and its first is not lost: it is
the primary recipient, or it is named again, or there is nothing to lose. -/
def ThreadCreateBody.KeepsFirst (b : ThreadCreateBody) : Prop :=
  "" ∉ b.toParticipants.drop 1 ∧ ∀ first ∈ b.toParticipants.head?,
    if truthy b.toParticipant then first = "" ∨ b.toParticipant = some first ∨ first ∈ b.toParticipants.drop 1
    else first ≠ ""

instance (b : ThreadCreateBody) : Decidable b.KeepsFirst :=
  inferInstanceAs (Decidable ("" ∉ b.toParticipants.drop 1 ∧ ∀ first ∈ b.toParticipants.head?,
    if truthy b.toParticipant then first = "" ∨ b.toParticipant = some first ∨ first ∈ b.toParticipants.drop 1
    else first ≠ ""))

namespace ThreadCreate
variable {p : ThreadCreate}

/-- With `to` the first of the list is skipped. -/
theorem allRecipients_of_to {name : String} (given : p.toParticipant = some name) (nonempty : name ≠ "") :
    p.allRecipients = name :: p.toParticipants.drop 1 := by
  simp only [allRecipients, extras, primary, given, ne_eq, nonempty, not_false_eq_true, if_true]

/-- Without `to` the recipients are the list. -/
theorem allRecipients_of_list (absent : ¬truthy p.toParticipant) : p.allRecipients = p.toParticipants := by
  have first : p.primary = p.toParticipants.headD "" := by
    unfold primary
    split
    · rename_i name given
      rw [if_neg]
      simpa [given, truthy] using absent
    · rfl
  have nonempty := p.atLeastOneRecipient.resolve_left absent
  rw [allRecipients, extras, first]
  cases listed : p.toParticipants with
  | nil => exact absurd listed nonempty
  | cons head rest => rfl

theorem mem_allRecipients_iff_names_of_to {name : String} (given : p.toParticipant = some name) (nonempty : name ≠ "") :
    (∀ q, q ∈ p.allRecipients ↔ p.Names q) ↔ p.KeepsFirst := by
  have single : truthy (some name) := truthy_iff.mpr ⟨name, rfl, nonempty⟩
  simp only [allRecipients_of_to given nonempty, ThreadCreateBody.Names, ThreadCreateBody.KeepsFirst, given,
    if_pos single, Option.some.injEq]
  constructor
  · intro same
    refine ⟨fun empty => ((same "").mp (List.mem_cons_of_mem _ empty)).1 rfl, fun first atFirst => ?_⟩
    by_cases blank : first = ""
    · exact Or.inl blank
    · have listed := (same first).mpr ⟨blank, Or.inr (List.mem_of_mem_head? atFirst)⟩
      exact Or.inr ((List.mem_cons.mp listed).imp_left Eq.symm)
  · rintro ⟨noEmpty, keeps⟩ q
    rw [List.mem_cons]
    constructor
    · rintro (rfl | inRest)
      · exact ⟨nonempty, Or.inl rfl⟩
      · refine ⟨?_, Or.inr (List.mem_of_mem_drop inRest)⟩
        rintro rfl
        exact noEmpty inRest
    · rintro ⟨filled, rfl | inList⟩
      · exact Or.inl rfl
      · cases listed : p.toParticipants with
        | nil =>
          rw [listed] at inList
          cases inList
        | cons first rest =>
          rw [listed] at inList keeps
          rcases List.mem_cons.mp inList with rfl | inRest
          · rcases keeps q rfl with blank | isPrimary | again
            · exact absurd blank filled
            · exact Or.inl isPrimary.symm
            · exact Or.inr again
          · exact Or.inr inRest

theorem mem_allRecipients_iff_names_of_list (single : ¬truthy p.toParticipant) :
    (∀ q, q ∈ p.allRecipients ↔ p.Names q) ↔ p.KeepsFirst := by
  have absent : ∀ q, q ≠ "" → p.toParticipant ≠ some q :=
    fun q filled given => single (truthy_iff.mpr ⟨q, given, filled⟩)
  have nonempty := p.atLeastOneRecipient.resolve_left single
  simp only [allRecipients_of_list single, ThreadCreateBody.Names, ThreadCreateBody.KeepsFirst, if_neg single]
  cases listed : p.toParticipants with
  | nil => exact absurd listed nonempty
  | cons first rest =>
    constructor
    · intro same
      refine ⟨fun empty => ((same "").mp (List.mem_cons_of_mem _ empty)).1 rfl, fun head atHead => ?_⟩
      cases atHead
      exact ((same first).mp (List.mem_cons_self ..)).1
    · rintro ⟨noEmpty, keeps⟩ q
      constructor
      · intro inList
        refine ⟨?_, Or.inr inList⟩
        rintro rfl
        rcases List.mem_cons.mp inList with blank | inRest
        · exact keeps first rfl blank.symm
        · exact noEmpty inRest
      · rintro ⟨filled, given | inList⟩
        · exact absurd given (absent q filled)
        · exact inList

/-- Who is made a recipient is who is named, exactly if the first of the list is
not lost. -/
theorem mem_allRecipients_iff_names :
    (∀ q, q ∈ p.allRecipients ↔ p.Names q) ↔ p.KeepsFirst := by
  by_cases single : truthy p.toParticipant
  · obtain ⟨name, given, nonempty⟩ := truthy_iff.mp single
    exact mem_allRecipients_iff_names_of_to given nonempty
  · exact mem_allRecipients_iff_names_of_list single

end ThreadCreate

/-- What a creating request answers lists the recipients that it has added. -/
def Flight.AnswersAll : Flight → Prop
  | .postThread _ payload (.done (.ok result)) => result.recipients = payload.allRecipients
  | _ => True

theorem Flight.Moves.answersAll {db db' : Db} {f f' : Flight} (moves : Moves db f db' f') (answers : f.AnswersAll) :
    f'.AnswersAll := by
  cases moves with
  | postThread move =>
    cases move with
    | idle => exact answers
    | finishes => rfl
    | _ => trivial
  | _ => trivial

theorem Flight.Fresh.answersAll {f : Flight} (fresh : f.Fresh) : f.AnswersAll := by
  cases fresh <;> trivial

theorem answers_all (es : List (Event Request Input)) : ∀ f ∈ (server.run World.init es).pool, f.AnswersAll := by
  have start : Machine.Annotated (fun _ => True) (fun _ => Flight.AnswersAll) World.init :=
    ⟨trivial, fun _ member => nomatch member⟩
  have annotated := server.run_preserves (server.annotated_exec (R := fun _ _ => True) ?_ ?_ ?_ ?_) es start
  · exact annotated.2
  · exact fun _ request _ => request.receive_fresh.answersAll
  · exact fun x db f _ answers => ⟨trivial, (f.step_moves x db).answersAll answers⟩
  · exact fun _ _ _ => trivial
  · exact fun _ _ _ _ answers => answers

/-- An accepted creation makes recipients of all whom its body names, and of
nobody else, exactly if the body keeps its first. -/
theorem named_recipients_iff {es : List (Event Request Input)} {i : Nat} {creator : Participant}
    {payload : ThreadCreate} {created : CreatedThread}
    (answered : (server.run World.init es).pool[i]? = some (.postThread creator payload (.done (.ok created)))) :
    let db := (server.run World.init es).store
    ((∀ p, p ∈ (db.recipientsOf created.id).map RecipientRow.participantId ↔ payload.Names p) ∧
      ((db.recipientsOf created.id).map RecipientRow.participantId).Nodup ∧
      ∀ p, p ∈ created.recipients ↔ payload.Names p) ↔ payload.KeepsFirst := by
  intro db
  have complete := World.Complete.of_answered answered
  have answers : created.recipients = payload.allRecipients := answers_all es _ (List.mem_of_getElem? answered)
  have stored : ∀ p, p ∈ (db.recipientsOf created.id).map RecipientRow.participantId ↔ p ∈ payload.allRecipients :=
    fun p => Db.mem_recipientsOf_iff_exists.trans (complete.listed p)
  rw [← ThreadCreate.mem_allRecipients_iff_names, answers, and_iff_right (db.recipientsOf_nodup created.id)]
  simp only [stored, and_self]

/-- A list alone keeps all its ids. -/
theorem named_recipients_of_list :
    let es := .arrive (.postThread (some "a") ⟨none, ["b", "c"], "s", "hello", none, none⟩) ::
      .step 0 (.draw ⟨reading 0 1, "t", "m0"⟩) :: transactions 0 3
    ∀ p, p ∈ ((server.run World.init es).store.recipientsOf "t").map RecipientRow.participantId ↔
      p ≠ "" ∧ p ∈ ["b", "c"] := by
  intro es p
  have answered : (server.run World.init es).pool[0]? = some (.postThread ⟨"a", rfl⟩
      ⟨⟨none, ["b", "c"], "s", "hello", none, none⟩, by decide, by decide, by decide, by decide⟩
      (.done (.ok ⟨"t", "s", "a", .opened, nowUtc (reading 0 1), nowUtc (reading 0 1), none, ["b", "c"]⟩))) := rfl
  refine (((named_recipients_iff answered).mpr (by decide)).1 p).trans (and_congr_right fun _ => ?_)
  exact or_iff_right (fun given => nomatch given)

/-- With `to` given as well, `c` is named and is no recipient. -/
theorem first_of_list_dropped :
    let body : ThreadCreateBody := ⟨some "b", ["c", "d"], "s", "hello", none, none⟩
    let w := server.run World.init
      (.arrive (.postThread (some "a") body) :: .step 0 (.draw ⟨reading 0 1, "t", "m0"⟩) :: transactions 0 3)
    w.pool[0]? = some (.postThread ⟨"a", rfl⟩ ⟨body, by decide, by decide, by decide, by decide⟩
      (.done (.ok ⟨"t", "s", "a", .opened, nowUtc (reading 0 1), nowUtc (reading 0 1), none, ["b", "d"]⟩))) ∧
    body.Names "c" ∧ "c" ∉ (w.store.recipientsOf "t").map RecipientRow.participantId :=
  ⟨rfl, ⟨by decide, Or.inr (List.mem_cons_self ..)⟩, by decide⟩

end PbChatroom
