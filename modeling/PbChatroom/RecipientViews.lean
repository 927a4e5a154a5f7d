import PbChatroom.Creation
import PbChatroom.FrontMessage
import PbChatroom.Inbox

namespace PbChatroom
open Interleaving Relational

section Encoding

theorem mem_dictFromKeys {key : String} {keys : List String} : key ∈ dictFromKeys keys ↔ key ∈ keys := by
  induction keys with
  | nil => rfl
  | cons first rest ih =>
    rw [dictFromKeys, List.mem_cons, List.mem_cons, List.mem_filter, ih, decide_eq_true_eq]
    by_cases same : key = first <;> simp [same]

/-- Splitting a concatenation gives the pieces of all that was concatenated. -/
theorem splitComma_groupConcat {ids : List String} (nonempty : ids ≠ []) :
    splitComma (String.intercalate "," ids) = ids.flatMap splitComma := by
  induction ids with
  | nil => exact absurd rfl nonempty
  | cons id rest ih =>
    cases rest with
    | nil => simp
    | cons next rest =>
      have joined : (String.intercalate "," (id :: next :: rest)).toList =
          id.toList ++ ',' :: (String.intercalate "," (next :: rest)).toList := by
        rw [String.intercalate_cons_cons]
        simp
      rw [splitComma, joined, List.splitOn_append_cons_self, List.map_append, List.flatMap_cons, ← ih (by simp)]
      rfl

/-- An id without a comma is its only piece. -/
theorem splitComma_of_not_mem {id : String} (plain : ',' ∉ id.toList) : splitComma id = [id] := by
  rw [splitComma, List.splitOn_eq_singleton plain]
  simp

theorem not_mem_of_mem_splitOn {c : Char} {cs piece : List Char} (member : piece ∈ cs.splitOn c) : c ∉ piece := by
  induction cs generalizing piece with
  | nil =>
    rw [List.splitOn_nil, List.mem_singleton] at member
    rw [member]
    exact List.not_mem_nil
  | cons d cs ih =>
    rw [List.splitOn_cons_eq_if_modifyHead] at member
    obtain ⟨first, rest, splits⟩ := List.exists_cons_of_ne_nil (List.splitOn_ne_nil c cs)
    rw [splits] at member ih
    split at member
    · rcases List.mem_cons.mp member with rfl | later
      · exact List.not_mem_nil
      · exact ih later
    · rename_i other
      rw [List.modifyHead_cons] at member
      rcases List.mem_cons.mp member with rfl | later
      · intro inPiece
        rcases List.mem_cons.mp inPiece with rfl | inFirst
        · exact other (beq_self_eq_true c)
        · exact ih (List.mem_cons_self ..) inFirst
      · exact ih (List.mem_cons_of_mem _ later)

/-- No piece has a comma. -/
theorem not_mem_of_mem_splitComma {id piece : String} (member : piece ∈ splitComma id) : ',' ∉ piece.toList := by
  obtain ⟨chars, inSplit, rfl⟩ := List.mem_map.mp member
  rw [String.toList_ofList]
  exact not_mem_of_mem_splitOn inSplit

theorem truthy_groupConcat_iff {ids : List String} : truthy (groupConcat ids) ↔ ids ≠ [] ∧ ids ≠ [""] := by
  cases ids with
  | nil => simp [groupConcat, truthy]
  | cons id rest =>
    cases rest with
    | nil => simp [groupConcat, truthy]
    | cons next rest => simp [groupConcat, truthy, String.intercalate_cons_cons]

/-- Decoding what was encoded gives back the ids, if there are ids, none of them
has a comma and they are not a single empty one. -/
theorem decode_groupConcat {ids : List String} (notNil : ids ≠ []) (filled : ids ≠ [""]) {p : String} :
    p ∈ (if truthy (groupConcat ids) then splitComma ((groupConcat ids).getD "") else []) ↔
      ∃ id ∈ ids, p ∈ splitComma id := by
  rw [if_pos (truthy_groupConcat_iff.mpr ⟨notNil, filled⟩), groupConcat, if_neg notNil, Option.getD_some,
    splitComma_groupConcat notNil, List.mem_flatMap]

end Encoding

/-- The ids can be read back from their encoding, with `root` added to them: they
are not all empty, a root is one of them, and none has a comma, unless it is the
root and its pieces are among the ids, too. -/
def Legible (ids : List String) (root : Option String) : Prop :=
  (∃ id ∈ ids, id ≠ "") ∧ (∀ id ∈ root, id ≠ "" → id ∈ ids) ∧
    ∀ id ∈ ids, ',' ∈ id.toList → root = some id ∧ ∀ piece ∈ splitComma id, piece ∈ ids

instance (ids : List String) (root : Option String) : Decidable (Legible ids root) :=
  inferInstanceAs (Decidable ((∃ id ∈ ids, id ≠ "") ∧ (∀ id ∈ root, id ≠ "" → id ∈ ids) ∧
    ∀ id ∈ ids, ',' ∈ id.toList → root = some id ∧ ∀ piece ∈ splitComma id, piece ∈ ids))

theorem legible_congr {ids ids' : List String} (same : ∀ id, id ∈ ids ↔ id ∈ ids') (root : Option String) :
    Legible ids root ↔ Legible ids' root := by
  simp only [Legible, same]

theorem mem_root_iff {root : Option String} {p : String} :
    p ∈ (if truthy root then root.toList else []) ↔ root = some p ∧ p ≠ "" := by
  split
  · rename_i given
    obtain ⟨id, rfl, nonempty⟩ := truthy_iff.mp given
    simp only [Option.toList_some, List.mem_singleton, Option.some.injEq]
    exact ⟨fun same => ⟨same.symm, same ▸ nonempty⟩, fun same => same.1.symm⟩
  · rename_i absent
    exact iff_of_false List.not_mem_nil fun same => absent (truthy_iff.mpr ⟨p, same⟩)

/-- Only one of different ids is empty. -/
theorem exists_ne_empty {ids : List String} (notNil : ids ≠ []) (unique : ids.Nodup) (filled : ids ≠ [""]) :
    ∃ id ∈ ids, id ≠ "" := by
  by_contra noneFilled
  have empty : ∀ id ∈ ids, id = "" := fun id member => by_contra fun nonempty => noneFilled ⟨id, member, nonempty⟩
  cases ids with
  | nil => exact notNil rfl
  | cons first rest =>
    have firstEmpty := empty first (List.mem_cons_self ..)
    have restNil : rest = [] := List.eq_nil_iff_forall_not_mem.mpr fun id member => by
      have same := (empty id (List.mem_cons_of_mem _ member)).trans firstEmpty.symm
      exact (List.nodup_cons.mp unique).1 (same ▸ member)
    exact filled (by rw [firstEmpty, restNil])

/-- Root and decoded ids are the ids, exactly if these are legible. -/
theorem mem_decoded_iff {ids : List String} (root : Option String) (notNil : ids ≠ []) (unique : ids.Nodup) :
    (∀ p, p ∈ dictFromKeys ((if truthy root then root.toList else []) ++
        if truthy (groupConcat ids) then splitComma ((groupConcat ids).getD "") else []) ↔ p ∈ ids) ↔
      Legible ids root := by
  by_cases filled : ids = [""]
  · subst filled
    refine iff_of_false (fun agree => ?_) (fun legible => ?_)
    · have member := (agree "").mpr (List.mem_cons_self ..)
      rw [mem_dictFromKeys, List.mem_append, mem_root_iff] at member
      rcases member with isRoot | decoded
      · exact isRoot.2 rfl
      · rw [if_neg (by decide)] at decoded
        cases decoded
    · obtain ⟨id, member, nonempty⟩ := legible.1
      exact nonempty (List.mem_singleton.mp member)
  · have decoded_iff : ∀ p, p ∈ dictFromKeys ((if truthy root then root.toList else []) ++
        if truthy (groupConcat ids) then splitComma ((groupConcat ids).getD "") else []) ↔
        root = some p ∧ p ≠ "" ∨ ∃ id ∈ ids, p ∈ splitComma id := by
      intro p
      rw [mem_dictFromKeys, List.mem_append, mem_root_iff, decode_groupConcat notNil filled]
    simp only [decoded_iff]
    constructor
    · intro agree
      refine ⟨exists_ne_empty notNil unique filled, fun id isRoot nonempty => (agree id).mp (Or.inl ⟨isRoot, nonempty⟩),
        fun id member comma => ⟨?_, ?_⟩⟩
      · rcases (agree id).mpr member with isRoot | ⟨other, _, piece⟩
        · exact isRoot.1
        · exact absurd comma (not_mem_of_mem_splitComma piece)
      · exact fun piece inSplit => (agree piece).mp (Or.inr ⟨id, member, inSplit⟩)
    · rintro ⟨_, isListed, commas⟩ p
      constructor
      · rintro (⟨isRoot, nonempty⟩ | ⟨id, member, piece⟩)
        · exact isListed p isRoot nonempty
        · by_cases comma : ',' ∈ id.toList
          · exact (commas id member comma).2 p piece
          · rw [splitComma_of_not_mem comma, List.mem_singleton] at piece
            exact piece ▸ member
      · intro member
        by_cases comma : ',' ∈ p.toList
        · refine Or.inl ⟨(commas p member comma).1, ?_⟩
          rintro rfl
          cases comma
        · exact Or.inr ⟨p, member, by rw [splitComma_of_not_mem comma]; exact List.mem_cons_self ..⟩

/-- The recipients of the thread in `list_threads`, and those in
`get_thread_with_messages`, are those that are stored. -/
def Db.ViewsAgree (db : Db) (t : Uuid) : Prop :=
  (∀ f, ∀ summary ∈ listThreads db f, summary.id = t → ∀ p, p ∈ summary.recipients ↔ ∃ r, db.recipient? t p = some r) ∧
    ∀ found ∈ getThreadWithMessages db t, ∀ p, p ∈ found.recipients ↔ ∃ r, db.recipient? t p = some r

/-- All views of the recipients of a created thread agree, exactly if the
recipients of the creating request are legible next to the recipient of the
message in front. -/
theorem recipient_views_iff {es : List (Event Request Input)} {i : Nat} {creator : Participant} {payload : ThreadCreate}
    {created : CreatedThread}
    (answered : (server.run World.init es).pool[i]? = some (.postThread creator payload (.done (.ok created)))) :
    let db := (server.run World.init es).store
    db.ViewsAgree created.id ↔
      Legible payload.allRecipients ((db.front? created.id).map Message.toParticipant) := by
  intro db
  have complete := World.Complete.of_answered answered
  have stored : ∀ p, p ∈ (db.recipientsOf created.id).map RecipientRow.participantId ↔ p ∈ payload.allRecipients :=
    fun p => Db.mem_recipientsOf_iff_exists.trans (complete.listed p)
  have notNil : (db.recipientsOf created.id).map RecipientRow.participantId ≠ [] :=
    List.ne_nil_of_mem ((stored _).mpr (List.mem_cons_self ..))
  obtain ⟨row, _, found, _⟩ := complete.opened
  have here : row.id = created.id := Table.get?_key found
  have decoded := mem_decoded_iff ((db.front? created.id).map Message.toParticipant) notNil
    (db.recipientsOf_nodup created.id)
  rw [legible_congr stored] at decoded
  rw [← decoded, ← front_reachable]
  simp only [Db.mem_recipientsOf_iff_exists]
  constructor
  · intro agree p
    have listed : summarize db row ∈ listThreads db ⟨none, none, none, none⟩ := by
      refine List.mem_map_of_mem ((mem_orderBy listedNoLater).mpr ?_)
      exact List.mem_filter.mpr ⟨Table.get?_mem found, rfl⟩
    have same := agree.1 _ _ listed here p
    rw [summarize, here] at same
    exact same
  · intro agree
    refine ⟨fun f summary listed same p => ?_, fun thread read p => ?_⟩
    · obtain ⟨row', inTable, rfl⟩ := List.mem_map.mp listed
      have found' : db.thread? row'.id = some row' :=
        Table.get?_eq_some_iff.mpr ⟨List.mem_of_mem_filter ((mem_orderBy listedNoLater).mp inTable), rfl⟩
      have same' : row'.id = created.id := same
      rw [summarize, same']
      exact agree p
    · obtain ⟨_, _, rfl⟩ := Option.map_eq_some_iff.mp read
      exact Db.mem_recipientsOf_iff_exists

/-- Two plain ids, and the seed in front: all views agree. -/
theorem recipient_views_of_two :
    let es := .arrive (.postThread (some "a") ⟨none, ["b", "c"], "s", "hello", none, none⟩) ::
      .step 0 (.draw ⟨reading 0 1, "t", "m0"⟩) :: transactions 0 3
    (server.run World.init es).store.ViewsAgree "t" := by
  intro es
  have answered : (server.run World.init es).pool[0]? = some (.postThread ⟨"a", rfl⟩
      ⟨⟨none, ["b", "c"], "s", "hello", none, none⟩, by decide, by decide, by decide, by decide⟩
      (.done (.ok ⟨"t", "s", "a", .opened, nowUtc (reading 0 1), nowUtc (reading 0 1), none, ["b", "c"]⟩))) := rfl
  exact (recipient_views_iff answered).mpr (by decide)

/-- One recipient with a comma in its id is three in `list_threads`. -/
theorem comma_views_differ :
    let es := .arrive (.postThread (some "a") ⟨some "b,c", [], "s", "hello", none, none⟩) ::
      .step 0 (.draw ⟨reading 0 1, "t", "m0"⟩) :: transactions 0 2
    let db := (server.run World.init es).store
    (listThreads db ⟨none, none, none, none⟩).map ThreadSummary.recipients = [["b,c", "b", "c"]] ∧
      (db.recipientsOf "t").map RecipientRow.participantId = ["b,c"] ∧ ¬db.ViewsAgree "t" := by
  intro es db
  refine ⟨by decide, by decide, fun agree => ?_⟩
  have shown : ∃ summary ∈ listThreads db ⟨none, none, none, none⟩, summary.id = "t" ∧ "b" ∈ summary.recipients := by
    decide
  obtain ⟨summary, listed, here, member⟩ := shown
  obtain ⟨r, found⟩ := (agree.1 _ summary listed here "b").mp member
  have absent : db.recipient? "t" "b" = none := by decide
  rw [absent] at found
  cases found

end PbChatroom
