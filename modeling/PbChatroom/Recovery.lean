import PbChatroom.AckProgress
import PbChatroom.ClaimProtocol
import PbChatroom.Lib.Restart
import PbChatroom.Persistence
import PbChatroom.Statements

namespace PbChatroom
open Interleaving Relational Catalog Transactional

section File

theorem Status.text_injective : Function.Injective Status.text := by
  intro a b same
  cases a <;> cases b <;> first | rfl | exact absurd same (by decide)

theorem Kind.text_injective : Function.Injective Kind.text := by
  intro a b same
  cases a <;> cases b <;> first | rfl | exact absurd same (by decide)

theorem Timestamp.value_injective : Function.Injective Timestamp.value := fun _ _ same =>
  Timestamp.text_injective (String.ofList_injective (Value.text.inj same))

theorem orNull_injective {α : Type} {value : α → Value} (injective : Function.Injective value)
    (given : ∀ a, value a ≠ .null) : Function.Injective (orNull value) := by
  intro o o' same
  cases o with
  | none =>
    cases o' with
    | none => rfl
    | some b => exact absurd same.symm (given b)
  | some a =>
    cases o' with
    | none => exact absurd same (given a)
    | some b => exact congrArg some (injective same)

theorem orNull_text_injective : Function.Injective (orNull Value.text) :=
  orNull_injective (fun _ _ => Value.text.inj) fun _ same => nomatch same

theorem orNull_timestamp_injective : Function.Injective (orNull Timestamp.value) :=
  orNull_injective Timestamp.value_injective fun _ same => nomatch same

theorem ThreadRow.values_injective : Function.Injective ThreadRow.values := by
  rintro ⟨id, subject, createdBy, status, createdAt, lastMessageAt, discussionType, claimedBy, claimedAt, claimScope⟩
    ⟨_, _, _, _, _, _, _, _, _, _⟩ same
  simp only [values, List.cons.injEq, Value.text.injEq, Status.text_injective.eq_iff, Timestamp.value_injective.eq_iff,
    orNull_text_injective.eq_iff, orNull_timestamp_injective.eq_iff, and_true] at same
  obtain ⟨rfl, rfl, rfl, rfl, rfl, rfl, rfl, rfl, rfl, rfl⟩ := same
  rfl

theorem Message.values_injective : Function.Injective Message.values := by
  rintro ⟨id, threadId, fromParticipant, toParticipant, body, kind, metadata, createdAt⟩ ⟨_, _, _, _, _, _, _, _⟩ same
  simp only [values, List.cons.injEq, Value.text.injEq, Kind.text_injective.eq_iff, Timestamp.value_injective.eq_iff,
    and_true] at same
  obtain ⟨rfl, rfl, rfl, rfl, rfl, rfl, rfl, rfl⟩ := same
  rfl

theorem RecipientRow.values_injective : Function.Injective RecipientRow.values := by
  rintro ⟨threadId, participantId, ackedAt⟩ ⟨_, _, _⟩ same
  simp only [values, List.cons.injEq, Value.text.injEq, orNull_timestamp_injective.eq_iff, and_true] at same
  obtain ⟨rfl, rfl, rfl⟩ := same
  rfl

/-- A file holds one store: every row can be read back from it. -/
theorem Db.file_injective : Function.Injective Db.file := by
  intro db db' same
  have rows : ∀ name r r', db.file.table name = some r → db'.file.table name = some r' → r.rows = r'.rows := by
    intro name r r' found found'
    rw [same, found'] at found
    exact congrArg Relation.rows (Option.some.inj found).symm
  refine Db.ext (Table.ext ?_) (Table.ext ?_) (Table.ext ?_)
  · exact List.map_injective_iff.mpr ThreadRow.values_injective (rows "threads" _ _ rfl rfl)
  · exact List.map_injective_iff.mpr Message.values_injective (rows "messages" _ _ rfl rfl)
  · exact List.map_injective_iff.mpr RecipientRow.values_injective (rows "thread_recipients" _ _ rfl rfl)

end File

/-- The server is started again on the file of the store: some starts are
interrupted, one comes to its end, and the store is the one that the file holds. -/
def Db.Restart (db db' : Db) : Prop :=
  ∃ stops file, initSchema.Completes (initSchema.interrupted stops db.file) file ∧ db'.file = file

theorem Db.Restart.eq (db db' : Db) (restart : db.Restart db') : db' = db := by
  obtain ⟨stops, file, completes, holds⟩ := restart
  obtain ⟨untouched, unchanged⟩ := restart_keeps db stops
  rw [untouched] at completes
  exact Db.file_injective (holds.trans (completes.unique unchanged))

theorem Db.restart_self (db : Db) (stops : List Nat) : db.Restart db := by
  obtain ⟨untouched, unchanged⟩ := restart_keeps db stops
  exact ⟨stops, db.file, by rwa [untouched], rfl⟩

section Kept

/-- What the answer to a request has promised is in the database. -/
def Flight.Kept (db : Db) : Flight → Prop
  | .postThread caller payload (.done (.ok created)) => db.OpenedFor created.id caller.id payload.primary ∧
      ∀ p, (∃ r, db.recipient? created.id p = some r) ↔ p ∈ payload.allRecipients
  | .postMessage t caller _ (.done (.ok m)) => m ∈ db.messages.rows ∧ m.threadId = t ∧ m.fromParticipant = caller.id
  | .postClaim t caller _ (.done (.ok claim)) =>
    claim.claimedBy = some caller.id ∧ ∃ row, db.thread? t = some row ∧ row.claim = claim
  | .postAck t caller _ (.done (.ok m)) =>
    m ∈ db.messages.rows ∧ m.threadId = t ∧ m.fromParticipant = caller.id ∧
      ((∃ r, db.recipient? t caller.id = some r ∧ r.ackedAt.isSome) ∨
        ∃ row, db.thread? t = some row ∧ row.status = .acked)
  | _ => True

/-- An answer is kept by all that comes behind it. -/
theorem kept_run {es : List (Event Request Input)} {f : Flight} (member : f ∈ (server.run World.init es).pool)
    (es' : List (Event Request Input)) : f.Kept (server.run (server.run World.init es) es').store := by
  have later := run_later (server.run World.init es) es'
  have placed := ((World.Sound.reachable es).2 f member).later later
  obtain ⟨i, at_i⟩ := List.mem_iff_getElem?.mp member
  unfold Flight.Kept
  split
  · have complete := (World.Complete.of_answered at_i).run es'
    exact ⟨complete.opened, complete.listed⟩
  · exact ⟨placed.1, placed.2.1, placed.2.2.1⟩
  · exact ((claims_annotated es).2 _ member).later later
  · exact ⟨placed.1, placed.2.1, placed.2.2.1, (recorded_reachable es member).later later⟩
  · trivial

end Kept

/-- A life of the server, from the database that the first start makes of a new
file on: requests, and any number of outages between two transactions. -/
abbrev World.Life : List (Event Request Input) → World → Prop := server.Life Db.Restart World.init

/-- Outages lose nothing that was answered and invent nothing. With any number of
them the database is at all times one of a run without outages, with the same
requests, ids and clock readings, in which some requests never move again; and what
a request was answered is still in the database after any more outages. -/
theorem outages_lose_nothing {es : List (Event Request Input)} {w : World} (life : World.Life es w) :
    (∃ es' lost, server.run World.init es' = Machine.behind lost w ∧ arrivals es' = arrivals es ∧
      draws es' = draws es) ∧
    ∀ es' w', server.Life Db.Restart w es' w' → w.store.Later w'.store ∧ ∀ f ∈ w.pool, f.Kept w'.store := by
  obtain ⟨run, lost, same, noted⟩ := life.behind Db.Restart.eq []
  refine ⟨⟨run, lost, same, noted fun _ _ _ => rfl, noted fun _ _ x => by cases x <;> rfl⟩, fun es' w' more => ?_⟩
  obtain ⟨run', lost', same', _⟩ := more.behind Db.Restart.eq lost
  have reached : server.run World.init run = Machine.behind lost w := same
  rw [← reached] at same'
  have store : (server.run (server.run World.init run) run').store = w'.store := by rw [same']; rfl
  constructor
  · have later := run_later (server.run World.init run) run'
    rwa [store, reached] at later
  · intro f member
    have inRun : f ∈ (server.run World.init run).pool := by
      rw [reached]
      exact List.mem_append_right lost member
    have kept := kept_run inRun run'
    rwa [store] at kept

/-- The server goes down behind a new thread, and its first two starts are
interrupted. -/
theorem outages_lose_nothing_of_opening :
    let w := server.run World.init (.arrive (.postThread (some "a") ⟨some "b", [], "s", "hello", none, none⟩) ::
      .step 0 (.draw ⟨reading 0 1, "t", "m0"⟩) :: transactions 0 2)
    let w' := server.run ⟨w.store, []⟩ (.arrive (.postMessage "t" (some "b") ⟨"hi", none⟩) :: transactions 0 2 ++
      .step 0 (.draw ⟨reading 1 0, "m1", ""⟩) :: transactions 0 1)
    w'.store.OpenedFor "t" "a" "b" ∧ ∃ r, w'.store.recipient? "t" "b" = some r := by
  intro w w'
  have life : World.Life _ w := .run _ .start
  have more : server.Life Db.Restart w _ w' := .run _ (.restart .start (w.store.restart_self [3, 17]))
  have member : Flight.postThread ⟨"a", rfl⟩
      ⟨⟨some "b", [], "s", "hello", none, none⟩, by decide, by decide, by decide, by decide⟩
      (.done (.ok ⟨"t", "s", "a", .opened, nowUtc (reading 0 1), nowUtc (reading 0 1), none, ["b"]⟩)) ∈ w.pool :=
    List.mem_cons_self ..
  obtain ⟨opened, listed⟩ := ((outages_lose_nothing life).2 _ w' more).2 _ member
  exact ⟨opened, (listed "b").mpr (List.mem_cons_self ..)⟩

end PbChatroom
