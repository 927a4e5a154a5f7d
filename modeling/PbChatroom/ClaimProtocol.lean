import PbChatroom.Lib.FirstWins
import PbChatroom.Evolution
import PbChatroom.Requests

namespace PbChatroom
open Interleaving Relational FirstWins

/-- The claim columns are all null or all set. -/
def Claim.Whole (c : Claim) : Prop :=
  c = ⟨none, none, none⟩ ∨ ∃ p t s, c = ⟨some p, some t, some s⟩

/-- The claim columns as a register. -/
def Claim.cell (c : Claim) : Option Claim := if c.claimedBy = none then none else some c

theorem Claim.cell_of_claimed {c : Claim} (claimed : c.claimedBy ≠ none) : c.cell = some c := if_neg claimed

theorem Claim.cell_eq_some {c d : Claim} (held : c.cell = some d) : c.claimedBy ≠ none ∧ c = d := by
  unfold cell at held
  split at held
  · cases held
  · exact ⟨by assumption, Option.some.inj held⟩

/-- What a caller of `set_claim` bids. -/
def bid (participantId scope : String) (now : DateTime) : Claim := ⟨some participantId, some (nowUtc now), some scope⟩

/-- On an existing thread `set_claim` is one offer to the register that the
claim columns of the thread form, and answers as the register does. -/
theorem setClaim_refines {db : Db} {t : Uuid} {row : ThreadRow} (found : db.thread? t = some row) (p scope : String)
    (now : DateTime) :
    (setClaim db t p scope now).1 = (answer Claim.claimedBy row.claim.cell (bid p scope now)).mapError .claimConflict ∧
      ∃ row', (setClaim db t p scope now).2.thread? t = some row' ∧
        row'.claim.cell = offer row.claim.cell (bid p scope now) := by
  unfold setClaim
  dsimp only
  cases free : row.claim.claimedBy with
  | none =>
    have rowcount : claimRowcount db t ≠ 0 := fun zero => claimRowcount_eq_zero_iff.mp zero row found free
    have cell : row.claim.cell = none := if_pos free
    rw [if_neg rowcount, cell, answer_none]
    refine ⟨rfl, { row with claim := bid p scope now }, ?_, rfl⟩
    rw [claimIfFree, Db.thread?_updateThread, if_pos rfl, found, Option.map_some, if_pos free]
    rfl
  | some q =>
    have claimed : row.claim.claimedBy ≠ none := by rw [free]; exact Option.some_ne_none q
    have rowcount : claimRowcount db t = 0 := claimRowcount_eq_zero_iff.mpr fun row' found' => by
      cases Option.some.inj (found.symm.trans found')
      exact claimed
    rw [if_pos rowcount, found, Claim.cell_of_claimed claimed]
    dsimp only
    by_cases own : row.claim.claimedBy = some p
    · rw [if_pos own]
      refine ⟨?_, row, found, by rw [Claim.cell_of_claimed claimed, offer_some]⟩
      rw [answer, Option.getD_some, if_pos (by rw [own]; rfl)]
      rfl
    · rw [if_neg own]
      refine ⟨?_, row, found, by rw [Claim.cell_of_claimed claimed, offer_some]⟩
      rw [answer, Option.getD_some, if_neg (by exact own)]
      rfl

/-- A claimed thread is left exactly as it was. -/
theorem setClaim_of_claimed {db : Db} {t : Uuid} {row : ThreadRow} (found : db.thread? t = some row)
    (claimed : row.claim.claimedBy ≠ none) (p scope : String) (now : DateTime) :
    setClaim db t p scope now =
      (if row.claim.claimedBy = some p then .ok row.claim else .error (.claimConflict row.claim.claimedBy), db) := by
  have rowcount : claimRowcount db t = 0 := claimRowcount_eq_zero_iff.mpr fun row' found' => by
    cases Option.some.inj (found.symm.trans found')
    exact claimed
  unfold setClaim
  dsimp only
  rw [if_pos rowcount, found]
  dsimp only
  split <;> rfl

theorem setClaim_of_absent {db : Db} {t : Uuid} (absent : db.thread? t = none) (p scope : String) (now : DateTime) :
    setClaim db t p scope now = (.error (.threadNotFound t), db) := by
  have rowcount : claimRowcount db t = 0 := claimRowcount_eq_zero_iff.mpr fun row found => by
    rw [absent] at found
    cases found
  unfold setClaim
  dsimp only
  rw [if_pos rowcount, absent]

/-- No thread has a claim that is only partly there. -/
def Db.ClaimsWhole (db : Db) : Prop := ∀ t row, db.thread? t = some row → row.claim.Whole

theorem Db.ClaimsWhole.updateThread {db : Db} (whole : db.ClaimsWhole) (t : Uuid) {set : ThreadRow → ThreadRow}
    {keeps : ∀ row, (set row).id = row.id} (step : ∀ row, row.claim.Whole → (set row).claim.Whole) :
    (db.updateThread t set keeps).ClaimsWhole := by
  intro u row found
  rw [Db.thread?_updateThread] at found
  split at found
  · obtain ⟨old, atOld, same⟩ := Option.map_eq_some_iff.mp found
    subst same
    exact step old (whole u old atOld)
  · exact whole u row found

theorem Created.claimsWhole {db db' : Db} {row : ThreadRow} {seed : Message} (created : Created db row seed db')
    (whole : db.ClaimsWhole) (unclaimed : row.claim = ⟨none, none, none⟩) : db'.ClaimsWhole := by
  intro u row' found
  rw [created.threads] at found
  split at found
  · cases Option.some.inj found
    exact Or.inl unclaimed
  · exact whole u row' found

theorem setClaim_claimsWhole {db : Db} (whole : db.ClaimsWhole) (t : Uuid) (p scope : String) (now : DateTime) :
    (setClaim db t p scope now).2.ClaimsWhole := by
  unfold setClaim
  dsimp only
  split
  · split
    · exact whole
    · split <;> exact whole
  · refine whole.updateThread t fun row here => ?_
    split
    · exact Or.inr ⟨p, nowUtc now, scope, rfl⟩
    · exact here

/-- The three claim columns are written by `set_claim` and nothing else, and
together. -/
theorem Flight.Commits.claimsWhole {db db' : Db} {f : Flight} (commits : Commits db f db') (whole : db.ClaimsWhole) :
    db'.ClaimsWhole := by
  have untouched : (∀ t, db'.column ThreadRow.claim t = db.column ThreadRow.claim t) → db'.ClaimsWhole := by
    intro same t row' found
    have here := same t
    rw [Db.column, Db.column, found] at here
    obtain ⟨row, atRow, claim⟩ := Option.map_eq_some_iff.mp here.symm
    exact claim ▸ whole t row atRow
  cases commits with
  | nothing | marks => exact whole
  | opens _ created => exact created.claimsWhole whole rfl
  | typesOpening | types | flips => exact untouched (Db.column_updateThread fun _ => rfl)
  | posts _ appended | inserts _ appended | closes _ appended =>
    exact untouched fun t => appended.column t fun _ _ => rfl
  | adds added => exact untouched (addRecipient_column added _)
  | claims => exact setClaim_claimsWhole whole _ _ _ _

/-- What an answered claim request knows about the thread: an accepted caller
was told the stored claim, which is its own, and a refused one the owner of the
stored claim, who is somebody else. -/
def PostClaim.Told (t : Uuid) (caller : Participant) (db : Db) : PostClaim → Prop
  | .done (.ok claim) =>
    claim.claimedBy = some caller.id ∧ ∃ row, db.thread? t = some row ∧ row.claim = claim
  | .done (.error e) => e = threadNotFound ∨ ∃ row winner, db.thread? t = some row ∧
      row.claim.claimedBy = some winner ∧ winner ≠ caller.id ∧ e = ⟨409, .claimedBy (some winner)⟩
  | _ => True

def Flight.Told (db : Db) : Flight → Prop
  | .postClaim t caller _ pc => pc.Told t caller db
  | _ => True

theorem Flight.Fresh.told {f : Flight} (fresh : f.Fresh) (db : Db) : f.Told db := by
  cases fresh <;> trivial

theorem Flight.Told.later {db db' : Db} {f : Flight} (told : f.Told db) (later : db.Later db') : f.Told db' := by
  cases f with
  | postClaim t caller payload pc =>
    cases pc with
    | done a =>
      cases a with
      | ok claim =>
        obtain ⟨own, row, found, same⟩ := told
        obtain ⟨row', found', step⟩ := later.thread? found
        have claimed : row.claim.claimedBy ≠ none := by rw [same, own]; exact Option.some_ne_none _
        exact ⟨own, row', found', (step.claim claimed).trans same⟩
      | error e =>
        rcases told with unknown | ⟨row, winner, found, owner, other, conflict⟩
        · exact Or.inl unknown
        · obtain ⟨row', found', step⟩ := later.thread? found
          have claimed : row.claim.claimedBy ≠ none := by rw [owner]; exact Option.some_ne_none _
          exact Or.inr ⟨row', winner, found', by rw [step.claim claimed, owner], other, conflict⟩
    | _ => trivial
  | _ => trivial

/-- The answer of the register is what the answered request is told. -/
theorem setClaim_told (db : Db) (t : Uuid) (caller : Participant) (scope : String) (now : DateTime) :
    PostClaim.Told t caller (setClaim db t caller.id scope now).2
      (.done (PostClaim.answer (setClaim db t caller.id scope now).1)) := by
  cases found : db.thread? t with
  | none =>
    rw [setClaim_of_absent found]
    exact Or.inl rfl
  | some row =>
    obtain ⟨answered, row', found', held⟩ := setClaim_refines found caller.id scope now
    rw [answered]
    cases outcome : answer Claim.claimedBy row.claim.cell (bid caller.id scope now) with
    | ok claim =>
      obtain ⟨kept, own⟩ := offer_of_answer_ok outcome
      exact ⟨own, row', found', (Claim.cell_eq_some (held.trans kept)).2⟩
    | error owner =>
      obtain ⟨w, held', same, byOwner, other⟩ := offer_of_answer_error outcome
      obtain ⟨claimed, rowClaim⟩ := Claim.cell_eq_some (held.trans (same.trans held'))
      obtain ⟨winner, isWinner⟩ := Option.ne_none_iff_exists'.mp claimed
      have sameOwner : owner = some winner := by rw [← byOwner, ← rowClaim, isWinner]
      refine Or.inr ⟨row', winner, found', isWinner, ?_, ?_⟩
      · rintro rfl
        exact other sameOwner
      · rw [sameOwner]

theorem Flight.Moves.told {db db' : Db} {f f' : Flight} (moves : Moves db f db' f') (told : f.Told db) :
    f'.Told db' := by
  cases moves with
  | postClaim move =>
    cases move with
    | idle => exact told
    | draws => trivial
    | claims now => exact setClaim_told ..
  | _ => trivial

/-- On an existing thread the transaction of a claim request ends in success or in a 409
that names the owner; without the thread it ends in a 404. -/
structure Db.ServesClaim (db : Db) (t : Uuid) (caller : Participant) (payload : ClaimRequest) (now : DateTime)
    (served : Db × Flight) : Prop where
  unknown : db.thread? t = none → served = (db, .postClaim t caller payload (.done (.error threadNotFound)))
  known : ∀ row, db.thread? t = some row →
    (∃ claim, served.2 = .postClaim t caller payload (.done (.ok claim)) ∧ claim.claimedBy = some caller.id) ∨
    ∃ winner, row.claim.claimedBy = some winner ∧ winner ≠ caller.id ∧
      served = (db, .postClaim t caller payload (.done (.error ⟨409, .claimedBy (some winner)⟩)))

theorem Db.servesClaim (db : Db) (t : Uuid) (caller : Participant) (payload : ClaimRequest) (now : DateTime) :
    db.ServesClaim t caller payload now
      (server.step .transaction db (.postClaim t caller payload (.claiming now))) := by
  have isServed : server.step .transaction db (.postClaim t caller payload (.claiming now)) =
      ((setClaim db t caller.id payload.scope now).2,
        .postClaim t caller payload (.done (PostClaim.answer (setClaim db t caller.id payload.scope now).1))) := rfl
  refine ⟨fun absent => ?_, fun row found => ?_⟩
  · rw [isServed, setClaim_of_absent absent]
    rfl
  · cases owner : row.claim.claimedBy with
    | none =>
      have answered := (setClaim_refines found caller.id payload.scope now).1
      have cell : row.claim.cell = none := if_pos owner
      rw [cell, answer_none] at answered
      exact Or.inl ⟨bid caller.id payload.scope now, by rw [isServed, answered]; rfl, rfl⟩
    | some winner =>
      have claimed : row.claim.claimedBy ≠ none := by rw [owner]; exact Option.some_ne_none _
      rw [isServed, setClaim_of_claimed found claimed, owner]
      by_cases own : winner = caller.id
      · rw [if_pos (congrArg some own)]
        exact Or.inl ⟨row.claim, rfl, own ▸ owner⟩
      · rw [if_neg fun same => own (Option.some.inj same)]
        exact Or.inr ⟨winner, rfl, own, rfl⟩

theorem claims_annotated (es : List (Event Request Input)) :
    Machine.Annotated Db.ClaimsWhole Flight.Told (server.run World.init es) := by
  have empty : Machine.Annotated Db.ClaimsWhole Flight.Told World.init :=
    ⟨fun _ _ found => (nomatch found), fun _ member => nomatch member⟩
  refine server.run_preserves (server.annotated_exec (R := Db.Later) ?_ ?_ step_later ?_) es empty
  · exact fun db request _ => request.receive_fresh.told db
  · exact fun x db f whole told => ⟨(f.step_commits x db).claimsWhole whole, (f.step_moves x db).told told⟩
  · exact fun _ _ _ later told => told.later later

/-- First wins, in every interleaving: all accepted claim requests on a thread
are of one participant and were told the stored claim, which never changes
again; every refused one was told that participant, or came before the thread. A
request with a valid header and body gets to `set_claim`, and on an existing thread it
is answered with success or with the owner. -/
theorem claim_first_wins (t : Uuid) (es es' : List (Event Request Input)) :
    let w := server.run World.init es
    let w' := server.run w es'
    (∀ (i j : Nat) caller caller' payload payload' claim claim',
      w.pool[i]? = some (Flight.postClaim t caller payload (.done (.ok claim))) →
      w'.pool[j]? = some (Flight.postClaim t caller' payload' (.done (.ok claim'))) →
        caller' = caller ∧ claim' = claim ∧ claim.claimedBy = some caller.id) ∧
    (∀ (i : Nat) caller payload claim, w'.pool[i]? = some (Flight.postClaim t caller payload (.done (.ok claim))) →
      ∃ row, w'.store.thread? t = some row ∧ row.claim = claim) ∧
    (∀ row, w.store.thread? t = some row → row.claim.claimedBy ≠ none →
      ∃ row', w'.store.thread? t = some row' ∧ row'.claim = row.claim) ∧
    (∀ (i : Nat) caller payload e, w'.pool[i]? = some (Flight.postClaim t caller payload (.done (.error e))) →
      e = threadNotFound ∨ ∃ row winner, w'.store.thread? t = some row ∧ row.claim.claimedBy = some winner ∧
        winner ≠ caller.id ∧ e = ⟨409, .claimedBy (some winner)⟩) ∧
    (∀ p scope now, w'.store.thread? t = none →
      setClaim w'.store t p scope now = (.error (.threadNotFound t), w'.store)) ∧
    (∀ p scope now row winner, w'.store.thread? t = some row → row.claim.claimedBy = some winner →
      setClaim w'.store t p scope now =
        (if winner = p then .ok row.claim else .error (.claimConflict (some winner)), w'.store)) ∧
    (∀ p scope now row, w'.store.thread? t = some row → row.claim.claimedBy = none →
      ∃ row', (setClaim w'.store t p scope now).1 = .ok (bid p scope now) ∧
        (setClaim w'.store t p scope now).2.thread? t = some row' ∧ row'.claim = bid p scope now) ∧
    (∀ row, w'.store.thread? t = some row → row.claim.Whole) ∧
    (∀ caller payload, server.receive (.postClaim t (some caller.id) payload.scope) =
      .postClaim t caller payload .start) ∧
    ∀ caller payload now, w'.store.ServesClaim t caller payload now
      (server.step .transaction w'.store (.postClaim t caller payload (.claiming now))) := by
  intro w w'
  have later : w.store.Later w'.store := run_later w es'
  have before := claims_annotated es
  have after : Machine.Annotated Db.ClaimsWhole Flight.Told w' := by
    have whole := claims_annotated (es ++ es')
    rwa [Machine.run_append] at whole
  refine ⟨?_, ?_, ?_, ?_, ?_, ?_, ?_, ?_, ?_, w'.store.servesClaim t⟩
  · intro i j caller caller' payload payload' claim claim' at_i at_j
    obtain ⟨own, row, found, same⟩ := (before.2 _ (List.mem_of_getElem? at_i)).later later
    obtain ⟨own', row', found', same'⟩ := after.2 _ (List.mem_of_getElem? at_j)
    cases Option.some.inj (found.symm.trans found')
    have sameClaim : claim' = claim := same'.symm.trans same
    refine ⟨Participant.ext ?_, sameClaim, own⟩
    rw [sameClaim, own] at own'
    exact (Option.some.inj own').symm
  · intro i caller payload claim at_i
    exact (after.2 _ (List.mem_of_getElem? at_i)).2
  · intro row found claimed
    obtain ⟨row', found', step⟩ := later.thread? found
    exact ⟨row', found', step.claim claimed⟩
  · exact fun i caller payload e at_i => after.2 _ (List.mem_of_getElem? at_i)
  · exact fun p scope now absent => setClaim_of_absent absent p scope now
  · intro p scope now row winner found owner
    have claimed : row.claim.claimedBy ≠ none := by rw [owner]; exact Option.some_ne_none _
    rw [setClaim_of_claimed found claimed, owner]
    simp only [Option.some.injEq]
  · intro p scope now row found free
    obtain ⟨answered, row', found', held⟩ := setClaim_refines found p scope now
    have cell : row.claim.cell = none := if_pos free
    rw [cell, answer_none] at answered
    rw [cell, offer_none] at held
    exact ⟨row', answered, found', (Claim.cell_eq_some held).2⟩
  · exact fun row found => after.1 t row found
  · intro caller payload
    have fresh : (Flight.postClaim t caller payload .start).Fresh := .postClaim ..
    exact fresh.receive nofun

end PbChatroom
