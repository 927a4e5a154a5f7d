import Mathlib.Data.List.DropRight
import PbChatroom.Provenance
import PbChatroom.RecipientViews
import PbChatroom.TimeOrder

namespace PbChatroom
open Interleaving Relational

section Texts

/-- `str.isspace` of one character -/
def isSpace (c : Char) : Bool :=
  let n := c.toNat
  (9 ≤ n && n ≤ 13) || (28 ≤ n && n ≤ 32) || n == 133 || n == 160 || n == 5760 || (8192 ≤ n && n ≤ 8202) ||
    n == 8232 || n == 8233 || n == 8239 || n == 8287 || n == 12288

/-- `text.strip()` -/
def strip (text : String) : String := String.ofList ((text.toList.dropWhile isSpace).rdropWhile isSpace)

end Texts

/-- The query of GET /api/threads. -/
structure ThreadsQuery where
  toParticipant : Option String
  status : Option String
  discussionTypes : Option String
  since : Option String
  deriving DecidableEq, Repr

/-- `Literal['open', 'acked']` -/
def Status.parse (text : String) : Option Status :=
  if text = "open" then some .opened else if text = "acked" then some .acked else none

/-- `dt_list` -/
def typeList (discussionTypes : Option String) : Option (List String) :=
  if truthy discussionTypes then discussionTypes.map fun text => (splitComma text).map strip else none

/-- `Thread`, the response model of GET /api/threads. It parses the two times. -/
structure Thread where
  id : Uuid
  subject : String
  createdBy : String
  status : Status
  createdAt : DateTime
  lastMessageAt : DateTime
  discussionType : Option String
  claimedBy : Option String
  claimedAt : Option Timestamp
  claimScope : Option String
  recipients : List String
  deriving DecidableEq, Repr

/-- What FastAPI serves of a dict of `list_threads`: neither `to_participant` nor
`message_count`, and no scope, which the query does not select. -/
def ThreadSummary.response (t : ThreadSummary) : Thread where
  id := t.id
  subject := t.subject
  createdBy := t.createdBy
  status := t.status
  createdAt := t.createdAt.instant
  lastMessageAt := t.lastMessageAt.instant
  discussionType := t.discussionType
  claimedBy := t.claimedBy
  claimedAt := t.claimedAt
  claimScope := none
  recipients := t.recipients

/-- The dicts that `get_threads` returns; the error is the parameter that FastAPI answers
422 for. -/
def getThreads (db : Db) (q : ThreadsQuery) : Except String (List ThreadSummary) :=
  let list (status : Option Status) :=
    listThreads db ⟨q.toParticipant, status, typeList q.discussionTypes, q.since.map String.toList⟩
  match q.status with
  | none => .ok (list none)
  | some text =>
    match Status.parse text with
    | none => .error "status"
    | some status => .ok (list (some status))

/-- Every thread, in the order of `list_threads`. -/
def allThreads (db : Db) : List ThreadSummary := listThreads db ⟨none, none, none, none⟩

/-- Open threads first, and in each group the latest `last_message_at` first, by the text.
Threads with the same text come either way. -/
def ListedInOrder (threads : List ThreadSummary) : Prop :=
  threads.Pairwise fun t u => t.status = .opened ∧ u.status = .acked ∨
    t.status = u.status ∧ u.lastMessageAt.text ≤ t.lastMessageAt.text

/-- What SQLite may return for the listing `listed`, whose ties it has in an order of its
own. -/
structure UpToTies (listed returned : List ThreadSummary) : Prop where
  perm : returned.Perm listed
  inOrder : ListedInOrder returned

section Rows

/-- Every thread row has the property. -/
def Db.Rows (P : ThreadRow → Prop) (db : Db) : Prop := ∀ t row, db.thread? t = some row → P row

variable {P : ThreadRow → Prop} {db db' : Db}

theorem Db.Rows.updateThread (rows : db.Rows P) (t : Uuid) {set : ThreadRow → ThreadRow}
    {keeps : ∀ row, (set row).id = row.id} (step : ∀ row, P row → P (set row)) :
    (db.updateThread t set keeps).Rows P := by
  intro u row found
  rw [Db.thread?_updateThread] at found
  split at found
  · obtain ⟨old, atOld, rfl⟩ := Option.map_eq_some_iff.mp found
    exact step old (rows u old atOld)
  · exact rows u row found

theorem Db.Rows.appended (rows : db.Rows P) {set : ThreadRow → ThreadRow} {m : Message}
    (appended : Appended set db m db') (step : ∀ row, P row → P (set row)) : db'.Rows P := by
  intro u row found
  rw [appended.threads] at found
  split at found
  · obtain ⟨old, atOld, rfl⟩ := Option.map_eq_some_iff.mp found
    exact step old (rows u old atOld)
  · exact rows u row found

theorem Db.Rows.created (rows : db.Rows P) {row : ThreadRow} {seed : Message} (created : Created db row seed db')
    (new : P row) : db'.Rows P := by
  intro u row' found
  rw [created.threads] at found
  split at found
  · exact Option.some.inj found ▸ new
  · exact rows u row' found

/-- A type is one of the list, and a claim has an owner that is not empty. -/
structure ThreadRow.Legit (row : ThreadRow) : Prop where
  typed : ∀ type, row.discussionType = some type → type ∈ discussionTypes
  claimed : row.claim.claimedBy ≠ some ""

theorem listed_of_given {discussionType : Option String} {type : String}
    (valid : truthy discussionType → discussionType ∈ discussionTypes.map some)
    (given : discussionType.filter (· ≠ "") = some type) : type ∈ discussionTypes := by
  obtain ⟨isType, nonempty⟩ := Option.filter_eq_some_iff.mp given
  have member := valid (truthy_iff.mpr ⟨type, isType, of_decide_eq_true nonempty⟩)
  rw [isType] at member
  exact List.mem_map_of_injective (Option.some_injective _) |>.mp member

theorem Flight.Commits.legit {f : Flight} (commits : Commits db f db') (backed : f.Backed db)
    (rows : db.Rows ThreadRow.Legit) : db'.Rows ThreadRow.Legit := by
  cases commits with
  | nothing | marks => exact rows
  | opens _ created => exact rows.created created ⟨nofun, nofun⟩
  | typesOpening caller payload result discussionType =>
    refine rows.updateThread _ fun row legit => ⟨fun type isType => ?_, legit.claimed⟩
    cases isType
    exact listed_of_given payload.validDiscussionType backed.1
  | types t caller payload result discussionType =>
    refine rows.updateThread _ fun row legit => ⟨fun type isType => ?_, legit.claimed⟩
    cases isType
    exact listed_of_given payload.validDiscussionType backed
  | posts _ appended | inserts _ appended | closes _ appended =>
    exact rows.appended appended fun row legit => ⟨legit.typed, legit.claimed⟩
  | adds added => exact fun t row found => rows t row (addRecipient_thread? added t ▸ found)
  | claims t caller payload now =>
    unfold setClaim
    dsimp only
    split
    · split
      · exact rows
      · split <;> exact rows
    · refine rows.updateThread t fun row legit => ?_
      split
      · exact ⟨legit.typed, fun empty => caller.id_ne_empty (Option.some.inj empty)⟩
      · exact legit
  | flips => exact rows.updateThread _ fun row legit => ⟨legit.typed, legit.claimed⟩

theorem legit_reachable (es : List (Event Request Input)) :
    (server.run World.init es).store.Rows ThreadRow.Legit := by
  induction es using List.reverseRecOn with
  | nil => exact fun _ _ found => nomatch found
  | append_singleton es e ih =>
    have backed := backed_reachable es
    rw [server.run_append, server.run_cons, server.run_nil]
    cases e with
    | arrive request => exact ih
    | step i x =>
      cases at_i : (server.run World.init es).pool[i]? with
      | none =>
        rw [server.exec_idle x at_i]
        exact ih
      | some f =>
        rw [server.exec_step x at_i]
        exact (f.step_commits x _).legit (backed f (List.mem_of_getElem? at_i)) ih

end Rows

section Selection
variable {db : Db} {f : ThreadFilter}

theorem mem_listThreads_iff {summary : ThreadSummary} : summary ∈ listThreads db f ↔
    ∃ row, db.thread? row.id = some row ∧ f.matches db row ∧ summary = summarize db row := by
  constructor
  · intro listed
    obtain ⟨row, inTable, same⟩ := List.mem_map.mp listed
    obtain ⟨member, matched⟩ := List.mem_filter.mp ((mem_orderBy listedNoLater).mp inTable)
    exact ⟨row, Table.get?_eq_some_iff.mpr ⟨member, rfl⟩, matched, same.symm⟩
  · rintro ⟨row, found, matched, rfl⟩
    refine List.mem_map_of_mem ((mem_orderBy listedNoLater).mpr ?_)
    exact List.mem_filter.mpr ⟨Table.get?_mem found, matched⟩

theorem mem_allThreads {summary : ThreadSummary} (listed : summary ∈ listThreads db f) : summary ∈ allThreads db := by
  obtain ⟨row, found, _, same⟩ := mem_listThreads_iff.mp listed
  exact mem_listThreads_iff.mpr ⟨row, found, rfl, same⟩

theorem listThreads_inOrder (db : Db) (f : ThreadFilter) : ListedInOrder (listThreads db f) := by
  have sorted : (orderBy listedNoLater (db.threads.rows.filter (f.matches db))).Pairwise listedNoLater :=
    List.pairwise_insertionSort listedNoLater _
  rw [ListedInOrder, listThreads, List.pairwise_map]
  exact sorted.imp listedNoLater_iff.mp

theorem mem_listThreads_summarize {row : ThreadRow} (found : db.thread? row.id = some row) :
    summarize db row ∈ listThreads db f ↔ f.matches db row := by
  rw [mem_listThreads_iff]
  constructor
  · rintro ⟨row', found', matched, same⟩
    have sameId : row.id = row'.id := congrArg ThreadSummary.id same
    rw [← sameId, found] at found'
    cases found'
    exact matched
  · exact fun matched => ⟨row, found, matched, rfl⟩

end Selection

/-- What the parameters of a query ask of a thread. -/
structure ThreadsQuery.Asks (q : ThreadsQuery) (db : Db) (t : ThreadSummary) : Prop where
  toParticipant : ∀ p ∈ q.toParticipant, (∃ m ∈ db.messagesOf t.id, m.toParticipant = p) ∨
    ∃ r, db.recipient? t.id p = some r
  status : ∀ text ∈ q.status, Status.parse text = some t.status
  discussionType : ∀ names ∈ q.discussionTypes, names ≠ "" →
    ∃ type ∈ PbChatroom.discussionTypes, t.discussionType = some type ∧ type ∈ (splitComma names).map strip
  since : ∀ text ∈ q.since, ¬t.lastMessageAt.text < text.toList

section Query
variable {db : Db} {q : ThreadsQuery} {row : ThreadRow}

theorem addressed_iff {p : String} :
    ((db.messages.rows.any fun m => m.toParticipant = p ∧ m.threadId = row.id) ||
        db.threadRecipients.rows.any fun r => r.participantId = p ∧ r.threadId = row.id) = true ↔
      (∃ m ∈ db.messagesOf row.id, m.toParticipant = p) ∨ ∃ r, db.recipient? row.id p = some r := by
  rw [Bool.or_eq_true, List.any_eq_true, List.any_eq_true]
  refine or_congr (exists_congr fun m => ?_) (exists_congr fun r => ?_)
  · rw [Db.mem_messagesOf, decide_eq_true_eq, and_comm (a := m.toParticipant = p), and_assoc]
  · rw [Db.recipient?, Table.get?_eq_some_iff, decide_eq_true_eq, and_comm (a := r.participantId = p),
      RecipientRow.key, Prod.mk.injEq]

/-- The types that the filter lets through. -/
theorem typed_iff (legit : row.Legit) {names : Option String} :
    (match typeList names with
      | none | some [] => true
      | some types => types.any fun type => row.discussionType = some type) = true ↔
    ∀ text ∈ names, text ≠ "" →
      ∃ type ∈ discussionTypes, row.discussionType = some type ∧ type ∈ (splitComma text).map strip := by
  cases names with
  | none => exact iff_of_true rfl nofun
  | some text =>
    by_cases empty : text = ""
    · refine iff_of_true ?_ fun given isGiven nonempty => ?_
      · rw [empty]
        rfl
      · cases isGiven
        exact absurd empty nonempty
    · have given : typeList (some text) = some ((splitComma text).map strip) := if_pos (by simp [truthy, empty])
      have pieced : (splitComma text).map strip ≠ [] := by simp [splitComma, List.splitOn_ne_nil]
      obtain ⟨first, rest, pieces⟩ := List.exists_cons_of_ne_nil pieced
      rw [given, pieces]
      dsimp only
      rw [List.any_eq_true, ← pieces]
      constructor
      · rintro ⟨type, member, isType⟩ _ isGiven _
        cases isGiven
        rw [decide_eq_true_eq] at isType
        exact ⟨type, legit.typed type isType, isType, member⟩
      · intro asked
        obtain ⟨type, _, isType, member⟩ := asked text rfl empty
        exact ⟨type, member, decide_eq_true isType⟩

theorem matches_iff (legit : row.Legit) {status : Option Status}
    (parsed : q.status.map Status.parse = status.map some) :
    (⟨q.toParticipant, status, typeList q.discussionTypes, q.since.map String.toList⟩ : ThreadFilter).matches db row ↔
      q.Asks db (summarize db row) := by
  have conjuncts : q.Asks db (summarize db row) ↔ (((∀ p ∈ q.toParticipant,
      (∃ m ∈ db.messagesOf row.id, m.toParticipant = p) ∨ ∃ r, db.recipient? row.id p = some r) ∧
      ∀ text ∈ q.status, Status.parse text = some row.status) ∧
      ∀ names ∈ q.discussionTypes, names ≠ "" →
        ∃ type ∈ discussionTypes, row.discussionType = some type ∧ type ∈ (splitComma names).map strip) ∧
      ∀ text ∈ q.since, ¬row.lastMessageAt.text < text.toList :=
    ⟨fun asks => ⟨⟨⟨asks.toParticipant, asks.status⟩, asks.discussionType⟩, asks.since⟩,
      fun asks => ⟨asks.1.1.1, asks.1.1.2, asks.1.2, asks.2⟩⟩
  rw [conjuncts, ThreadFilter.matches, Bool.and_eq_true, Bool.and_eq_true, Bool.and_eq_true]
  refine and_congr (and_congr (and_congr ?_ ?_) (typed_iff legit)) ?_
  · cases q.toParticipant with
    | none => simp
    | some p => simp only [addressed_iff, Option.mem_some_iff, forall_eq']
  · cases status with
    | none =>
      rw [Option.map_none, Option.map_eq_none_iff] at parsed
      simp [parsed]
    | some status =>
      obtain ⟨text, given, isStatus⟩ := Option.map_eq_some_iff.mp parsed
      rw [given]
      simp [isStatus, eq_comm]
  · cases q.since with
    | none => simp
    | some text => simp

theorem parse_eq_none_iff {text : String} : Status.parse text = none ↔ text ≠ "open" ∧ text ≠ "acked" := by
  rw [Status.parse]
  split
  · simp_all
  · split <;> simp_all

theorem getThreads_error_iff :
    getThreads db q = .error "status" ↔ ∃ text ∈ q.status, text ≠ "open" ∧ text ≠ "acked" := by
  simp only [← parse_eq_none_iff]
  rw [getThreads]
  cases q.status with
  | none => simp
  | some text => cases parsed : Status.parse text <;> simp [parsed]

theorem getThreads_ok {listed : List ThreadSummary} (answered : getThreads db q = .ok listed) :
    ∃ status, q.status.map Status.parse = status.map some ∧
      listed = listThreads db ⟨q.toParticipant, status, typeList q.discussionTypes, q.since.map String.toList⟩ := by
  rw [getThreads] at answered
  cases given : q.status with
  | none =>
    rw [given] at answered
    exact ⟨none, rfl, (Except.ok.inj answered).symm⟩
  | some text =>
    rw [given] at answered
    dsimp only at answered
    cases parsed : Status.parse text with
    | none =>
      rw [parsed] at answered
      cases answered
    | some status =>
      rw [parsed] at answered
      exact ⟨some status, by simp [parsed], (Except.ok.inj answered).symm⟩

/-- Any of the six types, joined by commas, are read as they were joined. -/
theorem typeList_join {types : List String} (nonempty : types ≠ []) (known : ∀ type ∈ types, type ∈ discussionTypes) :
    typeList (some (String.intercalate "," types)) = some types := by
  have plain : ∀ type ∈ discussionTypes, ',' ∉ type.toList ∧ strip type = type ∧ type ≠ "" := by decide
  have pieces : splitComma (String.intercalate "," types) = types := by
    rw [splitComma_groupConcat nonempty]
    calc types.flatMap splitComma = types.flatMap fun type => [type] :=
          List.flatMap_congr fun type member => splitComma_of_not_mem (plain type (known type member)).1
      _ = types := List.flatMap_singleton' types
  have nonemptyText : String.intercalate "," types ≠ "" := by
    intro empty
    rw [empty] at pieces
    have blank : "" ∈ types := by
      rw [← pieces]
      decide
    exact (plain "" (known "" blank)).2.2 rfl
  have stripped : types.map strip = types := by
    calc types.map strip = types.map id := List.map_congr_left fun type member => (plain type (known type member)).2.1
      _ = types := List.map_id types
  rw [typeList, if_pos (truthy_iff.mpr ⟨_, rfl, nonemptyText⟩), Option.map_some, pieces, stripped]

end Query

/-- What may be returned for a listing is said by its members and the order. -/
theorem upToTies_iff {db : Db} {f : ThreadFilter} {Member : ThreadSummary → Prop}
    (members : ∀ t, t ∈ listThreads db f ↔ Member t) {returned : List ThreadSummary} :
    UpToTies (listThreads db f) returned ↔
      (∀ t, t ∈ returned ↔ Member t) ∧ (returned.map ThreadSummary.id).Nodup ∧ ListedInOrder returned := by
  have unique := listThreads_nodup db f
  constructor
  · rintro ⟨perm, inOrder⟩
    exact ⟨fun t => perm.mem_iff.trans (members t), (perm.map ThreadSummary.id).nodup_iff.mpr unique, inOrder⟩
  · rintro ⟨same, once, inOrder⟩
    refine ⟨(List.perm_ext_iff_of_nodup (once.of_map _) (unique.of_map _)).mpr fun t => ?_, inOrder⟩
    exact (same t).trans (members t).symm

/-- A query with an unknown status is refused. Every other listing has exactly the
threads of which each parameter holds, where the names of types stand between commas,
blanks around them do not count, and names that are no types select nothing. It has each
of them once, open threads first and then the latest by the text of `last_message_at`;
between equal texts, and only there, the order is left open. -/
theorem listing_selects (es : List (Event Request Input)) (q : ThreadsQuery) :
    let db := (server.run World.init es).store
    (getThreads db q = .error "status" ↔ ∃ text ∈ q.status, text ≠ "open" ∧ text ≠ "acked") ∧
    (∀ listed, getThreads db q = .ok listed → UpToTies listed listed ∧ ∀ returned, UpToTies listed returned ↔
      (∀ t, t ∈ returned ↔ t ∈ allThreads db ∧ q.Asks db t) ∧ (returned.map ThreadSummary.id).Nodup ∧
        ListedInOrder returned) ∧
    ∀ types, types ≠ [] → (∀ type ∈ types, type ∈ discussionTypes) →
      typeList (some (String.intercalate "," types)) = some types := by
  intro db
  refine ⟨getThreads_error_iff, fun listed answered => ?_, fun types => typeList_join⟩
  obtain ⟨status, parsed, rfl⟩ := getThreads_ok answered
  refine ⟨⟨.refl _, listThreads_inOrder ..⟩, fun returned => upToTies_iff fun t => ?_⟩
  constructor
  · intro member
    obtain ⟨row, found, matched, rfl⟩ := mem_listThreads_iff.mp member
    exact ⟨mem_allThreads member, (matches_iff (legit_reachable es _ row found) parsed).mp matched⟩
  · rintro ⟨member, asked⟩
    obtain ⟨row, found, _, rfl⟩ := mem_listThreads_iff.mp member
    rw [mem_listThreads_summarize found]
    exact (matches_iff (legit_reachable es _ row found) parsed).mpr asked

end PbChatroom
