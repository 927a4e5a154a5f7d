import PbChatroom.Listing

namespace PbChatroom
open Interleaving Relational

section Legacy

/-- `has_legacy_identity_in_last_n_days`, where `cutoff` is the time of the reading
less the days. -/
def hasLegacyIdentityInLastNDays (db : Db) (cutoff : DateTime) : Bool :=
  db.messages.rows.any fun m => (m.fromParticipant = "host-agent" ∨ m.toParticipant = "host-agent") ∧
    ¬m.createdAt.text < replaceOffset cutoff.isoformat

/-- What the comparison of the texts makes of a time and the cutoff. -/
theorem not_lt_cutoff_iff {t : Timestamp} {cutoff : DateTime} : ¬t.text < replaceOffset cutoff.isoformat ↔
    cutoff < t.instant ∧ ¬(nowUtc cutoff).Overtaken t ∨ t.Overtaken (nowUtc cutoff) ∨ t = nowUtc cutoff := by
  change ¬t.text < (nowUtc cutoff).text ↔ _
  rcases lt_trichotomy t.instant cutoff with earlier | same | later
  · rw [Timestamp.text_lt_iff (u := nowUtc cutoff) earlier, not_not]
    have apart : t ≠ nowUtc cutoff := fun same => earlier.ne (congrArg Timestamp.instant same)
    simp [apart, lt_asymm earlier]
  · obtain ⟨d, writer⟩ := t
    dsimp only at same
    subst same
    cases writer with
    | nowUtc => exact iff_of_true (lt_irrefl _) (Or.inr (Or.inr rfl))
    | nowIso =>
      have less : (nowIso d).text < (nowUtc d).text := Timestamp.nowIso_text_lt_nowUtc_iff.mpr (Or.inl le_rfl)
      refine iff_of_false (not_not_intro less) ?_
      rintro (⟨later, _⟩ | overtaken | same)
      · exact lt_irrefl _ later
      · exact absurd overtaken.1 nofun
      · exact absurd (congrArg Timestamp.writer same) nofun
  · have apart : t ≠ nowUtc cutoff := fun same => later.ne' (congrArg Timestamp.instant same)
    have texts : t.text ≠ (nowUtc cutoff).text := fun same => apart (Timestamp.text_injective same)
    have backwards : ¬t.Overtaken (nowUtc cutoff) := fun overtaken => lt_asymm later overtaken.lt
    rw [not_lt, le_iff_lt_or_eq, Timestamp.text_lt_iff (t := nowUtc cutoff) later]
    simp [later, apart, backwards, texts.symm]

end Legacy

/-- The context of threads_list.html. -/
structure IndexPage where
  threads : List ThreadSummary
  showLegacyWarning : Bool
  escalationCount : Nat
  postmortemCount : Nat
  activeClaims : List ThreadSummary

/-- `threads_list`: five reads, each of the database as it is by then. -/
def threadsList (db db₁ db₂ db₃ db₄ : Db) (cutoff : DateTime) : IndexPage where
  threads := listThreads db ⟨none, none, none, none⟩
  showLegacyWarning := hasLegacyIdentityInLastNDays db₁ cutoff
  escalationCount := (listThreads db₂ ⟨none, some .opened, some ["escalation"], none⟩).length
  postmortemCount := (listThreads db₃ ⟨none, some .opened, some ["postmortem"], none⟩).length
  activeClaims := (listThreads db₄ ⟨none, some .opened, none, none⟩).filter fun t => truthy t.claimedBy

section Panel

/-- A filter on what the summaries show can as well be applied to all of them. -/
theorem listThreads_eq_filter {db : Db} {f : ThreadFilter} (keep : ThreadSummary → Bool)
    (same : ∀ row, f.matches db row = keep (summarize db row)) : listThreads db f = (allThreads db).filter keep := by
  have unfiltered : db.threads.rows.filter (ThreadFilter.matches ⟨none, none, none, none⟩ db) = db.threads.rows :=
    List.filter_eq_self.mpr fun _ _ => rfl
  rw [allThreads, listThreads, listThreads, unfiltered, orderBy_filter, List.filter_map]
  refine congrArg (List.map (summarize db)) (List.filter_congr fun row _ => ?_)
  exact same row

variable {db db' : Db}

/-- An open thread was open whenever it was there before, and had the claim that it
had then, if any. -/
theorem open_follows (later : db.Later db') {t u : ThreadSummary} (before : t ∈ allThreads db)
    (after : u ∈ listThreads db' ⟨none, some .opened, none, none⟩) (same : u.id = t.id) :
    t.status = .opened ∧ (t.claimedBy ≠ none → u.claimedBy = t.claimedBy ∧ u.claimedAt = t.claimedAt) := by
  obtain ⟨row, found, _, rfl⟩ := mem_listThreads_iff.mp before
  obtain ⟨row', found', matched, rfl⟩ := mem_listThreads_iff.mp after
  have isOpen : row'.status = .opened := by simpa [ThreadFilter.matches] using matched
  obtain ⟨row'', found'', step⟩ := later.thread? found
  have sameRow : row'' = row' := by
    have sameId : row'.id = row.id := same
    rw [sameId, found''] at found'
    exact Option.some.inj found'
  subst sameRow
  refine ⟨?_, fun claimed => ?_⟩
  · cases status : row.status with
    | opened => exact status
    | acked => exact absurd (isOpen.symm.trans (step.acked status)) (by decide)
  · have claim := step.claim claimed
    exact ⟨congrArg Claim.claimedBy claim, congrArg Claim.claimedAt claim⟩

/-- A claimed thread stays on the panel until it is closed. -/
theorem claim_follows (later : db.Later db') (rows : db'.Rows ThreadRow.Legit) {t : ThreadSummary}
    (before : t ∈ allThreads db) (claimed : t.claimedBy ≠ none) :
    t.id ∈ ((listThreads db' ⟨none, some .opened, none, none⟩).filter fun u =>
        truthy u.claimedBy).map ThreadSummary.id ∨
      (db'.thread? t.id).map ThreadRow.status = some .acked := by
  obtain ⟨row, found, _, rfl⟩ := mem_listThreads_iff.mp before
  obtain ⟨row', found', step⟩ := later.thread? found
  cases status : row'.status with
  | acked => exact Or.inr (by rw [show (summarize db row).id = row.id from rfl, found', Option.map_some, status])
  | opened =>
    have byOwnId : db'.thread? row'.id = some row' := by rw [step.id, found']
    have listed : summarize db' row' ∈ listThreads db' ⟨none, some .opened, none, none⟩ :=
      (mem_listThreads_summarize byOwnId).mpr (by simp [ThreadFilter.matches, status])
    obtain ⟨p, isClaimant⟩ := Option.ne_none_iff_exists'.mp claimed
    have claimant : row'.claim.claimedBy = some p := (congrArg Claim.claimedBy (step.claim claimed)).trans isClaimant
    have shown : truthy (summarize db' row').claimedBy :=
      truthy_iff.mpr ⟨p, claimant, fun empty => (rows _ row' found').claimed (empty ▸ claimant)⟩
    exact Or.inl (List.mem_map.mpr ⟨_, List.mem_filter.mpr ⟨listed, shown⟩, step.id⟩)

theorem matches_typed {row : ThreadRow} (type : String) :
    (⟨none, some .opened, some [type], none⟩ : ThreadFilter).matches db row =
      (decide ((summarize db row).status = .opened) && decide ((summarize db row).discussionType = some type)) := by
  rw [Bool.eq_iff_iff, Bool.and_eq_true, decide_eq_true_iff, decide_eq_true_iff]
  simp [ThreadFilter.matches, summarize]

/-- No thread has two types. -/
theorem types_disjoint (threads : List ThreadSummary) {type type' : String} (apart : type ≠ type') :
    (threads.filter fun t => t.discussionType = some type).length +
      (threads.filter fun t => t.discussionType = some type').length ≤ threads.length := by
  have others : (threads.filter fun t => t.discussionType = some type').length ≤
      (threads.filter fun t => !decide (t.discussionType = some type)).length := by
    refine (List.monotone_filter_right threads fun t isType' => ?_).length_le
    rw [decide_eq_true_eq] at isType'
    simp [isType', Ne.symm apart]
  have split := threads.length_eq_length_filter_add fun t => decide (t.discussionType = some type)
  omega

end Panel

/-- The front page, whose parts are read one after the other while requests go on.
What the panel says of claims agrees with the table below it, apart from what has
happened since: no thread that the table has closed is on it, a claim of the table is on
it with its owner and time or the thread is closed by then. If nothing is written in
between, the panel counts rows of the table, none of them under both types. And the
warning stands if a message from or to `host-agent` is younger than the cutoff, up to the
fractions of a second in which texts and times are ordered differently. -/
theorem index_page (es e₁ e₂ e₃ e₄ : List (Event Request Input)) (cutoff : DateTime) :
    let w : World := server.run World.init es
    let w₁ : World := server.run w e₁
    let w₂ : World := server.run w₁ e₂
    let w₃ : World := server.run w₂ e₃
    let w₄ : World := server.run w₃ e₄
    let page := threadsList w.store w₁.store w₂.store w₃.store w₄.store cutoff
    (∀ t ∈ page.threads, ∀ c ∈ page.activeClaims, c.id = t.id →
      t.status = .opened ∧ (t.claimedBy ≠ none → c.claimedBy = t.claimedBy ∧ c.claimedAt = t.claimedAt)) ∧
    (∀ t ∈ page.threads, t.claimedBy ≠ none →
      t.id ∈ page.activeClaims.map ThreadSummary.id ∨ (w₄.store.thread? t.id).map ThreadRow.status = some .acked) ∧
    (w₂.store = w.store → w₃.store = w.store → w₄.store = w.store →
      let opened := page.threads.filter fun t => t.status = .opened
      page.escalationCount = (opened.filter fun t => t.discussionType = some "escalation").length ∧
      page.postmortemCount = (opened.filter fun t => t.discussionType = some "postmortem").length ∧
      page.escalationCount + page.postmortemCount ≤ opened.length ∧
      page.activeClaims = opened.filter fun t => t.claimedBy ≠ none) ∧
    (page.showLegacyWarning ↔ ∃ m ∈ w₁.store.messages.rows,
      (m.fromParticipant = "host-agent" ∨ m.toParticipant = "host-agent") ∧
        (cutoff < m.createdAt.instant ∧ ¬(nowUtc cutoff).Overtaken m.createdAt ∨
          m.createdAt.Overtaken (nowUtc cutoff) ∨ m.createdAt = nowUtc cutoff)) := by
  intro w w₁ w₂ w₃ w₄ page
  have later : w.store.Later w₄.store :=
    (((run_later w e₁).trans (run_later w₁ e₂)).trans (run_later w₂ e₃)).trans (run_later w₃ e₄)
  have legit : w₄.store.Rows ThreadRow.Legit := by
    have whole : w₄ = server.run World.init (es ++ e₁ ++ e₂ ++ e₃ ++ e₄) := by
      simp only [w₄, w₃, w₂, w₁, w, Machine.run_append]
    rw [whole]
    exact legit_reachable _
  refine ⟨fun t before c after same => open_follows later before (List.mem_of_mem_filter after) same,
    fun t before claimed => claim_follows later legit before claimed, ?_, ?_⟩
  · intro same₂ same₃ same₄ opened
    have typed : ∀ type, listThreads w.store ⟨none, some .opened, some [type], none⟩ =
        opened.filter fun t => t.discussionType = some type := by
      intro type
      rw [listThreads_eq_filter (fun t => decide (t.status = .opened) && decide (t.discussionType = some type))
        fun row => matches_typed type, List.filter_filter]
      exact List.filter_congr fun t _ => Bool.and_comm ..
    have escalations : page.escalationCount = (opened.filter fun t => t.discussionType = some "escalation").length := by
      rw [← typed, ← same₂]
      rfl
    have postmortems : page.postmortemCount = (opened.filter fun t => t.discussionType = some "postmortem").length := by
      rw [← typed, ← same₃]
      rfl
    refine ⟨escalations, postmortems, ?_, ?_⟩
    · rw [escalations, postmortems]
      exact types_disjoint opened (by decide)
    · have openThreads : listThreads w₄.store ⟨none, some .opened, none, none⟩ = opened := by
        rw [same₄]
        refine listThreads_eq_filter (fun t => decide (t.status = .opened)) fun row => ?_
        rw [Bool.eq_iff_iff, decide_eq_true_iff]
        simp [ThreadFilter.matches, summarize]
      change (listThreads w₄.store ⟨none, some .opened, none, none⟩).filter (fun t => truthy t.claimedBy) = _
      rw [openThreads]
      refine List.filter_congr fun t member => ?_
      obtain ⟨row, found, _, rfl⟩ := mem_listThreads_iff.mp (List.mem_of_mem_filter member)
      have claimant := (legit _ row (same₄ ▸ found)).claimed
      rw [Bool.eq_iff_iff, decide_eq_true_eq, truthy_iff, Option.ne_none_iff_exists']
      refine exists_congr fun p => and_iff_left_of_imp fun isClaimant => ?_
      rintro rfl
      exact claimant isClaimant
  · simp only [page, threadsList, hasLegacyIdentityInLastNDays, List.any_eq_true, decide_eq_true_eq, not_lt_cutoff_iff]

end PbChatroom
