import Mathlib.Data.List.Nodup
import Mathlib.Data.List.Sort

namespace Relational
universe u v

/-- The rows of a table in insertion order. The primary key is a field of
the structure, so a table with two rows of one key cannot be built. -/
structure Table (ρ : Type u) {κ : Type v} (key : ρ → κ) where
  rows : List ρ
  unique : (rows.map key).Nodup

namespace Table
variable {ρ : Type u} {κ : Type v} {key : ρ → κ}

theorem ext {T T' : Table ρ key} (same : T.rows = T'.rows) : T = T' := by
  cases T
  cases T'
  cases same
  rfl

def empty : Table ρ key := ⟨[], List.nodup_nil⟩

variable [DecidableEq κ]

/-- The row a `WHERE key = k` query fetches. -/
def get? (T : Table ρ key) (k : κ) : Option ρ := T.rows.find? (fun row => key row = k)

/-- `INSERT`: the primary key constraint refuses a second row of one key. -/
def insert? (T : Table ρ key) (row : ρ) : Option (Table ρ key) :=
  if taken : key row ∈ T.rows.map key then none
  else some ⟨T.rows ++ [row], by
    rw [List.map_append, List.map_singleton]
    exact List.Nodup.append T.unique (List.nodup_singleton _) (by simpa using taken)⟩

/-- `INSERT OR IGNORE`: a row whose key is taken is dropped. -/
def insertOrIgnore (T : Table ρ key) (row : ρ) : Table ρ key := (T.insert? row).getD T

/-- `UPDATE … WHERE key = k` with an assignment that leaves the key alone. -/
def update (T : Table ρ key) (k : κ) (set : ρ → ρ) (keeps : ∀ row, key (set row) = key row) : Table ρ key where
  rows := T.rows.map fun row => if key row = k then set row else row
  unique := by
    have same : (T.rows.map fun row => if key row = k then set row else row).map key = T.rows.map key := by
      rw [List.map_map]
      refine List.map_congr_left fun row _ => ?_
      simp only [Function.comp_apply]
      split <;> simp only [keeps]
    rw [same]
    exact T.unique

theorem get?_eq_some_iff {T : Table ρ key} {k : κ} {row : ρ} :
    T.get? k = some row ↔ row ∈ T.rows ∧ key row = k := by
  constructor
  · intro found
    exact ⟨List.mem_of_find?_eq_some found, by simpa using List.find?_some found⟩
  · rintro ⟨member, rfl⟩
    obtain ⟨first, found⟩ : ∃ first, T.get? (key row) = some first := by
      cases search : T.get? (key row) with
      | some first => exact ⟨first, rfl⟩
      | none =>
        have absent := List.find?_eq_none.mp search row member
        simp at absent
    have atFirst : key first = key row := by simpa using List.find?_some found
    have same : first = row :=
      List.inj_on_of_nodup_map T.unique (List.mem_of_find?_eq_some found) member atFirst
    rw [found, same]

theorem get?_eq_none_iff {T : Table ρ key} {k : κ} : T.get? k = none ↔ ∀ row ∈ T.rows, key row ≠ k := by
  simp [get?]

theorem get?_mem {T : Table ρ key} {k : κ} {row : ρ} (found : T.get? k = some row) : row ∈ T.rows :=
  (get?_eq_some_iff.mp found).1

theorem get?_key {T : Table ρ key} {k : κ} {row : ρ} (found : T.get? k = some row) : key row = k :=
  (get?_eq_some_iff.mp found).2

theorem get?_isSome_iff {T : Table ρ key} {k : κ} : (T.get? k).isSome ↔ k ∈ T.rows.map key := by
  simp [get?, List.find?_isSome]

theorem insert?_eq_some_iff {T T' : Table ρ key} {row : ρ} :
    T.insert? row = some T' ↔ T.get? (key row) = none ∧ T'.rows = T.rows ++ [row] := by
  have fresh : key row ∉ T.rows.map key ↔ T.get? (key row) = none := by
    rw [← get?_isSome_iff]
    simp
  unfold insert?
  split
  · rename_i taken
    constructor
    · intro inserted
      cases inserted
    · rintro ⟨absent, _⟩
      exact absurd taken (fresh.mpr absent)
  · rename_i free
    rw [Option.some.injEq]
    constructor
    · rintro rfl
      exact ⟨fresh.mp free, rfl⟩
    · rintro ⟨_, rows⟩
      exact Table.ext rows.symm

theorem insert?_eq_none_iff {T : Table ρ key} {row : ρ} :
    T.insert? row = none ↔ ∃ old, T.get? (key row) = some old := by
  rw [← Option.isSome_iff_exists, get?_isSome_iff]
  unfold insert?
  split <;> simp_all

/-- After a successful insertion the new row is found under its key, and
every other key is answered as before. -/
theorem get?_of_insert? {T T' : Table ρ key} {row : ρ} (inserted : T.insert? row = some T') (k : κ) :
    T'.get? k = if k = key row then some row else T.get? k := by
  obtain ⟨absent, rows⟩ := insert?_eq_some_iff.mp inserted
  unfold get? at absent ⊢
  rw [rows, List.find?_append]
  by_cases same : k = key row
  · subst same
    simp [absent]
  · rw [if_neg same]
    have other : ¬key row = k := fun h => same h.symm
    simp [other]

theorem get?_insertOrIgnore (T : Table ρ key) (row : ρ) (k : κ) :
    (T.insertOrIgnore row).get? k = if k = key row then some ((T.get? k).getD row) else T.get? k := by
  unfold insertOrIgnore
  cases inserted : T.insert? row with
  | some T' =>
    obtain ⟨absent, _⟩ := insert?_eq_some_iff.mp inserted
    rw [Option.getD_some, get?_of_insert? inserted]
    split
    · rename_i same
      rw [same, absent, Option.getD_none]
    · rfl
  | none =>
    obtain ⟨old, found⟩ := insert?_eq_none_iff.mp inserted
    rw [Option.getD_none]
    split
    · rename_i same
      rw [same, found, Option.getD_some]
    · rfl

theorem get?_update (T : Table ρ key) (k : κ) (set : ρ → ρ) (keeps : ∀ row, key (set row) = key row) (k' : κ) :
    (T.update k set keeps).get? k' = if k' = k then (T.get? k').map set else T.get? k' := by
  have query : (fun row => decide (key row = k')) ∘ (fun row => if key row = k then set row else row) =
      fun row => decide (key row = k') := by
    funext row
    simp only [Function.comp_apply]
    split <;> simp only [keeps]
  unfold get? update
  simp only [List.find?_map, query]
  cases found : T.rows.find? (fun row => key row = k') with
  | none => simp
  | some row =>
    have atRow : key row = k' := by simpa using List.find?_some found
    simp only [Option.map_some, atRow]
    split <;> rfl

/-- A selection by what the assignment leaves alone gives the same rows, some
of them assigned to. -/
theorem filter_update (T : Table ρ key) (k : κ) (set : ρ → ρ) (keeps : ∀ row, key (set row) = key row)
    {query : ρ → Bool} (stays : ∀ row, query (set row) = query row) :
    (T.update k set keeps).rows.filter query =
      (T.rows.filter query).map fun row => if key row = k then set row else row := by
  have same : query ∘ (fun row => if key row = k then set row else row) = query := by
    funext row
    rw [Function.comp_apply]
    split
    · exact stays row
    · rfl
  rw [update, List.filter_map, same]

theorem rows_insertOrIgnore (T : Table ρ key) (row : ρ) :
    (T.insertOrIgnore row).rows = T.rows ++ if T.get? (key row) = none then [row] else [] := by
  unfold insertOrIgnore
  cases inserted : T.insert? row with
  | some T' =>
    obtain ⟨absent, rows⟩ := insert?_eq_some_iff.mp inserted
    rw [Option.getD_some, rows, if_pos absent]
  | none =>
    obtain ⟨old, found⟩ := insert?_eq_none_iff.mp inserted
    rw [Option.getD_none, found, if_neg (Option.some_ne_none old), List.append_nil]

theorem update_of_absent {T : Table ρ key} {k : κ} {set : ρ → ρ} (keeps : ∀ row, key (set row) = key row)
    (absent : T.get? k = none) : T.update k set keeps = T := by
  apply Table.ext
  have other := get?_eq_none_iff.mp absent
  calc T.rows.map (fun row => if key row = k then set row else row)
      = T.rows.map id := List.map_congr_left fun row member => if_neg (other row member)
    _ = T.rows := List.map_id _

/-- An assignment that changes nothing in the rows it reaches is no change. -/
theorem update_of_fixed {T : Table ρ key} {k : κ} {set : ρ → ρ} (keeps : ∀ row, key (set row) = key row)
    (fixed : ∀ row, T.get? k = some row → set row = row) : T.update k set keeps = T := by
  cases found : T.get? k with
  | none => exact update_of_absent keeps found
  | some old =>
    apply Table.ext
    calc T.rows.map (fun row => if key row = k then set row else row)
        = T.rows.map id := by
          refine List.map_congr_left fun row member => ?_
          split
          · rename_i atRow
            exact fixed row (get?_eq_some_iff.mpr ⟨member, atRow⟩)
          · rfl
      _ = T.rows := List.map_id _

/-- Every old row is still found under its key, related to what it was. -/
def Extends (R : ρ → ρ → Prop) (T T' : Table ρ key) : Prop :=
  ∀ k row, T.get? k = some row → ∃ row', T'.get? k = some row' ∧ R row row'

theorem Extends.refl {R : ρ → ρ → Prop} (reflexive : ∀ row, R row row) (T : Table ρ key) : T.Extends R T :=
  fun _ row found => ⟨row, found, reflexive row⟩

theorem Extends.trans {R : ρ → ρ → Prop} (transitive : ∀ a b c, R a b → R b c → R a c) {T T' T'' : Table ρ key}
    (first : T.Extends R T') (second : T'.Extends R T'') : T.Extends R T'' := by
  intro k row found
  obtain ⟨middle, found', step⟩ := first k row found
  obtain ⟨last, found'', step'⟩ := second k middle found'
  exact ⟨last, found'', transitive _ _ _ step step'⟩

theorem Extends.insertOrIgnore {R : ρ → ρ → Prop} (reflexive : ∀ row, R row row) (T : Table ρ key) (new : ρ) :
    T.Extends R (T.insertOrIgnore new) := by
  intro k row found
  refine ⟨row, ?_, reflexive row⟩
  rw [get?_insertOrIgnore, found]
  split <;> rfl

theorem Extends.update {R : ρ → ρ → Prop} (reflexive : ∀ row, R row row) (T : Table ρ key) (k : κ)
    {set : ρ → ρ} (keeps : ∀ row, key (set row) = key row) (step : ∀ row, R row (set row)) :
    T.Extends R (T.update k set keeps) := by
  intro k' row found
  rw [get?_update, found]
  split
  · exact ⟨set row, rfl, step row⟩
  · exact ⟨row, rfl, reflexive row⟩

end Table

section OrderBy
variable {ρ : Type u} (le : ρ → ρ → Prop) [DecidableRel le]

/-- `ORDER BY`: rows that compare equal stay in insertion order. -/
def orderBy (rows : List ρ) : List ρ := rows.insertionSort le

theorem mem_orderBy {row : ρ} {rows : List ρ} : row ∈ orderBy le rows ↔ row ∈ rows :=
  (List.perm_insertionSort le rows).mem_iff

theorem orderBy_eq_nil_iff {rows : List ρ} : orderBy le rows = [] ↔ rows = [] := by
  unfold orderBy
  rw [← List.length_eq_zero_iff, ← List.length_eq_zero_iff, (List.perm_insertionSort le rows).length_eq]

/-- A first row that no later row precedes is returned first. -/
theorem orderBy_cons_of_le {row : ρ} {rows : List ρ} (least : ∀ other ∈ rows, le row other) :
    orderBy le (row :: rows) = row :: orderBy le rows := by
  unfold orderBy
  rw [List.insertionSort_cons]
  cases sorted : rows.insertionSort le with
  | nil => rfl
  | cons first rest =>
    have member : first ∈ rows := (mem_orderBy le).mp (by rw [orderBy, sorted]; exact List.mem_cons_self ..)
    rw [List.orderedInsert, if_pos (least first member)]

theorem orderBy_head_le [Std.Total le] [IsTrans ρ le] {first : ρ} {rest rows : List ρ}
    (sorted : orderBy le rows = first :: rest) {row : ρ} (member : row ∈ rows) : row = first ∨ le first row := by
  have ordered := List.pairwise_insertionSort le rows
  rw [orderBy] at sorted
  rw [sorted, List.pairwise_cons] at ordered
  have inSorted : row ∈ first :: rest := by rwa [← sorted, ← orderBy, mem_orderBy]
  rcases List.mem_cons.mp inSorted with same | later
  · exact Or.inl same
  · exact Or.inr (ordered.1 row later)

/-- A first row is returned first exactly when no later row precedes it. -/
theorem head?_orderBy_cons [Std.Total le] [IsTrans ρ le] {row : ρ} {rows : List ρ} :
    (orderBy le (row :: rows)).head? = some row ↔ ∀ other ∈ rows, le row other := by
  constructor
  · intro head other member
    obtain ⟨rest, sorted⟩ : ∃ rest, orderBy le (row :: rows) = row :: rest := ⟨_, List.eq_cons_of_mem_head? head⟩
    rcases orderBy_head_le le sorted (List.mem_cons_of_mem row member) with rfl | precedes
    · exact or_self_iff.mp (Std.Total.total other other)
    · exact precedes
  · intro least
    rw [orderBy_cons_of_le le least, List.head?_cons]

/-- A first row that some later row precedes does not come out first. -/
theorem head?_orderBy_cons_of_not [Std.Total le] [IsTrans ρ le] {row : ρ} {rows : List ρ}
    (preceded : ¬∀ other ∈ rows, le row other) : (orderBy le (row :: rows)).head? = (orderBy le rows).head? := by
  rw [orderBy, List.insertionSort_cons, ← orderBy]
  cases sorted : orderBy le rows with
  | nil =>
    rw [orderBy_eq_nil_iff] at sorted
    subst sorted
    exact absurd (fun _ member => nomatch member) preceded
  | cons first rest =>
    rw [List.orderedInsert, if_neg, List.head?_cons, List.head?_cons]
    intro least
    refine preceded fun other member => ?_
    rcases orderBy_head_le le sorted member with rfl | below
    · exact least
    · exact IsTrans.trans _ _ _ least below

/-- Rows that are added and do not precede the first leave it first. -/
theorem head?_orderBy_append [Std.Total le] [IsTrans ρ le] {first : ρ} {rows new : List ρ}
    (head : (orderBy le rows).head? = some first) (behind : ∀ row ∈ new, le first row) :
    (orderBy le (rows ++ new)).head? = some first := by
  induction rows with
  | nil => cases head
  | cons row rows ih =>
    rw [List.cons_append]
    by_cases least : ∀ other ∈ rows, le row other
    · rw [(head?_orderBy_cons le).mpr least] at head
      cases head
      refine (head?_orderBy_cons le).mpr fun other member => ?_
      exact (List.mem_append.mp member).elim (least other) (behind other)
    · rw [head?_orderBy_cons_of_not le least] at head
      rw [head?_orderBy_cons_of_not le fun all => least fun other member => all other (List.mem_append_left _ member)]
      exact ih head

theorem orderBy_congr {le' : ρ → ρ → Prop} [DecidableRel le'] {rows : List ρ}
    (same : ∀ row ∈ rows, ∀ other ∈ rows, le row other ↔ le' row other) : orderBy le rows = orderBy le' rows := by
  induction rows with
  | nil => rfl
  | cons row rows ih =>
    have rest := ih fun a inRows b inRows' => same a (List.mem_cons_of_mem _ inRows) b (List.mem_cons_of_mem _ inRows')
    have first : ∀ others : List ρ, (∀ other ∈ others, other ∈ rows) →
        others.orderedInsert le row = others.orderedInsert le' row := by
      intro others
      induction others with
      | nil => exact fun _ => rfl
      | cons other others ih' =>
        intro inRows
        have member := inRows other (List.mem_cons_self ..)
        have here := same row (List.mem_cons_self ..) other (List.mem_cons_of_mem _ member)
        rw [List.orderedInsert, List.orderedInsert, ih' fun o member => inRows o (List.mem_cons_of_mem _ member)]
        simp only [here]
    rw [orderBy, orderBy, List.insertionSort_cons, List.insertionSort_cons, ← orderBy, ← orderBy, ← rest]
    exact first _ fun other member => (mem_orderBy le).mp member

/-- The rows come out in some other order exactly when that order agrees with
the one they are sorted by; `ties` is about rows that compare equal. -/
theorem pairwise_orderBy_iff [Std.Total le] [IsTrans ρ le] {R : ρ → ρ → Prop} {rows : List ρ}
    (ties : ∀ row other, le row other → le other row → R row other) :
    (orderBy le rows).Pairwise R ↔ ∀ row ∈ rows, ∀ other ∈ rows, le row other → R row other := by
  have sorted : (orderBy le rows).Pairwise le := List.pairwise_insertionSort le rows
  constructor
  · intro ordered row member other member'
    refine List.Pairwise.forall_of_forall_of_flip (R := fun x y => le x y → R x y) ?_ ?_ ?_
      ((mem_orderBy le).mpr member) ((mem_orderBy le).mpr member')
    · exact fun x _ reflexive => ties x x reflexive reflexive
    · exact ordered.imp (S := fun x y => le x y → R x y) fun related _ => related
    · exact sorted.imp fun forth back => ties _ _ back forth
  · intro agrees
    exact sorted.imp_of_mem fun member member' precedes =>
      agrees _ ((mem_orderBy le).mp member) _ ((mem_orderBy le).mp member') precedes

/-- Of more rows more come out, and the old ones in the same order. -/
theorem orderBy_sublist [Std.Total le] [IsTrans ρ le] {rows rows' : List ρ} (fewer : rows.Sublist rows') :
    (orderBy le rows).Sublist (orderBy le rows') := by
  induction fewer with
  | slnil => exact .slnil
  | cons row _ ih => exact ih.trans (List.sublist_orderedInsert ..)
  | cons_cons row _ ih => exact ih.orderedInsert_sublist row (List.pairwise_insertionSort le _)

/-- `WHERE` and `ORDER BY` can be exchanged. -/
theorem orderBy_filter [Std.Total le] [IsTrans ρ le] (query : ρ → Bool) (rows : List ρ) :
    orderBy le (rows.filter query) = (orderBy le rows).filter query := by
  have selected : (orderBy le (rows.filter query)).filter query = orderBy le (rows.filter query) :=
    List.filter_eq_self.mpr fun row member => (List.mem_filter.mp ((mem_orderBy le).mp member)).2
  have fewer := (orderBy_sublist le (List.filter_sublist (p := query) (l := rows))).filter query
  rw [selected] at fewer
  refine fewer.eq_of_length ?_
  calc (orderBy le (rows.filter query)).length
      = (rows.filter query).length := (List.perm_insertionSort le _).length_eq
    _ = ((orderBy le rows).filter query).length := ((List.perm_insertionSort le rows).filter query).length_eq.symm

end OrderBy

end Relational
