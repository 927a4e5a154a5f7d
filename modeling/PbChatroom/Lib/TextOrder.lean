import Mathlib.Algebra.Group.Nat.Defs
import Mathlib.Data.Char
import Mathlib.Data.List.Lex
import Mathlib.Tactic.Common

namespace TextOrder

/-- Texts of one length decide the order of two texts that they start, unless
they are the same; then the rests decide it. -/
theorem append_lt_append_iff {α : Type} [LT α] {xs ys as bs : List α} (length : xs.length = ys.length) :
    xs ++ as < ys ++ bs ↔ xs < ys ∨ xs = ys ∧ as < bs := by
  induction xs generalizing ys with
  | nil =>
    cases ys with
    | nil => simp
    | cons => simp at length
  | cons x xs ih =>
    cases ys with
    | nil => simp at length
    | cons y ys =>
      simp only [List.length_cons, Nat.add_right_cancel_iff] at length
      simp only [List.cons_append, List.cons_lt_cons_iff, ih length, List.cons.injEq]
      constructor
      · rintro (less | ⟨same, less | ⟨rest, less⟩⟩)
        · exact Or.inl (Or.inl less)
        · exact Or.inl (Or.inr ⟨same, less⟩)
        · exact Or.inr ⟨⟨same, rest⟩, less⟩
      · rintro ((less | ⟨same, less⟩) | ⟨⟨same, rest⟩, less⟩)
        · exact Or.inl less
        · exact Or.inr ⟨same, Or.inl less⟩
        · exact Or.inr ⟨same, Or.inr ⟨rest, less⟩⟩

def digit (n : Nat) : Char := Char.ofNat ('0'.toNat + n)

theorem digit_lt_iff {m n : Nat} (hm : m < 10) (hn : n < 10) : digit m < digit n ↔ m < n := by
  have table : ∀ i j : Fin 10, digit i.val < digit j.val ↔ i.val < j.val := by decide
  exact table ⟨m, hm⟩ ⟨n, hn⟩

theorem digit_inj {m n : Nat} (hm : m < 10) (hn : n < 10) : digit m = digit n ↔ m = n := by
  have table : ∀ i j : Fin 10, digit i.val = digit j.val ↔ i.val = j.val := by decide
  exact table ⟨m, hm⟩ ⟨n, hn⟩

/-- The decimal digits of a number, filled up with zeros to a fixed width. -/
def padded : Nat → Nat → List Char
  | 0, _ => []
  | width + 1, n => padded width (n / 10) ++ [digit (n % 10)]

@[simp] theorem padded_length (width n : Nat) : (padded width n).length = width := by
  induction width generalizing n with
  | zero => rfl
  | succ width ih => simp [padded, ih]

theorem padded_inj {width m n : Nat} (hm : m < 10 ^ width) (hn : n < 10 ^ width) :
    padded width m = padded width n ↔ m = n := by
  induction width generalizing m n with
  | zero =>
    simp only [Nat.pow_zero, Nat.lt_one_iff] at hm hn
    simp [padded, hm, hn]
  | succ width ih =>
    have quotientM : m / 10 < 10 ^ width := by rw [Nat.pow_succ] at hm; omega
    have quotientN : n / 10 < 10 ^ width := by rw [Nat.pow_succ] at hn; omega
    simp only [padded, List.append_singleton_inj, ih quotientM quotientN,
      digit_inj (Nat.mod_lt m (by decide)) (Nat.mod_lt n (by decide))]
    omega

theorem padded_lt_iff {width m n : Nat} (hm : m < 10 ^ width) (hn : n < 10 ^ width) :
    padded width m < padded width n ↔ m < n := by
  induction width generalizing m n with
  | zero =>
    simp only [Nat.pow_zero, Nat.lt_one_iff] at hm hn
    simp [padded, hm, hn]
  | succ width ih =>
    have quotientM : m / 10 < 10 ^ width := by rw [Nat.pow_succ] at hm; omega
    have quotientN : n / 10 < 10 ^ width := by rw [Nat.pow_succ] at hn; omega
    have last : [digit (m % 10)] < [digit (n % 10)] ↔ m % 10 < n % 10 := by
      simp [List.cons_lt_cons_iff, digit_lt_iff (Nat.mod_lt m (by decide)) (Nat.mod_lt n (by decide))]
    simp only [padded]
    rw [append_lt_append_iff (by simp), ih quotientM quotientN, padded_inj quotientM quotientN, last]
    omega

theorem mem_padded {width n : Nat} {c : Char} (member : c ∈ padded width n) : ∃ k < 10, c = digit k := by
  induction width generalizing n with
  | zero => simp [padded] at member
  | succ width ih =>
    rcases List.mem_append.mp member with earlier | last
    · exact ih earlier
    · exact ⟨n % 10, Nat.mod_lt n (by decide), List.mem_singleton.mp last⟩

/-- Values in fields of fixed width, each followed by its separator. -/
def render : List (Nat × List Char) → List Nat → List Char
  | (width, separator) :: layout, v :: vs => padded width v ++ (separator ++ render layout vs)
  | _, _ => []

def Fits : List (Nat × List Char) → List Nat → Prop
  | (width, _) :: layout, v :: vs => v < 10 ^ width ∧ Fits layout vs
  | [], [] => True
  | _, _ => False

/-- A rendered text has no characters beyond digits and separators. -/
theorem mem_render {layout : List (Nat × List Char)} {vs : List Nat} {c : Char} (member : c ∈ render layout vs) :
    (∃ k < 10, c = digit k) ∨ ∃ field ∈ layout, c ∈ field.2 := by
  induction layout generalizing vs with
  | nil => simp [render] at member
  | cons field layout ih =>
    cases vs with
    | nil => simp [render] at member
    | cons v vs =>
      simp only [render, List.mem_append] at member
      rcases member with value | separator | rest
      · exact Or.inl (mem_padded value)
      · exact Or.inr ⟨field, List.mem_cons_self .., separator⟩
      · rcases ih rest with isDigit | ⟨other, inLayout, inSeparator⟩
        · exact Or.inl isDigit
        · exact Or.inr ⟨other, List.mem_cons_of_mem _ inLayout, inSeparator⟩

theorem render_length {layout : List (Nat × List Char)} {us vs : List Nat} (hu : Fits layout us)
    (hv : Fits layout vs) : (render layout us).length = (render layout vs).length := by
  induction layout generalizing us vs with
  | nil => rfl
  | cons field layout ih =>
    obtain ⟨width, separator⟩ := field
    cases us with
    | nil => exact hu.elim
    | cons u us =>
      cases vs with
      | nil => exact hv.elim
      | cons v vs => simp only [render, List.length_append, padded_length, ih hu.2 hv.2]

theorem render_inj {layout : List (Nat × List Char)} {us vs : List Nat} (hu : Fits layout us)
    (hv : Fits layout vs) : render layout us = render layout vs ↔ us = vs := by
  induction layout generalizing us vs with
  | nil =>
    cases us with
    | cons => exact hu.elim
    | nil =>
      cases vs with
      | cons => exact hv.elim
      | nil => simp
  | cons field layout ih =>
    obtain ⟨width, separator⟩ := field
    cases us with
    | nil => exact hu.elim
    | cons u us =>
      cases vs with
      | nil => exact hv.elim
      | cons v vs =>
        simp only [render, List.cons.injEq, ← ih hu.2 hv.2, ← padded_inj hu.1 hv.1]
        constructor
        · intro same
          obtain ⟨first, rest⟩ := List.append_inj same (by simp)
          exact ⟨first, List.append_cancel_left rest⟩
        · rintro ⟨first, rest⟩
          rw [first, rest]

/-- Texts of one fixed layout are ordered as the lists of their values. -/
theorem render_lt_iff {layout : List (Nat × List Char)} {us vs : List Nat} (hu : Fits layout us)
    (hv : Fits layout vs) : render layout us < render layout vs ↔ us < vs := by
  induction layout generalizing us vs with
  | nil =>
    cases us with
    | cons => exact hu.elim
    | nil =>
      cases vs with
      | cons => exact hv.elim
      | nil => simp [render]
  | cons field layout ih =>
    obtain ⟨width, separator⟩ := field
    cases us with
    | nil => exact hu.elim
    | cons u us =>
      cases vs with
      | nil => exact hv.elim
      | cons v vs =>
        simp only [render, List.cons_lt_cons_iff]
        rw [append_lt_append_iff (by simp), append_lt_append_iff rfl, padded_lt_iff hu.1 hv.1, padded_inj hu.1 hv.1,
          ih hu.2 hv.2]
        simp

end TextOrder
