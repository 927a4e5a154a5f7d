import Mathlib.Tactic.Ring
import PbChatroom.Lib.TextOrder

namespace TextOrder

def IsDigits (text : List Char) : Prop := ∀ c ∈ text, ∃ k < 10, c = digit k

/-- The number that a text of digits stands for. -/
def decimal : List Char → Nat
  | [] => 0
  | c :: cs => (c.toNat - '0'.toNat) * 10 ^ cs.length + decimal cs

/-- `gs` digits behind the point are at most what `fs` digits behind the point are. -/
def FractionLe (gs fs : List Char) : Prop := decimal gs * 10 ^ fs.length ≤ decimal fs * 10 ^ gs.length

instance : DecidableRel FractionLe := fun _ _ => inferInstanceAs (Decidable (_ ≤ _))

theorem digit_value {k : Nat} (bound : k < 10) : (digit k).toNat - '0'.toNat = k := by
  have table : ∀ i : Fin 10, (digit i.val).toNat - '0'.toNat = i.val := by decide
  exact table ⟨k, bound⟩

theorem decimal_cons {k : Nat} (bound : k < 10) (cs : List Char) :
    decimal (digit k :: cs) = k * 10 ^ cs.length + decimal cs := by
  rw [decimal, digit_value bound]

theorem decimal_append (as bs : List Char) : decimal (as ++ bs) = decimal as * 10 ^ bs.length + decimal bs := by
  induction as with
  | nil => simp [decimal]
  | cons a as ih =>
    rw [List.cons_append, decimal, decimal, ih, List.length_append, Nat.pow_add]
    ring

theorem isDigits_cons {c : Char} {cs : List Char} (digits : IsDigits (c :: cs)) :
    (∃ k < 10, c = digit k) ∧ IsDigits cs :=
  ⟨digits c (List.mem_cons_self ..), fun d member => digits d (List.mem_cons_of_mem _ member)⟩

theorem isDigits_padded (width n : Nat) : IsDigits (padded width n) := fun _ member => mem_padded member

theorem decimal_lt {cs : List Char} (digits : IsDigits cs) : decimal cs < 10 ^ cs.length := by
  induction cs with
  | nil => decide
  | cons c cs ih =>
    obtain ⟨⟨k, bound, rfl⟩, rest⟩ := isDigits_cons digits
    have below := ih rest
    have room : k * 10 ^ cs.length + 10 ^ cs.length ≤ 10 * 10 ^ cs.length := by
      rw [← Nat.succ_mul]
      exact Nat.mul_le_mul_right _ bound
    rw [decimal_cons bound, List.length_cons, Nat.pow_succ, Nat.mul_comm _ 10]
    omega

theorem decimal_padded {width n : Nat} (bound : n < 10 ^ width) : decimal (padded width n) = n := by
  induction width generalizing n with
  | zero =>
    simp only [Nat.pow_zero, Nat.lt_one_iff] at bound
    rw [padded, decimal, bound]
  | succ width ih =>
    have quotient : n / 10 < 10 ^ width := by rw [Nat.pow_succ] at bound; omega
    rw [padded, decimal_append, ih quotient, decimal_cons (Nat.mod_lt n (by decide))]
    simp only [List.length_singleton, List.length_nil, decimal]
    omega

theorem fractionLe_nil (fs : List Char) : FractionLe [] fs := by
  rw [FractionLe, decimal, Nat.zero_mul]
  exact Nat.zero_le _

theorem fractionLe_nil_iff {gs : List Char} : FractionLe gs [] ↔ decimal gs = 0 := by
  rw [FractionLe, decimal, Nat.zero_mul, List.length_nil, Nat.pow_zero, Nat.mul_one, Nat.le_zero]

/-- Fractions are compared digit by digit. -/
theorem fractionLe_cons_iff {j k : Nat} {gs fs : List Char} (hj : j < 10) (hk : k < 10) (digitsG : IsDigits gs)
    (digitsF : IsDigits fs) : FractionLe (digit j :: gs) (digit k :: fs) ↔ j < k ∨ j = k ∧ FractionLe gs fs := by
  have belowG : decimal gs * 10 ^ fs.length < 10 ^ gs.length * 10 ^ fs.length :=
    Nat.mul_lt_mul_of_pos_right (decimal_lt digitsG) (Nat.pow_pos (by decide))
  have belowF : decimal fs * 10 ^ gs.length < 10 ^ fs.length * 10 ^ gs.length :=
    Nat.mul_lt_mul_of_pos_right (decimal_lt digitsF) (Nat.pow_pos (by decide))
  rw [Nat.mul_comm (10 ^ fs.length)] at belowF
  have spread : FractionLe (digit j :: gs) (digit k :: fs) ↔
      j * (10 ^ gs.length * 10 ^ fs.length) + decimal gs * 10 ^ fs.length ≤
        k * (10 ^ gs.length * 10 ^ fs.length) + decimal fs * 10 ^ gs.length := by
    rw [FractionLe, decimal_cons hj, decimal_cons hk, List.length_cons, List.length_cons, Nat.pow_succ, Nat.pow_succ]
    have left : (j * 10 ^ gs.length + decimal gs) * (10 ^ fs.length * 10) =
        10 * (j * (10 ^ gs.length * 10 ^ fs.length) + decimal gs * 10 ^ fs.length) := by ring
    have right : (k * 10 ^ fs.length + decimal fs) * (10 ^ gs.length * 10) =
        10 * (k * (10 ^ gs.length * 10 ^ fs.length) + decimal fs * 10 ^ gs.length) := by ring
    rw [left, right]
    omega
  rw [spread, FractionLe]
  generalize 10 ^ gs.length * 10 ^ fs.length = unit at belowG belowF ⊢
  rcases Nat.lt_trichotomy j k with less | rfl | more
  · have room : j * unit + unit ≤ k * unit := by
      rw [← Nat.succ_mul]
      exact Nat.mul_le_mul_right _ less
    exact iff_of_true (by omega) (Or.inl less)
  · simp only [Nat.lt_irrefl, true_and, false_or]
    omega
  · have room : k * unit + unit ≤ j * unit := by
      rw [← Nat.succ_mul]
      exact Nat.mul_le_mul_right _ more
    exact iff_of_false (by omega) (by omega)

/-- The two ways to write that a time is in UTC. -/
inductive Suffix where
  | zulu
  | offset
  deriving DecidableEq, Repr

def Suffix.text : Suffix → List Char
  | .zulu => ['Z']
  | .offset => ['+', '0', '0', ':', '0', '0']

/-- A fraction of a second, left out when it has no digits, and the suffix. -/
def fractionText (fs : List Char) (s : Suffix) : List Char := (if fs = [] then [] else '.' :: fs) ++ s.text

/-- Where the order of texts goes wrong about two fractions: one of them is the
other with more digits behind, and the first of these is compared with the suffix
of the other. -/
def Misjudged (fs : List Char) (s : Suffix) (gs : List Char) (t : Suffix) : Prop :=
  if fs = gs then s = .offset ∧ t = .zulu
  else if fs <+: gs then s = .offset ↔ decimal (gs.drop fs.length) = 0
  else gs <+: fs ∧ t = .zulu

instance (fs : List Char) (s : Suffix) (gs : List Char) (t : Suffix) : Decidable (Misjudged fs s gs t) := by
  unfold Misjudged
  infer_instance

theorem offset_lt_digit (k : Nat) (bound : k < 10) : '+' < digit k := by
  have table : ∀ i : Fin 10, '+' < digit i.val := by decide
  exact table ⟨k, bound⟩

theorem digit_lt_zulu (k : Nat) (bound : k < 10) : digit k < 'Z' := by
  have table : ∀ i : Fin 10, digit i.val < 'Z' := by decide
  exact table ⟨k, bound⟩

/-- The suffix sorts before all digits or behind them. -/
theorem suffix_lt_digits_iff {s : Suffix} {k : Nat} (bound : k < 10) (rest : List Char) :
    s.text < digit k :: rest ↔ s = .offset := by
  have above := digit_lt_zulu k bound
  cases s with
  | zulu =>
    simp only [Suffix.text, List.cons_lt_cons_iff, reduceCtorEq, iff_false, not_or]
    exact ⟨lt_asymm above, fun same => ne_of_lt above same.1.symm⟩
  | offset => simp only [Suffix.text, List.cons_lt_cons_iff, offset_lt_digit k bound, true_or]

theorem digits_lt_suffix_iff {t : Suffix} {k : Nat} (bound : k < 10) (rest : List Char) :
    digit k :: rest < t.text ↔ t = .zulu := by
  have below := offset_lt_digit k bound
  cases t with
  | zulu => simp only [Suffix.text, List.cons_lt_cons_iff, digit_lt_zulu k bound, true_or]
  | offset =>
    simp only [Suffix.text, List.cons_lt_cons_iff, reduceCtorEq, iff_false, not_or]
    exact ⟨lt_asymm below, fun same => ne_of_lt below same.1.symm⟩

theorem suffix_lt_iff {s t : Suffix} : s.text < t.text ↔ s = .offset ∧ t = .zulu := by
  cases s <;> cases t <;> decide

theorem misjudged_cons_iff {c d : Char} {fs gs : List Char} {s t : Suffix} :
    Misjudged (c :: fs) s (d :: gs) t ↔ c = d ∧ Misjudged fs s gs t := by
  by_cases same : c = d
  · subst same
    simp only [Misjudged, List.cons.injEq, true_and, List.prefix_cons_inj, List.length_cons, List.drop_succ_cons]
  · have apart : ¬c :: fs <+: d :: gs := fun first => same (List.cons_prefix_cons.mp first).1
    have apart' : ¬d :: gs <+: c :: fs := fun first => same (List.cons_prefix_cons.mp first).1.symm
    simp only [Misjudged, List.cons.injEq, same, false_and, if_false, apart, apart']

/-- Texts of two fractions with their suffixes are ordered as the fractions,
except for the pairs that are misjudged. -/
theorem fraction_lt_iff {fs gs : List Char} {s t : Suffix} (digitsF : IsDigits fs) (digitsG : IsDigits gs) :
    (fs ++ s.text < gs ++ t.text ↔ ¬FractionLe gs fs) ↔ ¬Misjudged fs s gs t := by
  induction fs generalizing gs with
  | nil =>
    cases gs with
    | nil => simp [suffix_lt_iff, fractionLe_nil, Misjudged]
    | cons d gs =>
      obtain ⟨⟨k, bound, rfl⟩, -⟩ := isDigits_cons digitsG
      simp only [List.nil_append, List.cons_append, suffix_lt_digits_iff bound, fractionLe_nil_iff, Misjudged,
        List.nil_eq, reduceCtorEq, if_false, List.nil_prefix, if_true, List.length_nil, List.drop_zero]
      tauto
  | cons c fs ih =>
    obtain ⟨⟨k, boundF, rfl⟩, restF⟩ := isDigits_cons digitsF
    cases gs with
    | nil =>
      simp only [List.nil_append, List.cons_append, digits_lt_suffix_iff boundF, fractionLe_nil, not_true_eq_false,
        iff_false, Misjudged, reduceCtorEq, if_false, List.prefix_nil, List.nil_prefix, true_and]
    | cons d gs =>
      obtain ⟨⟨j, boundG, rfl⟩, restG⟩ := isDigits_cons digitsG
      rw [List.cons_append, List.cons_append, List.cons_lt_cons_iff, digit_lt_iff boundF boundG,
        digit_inj boundF boundG, fractionLe_cons_iff boundG boundF restG restF, misjudged_cons_iff,
        digit_inj boundF boundG]
      rcases Nat.lt_trichotomy k j with less | rfl | more
      · exact iff_of_true (iff_of_true (Or.inl less) (by omega)) (by omega)
      · simpa only [Nat.lt_irrefl, false_or, true_and] using ih restF restG
      · exact iff_of_true (iff_of_false (by omega) (by omega)) (by omega)

/-- The dot in front of a fraction changes nothing: it sorts between the two
suffixes, as the digits do. -/
theorem fractionText_lt_iff {fs gs : List Char} {s t : Suffix} (digitsF : IsDigits fs) (digitsG : IsDigits gs) :
    fractionText fs s < fractionText gs t ↔ fs ++ s.text < gs ++ t.text := by
  have suffixDot : ∀ rest, s.text < '.' :: rest ↔ s = .offset := by
    intro rest
    cases s <;> simp [Suffix.text, List.cons_lt_cons_iff]
  have dotSuffix : ∀ rest, '.' :: rest < t.text ↔ t = .zulu := by
    intro rest
    cases t <;> simp [Suffix.text, List.cons_lt_cons_iff]
  cases fs with
  | nil =>
    cases gs with
    | nil => rfl
    | cons d gs =>
      obtain ⟨⟨j, boundG, rfl⟩, -⟩ := isDigits_cons digitsG
      simp [fractionText, suffixDot, suffix_lt_digits_iff boundG]
  | cons c fs =>
    cases gs with
    | nil =>
      obtain ⟨⟨k, boundF, rfl⟩, -⟩ := isDigits_cons digitsF
      simp [fractionText, dotSuffix, digits_lt_suffix_iff boundF]
    | cons d gs => simp [fractionText, List.cons_lt_cons_iff]

end TextOrder
