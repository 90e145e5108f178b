import Mathlib.Algebra.GroupWithZero.Nat
import Mathlib.Data.List.Induction

/-! Decimal numerals of a fixed width: how they are read back, and that their order as texts
is the order of the numbers.
-/

namespace Codrik.Encoding

/-- The numeral of the last `width` digits of a number. -/
def numeral : Nat → Nat → List Char
  | 0, _ => []
  | width + 1, n => numeral width (n / 10) ++ [Nat.digitChar (n % 10)]

/-- The value of a digit. -/
def digitValue (c : Char) : Nat := c.toNat - 48

/-- The number a numeral stands for. -/
def numeralValue (digits : List Char) : Nat :=
  digits.foldl (fun value digit => value * 10 + digitValue digit) 0

@[simp] theorem numeralValue_concat (digits : List Char) (digit : Char)
    : numeralValue (digits ++ [digit]) = numeralValue digits * 10 + digitValue digit := by
  rw [numeralValue, List.foldl_append]
  rfl

theorem digitValue_digitChar {n : Nat} (small : n < 10) : digitValue (Nat.digitChar n) = n := by
  match n, small with
  | 0, _ | 1, _ | 2, _ | 3, _ | 4, _ | 5, _ | 6, _ | 7, _ | 8, _ | 9, _ => rfl

theorem digitChar_lt {a b : Nat} (less : a < b) (small : b < 10)
    : Nat.digitChar a < Nat.digitChar b := by
  have first := digitValue_digitChar (Nat.lt_trans less small)
  have second := digitValue_digitChar small
  refine Char.lt_def.mpr (UInt32.lt_iff_toNat_lt.mpr ?_)
  change (Nat.digitChar a).toNat < (Nat.digitChar b).toNat
  unfold digitValue at first second
  omega

theorem isDigit_iff_bounds {c : Char} : c.isDigit = true ↔ 48 ≤ c.toNat ∧ c.toNat ≤ 57 :=
  Char.isDigit_iff_toNat

/-- A digit is the character of its value. -/
theorem digitChar_digitValue {c : Char} (digit : c.isDigit = true)
    : Nat.digitChar (digitValue c) = c ∧ digitValue c < 10 := by
  rw [isDigit_iff_bounds] at digit
  have small : digitValue c < 10 := by
    unfold digitValue
    omega
  refine ⟨Char.toNat_inj.mp ?_, small⟩
  have back := digitValue_digitChar small
  have own : (Nat.digitChar (digitValue c)).isDigit = true := by
    rw [Nat.isDigit_digitChar]
    exact decide_eq_true small
  rw [isDigit_iff_bounds] at own
  unfold digitValue at back own ⊢
  omega

@[simp] theorem length_numeral (width n : Nat) : (numeral width n).length = width := by
  induction width generalizing n with
  | zero => rfl
  | succ width ih => rw [numeral, List.length_append, ih, List.length_singleton]

/-- A numeral consists of digits, by induction on its width. -/
theorem isDigit_numeral {width n : Nat} : ∀ c ∈ numeral width n, c.isDigit = true := by
  induction width generalizing n with
  | zero => exact fun c mem => absurd mem List.not_mem_nil
  | succ width ih =>
      intro c mem
      rcases List.mem_append.mp mem with earlier | last
      · exact ih c earlier
      · rw [List.mem_singleton.mp last, Nat.isDigit_digitChar]
        exact decide_eq_true (Nat.mod_lt _ (by decide))

/-- A numeral that is wide enough stands for its number, by induction on its width. -/
theorem numeralValue_numeral {width n : Nat} (fits : n < 10 ^ width)
    : numeralValue (numeral width n) = n := by
  induction width generalizing n with
  | zero =>
      rw [Nat.pow_zero] at fits
      rw [Nat.lt_one_iff.mp fits]
      rfl
  | succ width ih =>
      have upper : n / 10 < 10 ^ width := by
        rw [Nat.pow_succ] at fits
        omega
      rw [numeral, numeralValue_concat, ih upper,
        digitValue_digitChar (Nat.mod_lt _ (by decide))]
      omega

/-- Digits are the numeral of their value, by induction on them from the back. -/
theorem numeral_numeralValue {digits : List Char} (all : ∀ c ∈ digits, c.isDigit = true)
    : numeral digits.length (numeralValue digits) = digits
      ∧ numeralValue digits < 10 ^ digits.length := by
  induction digits using List.reverseRecOn with
  | nil => exact ⟨rfl, by decide⟩
  | append_singleton earlier last ih =>
      obtain ⟨same, fits⟩ := ih (fun c mem => all c (List.mem_append_left _ mem))
      obtain ⟨digit, small⟩ := digitChar_digitValue
        (all last (List.mem_append_right _ (List.mem_singleton.mpr rfl)))
      rw [List.length_append, List.length_singleton, numeralValue_concat]
      have upper : (numeralValue earlier * 10 + digitValue last) / 10 = numeralValue earlier := by
        omega
      have lower : (numeralValue earlier * 10 + digitValue last) % 10 = digitValue last := by
        omega
      refine ⟨?_, ?_⟩
      · rw [numeral, upper, lower, same, digit]
      · rw [Nat.pow_succ]
        omega

/-- Smaller numbers have numerals that come first, by induction on the width. -/
theorem numeral_lt {width n m : Nat} (less : n < m) (fits : m < 10 ^ width)
    (first second : List Char)
    : numeral width n ++ first < numeral width m ++ second := by
  induction width generalizing n m first second with
  | zero =>
      rw [Nat.pow_zero] at fits
      omega
  | succ width ih =>
      have upper : m / 10 < 10 ^ width := by
        rw [Nat.pow_succ] at fits
        omega
      rw [numeral, numeral, List.append_assoc, List.append_assoc]
      rcases Nat.lt_or_ge (n / 10) (m / 10) with smaller | other
      · exact ih smaller upper _ _
      · have same : n / 10 = m / 10 := by omega
        rw [same]
        refine List.append_left_lt (List.cons_lt_cons_iff.mpr (Or.inl ?_))
        exact digitChar_lt (by omega) (Nat.mod_lt _ (by decide))

/-- A number that fits is printed as its numeral behind zeros, by induction on the width. -/
theorem leftpad_toDigits {width n : Nat} (fits : n < 10 ^ width) (wide : 0 < width)
    : List.leftpad width '0' (Nat.toDigits 10 n) = numeral width n := by
  induction width generalizing n with
  | zero => exact absurd wide (Nat.lt_irrefl 0)
  | succ width ih =>
      have upper : n / 10 < 10 ^ width := by
        rw [Nat.pow_succ] at fits
        omega
      rcases Nat.lt_or_ge n 10 with small | large
      · have zeros : ∀ w, numeral w 0 = List.replicate w '0' := by
          intro w
          induction w with
          | zero => rfl
          | succ w ih =>
              rw [numeral, Nat.zero_div, ih, List.replicate_succ']
              rfl
        rw [Nat.toDigits_of_lt_base small, numeral, Nat.div_eq_of_lt small, zeros,
          Nat.mod_eq_of_lt small]
        rfl
      · have positive : 0 < width := by
          rcases Nat.eq_zero_or_pos width with rfl | positive
          · rw [Nat.pow_succ, Nat.pow_zero, Nat.one_mul] at fits
            omega
          · exact positive
        rw [Nat.toDigits_of_base_le (by decide) large, numeral, ← ih upper positive]
        simp only [List.leftpad, List.length_append, List.length_singleton, List.append_assoc,
          Nat.add_sub_add_right]

end Codrik.Encoding
