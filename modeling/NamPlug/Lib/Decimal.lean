import Mathlib

/-!
# Decimal blocks

Numbers written with a fixed number of digits are ordered as text the way the numbers are, and so
are texts made of blocks of equal lengths.
-/

namespace Decimal

/-! ## The order of texts -/

/-- Blocks of one length decide the order of two texts before what comes after them. -/
theorem append_lt_append {a b : List Char} (hlt : a < b) (hlen : a.length = b.length)
    (c d : List Char) : a ++ c < b ++ d := by
  induction a generalizing b with
  | nil =>
    obtain rfl := List.eq_nil_of_length_eq_zero hlen.symm
    exact absurd hlt (List.lt_irrefl [])
  | cons x a ih =>
    cases b with
    | nil => simp at hlen
    | cons y b =>
      rcases List.cons_lt_cons_iff.1 hlt with hxy | ⟨rfl, hab⟩
      · exact List.cons_lt_cons_iff.2 (.inl hxy)
      · exact List.cons_lt_cons_iff.2 (.inr ⟨rfl, ih hab (Nat.succ.inj hlen)⟩)

/-! ## Digits -/

/-- The last `width` digits of a number. -/
def digits : Nat → Nat → List Char
  | 0, _ => []
  | width + 1, n => digits width (n / 10) ++ [Nat.digitChar (n % 10)]

@[simp] theorem length_digits (width n : Nat) : (digits width n).length = width := by
  induction width generalizing n with
  | zero => rfl
  | succ width ih => simp [digits, ih]

theorem digits_zero (width : Nat) : digits width 0 = List.replicate width '0' := by
  induction width with
  | zero => rfl
  | succ width ih => simp [digits, ih, List.replicate_succ']

theorem digitChar_lt {m n : Nat} (hmn : m < n) (hn : n < 10) : m.digitChar < n.digitChar := by
  have htable : ∀ n < 10, ∀ m < n, m.digitChar < n.digitChar := by decide
  exact htable n hn m hmn

/-- Numbers of `width` digits are ordered as their digits are. -/
theorem digits_lt {width m n : Nat} (hmn : m < n) (hn : n < 10 ^ width) :
    digits width m < digits width n := by
  induction width generalizing m n with
  | zero => omega
  | succ width ih =>
    have htens : n / 10 < 10 ^ width := by
      rw [Nat.div_lt_iff_lt_mul (by decide)]
      rwa [Nat.pow_succ] at hn
    rcases Nat.lt_or_ge (m / 10) (n / 10) with hlt | hge
    · exact append_lt_append (ih hlt htens) (by simp) _ _
    · have heq : m / 10 = n / 10 := by omega
      have hunit : (m % 10).digitChar < (n % 10).digitChar := digitChar_lt (by omega) (by omega)
      simp only [digits, heq]
      exact List.append_left_lt (List.cons_lt_cons_iff.2 (.inl hunit))

/-- A number padded with zeros to `width` digits. -/
theorem replicate_append_toDigits {width n : Nat} (hwidth : 0 < width) (hn : n < 10 ^ width) :
    List.replicate (width - (Nat.toDigits 10 n).length) '0' ++ Nat.toDigits 10 n =
      digits width n := by
  induction width generalizing n with
  | zero => omega
  | succ width ih =>
    rcases Nat.lt_or_ge n 10 with hlt | hge
    · have hdiv : n / 10 = 0 := Nat.div_eq_of_lt hlt
      have hmod : n % 10 = n := Nat.mod_eq_of_lt hlt
      simp [digits, Nat.toDigits_of_lt_base hlt, hdiv, hmod, digits_zero]
    · have hmore : 0 < width := by
        rcases Nat.eq_zero_or_pos width with rfl | hpos
        · omega
        · exact hpos
      have htens : n / 10 < 10 ^ width := by
        rw [Nat.div_lt_iff_lt_mul (by decide)]
        rwa [Nat.pow_succ] at hn
      have hih := ih hmore htens
      rw [Nat.toDigits_of_base_le (by decide) hge, List.length_append, List.length_singleton,
        Nat.add_sub_add_right, ← List.append_assoc, hih]
      rfl

end Decimal
