import Mathlib.Algebra.Order.Field.Basic
import Mathlib.Tactic.Ring
import Mathlib.Tactic.Linarith

/-!
# The one-pole recurrence

`state a target y` is the recurrence `y := y + a * (target - y)` with a target for each sample.
While the target stays, the distance to it shrinks by `1 - a` each sample (`state_add`). With `a` in
`[0, 1]`, an error at the start of such a stretch does not grow: neither where the same closed form
is taken from the wrong value (`decay_close`), nor where a value that is near its target is held
(`hold_close`).
-/

namespace OnePole

variable {K : Type*} [Field K]

/-- The recurrence after a number of samples. -/
def state (a : K) (target : Nat → K) (y : K) : Nat → K
  | 0 => y
  | i + 1 => state a target y i + a * (target i - state a target y i)

/-- The closed form with a target that stays. -/
def decay (a T y : K) (n : Nat) : K := T + (1 - a) ^ n * (y - T)

@[simp] theorem decay_zero (a T y : K) : decay a T y 0 = y := by simp [decay]

theorem decay_succ (a T y : K) (n : Nat) :
    decay a T y (n + 1) = decay a T y n + a * (T - decay a T y n) := by
  simp only [decay, pow_succ]
  ring

/-- A stretch in which the target stays. -/
theorem state_add {a T y : K} {target : Nat → K} {k n : Nat}
    (h : ∀ i, k ≤ i → i < k + n → target i = T) :
    state a target y (k + n) = decay a T (state a target y k) n := by
  induction n with
  | zero => simp
  | succ n ih =>
    have ih := ih fun i hk hi => h i hk (by omega)
    rw [← Nat.add_assoc, state, ih, h (k + n) (by omega) (by omega), decay_succ]

variable [LinearOrder K] [IsStrictOrderedRing K] {a : K}

theorem pow_mem (h0 : 0 ≤ a) (h1 : a ≤ 1) (n : Nat) : 0 ≤ (1 - a) ^ n ∧ (1 - a) ^ n ≤ 1 :=
  ⟨pow_nonneg (by linarith) n, pow_le_one₀ (by linarith) (by linarith)⟩

/-- The closed form taken from a value that is off is off by no more. -/
theorem decay_close (h0 : 0 ≤ a) (h1 : a ≤ 1) {T y c ε : K} (h : |c - y| ≤ ε) (n : Nat) :
    |decay a T c n - decay a T y n| ≤ ε := by
  obtain ⟨hp0, hp1⟩ := pow_mem h0 h1 n
  calc |decay a T c n - decay a T y n| = |(1 - a) ^ n * (c - y)| := by
        rw [decay, decay]
        congr 1
        ring
    _ = (1 - a) ^ n * |c - y| := by rw [abs_mul, abs_of_nonneg hp0]
    _ ≤ |c - y| := mul_le_of_le_one_left (abs_nonneg _) hp1
    _ ≤ ε := h

/-- A value near its target that is held instead is off by no more than it was, or than it is from
the target. -/
theorem hold_close (h0 : 0 ≤ a) (h1 : a ≤ 1) {T y c ε : K} (hT : |c - T| ≤ ε) (h : |c - y| ≤ ε)
    (n : Nat) : |c - decay a T y n| ≤ ε := by
  obtain ⟨hp0, hp1⟩ := pow_mem h0 h1 n
  have hq0 : 0 ≤ 1 - (1 - a) ^ n := by linarith
  calc |c - decay a T y n| = |(1 - (1 - a) ^ n) * (c - T) + (1 - a) ^ n * (c - y)| := by
        rw [decay]
        congr 1
        ring
    _ ≤ |(1 - (1 - a) ^ n) * (c - T)| + |(1 - a) ^ n * (c - y)| := abs_add_le _ _
    _ = (1 - (1 - a) ^ n) * |c - T| + (1 - a) ^ n * |c - y| := by
        rw [abs_mul, abs_mul, abs_of_nonneg hq0, abs_of_nonneg hp0]
    _ ≤ (1 - (1 - a) ^ n) * ε + (1 - a) ^ n * ε :=
        add_le_add (mul_le_mul_of_nonneg_left hT hq0) (mul_le_mul_of_nonneg_left h hp0)
    _ = ε := by ring

end OnePole
