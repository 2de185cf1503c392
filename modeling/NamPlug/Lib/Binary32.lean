import Mathlib.Data.Nat.Log
import Mathlib.Tactic.Ring
import Mathlib.Tactic.NormNum

/-!
# Binary32 bit patterns and their exact values

A binary32 number is its bit pattern (`F32`). Its value is a `Datum`: a NaN, a signed infinity or
a signed whole number of units of `2 ^ -1074`, the finest step of binary64, so that a finite
binary32 or binary64 number and the result of widening one have a datum without rounding.

* `datum` reads a bit pattern, `narrow` rounds a datum to the nearest binary32 number, ties to
  even; `narrow_datum`: narrowing the widened number gives the number back.
* `lt`, `le`, `feq` are the quiet comparisons, `clamp`, `round`, `add` the operations of the same
  names on binary32 numbers.
-/

namespace Binary32

/-- A binary32 number as its bit pattern. -/
abbrev F32 := BitVec 32

/-- A NaN, an infinity, or `± units * 2 ^ -1074`. -/
inductive Datum where
  | nan
  | inf (neg : Bool)
  | fin (neg : Bool) (units : Nat)
  deriving DecidableEq, Repr

/-! ## Reading a bit pattern -/

/-- The exponent and fraction fields, as one number. -/
def magBits (x : F32) : Nat := x.toNat % 2 ^ 31

def neg (x : F32) : Bool := decide (2 ^ 31 ≤ x.toNat)

/-- The magnitude of the finite number with magnitude field `b`, in units of `2 ^ -1074`. -/
@[irreducible] def unitsOf (b : Nat) : Nat :=
  if b / 2 ^ 23 = 0 then b * 2 ^ 925 else (2 ^ 23 + b % 2 ^ 23) * 2 ^ (b / 2 ^ 23 + 924)

/-- The magnitude field of the infinities. -/
def infBits : Nat := 255 * 2 ^ 23

def isNaN (x : F32) : Bool := decide (infBits < magBits x)

def isFinite (x : F32) : Bool := decide (magBits x < infBits)

/-- The value of a bit pattern: the number widened to binary64, and no more. -/
def datum (x : F32) : Datum :=
  if magBits x < infBits then .fin (neg x) (unitsOf (magBits x))
  else if magBits x = infBits then .inf (neg x)
  else .nan

/-! ## Rounding to a bit pattern -/

/-- `k / 2 ^ s` rounded to the nearest whole number, ties to even. -/
def roundEven (k s : Nat) : Nat :=
  let q := k / 2 ^ s
  let r := k % 2 ^ s
  if 2 ^ s < 2 * r ∨ (2 ^ s = 2 * r ∧ q % 2 = 1) then q + 1 else q

/-- How far above the smallest binade `k` lies. -/
def binade (k : Nat) : Nat := Nat.log 2 k - 948

/-- The magnitude field nearest to `k` units; from the overflow threshold on that of infinity. -/
@[irreducible] def bitsOf (k : Nat) : Nat :=
  min (binade k * 2 ^ 23 + roundEven k (925 + binade k)) infBits

/-- The bit pattern with the given sign and magnitude field. -/
def pack (n : Bool) (b : Nat) : F32 := BitVec.ofNat 32 ((if n then 2 ^ 31 else 0) + b)

/-- The quiet NaN that narrowing and arithmetic return. -/
def qNaN : F32 := 0x7FC00000#32

/-- A datum rounded to the nearest binary32 number (the cast from binary64). -/
def narrow : Datum → F32
  | .nan => qNaN
  | .inf n => pack n infBits
  | .fin n k => pack n (bitsOf k)

/-- The nearest binary32 number to a whole number (the cast from an unsigned integer). -/
@[irreducible] def ofNat (n : Nat) : F32 := narrow (.fin false (n * 2 ^ 1074))

/-! ## Narrowing a widened number -/

theorem roundEven_mul (q s : Nat) : roundEven (q * 2 ^ s) s = q := by
  have hpos : 0 < 2 ^ s := Nat.two_pow_pos s
  unfold roundEven
  rw [Nat.mul_div_cancel _ hpos, Nat.mul_mod_left]
  have : ¬(2 ^ s < 2 * 0 ∨ (2 ^ s = 2 * 0 ∧ q % 2 = 1)) := by omega
  simp only [this, if_false]

theorem binade_of_lt {m e : Nat} (hm : m < 2 ^ 23) : binade (m * 2 ^ e) ≤ e - 925 := by
  unfold binade
  rcases Nat.eq_zero_or_pos m with rfl | hpos
  · simp
  · have hlt : Nat.log 2 m < 23 := Nat.log_lt_of_lt_pow (by omega) hm
    have hlog : Nat.log 2 (m * 2 ^ e) = Nat.log 2 m + e := by
      induction e with
      | zero => simp
      | succ e ih =>
        rw [Nat.pow_succ, ← Nat.mul_assoc, Nat.log_mul_base (by omega) (by positivity), ih]
        omega
    omega

theorem binade_of_normal {m e : Nat} (h1 : 2 ^ 23 ≤ m) (h2 : m < 2 ^ 24) :
    binade (m * 2 ^ (e + 925)) = e := by
  have hlog : Nat.log 2 (m * 2 ^ (e + 925)) = e + 948 := by
    refine Nat.log_eq_of_pow_le_of_lt_pow ?_ ?_
    · rw [show e + 948 = 23 + (e + 925) by omega, Nat.pow_add]
      exact Nat.mul_le_mul_right _ h1
    · rw [show e + 948 + 1 = 24 + (e + 925) by omega, Nat.pow_add 2 24]
      exact Nat.mul_lt_mul_of_pos_right h2 (Nat.two_pow_pos _)
  unfold binade
  omega

/-- Rounding the exact value of a finite magnitude field gives the field back. -/
theorem bitsOf_unitsOf {b : Nat} (h : b < infBits) : bitsOf (unitsOf b) = b := by
  have hdm : b = 2 ^ 23 * (b / 2 ^ 23) + b % 2 ^ 23 := (Nat.div_add_mod _ _).symm
  have hmod : b % 2 ^ 23 < 2 ^ 23 := Nat.mod_lt _ (by norm_num)
  unfold unitsOf
  split
  · rename_i h0
    have hb : b < 2 ^ 23 := by omega
    have hbin : binade (b * 2 ^ 925) = 0 := Nat.le_zero.1 (binade_of_lt (e := 925) hb)
    unfold bitsOf
    rw [hbin, Nat.add_zero, roundEven_mul]
    omega
  · rename_i h0
    obtain ⟨e, he⟩ : ∃ e, b / 2 ^ 23 = e + 1 := ⟨b / 2 ^ 23 - 1, by omega⟩
    have hexp : b / 2 ^ 23 + 924 = e + 925 := by omega
    have hbin := binade_of_normal (m := 2 ^ 23 + b % 2 ^ 23) (e := e) (by omega) (by omega)
    unfold bitsOf
    rw [hexp, hbin, Nat.add_comm 925 e, roundEven_mul]
    omega

theorem pack_neg_magBits (x : F32) : pack (neg x) (magBits x) = x := by
  apply BitVec.eq_of_toNat_eq
  have hx := x.isLt
  unfold pack neg magBits
  rw [BitVec.toNat_ofNat]
  by_cases h : 2 ^ 31 ≤ x.toNat
  · simp only [h, decide_true, if_true]
    omega
  · simp only [h, decide_false, Bool.false_eq_true, if_false]
    omega

/-- Narrowing a widened number gives the number back (a NaN loses its payload). -/
theorem narrow_datum {x : F32} (h : isNaN x = false) : narrow (datum x) = x := by
  have hle : magBits x ≤ infBits := by simpa [isNaN] using h
  unfold datum
  split
  · rename_i hlt
    simp only [narrow, bitsOf_unitsOf hlt, pack_neg_magBits]
  · rename_i hlt
    have heq : magBits x = infBits := by omega
    rw [if_pos heq]
    simp only [narrow]
    rw [← heq, pack_neg_magBits]

theorem isNaN_of_isFinite {x : F32} (h : isFinite x = true) : isNaN x = false := by
  simp only [isFinite, isNaN, decide_eq_true_eq, decide_eq_false_iff_not] at *
  omega

theorem datum_of_isFinite {x : F32} (h : isFinite x = true) :
    datum x = .fin (neg x) (unitsOf (magBits x)) := by
  unfold datum
  rw [if_pos (by simpa [isFinite] using h)]

theorem isFinite_of_datum {x : F32} {n : Bool} {k : Nat} (h : datum x = .fin n k) :
    isFinite x = true := by
  unfold datum at h
  split at h
  · simpa [isFinite]
  · split at h <;> cases h

/-- Distinct bit patterns that are no NaN have distinct data. -/
theorem datum_inj {x y : F32} (hx : isNaN x = false) (hy : isNaN y = false)
    (h : datum x = datum y) : x = y := by
  rw [← narrow_datum hx, h, narrow_datum hy]

/-! ## Comparisons -/

/-- The signed number of units of a finite datum. -/
def signed (n : Bool) (k : Nat) : Int := if n then -(k : Int) else k

def Datum.lt : Datum → Datum → Bool
  | .fin n j, .fin m k => decide (signed n j < signed m k)
  | .inf n, .fin _ _ => n
  | .fin _ _, .inf m => !m
  | .inf n, .inf m => n && !m
  | _, _ => false

/-- Numeric equality: the zeros are equal, a NaN equals nothing. -/
def Datum.feq : Datum → Datum → Bool
  | .fin n j, .fin m k => decide (signed n j = signed m k)
  | .inf n, .inf m => n == m
  | _, _ => false

def lt (x y : F32) : Bool := (datum x).lt (datum y)

def feq (x y : F32) : Bool := (datum x).feq (datum y)

def le (x y : F32) : Bool := lt x y || feq x y

theorem lt_irrefl (x : F32) : lt x x = false := by
  unfold lt
  cases datum x <;> simp [Datum.lt]

theorem lt_of_isFinite {x y : F32} (hx : isFinite x = true) (hy : isFinite y = true) :
    lt x y = decide (signed (neg x) (unitsOf (magBits x)) < signed (neg y) (unitsOf (magBits y))) := by
  unfold lt
  rw [datum_of_isFinite hx, datum_of_isFinite hy]
  rfl

/-- What compares equal to a finite number is finite and of the same value. -/
theorem feq_of_isFinite {x y : F32} (hx : isFinite x = true) (h : feq x y = true) :
    isFinite y = true ∧
      signed (neg x) (unitsOf (magBits x)) = signed (neg y) (unitsOf (magBits y)) := by
  unfold feq at h
  rw [datum_of_isFinite hx] at h
  cases hy : datum y with
  | nan => rw [hy] at h; cases h
  | inf n => rw [hy] at h; cases h
  | fin n k =>
    have hfin := isFinite_of_datum hy
    rw [datum_of_isFinite hfin] at h
    exact ⟨hfin, of_decide_eq_true h⟩

/-- A finite number other than zero is the only one that compares equal to it. -/
theorem eq_of_feq {x y : F32} (hx : isFinite x = true) (h : feq x y = true)
    (h0 : signed (neg x) (unitsOf (magBits x)) ≠ 0) : y = x := by
  obtain ⟨hy, hs⟩ := feq_of_isFinite hx h
  refine datum_inj (isNaN_of_isFinite hy) (isNaN_of_isFinite hx) ?_
  rw [datum_of_isFinite hx, datum_of_isFinite hy, Datum.fin.injEq]
  generalize unitsOf (magBits x) = j at *
  generalize unitsOf (magBits y) = k at *
  generalize neg x = n at *
  generalize neg y = m at *
  unfold signed at hs h0
  cases n <;> cases m <;> simp only [if_true, Bool.false_eq_true, if_false] at hs h0 <;>
    first | exact ⟨rfl, by omega⟩ | exact absurd hs (by omega)

/-! ## Operations -/

/-- `x` cut to `[lo, hi]`; a NaN stays. -/
def clamp (x lo hi : F32) : F32 :=
  let x := if lt x lo then lo else x
  if lt hi x then hi else x

theorem clamp_eq_self {x lo hi : F32} (h1 : lt x lo = false) (h2 : lt hi x = false) :
    clamp x lo hi = x := by
  simp [clamp, h1, h2]

/-- The cut value is one of the three. -/
theorem clamp_cases (x lo hi : F32) :
    clamp x lo hi = lo ∨ clamp x lo hi = hi ∨ clamp x lo hi = x := by
  simp only [clamp]
  split <;> split <;> simp

/-- A number is its own cut exactly when it lies in the interval. -/
theorem clamp_eq_self_iff {x lo hi : F32} (h : lt hi lo = false) :
    clamp x lo hi = x ↔ lt x lo = false ∧ lt hi x = false := by
  constructor
  · intro hc
    by_cases h1 : lt x lo = true
    · simp only [clamp, h1, if_true, h, Bool.false_eq_true, if_false] at hc
      rw [hc, lt_irrefl] at h1
      cases h1
    · simp only [Bool.not_eq_true] at h1
      refine ⟨h1, ?_⟩
      by_cases h2 : lt hi x = true
      · simp only [clamp, h1, Bool.false_eq_true, if_false, h2, if_true] at hc
        rw [hc, lt_irrefl] at h2
        cases h2
      · simpa using h2
  · exact fun ⟨h1, h2⟩ => clamp_eq_self h1 h2

theorem clamp_bounds {x lo hi : F32} (h : lt hi lo = false) :
    lt (clamp x lo hi) lo = false ∧ lt hi (clamp x lo hi) = false := by
  by_cases h1 : lt x lo = true
  · simp [clamp, h1, h, lt_irrefl]
  · by_cases h2 : lt hi x = true
    · simp [clamp, h1, h2, h, lt_irrefl]
    · simp [clamp, h1, h2]

theorem isFinite_clamp {x lo hi : F32} (hx : isFinite x = true) (hl : isFinite lo = true)
    (hh : isFinite hi = true) : isFinite (clamp x lo hi) = true := by
  rcases clamp_cases x lo hi with h | h | h <;> rw [h] <;> assumption

/-- The nearest whole number, halves away from zero. -/
def round (x : F32) : F32 :=
  match datum x with
  | .fin n k => narrow (.fin n ((k + 2 ^ 1073) / 2 ^ 1074 * 2 ^ 1074))
  | _ => x

def negate (x : F32) : F32 := x ^^^ 0x80000000#32

def abs (x : F32) : F32 := x &&& 0x7FFFFFFF#32

/-- The sum of two data before rounding; an exact zero is negative only if both summands are. -/
def Datum.add : Datum → Datum → Datum
  | .fin n j, .fin m k =>
    let s := signed n j + signed m k
    if s = 0 then .fin (n && m) 0 else .fin (decide (s < 0)) s.natAbs
  | .inf n, .fin _ _ => .inf n
  | .fin _ _, .inf m => .inf m
  | .inf n, .inf m => if n = m then .inf n else .nan
  | _, _ => .nan

def add (x y : F32) : F32 := narrow ((datum x).add (datum y))

def sub (x y : F32) : F32 := add x (negate y)

theorem datum_zero : datum 0 = .fin false 0 := by decide +kernel

theorem Datum.add_zero (d : Datum) : d.add (.fin false 0) = d ∨ d.add (.fin false 0) = .fin false 0 := by
  cases d with
  | nan => exact .inl rfl
  | inf n => exact .inl rfl
  | fin n k =>
    rcases Nat.eq_zero_or_pos k with rfl | hk
    · right
      cases n <;> rfl
    · left
      have hne : (k : Int) ≠ 0 := by omega
      cases n
      · simp [Datum.add, signed, Nat.ne_of_gt hk]
      · simp [Datum.add, signed, Nat.ne_of_gt hk, hk]

/-- A sum with zero is the other summand, but for the sign of a zero and the payload of a NaN. -/
theorem add_zero_cases (x : F32) : add x 0 = x ∨ add x 0 = 0 ∨ add x 0 = qNaN := by
  unfold add
  rw [datum_zero]
  rcases (datum x).add_zero with h | h <;> rw [h]
  · cases hx : isNaN x with
    | false => exact .inl (narrow_datum hx)
    | true =>
      have hlt : ¬magBits x < infBits := by
        simp only [isNaN, decide_eq_true_eq] at hx
        omega
      have hne : ¬magBits x = infBits := by
        simp only [isNaN, decide_eq_true_eq] at hx
        omega
      refine .inr (.inr ?_)
      unfold datum
      rw [if_neg hlt, if_neg hne]
      rfl
  · exact .inr (.inl (by decide +kernel))

theorem add_add_zero (x : F32) : add (add x 0) 0 = add x 0 := by
  rcases add_zero_cases x with h | h | h <;> rw [h]
  · exact h
  · decide +kernel
  · decide +kernel

end Binary32
