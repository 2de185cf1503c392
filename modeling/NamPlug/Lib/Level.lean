import NamPlug.Lib.Binary32
import Mathlib.Tactic.Linarith

/-!
# Levels

A level is a binary32 number that is neither negative nor a NaN; zero and infinity are levels. Levels
compare as their bit patterns (`lt_iff`), so the greatest of them can be kept as a whole number
(`fetchMax`). The product is exact before it is rounded, since a binary32 number is a multiple of
`2 ^ -149`; rounding keeps the order (`bitsOf_mono`), and so does a factor (`toNat_mul_mono`). A factor
of at most one leaves no level louder (`toNat_mul_le`).
-/

namespace Binary32

/-! ## Rounding keeps the order -/

theorem roundEven_mono {j k : Nat} (h : j ≤ k) (s : Nat) : roundEven j s ≤ roundEven k s := by
  have hq : j / 2 ^ s ≤ k / 2 ^ s := Nat.div_le_div_right h
  have hj := Nat.div_add_mod j (2 ^ s)
  have hk := Nat.div_add_mod k (2 ^ s)
  simp only [roundEven]
  rcases Nat.lt_or_eq_of_le hq with hlt | heq
  · split <;> split <;> omega
  · rw [heq] at hj ⊢
    generalize 2 ^ s * (k / 2 ^ s) = a at hj hk
    generalize k / 2 ^ s = q
    split <;> split <;> omega

theorem roundEven_bounds {k s n : Nat} (h : k < n * 2 ^ s) : roundEven k s ≤ n := by
  have hq : k / 2 ^ s < n := (Nat.div_lt_iff_lt_mul (Nat.two_pow_pos s)).2 h
  simp only [roundEven]
  split <;> omega

theorem le_roundEven {k s n : Nat} (h : n * 2 ^ s ≤ k) : n ≤ roundEven k s := by
  have hq : n ≤ k / 2 ^ s := (Nat.le_div_iff_mul_le (Nat.two_pow_pos s)).2 h
  simp only [roundEven]
  split <;> omega

/-- What is rounded up is rounded up by half a step at most. -/
theorem roundEven_mul_le (k s : Nat) : 2 * (roundEven k s * 2 ^ s) ≤ 2 * k + 2 ^ s := by
  have hk := Nat.div_add_mod k (2 ^ s)
  simp only [roundEven]
  generalize k % 2 ^ s = r at *
  rw [Nat.mul_comm] at hk
  split
  · rw [Nat.add_mul]
    omega
  · omega

theorem lt_of_binade {k : Nat} : k < 2 ^ 24 * 2 ^ (925 + binade k) := by
  have h : k < 2 ^ (Nat.log 2 k + 1) := Nat.lt_pow_succ_log_self (by omega) k
  rw [← Nat.pow_add]
  refine h.trans_le (Nat.pow_le_pow_right (by omega) ?_)
  unfold binade
  omega

theorem le_of_binade {k : Nat} (h : 0 < binade k) : 2 ^ 23 * 2 ^ (925 + binade k) ≤ k := by
  unfold binade at *
  have hk : k ≠ 0 := by
    rintro rfl
    simp at h
  rw [← Nat.pow_add, show 23 + (925 + (Nat.log 2 k - 948)) = Nat.log 2 k by omega]
  exact Nat.pow_log_le_self 2 hk

theorem roundEven_binade_le (k : Nat) : roundEven k (925 + binade k) ≤ 2 ^ 24 :=
  roundEven_bounds lt_of_binade

theorem le_roundEven_binade {k : Nat} (h : 0 < binade k) : 2 ^ 23 ≤ roundEven k (925 + binade k) :=
  le_roundEven (le_of_binade h)

theorem bitsOf_mono {j k : Nat} (h : j ≤ k) : bitsOf j ≤ bitsOf k := by
  have hb : binade j ≤ binade k := Nat.sub_le_sub_right (Nat.log_mono_right h) _
  unfold bitsOf
  refine min_le_min ?_ le_rfl
  rcases Nat.lt_or_eq_of_le hb with hlt | heq
  · -- the next binade starts where this one may end
    have h1 := roundEven_binade_le j
    have h2 := le_roundEven_binade (k := k) (by omega)
    omega
  · rw [heq]
    exact Nat.add_le_add_left (roundEven_mono h _) _

theorem bitsOf_le (k : Nat) : bitsOf k ≤ infBits := by
  unfold bitsOf
  exact min_le_right ..

theorem unitsOf_lt_iff {a b : Nat} (ha : a < infBits) (hb : b < infBits) :
    unitsOf a < unitsOf b ↔ a < b := by
  have hmono : ∀ {a b : Nat}, a < infBits → b < infBits → unitsOf a ≤ unitsOf b → a ≤ b := by
    intro a b ha hb h
    rw [← bitsOf_unitsOf ha, ← bitsOf_unitsOf hb]
    exact bitsOf_mono h
  constructor
  · intro h
    refine Nat.lt_of_le_of_ne (hmono ha hb (Nat.le_of_lt h)) ?_
    rintro rfl
    exact Nat.lt_irrefl _ h
  · intro h
    by_contra hle
    exact Nat.not_le.2 h (hmono hb ha (Nat.not_lt.1 hle))

/-- The value of a rounded number, where it is finite. -/
theorem unitsOf_bitsOf {k : Nat} (h : bitsOf k < infBits) :
    unitsOf (bitsOf k) = roundEven k (925 + binade k) * 2 ^ (925 + binade k) := by
  have hle := roundEven_binade_le k
  have hge := @le_roundEven_binade k
  unfold bitsOf at h ⊢
  generalize roundEven k (925 + binade k) = r at *
  generalize binade k = e at *
  have hb : min (e * 2 ^ 23 + r) infBits = e * 2 ^ 23 + r := by omega
  rw [hb]
  have hnext : (2 : Nat) ^ (925 + e + 1) = 2 * 2 ^ (925 + e) := by rw [Nat.pow_succ, Nat.mul_comm]
  rcases Nat.lt_or_ge r (2 ^ 23) with hsub | hnorm
  · -- a number below the smallest normal one
    obtain rfl : e = 0 := by omega
    unfold unitsOf
    rw [if_pos (by omega), Nat.zero_mul, Nat.zero_add]
  rcases Nat.lt_or_eq_of_le hle with hlt | rfl
  · have hdiv : (e * 2 ^ 23 + r) / 2 ^ 23 = e + 1 := by omega
    have hmod : (e * 2 ^ 23 + r) % 2 ^ 23 = r - 2 ^ 23 := by omega
    unfold unitsOf
    rw [hdiv, if_neg (by omega), hmod, show 2 ^ 23 + (r - 2 ^ 23) = r by omega,
      show e + 1 + 924 = 925 + e by omega]
  · -- rounded up to the next binade
    have hdiv : (e * 2 ^ 23 + 2 ^ 24) / 2 ^ 23 = e + 2 := by omega
    have hmod : (e * 2 ^ 23 + 2 ^ 24) % 2 ^ 23 = 0 := by omega
    unfold unitsOf
    rw [hdiv, if_neg (by omega), hmod, show e + 2 + 924 = 925 + e + 1 by omega, hnext]
    generalize 2 ^ (925 + e) = p
    omega

/-- Rounding adds at most one part in `2 ^ 24` to a number of the normal range. -/
theorem unitsOf_bitsOf_le {k : Nat} (hk : 2 ^ 949 ≤ k) (h : bitsOf k < infBits) :
    unitsOf (bitsOf k) * 2 ^ 24 ≤ k * (2 ^ 24 + 1) := by
  have hb : 0 < binade k := by
    have hlog : ∀ n, 2 ^ n ≤ k → n ≤ Nat.log 2 k :=
      fun _ h => Nat.le_log_of_pow_le Nat.one_lt_two h
    have := hlog 949 hk
    unfold binade
    omega
  have hlow := le_of_binade hb
  have hhalf := roundEven_mul_le k (925 + binade k)
  rw [unitsOf_bitsOf h]
  generalize 2 ^ (925 + binade k) = p at *
  generalize roundEven k (925 + binade k) * p = v at *
  omega

/-! ## Levels -/

/-- Neither negative nor a NaN. -/
def IsLevel (x : F32) : Prop := x.toNat ≤ infBits

/-- The larger of the two, the other where one is a NaN (`f32::max`). -/
def fmax (x y : F32) : F32 :=
  if isNaN x then y else if isNaN y then x else if lt x y then y else x

/-- An atomic maximum of bit patterns, as the cell is left. -/
def fetchMax (cell x : F32) : F32 := if cell.toNat < x.toNat then x else cell

theorem magBits_of_isLevel {x : F32} (h : IsLevel x) : magBits x = x.toNat := by
  unfold IsLevel infBits at h
  unfold magBits
  omega

theorem datum_of_isLevel {x : F32} (h : IsLevel x) :
    datum x = if x.toNat < infBits then .fin false (unitsOf x.toNat) else .inf false := by
  have hneg : neg x = false := by
    unfold IsLevel infBits at h
    unfold neg
    simp only [decide_eq_false_iff_not]
    omega
  unfold datum
  rw [magBits_of_isLevel h, hneg]
  unfold IsLevel at h
  split
  · rfl
  · rw [if_pos (by omega)]

theorem isNaN_of_isLevel {x : F32} (h : IsLevel x) : isNaN x = false := by
  unfold isNaN
  rw [magBits_of_isLevel h]
  simpa [IsLevel] using h

theorem lt_iff {x y : F32} (hx : IsLevel x) (hy : IsLevel y) :
    lt x y = true ↔ x.toNat < y.toNat := by
  unfold lt
  rw [datum_of_isLevel hx, datum_of_isLevel hy]
  unfold IsLevel at hx hy
  split <;> rename_i h1 <;> split <;> rename_i h2
  · simpa [Datum.lt, signed] using unitsOf_lt_iff h1 h2
  · simp only [Datum.lt, Bool.not_false, true_iff]
    omega
  · simp only [Datum.lt, Bool.false_eq_true, false_iff]
    omega
  · simp only [Datum.lt, Bool.not_false, Bool.false_and, Bool.false_eq_true, false_iff]
    omega

theorem feq_iff {x y : F32} (hx : IsLevel x) (hy : IsLevel y) : feq x y = true ↔ x = y := by
  unfold feq
  rw [datum_of_isLevel hx, datum_of_isLevel hy, ← BitVec.toNat_inj]
  unfold IsLevel at hx hy
  split <;> rename_i h1 <;> split <;> rename_i h2
  · simp only [Datum.feq, signed, Bool.false_eq_true, if_false, decide_eq_true_eq, Int.ofNat_inj]
    have hlt := unitsOf_lt_iff h1 h2
    have hgt := unitsOf_lt_iff h2 h1
    omega
  · simp only [Datum.feq, Bool.false_eq_true, false_iff]
    omega
  · simp only [Datum.feq, Bool.false_eq_true, false_iff]
    omega
  · simp only [Datum.feq, BEq.rfl, true_iff]
    omega

theorem le_iff {x y : F32} (hx : IsLevel x) (hy : IsLevel y) :
    le x y = true ↔ x.toNat ≤ y.toNat := by
  unfold le
  rw [Bool.or_eq_true, lt_iff hx hy, feq_iff hx hy, ← BitVec.toNat_inj]
  omega

theorem isLevel_zero : IsLevel 0 := Nat.zero_le _

/-- A number above zero is a level. -/
theorem isLevel_of_pos {x : F32} (h0 : le x 0 = false) (hn : isNaN x = false) : IsLevel x := by
  have hmag : magBits x ≤ infBits := by simpa [isNaN] using hn
  cases hneg : neg x with
  | false =>
    simp only [neg, decide_eq_false_iff_not, Nat.not_le] at hneg
    unfold magBits at hmag
    unfold IsLevel
    omega
  | true =>
    unfold le lt feq at h0
    rw [datum_zero] at h0
    unfold datum at h0
    rw [hneg] at h0
    split at h0
    · simp only [Datum.lt, Datum.feq, signed, if_true, Bool.false_eq_true, if_false,
        Bool.or_eq_false_iff, decide_eq_false_iff_not] at h0
      omega
    · rw [if_pos (by omega)] at h0
      cases h0

/-- What a level is below is above zero. -/
theorem pos_of_lt {x y : F32} (hx : IsLevel x) (h : lt x y = true) :
    le y 0 = false ∧ isNaN y = false := by
  have hnan : isNaN y = false := by
    by_contra hy
    simp only [Bool.not_eq_false, isNaN, decide_eq_true_eq] at hy
    unfold lt at h
    rw [show datum y = .nan by unfold datum; rw [if_neg (by omega), if_neg (by omega)]] at h
    cases hd : datum x <;> rw [hd] at h <;> cases h
  refine ⟨?_, hnan⟩
  unfold le lt feq
  unfold lt at h
  rw [datum_of_isLevel hx] at h
  rw [datum_zero]
  cases hd : datum y with
  | nan => rfl
  | inf m =>
    rw [hd] at h
    split at h <;> simp_all [Datum.lt, Datum.feq]
  | fin m k =>
    rw [hd] at h
    split at h
    · simp only [Datum.lt, signed, Bool.false_eq_true, if_false, decide_eq_true_eq] at h
      simp only [Datum.lt, Datum.feq, signed, Bool.false_eq_true, if_false, Bool.or_eq_false_iff,
        decide_eq_false_iff_not]
      omega
    · cases h

theorem isLevel_fetchMax {x y : F32} (hx : IsLevel x) (hy : IsLevel y) : IsLevel (fetchMax x y) := by
  unfold fetchMax
  split <;> assumption

theorem toNat_fetchMax (x y : F32) : (fetchMax x y).toNat = max x.toNat y.toNat := by
  unfold fetchMax
  split <;> omega

theorem fmax_of_isLevel {x y : F32} (hx : IsLevel x) (hy : IsLevel y) : fmax x y = fetchMax x y := by
  unfold fmax fetchMax
  simp only [isNaN_of_isLevel hx, isNaN_of_isLevel hy, Bool.false_eq_true, if_false, lt_iff hx hy]

/-! ## Products -/

/-- The exact product of two data of binary32 numbers. -/
def Datum.mul : Datum → Datum → Datum
  | .fin n j, .fin m k => .fin (n != m) (j * k / 2 ^ 1074)
  | .inf n, .fin m k => if k = 0 then .nan else .inf (n != m)
  | .fin n j, .inf m => if j = 0 then .nan else .inf (n != m)
  | .inf n, .inf m => .inf (n != m)
  | _, _ => .nan

def mul (x y : F32) : F32 := narrow ((datum x).mul (datum y))

theorem toNat_pack {b : Nat} (h : b ≤ infBits) : (pack false b).toNat = b := by
  unfold infBits at h
  unfold pack
  rw [BitVec.toNat_ofNat]
  simp only [Bool.false_eq_true, if_false]
  omega

theorem toNat_mul {x y : F32} (hx : x.toNat < infBits) (hy : y.toNat < infBits) :
    (mul x y).toNat = bitsOf (unitsOf x.toNat * unitsOf y.toNat / 2 ^ 1074) := by
  unfold mul
  rw [datum_of_isLevel (Nat.le_of_lt hx), datum_of_isLevel (Nat.le_of_lt hy), if_pos hx, if_pos hy]
  simp only [Datum.mul, narrow, bne_self_eq_false]
  exact toNat_pack (bitsOf_le _)

theorem mul_inf {x y : F32} (hx : x.toNat = infBits) (hy : y.toNat < infBits)
    (h0 : 0 < unitsOf y.toNat) : mul x y = x := by
  have hl : IsLevel x := Nat.le_of_eq hx
  unfold mul
  rw [datum_of_isLevel hl, datum_of_isLevel (Nat.le_of_lt hy), if_neg (by omega), if_pos hy]
  simp only [Datum.mul, if_neg (Nat.ne_of_gt h0), narrow, bne_self_eq_false]
  apply BitVec.eq_of_toNat_eq
  rw [toNat_pack (Nat.le_refl _), hx]

section
variable {d : F32} (hd : d.toNat < infBits) (h0 : 0 < unitsOf d.toNat)
  (h1 : unitsOf d.toNat ≤ 2 ^ 1074)
include hd h0

theorem isLevel_mul {x : F32} (hx : IsLevel x) : IsLevel (mul x d) := by
  rcases Nat.lt_or_eq_of_le hx with hlt | heq
  · unfold IsLevel
    rw [toNat_mul hlt hd]
    exact bitsOf_le _
  · rw [mul_inf heq hd h0]
    exact hx

theorem toNat_mul_mono {x y : F32} (hx : IsLevel x) (hy : IsLevel y) (h : x.toNat ≤ y.toNat) :
    (mul x d).toNat ≤ (mul y d).toNat := by
  rcases Nat.lt_or_eq_of_le hy with hlt | heq
  · have hxlt : x.toNat < infBits := Nat.lt_of_le_of_lt h hlt
    rw [toNat_mul hxlt hd, toNat_mul hlt hd]
    refine bitsOf_mono (Nat.div_le_div_right (Nat.mul_le_mul_right _ ?_))
    have := unitsOf_lt_iff hlt hxlt
    omega
  · rw [mul_inf heq hd h0, heq]
    exact isLevel_mul hd h0 hx

include h1

theorem toNat_mul_le {x : F32} (hx : IsLevel x) : (mul x d).toNat ≤ x.toNat := by
  rcases Nat.lt_or_eq_of_le hx with hlt | heq
  · rw [toNat_mul hlt hd]
    refine (bitsOf_mono ?_).trans (Nat.le_of_eq (bitsOf_unitsOf hlt))
    generalize (2 : Nat) ^ 1074 = one at h1
    exact Nat.div_le_of_le_mul (Nat.mul_comm one _ ▸ Nat.mul_le_mul_left _ h1)
  · rw [mul_inf heq hd h0]

omit h1 in
/-- A factor that is below `a / b` by more than rounding can add takes that much off a level that is
not too small. -/
theorem mul_decays {a b : Nat} (hab : unitsOf d.toNat * (2 ^ 24 + 1) * b ≤ a * (2 ^ 24 * 2 ^ 1074))
    {x : F32} (hx : IsLevel x) (hfin : (mul x d).toNat < infBits)
    (hbig : 2 ^ 949 ≤ unitsOf x.toNat * unitsOf d.toNat / 2 ^ 1074) :
    b * unitsOf (mul x d).toNat ≤ a * unitsOf x.toNat := by
  have hlt : x.toNat < infBits := by
    rcases Nat.lt_or_eq_of_le hx with hlt | heq
    · exact hlt
    · rw [mul_inf heq hd h0] at hfin
      omega
  rw [toNat_mul hlt hd] at hfin ⊢
  have hround := unitsOf_bitsOf_le hbig hfin
  generalize unitsOf (bitsOf _) = v at hround ⊢
  have hdiv : unitsOf x.toNat * unitsOf d.toNat / 2 ^ 1074 * 2 ^ 1074 ≤
      unitsOf x.toNat * unitsOf d.toNat := Nat.div_mul_le_self ..
  generalize unitsOf x.toNat * unitsOf d.toNat / 2 ^ 1074 = q at hround hdiv
  generalize hone : (2 : Nat) ^ 1074 = one at hab hdiv
  have hpow : ∀ n : Nat, 0 < 2 ^ n := fun n => Nat.two_pow_pos n
  have hpos : 0 < 2 ^ 24 * one := Nat.mul_pos (hpow 24) (hone ▸ hpow 1074)
  refine Nat.le_of_mul_le_mul_right ?_ hpos
  calc b * v * (2 ^ 24 * one) = b * (v * 2 ^ 24) * one := by ring
    _ ≤ b * (q * (2 ^ 24 + 1)) * one := Nat.mul_le_mul_right _ (Nat.mul_le_mul_left _ hround)
    _ = q * one * ((2 ^ 24 + 1) * b) := by ring
    _ ≤ unitsOf x.toNat * unitsOf d.toNat * ((2 ^ 24 + 1) * b) := Nat.mul_le_mul_right _ hdiv
    _ = unitsOf x.toNat * (unitsOf d.toNat * (2 ^ 24 + 1) * b) := by ring
    _ ≤ unitsOf x.toNat * (a * (2 ^ 24 * one)) := Nat.mul_le_mul_left _ hab
    _ = a * unitsOf x.toNat * (2 ^ 24 * one) := by ring

end

end Binary32
