import NamPlug.Params.Audio

/-!
# Facts about sanitized values

`sanitizeParamValue_idem`: what passed the check passes it unchanged. `sanitizeRange_eq_self_iff`:
a float parameter passes unchanged exactly when it is finite and in its range. `sharedStep_code`:
the integer of a stepped parameter reads back as the code it was stored for.
-/

namespace NamPlug

open Binary32

/-! ## Whole numbers -/

theorem ofNat_zero : ofNat 0 = f0 := by decide +kernel

theorem sanitizeStep_ofNat_two {d : F32} {n : Nat} (h : n ≤ 2) :
    sanitizeStep d f2 (ofNat n) = ofNat n := by
  have hn : n = 0 ∨ n = 1 ∨ n = 2 := by omega
  have hfin : isFinite (ofNat n) = true := by rcases hn with rfl | rfl | rfl <;> decide +kernel
  unfold sanitizeStep finiteOr
  rw [if_pos hfin]
  rcases hn with rfl | rfl | rfl <;> decide +kernel

theorem sanitizeStep_ofNat_one {d : F32} {n : Nat} (h : n ≤ 1) :
    sanitizeStep d f1 (ofNat n) = ofNat n := by
  have hn : n = 0 ∨ n = 1 := by omega
  have hfin : isFinite (ofNat n) = true := by rcases hn with rfl | rfl <;> decide +kernel
  unfold sanitizeStep finiteOr
  rw [if_pos hfin]
  rcases hn with rfl | rfl <;> decide +kernel

theorem AdaptiveComputeMode.code_le (m : AdaptiveComputeMode) : m.code ≤ 2 := by
  cases m <;> decide

theorem SlimOverride.code_le (m : SlimOverride) : m.code ≤ 2 := by cases m <;> decide

theorem OversampleFactor.code_le (m : OversampleFactor) : m.code ≤ 2 := by cases m <;> decide

theorem ActivationPrecision.code_le (m : ActivationPrecision) : m.code ≤ 1 := by
  cases m <;> decide

/-! ## Float parameters -/

theorem sanitizeRange_eq_self_iff {d lo hi v : F32} (hd : isFinite d = true)
    (h : lt hi lo = false) :
    sanitizeRange d lo hi v = v ↔ isFinite v = true ∧ lt v lo = false ∧ lt hi v = false := by
  unfold sanitizeRange finiteOr
  by_cases hv : isFinite v = true
  · rw [if_pos hv, clamp_eq_self_iff h]
    simp [hv]
  · rw [if_neg hv]
    constructor
    · rintro rfl
      exact absurd hd hv
    · exact fun hv' => absurd hv'.1 hv

theorem sanitizeRange_mem {d lo hi v : F32} (hd : isFinite d = true) (hl : isFinite lo = true)
    (hh : isFinite hi = true) (h : lt hi lo = false) (hdl : lt d lo = false)
    (hdh : lt hi d = false) :
    isFinite (sanitizeRange d lo hi v) = true ∧ lt (sanitizeRange d lo hi v) lo = false ∧
      lt hi (sanitizeRange d lo hi v) = false := by
  unfold sanitizeRange finiteOr
  split
  · rename_i hv
    exact ⟨isFinite_clamp hv hl hh, clamp_bounds h⟩
  · exact ⟨hd, hdl, hdh⟩

section
variable (E : ParamEngine)

theorem gain_order : lt E.gainMaxDb E.gainMinDb = false := by
  have h1 := E.gainMin_le
  have h2 := E.gainMax_ge
  have h0 : isFinite f0 = true := by decide +kernel
  rw [lt_of_isFinite h0 E.gainMin_finite, decide_eq_false_iff_not] at h1
  rw [lt_of_isFinite E.gainMax_finite h0, decide_eq_false_iff_not] at h2
  rw [lt_of_isFinite E.gainMax_finite E.gainMin_finite, decide_eq_false_iff_not]
  omega

/-- The range of a parameter stored as a float. -/
def floatRange : ParamId → Option (F32 × F32)
  | .inputGain => some (E.gainMinDb, E.gainMaxDb)
  | .outputGain => some (E.gainMinDb, E.gainMaxDb)
  | .gateThresh => some (fm90, fm40)
  | _ => none

/-- `v` is finite and in `[lo, hi]`. -/
def InRange (r : F32 × F32) (v : F32) : Prop :=
  isFinite v = true ∧ lt v r.1 = false ∧ lt r.2 v = false

instance (r : F32 × F32) (v : F32) : Decidable (InRange r v) := inferInstanceAs (Decidable (_ ∧ _))

theorem sanitize_float {p : ParamId} {r : F32 × F32} (h : floatRange E p = some r) (v : F32) :
    InRange r (sanitizeParamValue E p v) := by
  have h0 : isFinite f0 = true := by decide +kernel
  cases p <;> simp only [floatRange, Option.some.injEq, reduceCtorEq] at h <;> subst h
  · exact sanitizeRange_mem h0 E.gainMin_finite E.gainMax_finite (gain_order E) E.gainMin_le
      E.gainMax_ge
  · exact sanitizeRange_mem h0 E.gainMin_finite E.gainMax_finite (gain_order E) E.gainMin_le
      E.gainMax_ge
  · exact sanitizeRange_mem (by decide +kernel) (by decide +kernel) (by decide +kernel)
      (by decide +kernel) (by decide +kernel) (by decide +kernel)

theorem sanitize_float_eq_self_iff {p : ParamId} {r : F32 × F32} (h : floatRange E p = some r)
    (v : F32) : sanitizeParamValue E p v = v ↔ InRange r v := by
  have h0 : isFinite f0 = true := by decide +kernel
  cases p <;> simp only [floatRange, Option.some.injEq, reduceCtorEq] at h <;> subst h
  · exact sanitizeRange_eq_self_iff h0 (gain_order E)
  · exact sanitizeRange_eq_self_iff h0 (gain_order E)
  · exact sanitizeRange_eq_self_iff (by decide +kernel) (by decide +kernel)

theorem sanitize_float_idem {p : ParamId} {r : F32 × F32} (h : floatRange E p = some r) (v : F32) :
    sanitizeParamValue E p (sanitizeParamValue E p v) = sanitizeParamValue E p v :=
  (sanitize_float_eq_self_iff E h _).2 (sanitize_float E h v)

/-- What compares equal to a number in a range is in the range. -/
theorem InRange.of_feq {r : F32 × F32} (h1 : isFinite r.1 = true) (h2 : isFinite r.2 = true)
    {x y : F32} (hx : InRange r x) (h : feq x y = true) : InRange r y := by
  obtain ⟨hfin, hlo, hhi⟩ := hx
  obtain ⟨hy, hs⟩ := feq_of_isFinite hfin h
  rw [lt_of_isFinite hfin h1, hs] at hlo
  rw [lt_of_isFinite h2 hfin, hs] at hhi
  refine ⟨hy, ?_, ?_⟩
  · rw [lt_of_isFinite hy h1]; exact hlo
  · rw [lt_of_isFinite h2 hy]; exact hhi

theorem floatRange_finite {p : ParamId} {r : F32 × F32} (h : floatRange E p = some r) :
    isFinite r.1 = true ∧ isFinite r.2 = true := by
  cases p <;> simp only [floatRange, Option.some.injEq, reduceCtorEq] at h <;> subst h
  · exact ⟨E.gainMin_finite, E.gainMax_finite⟩
  · exact ⟨E.gainMin_finite, E.gainMax_finite⟩
  · exact ⟨by decide +kernel, by decide +kernel⟩

/-- The sanitized value is that of the parameter exactly when the parameter is in its range. -/
theorem datum_sanitize_float_iff {p : ParamId} {r : F32 × F32} (h : floatRange E p = some r)
    (v : F32) : datum (sanitizeParamValue E p v) = datum v ↔ InRange r v := by
  rw [← sanitize_float_eq_self_iff E h]
  refine ⟨fun hd => ?_, congrArg datum⟩
  obtain ⟨hfin, -, -⟩ := sanitize_float E h v
  rw [datum_of_isFinite hfin] at hd
  have hv := isFinite_of_datum hd.symm
  rw [← datum_of_isFinite hfin] at hd
  exact datum_inj (isNaN_of_isFinite hfin) (isNaN_of_isFinite hv) hd

/-! ## Stepped parameters -/

theorem sharedStep_adaptive {c : ParamCtx} {m : AdaptiveComputeMode}
    (h : c.ui.paramAdaptiveCompute.toNat = m.code) :
    E.adaptiveOfF32 (sharedStep E c .adaptiveCompute) = m := by
  simp only [sharedStep, UiToRt.load, h, sanitizeParamValue]
  rw [sanitizeStep_ofNat_two m.code_le, E.adaptive_code]

theorem sharedStep_slim {c : ParamCtx} {m : SlimOverride}
    (h : c.ui.paramSlimOverride.toNat = m.code) :
    E.slimOfF32 (sharedStep E c .slimOverride) = m := by
  simp only [sharedStep, UiToRt.load, h, sanitizeParamValue]
  rw [sanitizeStep_ofNat_two m.code_le, E.slim_code]

theorem sharedStep_oversample {c : ParamCtx} {m : OversampleFactor}
    (h : c.ui.paramOversample.toNat = m.code) :
    E.oversampleOfF32 (sharedStep E c .oversample) = m := by
  simp only [sharedStep, UiToRt.load, h, sanitizeParamValue]
  rw [sanitizeStep_ofNat_two m.code_le, E.oversample_code]

theorem sharedStep_activation {c : ParamCtx} {m : ActivationPrecision}
    (h : c.ui.paramActivation.toNat = m.code) :
    E.activationOfF32 (sharedStep E c .activation) = m := by
  simp only [sharedStep, UiToRt.load, h, sanitizeParamValue]
  rw [sanitizeStep_ofNat_one m.code_le, E.activation_code]

end

end NamPlug
