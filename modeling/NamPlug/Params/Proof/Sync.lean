import NamPlug.Params.Proof.Stored

/-!
# What a synchronization leaves

`syncParamsFromGui_spec`: after a synchronization from the shared atomics the audio thread holds the
sanitized value of every atomic. A float parameter that already compares equal is left as it is
(`Synced`).
-/

namespace NamPlug

open Binary32

/-- A float parameter after its synchronization: `shared` is the sanitized atomic. -/
def Synced (shared old new : F32) : Prop := new = shared ∨ (feq shared old = true ∧ new = old)

section
variable (E : ParamEngine)

theorem syncInputGainFromGui_eq (c : ParamCtx) :
    ∃ v s, Synced (sanitizeParamValue E .inputGain c.ui.paramInputGain) c.rt.params.inputGainDb v ∧
      syncInputGainFromGui E c = { c with rt := { c.rt with
        params := { c.rt.params with inputGainDb := v }, smootherIn := s } } := by
  unfold syncInputGainFromGui
  dsimp only
  split_ifs with h
  · exact ⟨_, _, .inl rfl, rfl⟩
  · simp only [Bool.or_eq_true, Bool.not_eq_true', not_or, Bool.not_eq_false] at h
    exact ⟨c.rt.params.inputGainDb, c.rt.smootherIn, .inr ⟨h.1, rfl⟩, rfl⟩

theorem syncOutputGainFromGui_eq (c : ParamCtx) :
    ∃ v s, Synced (sanitizeParamValue E .outputGain c.ui.paramOutputGain)
        c.rt.params.outputGainDb v ∧
      syncOutputGainFromGui E c = { c with rt := { c.rt with
        params := { c.rt.params with outputGainDb := v }, smootherOut := s } } := by
  unfold syncOutputGainFromGui
  dsimp only
  split_ifs with h
  · exact ⟨_, _, .inl rfl, rfl⟩
  · simp only [Bool.or_eq_true, Bool.not_eq_true', not_or, Bool.not_eq_false] at h
    exact ⟨c.rt.params.outputGainDb, c.rt.smootherOut, .inr ⟨h.1, rfl⟩, rfl⟩

theorem syncGateThreshFromGui_eq (c : ParamCtx) :
    ∃ v d, Synced (sanitizeParamValue E .gateThresh c.ui.paramGateThresh)
        c.rt.params.gateThresholdDb v ∧
      syncGateThreshFromGui E c = { c with rt := { c.rt with
        params := { c.rt.params with gateThresholdDb := v }, gateDirty := d } } := by
  unfold syncGateThreshFromGui
  dsimp only
  split_ifs with h
  · exact ⟨_, _, .inl rfl, rfl⟩
  · exact ⟨c.rt.params.gateThresholdDb, c.rt.gateDirty, .inr ⟨by simpa using h, rfl⟩, rfl⟩

theorem syncBypassFromGui_eq (c : ParamCtx) :
    syncBypassFromGui c = { c with rt := { c.rt with
      params := { c.rt.params with bypass := bypassU32ToBool c.ui.paramBypass } } } := by
  unfold syncBypassFromGui
  dsimp only
  split_ifs with h
  · rfl
  · rw [not_not.1 h]

theorem syncAdaptiveComputeFromGui_eq (c : ParamCtx) :
    syncAdaptiveComputeFromGui E c = { c with rt := { c.rt with
      params := { c.rt.params with
        adaptiveCompute := E.adaptiveOfF32 (sharedStep E c .adaptiveCompute) }
      adaptive := { c.rt.adaptive with
        mode := E.adaptiveOfF32 (sharedStep E c .adaptiveCompute) } } } := by
  have hsame : ∀ a b, a = c.rt.params.adaptiveCompute → b = c.rt.adaptive.mode →
      c = { c with rt := { c.rt with
        params := { c.rt.params with adaptiveCompute := a }
        adaptive := { c.rt.adaptive with mode := b } } } := by rintro _ _ rfl rfl; rfl
  unfold syncAdaptiveComputeFromGui
  dsimp only
  split_ifs with h
  · rfl
  · exact hsame _ _ (not_not.1 (not_or.1 h).1) (not_not.1 (not_or.1 h).2)

theorem syncSlimOverrideFromGui_eq (c : ParamCtx) :
    syncSlimOverrideFromGui E c = { c with rt := { c.rt with
      params := { c.rt.params with slimOverride := E.slimOfF32 (sharedStep E c .slimOverride) }
      adaptive := { c.rt.adaptive with
        slimOverride := E.slimOfF32 (sharedStep E c .slimOverride) } } } := by
  have hsame : ∀ a b, a = c.rt.params.slimOverride → b = c.rt.adaptive.slimOverride →
      c = { c with rt := { c.rt with
        params := { c.rt.params with slimOverride := a }
        adaptive := { c.rt.adaptive with slimOverride := b } } } := by rintro _ _ rfl rfl; rfl
  unfold syncSlimOverrideFromGui
  dsimp only
  split_ifs with h
  · rfl
  · exact hsame _ _ (not_not.1 (not_or.1 h).1) (not_not.1 (not_or.1 h).2)

theorem applyOversample_eq (c : ParamCtx) (f : OversampleFactor) :
    ∃ o r, applyOversample c f = { c with pendingRestart := o, osRequest := r } := by
  unfold applyOversample
  split_ifs <;> exact ⟨_, _, rfl⟩

theorem applyOversample_rt (c : ParamCtx) (f : OversampleFactor) :
    (applyOversample c f).rt = c.rt := by
  obtain ⟨o, r, h⟩ := applyOversample_eq c f
  rw [h]

/-- A snapshot puts its sanitized parameters in force. -/
theorem applyParamsFromSpsc_params (c : ParamCtx) (new : RtProcessingParams) :
    (applyParamsFromSpsc E c new).rt.params = sanitizeSnapshot E new := by
  unfold applyParamsFromSpsc
  dsimp only
  split
  · rw [applyOversample_rt]
  · rfl

theorem syncOversampleFromGui_eq (c : ParamCtx) :
    ∃ o r, syncOversampleFromGui E c = { c with
      rt := { c.rt with params := { c.rt.params with
        oversample := E.oversampleOfF32 (sharedStep E c .oversample) } }
      pendingRestart := o
      osRequest := r } := by
  have hsame : ∀ a, a = c.rt.params.oversample →
      c = { c with rt := { c.rt with params := { c.rt.params with oversample := a } } } := by
    rintro _ rfl; rfl
  unfold syncOversampleFromGui
  dsimp only
  split_ifs with h
  · obtain ⟨o, r, h⟩ := applyOversample_eq { c with rt := { c.rt with params :=
      { c.rt.params with oversample := E.oversampleOfF32 (sharedStep E c .oversample) } } }
      (E.oversampleOfF32 (sharedStep E c .oversample))
    exact ⟨o, r, h⟩
  · exact ⟨c.pendingRestart, c.osRequest, hsame _ (not_not.1 h)⟩

theorem syncActivationFromGui_eq (c : ParamCtx) :
    ∃ t, syncActivationFromGui E c = { c with rt := { c.rt with
      params := { c.rt.params with
        activationPrecision := E.activationOfF32 (sharedStep E c .activation) }
      activationTls := t } } := by
  have hsame : ∀ a, a = c.rt.params.activationPrecision →
      c = { c with rt := { c.rt with
        params := { c.rt.params with activationPrecision := a } } } := by rintro _ rfl; rfl
  unfold syncActivationFromGui
  dsimp only
  split_ifs with h
  · exact ⟨_, rfl⟩
  · exact ⟨c.rt.activationTls, hsame _ (not_not.1 h)⟩

/-- The parameters after a synchronization from `u`, from the parameters `old`. -/
structure FromGui (u : UiToRt) (old : RtProcessingParams) (r : RtParamState) : Prop where
  inputGain : Synced (sanitizeParamValue E .inputGain u.paramInputGain) old.inputGainDb
    r.params.inputGainDb
  outputGain : Synced (sanitizeParamValue E .outputGain u.paramOutputGain) old.outputGainDb
    r.params.outputGainDb
  gateThresh : Synced (sanitizeParamValue E .gateThresh u.paramGateThresh) old.gateThresholdDb
    r.params.gateThresholdDb
  bypass : r.params.bypass = bypassU32ToBool u.paramBypass
  adaptive : r.params.adaptiveCompute =
    E.adaptiveOfF32 (sanitizeParamValue E .adaptiveCompute (ofNat u.paramAdaptiveCompute.toNat))
  mode : r.adaptive.mode = r.params.adaptiveCompute
  slim : r.params.slimOverride =
    E.slimOfF32 (sanitizeParamValue E .slimOverride (ofNat u.paramSlimOverride.toNat))
  slimOverride : r.adaptive.slimOverride = r.params.slimOverride
  oversample : r.params.oversample =
    E.oversampleOfF32 (sanitizeParamValue E .oversample (ofNat u.paramOversample.toNat))
  activation : r.params.activationPrecision =
    E.activationOfF32 (sanitizeParamValue E .activation (ofNat u.paramActivation.toNat))

theorem syncParamsFromGui_spec (c : ParamCtx) :
    FromGui E c.ui c.rt.params (syncParamsFromGui E c).rt := by
  unfold syncParamsFromGui
  dsimp only
  obtain ⟨gi, si, hgi, h1⟩ := syncInputGainFromGui_eq E c
  rw [h1]
  obtain ⟨go, so, hgo, h2⟩ := syncOutputGainFromGui_eq E { c with rt := { c.rt with
    params := { c.rt.params with inputGainDb := gi }, smootherIn := si } }
  rw [h2]
  obtain ⟨gg, gd, hgg, h3⟩ := syncGateThreshFromGui_eq E { c with rt := { c.rt with
    params := { c.rt.params with inputGainDb := gi, outputGainDb := go }
    smootherIn := si
    smootherOut := so } }
  rw [h3, syncBypassFromGui_eq, syncAdaptiveComputeFromGui_eq, syncSlimOverrideFromGui_eq]
  generalize hc : (ParamCtx.mk _ _ _ _ _) = c4
  obtain ⟨o, r, h4⟩ := syncOversampleFromGui_eq E c4
  rw [h4]
  subst hc
  obtain ⟨t, h5⟩ := syncActivationFromGui_eq E _
  rw [h5]
  exact ⟨hgi, hgo, hgg, rfl, rfl, rfl, rfl, rfl, rfl, rfl⟩

end

end NamPlug
