import NamPlug.Params.Main
import NamPlug.Params.Proof.Sanitize

/-!
# What the atomics can hold

`Coded u`: every stepped parameter holds one of its codes. It is true of the defaults and kept by
every path that stores a parameter: the GUI callbacks (`coded_guiCallback`), the scheduled host
events (`coded_applyScheduledEvent`), the audio-thread flush (`coded_setParam`) and the
main-thread flush (`coded_flushParam`).
-/

namespace NamPlug

open Binary32

/-- The largest code of a parameter that is not stored as a float. -/
def stepMax : ParamId → Option Nat
  | .inputGain => none
  | .outputGain => none
  | .gateThresh => none
  | .bypass => some 1
  | .activeModel => some 0
  | .adaptiveCompute => some 2
  | .slimOverride => some 2
  | .oversample => some 2
  | .activation => some 1

def Coded (u : UiToRt) : Prop := ∀ p n, stepMax p = some n → (u.load p).toNat ≤ n

theorem coded_default : Coded UiToRt.default := by
  intro p n h
  cases p <;> simp only [stepMax, Option.some.injEq, reduceCtorEq] at h <;> subst h <;> decide

theorem Coded.store {u : UiToRt} (hu : Coded u) {p : ParamId} {v : BitVec 32}
    (hv : ∀ n, stepMax p = some n → v.toNat ≤ n) : Coded (u.store p v) := by
  intro q n hq
  by_cases hqp : q = p
  · subst hqp
    by_cases ha : q = .activeModel
    · subst ha
      exact hu _ n hq
    · rw [UiToRt.load_store_self u v ha]
      exact hv n hq
  · rw [UiToRt.load_store_ne u v hqp]
    exact hu q n hq

/-- Changing the flags or the generation keeps the values. -/
theorem Coded.of_load {u u' : UiToRt} (hu : Coded u) (h : ∀ p, u'.load p = u.load p) :
    Coded u' := fun p n hp => by rw [h p]; exact hu p n hp

theorem toNat_bypassBoolToU32_le (b : Bool) : (bypassBoolToU32 b).toNat ≤ 1 := by
  cases b <;> decide

theorem toNat_minU32_le (v n : BitVec 32) : (minU32 v n).toNat ≤ n.toNat := by
  unfold minU32
  split
  · assumption
  · exact Nat.le_refl _

theorem toNat_code_le {n m : Nat} (h : n ≤ m) : (BitVec.ofNat 32 n).toNat ≤ m := by
  rw [BitVec.toNat_ofNat]
  exact Nat.le_trans (Nat.mod_le _ _) h

/-! ## GUI callbacks -/

theorem toNat_guiValue_le (u : UiToRt) (e : GuiEdit) {n : Nat} (h : stepMax e.param = some n) :
    (e.value u).toNat ≤ n := by
  cases e <;> simp only [GuiEdit.param, stepMax, Option.some.injEq, reduceCtorEq] at h <;> subst h
  case toggleBypass =>
    simp only [GuiEdit.value]
    split <;> decide
  case oversampleChanged val => exact toNat_minU32_le val 2
  case cycleOversample =>
    simp only [GuiEdit.value, BitVec.toNat_umod]
    exact Nat.le_of_lt_succ (Nat.mod_lt _ (by decide))
  case activationChanged val => exact toNat_minU32_le val 1

theorem load_guiAnnounce (u : UiToRt) (e : GuiEdit) (p : ParamId) :
    (guiAnnounce u e).load p = u.load p := by
  unfold guiAnnounce
  split <;> simp [UiToRt.markParamChanged, UiToRt.beginGesture, UiToRt.endGesture]

theorem coded_guiCallback {u : UiToRt} (hu : Coded u) (e : GuiEdit) : Coded (guiCallback u e) :=
  (hu.store (fun _ h => toNat_guiValue_le u e h)).of_load (load_guiAnnounce _ e)

/-! ## Host events -/

section
variable (E : ParamEngine)

theorem applyModEvent_ui (c : ParamCtx) (p : ParamId) (v : F32) (smooth : Bool) :
    (applyModEvent E c p v smooth).1.ui = c.ui := by cases p <;> rfl

theorem coded_applyScheduledEvent {c : ParamCtx} (hc : Coded c.ui) (p : ParamId) (v : F32)
    (isMod smooth : Bool) : Coded (applyScheduledEvent E c p v isMod smooth).1.ui := by
  unfold applyScheduledEvent
  split
  · rw [applyModEvent_ui]
    exact hc
  · unfold applyValueEvent
    cases p <;> simp only
    case inputGain => exact hc.store (fun _ h => by cases h)
    case outputGain => exact hc.store (fun _ h => by cases h)
    case gateThresh => exact hc.store (fun _ h => by cases h)
    case bypass => exact hc.store (fun _ h => by cases h; exact toNat_bypassBoolToU32_le _)
    case activeModel => exact hc
    case adaptiveCompute =>
      exact hc.store (fun _ h => by cases h; exact toNat_code_le (AdaptiveComputeMode.code_le _))
    case slimOverride =>
      exact hc.store (fun _ h => by cases h; exact toNat_code_le (SlimOverride.code_le _))
    case oversample =>
      have hs := hc.store (p := .oversample)
        (v := BitVec.ofNat 32 (E.oversampleOfF32 (sanitizeParamValue E .oversample v)).code)
        (fun _ h => by cases h; exact toNat_code_le (OversampleFactor.code_le _))
      split
      · split <;> exact hs
      · exact hc
    case activation =>
      split
      · exact hc.store (fun _ h => by cases h; exact toNat_code_le (ActivationPrecision.code_le _))
      · exact hc

theorem applyOversample_ui (c : ParamCtx) (f : OversampleFactor) :
    (applyOversample c f).ui = c.ui := by
  unfold applyOversample
  split
  · split <;> rfl
  · rfl

/-- The audio-thread flush stores what a scheduled event stores. -/
theorem setParam_ui (c : ParamCtx) (p : ParamId) (v : F32) :
    (setParam E c p v).ui = (applyScheduledEvent E c p v false true).1.ui := by
  cases p <;> simp only [setParam, applyScheduledEvent, applyValueEvent, Bool.false_eq_true,
    if_false]
  case oversample =>
    split
    · rw [applyOversample_ui]
      split <;> rfl
    · rfl
  case activation => split <;> rfl

theorem coded_setParam {c : ParamCtx} (hc : Coded c.ui) (p : ParamId) (v : F32) :
    Coded (setParam E c p v).ui := by
  rw [setParam_ui]
  exact coded_applyScheduledEvent E hc p v false true

theorem coded_flushParam {u : UiToRt} (hu : Coded u) (m : RtProcessingParams) (p : ParamId)
    (v : F32) : Coded (flushParam E m u p v).2 := by
  cases p <;> simp only [flushParam]
  case inputGain => exact hu.store (fun _ h => by cases h)
  case outputGain => exact hu.store (fun _ h => by cases h)
  case gateThresh => exact hu.store (fun _ h => by cases h)
  case bypass => exact hu.store (fun _ h => by cases h; exact toNat_bypassBoolToU32_le _)
  case activeModel => exact hu
  case adaptiveCompute =>
    exact hu.store (fun _ h => by cases h; exact toNat_code_le (AdaptiveComputeMode.code_le _))
  case slimOverride =>
    exact hu.store (fun _ h => by cases h; exact toNat_code_le (SlimOverride.code_le _))
  case oversample =>
    exact hu.store (fun _ h => by cases h; exact toNat_code_le (OversampleFactor.code_le _))
  case activation =>
    exact hu.store (fun _ h => by cases h; exact toNat_code_le (ActivationPrecision.code_le _))

theorem coded_flushEvent {mu : RtProcessingParams × UiToRt} (hu : Coded mu.2)
    (e : ParamValueEvent) : Coded (flushEvent E mu e).2 := by
  unfold flushEvent
  split
  · exact coded_flushParam E hu _ _ _
  · exact hu

/-! ## Paths that store nothing -/

theorem syncParamsFromGui_ui (c : ParamCtx) : (syncParamsFromGui E c).ui = c.ui := by
  have h1 : ∀ c, (syncInputGainFromGui E c).ui = c.ui := fun c => by
    unfold syncInputGainFromGui; simp only; split <;> rfl
  have h2 : ∀ c, (syncOutputGainFromGui E c).ui = c.ui := fun c => by
    unfold syncOutputGainFromGui; simp only; split <;> rfl
  have h3 : ∀ c, (syncGateThreshFromGui E c).ui = c.ui := fun c => by
    unfold syncGateThreshFromGui; simp only; split <;> rfl
  have h4 : ∀ c, (syncBypassFromGui c).ui = c.ui := fun c => by
    unfold syncBypassFromGui; simp only; split <;> rfl
  have h5 : ∀ c, (syncAdaptiveComputeFromGui E c).ui = c.ui := fun c => by
    unfold syncAdaptiveComputeFromGui; simp only; split <;> rfl
  have h6 : ∀ c, (syncSlimOverrideFromGui E c).ui = c.ui := fun c => by
    unfold syncSlimOverrideFromGui; simp only; split <;> rfl
  have h7 : ∀ c, (syncOversampleFromGui E c).ui = c.ui := fun c => by
    unfold syncOversampleFromGui; simp only; split
    · rw [applyOversample_ui]
    · rfl
  have h8 : ∀ c, (syncActivationFromGui E c).ui = c.ui := fun c => by
    unfold syncActivationFromGui; simp only; split <;> rfl
  simp only [syncParamsFromGui, h1, h2, h3, h4, h5, h6, h7, h8]

theorem applyParamsFromSpsc_ui (c : ParamCtx) (r : RtProcessingParams) :
    (applyParamsFromSpsc E c r).ui = c.ui := by
  unfold applyParamsFromSpsc
  simp only
  split
  · rw [applyOversample_ui]
  · rfl

end

end NamPlug
