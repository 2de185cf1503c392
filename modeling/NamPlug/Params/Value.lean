import NamPlug.Lib.Binary32

/-!
# Parameter values

The parameters of the plugin, the real-time snapshot of their values and the checks a value
passes on its way in (`extensions/params/mod.rs`). What the engine crate defines (gain limits,
decoders of the stepped parameters, the gain table, the default snapshot) is a field of
`ParamEngine`, with what the plugin relies on as its laws.
-/

namespace NamPlug

open Binary32

/-! ## Parameters -/

/-- The nine CLAP parameters. -/
inductive ParamId where
  | inputGain | outputGain | gateThresh | bypass | activeModel | adaptiveCompute | slimOverride
  | oversample | activation
  deriving DecidableEq, Repr

/-- The CLAP parameter id (`PARAM_*`). -/
def ParamId.code : ParamId → Nat
  | .inputGain => 0
  | .outputGain => 1
  | .gateThresh => 2
  | .bypass => 3
  | .activeModel => 4
  | .adaptiveCompute => 5
  | .slimOverride => 6
  | .oversample => 7
  | .activation => 8

/-- The parameter a host id names; every event path skips the other ids. -/
def ParamId.ofCode : Nat → Option ParamId
  | 0 => some .inputGain
  | 1 => some .outputGain
  | 2 => some .gateThresh
  | 3 => some .bypass
  | 4 => some .activeModel
  | 5 => some .adaptiveCompute
  | 6 => some .slimOverride
  | 7 => some .oversample
  | 8 => some .activation
  | _ => none

theorem ParamId.ofCode_code (p : ParamId) : ofCode p.code = some p := by cases p <;> rfl

theorem ParamId.code_inj {p q : ParamId} (h : p.code = q.code) : p = q := by
  simpa [ofCode_code] using congrArg ofCode h

inductive AdaptiveComputeMode where
  | off | conservative | aggressive
  deriving DecidableEq, Repr

inductive SlimOverride where
  | auto | forceFull | forceLite
  deriving DecidableEq, Repr

inductive OversampleFactor where
  | off | x2 | x4
  deriving DecidableEq, Repr

inductive ActivationPrecision where
  | fast | standard
  deriving DecidableEq, Repr

/-! The integers the shared atomics hold for the stepped parameters. -/

def AdaptiveComputeMode.code : AdaptiveComputeMode → Nat
  | .off => 0 | .conservative => 1 | .aggressive => 2

def SlimOverride.code : SlimOverride → Nat
  | .auto => 0 | .forceFull => 1 | .forceLite => 2

def OversampleFactor.code : OversampleFactor → Nat
  | .off => 0 | .x2 => 1 | .x4 => 2

def ActivationPrecision.code : ActivationPrecision → Nat
  | .fast => 0 | .standard => 1

/-- One value of every parameter, as the audio thread holds and receives it. -/
structure RtProcessingParams where
  inputGainDb : F32
  outputGainDb : F32
  gateThresholdDb : F32
  bypass : Bool
  adaptiveCompute : AdaptiveComputeMode
  slimOverride : SlimOverride
  oversample : OversampleFactor
  activationPrecision : ActivationPrecision
  deriving DecidableEq, Repr

/-! ## Constants -/

def f0 : F32 := 0x00000000#32
def f0_5 : F32 := 0x3F000000#32
def f1 : F32 := 0x3F800000#32
def f2 : F32 := 0x40000000#32
def f1000 : F32 := 0x447A0000#32
/-- -40.0 -/
def fm40 : F32 := 0xC2200000#32
/-- -90.0 -/
def fm90 : F32 := 0xC2B40000#32

/-- What the plugin takes from the engine crate for its parameters. -/
structure ParamEngine where
  gainMinDb : F32
  gainMaxDb : F32
  adaptiveOfF32 : F32 → AdaptiveComputeMode
  slimOfF32 : F32 → SlimOverride
  oversampleOfF32 : F32 → OversampleFactor
  activationOfF32 : F32 → ActivationPrecision
  dbToLinear : F32 → F32
  /-- `RtProcessingParams::default()`. -/
  rtDefault : RtProcessingParams
  gainMin_finite : isFinite gainMinDb = true
  gainMax_finite : isFinite gainMaxDb = true
  gainMin_le : lt f0 gainMinDb = false
  gainMax_ge : lt gainMaxDb f0 = false
  adaptive_code : ∀ m, adaptiveOfF32 (ofNat m.code) = m
  slim_code : ∀ m, slimOfF32 (ofNat m.code) = m
  oversample_code : ∀ m, oversampleOfF32 (ofNat m.code) = m
  activation_code : ∀ m, activationOfF32 (ofNat m.code) = m

/-! A concrete engine for runs on fixed inputs: gains from -20 dB to 20 dB, stepped parameters decoded
from the codes the atomics hold, the gain table replaced by the identity. -/

/-- 20.0 -/
def f20 : F32 := 0x41A00000#32
/-- -20.0 -/
def fm20 : F32 := 0xC1A00000#32

/-- The defaults the shared atomics start with. -/
def refParams : RtProcessingParams where
  inputGainDb := f0
  outputGainDb := f0
  gateThresholdDb := fm90
  bypass := false
  adaptiveCompute := .conservative
  slimOverride := .auto
  oversample := .off
  activationPrecision := .standard

def refParamEngine : ParamEngine where
  gainMinDb := fm20
  gainMaxDb := f20
  adaptiveOfF32 v := if v = f1 then .conservative else if v = f2 then .aggressive else .off
  slimOfF32 v := if v = f1 then .forceFull else if v = f2 then .forceLite else .auto
  oversampleOfF32 v := if v = f1 then .x2 else if v = f2 then .x4 else .off
  activationOfF32 v := if v = f1 then .standard else .fast
  dbToLinear v := v
  rtDefault := refParams
  gainMin_finite := by decide +kernel
  gainMax_finite := by decide +kernel
  gainMin_le := by decide +kernel
  gainMax_ge := by decide +kernel
  adaptive_code m := by cases m <;> decide +kernel
  slim_code m := by cases m <;> decide +kernel
  oversample_code m := by cases m <;> decide +kernel
  activation_code m := by cases m <;> decide +kernel

/-! ## Bypass -/

def BYPASS_OFF : BitVec 32 := 0

def BYPASS_ON : BitVec 32 := 1

def bypassU32ToBool (v : BitVec 32) : Bool := v != 0

def bypassBoolToU32 (b : Bool) : BitVec 32 := if b then BYPASS_ON else BYPASS_OFF

def bypassF32ToBool (v : F32) : Bool := lt f0_5 v

/-! ## Sanitizing -/

/-- `f v`, or the default `d` where `v` is a NaN or an infinity. -/
def finiteOr (d : F32) (f : F32 → F32) (v : F32) : F32 := if isFinite v then f v else d

/-- The arm of a parameter with a range: `d` is its default. -/
def sanitizeRange (d lo hi v : F32) : F32 := finiteOr d (fun v => clamp v lo hi) v

/-- The arm of a stepped parameter with the steps `0 .. hi`. -/
def sanitizeStep (d hi v : F32) : F32 := finiteOr d (fun v => clamp (round v) f0 hi) v

/-- `sanitize_param_value`, for the ids the plugin has. -/
def sanitizeParamValue (E : ParamEngine) : ParamId → F32 → F32
  | .inputGain, v => sanitizeRange f0 E.gainMinDb E.gainMaxDb v
  | .outputGain, v => sanitizeRange f0 E.gainMinDb E.gainMaxDb v
  | .gateThresh, v => sanitizeRange fm90 fm90 fm40 v
  | .bypass, v => finiteOr f0 (fun v => if le f0_5 v then f1 else f0) v
  | .activeModel, v => sanitizeRange f0 f0 f1000 v
  | .adaptiveCompute, v => sanitizeStep f1 f2 v
  | .slimOverride, v => sanitizeStep f0 f2 v
  | .oversample, v => sanitizeStep f0 f2 v
  | .activation, v => sanitizeStep f1 f1 v

end NamPlug
