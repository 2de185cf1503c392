import NamPlug.Params.Atomics

/-!
# Parameters on the audio thread

The parameter state of a processor and the four ways a value reaches it: a scheduled host event
(`applyScheduledEvent`, `dsp/orchestrator/worker.rs`), an event of an audio-thread flush (the
`set*` functions, `processor/params.rs`), the synchronization from the shared atomics
(`syncParamsFromGui`) and a full snapshot from the command ring (`applyParamsFromSpsc`).
-/

namespace NamPlug

open Binary32

/-- The oversampling factor that waits for a host restart (`plugin/shared.rs`). -/
inductive PendingRestartOs where
  | none
  | pending (f : OversampleFactor)
  deriving DecidableEq, Repr

/-- What the plugin sets and reads of the engine's adaptive controller. -/
structure AdaptiveCompute where
  mode : AdaptiveComputeMode
  slimOverride : SlimOverride
  deriving DecidableEq, Repr

/-- The parameter fields of a processor; a smoother is its target. -/
structure RtParamState where
  params : RtProcessingParams
  smootherIn : F32
  smootherOut : F32
  gateDirty : Bool
  modInputGain : F32
  modOutputGain : F32
  modGateThresh : F32
  adaptive : AdaptiveCompute
  activationTls : ActivationPrecision
  deriving DecidableEq, Repr

/-- The parameter fields with the shared state the parameter paths read and write. `osRequest` is
the request for an immediate engine rebuild (`RT_STATUS_NEEDS_OS_REBUILD` and its factor). -/
structure ParamCtx where
  rt : RtParamState
  ui : UiToRt
  bufferSize : Nat
  pendingRestart : PendingRestartOs
  osRequest : Option OversampleFactor
  deriving DecidableEq, Repr

/-- A processor at the defaults. -/
def refRt : RtParamState where
  params := refParams
  smootherIn := f0
  smootherOut := f0
  gateDirty := true
  modInputGain := f0
  modOutputGain := f0
  modGateThresh := f0
  adaptive := ⟨.conservative, .auto⟩
  activationTls := .standard

def refCtx : ParamCtx where
  rt := refRt
  ui := UiToRt.default
  bufferSize := 512
  pendingRestart := .none
  osRequest := none

/-- A gain event's smoother target. -/
structure GainTarget where
  isInput : Bool
  target : F32
  deriving DecidableEq, Repr

section
variable (E : ParamEngine)

/-! ## Scheduled host events -/

/-- The modulation arms of `apply_scheduled_event`. -/
def applyModEvent (c : ParamCtx) (p : ParamId) (value : F32) (applySmoother : Bool) :
    ParamCtx × Option GainTarget :=
  let amount := if isFinite value then value else f0
  match p with
  | .inputGain =>
    let target := E.dbToLinear (add c.rt.params.inputGainDb amount)
    ({ c with rt := { c.rt with
        modInputGain := amount
        smootherIn := if applySmoother then target else c.rt.smootherIn } },
      some ⟨true, target⟩)
  | .outputGain =>
    let target := E.dbToLinear (add c.rt.params.outputGainDb amount)
    ({ c with rt := { c.rt with
        modOutputGain := amount
        smootherOut := if applySmoother then target else c.rt.smootherOut } },
      some ⟨false, target⟩)
  | .gateThresh => ({ c with rt := { c.rt with modGateThresh := amount, gateDirty := true } }, none)
  | _ => (c, none)

/-- The value arms of `apply_scheduled_event`. -/
def applyValueEvent (c : ParamCtx) (p : ParamId) (value : F32) (applySmoother : Bool) :
    ParamCtx × Option GainTarget :=
  let val := sanitizeParamValue E p value
  match p with
  | .inputGain =>
    let target := E.dbToLinear (add val c.rt.modInputGain)
    ({ c with
        rt := { c.rt with
          params := { c.rt.params with inputGainDb := val }
          smootherIn := if applySmoother then target else c.rt.smootherIn }
        ui := c.ui.store .inputGain val },
      some ⟨true, target⟩)
  | .outputGain =>
    let target := E.dbToLinear (add val c.rt.modOutputGain)
    ({ c with
        rt := { c.rt with
          params := { c.rt.params with outputGainDb := val }
          smootherOut := if applySmoother then target else c.rt.smootherOut }
        ui := c.ui.store .outputGain val },
      some ⟨false, target⟩)
  | .gateThresh =>
    ({ c with
        rt := { c.rt with params := { c.rt.params with gateThresholdDb := val }, gateDirty := true }
        ui := c.ui.store .gateThresh val },
      none)
  | .bypass =>
    let bypass := bypassF32ToBool val
    ({ c with
        rt := { c.rt with params := { c.rt.params with bypass } }
        ui := c.ui.store .bypass (bypassBoolToU32 bypass) },
      none)
  | .activeModel => (c, none)
  | .adaptiveCompute =>
    let mode := E.adaptiveOfF32 val
    ({ c with
        rt := { c.rt with
          params := { c.rt.params with adaptiveCompute := mode }
          adaptive := { c.rt.adaptive with mode } }
        ui := c.ui.store .adaptiveCompute (BitVec.ofNat 32 mode.code) },
      none)
  | .slimOverride =>
    let ov := E.slimOfF32 val
    ({ c with
        rt := { c.rt with
          params := { c.rt.params with slimOverride := ov }
          adaptive := { c.rt.adaptive with slimOverride := ov } }
        ui := c.ui.store .slimOverride (BitVec.ofNat 32 ov.code) },
      none)
  | .oversample =>
    let factor := E.oversampleOfF32 val
    if factor ≠ c.rt.params.oversample then
      let c := { c with
        rt := { c.rt with params := { c.rt.params with oversample := factor } }
        ui := c.ui.store .oversample (BitVec.ofNat 32 factor.code) }
      if 0 < c.bufferSize then ({ c with pendingRestart := .pending factor }, none)
      else ({ c with osRequest := some factor }, none)
    else (c, none)
  | .activation =>
    let mode := E.activationOfF32 val
    if mode ≠ c.rt.params.activationPrecision then
      ({ c with
          rt := { c.rt with
            params := { c.rt.params with activationPrecision := mode }
            activationTls := mode }
          ui := c.ui.store .activation (BitVec.ofNat 32 mode.code) },
        none)
    else (c, none)

/-- `apply_scheduled_event`. -/
def applyScheduledEvent (c : ParamCtx) (p : ParamId) (value : F32) (isMod applySmoother : Bool) :
    ParamCtx × Option GainTarget :=
  if isMod then applyModEvent E c p value applySmoother
  else applyValueEvent E c p value applySmoother

/-! ## Oversampling policy -/

/-- `apply_oversample`: an active plugin defers the change to the next activation. -/
def applyOversample (c : ParamCtx) (factor : OversampleFactor) : ParamCtx :=
  if 0 < c.bufferSize then
    if c.pendingRestart ≠ .pending factor then { c with pendingRestart := .pending factor } else c
  else { c with osRequest := some factor }

/-! ## Audio-thread flush -/

/-- The `set_*` functions. -/
def setParam (c : ParamCtx) (p : ParamId) (v : F32) : ParamCtx :=
  let val := sanitizeParamValue E p v
  match p with
  | .inputGain =>
    { c with
      rt := { c.rt with
        params := { c.rt.params with inputGainDb := val }
        smootherIn := E.dbToLinear (add val c.rt.modInputGain) }
      ui := c.ui.store .inputGain val }
  | .outputGain =>
    { c with
      rt := { c.rt with
        params := { c.rt.params with outputGainDb := val }
        smootherOut := E.dbToLinear (add val c.rt.modOutputGain) }
      ui := c.ui.store .outputGain val }
  | .gateThresh =>
    { c with
      rt := { c.rt with params := { c.rt.params with gateThresholdDb := val }, gateDirty := true }
      ui := c.ui.store .gateThresh val }
  | .bypass =>
    let bypass := bypassF32ToBool val
    { c with
      rt := { c.rt with params := { c.rt.params with bypass } }
      ui := c.ui.store .bypass (bypassBoolToU32 bypass) }
  | .activeModel => c
  | .adaptiveCompute =>
    let mode := E.adaptiveOfF32 val
    { c with
      rt := { c.rt with
        params := { c.rt.params with adaptiveCompute := mode }
        adaptive := { c.rt.adaptive with mode } }
      ui := c.ui.store .adaptiveCompute (BitVec.ofNat 32 mode.code) }
  | .slimOverride =>
    let ov := E.slimOfF32 val
    { c with
      rt := { c.rt with
        params := { c.rt.params with slimOverride := ov }
        adaptive := { c.rt.adaptive with slimOverride := ov } }
      ui := c.ui.store .slimOverride (BitVec.ofNat 32 ov.code) }
  | .oversample =>
    let factor := E.oversampleOfF32 val
    if factor ≠ c.rt.params.oversample then
      applyOversample { c with
        rt := { c.rt with params := { c.rt.params with oversample := factor } }
        ui := c.ui.store .oversample (BitVec.ofNat 32 factor.code) } factor
    else c
  | .activation =>
    let mode := E.activationOfF32 val
    if mode ≠ c.rt.params.activationPrecision then
      { c with
        rt := { c.rt with
          params := { c.rt.params with activationPrecision := mode }
          activationTls := mode }
        ui := c.ui.store .activation (BitVec.ofNat 32 mode.code) }
    else c

/-! ## Synchronization from the shared atomics -/

/-- 1e-6 -/
def smootherTolerance : F32 := 0x358637BD#32

/-- `(a - b).abs() > 1e-6`. -/
def targetsDiffer (a b : F32) : Bool := lt smootherTolerance (abs (sub a b))

def syncInputGainFromGui (c : ParamCtx) : ParamCtx :=
  let sharedDb := sanitizeParamValue E .inputGain c.ui.paramInputGain
  let target := E.dbToLinear (add sharedDb c.rt.modInputGain)
  if !feq sharedDb c.rt.params.inputGainDb || targetsDiffer c.rt.smootherIn target then
    { c with rt := { c.rt with
        params := { c.rt.params with inputGainDb := sharedDb }, smootherIn := target } }
  else c

def syncOutputGainFromGui (c : ParamCtx) : ParamCtx :=
  let sharedDb := sanitizeParamValue E .outputGain c.ui.paramOutputGain
  let target := E.dbToLinear (add sharedDb c.rt.modOutputGain)
  if !feq sharedDb c.rt.params.outputGainDb || targetsDiffer c.rt.smootherOut target then
    { c with rt := { c.rt with
        params := { c.rt.params with outputGainDb := sharedDb }, smootherOut := target } }
  else c

def syncGateThreshFromGui (c : ParamCtx) : ParamCtx :=
  let sharedDb := sanitizeParamValue E .gateThresh c.ui.paramGateThresh
  if !feq sharedDb c.rt.params.gateThresholdDb then
    { c with rt := { c.rt with
        params := { c.rt.params with gateThresholdDb := sharedDb }, gateDirty := true } }
  else c

def syncBypassFromGui (c : ParamCtx) : ParamCtx :=
  let sharedBypass := bypassU32ToBool c.ui.paramBypass
  if sharedBypass ≠ c.rt.params.bypass then
    { c with rt := { c.rt with params := { c.rt.params with bypass := sharedBypass } } }
  else c

/-- A stepped parameter's raw atomic as a sanitized float. -/
def sharedStep (c : ParamCtx) (p : ParamId) : F32 :=
  sanitizeParamValue E p (ofNat (c.ui.load p).toNat)

def syncAdaptiveComputeFromGui (c : ParamCtx) : ParamCtx :=
  let shared := E.adaptiveOfF32 (sharedStep E c .adaptiveCompute)
  if shared ≠ c.rt.params.adaptiveCompute ∨ shared ≠ c.rt.adaptive.mode then
    { c with rt := { c.rt with
        params := { c.rt.params with adaptiveCompute := shared }
        adaptive := { c.rt.adaptive with mode := shared } } }
  else c

def syncSlimOverrideFromGui (c : ParamCtx) : ParamCtx :=
  let shared := E.slimOfF32 (sharedStep E c .slimOverride)
  if shared ≠ c.rt.params.slimOverride ∨ shared ≠ c.rt.adaptive.slimOverride then
    { c with rt := { c.rt with
        params := { c.rt.params with slimOverride := shared }
        adaptive := { c.rt.adaptive with slimOverride := shared } } }
  else c

def syncOversampleFromGui (c : ParamCtx) : ParamCtx :=
  let shared := E.oversampleOfF32 (sharedStep E c .oversample)
  if shared ≠ c.rt.params.oversample then
    applyOversample
      { c with rt := { c.rt with params := { c.rt.params with oversample := shared } } } shared
  else c

def syncActivationFromGui (c : ParamCtx) : ParamCtx :=
  let shared := E.activationOfF32 (sharedStep E c .activation)
  if shared ≠ c.rt.params.activationPrecision then
    { c with rt := { c.rt with
        params := { c.rt.params with activationPrecision := shared }, activationTls := shared } }
  else c

/-- `sync_params_from_gui`. -/
def syncParamsFromGui (c : ParamCtx) : ParamCtx :=
  let c := syncInputGainFromGui E c
  let c := syncOutputGainFromGui E c
  let c := syncGateThreshFromGui E c
  let c := syncBypassFromGui c
  let c := syncAdaptiveComputeFromGui E c
  let c := syncSlimOverrideFromGui E c
  let c := syncOversampleFromGui E c
  syncActivationFromGui E c

/-! ## Snapshots from the command ring -/

/-- A snapshot with its float parameters sanitized. -/
def sanitizeSnapshot (p : RtProcessingParams) : RtProcessingParams :=
  { p with
    inputGainDb := sanitizeParamValue E .inputGain p.inputGainDb
    outputGainDb := sanitizeParamValue E .outputGain p.outputGainDb
    gateThresholdDb := sanitizeParamValue E .gateThresh p.gateThresholdDb }

/-- `apply_params_from_spsc`: only the fields that change have their side effect. -/
def applyParamsFromSpsc (c : ParamCtx) (newParams : RtProcessingParams) : ParamCtx :=
  let new := sanitizeSnapshot E newParams
  let old := c.rt.params
  let c := { c with rt := { c.rt with
    params := new
    smootherIn := E.dbToLinear (add new.inputGainDb c.rt.modInputGain)
    smootherOut := E.dbToLinear (add new.outputGainDb c.rt.modOutputGain)
    adaptive := {
      mode := if old.adaptiveCompute ≠ new.adaptiveCompute then new.adaptiveCompute
        else c.rt.adaptive.mode
      slimOverride := if old.slimOverride ≠ new.slimOverride then new.slimOverride
        else c.rt.adaptive.slimOverride }
    activationTls := if old.activationPrecision ≠ new.activationPrecision then
        new.activationPrecision else c.rt.activationTls
    gateDirty := c.rt.gateDirty || !feq old.gateThresholdDb new.gateThresholdDb } }
  if old.oversample ≠ new.oversample then applyOversample c new.oversample else c

end

end NamPlug
