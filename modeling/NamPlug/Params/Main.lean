import NamPlug.Params.Audio

/-!
# Parameters on the main thread

The event loop of the main-thread `flush` (`extensions/params/main.rs`): every value event updates
the main thread's own parameters and the shared atomics. What `flush` then sends to the audio
thread is in `Plugin/Step.lean`.
-/

namespace NamPlug

open Binary32

/-- A value event of a host: any id and any binary64 value. -/
structure ParamValueEvent where
  id : Nat
  value : Datum
  deriving DecidableEq, Repr

/-- The arms of the event loop for one parameter. -/
def flushParam (E : ParamEngine) (m : RtProcessingParams) (u : UiToRt) (p : ParamId) (v : F32) :
    RtProcessingParams × UiToRt :=
  let val := sanitizeParamValue E p v
  match p with
  | .inputGain => ({ m with inputGainDb := val }, u.store .inputGain val)
  | .outputGain => ({ m with outputGainDb := val }, u.store .outputGain val)
  | .gateThresh => ({ m with gateThresholdDb := val }, u.store .gateThresh val)
  | .bypass =>
    let bypass := bypassF32ToBool val
    ({ m with bypass }, u.store .bypass (bypassBoolToU32 bypass))
  | .activeModel => (m, u)
  | .adaptiveCompute =>
    let mode := E.adaptiveOfF32 val
    ({ m with adaptiveCompute := mode }, u.store .adaptiveCompute (BitVec.ofNat 32 mode.code))
  | .slimOverride =>
    let ov := E.slimOfF32 val
    ({ m with slimOverride := ov }, u.store .slimOverride (BitVec.ofNat 32 ov.code))
  | .oversample =>
    let factor := E.oversampleOfF32 val
    ({ m with oversample := factor }, u.store .oversample (BitVec.ofNat 32 factor.code))
  | .activation =>
    let mode := E.activationOfF32 val
    ({ m with activationPrecision := mode }, u.store .activation (BitVec.ofNat 32 mode.code))

/-- Whether an event reaches the end of the loop body (`param_changed`). -/
def ParamValueEvent.counts (e : ParamValueEvent) : Bool :=
  match ParamId.ofCode e.id with
  | some p => p ≠ .activeModel
  | none => false

/-- One round of the event loop; ids without an arm are skipped. -/
def flushEvent (E : ParamEngine) (mu : RtProcessingParams × UiToRt) (e : ParamValueEvent) :
    RtProcessingParams × UiToRt :=
  match ParamId.ofCode e.id with
  | some p => flushParam E mu.1 mu.2 p (narrow e.value)
  | none => mu

/-- The event loop. -/
def flushEvents (E : ParamEngine) (m : RtProcessingParams) (u : UiToRt)
    (input : List ParamValueEvent) : RtProcessingParams × UiToRt :=
  input.foldl (flushEvent E) (m, u)

end NamPlug
