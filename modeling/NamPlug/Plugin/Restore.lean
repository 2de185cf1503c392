import NamPlug.Plugin.Load

/-!
# State restores

The commit of a validated restore (`extensions/state_transaction/commit.rs`): delivered through the
ring and published once acknowledged, staged for a restart where it changes the latency, or
committed on the spot before the first activation. `ValidatedRestore` is the outcome of the
validation, which is modelled in `State/`.
-/

namespace NamPlug

inductive RestoreMode where
  | full | forPreset
  deriving DecidableEq, Repr

/-- A restore that passed validation: its parameters, and the model and IR found for it. The IR is
the file the parameters name. -/
structure ValidatedRestore where
  params : ProcessingParams
  model : Option ModelFile
  ir : Option Asset
  ir_path : ir.map Asset.path = params.irPath
  deriving DecidableEq, Repr

/-- A snapshot with the parameters of a preset. -/
def ProcessingParams.withPreset (p q : ProcessingParams) : ProcessingParams := { p with rt := q.rt }

section
variable (E : Engine)

/-! ## Building the package -/

/-- The model resources of a validated restore. -/
def restoreModel (s : Shared) (f : ModelFile) (generation : Nat) : LoadModelPayload :=
  { generation
    modelL := some (if 0 < s.bufferSize then f.modelL.setMaxBufferSize s.bufferSize else f.modelL)
    modelR :=
      if 0 < s.bufferSize then f.modelR.map (·.setMaxBufferSize s.bufferSize) else f.modelR
    newResampler := ⟨s.hostRate, f.rate⟩
    newStream := buildStreamAdapter s.hostRate f.rate s.bufferSize
    modelRate := f.rate }

/-- The payload that clears the model in a full restore. -/
def restoreClear (s : Shared) (generation : Nat) : LoadModelPayload :=
  { generation
    modelL := none
    modelR := none
    newResampler := ⟨s.hostRate, 48000⟩
    newStream := buildStreamAdapter s.hostRate 48000 s.bufferSize
    modelRate := 48000 }

/-- The IR resources of a validated restore. -/
def restoreIr (s : Shared) (ir : Asset) : CabSimPair :=
  ⟨ir, s.hostRate, if 0 < s.bufferSize then s.bufferSize else 256⟩

/-- What a validated restore publishes. -/
def restorePublish (s : Shared) (v : ValidatedRestore) (mode : RestoreMode) : RestorePublish :=
  { modeFull := mode = .full
    params := match mode with
      | .full => v.params
      | .forPreset => s.params.withPreset v.params
    model := v.model.map (·.rate)
    fullWavenet := v.model.bind (·.modelL.fullWavenet)
    modelPathOnDisk := v.model.map (·.asset.path)
    modelBasename := v.model.bind (·.asset.path.fileName)
    modelHash := v.model.map (·.asset.hash)
    modelSearchPathToAdd := v.model.bind (·.asset.path.parent)
    irPathOnDisk := v.ir.map (·.path)
    irHash := v.ir.map (·.hash)
    irRawSamples := v.ir.map (⟨·, s.hostRate⟩) }

/-- `build_restore_package`: the generations are allocated as the components are built; `none`
where the passthrough resources of a cleared model cannot be built. -/
def Shared.buildRestorePackage (s : Shared) (v : ValidatedRestore) (mode : RestoreMode)
    (faults : EngineCall → Bool) : Option (Shared × RestorePublish × RestoreTxn) :=
  let publish := restorePublish s v mode
  let ir := match v.ir, mode with
    | some ir, _ => some (some (restoreIr s ir))
    | none, .full => some none
    | none, .forPreset => none
  let finish := fun (s : Shared) (model : Option LoadModelPayload) =>
    let s := { s with nextRestoreGeneration := s.nextRestoreGeneration + 1 }
    (s, publish, { generation := s.nextRestoreGeneration, model, ir, params := publish.params.rt })
  match v.model, mode with
  | some f, _ =>
    let s := s.allocateModelGeneration
    some (finish s (some (restoreModel s f s.modelGeneration)))
  | none, .full =>
    if faults .resampler || faults .stream then none
    else
      let s := s.allocateModelGeneration
      some (finish s (some (restoreClear s s.modelGeneration)))
  | none, .forPreset => some (finish s none)

/-! ## Publication -/

/-- The eight parameters in the shared atomics. -/
def UiToRt.storeParams (u : UiToRt) (p : RtProcessingParams) : UiToRt :=
  { u with
    paramInputGain := p.inputGainDb
    paramOutputGain := p.outputGainDb
    paramGateThresh := p.gateThresholdDb
    paramBypass := bypassBoolToU32 p.bypass
    paramAdaptiveCompute := BitVec.ofNat 32 p.adaptiveCompute.code
    paramSlimOverride := BitVec.ofNat 32 p.slimOverride.code
    paramOversample := BitVec.ofNat 32 p.oversample.code
    paramActivation := BitVec.ofNat 32 p.activationPrecision.code }

/-- The model identity of a full restore. -/
def ProcessingParams.withModelIdentity (p : ProcessingParams) (pub : RestorePublish) :
    ProcessingParams :=
  { p with
    modelPath := pub.modelPathOnDisk
    modelBasename := pub.modelBasename
    modelHash := pub.modelHash
    modelSearchPaths := match pub.modelSearchPathToAdd with
      | some d => if d ∈ p.modelSearchPaths then p.modelSearchPaths else p.modelSearchPaths ++ [d]
      | none => p.modelSearchPaths }

/-- The parameter section of a publication, the same for a pre-activation commit. -/
def Shared.publishParams (s : Shared) (pub : RestorePublish) : Shared :=
  let params :=
    if pub.modeFull then pub.params.withModelIdentity pub else s.params.withPreset pub.params
  { s with params, ui := s.ui.storeParams params.rt }.bumpGeneration

/-- `publish_restore`. -/
def Shared.publishRestore (s : Shared) (pub : RestorePublish) : Shared :=
  let s := match pub.model with
    | some rate =>
      { s with
        modelSampleRate := rate
        slim := { s.slim with fullWavenetModel := pub.fullWavenet } }
    | none =>
      if pub.modeFull then
        { s with modelSampleRate := 48000, slim := { s.slim with fullWavenetModel := none } }
      else s
  let s := match pub.irPathOnDisk with
    | some path =>
      { s with
        irPath := some path
        irHash := pub.irHash
        irRawSamples := pub.irRawSamples
        params := { s.params with irPath := some path, irHash := pub.irHash } }
    | none =>
      if pub.modeFull then
        { s with
          irPath := none
          irHash := none
          irRawSamples := none
          params := { s.params with irPath := none, irHash := none } }
      else s
  s.publishParams pub

/-! ## Commit -/

/-- The intents of a restore. -/
def Shared.noteRestore (s : Shared) (txn : RestoreTxn) : Shared :=
  let s := match txn.model with
    | some m => s.note (.model m.generation (m.modelL.map StaticModel.asset))
    | none => s
  let s := match txn.ir with
    | some ir => s.note (.ir (ir.map CabSimPair.asset))
    | none => s
  s.note (.params txn.params)

/-- `deliver_pending_restore`: the first push of a transaction. -/
def Shared.deliverPendingRestore (s : Shared) (txn : RestoreTxn) (publish : RestorePublish) :
    Shared :=
  match s.tryPushCommand (.restoreTxn txn) with
  | (s, true) =>
    { s with pendingRestore := some ⟨txn.generation, none, publish, s.cmdNextSeq⟩ }
  | (s, false) => { s with pendingRestore := some ⟨txn.generation, some txn, publish, 0⟩ }

/-- `atomic_commit`. -/
def Shared.atomicCommit (s : Shared) (v : ValidatedRestore) (mode : RestoreMode)
    (faults : EngineCall → Bool) : Shared :=
  match s.buildRestorePackage v mode faults with
  | none => s
  | some (s, publish, txn) =>
    let streamLatencyDiffers :=
      txn.model.any fun m => E.streamLatency m.newStream ≠ s.currentStreamLatency
    let cabsimLatencyDiffers := txn.ir.any fun ir => cabsimLatency ir ≠ s.currentCabsimLatency
    let currentOs := E.oversampleOfF32 (Binary32.ofNat s.ui.paramOversample.toNat)
    let osDiffers := publish.params.rt.oversample ≠ currentOs ∨ s.pendingRestartOs ≠ .none
    let s :=
      if streamLatencyDiffers ∨ cabsimLatencyDiffers ∨ osDiffers then
        { s with
          pendingRestartOs :=
            if osDiffers then .pending publish.params.rt.oversample else s.pendingRestartOs
          stagedSwap := none
          stagedRestore := some ⟨txn, publish⟩ }
      else
        { s with stagedRestore := none, stagedSwap := none }.deliverPendingRestore txn publish
    s.noteRestore txn

/-- The model section of `local_commit`: the model is retained for the first activation. -/
def Shared.localModel (s : Shared) (v : ValidatedRestore) (mode : RestoreMode) : Shared :=
  match v.model, mode with
  | some f, _ =>
    let s := s.allocateModelGeneration
    { s with
      pendingModel := some ⟨s.modelGeneration, some f.modelL, f.modelR, f.rate⟩
      modelSampleRate := f.rate
      slim := { s.slim with fullWavenetModel := f.modelL.fullWavenet } }
      |>.note (.model s.modelGeneration (some f.asset))
  | none, .full =>
    let s := s.allocateModelGeneration
    { s with
      pendingModel := some ⟨s.modelGeneration, none, none, 48000⟩
      modelSampleRate := 48000
      slim := { s.slim with fullWavenetModel := none } }
      |>.note (.model s.modelGeneration none)
  | none, .forPreset => s

/-- The IR section of `local_commit`: the pair is staged. -/
def Shared.localIr (s : Shared) (v : ValidatedRestore) (mode : RestoreMode) : Shared :=
  match v.ir, mode with
  | some ir, _ =>
    { s with
      stagedSwap := some { s.stagedSwap.getD .empty with ir := some (some (restoreIr s ir)) }
      irPath := some ir.path
      irHash := some ir.hash
      irRawSamples := some ⟨ir, s.hostRate⟩
      params := { s.params with irPath := some ir.path, irHash := some ir.hash } }
      |>.note (.ir (some ir))
  | none, .full =>
    { s with
      stagedSwap := some { s.stagedSwap.getD .empty with ir := some none }
      irPath := none
      irHash := none
      irRawSamples := none
      params := { s.params with irPath := none, irHash := none } }
      |>.note (.ir none)
  | none, .forPreset => s

/-- `local_commit`: there is no audio thread yet. -/
def Shared.localCommit (s : Shared) (v : ValidatedRestore) (mode : RestoreMode) : Shared :=
  let publish := restorePublish s v mode
  (((s.localModel v mode).localIr v mode).publishParams publish).note (.params publish.params.rt)

/-- `commit`. -/
def Shared.commitRestore (s : Shared) (v : ValidatedRestore) (mode : RestoreMode)
    (faults : EngineCall → Bool) : Shared :=
  if s.bufferSize = 0 then s.localCommit v mode else s.atomicCommit E v mode faults

/-! ## Housekeeping -/

/-- The second part of `flush_pending_restore`: publication once the transaction is
acknowledged. -/
def Shared.publishIfAcked (s : Shared) : Shared :=
  match s.pendingRestore with
  | some pending =>
    if 0 < pending.seq ∧ pending.seq ≤ s.cmdLastAck then
      { s with pendingRestore := none }.publishRestore pending.publish
        |>.note (.published pending.generation)
    else s
  | none => s

/-- `flush_pending_restore`. -/
def Shared.flushPendingRestore (s : Shared) : Shared :=
  match s.pendingRestore with
  | none => s
  | some pending =>
    match pending.txn with
    | none => s.publishIfAcked
    | some txn =>
      match s.tryPushCommand (.restoreTxn txn) with
      | (s, true) =>
        { s with pendingRestore := some { pending with txn := none, seq := s.cmdNextSeq } }
          |>.publishIfAcked
      | (s, false) => s

end

/-! ## Saving -/

/-- `snapshot_params`: the parameters and the IR identity as they are shared. -/
def Shared.snapshotParams (E : ParamEngine) (s : Shared) : Shared :=
  let u := s.ui
  { s with params := { s.params with
      rt := {
        inputGainDb := u.paramInputGain
        outputGainDb := u.paramOutputGain
        gateThresholdDb := u.paramGateThresh
        bypass := bypassU32ToBool u.paramBypass
        adaptiveCompute := E.adaptiveOfF32 (Binary32.ofNat u.paramAdaptiveCompute.toNat)
        slimOverride := E.slimOfF32 (Binary32.ofNat u.paramSlimOverride.toNat)
        oversample := E.oversampleOfF32 (Binary32.ofNat u.paramOversample.toNat)
        activationPrecision := E.activationOfF32 (Binary32.ofNat u.paramActivation.toNat) }
      irPath := s.irPath
      irHash := if s.irPath.isNone then none else s.irHash } }

end NamPlug
