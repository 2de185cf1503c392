import NamPlug.Plugin.Audio
import NamPlug.Plugin.Restore

/-!
# Activation

`activate` (`processor/mod.rs`) with its two guards: `ActivateRollbackGuard`
(`processor/rollback.rs`), which puts the channels, the deactivated DSP and the pending
oversampling factor back and recovers the commands of the ring, and the guard of the staged items.
A failure of the flush of the pending model comes after the staged items are used up and the audio
configuration is published.

The audio buffers and the panics an activation catches are left out.
-/

namespace NamPlug

structure AudioConfig where
  sampleRate : Nat
  maxFrames : Nat
  deriving DecidableEq, Repr

def AudioConfig.hostRate (cfg : AudioConfig) : Nat := min (max cfg.sampleRate 4000) 384000

/-- The fallible calls of an activation, in their order. -/
inductive ActivateCall where
  | buffers
  | resampler | stream | cabsim | oversampler
  | restoreResampler | restoreStream | restoreResizeL | restoreResizeR | restoreCabsim
  | swapResampler | swapStream | swapResizeL | swapResizeR | swapCabsim
  | flush (c : EngineCall)
  deriving DecidableEq, Repr

/-! ## Rollback -/

/-- What an activation took from cold storage so far, besides the command consumer. -/
structure ActivateRollbackGuard where
  gcTx : Bool
  slimmableRx : Bool
  pendingRestartOs : PendingRestartOs
  deactivated : Option DeactivatedDspState
  deriving DecidableEq, Repr

/-- The newest model of a drained ring. -/
def newestModel (ring : List ClapParamPayload) : Option PendingModel :=
  ring.foldl (fun newest c =>
    match c with
    | .loadModel m =>
      if newest.all (fun p : PendingModel => p.generation < m.generation) then some m.toPending
      else newest
    | _ => newest) none

def ClapParamPayload.isLoadModel : ClapParamPayload → Bool
  | .loadModel _ => true
  | _ => false

/-- The ring is drained: the newest model goes to the pending slot, unless that holds a newer one,
and the other commands before the ones recovered earlier. All count as acknowledged. -/
def Shared.recoverRing (s : Shared) : Shared :=
  { s with
    ring := []
    recoveredCommands := s.ring.filter (!·.isLoadModel) ++ s.recoveredCommands
    pendingModel := match newestModel s.ring with
      | some m =>
        if s.pendingModel.all (fun p : PendingModel => p.generation < m.generation) then some m
        else s.pendingModel
      | none => s.pendingModel
    cmdLastAck := s.cmdLastAck + s.ring.length }

/-- `ActivateRollbackGuard::drop`. -/
def Shared.rollback (s : Shared) (g : ActivateRollbackGuard) : Shared :=
  { s.recoverRing with
    paramRx := true
    gcTx := s.gcTx || g.gcTx
    slimmableRx := s.slimmableRx || g.slimmableRx
    pendingRestartOs :=
      if g.pendingRestartOs ≠ .none then g.pendingRestartOs else s.pendingRestartOs
    deactivatedDsp := match g.deactivated with
      | some d => some d
      | none => s.deactivatedDsp }

/-! ## Building the pipeline -/

/-- The parts of the pipeline that are built anew. -/
structure Pipeline where
  newResampler : Option NamResampler
  newStream : Option StreamingResampleBuffer
  newCabsim : Option (Option CabSimPair)
  newOs : Option (OversampleEngine × OversampleEngine)
  deriving DecidableEq, Repr

/-- `build_cab_sim_from_raw_samples`; the outer `none` is an error. -/
def buildCabSimFromRawSamples (s : Shared) (override : Option IrSamples)
    (partitionSize hostRate : Nat) (fault : Bool) : Option (Option CabSimPair) :=
  if partitionSize = 0 then some none
  else
    match override.or s.irRawSamples with
    | none => some none
    | some r => if fault then none else some (some ⟨r.asset, hostRate, partitionSize⟩)

/-- What the deactivated DSP cannot provide is built; without one, everything is. -/
def buildPipeline (s : Shared) (deact : Option DeactivatedDspState) (cfg : AudioConfig)
    (osFactor : OversampleFactor) (faults : ActivateCall → Bool) : Option Pipeline :=
  let modelRate := if s.modelSampleRate = 0 then 48000 else s.modelSampleRate
  let rateMatches := deact.any (·.sampleRate = cfg.hostRate)
  let bufMatches := deact.any (·.bufferSize = cfg.maxFrames)
  let osMatches := deact.any (·.osFactor = osFactor)
  let cabMatches := deact.any (·.cabsimPair.isSome) && rateMatches
  let streamMatches := rateMatches && bufMatches
  if (!rateMatches && faults .resampler) || (!streamMatches && faults .stream) ||
      (!osMatches && faults .oversampler) then none
  else
    let cabsim :=
      if cabMatches then some none
      else (buildCabSimFromRawSamples s none cfg.maxFrames cfg.hostRate (faults .cabsim)).map some
    cabsim.map fun newCabsim =>
      { newResampler := if rateMatches then none else some ⟨cfg.hostRate, modelRate⟩
        newStream :=
          if streamMatches then none
          else some (buildStreamAdapter cfg.hostRate modelRate cfg.maxFrames)
        newCabsim
        newOs := if osMatches then none else some (⟨osFactor⟩, ⟨osFactor⟩) }

/-! ## Adapting staged items -/

/-- A staged model for the new configuration: whether that worked, and the model it leaves. -/
def adaptModel (m : LoadModelPayload) (cfg : AudioConfig) (fRes fStream fL fR : Bool) :
    Bool × LoadModelPayload :=
  if m.newStream.hostRate ≠ cfg.hostRate ∨ m.newStream.maxBlock ≠ cfg.maxFrames then
    if fRes || fStream then (false, m)
    else
      match resizeModels fL fR cfg.maxFrames m.modelL m.modelR with
      | (false, l, r) => (false, { m with modelL := l, modelR := r })
      | (true, l, r) =>
        (true, { m with
          modelL := l
          modelR := r
          newResampler := ⟨cfg.hostRate, m.newStream.modelRate⟩
          newStream := buildStreamAdapter cfg.hostRate m.newStream.modelRate cfg.maxFrames })
  else (true, m)

def adaptModel? (m : Option LoadModelPayload) (cfg : AudioConfig) (fRes fStream fL fR : Bool) :
    Bool × Option LoadModelPayload :=
  match m with
  | none => (true, none)
  | some m =>
    let r := adaptModel m cfg fRes fStream fL fR
    (r.1, some r.2)

/-- A staged cab-sim pair for the new configuration. -/
def adaptIr (s : Shared) (ir : Option (Option CabSimPair)) (override : Option IrSamples)
    (cfg : AudioConfig) (fault : Bool) : Bool × Option (Option CabSimPair) :=
  match ir with
  | some (some a) =>
    if a.sampleRate ≠ cfg.hostRate ∨ a.partitionSize ≠ cfg.maxFrames then
      match buildCabSimFromRawSamples s override cfg.maxFrames cfg.hostRate fault with
      | none => (false, ir)
      | some (some new) => (true, some (some new))
      | some none => (true, ir)
    else (true, ir)
  | _ => (true, ir)

def adaptRestore (s : Shared) (r : StagedRestore) (cfg : AudioConfig)
    (faults : ActivateCall → Bool) : Bool × StagedRestore :=
  match adaptModel? r.txn.model cfg (faults .restoreResampler) (faults .restoreStream)
      (faults .restoreResizeL) (faults .restoreResizeR) with
  | (false, m) => (false, { r with txn := { r.txn with model := m } })
  | (true, m) =>
    let i := adaptIr s r.txn.ir r.publish.irRawSamples cfg (faults .restoreCabsim)
    (i.1, { r with txn := { r.txn with model := m, ir := i.2 } })

def adaptSwap (s : Shared) (w : StagedSwap) (cfg : AudioConfig) (faults : ActivateCall → Bool) :
    Bool × StagedSwap :=
  match adaptModel? w.model cfg (faults .swapResampler) (faults .swapStream)
      (faults .swapResizeL) (faults .swapResizeR) with
  | (false, m) => (false, { w with model := m })
  | (true, m) =>
    let i := adaptIr s w.ir none cfg (faults .swapCabsim)
    (i.1, ⟨m, i.2⟩)

/-- Both staged items; an adapted item keeps its adaptation when a later one fails. -/
def adaptStaged (s : Shared) (cfg : AudioConfig) (faults : ActivateCall → Bool) :
    Bool × Option StagedRestore × Option StagedSwap :=
  match s.stagedRestore.map (adaptRestore s · cfg faults) with
  | some (false, r) => (false, some r, s.stagedSwap)
  | r =>
    match s.stagedSwap.map (adaptSwap s · cfg faults) with
    | some (ok, w) => (ok, r.map (·.2), some w)
    | none => (true, r.map (·.2), none)

/-! ## Assembling the processor -/

/-- The publication of a staged restore. -/
def Shared.publishStaged (s : Shared) (restore : Option StagedRestore) : Shared :=
  match restore with
  | some r => { s.publishRestore r.publish with lastAppliedGeneration := r.txn.generation }
  | none => s

/-- The model an activation installs; a staged restore wins over a staged swap. -/
def stagedModel (restore : Option StagedRestore) (swap : Option StagedSwap) :
    Option LoadModelPayload :=
  match restore with
  | some r => r.txn.model
  | none => swap.bind (·.model)

def stagedIr (restore : Option StagedRestore) (swap : Option StagedSwap) :
    Option (Option CabSimPair) :=
  match restore with
  | some r => r.txn.ir
  | none => swap.bind (·.ir)

/-- The DSP resources of a processor to be. -/
structure Assembly where
  modelL : Option StaticModel
  modelR : Option StaticModel
  modelGeneration : Nat
  resampler : NamResampler
  stream : StreamingResampleBuffer
  osL : OversampleEngine
  osR : OversampleEngine
  cabsimPair : Option CabSimPair
  deriving DecidableEq, Repr

/-- The staged component where there is one, else what the deactivated DSP or a fresh pipeline
has. `none` stands for the internal errors of the source (a part that was not built). -/
def assemble (pipe : Pipeline) (deact : Option DeactivatedDspState)
    (model : Option LoadModelPayload) (ir : Option (Option CabSimPair)) : Option Assembly := do
  let os ← pipe.newOs.or (deact.map fun d => (d.osL, d.osR))
  let cabsimPair ← ir.or (pipe.newCabsim.or (deact.map (·.cabsimPair)))
  match model with
  | some m =>
    pure ⟨m.modelL, m.modelR, m.generation, m.newResampler, m.newStream, os.1, os.2, cabsimPair⟩
  | none =>
    let resampler ← pipe.newResampler.or (deact.map (·.resampler))
    let stream ← pipe.newStream.or (deact.map (·.stream))
    pure ⟨deact.bind (·.modelL), deact.bind (·.modelR), (deact.map (·.modelGeneration)).getD 0,
      resampler, stream, os.1, os.2, cabsimPair⟩

section
variable (E : Engine)

/-- The parameters of a new processor: the gains from the atomics, the oversampling factor, and
defaults. -/
def activateParams (s : Shared) (osFactor : OversampleFactor) : RtProcessingParams :=
  { E.rtDefault with
    inputGainDb := s.ui.paramInputGain
    outputGainDb := s.ui.paramOutputGain
    oversample := osFactor }

def Assembly.latency (a : Assembly) : Nat :=
  E.streamLatency a.stream + E.osLatency a.osL + cabsimLatency a.cabsimPair

/-- The headroom of the dry delay beyond the host block. -/
def DRY_DELAY_MAX_EXTRA : Nat := 3200

/-- The capacity of the dry delay rings. -/
def AudioConfig.dryDelayCapacity (cfg : AudioConfig) : Nat :=
  max cfg.maxFrames E.maxResampBuf + DRY_DELAY_MAX_EXTRA

/-- The new processor. Ahead of its first block `apply_rt_thread_setup` primes the precision of the
thread with the one of the parameters. -/
def Assembly.processor (a : Assembly) (s : Shared) (cfg : AudioConfig)
    (osFactor : OversampleFactor) : Processor :=
  let params := activateParams E s osFactor
  { modelL := a.modelL
    modelR := a.modelR
    modelGeneration := a.modelGeneration
    cabsimPair := a.cabsimPair
    resampler := a.resampler
    stream := a.stream
    osL := a.osL
    osR := a.osR
    rt := {
      params
      smootherIn := E.dbToLinear params.inputGainDb
      smootherOut := E.dbToLinear params.outputGainDb
      gateDirty := true
      modInputGain := f0
      modOutputGain := f0
      modGateThresh := f0
      adaptive := ⟨.conservative, E.adaptiveNewSlim⟩
      activationTls := params.activationPrecision }
    appliedOsFactor := osFactor
    recoveredCommands := s.recoveredCommands
    cachedEffectiveLatency := a.latency E
    dryDelay := .new (cfg.dryDelayCapacity E) (a.latency E)
    slim := ⟨none, ⟨none, none⟩⟩
    lastSeenGeneration := 0
    lastRenderMode := .realtime
    realtimeActivation := .standard
    deferred := none
    candidate := none
    processedSeq := s.cmdLastAck
    resolved := 0
    inCallback := false }

/-- The effects of an activation once its resources are assembled, before the pending model is
flushed. -/
def Shared.publishActivation (s : Shared) (cfg : AudioConfig) (a : Assembly) : Shared :=
  { s with
    currentStreamLatency := E.streamLatency a.stream
    currentCabsimLatency := cabsimLatency a.cabsimPair
    currentLatency := a.latency E
    sampleRate := cfg.hostRate
    bufferSize := cfg.maxFrames }

/-- The oversampling factor of an activation: the pending one, else the atomic's. -/
def Shared.activateOsFactor (s : Shared) : OversampleFactor :=
  match s.pendingRestartOs with
  | .pending f => f
  | .none => E.oversampleOfF32 (Binary32.ofNat s.ui.paramOversample.toNat)

/-- The part of `activate` after the staged items are adapted: `s` without what was taken, `g` the
guard. -/
def Shared.finishActivate (s : Shared) (g : ActivateRollbackGuard) (cfg : AudioConfig)
    (osFactor : OversampleFactor) (pipe : Pipeline) (restore : Option StagedRestore)
    (swap : Option StagedSwap) (faults : ActivateCall → Bool) : Shared × Option Processor :=
  let s := s.publishStaged restore
  match assemble pipe g.deactivated (stagedModel restore swap) (stagedIr restore swap) with
  | none => (s.rollback { g with deactivated := none }, none)
  | some a =>
    match (s.publishActivation E cfg a).flushPendingModel (fun c => faults (.flush c)) with
    | (s, false) => (s.rollback { g with deactivated := none }, none)
    | (s, true) => ({ s with recoveredCommands := [] }, some (a.processor E s cfg osFactor))

/-- `activate`; no processor stands for an error. -/
def Shared.activate (s : Shared) (cfg : AudioConfig) (faults : ActivateCall → Bool) :
    Shared × Option Processor :=
  if !s.paramRx then (s, none)
  else
    let s := { s with paramRx := false }
    if !s.gcTx then (s.rollback ⟨false, false, .none, none⟩, none)
    else
      let s := { s with gcTx := false }
      if !s.slimmableRx then (s.rollback ⟨true, false, .none, none⟩, none)
      else
        let s := { s with slimmableRx := false }
        if faults .buffers then (s.rollback ⟨true, true, .none, none⟩, none)
        else
          let osFactor := s.activateOsFactor E
          let g : ActivateRollbackGuard := ⟨true, true, s.pendingRestartOs, s.deactivatedDsp⟩
          let s := { s with pendingRestartOs := .none, deactivatedDsp := none }
          match buildPipeline s g.deactivated cfg osFactor faults with
          | none => (s.rollback g, none)
          | some pipe =>
            match adaptStaged s cfg faults with
            | (false, restore, swap) =>
              ({ s with stagedRestore := restore, stagedSwap := swap }.rollback g, none)
            | (true, restore, swap) =>
              { s with stagedRestore := none, stagedSwap := none }.finishActivate E g cfg osFactor
                pipe restore swap faults

end

end NamPlug
