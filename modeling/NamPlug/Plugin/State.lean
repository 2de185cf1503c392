import NamPlug.Plugin.Payload

/-!
# State of a plugin instance

`Shared` is what the main thread owns (`plugin/main_thread/mod.rs`) and what it shares with the
audio thread (`plugin/shared.rs`), `Processor` what the audio thread owns while the plugin is
active (`processor/state.rs`). A structural drain of the engine (`RtSwapDrain`) is its parked
payload and the candidate of the window under way.

`Shared.log` is not in the source: it records, newest first, the intents the plugin accepted and
what became of the restores.
-/

namespace NamPlug

/-- `CMD_QUEUE_CAPACITY`. -/
def CMD_QUEUE_CAPACITY : Nat := 256

def MAX_PENDING_MODEL_REQUESTS : Nat := 16

inductive RenderMode where
  | realtime | offline
  deriving DecidableEq, Repr

/-! ## The model loader -/

structure AudioEpoch where
  sampleRate : Nat
  bufferSize : Nat
  deriving DecidableEq, Repr

/-- A load accepted for the loader worker. -/
structure ModelLoaderJob where
  path : Path
  isGui : Bool
  generation : Nat
  audioEpoch : AudioEpoch
  deriving DecidableEq, Repr

/-- A model that is read and built but not adopted. -/
structure PreparedModel where
  file : ModelFile
  modelL : Option StaticModel
  modelR : Option StaticModel
  newResampler : Option NamResampler
  newStream : Option StreamingResampleBuffer
  audioEpoch : AudioEpoch
  modelL_asset : modelL.map StaticModel.asset = some file.asset
  deriving DecidableEq, Repr

structure ModelLoaderResult where
  generation : Nat
  /-- `none` where the load failed. -/
  outcome : Option PreparedModel
  deriving DecidableEq, Repr

/-! ## The log -/

inductive Event where
  /-- A model load, clear or restore was adopted. -/
  | model (generation : Nat) (asset : Option Asset)
  /-- An IR load, clear or restore was adopted. -/
  | ir (asset : Option Asset)
  /-- A restore was adopted with its parameters. -/
  | params (p : RtProcessingParams)
  /-- A parameter was set to a raw value. -/
  | param (p : ParamId) (raw : BitVec 32)
  /-- The audio thread applied a restore. -/
  | applied (generation : Nat)
  /-- The main thread published a restore as acknowledged. -/
  | published (generation : Nat)
  deriving DecidableEq, Repr

/-! ## Slimming -/

/-- The loader worker between the poll of a request and its result. -/
inductive RebuildWorker where
  | idle
  | building (targetCh generation : Nat)
  deriving DecidableEq, Repr

/-- The main thread in the drain of the slot: after a push, or a build that came to nothing, it is
about to lower the flag. -/
inductive RebuildDrain where
  | idle
  | lowering (pushed : Option SlimmableRebuild)
  deriving DecidableEq, Repr

/-- The atomics, the slot and the ring of slimmable rebuilds. -/
structure SlimmableShared where
  fullWavenetModel : Option StaticModel
  requestedCh : Nat
  requestedGeneration : Nat
  /-- `RT_STATUS_NEEDS_SLIMMABLE_REBUILD`. -/
  needsRebuild : Bool
  worker : RebuildWorker
  /-- The request the worker built last. -/
  built : Option (Nat × Nat)
  slot : Option SlimmableRebuildOutcome
  ring : List SlimmableRebuild
  drain : RebuildDrain
  deriving DecidableEq, Repr

def SlimmableShared.init : SlimmableShared where
  fullWavenetModel := none
  requestedCh := 0
  requestedGeneration := 0
  needsRebuild := false
  worker := .idle
  built := none
  slot := none
  ring := []
  drain := .idle

/-- The channels the adaptive controller asked for last, and those it believes in: the full count if
`none`. -/
structure SlimLevel where
  requested : Option Nat
  believed : Option Nat
  deriving DecidableEq, Repr

/-- What the audio thread has of slimming: the rebuild its drain holds, and its adaptive
controller. -/
structure SlimmableRt where
  deferred : Option SlimmableRebuild
  level : SlimLevel
  deriving DecidableEq, Repr

/-! ## Shared state -/

structure Shared where
  -- the command ring: its content, and which ends are in cold storage
  ring : List ClapParamPayload
  paramRx : Bool
  gcTx : Bool
  slimmableRx : Bool
  coalescing : Option RtProcessingParams
  cmdNextSeq : Nat
  cmdLastAck : Nat
  recoveredCommands : List ClapParamPayload
  -- published audio configuration
  modelSampleRate : Nat
  sampleRate : Nat
  bufferSize : Nat
  currentStreamLatency : Nat
  currentCabsimLatency : Nat
  currentLatency : Nat
  -- shared slots
  modelGeneration : Nat
  lastAppliedGeneration : Nat
  pendingRestartOs : PendingRestartOs
  inFlightParams : Option RtProcessingParams
  pendingModel : Option PendingModel
  deactivatedDsp : Option DeactivatedDspState
  irPath : Option Path
  irHash : Option String
  irRawSamples : Option IrSamples
  uiPendingIr : Option Path
  renderMode : RenderMode
  osRequest : Option OversampleFactor
  ui : UiToRt
  slim : SlimmableShared
  -- main thread
  params : ProcessingParams
  pendingRestore : Option PendingRestore
  stagedRestore : Option StagedRestore
  stagedSwap : Option StagedSwap
  nextRestoreGeneration : Nat
  pendingAsyncLoads : List ModelLoaderJob
  workerJob : Option ModelLoaderJob
  modelResultSlot : Option ModelLoaderResult
  dispatchedModelGeneration : Nat
  dispatchedModelIsGui : Bool
  log : List Event
  deriving DecidableEq, Repr

/-! ## Audio thread -/

/-- The capacity of the dry delay rings and the delay they are set to. -/
structure DryDelayLine where
  capacity : Nat
  delay : Nat
  deriving DecidableEq, Repr

/-- `DryDelayLine::new`. -/
def DryDelayLine.new (capacity delay : Nat) : DryDelayLine := ⟨capacity, min delay capacity⟩

/-- `DryDelayLine::set_delay`. -/
def DryDelayLine.setDelay (d : DryDelayLine) (delay : Nat) : DryDelayLine :=
  { d with delay := min delay d.capacity }

structure Processor where
  modelL : Option StaticModel
  modelR : Option StaticModel
  modelGeneration : Nat
  cabsimPair : Option CabSimPair
  resampler : NamResampler
  stream : StreamingResampleBuffer
  osL : OversampleEngine
  osR : OversampleEngine
  rt : RtParamState
  appliedOsFactor : OversampleFactor
  recoveredCommands : List ClapParamPayload
  cachedEffectiveLatency : Nat
  dryDelay : DryDelayLine
  slim : SlimmableRt
  lastSeenGeneration : BitVec 32
  lastRenderMode : RenderMode
  realtimeActivation : ActivationPrecision
  -- the command drain
  deferred : Option ClapParamPayload
  candidate : Option ClapParamPayload
  processedSeq : Nat
  resolved : Nat
  inCallback : Bool
  deriving DecidableEq, Repr

structure Plugin where
  shared : Shared
  proc : Option Processor
  deriving DecidableEq, Repr

/-! ## Start -/

/-- The parameters of `NamClapMainThread` at its start. -/
def ProcessingParams.initial (E : ParamEngine) : ProcessingParams where
  rt := { E.rtDefault with gateThresholdDb := fm90 }
  modelPath := none
  modelBasename := none
  modelSearchPaths := []
  modelHash := none
  irPath := none
  irHash := none

/-- `ColdShared::new` and `NamClapMainThread::new`. -/
def Shared.init (E : ParamEngine) : Shared where
  ring := []
  paramRx := true
  gcTx := true
  slimmableRx := true
  coalescing := none
  cmdNextSeq := 0
  cmdLastAck := 0
  recoveredCommands := []
  modelSampleRate := 48000
  sampleRate := 0
  bufferSize := 0
  currentStreamLatency := 0
  currentCabsimLatency := 0
  currentLatency := 0
  modelGeneration := 0
  lastAppliedGeneration := 0
  pendingRestartOs := .none
  inFlightParams := none
  pendingModel := none
  deactivatedDsp := none
  irPath := none
  irHash := none
  irRawSamples := none
  uiPendingIr := none
  renderMode := .realtime
  osRequest := none
  ui := UiToRt.default
  slim := .init
  params := .initial E
  pendingRestore := none
  stagedRestore := none
  stagedSwap := none
  nextRestoreGeneration := 0
  pendingAsyncLoads := []
  workerJob := none
  modelResultSlot := none
  dispatchedModelGeneration := 0
  dispatchedModelIsGui := false
  log := []

def Plugin.init (E : ParamEngine) : Plugin := ⟨Shared.init E, none⟩

/-! ## Small operations -/

def Shared.note (s : Shared) (e : Event) : Shared := { s with log := e :: s.log }

/-- `allocate_model_generation`, the counter part. -/
def Shared.allocateModelGeneration (s : Shared) : Shared :=
  { s with modelGeneration := s.modelGeneration + 1 }

def Shared.bumpGeneration (s : Shared) : Shared := { s with ui := s.ui.bumpGeneration }

/-- The rate to build for: 48 kHz before the first activation. -/
def Shared.hostRate (s : Shared) : Nat := if s.sampleRate = 0 then 48000 else s.sampleRate

/-! ## The command producer -/

/-- `push_params`: all eight slots are overwritten. -/
def Shared.pushParams (s : Shared) (p : RtProcessingParams) : Shared :=
  { s with coalescing := some p }

/-- A push on the ring, which takes a sequence number where it succeeds. -/
def Shared.ringPush (s : Shared) (p : ClapParamPayload) : Option Shared :=
  if s.ring.length < CMD_QUEUE_CAPACITY then
    some { s with ring := s.ring ++ [p], cmdNextSeq := s.cmdNextSeq + 1 }
  else none

/-- `force_flush`; the result says whether there was room. A full ring keeps the snapshot. -/
def Shared.forceFlush (s : Shared) : Shared × Bool :=
  match s.coalescing with
  | none => (s, true)
  | some snapshot =>
    match { s with coalescing := none }.ringPush (.params snapshot) with
    | some s => (s, true)
    | none => (s, false)

/-- `try_push_command`; the result says whether the command went in. -/
def Shared.tryPushCommand (s : Shared) (cmd : ClapParamPayload) : Shared × Bool :=
  match s.forceFlush with
  | (s, false) => (s, false)
  | (s, true) =>
    match s.ringPush cmd with
    | some s => (s, true)
    | none => (s, false)

end NamPlug
