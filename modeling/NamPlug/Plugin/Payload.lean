import NamPlug.Params.Main

/-!
# Resources and commands

The DSP resources the main thread builds and the audio thread runs, and the payloads that carry
them (`plugin/shared.rs`, `processor/deactivated.rs`). Of a resource only what the plugin reads is
kept: the file a model or an impulse response was built from, and the rates and sizes it was built
for. Calibration data (level adjustments, prewarm cost) and display metadata are left out.
-/

namespace NamPlug

/-! ## Files -/

/-- A path: rooted or not, and its components. -/
structure Path where
  absolute : Bool
  names : List String
  deriving DecidableEq, Repr

/-- `Path::file_name`. -/
def Path.fileName (p : Path) : Option String :=
  p.names.getLast?.filter (· ≠ "..")

/-- `Path::parent`. -/
def Path.parent (p : Path) : Option Path :=
  if p.names = [] then none else some { p with names := p.names.dropLast }

/-- A file as the plugin adopted it: where it was and the SHA-256 digest of its bytes. -/
structure Asset where
  path : Path
  hash : String
  deriving DecidableEq, Repr

/-- A model file as the loader reads it. -/
structure ModelFile where
  asset : Asset
  rate : Nat
  /-- Whether the file builds a right-channel model too. -/
  stereo : Bool
  /-- The channels of a dynamic WaveNet, the one architecture that can be slimmed. -/
  channels : Option Nat
  deriving DecidableEq, Repr

def refFile (name : String) : ModelFile := ⟨⟨⟨true, [name]⟩, name⟩, 48000, false, none⟩

def refIr (name : String) : Asset := ⟨⟨true, [name]⟩, name⟩

theorem refIr_path (name : String) :
    (some (refIr name)).map Asset.path = some ⟨true, [name]⟩ := rfl

/-- A WaveNet of 16 channels. -/
def refWide (name : String) : ModelFile := { refFile name with channels := some 16 }

/-! ## DSP resources -/

/-- A model with its inference buffers. -/
structure StaticModel where
  asset : Asset
  /-- The native rate. -/
  rate : Nat
  channels : Option Nat
  /-- The channels of the weights it was built or cut from. -/
  fullChannels : Option Nat
  maxBuffer : Nat
  deriving DecidableEq, Repr

/-- The copy of a dynamic WaveNet that slimmed models are cut from. -/
def StaticModel.fullWavenet (m : StaticModel) : Option StaticModel :=
  if m.channels.isSome then some m else none

structure NamResampler where
  hostRate : Nat
  modelRate : Nat
  deriving DecidableEq, Repr

structure StreamingResampleBuffer where
  hostRate : Nat
  modelRate : Nat
  maxBlock : Nat
  deriving DecidableEq, Repr

/-- `build_stream_adapter`, where it succeeds. -/
def buildStreamAdapter (hostRate modelRate maxBlock : Nat) : StreamingResampleBuffer :=
  ⟨hostRate, modelRate, max maxBlock 1⟩

structure OversampleEngine where
  factor : OversampleFactor
  deriving DecidableEq, Repr

/-- The samples of an impulse response, at a rate. -/
structure IrSamples where
  asset : Asset
  sampleRate : Nat
  deriving DecidableEq, Repr

/-- The two convolution adapters of an impulse response. -/
structure CabSimPair where
  asset : Asset
  sampleRate : Nat
  partitionSize : Nat
  deriving DecidableEq, Repr

/-- What the plugin takes from the engine crate. -/
structure Engine extends ParamEngine where
  /-- `StreamingResampleBuffer::latency_samples`. -/
  streamLatency : StreamingResampleBuffer → Nat
  /-- `OversampleEngine::latency_samples`. -/
  osLatency : OversampleEngine → Nat
  /-- The slim override of a fresh `AdaptiveCompute`. -/
  adaptiveNewSlim : SlimOverride
  /-- `MAX_RESAMP_BUF`. -/
  maxResampBuf : Nat

/-- The reference engine: streams at 44.1 kHz and above have no latency, a model of a lower rate
delays by its block. -/
def refEngine : Engine where
  toParamEngine := refParamEngine
  streamLatency st := if st.modelRate < 44100 then st.maxBlock else 0
  osLatency os := os.factor.code
  adaptiveNewSlim := .auto
  maxResampBuf := 2048

/-- The partition size is the latency contribution of a cab-sim pair. -/
def cabsimLatency (pair : Option CabSimPair) : Nat :=
  match pair with
  | some p => p.partitionSize
  | none => 0

/-! ## Payloads -/

/-- The model component of a restore, or a model load of its own. No model clears. -/
structure LoadModelPayload where
  generation : Nat
  modelL : Option StaticModel
  modelR : Option StaticModel
  newResampler : NamResampler
  newStream : StreamingResampleBuffer
  modelRate : Nat
  deriving DecidableEq, Repr

/-- A restore as one command: a component that is `none` is left as it is. -/
structure RestoreTxn where
  generation : Nat
  model : Option LoadModelPayload
  ir : Option (Option CabSimPair)
  params : RtProcessingParams
  deriving DecidableEq, Repr

inductive ClapParamPayload where
  | params (p : RtProcessingParams)
  | loadModel (m : LoadModelPayload)
  | loadCabIr (pair : Option CabSimPair)
  | setOversample (osL osR : OversampleEngine)
  | restoreTxn (txn : RestoreTxn)
  deriving DecidableEq, Repr

/-- The model a command installs. -/
def ClapParamPayload.model? : ClapParamPayload → Option LoadModelPayload
  | .loadModel m => some m
  | .restoreTxn txn => txn.model
  | _ => none

inductive StructuralKind where
  | model | cabIr | oversample | restore
  deriving DecidableEq, Repr

def StructuralKind.isCoalescible (k : StructuralKind) : Bool := k != .restore

def ClapParamPayload.structuralKind : ClapParamPayload → Option StructuralKind
  | .params _ => none
  | .loadModel _ => some .model
  | .loadCabIr _ => some .cabIr
  | .setOversample _ _ => some .oversample
  | .restoreTxn _ => some .restore

def ClapParamPayload.isStructural (p : ClapParamPayload) : Bool := p.structuralKind.isSome

/-- `coalesce_key`: the kind, where commands of the kind supersede each other. -/
def ClapParamPayload.coalesceKey (p : ClapParamPayload) : Option StructuralKind :=
  p.structuralKind.filter (·.isCoalescible)

/-- A model that waits for a buffer size or for room in the ring. -/
structure PendingModel where
  generation : Nat
  model : Option StaticModel
  modelR : Option StaticModel
  modelRate : Nat
  deriving DecidableEq, Repr

/-- A swap that waits for a host restart. -/
structure StagedSwap where
  model : Option LoadModelPayload
  ir : Option (Option CabSimPair)
  deriving DecidableEq, Repr

def StagedSwap.empty : StagedSwap := ⟨none, none⟩

def StagedSwap.isEmpty (s : StagedSwap) : Bool := s.model.isNone && s.ir.isNone

def StagedSwap.clearModel (s : StagedSwap) : StagedSwap := { s with model := none }

def StagedSwap.clearIr (s : StagedSwap) : StagedSwap := { s with ir := none }

/-! ## Parameters of the main thread -/

/-- `ProcessingParams`: the parameters with the identity of the files. -/
structure ProcessingParams where
  rt : RtProcessingParams
  modelPath : Option Path
  modelBasename : Option String
  modelSearchPaths : List Path
  modelHash : Option String
  irPath : Option Path
  irHash : Option String
  deriving DecidableEq, Repr

/-- What a restore makes visible once it is applied. -/
structure RestorePublish where
  modeFull : Bool
  params : ProcessingParams
  /-- The native rate of the restored model. -/
  model : Option Nat
  fullWavenet : Option StaticModel
  modelPathOnDisk : Option Path
  modelBasename : Option String
  modelHash : Option String
  modelSearchPathToAdd : Option Path
  irPathOnDisk : Option Path
  irHash : Option String
  irRawSamples : Option IrSamples
  deriving DecidableEq, Repr

/-- A restore that waits for the ring or for its acknowledgement. -/
structure PendingRestore where
  generation : Nat
  txn : Option RestoreTxn
  publish : RestorePublish
  seq : Nat
  deriving DecidableEq, Repr

/-- A restore that waits for a host restart. -/
structure StagedRestore where
  txn : RestoreTxn
  publish : RestorePublish
  deriving DecidableEq, Repr

/-- What a deactivation keeps for the next activation. -/
structure DeactivatedDspState where
  modelL : Option StaticModel
  modelR : Option StaticModel
  modelGeneration : Nat
  cabsimPair : Option CabSimPair
  resampler : NamResampler
  stream : StreamingResampleBuffer
  osL : OversampleEngine
  osR : OversampleEngine
  osFactor : OversampleFactor
  sampleRate : Nat
  bufferSize : Nat
  deriving DecidableEq, Repr

/-! ## Slimmed models -/

/-- A model slimmed from the full weights, for the model generation of the request. -/
structure SlimmableRebuild where
  generation : Nat
  model : StaticModel
  deriving DecidableEq, Repr

inductive SlimmableRebuildOutcome where
  | ready (r : SlimmableRebuild)
  | failed
  | skipped
  deriving DecidableEq, Repr

end NamPlug
