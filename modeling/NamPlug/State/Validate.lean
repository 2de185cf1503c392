import NamPlug.State.Files
import NamPlug.Plugin.Restore

/-!
# Validation of a state

The assets of a saved state, checked and built before anything is changed
(`extensions/state_transaction/validate.rs`), and the three phases of a restore
(`extensions/state_transaction.rs`, `load_state` of `extensions/state.rs`). The commit is in
`Plugin/Restore`.

What a decoder makes of its bytes is left to the engine (`StateEngine`); the bytes themselves are
kept beside what was built from them (`builtFrom`, not in the source). Log lines and the display
metadata of a model are left out.
-/

namespace NamPlug

open Text

/-! ## Errors -/

def EMPTY_BUFFER : String := "Empty state buffer"
def MODEL_NOT_FOUND_OR_INVALID : String := "Saved model not found or invalid"
def MODEL_BASENAME_INVALID : String := "Invalid model basename"
def MODEL_HASH_MISSING : String :=
  "Model has no saved hash (re-load it explicitly via the GUI to migrate)"
def MODEL_HASH_MALFORMED : String := "Saved model hash is malformed"
def MODEL_NOT_FOUND_PORTABLE : String := "Preset/state model not found (searched canonical dirs)"
def IR_NOT_FOUND : String := "Saved IR not found"
def IR_HASH_MISSING : String :=
  "Saved IR has no SHA-256 hash (re-load it explicitly via the GUI to migrate)"
def IR_HASH_MALFORMED : String := "Saved IR hash is malformed"
def IR_HASH_MISMATCH : String := "Saved IR file hash mismatch"
def IR_HASH_FAILED : String := "Failed to hash saved IR file"
def CLEAR_MODEL_RESAMPLER_FAILED : String := "Failed to build the clear-model resampler"
def CLEAR_MODEL_STREAM_FAILED : String := "Failed to build the clear-model streaming adapter"

inductive NamErrorCode where
  | modelBuildFailed
  | irLoadFailed
  /-- A code the convolution engine gives. -/
  | engine (code : Int)
  deriving DecidableEq, Repr

structure NamDiagnostic where
  code : NamErrorCode
  message : String
  hint : Option String
  params : List (String × String)
  deriving DecidableEq, Repr

/-- A diagnostic with the text of the error it comes from. -/
def NamDiagnostic.caused (code : NamErrorCode) (message error : String) : NamDiagnostic :=
  ⟨code, message, none, [("error", error)]⟩

inductive StateError where
  | corruptedEnvelope
  | deserialize (e : String)
  deriving DecidableEq, Repr

inductive PluginError where
  | message (code : String)
  | diagnostic (d : NamDiagnostic)
  | state (e : StateError)
  /-- Not in the source: every temporary name that was tried was taken, and no more are tried. -/
  | unfinished
  deriving DecidableEq, Repr

/-! ## The engine -/

/-- `NamModelPair`, as far as the plugin reads it. -/
structure NamModelPair where
  sampleRate : Nat
  /-- Whether `model_l` is there. -/
  built : Bool
  /-- Whether `model_r` is there. -/
  stereo : Bool
  channels : Option Nat
  deriving DecidableEq, Repr

structure StateEnvelope where
  version : Nat
  params : ProcessingParams
  deriving DecidableEq, Repr

/-- What validation takes from the engine crate and the libraries. An impulse response is decoded
and convolved as its bytes say. -/
structure StateEngine where
  sha256 : ByteArray → String
  envelope : ByteArray → Option StateEnvelope
  /-- Whether the bytes are a JSON object with a `version`. -/
  hasVersion : ByteArray → Bool
  legacyParams : ByteArray → Except String ProcessingParams
  buildModel : ByteArray → Except String NamModelPair
  setMaxBufferSizeL : NamModelPair → Nat → Except String Unit
  setMaxBufferSizeR : NamModelPair → Nat → Except String Unit
  /-- `NamResampler::new_simple`, from the host's rate to the model's. -/
  resampler : Nat → Nat → Except String Unit
  streamAdapter : Nat → Nat → Nat → Except String Unit
  /-- `CabSimIr::load` on the bytes of the file, at the host's rate. -/
  cabSimIr : ByteArray → Nat → Except String Unit
  /-- `ConvEngine::new` with a partition size, for the left or the right channel. -/
  convEngine : Bool → ByteArray → Nat → Except Int Unit
  cabSimAdapter : Bool → ByteArray → Nat → Except Int Unit
  /-- A path as `{:?}` prints it. -/
  quote : Path → String

/-- The environment of the process. `irTmpCounter` is `IR_TMP_COUNTER`, and `tmpAttempts` bounds the
names that are tried from it on. -/
structure HostEnv where
  home : Option Path
  tempDir : Path
  pid : Nat
  irTmpCounter : Nat
  tmpAttempts : Nat

section
variable (S : StateEngine)

/-! ## Models -/

/-- The model of a file. Its DSP resources are those of `restoreModel`; the path, the basename, the
search path and the digest that go with it are those of the file (`restorePublish`). -/
structure ModelResources where
  file : ModelFile
  builtFrom : ByteArray

/-- `load_and_build_model`: the file is read once. -/
def loadAndBuildModel (path : Path) : Probe FileSystem String (ByteArray × NamModelPair) :=
  .ask fun F => match F.reading path with
    | .openError e => .error e
    | .readError e => .error e
    | .bytes b => (S.buildModel b).map (b, ·)

/-- The models of `build_model_resources` are sized for the host, the left one first. -/
def resizeForHost (pair : NamModelPair) (bufferSize : Nat) : Except NamDiagnostic Unit :=
  let failed := fun message e => NamDiagnostic.mk .modelBuildFailed message none
    [("buffer_size", toString bufferSize), ("error", e)]
  if bufferSize = 0 then .ok ()
  else do
    (S.setMaxBufferSizeL pair bufferSize).mapError
      (failed "Failed to resize model buffers for host buffer size")
    if pair.stereo then
      (S.setMaxBufferSizeR pair bufferSize).mapError
        (failed "Failed to resize model buffers for host buffer size (R)")
    else .ok ()

/-- The part of `build_model_resources` after the last look. -/
def sizeModelResources (path : Path) (hostRate bufferSize : Nat) (modelHash : String)
    (builtFrom : ByteArray) (pair : NamModelPair) : Except NamDiagnostic ModelResources :=
  if !pair.built then
    .error ⟨.modelBuildFailed, s!"Failed to build model: {S.quote path}", none, []⟩
  else do
    resizeForHost S pair bufferSize
    (S.resampler hostRate pair.sampleRate).mapError
      (.caused .modelBuildFailed "Failed to build resampler")
    (S.streamAdapter hostRate pair.sampleRate (max bufferSize 1)).mapError
      (.caused .modelBuildFailed "Failed to build streaming resample buffer")
    .ok ⟨⟨⟨path, modelHash⟩, pair.sampleRate, pair.stereo, pair.channels⟩, builtFrom⟩

/-- `build_model_resources` -/
def buildModelResources (path : Path) (hostRate bufferSize : Nat) :
    Probe FileSystem NamDiagnostic ModelResources := do
  let metaBefore ← .ask fun F => (F.metadata path).mapError
    (.caused .modelBuildFailed s!"Failed to read metadata before loading model: {S.quote path}")
  let modelHash ← (computeFileHash S.sha256 path).mapError
    (.caused .modelBuildFailed s!"Failed to hash model file: {S.quote path}")
  let (builtFrom, pair) ← (loadAndBuildModel S path).mapError
    (.caused .modelBuildFailed s!"Failed to load model: {S.quote path}")
  let metaAfter ← .ask fun F => (F.metadata path).mapError
    (.caused .modelBuildFailed s!"Failed to read metadata after loading model: {S.quote path}")
  if metaAfter.len ≠ metaBefore.len ∨ metaAfter.modified ≠ metaBefore.modified then
    .fail ⟨.modelBuildFailed, s!"Model file was modified during load: {S.quote path}",
      some "arquivo modificado durante a carga", []⟩
  else .done (sizeModelResources S path hostRate bufferSize modelHash builtFrom pair)

/-- The loop of `validate_model_from_basename` over the search directories. -/
def searchModel (cleanBasename expectedHash : String) (hostRate bufferSize : Nat) :
    List Path → Probe FileSystem PluginError ModelResources
  | [] => .fail (.message MODEL_NOT_FOUND_PORTABLE)
  | dir :: dirs => do
    match ← resolveConfinedCandidate dir cleanBasename with
    | none => searchModel cleanBasename expectedHash hostRate bufferSize dirs
    | some candidate =>
      match ← (computeFileHash S.sha256 candidate).attempt with
      | .ok actual =>
        if eqIgnoreAsciiCase actual expectedHash then
          (buildModelResources S candidate hostRate bufferSize).mapError .diagnostic
        else searchModel cleanBasename expectedHash hostRate bufferSize dirs
      | .error _ => searchModel cleanBasename expectedHash hostRate bufferSize dirs

variable (env : HostEnv) (loaded : ProcessingParams) (hostRate bufferSize : Nat)

/-- `validate_model_from_basename` -/
def validateModelFromBasename : Probe FileSystem PluginError (Option ModelResources) :=
  match loaded.modelBasename with
  | none => pure none
  | some rawBasename =>
    match sanitizeBasename rawBasename with
    | none => .fail (.message MODEL_BASENAME_INVALID)
    | some cleanBasename =>
      match loaded.modelHash with
      | none => .fail (.message MODEL_HASH_MISSING)
      | some expectedHash =>
        if !isValidSha256Hex expectedHash then .fail (.message MODEL_HASH_MALFORMED)
        else do
          let canonical ← canonicalSearchDirs env.home
          let resources ← searchModel S cleanBasename expectedHash hostRate bufferSize
            (loaded.modelSearchPaths ++ canonical)
          pure (some resources)

/-- The check of `validate_model_full` on the saved path: it is there and has the saved digest. -/
def modelHashValid (path : Path) : Probe FileSystem PluginError Bool := do
  if ← .ask fun F => .ok (F.has path) then
    match loaded.modelHash with
    | none => pure false
    | some expected =>
      if isValidSha256Hex expected then
        match ← (computeFileHash S.sha256 path).attempt with
        | .ok actual => pure (eqIgnoreAsciiCase actual expected)
        | .error _ => pure false
      else pure false
  else pure false

/-- `validate_model_full` -/
def validateModelFull : Probe FileSystem PluginError (Option ModelResources) :=
  match loaded.modelPath with
  | none => validateModelFromBasename S env loaded hostRate bufferSize
  | some path => do
    let hashValid ← modelHashValid S loaded path
    if hashValid then
      let resources ← (buildModelResources S path hostRate bufferSize).mapError .diagnostic
      pure (some resources)
    else if loaded.modelBasename.isSome then
      validateModelFromBasename S env loaded hostRate bufferSize
    else .fail (.message MODEL_NOT_FOUND_OR_INVALID)

/-- `validate_model_preset` -/
def validateModelPreset : Probe FileSystem PluginError (Option ModelResources) :=
  validateModelFromBasename S env loaded hostRate bufferSize

/-! ## Impulse responses -/

/-- The resources of an impulse response: its convolution pair is that of `restoreIr`. -/
structure IrResources where
  builtFrom : ByteArray

/-- The first part of `load_cabsim_from_verified_bytes`: the bytes are staged in a temporary file of
a fresh name, the `count`-th or a later one. -/
def stageVerifiedBytes (data : ByteArray) (pathForLog : Path) :
    Nat → Nat → Probe FileSystem PluginError Path
  | 0, _ => .fail .unfinished
  | attempts + 1, count => do
    let tmpPath := env.tempDir.join s!"nam_ir_{env.pid}_{count}.wav"
    let failed := fun e => PluginError.diagnostic
      (.caused .irLoadFailed s!"Failed to stage verified IR bytes: {S.quote pathForLog}" e)
    match ← .ask fun F => .ok (F.createNew tmpPath) with
    | .alreadyExists => stageVerifiedBytes data pathForLog attempts (count + 1)
    | .failed e => .fail (failed e)
    | .created => do
      let _ ← .ask fun F => (F.writeAll tmpPath data).mapError failed
      pure tmpPath

/-- `CabSimIr::load`: the file is read once. -/
def cabSimIrLoad (path : Path) (hostRate : Nat) : Probe FileSystem String ByteArray :=
  .ask fun F => match F.reading path with
    | .openError e => .error e
    | .readError e => .error e
    | .bytes b => (S.cabSimIr b hostRate).map fun _ => b

/-- `load_cabsim_from_verified_bytes`: the bytes that were decoded. The temporary file is removed at
the end, which nothing here looks at. -/
def loadCabsimFromVerifiedBytes (data : ByteArray) (pathForLog : Path) :
    Probe FileSystem PluginError ByteArray := do
  let tmpPath ← stageVerifiedBytes S env data pathForLog env.tmpAttempts env.irTmpCounter
  (cabSimIrLoad S tmpPath hostRate).mapError fun e => .diagnostic
    (.caused .irLoadFailed s!"Failed to load cab-sim IR: {S.quote pathForLog}" e)

/-- `build_adapter` of `build_ir_resources_from_bytes`, for the left or the right channel. -/
def buildAdapter (right : Bool) (data : ByteArray) (partitionSize : Nat) :
    Except PluginError Unit := do
  (S.convEngine right data partitionSize).mapError fun e => .diagnostic
    ⟨.engine e, "Failed to build convolution engine for cab-sim IR",
      some "The IR samples require more memory than available.", []⟩
  (S.cabSimAdapter right data partitionSize).mapError fun e => .diagnostic
    ⟨.engine e, "Failed to build cab-sim convolution adapter",
      some "The IR samples require more memory than available.", []⟩

/-- `build_ir_resources_from_bytes` -/
def buildIrResourcesFromBytes (data : ByteArray) (path : Path) :
    Probe FileSystem PluginError IrResources := do
  let partitionSize := if 0 < bufferSize then bufferSize else 256
  let builtFrom ← loadCabsimFromVerifiedBytes S env hostRate data path
  .done (buildAdapter S false builtFrom partitionSize)
  .done (buildAdapter S true builtFrom partitionSize)
  pure ⟨builtFrom⟩

/-- `validate_ir` on the saved path: the resources and the digest. -/
def validateIrAt (irPath : Path) : Probe FileSystem PluginError (IrResources × String) := do
  if ← .ask fun F => .ok (F.has irPath) then
    match loaded.irHash with
    | none => .fail (.message IR_HASH_MISSING)
    | some expectedHash =>
      if !isValidSha256Hex expectedHash then .fail (.message IR_HASH_MALFORMED)
      else
        let irBytes ← (readIrFileBytes irPath).mapError fun _ => .message IR_HASH_FAILED
        let actualHash := S.sha256 irBytes
        if !eqIgnoreAsciiCase actualHash expectedHash then .fail (.message IR_HASH_MISMATCH)
        else
          let resources ← buildIrResourcesFromBytes S env hostRate bufferSize irBytes irPath
          pure (resources, actualHash)
  else .fail (.message IR_NOT_FOUND)

/-- What `validate_ir` returns: the impulse response is the file the parameters name. -/
structure IrValidation where
  ir : Option (Asset × IrResources)
  path : ir.map (·.1.path) = loaded.irPath

/-- `validate_ir` -/
def validateIr : Probe FileSystem PluginError (IrValidation loaded) :=
  match h : loaded.irPath with
  | none => pure ⟨none, h.symm⟩
  | some irPath => do
    let (resources, actualHash) ← validateIrAt S env loaded hostRate bufferSize irPath
    pure ⟨some (⟨irPath, actualHash⟩, resources), h.symm⟩

/-! ## The restore -/

/-- The assets that passed validation. -/
structure ValidatedAssets extends IrValidation loaded where
  model : Option ModelResources

/-- The validation of the model in `validate_and_build`. -/
def validateModel : RestoreMode → Probe FileSystem PluginError (Option ModelResources)
  | .full => validateModelFull S env loaded hostRate bufferSize
  | .forPreset => validateModelPreset S env loaded hostRate bufferSize

/-- `validate_and_build` -/
def validateAndBuild (mode : RestoreMode) :
    Probe FileSystem PluginError (ValidatedAssets loaded) := do
  let model ← validateModel S env loaded hostRate bufferSize mode
  let ir ← validateIr S env loaded hostRate bufferSize
  pure { ir with model }

/-- The assets as the commit takes them. -/
def ValidatedAssets.restore {loaded : ProcessingParams} (a : ValidatedAssets loaded) :
    ValidatedRestore where
  params := loaded
  model := a.model.map (·.file)
  ir := a.ir.map (·.1)
  ir_path := by rw [Option.map_map]; exact a.path

/-- `migrate`: no version needs more than the defaults of its missing fields. -/
def migrate (_version : Nat) (params : ProcessingParams) : ProcessingParams := params

/-- `load_state` -/
def loadState (buffer : ByteArray) : Except PluginError ProcessingParams :=
  match S.envelope buffer with
  | some envelope => .ok (migrate envelope.version envelope.params)
  | none =>
    if S.hasVersion buffer then .error (.state .corruptedEnvelope)
    else
      match S.legacyParams buffer with
      | .ok params => .ok (migrate 0 params)
      | .error e => .error (.state (.deserialize e))

/-- `commit` with its result: only the resources that clear a model can fail to build. -/
def Shared.commit (E : Engine) (s : Shared) (v : ValidatedRestore) (mode : RestoreMode)
    (faults : EngineCall → Bool) : Shared × Except PluginError Unit :=
  (s.commitRestore E v mode faults,
    if s.bufferSize ≠ 0 ∧ (s.buildRestorePackage v mode faults).isNone then
      .error (.message
        (if faults .resampler then CLEAR_MODEL_RESAMPLER_FAILED else CLEAR_MODEL_STREAM_FAILED))
    else .ok ())

/-- What a restore adopted. -/
structure Restored where
  params : ProcessingParams
  assets : ValidatedAssets params

/-- `restore_state_transactional`, which returns `Ok(())` where this returns what was adopted. -/
def Shared.restoreStateTransactional (E : Engine) (s : Shared) (buffer : ByteArray)
    (mode : RestoreMode) (faults : EngineCall → Bool) :
    Probe FileSystem Empty (Shared × Except PluginError Restored) :=
  if buffer.size = 0 then pure (s, .error (.message EMPTY_BUFFER))
  else
    match loadState S buffer with
    | .error e => pure (s, .error e)
    | .ok loaded => do
      match ← (validateAndBuild S env loaded s.hostRate s.bufferSize mode).attempt with
      | .error e => pure (s, .error e)
      | .ok validated =>
        match s.commit E validated.restore mode faults with
        | (s, .error e) => pure (s, .error e)
        | (s, .ok ()) => pure (s, .ok ⟨loaded, validated⟩)

end

end NamPlug
