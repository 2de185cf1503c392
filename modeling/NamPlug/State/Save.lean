import NamPlug.State.Validate

/-!
# Saving a state

The two extensions of the host that save and load a state (`extensions/state.rs` and
`extensions/state_context.rs`). A save of a preset leaves out what belongs to the machine. The JSON
text of an envelope is left to the writer (`StateWriter`), and a stream to what it gives or takes.
-/

namespace NamPlug

/-- `CURRENT_STATE_VERSION` -/
def CURRENT_STATE_VERSION : Nat := 1

/-- `MAX_STATE_STREAM_SIZE` -/
@[irreducible] def MAX_STATE_STREAM_SIZE : Nat := 32 * 1024 * 1024

/-- `serde_json::to_vec` on an envelope. -/
def StateWriter : Type := StateEnvelope → Except String ByteArray

inductive SaveError where
  | refused (e : PluginError)
  | serialize (e : String)
  | writeStream (e : String)
  deriving DecidableEq, Repr

inductive LoadError where
  | readStream (e : String)
  | streamTooLarge (size limit : Nat)
  | restore (e : PluginError)
  deriving DecidableEq, Repr

/-! ## Saving -/

/-- `serialize_envelope` -/
def serializeEnvelope (writer : StateWriter) (params : ProcessingParams) :
    Except SaveError ByteArray :=
  (writer ⟨CURRENT_STATE_VERSION, params⟩).mapError .serialize

/-- `ensure_asset_hashes`: no reference to an asset without a well-formed digest. -/
def ensureAssetHashes (params : ProcessingParams) (portable : Bool) : Except PluginError Unit :=
  if !portable && params.modelPath.isSome && params.modelHash.isNone then
    .error (.message MODEL_HASH_MISSING)
  else if !portable && params.irPath.isSome && params.irHash.isNone then
    .error (.message IR_HASH_MISSING)
  else if params.modelBasename.isSome && params.modelHash.isNone then
    .error (.message MODEL_HASH_MISSING)
  else if params.modelHash.any (!isValidSha256Hex ·) then .error (.message MODEL_HASH_MALFORMED)
  else if params.irHash.any (!isValidSha256Hex ·) then .error (.message IR_HASH_MALFORMED)
  else .ok ()

/-- What a save writes of the parameters: a preset without the paths of the machine. -/
def RestoreMode.savedParams (mode : RestoreMode) (params : ProcessingParams) : ProcessingParams :=
  match mode with
  | .full => params
  | .forPreset => { params with modelPath := none, irPath := none, irHash := none }

/-- The bytes a save hands to its stream. -/
def savedBytes (writer : StateWriter) (mode : RestoreMode) (params : ProcessingParams) :
    Except SaveError ByteArray := do
  (ensureAssetHashes (mode.savedParams params) (mode = .forPreset)).mapError .refused
  serializeEnvelope writer (mode.savedParams params)

/-- `save` of `state_context.rs`; that of `state.rs` is its full context. -/
def Shared.save (E : ParamEngine) (writer : StateWriter) (write : ByteArray → Except String Unit)
    (mode : RestoreMode) (s : Shared) : Shared × Except SaveError Unit :=
  let s := s.snapshotParams E
  (s, do
    let bytes ← savedBytes writer mode s.params
    (write bytes).mapError .writeStream)

/-! ## Loading -/

/-- `load` of both extensions. One byte more than the limit is read at most. -/
def Shared.load (S : StateEngine) (env : HostEnv) (E : Engine) (s : Shared)
    (stream : Except String ByteArray) (mode : RestoreMode) (faults : EngineCall → Bool) :
    Probe FileSystem Empty (Shared × Except LoadError Restored) :=
  match stream with
  | .error e => pure (s, .error (.readStream e))
  | .ok bytes =>
    let buffer := bytes.extract 0 (MAX_STATE_STREAM_SIZE + 1)
    if MAX_STATE_STREAM_SIZE < buffer.size then
      pure (s, .error (.streamTooLarge buffer.size MAX_STATE_STREAM_SIZE))
    else do
      let (s, result) ← s.restoreStateTransactional S env E buffer mode faults
      pure (s, result.mapError .restore)

end NamPlug
