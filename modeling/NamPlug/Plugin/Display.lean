import NamPlug.Plugin.Load

/-!
# What the user sees of a load

The cells a load shows the user (`ColdShared::ui_*`, `plugin/shared.rs`), beside the state of the
main thread, and what the outcomes of a model load, an IR load and a clear
(`plugin/main_thread/load.rs`) do to them. Metadata and diagnostics of a model are taken as they are
read from its file.
-/

namespace NamPlug

/-- Where `commit_prepared_model_with_generation` fails; the message says it, with the path. -/
inductive CommitFailure where
  | resampler | stream | resizeL (n : Nat) | resizeR (n : Nat) | notRebuilt
  deriving DecidableEq, Repr

/-- What a model shows: its `NamModelMetadata`, its `ModelInfo` and the bytes it takes. -/
structure ModelUi (Meta Info : Type) where
  metadata : Meta
  info : Info
  bytes : Nat

structure Display (Meta Info : Type) where
  modelName : String
  modelMetadata : Option Meta
  modelInfo : Option Info
  modelMemoryBytes : Nat
  modelLoadCounter : Nat
  /-- `RT_STATUS_MODEL_LOAD_FAILED` -/
  modelLoadFailed : Bool
  loadError : Bool
  loadErrorMsg : Option (Path × CommitFailure)

/-- The main thread with what it shows. -/
structure Panel (Meta Info : Type) where
  shared : Shared
  display : Display Meta Info

inductive LoadOutcome where
  | done
  /-- The error is returned, or noted. -/
  | failed
  deriving DecidableEq, Repr

/-- The first step that fails where a commit needs resources for the active configuration. -/
def PreparedModel.commitFailure (prep : PreparedModel) (s : Shared) (faults : EngineCall → Bool) :
    Option CommitFailure :=
  if s.bufferSize = 0 then none
  else if prep.divergent s then
    if faults .resampler then some .resampler
    else if faults .stream then some .stream
    else if prep.modelL.isSome && faults .resizeL then some (.resizeL s.bufferSize)
    else if prep.modelR.isSome && faults .resizeR then some (.resizeR s.bufferSize)
    else none
  else if prep.newResampler.isSome && prep.newStream.isSome then none
  else some .notRebuilt

section
variable {Meta Info : Type}

def Display.empty : Display Meta Info where
  modelName := ""
  modelMetadata := none
  modelInfo := none
  modelMemoryBytes := 0
  modelLoadCounter := 0
  modelLoadFailed := false
  loadError := false
  loadErrorMsg := none

/-- `finish_commit_ui`, with the memory that `publish_model_identity` shows. -/
def Display.finishCommitUi (d : Display Meta Info) (path : Path) (ui : ModelUi Meta Info) :
    Display Meta Info :=
  { d with
    modelMetadata := some ui.metadata
    modelInfo := some ui.info
    modelMemoryBytes := ui.bytes
    modelLoadCounter := d.modelLoadCounter + 1
    modelName := path.fileName.getD ""
    loadError := false
    loadErrorMsg := none }

/-- `note_commit_failure` -/
def Display.noteCommitFailure (d : Display Meta Info) (path : Path) (why : CommitFailure) :
    Display Meta Info :=
  { d with modelLoadFailed := true, loadError := true, loadErrorMsg := some (path, why) }

namespace Panel

variable (E : Engine)

/-- `commit_prepared_model_with_generation` -/
def commitPreparedModel (x : Panel Meta Info) (prep : PreparedModel) (ui : ModelUi Meta Info)
    (generation : Nat) (faults : EngineCall → Bool) : Panel Meta Info × LoadOutcome :=
  let shared := x.shared.commitPreparedModel E prep generation faults
  match prep.commitFailure x.shared faults with
  | some why => (⟨shared, x.display.noteCommitFailure prep.file.asset.path why⟩, .failed)
  | none => (⟨shared, x.display.finishCommitUi prep.file.asset.path ui⟩, .done)

/-- `load_model` on what the path holds; `none` where it cannot be read or is no model. -/
def loadModel (x : Panel Meta Info) (file : Option (ModelFile × ModelUi Meta Info))
    (faults : EngineCall → Bool) : Panel Meta Info × LoadOutcome :=
  match file with
  | none => (x, .failed)
  | some (file, ui) =>
    match prepareModel file ⟨x.shared.sampleRate, x.shared.bufferSize⟩ faults with
    | none => (x, .failed)
    | some prep =>
      let x := { x with shared := x.shared.allocateModelGeneration }
      x.commitPreparedModel E prep ui x.shared.modelGeneration faults

/-- `load_cabsim` on what the path holds; `none` where it cannot be read or decoded. -/
def loadCabsim (x : Panel Meta Info) (ir : Option Asset) (faults : EngineCall → Bool) :
    Panel Meta Info × LoadOutcome :=
  match ir with
  | none => (x, .failed)
  | some ir =>
    ({ x with shared := x.shared.loadCabsim ir faults },
      if !x.shared.paramRx && decide (0 < x.shared.bufferSize) && faults .cabsim then .failed
      else .done)

/-- `clear_model` -/
def clearModel (x : Panel Meta Info) (faults : EngineCall → Bool) :
    Panel Meta Info × LoadOutcome :=
  let shared := x.shared.clearModel E faults
  let display := { x.display with
    modelMetadata := none
    modelInfo := none
    modelMemoryBytes := 0
    modelName := "" }
  if decide (0 < x.shared.bufferSize) && (faults .resampler || faults .stream) then
    (⟨shared, display⟩, .failed)
  else (⟨shared, { display with modelLoadCounter := display.modelLoadCounter + 1 }⟩, .done)

end Panel

/-- The loads and clears. The commit of a model that was prepared on the worker is one of its own:
the audio configuration may have changed since. -/
inductive LoadCall (Meta Info : Type) where
  | loadModel (file : Option (ModelFile × ModelUi Meta Info))
  | commitPreparedModel (prep : PreparedModel) (ui : ModelUi Meta Info) (generation : Nat)
  | loadCabsim (ir : Option Asset)
  | clearModel

def Panel.call (E : Engine) (x : Panel Meta Info) (c : LoadCall Meta Info)
    (faults : EngineCall → Bool) : Panel Meta Info × LoadOutcome :=
  match c with
  | .loadModel file => x.loadModel E file faults
  | .commitPreparedModel prep ui generation => x.commitPreparedModel E prep ui generation faults
  | .loadCabsim ir => x.loadCabsim ir faults
  | .clearModel => x.clearModel E faults

end

end NamPlug
