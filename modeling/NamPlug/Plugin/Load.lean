import NamPlug.Plugin.State

/-!
# Loads and clears on the main thread

Model loads and clears (`plugin/main_thread/load.rs`), IR loads and clears (`load.rs`,
`housekeeping.rs`), the asynchronous model loader and the retry of a retained model
(`housekeeping.rs`, `plugin/main_thread/mod.rs`).

An engine call that can fail does so where the `faults` of the operation say; reading and decoding
a file succeeded where a `ModelFile` or an `Asset` is given.
-/

namespace NamPlug

/-- The engine calls of a load that can fail. -/
inductive EngineCall where
  | resampler | stream | resizeL | resizeR | cabsim
  deriving DecidableEq, Repr

def StaticModel.setMaxBufferSize (m : StaticModel) (n : Nat) : StaticModel :=
  { m with maxBuffer := n }

/-- The models of a file, not sized yet. -/
def ModelFile.modelL (f : ModelFile) : StaticModel := ⟨f.asset, f.rate, f.channels, f.channels, 0⟩

def ModelFile.modelR (f : ModelFile) : Option StaticModel :=
  if f.stereo then some f.modelL else none

/-- Resize both channels, left first: whether it worked, and the models it leaves. -/
def resizeModels (failL failR : Bool) (n : Nat) (l r : Option StaticModel) :
    Bool × Option StaticModel × Option StaticModel :=
  if l.isSome && failL then (false, l, r)
  else
    let l := l.map (·.setMaxBufferSize n)
    if r.isSome && failR then (false, l, r) else (true, l, r.map (·.setMaxBufferSize n))

theorem resizeModels_asset (failL failR : Bool) (n : Nat) (l r : Option StaticModel) :
    (resizeModels failL failR n l r).2.1.map StaticModel.asset = l.map StaticModel.asset := by
  unfold resizeModels
  split
  · rfl
  · dsimp only
    split <;> cases l <;> rfl

/-- A resize that works sets both channels; one that fails leaves the right one, and the left one
perhaps. -/
theorem resizeModels_cases (failL failR : Bool) (n : Nat) (l r : Option StaticModel) :
    resizeModels failL failR n l r =
      (true, l.map (·.setMaxBufferSize n), r.map (·.setMaxBufferSize n)) ∨
    ∃ l', (l' = l ∨ l' = l.map (·.setMaxBufferSize n)) ∧
      resizeModels failL failR n l r = (false, l', r) := by
  unfold resizeModels
  split
  · exact .inr ⟨l, .inl rfl, rfl⟩
  · dsimp only
    split
    · exact .inr ⟨_, .inr rfl, rfl⟩
    · exact .inl rfl

/-! ## Preparing a model -/

/-- `prepare_model` on a file that loads. -/
def prepareModel (file : ModelFile) (epoch : AudioEpoch) (faults : EngineCall → Bool) :
    Option PreparedModel :=
  let hostRate := if epoch.sampleRate = 0 then 48000 else epoch.sampleRate
  let bufferSize := epoch.bufferSize
  if bufferSize = 0 then
    some {
      file
      modelL := some file.modelL
      modelR := file.modelR
      newResampler := none
      newStream := none
      audioEpoch := ⟨hostRate, bufferSize⟩
      modelL_asset := rfl }
  else if faults .resampler then none
  else
    match h : resizeModels (faults .resizeL) (faults .resizeR) bufferSize (some file.modelL)
        file.modelR with
    | (false, _, _) => none
    | (true, l, r) =>
      if faults .stream then none
      else some {
        file
        modelL := l
        modelR := r
        newResampler := some ⟨hostRate, file.rate⟩
        newStream := some (buildStreamAdapter hostRate file.rate bufferSize)
        audioEpoch := ⟨hostRate, bufferSize⟩
        modelL_asset :=
          (congrArg (·.2.1.map StaticModel.asset) h).symm.trans (resizeModels_asset ..) }

/-! ## Committing a model -/

/-- `publish_model_identity`. -/
def Shared.publishModelIdentity (s : Shared) (file : ModelFile) : Shared :=
  let path := file.asset.path
  let searchPaths := match path.parent with
    | some d =>
      if d ∈ s.params.modelSearchPaths then s.params.modelSearchPaths
      else s.params.modelSearchPaths ++ [d]
    | none => s.params.modelSearchPaths
  { s with
    params := { s.params with
      modelPath := some path
      modelBasename := path.fileName
      modelSearchPaths := searchPaths
      modelHash := some file.asset.hash }
    modelSampleRate := file.rate
    slim := { s.slim with fullWavenetModel := file.modelL.fullWavenet } }

def LoadModelPayload.toPending (m : LoadModelPayload) : PendingModel :=
  ⟨m.generation, m.modelL, m.modelR, m.modelRate⟩

/-- A staged swap without its model. -/
def Shared.clearStagedModel (s : Shared) : Shared :=
  { s with stagedSwap := (s.stagedSwap.map (·.clearModel)).filter (!·.isEmpty) }

def Shared.clearStagedIr (s : Shared) : Shared :=
  { s with stagedSwap := (s.stagedSwap.map (·.clearIr)).filter (!·.isEmpty) }

/-- A push of a model; a full ring leaves it pending. -/
def Shared.pushModel (s : Shared) (m : LoadModelPayload) : Shared :=
  match s.tryPushCommand (.loadModel m) with
  | (s, true) => s
  | (s, false) => { s with pendingModel := some m.toPending }

section
variable (E : Engine)

/-- The end of a model load or clear on an active plugin: with the latency unchanged it goes
through the ring, else it is staged for a restart. -/
def Shared.swapModel (s : Shared) (m : LoadModelPayload) : Shared :=
  let s := { s with stagedRestore := none }
  if E.streamLatency m.newStream = s.currentStreamLatency then s.clearStagedModel.pushModel m
  else
    { s with stagedSwap := some { s.stagedSwap.getD .empty with model := some m } }

/-- Whether the audio configuration changed since a model was prepared. -/
def PreparedModel.divergent (prep : PreparedModel) (s : Shared) : Bool :=
  prep.audioEpoch.sampleRate ≠ s.sampleRate || prep.audioEpoch.bufferSize ≠ s.bufferSize ||
    prep.newStream.all (fun st => st.hostRate ≠ s.sampleRate || st.maxBlock ≠ s.bufferSize) ||
    prep.newResampler.isNone

/-- The resources of a prepared model for the active configuration; `none` where they cannot be
rebuilt. -/
def PreparedModel.adapt (prep : PreparedModel) (s : Shared) (faults : EngineCall → Bool)
    (generation : Nat) : Option LoadModelPayload :=
  if prep.divergent s then
    if faults .resampler || faults .stream then none
    else
      match resizeModels (faults .resizeL) (faults .resizeR) s.bufferSize prep.modelL
          prep.modelR with
      | (false, _, _) => none
      | (true, l, r) =>
        some ⟨generation, l, r, ⟨s.sampleRate, prep.file.rate⟩,
          buildStreamAdapter s.sampleRate prep.file.rate s.bufferSize, prep.file.rate⟩
  else
    match prep.newResampler, prep.newStream with
    | some res, some st => some ⟨generation, prep.modelL, prep.modelR, res, st, prep.file.rate⟩
    | _, _ => none

/-- `commit_prepared_model_with_generation`. -/
def Shared.commitPreparedModel (s : Shared) (prep : PreparedModel) (generation : Nat)
    (faults : EngineCall → Bool) : Shared :=
  if s.bufferSize = 0 then
    { s with
      pendingModel := some ⟨generation, prep.modelL, prep.modelR, prep.file.rate⟩ }
      |>.publishModelIdentity prep.file |>.note (.model generation (some prep.file.asset))
  else
    match prep.adapt s faults generation with
    | none => s
    | some m =>
      (s.swapModel E m).publishModelIdentity prep.file
        |>.note (.model generation (some prep.file.asset))

/-- `load_model`. -/
def Shared.loadModel (s : Shared) (file : ModelFile) (faults : EngineCall → Bool) : Shared :=
  match prepareModel file ⟨s.sampleRate, s.bufferSize⟩ faults with
  | none => s
  | some prep =>
    let s := s.allocateModelGeneration
    s.commitPreparedModel E prep s.modelGeneration faults

/-- `clear_model`: the identity goes first, then the resources are built. -/
def Shared.clearModel (s : Shared) (faults : EngineCall → Bool) : Shared :=
  let hostRate := s.hostRate
  let s := s.allocateModelGeneration
  let generation := s.modelGeneration
  let s := { s with
    params := { s.params with modelPath := none, modelBasename := none, modelHash := none }
    modelSampleRate := 0
    slim := { s.slim with fullWavenetModel := none } }
  if s.bufferSize = 0 then
    { s with pendingModel := some ⟨generation, none, none, hostRate⟩ }.note (.model generation none)
  else if faults .resampler || faults .stream then s
  else
    (s.swapModel E ⟨generation, none, none, ⟨hostRate, hostRate⟩,
      buildStreamAdapter hostRate hostRate s.bufferSize, hostRate⟩).note (.model generation none)

/-! ## The asynchronous loader -/

/-- The worker is busy until its result is consumed. -/
def Shared.modelWorkerBusy (s : Shared) : Bool := s.workerJob.isSome || s.modelResultSlot.isSome

/-- `accept_model_request`. -/
def Shared.acceptModelRequest (s : Shared) (path : Path) (isGui : Bool) : Shared :=
  let s := s.allocateModelGeneration
  let job : ModelLoaderJob := ⟨path, isGui, s.modelGeneration, ⟨0, 0⟩⟩
  -- a newer pick in the GUI supersedes the older ones
  let waiting := if isGui then s.pendingAsyncLoads.filter (!·.isGui) else s.pendingAsyncLoads
  let dispatched :=
    if isGui && s.modelWorkerBusy && s.dispatchedModelIsGui then 0
    else s.dispatchedModelGeneration
  let kept := if MAX_PENDING_MODEL_REQUESTS ≤ waiting.length then waiting.tail else waiting
  { s with pendingAsyncLoads := kept ++ [job], dispatchedModelGeneration := dispatched }

/-- `dispatch_pending_model_load` to an idle worker. -/
def Shared.dispatchModelLoad (s : Shared) : Shared :=
  if s.modelWorkerBusy then s
  else
    match s.pendingAsyncLoads with
    | [] => s
    | job :: jobs =>
      { s with
        pendingAsyncLoads := jobs
        workerJob := some { job with audioEpoch := ⟨s.sampleRate, s.bufferSize⟩ }
        dispatchedModelGeneration := job.generation
        dispatchedModelIsGui := job.isGui }

/-- `dispatch_pending_model_load` with no worker to be had: the load runs at once, with a
generation of its own. `file` is what the path of the job holds, if it loads. -/
def Shared.dispatchModelLoadSync (s : Shared) (file : Option ModelFile)
    (faults : EngineCall → Bool) : Shared :=
  if s.modelWorkerBusy then s
  else
    match s.pendingAsyncLoads, file with
    | [], _ => s
    | _ :: jobs, none => { s with pendingAsyncLoads := jobs }
    | job :: jobs, some file =>
      let s := { s with pendingAsyncLoads := jobs }
      if file.asset.path = job.path then s.loadModel E file faults else s

/-- The worker's result. -/
def Shared.finishModelLoad (s : Shared) (file : Option ModelFile) (faults : EngineCall → Bool) :
    Shared :=
  match s.workerJob with
  | none => s
  | some job =>
    let outcome := (file.filter (·.asset.path = job.path)).bind fun f =>
      prepareModel f job.audioEpoch faults
    { s with workerJob := none, modelResultSlot := some ⟨job.generation, outcome⟩ }

/-- `poll_model_loader_result`: only the generation dispatched last is committed. -/
def Shared.pollModelLoaderResult (s : Shared) (faults : EngineCall → Bool) : Shared :=
  match s.modelResultSlot with
  | none => s
  | some result =>
    let stale := result.generation = 0 ∨ result.generation ≠ s.dispatchedModelGeneration
    let s := { s with
      modelResultSlot := none, dispatchedModelGeneration := 0, dispatchedModelIsGui := false }
    if stale then s
    else
      match result.outcome with
      | some prep => s.commitPreparedModel E prep result.generation faults
      | none => s

/-! ## The retained model -/

/-- `flush_pending_model`; the result says whether it went without an error. A model that fails
to be rebuilt stays, its left channel possibly resized. -/
def Shared.flushPendingModel (s : Shared) (faults : EngineCall → Bool) : Shared × Bool :=
  match s.pendingModel with
  | none => (s, true)
  | some p =>
    if s.bufferSize = 0 then (s, true)
    else if faults .resampler || faults .stream then (s, false)
    else
      match resizeModels (faults .resizeL) (faults .resizeR) s.bufferSize p.model p.modelR with
      | (false, l, r) => ({ s with pendingModel := some { p with model := l, modelR := r } }, false)
      | (true, l, r) =>
        ({ s with pendingModel := none }.pushModel ⟨p.generation, l, r,
          ⟨s.sampleRate, p.modelRate⟩,
          buildStreamAdapter s.sampleRate p.modelRate s.bufferSize, p.modelRate⟩, true)

/-! ## Impulse responses -/

/-- The impulse response is adopted: its identity and samples are published. -/
def Shared.adoptIr (s : Shared) (ir : Asset) (rate : Nat) : Shared :=
  { s with
    irPath := some ir.path
    irHash := some ir.hash
    irRawSamples := some ⟨ir, rate⟩
    params := { s.params with irPath := some ir.path, irHash := some ir.hash } }
    |>.note (.ir (some ir))

/-- `load_cabsim`, with the samples resampled to the host rate. Before the first activation and
between two activations the samples are only recorded. -/
def Shared.loadCabsim (s : Shared) (ir : Asset) (faults : EngineCall → Bool) : Shared :=
  let hostRate := s.hostRate
  let processorActive := !s.paramRx
  if processorActive && decide (0 < s.bufferSize) then
    let s := { s with stagedRestore := none }
    if faults .cabsim then s
    else
      let pair : CabSimPair := ⟨ir, hostRate, s.bufferSize⟩
      if s.bufferSize = s.currentCabsimLatency then
        match s.clearStagedIr.tryPushCommand (.loadCabIr (some pair)) with
        | (s, true) => s.adoptIr ir hostRate
        | (s, false) => { s with uiPendingIr := some ir.path }
      else
        { s with stagedSwap := some { s.stagedSwap.getD .empty with ir := some (some pair) } }
          |>.adoptIr ir hostRate
  else s.adoptIr ir hostRate

/-- The IR load of `handle_pending_ir_and_clear`. -/
def Shared.handlePendingIr (s : Shared) (ir : Asset) (faults : EngineCall → Bool) : Shared :=
  { s with uiPendingIr := none }.loadCabsim ir faults

/-- The IR clear of `handle_pending_ir_and_clear`. -/
def Shared.clearIr (s : Shared) : Shared :=
  if s.currentCabsimLatency = 0 then s.note (.ir none)
  else
    { s with
      stagedSwap := some { s.stagedSwap.getD .empty with ir := some none }
      irPath := none
      irHash := none
      irRawSamples := none }.note (.ir none)

end

end NamPlug
