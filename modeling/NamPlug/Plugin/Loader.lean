import NamPlug.Lib.Run
import NamPlug.Plugin.Load

/-!
# The model loader and its worker

The requests of the GUI and of the host's presets for a model: their acceptance, the worker thread
that prepares the models, the slot it leaves them in and the housekeeping that commits them
(`plugin/main_thread/housekeeping.rs`, `plugin/main_thread/model_loader.rs`). `Plugin/Load` has the
loader as the rest of the plugin sees it, with a worker that always answers; here the worker
panics and dies, cannot be spawned or reached, and a commit fails.

The worker takes a job and prepares it in one step, and publishes the panic of a rebuild poll in
two. The main thread goes through the phases of `handle_pending_model_load` one by one, with the
worker in between. The audio configuration a model is prepared or committed for comes with the
action, as do the faults of the engine; the messages of the GUI are left out.

`State.log` is not in the source. It records, newest first, the requests that were accepted, those
whose model was committed and what the host was told.
-/

namespace NamPlug.Loader

/-! ## Requests -/

inductive ModelRequestOrigin where
  | gui
  | preset (location : String) (loadKey : Option String)
  deriving DecidableEq, Repr

/-- A request as it is accepted. -/
structure Request where
  generation : Nat
  origin : ModelRequestOrigin
  deriving DecidableEq, Repr

def Request.isGui (r : Request) : Bool := r.origin = .gui

structure ModelLoaderJob extends Request where
  path : Path
  audioEpoch : AudioEpoch
  deriving DecidableEq, Repr

/-- What of `NamDiagnostic` an answer to the host is made of. -/
structure NamDiagnostic where
  errorCode : Int
  codeMessage : String
  userMessage : String
  userHint : String
  deriving DecidableEq, Repr

/-- The message of `report_model_load_error`. -/
def NamDiagnostic.text (e : NamDiagnostic) : String :=
  if e.userHint ≠ "" then e.userMessage ++ ": " ++ e.userHint
  else if e.userMessage ≠ "" then e.userMessage
  else e.codeMessage

structure PreparedModelResult extends Request where
  /-- The model, or why the load failed. -/
  outcome : NamDiagnostic ⊕ PreparedModel
  deriving DecidableEq, Repr

inductive Event where
  | accepted (r : Request)
  /-- The model of a request was committed. -/
  | committed (r : Request)
  /-- The host was told that a preset is loaded. -/
  | loaded (r : Request)
  /-- The host was told that a preset failed. -/
  | error (r : Request) (code : Int) (message : String)
  deriving DecidableEq, Repr

/-! ## State -/

/-- The worker thread with the channel of its jobs. -/
structure ModelLoader where
  jobs : List ModelLoaderJob
  running : Bool
  /-- The panic of a rebuild poll is published, and `ui_loading` not lowered yet. -/
  panicked : Bool
  deriving DecidableEq, Repr

def ModelLoader.spawn : ModelLoader := ⟨[], true, false⟩

/-- How far `housekeeping` is. -/
inductive Phase where
  | rebuilds | poll | dispatch
  deriving DecidableEq, Repr

structure State where
  pendingAsyncLoads : List ModelLoaderJob
  modelWorkerBusy : Bool
  dispatchedModelGeneration : Nat
  dispatchedModelIsGui : Bool
  modelLoader : Option ModelLoader
  modelResultSlot : Option PreparedModelResult
  modelGeneration : Nat
  uiLoading : Bool
  uiLoadError : Bool
  phase : Phase
  log : List Event
  deriving DecidableEq, Repr

def State.init : State where
  pendingAsyncLoads := []
  modelWorkerBusy := false
  dispatchedModelGeneration := 0
  dispatchedModelIsGui := false
  modelLoader := none
  modelResultSlot := none
  modelGeneration := 0
  uiLoading := false
  uiLoadError := false
  phase := .rebuilds
  log := []

def State.note (x : State) (e : Event) : State := { x with log := e :: x.log }

/-! ## Answers -/

/-- `notify_preset_loaded`, where the request came from a preset. -/
def State.notifyLoaded (x : State) (r : Request) : State :=
  match r.origin with
  | .gui => x
  | .preset _ _ => x.note (.loaded r)

/-- `notify_preset_error`, where the request came from a preset. -/
def State.notifyError (x : State) (r : Request) (code : Int) (message : String) : State :=
  match r.origin with
  | .gui => x
  | .preset _ _ => x.note (.error r code message)

/-- `report_model_load_error`. -/
def State.reportModelLoadError (x : State) (r : Request) (e : NamDiagnostic) : State :=
  { x with uiLoadError := true }.notifyError r e.errorCode e.text

/-- Whether a commit adopts the model: its resources can be had for the audio configuration. -/
def PreparedModel.commits (prep : PreparedModel) (s : Shared) (faults : EngineCall → Bool)
    (generation : Nat) : Bool :=
  s.bufferSize = 0 || (prep.adapt s faults generation).isSome

/-- `commit_prepared_model_with_generation`, with `note_commit_failure`. -/
def State.commitPreparedModel (x : State) (r : Request) (prep : PreparedModel) (s : Shared)
    (faults : EngineCall → Bool) (generation : Nat) : State :=
  if PreparedModel.commits prep s faults generation then
    { x with uiLoadError := false }.note (.committed r)
  else { x with uiLoadError := true }

/-! ## Accepting -/

def SUPERSEDED : String := "Preset model load superseded before it could start"

/-- `accept_model_request` with a path. -/
def State.acceptModelRequest (x : State) (path : Path) (origin : ModelRequestOrigin) : State :=
  let generation := x.modelGeneration + 1
  let r : Request := ⟨generation, origin⟩
  let x := { x with modelGeneration := generation, uiLoading := true }.note (.accepted r)
  let job : ModelLoaderJob := ⟨r, path, ⟨0, 0⟩⟩
  let x :=
    if r.isGui then
      { x with
        pendingAsyncLoads := x.pendingAsyncLoads.filter (!·.isGui)
        dispatchedModelGeneration :=
          if x.modelWorkerBusy && x.dispatchedModelIsGui then 0
          else x.dispatchedModelGeneration }
    else x
  if MAX_PENDING_MODEL_REQUESTS ≤ x.pendingAsyncLoads.length then
    match x.pendingAsyncLoads with
    | evicted :: kept =>
      { x with pendingAsyncLoads := kept ++ [job] }.notifyError evicted.toRequest 0 SUPERSEDED
    | [] => { x with pendingAsyncLoads := [job] }
  else { x with pendingAsyncLoads := x.pendingAsyncLoads ++ [job] }

/-- `maybe_finish_loading_ui`, where the dialog was cancelled or timed out. -/
def State.maybeFinishLoadingUi (x : State) : State :=
  if !x.modelWorkerBusy && x.pendingAsyncLoads.isEmpty then { x with uiLoading := false } else x

/-! ## Polling -/

/-- `poll_model_loader_result`. -/
def State.pollModelLoaderResult (x : State) (s : Shared) (faults : EngineCall → Bool) : State :=
  match x.modelResultSlot with
  | none => x
  | some result =>
    let stale := result.generation = 0 ∨ result.generation ≠ x.dispatchedModelGeneration
    let x := { x with
      modelResultSlot := none
      modelWorkerBusy := false
      dispatchedModelGeneration := 0
      dispatchedModelIsGui := false }
    if stale then x
    else
      let x := { x with uiLoading := !x.pendingAsyncLoads.isEmpty }
      match result.outcome with
      | .inr prep =>
        (x.commitPreparedModel result.toRequest prep s faults result.generation).notifyLoaded
          result.toRequest
      | .inl e => x.reportModelLoadError result.toRequest e

/-! ## Dispatching -/

/-- The model of a job, if its file loads. -/
def ModelLoaderJob.prepare (job : ModelLoaderJob) (file : Option ModelFile)
    (faults : EngineCall → Bool) : Option PreparedModel :=
  (file.filter (·.asset.path = job.path)).bind fun f => prepareModel f job.audioEpoch faults

/-- `run_sync_model_load`: the commit has a generation of its own. -/
def State.runSyncModelLoad (x : State) (job : ModelLoaderJob) (s : Shared)
    (file : Option ModelFile) (faults : EngineCall → Bool) (e : NamDiagnostic) : State :=
  let x := { x with uiLoading := true }
  match { job with audioEpoch := ⟨s.sampleRate, s.bufferSize⟩ }.prepare file faults with
  | some prep =>
    let x := { x with modelGeneration := x.modelGeneration + 1 }
    let x := x.commitPreparedModel job.toRequest prep s faults x.modelGeneration
    { x with uiLoading := false }.notifyLoaded job.toRequest
  | none => { x with uiLoading := false }.reportModelLoadError job.toRequest e

/-- What the main thread meets when it dispatches: whether it sees a worker that died, whether a
new one can be spawned, and whether the job reaches the worker. -/
structure Reach where
  finished : Bool
  spawned : Bool
  sent : Bool
  deriving DecidableEq, Repr

/-- Whether there is a worker, as far as the main thread sees. -/
def ModelLoader.isAvailable (w : ModelLoader) (finished : Bool) : Bool :=
  w.running || !finished

/-- `dispatch_pending_model_load`. A job cannot reach a worker that died; where it does not reach
its worker, the worker is gone. -/
def State.dispatchPendingModelLoad (x : State) (reach : Reach) (s : Shared)
    (file : Option ModelFile) (faults : EngineCall → Bool) (e : NamDiagnostic) : Option State :=
  if x.modelWorkerBusy then some x
  else
    match x.pendingAsyncLoads with
    | [] => some x
    | job :: rest =>
      let job := { job with audioEpoch := ⟨s.sampleRate, s.bufferSize⟩ }
      let x := { x with pendingAsyncLoads := rest }
      let have_loader := x.modelLoader.filter (·.isAvailable reach.finished)
      match have_loader.or (if reach.spawned then some .spawn else none) with
      | none => some (x.runSyncModelLoad job s file faults e)
      | some w =>
        if reach.sent then
          if w.running then
            some { x with
              modelLoader := some { w with jobs := w.jobs ++ [job] }
              modelWorkerBusy := true
              dispatchedModelGeneration := job.generation
              dispatchedModelIsGui := job.isGui }
          else none
        else some ({ x with modelLoader := none }.runSyncModelLoad job s file faults e)

/-- `ensure_rebuild_worker`. -/
def State.ensureRebuildWorker (x : State) (finished spawned : Bool) : State :=
  let x :=
    if x.modelLoader.any (!·.isAvailable finished) then
      { x with
        modelWorkerBusy := false
        dispatchedModelGeneration := 0
        dispatchedModelIsGui := false
        uiLoading := false
        modelLoader := none }
    else x
  if x.modelLoader.isSome then x
  else if spawned then { x with modelLoader := some .spawn }
  else x

/-! ## The worker -/

/-- `worker_main` takes a job, prepares it and publishes the result; where the preparation panics,
the result is an error. -/
def State.finishJob (x : State) (w : ModelLoader) (file : Option ModelFile)
    (faults : EngineCall → Bool) (e : NamDiagnostic) : Option State :=
  match w.jobs with
  | [] => none
  | job :: rest =>
    let outcome := match job.prepare file faults with
      | some prep => Sum.inr prep
      | none => Sum.inl e
    some { x with
      modelLoader := some { w with jobs := rest }
      modelResultSlot := some ⟨job.toRequest, outcome⟩ }

/-- The result of a rebuild poll that panicked. -/
def panicResult (e : NamDiagnostic) : PreparedModelResult := ⟨⟨0, .gui⟩, .inl e⟩

/-- The operations of the worker thread. -/
inductive WorkerAction where
  | finishJob (file : Option ModelFile) (faults : EngineCall → Bool) (e : NamDiagnostic)
  /-- A rebuild poll panics, and its result is published. -/
  | rebuildPanic (e : NamDiagnostic)
  /-- The rest of the recovery from the panic. -/
  | recover
  /-- The thread ends, its channel with it. -/
  | die

def State.workerStep (x : State) (w : ModelLoader) : WorkerAction → Option State
  | .finishJob file faults e => if w.panicked then none else x.finishJob w file faults e
  | .rebuildPanic e =>
    if w.panicked then none
    else some { x with
      modelLoader := some { w with panicked := true }
      modelResultSlot := some (panicResult e) }
  | .recover =>
    if w.panicked then
      some { x with
        modelLoader := some { w with panicked := false }, uiLoadError := true, uiLoading := false }
    else none
  | .die => some { x with modelLoader := some ⟨[], false, false⟩ }

/-! ## Steps -/

inductive Action where
  | worker (a : WorkerAction)
  /-- A handler of the rebuilds looks for the worker. -/
  | ensureRebuildWorker (finished spawned : Bool)
  /-- No request waits. -/
  | acceptNone
  | acceptCancelled
  | accept (path : Path) (origin : ModelRequestOrigin)
  | poll (s : Shared) (faults : EngineCall → Bool)
  | dispatch (reach : Reach) (s : Shared) (file : Option ModelFile) (faults : EngineCall → Bool)
    (e : NamDiagnostic)

def step (x : State) : Action → Option State
  | .worker a => x.modelLoader.bind fun w => if w.running then x.workerStep w a else none
  | .ensureRebuildWorker finished spawned =>
    if x.phase = .rebuilds then some (x.ensureRebuildWorker finished spawned) else none
  | .acceptNone => if x.phase = .rebuilds then some { x with phase := .poll } else none
  | .acceptCancelled =>
    if x.phase = .rebuilds then some { x.maybeFinishLoadingUi with phase := .poll } else none
  | .accept path origin =>
    if x.phase = .rebuilds then some { x.acceptModelRequest path origin with phase := .poll }
    else none
  | .poll s faults =>
    if x.phase = .poll then some { x.pollModelLoaderResult s faults with phase := .dispatch }
    else none
  | .dispatch reach s file faults e =>
    if x.phase = .dispatch then
      (x.dispatchPendingModelLoad reach s file faults e).map fun x => { x with phase := .rebuilds }
    else none

/-! ## What the loader promises -/

/-- The jobs the worker has. -/
def State.jobs (x : State) : List ModelLoaderJob :=
  match x.modelLoader with
  | some w => w.jobs
  | none => []

/-- The requests with the worker, or with a result that waits to be polled. -/
def State.inFlight (x : State) : List Request :=
  x.jobs.map (·.toRequest) ++
    (x.modelResultSlot.filter (·.generation ≠ 0)).toList.map (·.toRequest)

/-- The requests that are queued or in flight. -/
def State.waiting (x : State) : List Request :=
  x.pendingAsyncLoads.map (·.toRequest) ++ x.inFlight

/-- The GUI request accepted last. -/
def newestGui : List Event → Option Request
  | [] => none
  | .accepted r :: es => if r.isGui then some r else newestGui es
  | _ :: es => newestGui es

/-- Every commit of a GUI request is one of the newest at its time. -/
def Current : List Event → Prop
  | [] => True
  | .committed r :: es => (r.isGui = true → newestGui es = some r) ∧ Current es
  | _ :: es => Current es

def Event.answers (r : Request) : Event → Bool
  | .loaded q => q = r
  | .error q _ _ => q = r
  | _ => false

/-- What the loader promises in a state: no GUI request is committed after a newer one was accepted;
every preset request that was accepted waits or has its one answer, which is that it is loaded if
its model was committed, and an error if not; the queue keeps its bounds; and `ui_loading` is lowered
where no request waits. -/
structure Promises (x : State) : Prop where
  current : Current x.log
  answered : ∀ r, r.isGui = false → .accepted r ∈ x.log →
    x.log.countP (Event.answers r) + x.waiting.count r = 1
  truthful : ∀ r, r.isGui = false → (.loaded r ∈ x.log ↔ .committed r ∈ x.log)
  oneGui : x.pendingAsyncLoads.countP (·.isGui) ≤ 1
  bounded : x.pendingAsyncLoads.length ≤ MAX_PENDING_MODEL_REQUESTS
  settled : x.waiting = [] → x.uiLoading = false

end NamPlug.Loader
