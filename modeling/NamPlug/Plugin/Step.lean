import NamPlug.Lib.Run
import NamPlug.Plugin.Activate
import NamPlug.Plugin.Slimmable

/-!
# Steps of a plugin instance

The remaining operations of the main thread (parameter flush, housekeeping of retained snapshots
and oversampling rebuilds) and the steps of an instance: every operation of the main thread, the
GUI, the loader worker, the host's lifecycle calls and the audio thread is one action, and any
interleaving of them is a run.
-/

namespace NamPlug

open Binary32

section
variable (E : Engine)

/-! ## Parameter flushes -/

/-- The delivery of a snapshot: a full ring leaves it in flight and bumps the generation. -/
def Shared.sendParams (s : Shared) (snapshot : RtProcessingParams) : Shared :=
  match (s.pushParams snapshot).forceFlush with
  | (s, true) => s
  | (s, false) => { s with inFlightParams := some snapshot }.bumpGeneration

/-- The main-thread `flush`. -/
def Shared.flush (s : Shared) (room : Nat) (input : List ParamValueEvent) : Shared :=
  let ui := (writeGuiEvents s.ui room).ui
  let r := flushEvents E.toParamEngine s.params.rt ui input
  let s := { s with params := { s.params with rt := r.1 }, ui := r.2 }
  let s := input.foldl (fun s e => s.noteEvent E e.id (narrow e.value)) s
  if input.any (·.counts) then s.sendParams s.params.rt else s

/-- `flush_in_flight_params`. -/
def Shared.flushInFlightParams (s : Shared) : Shared :=
  match s.inFlightParams with
  | some snapshot => { s with inFlightParams := none }.sendParams snapshot
  | none => s

/-- `handle_oversample_rebuild`. -/
def Shared.handleOversampleRebuild (s : Shared) : Shared :=
  match s.osRequest with
  | none => s
  | some factor =>
    match s.tryPushCommand (.setOversample ⟨factor⟩ ⟨factor⟩) with
    | (s, true) => { s with osRequest := none }
    | (s, false) => s

/-! ## GUI edits -/

/-- The first step of a GUI callback. -/
def Shared.guiStore (s : Shared) (e : GuiEdit) : Shared :=
  { s with ui := NamPlug.guiStore s.ui e }.note (.param e.param (e.value s.ui))

def Shared.guiAnnounce (s : Shared) (e : GuiEdit) : Shared :=
  { s with ui := NamPlug.guiAnnounce s.ui e }

/-! ## Actions -/

/-- The operations outside the audio thread. -/
inductive MainAction where
  | loadModel (file : ModelFile) (faults : EngineCall → Bool)
  | clearModel (faults : EngineCall → Bool)
  | acceptModelRequest (path : Path) (isGui : Bool)
  | dispatchModelLoad
  | dispatchModelLoadSync (file : Option ModelFile) (faults : EngineCall → Bool)
  | finishModelLoad (file : Option ModelFile) (faults : EngineCall → Bool)
  | pollModelLoaderResult (faults : EngineCall → Bool)
  | flushPendingModel (faults : EngineCall → Bool)
  | handlePendingIr (ir : Asset) (faults : EngineCall → Bool)
  | clearIr
  | restore (v : ValidatedRestore) (mode : RestoreMode) (faults : EngineCall → Bool)
  | flushPendingRestore
  | flush (room : Nat) (input : List ParamValueEvent)
  | flushInFlightParams
  | handleOversampleRebuild
  | snapshotParams
  | guiStore (e : GuiEdit)
  | guiAnnounce (e : GuiEdit)
  | setRenderMode (mode : RenderMode)
  | pollSlimmable
  | publishSlimmable (sliced resized : Bool)
  | drainSlimmableRebuild
  | handleSlimmableRebuildInline (sliced resized : Bool)
  | lowerSlimmableFlag

def mainStep (s : Shared) : MainAction → Shared
  | .loadModel file faults => s.loadModel E file faults
  | .clearModel faults => s.clearModel E faults
  | .acceptModelRequest path isGui => s.acceptModelRequest path isGui
  | .dispatchModelLoad => s.dispatchModelLoad
  | .dispatchModelLoadSync file faults => s.dispatchModelLoadSync E file faults
  | .finishModelLoad file faults => s.finishModelLoad file faults
  | .pollModelLoaderResult faults => s.pollModelLoaderResult E faults
  | .flushPendingModel faults => (s.flushPendingModel faults).1
  | .handlePendingIr ir faults => s.handlePendingIr ir faults
  | .clearIr => s.clearIr
  | .restore v mode faults => s.commitRestore E v mode faults
  | .flushPendingRestore => s.flushPendingRestore
  | .flush room input => s.flush E room input
  | .flushInFlightParams => s.flushInFlightParams
  | .handleOversampleRebuild => s.handleOversampleRebuild
  | .snapshotParams => s.snapshotParams E.toParamEngine
  | .guiStore e => s.guiStore e
  | .guiAnnounce e => s.guiAnnounce e
  | .setRenderMode mode => { s with renderMode := mode }
  | .pollSlimmable => s.pollSlimmable
  | .publishSlimmable sliced resized => s.publishSlimmable sliced resized
  | .drainSlimmableRebuild => s.drainSlimmableRebuild
  | .handleSlimmableRebuildInline sliced resized => s.handleSlimmableRebuildInline sliced resized
  | .lowerSlimmableFlag => s.lowerSlimmableFlag

/-- The operations of an active processor. -/
inductive AudioAction where
  | beginEvents (room : Nat)
  | drain (m : DrainMove)
  | endEvents
  | hostEvents (es : List ScheduledEvent)
  | flushInner (room : Nat) (es : List ScheduledEvent)
  | slimmable (m : SlimmableMove)
  | signalSlimmableRebuild (ch : Nat)
  | reset

/-- A drain takes place inside a callback, everything else outside. -/
def audioStep (s : Shared) (p : Processor) : AudioAction → Option (Shared × Processor)
  | .beginEvents room => if p.inCallback then none else some (beginEvents E s p room)
  | .drain m => if p.inCallback then drainMove E s p m else none
  | .endEvents => if p.inCallback then some (endEvents E s p) else none
  | .hostEvents es => if p.inCallback then none else some (hostEvents E s p es)
  | .flushInner room es => if p.inCallback then none else some (flushInner E s p room es)
  | .slimmable m => if p.inCallback then slimmableMove s p m else none
  | .signalSlimmableRebuild ch =>
    if p.inCallback then none else some (signalSlimmableRebuild s p ch)
  | .reset => if p.inCallback then none else some (s, resetProcessor p)

inductive Action where
  | main (a : MainAction)
  | audio (a : AudioAction)
  | activate (cfg : AudioConfig) (faults : ActivateCall → Bool)
  | deactivate

/-- A step; `none` where the host does not make the call. -/
def step (x : Plugin) : Action → Option Plugin
  | .main a => some { x with shared := mainStep E x.shared a }
  | .audio a =>
    x.proc.bind fun p => (audioStep E x.shared p a).map fun r => ⟨r.1, some r.2⟩
  | .activate cfg faults =>
    if x.proc.isSome then none
    else
      let r := x.shared.activate E cfg faults
      some ⟨r.1, r.2⟩
  | .deactivate =>
    match x.proc with
    | some p => if p.inCallback then none else some ⟨deactivate x.shared p, none⟩
    | none => none

end

/-! ## Runs of the reference engine -/

open Machine

def refConfig : AudioConfig := ⟨48000, 512⟩

def noFaults : EngineCall → Bool := fun _ => false

/-- An activation whose engine calls all succeed. -/
def refActivate : Action := .activate refConfig fun _ => false

/-- The state a run from the start leads to. -/
def refRun (as : List Action) : Plugin :=
  (run (step refEngine) (.init refParamEngine) as).getD (.init refParamEngine)

theorem run_refRun {as : List Action}
    (h : (run (step refEngine) (.init refParamEngine) as).isSome = true) :
    run (step refEngine) (.init refParamEngine) as = some (refRun as) := by
  unfold refRun
  obtain ⟨x, hx⟩ := Option.isSome_iff_exists.1 h
  rw [hx]
  rfl

/-- A run goes on from where a shorter one led. -/
theorem run_refRun_append {as bs : List Action}
    (h : (run (step refEngine) (.init refParamEngine) (as ++ bs)).isSome = true) :
    run (step refEngine) (refRun as) bs = some (refRun (as ++ bs)) := by
  obtain ⟨x, hx, hb⟩ := run_append.1 (run_refRun h)
  have ha := run_refRun (Option.isSome_of_eq_some hx)
  obtain rfl : x = refRun as := Option.some.inj (hx.symm.trans ha)
  exact hb

/-- The processor of a run that ends active. -/
def refProc (as : List Action) (h : (refRun as).proc.isSome = true) : Processor :=
  (refRun as).proc.get h

theorem refProc_eq {as : List Action} (h : (refRun as).proc.isSome = true) :
    (refRun as).proc = some (refProc as h) := (Option.some_get h).symm

end NamPlug
