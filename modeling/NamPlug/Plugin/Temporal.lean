import Mathlib.Logic.Function.Basic
import NamPlug.Plugin.Chain
import NamPlug.Plugin.Process

/-!
# Temporal state

What the wet chain remembers, on top of a session: a state for each part of the chain, and where the
gain smoothers stand. `reset` and the containment of `process_dsp_audio` clear it, each by a list of
its own (`WetState.reset`, `WetState.contained`); a command brings new parts.

What the engine does to a part is taken as it is (`WetEngine`): what a wet block leaves, what a
reset and a stabilization pass make of it, and what the telemetry of a held block does to the
adaptive controller. Mode and override of the controller are its configuration, and so are the
channels it asked for last (`SlimLevel`). A pass under way counts as not begun.
-/

namespace NamPlug

open Binary32

/-- The parts of the wet chain that remember what they were fed. -/
inductive WetPart where
  | modelL | modelR | stream | resampler | osL | osR | cabL | cabR | silenceHyst | monoHyst
  | adaptive
  deriving DecidableEq, Repr

/-- A gain smoother on its way. -/
structure ParamSmoother where
  current : F32
  target : F32
  deriving DecidableEq, Repr

/-- The state of every part, installed or not, and where the smoothers stand. -/
structure WetState (State : WetPart → Type) where
  part : ∀ x, State x
  currentIn : F32
  currentOut : F32

/-- What the engine does to the temporal state. `fresh` is the state of a part that was just built,
a model with its stabilization pass. -/
structure WetEngine where
  State : WetPart → Type
  fresh : ∀ x, State x
  reset : ∀ x, State x → State x
  prewarmReset : ∀ x, State x → State x
  /-- A stabilization pass, completed. -/
  prewarm : ∀ x, State x → State x
  /-- A wet block, with its telemetry. -/
  process : Processor → DspCall → WetState State → WetState State
  telemetry : DspCall → State .adaptive → State .adaptive

/-- What is relied on: `reset`, and `prewarm_reset` with the pass after it, restore the fresh
state. -/
structure WetEngine.Restores (W : WetEngine) : Prop where
  reset : ∀ x s, W.reset x s = W.fresh x
  prewarm : ∀ x s, W.prewarm x (W.prewarmReset x s) = W.fresh x

/-! ## Parts -/

def WetPart.isModel (x : WetPart) : Bool := x == .modelL || x == .modelR

/-- The parts that are installed. -/
def Processor.has (p : Processor) : WetPart → Bool
  | .modelL => p.modelL.isSome
  | .modelR => p.modelR.isSome
  | .cabL | .cabR => p.cabsimPair.isSome
  | _ => true

/-- The installed models. -/
def Processor.models (p : Processor) : List WetPart :=
  (if p.modelL.isSome then [.modelL] else []) ++ if p.modelR.isSome then [.modelR] else []

/-- What `reset` resets besides the models: the stream adapter, the resampler, the oversamplers, the
cab-sim adapters if there is a pair, the hystereses of the gate and the adaptive controller. -/
def Processor.resetParts (p : Processor) : List WetPart :=
  [.stream, .resampler, .osL, .osR] ++ (if p.cabsimPair.isSome then [.cabL, .cabR] else []) ++
    [.silenceHyst, .monoHyst, .adaptive]

/-- The models whose stabilization pass is outstanding. -/
def Rendering.outstanding (r : Rendering) : List WetPart :=
  (if r.stabilizingL then [.modelL] else []) ++ if r.stabilizingR then [.modelR] else []

/-- The parts a command replaces. -/
def ClapParamPayload.replaces (hostRate : Nat) (c : ClapParamPayload) : List WetPart :=
  let model := [WetPart.modelL, .modelR, .stream, .resampler]
  let cabsim (pair : Option CabSimPair) :=
    if CabSimPair.builtElsewhere hostRate pair then [] else [WetPart.cabL, .cabR]
  match c with
  | .params _ => []
  | .loadModel _ => model
  | .loadCabIr pair => cabsim pair
  | .setOversample _ _ => [.osL, .osR]
  | .restoreTxn txn =>
    (if txn.model.isSome then model else []) ++
      match txn.ir with
      | some ir => cabsim ir
      | none => []

def ChainOp.replaces (hostRate : Nat) : ChainOp → List WetPart
  | .command c => c.replaces hostRate
  | .slimmable _ => [.modelL]
  | _ => []

def ChainOp.isStructural : ChainOp → Bool
  | .command c => c.isStructural
  | _ => false

/-- The parts an activation may take over as the last deactivation left them; cab-sim adapters are
reset, and the rest is built anew. -/
def WetPart.isKept (x : WetPart) : Bool :=
  x.isModel || x == .stream || x == .resampler || x == .osL || x == .osR

/-! ## States -/

section
variable (W : WetEngine)

namespace WetState
variable (t : WetState W.State)

/-- `f` applied to some of the parts. -/
def on (xs : List WetPart) (f : ∀ x, W.State x → W.State x) : WetState W.State :=
  { t with part := fun x => if x ∈ xs then f x (t.part x) else t.part x }

/-- New parts. -/
def renew (xs : List WetPart) : WetState W.State := t.on W xs fun x _ => W.fresh x

/-- The smoothers snap to their targets. -/
def snap (p : Processor) : WetState W.State :=
  { t with currentIn := p.rt.smootherIn, currentOut := p.rt.smootherOut }

/-- `reset`. -/
def reset (p : Processor) : WetState W.State :=
  let t := t.on W p.models W.prewarmReset
  let t := t.on W p.resetParts W.reset
  t.snap W p

/-- The containment of a sample that is not finite. -/
def contained (p : Processor) : WetState W.State :=
  let t := t.on W p.models W.prewarmReset
  t.snap W p

/-- The passes that are completed between two renderings. -/
def prewarmed (r r' : Rendering) : WetState W.State :=
  t.on W (r.outstanding.filter (· ∉ r'.outstanding)) W.prewarm

/-- The telemetry of a held block, which a block of refused buffers does not reach. -/
def telemetry (c : DspCall) : WetState W.State :=
  if c.audio.isSome then
    { t with part := Function.update t.part .adaptive (W.telemetry c (t.part .adaptive)) }
  else t

/-- An activation: the passes of the models it takes over are completed; the smoothers are new. -/
def activated (r : Rendering) (p : Processor) (kept : List WetPart) : WetState W.State :=
  let t := t.on W r.outstanding W.prewarm
  { part := fun x => if x.isKept ∧ x ∈ kept then t.part x else W.fresh x
    currentIn := p.rt.smootherIn
    currentOut := p.rt.smootherOut }

end WetState

/-- The temporal state of a processor: that of the parts it has, and the smoothers. -/
structure Temporal where
  part : ∀ x, Option (W.State x)
  smootherIn : ParamSmoother
  smootherOut : ParamSmoother

def Processor.temporal (p : Processor) (t : WetState W.State) : Temporal W where
  part x := if p.has x then some (t.part x) else none
  smootherIn := ⟨t.currentIn, p.rt.smootherIn⟩
  smootherOut := ⟨t.currentOut, p.rt.smootherOut⟩

/-- The temporal state of a processor that is activated with the same resources and parameters. -/
def Temporal.fresh (E : Engine) (p : Processor) : Temporal W :=
  let gainIn := E.dbToLinear p.rt.params.inputGainDb
  let gainOut := E.dbToLinear p.rt.params.outputGainDb
  { part := fun x => if p.has x then some (W.fresh x) else none
    smootherIn := ⟨gainIn, gainIn⟩
    smootherOut := ⟨gainOut, gainOut⟩ }

/-! ## Steps -/

/-- The time from a reset or a containment to the wet block after it, with the gains in force when
it came. -/
structure Window where
  inputGainDb : F32
  outputGainDb : F32
  deriving DecidableEq, Repr

def Window.opened (p : Processor) : Window := ⟨p.rt.params.inputGainDb, p.rt.params.outputGainDb⟩

/-- A session with the temporal state of its wet chain. `firstWet` is the processor and the state
the last block started with, if it was the first wet one of a window. -/
structure Heard where
  session : Session
  state : WetState W.State
  window : Option Window
  firstWet : Option (Processor × WetState W.State)

/-- A step of a session, and for an activation what it takes over. -/
inductive HeardAction where
  | step (a : Action) (kept : List WetPart)
  | block (c : DspCall)

def HeardAction.action : HeardAction → SessionAction
  | .step a _ => .step a
  | .block c => .block c

namespace Heard
variable {W}

/-- Commands and slimmed models bring their resources. -/
def installed (w : Heard W) (hostRate : Nat) (ops : List ChainOp) : Heard W :=
  { w with
    state := w.state.renew W (ops.flatMap (·.replaces hostRate))
    window := if ops.any (·.isStructural) then none else w.window
    firstWet := none }

/-- A wet block. One of refused buffers feeds nothing. -/
def wet (w : Heard W) (p : Processor) (c : DspCall) : Heard W :=
  let w := { w with firstWet := w.window.map fun _ => (p, w.state) }
  if c.audio.isSome then { w with state := W.process p c w.state, window := none } else w

/-- The block of a callback: held, contained or wet. -/
def block (w : Heard W) (p : Processor) (c : DspCall) : Heard W :=
  let r := w.session.rendering.prewarmStep p c
  let t := w.state.prewarmed W w.session.rendering r.1
  if r.2 then { w with state := t.telemetry W c, firstWet := none }
  else if w.session.nonFinite then
    { w with
      state := (t.contained W p).telemetry W c
      window := some (.opened p)
      firstWet := none }
  else { w with state := t }.wet p c

end Heard

variable (E : Engine) (gate : GateCache)

/-- A step with the temporal state. -/
def heardStep (w : Heard W) (a : HeardAction) : Option (Heard W) :=
  (sessionStep E gate w.session a.action).map fun y =>
    match a with
    | .step (.activate _ _) kept =>
      match y.plugin.proc with
      | some p => ⟨y, w.state.activated W w.session.rendering p kept, none, none⟩
      | none => { w with session := y, firstWet := none }
    | .step .deactivate _ => { w with session := y, window := none, firstWet := none }
    | .step (.main _) _ => { w with session := y, firstWet := none }
    | .step (.audio a) _ =>
      match w.session.plugin.proc with
      | some p =>
        match a with
        | .reset => ⟨y, w.state.reset W p, some (.opened p), none⟩
        | a =>
          { w.installed w.session.plugin.shared.sampleRate (audioOps p a) with session := y }
      | none => { w with session := y }
    | .block c =>
      match w.session.plugin.proc with
      | some p => { w.block p c with session := y }
      | none => { w with session := y }

def Heard.init : Heard W := ⟨.init E gate, ⟨W.fresh, f0, f0⟩, none, none⟩

end

end NamPlug
