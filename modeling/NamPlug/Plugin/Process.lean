import NamPlug.Dsp.DryWet
import NamPlug.Plugin.Step

/-!
# The process callback

`process` (`processor/mod.rs`) on top of the steps of an instance: once the commands and the shared
parameters are taken over (`process_events`), the callback renders its block. While the
stabilization of a model is outstanding it feeds the model a budget of zeros and holds the block on
the delayed dry path (`process_dry_contained_block`); where the block before met a sample that is
not finite it clears the models and holds the block too; otherwise the block goes through the wet
pipeline (`process_dsp_audio`).

What the engine answers is part of the call: whether a budget completes the pass of a model, and
whether a block meets a sample that is not finite. A processor that a panic poisoned is left out.
-/

namespace NamPlug

open Binary32

/-- The fields of a processor that only its callback works on. `stabilizingL` and `stabilizingR` say
that the stabilization pass of the installed model is outstanding. -/
structure Rendering where
  xfade : BypassCrossfader
  gate : GateCache
  prewarmPending : Bool
  stabilizingL : Bool
  stabilizingR : Bool
  deriving DecidableEq, Repr

/-- The DSP part of a callback: what the host passes, and what the engine answers. `audio` is none
where the buffers of the port are refused. -/
structure DspCall where
  dsp : DspEngine
  audio : Option (List PortPair)
  input : List InputEvent
  convergesL : Bool
  convergesR : Bool
  nonFinite : Bool

/-- An instance with the rest of its processor. `dspDue` says that `process_events` is over and the
block of the callback is not rendered yet; `nonFinite` is `RT_STATUS_NON_FINITE_INPUT_DETECTED`,
and `restarts` counts the calls of `request_restart` from the audio thread. -/
structure Session where
  plugin : Plugin
  rendering : Rendering
  dspDue : Bool
  nonFinite : Bool
  restarts : Nat

/-! ## Stabilization -/

/-- The models a command brings arrive stabilized, and end the window. -/
def Rendering.installed (r : Rendering) (c : ClapParamPayload) : Rendering :=
  match c.model? with
  | some _ => { r with prewarmPending := false, stabilizingL := false, stabilizingR := false }
  | none => r

/-- `prewarm_reset` of the installed models; the window is armed for them. -/
def Rendering.prewarmReset (r : Rendering) (p : Processor) : Rendering :=
  { r with
    prewarmPending := r.prewarmPending || p.modelL.isSome || p.modelR.isSome
    stabilizingL := r.stabilizingL || p.modelL.isSome
    stabilizingR := r.stabilizingR || p.modelR.isSome }

def Rendering.installedAll (r : Rendering) (cs : List ClapParamPayload) : Rendering :=
  cs.foldl .installed r

/-- The amortization window of `process`; the flag says that the block is held. -/
def Rendering.prewarmStep (r : Rendering) (p : Processor) (c : DspCall) : Rendering × Bool :=
  if r.prewarmPending then
    if p.modelL.isSome then
      let r := { r with
        stabilizingL := r.stabilizingL && !c.convergesL
        stabilizingR := r.stabilizingR && !(p.modelR.isSome && c.convergesR) }
      if r.stabilizingL || (p.modelR.isSome && r.stabilizingR) then (r, true)
      else ({ r with prewarmPending := false }, false)
    else ({ r with prewarmPending := false }, false)
  else (r, false)

/-! ## The block -/

/-- The samples of the ports and the events, and one more: enough rounds for every loop of a block. -/
def blockFuel (audio : List PortPair) (input : List InputEvent) : Nat :=
  (audio.map (·.frames)).sum + input.length + 1

/-- What a block leaves: the shared state, the processor and its rendering, and whether a restart is
requested. -/
structure Rendered where
  shared : Shared
  proc : Processor
  rendering : Rendering
  restart : Bool

def Rendering.block (r : Rendering) (c : ParamCtx) : BlockState where
  ctx := c
  xfade := r.xfade
  gate := r.gate
  pending := []
  sorted := true
  timingAnomaly := false
  contractViolation := false
  requestRestart := false
  trace := []

def BlockState.rendered (b : BlockState) (s : Shared) (p : Processor) (r : Rendering) : Rendered :=
  let q := putParamCtx s p b.ctx
  ⟨q.1, q.2, { r with xfade := b.xfade, gate := b.gate }, b.requestRestart⟩

section
variable (E : Engine)

/-- The wet pipeline. Refused buffers end it before the first event. -/
def wetBlock (s : Shared) (p : Processor) (r : Rendering) (c : DspCall) : Option Rendered :=
  match c.audio with
  | none => some ((r.block (paramCtx s p)).rendered s p r)
  | some audio =>
    (processDspAudio E.toParamEngine c.dsp (blockFuel audio c.input) s.bufferSize audio c.input
      (r.block (paramCtx s p))).map (·.rendered s p r)

/-- `process_dry_contained_block`: every event is applied, and the crossfader is held. Refused
buffers end it before the restart is requested. -/
def dryContainedBlock (s : Shared) (p : Processor) (r : Rendering) (c : DspCall) : Rendered :=
  let b := r.block (paramCtx s p)
  let b := (applyWhile E.toParamEngine (fun _ => true) (scheduleInputEvents c.input).events b).1
  let b := b.refreshGate
  let restart := b.ctx.pendingRestart ≠ s.pendingRestartOs ∧ b.ctx.pendingRestart ≠ .none ∧
    c.audio.isSome
  { b with requestRestart := restart }.rendered s p r

/-- The part of `process` after `process_events`. -/
def processBlock (x : Session) (p : Processor) (c : DspCall) : Option Session :=
  let s := x.plugin.shared
  let w := x.rendering.prewarmStep p c
  let done (nonFinite : Bool) (r : Rendered) : Session :=
    ⟨⟨r.shared, some r.proc⟩, r.rendering, false, nonFinite, x.restarts + r.restart.toNat⟩
  if w.2 then some (done x.nonFinite (dryContainedBlock E s p w.1 c))
  else if x.nonFinite then
    -- the containment: the smoothers snap to their targets
    some (done false (dryContainedBlock E s p (w.1.prewarmReset p) c))
  else (wetBlock E s p w.1 c).map (done c.nonFinite)

/-! ## Steps of a session -/

/-- What a step of an instance does to the rendering of its processor. -/
def Rendering.after (r : Rendering) (gate : GateCache) (x y : Plugin) : Action → Rendering
  | .activate _ _ =>
    match y.proc with
    | some p => ⟨.new p.rt.params.bypass, gate, false, false, false⟩
    | none => r
  | .audio a =>
    match x.proc with
    | some p =>
      match a with
      | .beginEvents _ => r.installedAll p.recoveredCommands
      | .drain .installDeferred => r.installedAll p.deferred.toList
      | .drain .installCandidate => r.installedAll p.candidate.toList
      -- a rebuilt model arrives stabilized too, and leaves the window as it is
      | .slimmable .install => { r with stabilizingL := false }
      | .reset => { r.prewarmReset p with xfade := .new p.rt.params.bypass, gate }
      | _ => r
    | none => r
  | _ => r

/-- The calls of a session: the steps of an instance, and the block that ends a callback. -/
inductive SessionAction where
  | step (a : Action)
  | block (c : DspCall)

/-- The steps that wait for the block of a callback. -/
def Action.awaitsBlock : Action → Bool
  | .main _ => false
  | .audio (.signalSlimmableRebuild _) => false
  | _ => true

/-- A step; the events of a block belong to the block. -/
def sessionStep (gate : GateCache) (x : Session) : SessionAction → Option Session
  | .step (.audio (.hostEvents _)) => none
  | .step a =>
    if x.dspDue && a.awaitsBlock then none
    else
      (NamPlug.step E x.plugin a).map fun y =>
        { x with
          plugin := y
          rendering := x.rendering.after gate x.plugin y a
          dspDue := x.dspDue || (match a with | .audio .endEvents => true | _ => false) }
  | .block c =>
    match x.plugin.proc with
    | some p => if x.dspDue then processBlock E x p c else none
    | none => none

def Session.init (gate : GateCache) : Session :=
  ⟨.init E.toParamEngine, ⟨.new false, gate, false, false, false⟩, false, false, 0⟩

end

end NamPlug
