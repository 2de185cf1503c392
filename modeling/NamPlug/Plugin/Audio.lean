import NamPlug.Dsp.Orchestrator
import NamPlug.Plugin.State

/-!
# The audio thread

What the audio thread does between activation and deactivation: it installs the commands of the
ring (`processor/events.rs`, `command_scheduler.rs`), synchronizes its parameters and applies the
host's events.

The engine's drain (`RtSwapDrain`) is not part of the repository. A drain is taken apart into the
moves its handler and its tests document (`DrainMove`): light parameters are applied as they come,
a structural command becomes the candidate of the window, a candidate or a parked command is
superseded by a newer one of its kind, installed, or parked at the end. Which moves a callback
makes is left open, and the main thread may act between any two of them.
-/

namespace NamPlug

open Binary32

/-! ## Parameters of the processor -/

def paramCtx (s : Shared) (p : Processor) : ParamCtx :=
  ⟨p.rt, s.ui, s.bufferSize, s.pendingRestartOs, s.osRequest⟩

def putParamCtx (s : Shared) (p : Processor) (c : ParamCtx) : Shared × Processor :=
  ({ s with ui := c.ui, pendingRestartOs := c.pendingRestart, osRequest := c.osRequest },
    { p with rt := c.rt })

section
variable (E : Engine)

/-! ## Installing commands -/

/-- `recompute_effective_latency`: the dry delay follows. -/
def recomputeEffectiveLatency (p : Processor) : Processor :=
  let latency := E.streamLatency p.stream + E.osLatency p.osL + cabsimLatency p.cabsimPair
  { p with cachedEffectiveLatency := latency, dryDelay := p.dryDelay.setDelay latency }

/-- A model is installed: the adaptive controller takes the channels of a WaveNet for the full
count. -/
def SlimLevel.install (l : SlimLevel) (model : Option StaticModel) : SlimLevel :=
  if (model.bind (·.channels)).isSome then ⟨none, none⟩ else l

def coldLoadModel (s : Shared) (p : Processor) (m : LoadModelPayload) : Shared × Processor :=
  ({ s with currentStreamLatency := E.streamLatency m.newStream },
    recomputeEffectiveLatency E { p with
      modelGeneration := m.generation
      modelL := m.modelL
      modelR := m.modelR
      resampler := m.newResampler
      stream := m.newStream
      slim := { p.slim with level := p.slim.level.install m.modelL } })

/-- A pair built for another host rate is refused. -/
def CabSimPair.stale (s : Shared) : Option CabSimPair → Bool
  | some c => s.sampleRate ≠ 0 ∧ c.sampleRate ≠ s.sampleRate
  | none => false

def coldLoadCabsim (s : Shared) (p : Processor) (pair : Option CabSimPair) :
    Shared × Processor :=
  if CabSimPair.stale s pair then (s, p)
  else
    ({ s with currentCabsimLatency := cabsimLatency pair },
      recomputeEffectiveLatency E { p with cabsimPair := pair })

def coldLoadOs (s : Shared) (p : Processor) (osL osR : OversampleEngine) : Shared × Processor :=
  (s, recomputeEffectiveLatency E { p with appliedOsFactor := osL.factor, osL, osR })

/-- `apply_params_from_spsc` on the processor. -/
def applyParams (s : Shared) (p : Processor) (new : RtProcessingParams) : Shared × Processor :=
  putParamCtx s p (applyParamsFromSpsc E.toParamEngine (paramCtx s p) new)

def coldApplyRestoreTxn (s : Shared) (p : Processor) (txn : RestoreTxn) : Shared × Processor :=
  let r := match txn.model with
    | some m => coldLoadModel E s p m
    | none => (s, p)
  let r := match txn.ir with
    | some ir => coldLoadCabsim E r.1 r.2 ir
    | none => r
  let r := applyParams E r.1 r.2 txn.params
  ({ r.1 with lastAppliedGeneration := txn.generation }.note (.applied txn.generation), r.2)

/-- `apply_structural`. -/
def applyStructural (s : Shared) (p : Processor) : ClapParamPayload → Shared × Processor
  | .params new => applyParams E s p new
  | .loadModel m => coldLoadModel E s p m
  | .loadCabIr pair => coldLoadCabsim E s p pair
  | .setOversample osL osR => coldLoadOs E s p osL osR
  | .restoreTxn txn => coldApplyRestoreTxn E s p txn

/-- `install`: what it resolved is acknowledged at the end of the drain. -/
def install (s : Shared) (p : Processor) (c : ClapParamPayload) : Shared × Processor :=
  applyStructural E s { p with resolved := p.resolved + 1 } c

/-- `discard`. -/
def discard (p : Processor) : Processor := { p with resolved := p.resolved + 1 }

/-! ## The drain -/

/-- Whether a command supersedes an older one. -/
def ClapParamPayload.supersedes (newer older : ClapParamPayload) : Bool :=
  older.coalesceKey.isSome && newer.coalesceKey == older.coalesceKey

/-- The moves of a drain. -/
inductive DrainMove where
  /-- The parked command is installed. -/
  | installDeferred
  /-- The parked command is superseded by the head of the ring. -/
  | discardDeferred
  /-- Light parameters at the head of the ring are applied. -/
  | applyParams
  /-- A structural head becomes the candidate. -/
  | popCandidate
  /-- The candidate is superseded by the head of the ring. -/
  | supersede
  /-- The candidate is installed. -/
  | installCandidate
  deriving DecidableEq, Repr

def drainMove (s : Shared) (p : Processor) : DrainMove → Option (Shared × Processor)
  | .installDeferred =>
    match p.deferred with
    | some d =>
      if s.ring.head?.any (·.supersedes d) then none
      else some (install E s
        { p with deferred := none, processedSeq := p.processedSeq + 1 } d)
    | none => none
  | .discardDeferred =>
    match p.deferred with
    | some d =>
      if s.ring.head?.any (·.supersedes d) then
        some (s, discard { p with deferred := none, processedSeq := p.processedSeq + 1 })
      else none
    | none => none
  | .applyParams =>
    match p.deferred, s.ring with
    | none, .params q :: rest =>
      some (install E { s with ring := rest } { p with processedSeq := p.processedSeq + 1 }
        (.params q))
    | _, _ => none
  | .popCandidate =>
    match p.deferred, p.candidate, s.ring with
    | none, none, h :: rest =>
      if h.isStructural then
        some ({ s with ring := rest },
          { p with candidate := some h, processedSeq := p.processedSeq + 1 })
      else none
    | _, _, _ => none
  | .supersede =>
    match p.deferred, p.candidate, s.ring with
    | none, some c, h :: rest =>
      if h.supersedes c then
        some ({ s with ring := rest },
          discard { p with candidate := some h, processedSeq := p.processedSeq + 1 })
      else none
    | _, _, _ => none
  | .installCandidate =>
    match p.deferred, p.candidate with
    | none, some c => some (install E s { p with candidate := none } c)
    | _, _ => none

/-- The end of a drain: a candidate that was not installed is parked, and what was resolved is
acknowledged (`after_drain`). -/
def endDrain (s : Shared) (p : Processor) : Shared × Processor :=
  let p := match p.candidate with
    | some c =>
      { p with candidate := none, deferred := some c, processedSeq := p.processedSeq - 1 }
    | none => p
  ({ s with cmdLastAck := s.cmdLastAck + p.resolved }, { p with resolved := 0 })

/-! ## The callback -/

/-- `replay_recovered_commands`: they are installed with no acknowledgement. -/
def replayRecovered (s : Shared) (p : Processor) : Shared × Processor :=
  p.recoveredCommands.foldl (fun r c => applyStructural E r.1 r.2 c)
    (s, { p with recoveredCommands := [] })

/-- The start of `process_events`, up to the drain. -/
def beginEvents (s : Shared) (p : Processor) (room : Nat) : Shared × Processor :=
  let s := { s with ui := (writeGuiEvents s.ui room).ui }
  replayRecovered E s { p with inCallback := true }

/-- The synchronization with the shared atomics where the generation counter moved. -/
def syncGeneration (s : Shared) (p : Processor) : Shared × Processor :=
  if s.ui.guiParamGeneration = p.lastSeenGeneration then (s, p)
  else
    let r := putParamCtx s p (syncParamsFromGui E.toParamEngine (paramCtx s p))
    (r.1, { r.2 with lastSeenGeneration := s.ui.guiParamGeneration })

def RtParamState.setMode (r : RtParamState) (m : AdaptiveComputeMode) : RtParamState :=
  { r with adaptive := { r.adaptive with mode := m } }

def RtParamState.setActivation (r : RtParamState) (a : ActivationPrecision) : RtParamState :=
  { r with params := { r.params with activationPrecision := a }, activationTls := a }

/-- The render mode section of `process_events`. -/
def followRenderMode (s : Shared) (p : Processor) : Processor :=
  let p :=
    if s.renderMode = p.lastRenderMode then p
    else match s.renderMode with
      | .offline =>
        { p with
          lastRenderMode := .offline
          realtimeActivation := p.rt.params.activationPrecision
          rt := (p.rt.setMode .off).setActivation .standard }
      | .realtime =>
        let userMode := E.adaptiveOfF32 (ofNat s.ui.paramAdaptiveCompute.toNat)
        { p with
          lastRenderMode := .realtime
          rt := (p.rt.setMode userMode).setActivation p.realtimeActivation }
  if s.renderMode = .offline ∧ p.rt.adaptive.mode ≠ .off then
    { p with rt := p.rt.setMode .off }
  else p

/-- The rest of `process_events`, from the end of the drain on. -/
def endEvents (s : Shared) (p : Processor) : Shared × Processor :=
  let r := endDrain s p
  let r := syncGeneration E r.1 r.2
  ({ r.1 with currentLatency := r.2.cachedEffectiveLatency },
    { followRenderMode E r.1 r.2 with inCallback := false })

/-! ## Host events -/

/-- The raw value an event for a parameter stands for. -/
def eventRaw (p : ParamId) (v : F32) : BitVec 32 :=
  let val := sanitizeParamValue E.toParamEngine p v
  match p with
  | .inputGain => val
  | .outputGain => val
  | .gateThresh => val
  | .bypass => bypassBoolToU32 (bypassF32ToBool val)
  | .activeModel => 0
  | .adaptiveCompute => BitVec.ofNat 32 (E.adaptiveOfF32 val).code
  | .slimOverride => BitVec.ofNat 32 (E.slimOfF32 val).code
  | .oversample => BitVec.ofNat 32 (E.oversampleOfF32 val).code
  | .activation => BitVec.ofNat 32 (E.activationOfF32 val).code

/-- An event that sets a parameter is an intent. -/
def Shared.noteEvent (s : Shared) (id : Nat) (v : F32) : Shared :=
  match ParamId.ofCode id with
  | some .activeModel => s
  | some p => s.note (.param p (eventRaw E p v))
  | none => s

/-- One host event of a block. -/
def hostEvent (s : Shared) (p : Processor) (e : ScheduledEvent) : Shared × Processor :=
  let r := putParamCtx s p (applyEvent E.toParamEngine (paramCtx s p) e true).1
  (if e.isMod then r.1 else r.1.noteEvent E e.paramId e.value, r.2)

/-- The host events of a block. -/
def hostEvents (s : Shared) (p : Processor) (es : List ScheduledEvent) : Shared × Processor :=
  es.foldl (fun r e => hostEvent E r.1 r.2 e) (s, p)

/-- One event of the audio-thread flush; the flag says whether it counts as a change. -/
def flushInnerEvent (s : Shared) (p : Processor) (e : ScheduledEvent) :
    (Shared × Processor) × Bool :=
  let c := paramCtx s p
  match ParamId.ofCode e.paramId, e.isMod with
  | some .activeModel, _ => ((s, p), false)
  | some q, false =>
    let r := putParamCtx s p (setParam E.toParamEngine c q e.value)
    ((r.1.noteEvent E e.paramId e.value, r.2), true)
  | some q, true =>
    (putParamCtx s p (applyModEvent E.toParamEngine c q e.value true).1,
      q == .inputGain || q == .outputGain || q == .gateThresh)
  | none, _ => ((s, p), false)

/-- `flush_inner`. -/
def flushInner (s : Shared) (p : Processor) (room : Nat) (es : List ScheduledEvent) :
    Shared × Processor :=
  let s := { s with ui := (writeGuiEvents s.ui room).ui }
  let r := es.foldl (fun r e =>
    let q := flushInnerEvent E r.1.1 r.1.2 e
    (q.1, r.2 || q.2)) ((s, p), false)
  let s := if r.2 then r.1.1.bumpGeneration else r.1.1
  syncGeneration E s r.1.2

/-! ## Reset -/

/-- `reset`: the modulation is taken off and the adaptive controller is back at the full count, which
it has yet to ask for if it asked for another one. The model, as it is cut, and every other resource
stay. -/
def resetProcessor (p : Processor) : Processor :=
  { p with
    rt := { p.rt with
      modInputGain := f0
      modOutputGain := f0
      modGateThresh := f0
      gateDirty := true }
    slim := { p.slim with level := { p.slim.level with believed := none } } }

/-! ## Deactivation -/

/-- `deactivate`: a parked command is dropped with its sequence slot acknowledged, a parked
rebuild is dropped. -/
def deactivate (s : Shared) (p : Processor) : Shared :=
  let s := match p.deferred with
    | some _ => { s with cmdLastAck := p.processedSeq + 1 }
    | none => s
  { s with
    paramRx := true
    gcTx := true
    slimmableRx := true
    deactivatedDsp := some {
      modelL := p.modelL
      modelR := p.modelR
      modelGeneration := p.modelGeneration
      cabsimPair := p.cabsimPair
      resampler := p.resampler
      stream := p.stream
      osL := p.osL
      osR := p.osR
      osFactor := p.appliedOsFactor
      sampleRate := s.sampleRate
      bufferSize := s.bufferSize } }

end

end NamPlug
