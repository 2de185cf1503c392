import NamPlug.Params.Audio

/-!
# One audio block

The event scheduling of a process callback (`processor/dsp/orchestrator.rs`): the host events are
put in a list (`scheduleInputEvents`), a block longer than `max_frames` is cut into slices, and
every slice into sub-blocks at the events that need an exact boundary (`wetIteration`), gain events
being fused into the sub-block they fall in. `processDspAudio` is the callback from the point
after the non-finite containment check.

The audio itself is left out: what the sub-block processing does with the samples is not
observed, only how many it returns. The engine's part in that is `DspEngine`; what it answers may
depend on the position in the block, as any state it keeps changes along it. A block records what
happens in a `trace`: the applied events, the sub-blocks with the parameters they are processed with
and the events and gain steps fused into them, and the output ranges written.
-/

namespace NamPlug

open Binary32

def MAX_SCHEDULED_EVENTS : Nat := 4096

def MIN_SPLIT_SAMPLES : Nat := 16

def MAX_GAIN_STEPS : Nat := 64

def BYPASS_XFADE_SAMPLES : Nat := 64

/-- 1 / 64 -/
def BYPASS_XFADE_INV : F32 := 0x3C800000#32

/-- -1.0 / 64 -/
def BYPASS_XFADE_NEG_INV : F32 := negate BYPASS_XFADE_INV

structure ScheduledEvent where
  time : Nat
  paramId : Nat
  value : F32
  isMod : Bool
  deriving DecidableEq, Repr

/-- An event in the host's input list. -/
inductive InputEvent where
  | value (time : Nat) (id : Option Nat) (value : Datum)
  | mod (time : Nat) (id : Option Nat) (amount : Datum)
  | other (time : Nat)
  deriving DecidableEq, Repr

structure GainStep where
  offset : Nat
  target : F32
  isInput : Bool
  deriving DecidableEq, Repr

/-- Parameters whose events need no exact sub-block boundary. -/
def isFusableGainParam (id : Nat) : Bool :=
  id == ParamId.inputGain.code || id == ParamId.outputGain.code

def eventRequiresBoundary (id : Nat) : Bool := !isFusableGainParam id

/-! ## Scheduling -/

/-- The scheduled list under construction. -/
structure Schedule where
  events : List ScheduledEvent
  sorted : Bool
  lastTime : Nat
  truncated : Bool
  deriving DecidableEq, Repr

def Schedule.push (s : Schedule) (e : ScheduledEvent) : Schedule :=
  { s with
    events := s.events ++ [e]
    sorted := s.sorted && decide (s.lastTime ≤ e.time)
    lastTime := e.time }

/-- The loop of `schedule_input_events`; a full list ends it. -/
def scheduleLoop : Schedule → List InputEvent → Schedule
  | s, [] => s
  | s, ev :: evs =>
    if MAX_SCHEDULED_EVENTS ≤ s.events.length then { s with truncated := true }
    else
      match ev with
      | .value t (some id) v => scheduleLoop (s.push ⟨t, id, narrow v, false⟩) evs
      | .mod t (some id) v => scheduleLoop (s.push ⟨t, id, narrow v, true⟩) evs
      | _ => scheduleLoop s evs

def scheduleInputEvents (input : List InputEvent) : Schedule :=
  scheduleLoop ⟨[], true, 0, false⟩ input

/-! ## The bypass crossfader -/

structure BypassCrossfader where
  target : Bool
  active : Bool
  mix : F32
  step : F32
  remaining : Nat
  deriving DecidableEq, Repr

def BypassCrossfader.trigger (x : BypassCrossfader) (target : Bool) : BypassCrossfader :=
  if x.target = target then x
  else { x with
    target
    active := true
    remaining := BYPASS_XFADE_SAMPLES
    step := if target then BYPASS_XFADE_NEG_INV else BYPASS_XFADE_INV }

/-- `mix += step`, `n` times. -/
def rampMix (mix step : F32) : Nat → F32
  | 0 => mix
  | n + 1 => rampMix (add mix step) step n

/-- The end of `process_crossfade_sub_block`, after `nOut` wet samples. -/
def BypassCrossfader.advance (x : BypassCrossfader) (nOut : Nat) : BypassCrossfader :=
  let nXfade := min nOut x.remaining
  let remaining := x.remaining - nXfade
  if remaining = 0 then
    { x with active := false, mix := if x.target then f0 else f1, remaining }
  else { x with mix := clamp (rampMix x.mix x.step nXfade) f0 f1, remaining }

/-! ## State of a block -/

/-- What the engine answers to a sub-block at a position of the block and of a length: whether the
noise gate is closed, and how many samples streaming inference returns. -/
structure DspEngine where
  maxResampBuf : Nat
  gateClosed : Nat → Nat → Bool
  streaming : Nat → Nat → Nat
  maxResampBuf_pos : 0 < maxResampBuf

inductive Obs where
  | apply (e : ScheduledEvent)
  | sub (start n : Nat) (ctx : ParamCtx) (fused : List ScheduledEvent) (steps : List GainStep)
      (writes : List (Nat × Nat))
  deriving DecidableEq, Repr

/-- The gate thresholds in force (dB). -/
structure GateCache where
  thresholdOpenDb : F32
  thresholdCloseDb : F32
  deriving DecidableEq, Repr

/-- A block in progress. `pending` are the scheduled events from `event_idx` on. -/
structure BlockState where
  ctx : ParamCtx
  xfade : BypassCrossfader
  gate : GateCache
  pending : List ScheduledEvent
  sorted : Bool
  timingAnomaly : Bool
  contractViolation : Bool
  requestRestart : Bool
  trace : List Obs
  deriving DecidableEq, Repr

/-- 6.0 -/
def f6 : F32 := 0x40C00000#32

/-- Recompute the gate thresholds if an event changed them. -/
def BlockState.refreshGate (b : BlockState) : BlockState :=
  if b.ctx.rt.gateDirty then
    let openDb := add b.ctx.rt.params.gateThresholdDb b.ctx.rt.modGateThresh
    { b with
      gate := ⟨openDb, sub openDb f6⟩
      ctx := { b.ctx with rt := { b.ctx.rt with gateDirty := false } } }
  else b

def BlockState.triggerBypass (b : BlockState) : BlockState :=
  { b with xfade := b.xfade.trigger b.ctx.rt.params.bypass }

section
variable (E : ParamEngine) (D : DspEngine)

/-- `apply_scheduled_event` for a raw parameter id. -/
def applyEvent (c : ParamCtx) (e : ScheduledEvent) (applySmoother : Bool) :
    ParamCtx × Option GainTarget :=
  match ParamId.ofCode e.paramId with
  | some p => applyScheduledEvent E c p e.value e.isMod applySmoother
  | none => (c, none)

def BlockState.applyNow (b : BlockState) (e : ScheduledEvent) : BlockState :=
  { b with ctx := (applyEvent E b.ctx e true).1, trace := b.trace ++ [.apply e] }

/-- Apply the pending events as long as they meet `cond`; the loops for late, boundary and
remaining events. The result says whether one was applied. -/
def applyWhile (cond : ScheduledEvent → Bool) :
    List ScheduledEvent → BlockState → BlockState × Bool
  | [], b => ({ b with pending := [] }, false)
  | e :: es, b =>
    if cond e then ((applyWhile cond es (b.applyNow E e)).1, true)
    else ({ b with pending := e :: es }, false)

/-- The loops for late and remaining events flag a timing anomaly for each event, then refresh
the gate and the crossfader if there was one. -/
def BlockState.applyAnomalous (b : BlockState) (cond : ScheduledEvent → Bool) : BlockState :=
  match applyWhile E cond b.pending b with
  | (b, true) => { b with timingAnomaly := true }.refreshGate.triggerBypass
  | (b, false) => b

/-! ## Sub-blocks -/

/-- The end of the next sub-block, relative to the slice. -/
def scanEnd (fuse : Bool) (cur base n : Nat) : List ScheduledEvent → Nat → Nat
  | [], _ => n
  | e :: es, gains =>
    if e.time < cur then scanEnd fuse cur base n es gains
    else if base + n ≤ e.time then n
    else if !fuse || eventRequiresBoundary e.paramId then e.time - base
    else if MAX_GAIN_STEPS < gains + 1 then e.time - base
    else scanEnd fuse cur base n es (gains + 1)

/-- Gain events staged for one sub-block. -/
structure Staged where
  ctx : ParamCtx
  pending : List ScheduledEvent
  fused : List ScheduledEvent
  steps : List GainStep

/-- The staging loop: the gain events before `stop` are applied without moving the smoother and
their targets recorded as steps. -/
def stageLoop (cur stop : Nat) : List ScheduledEvent → Staged → Staged
  | [], s => { s with pending := [] }
  | e :: es, s =>
    if stop ≤ e.time || eventRequiresBoundary e.paramId then { s with pending := e :: es }
    else
      let r := applyEvent E s.ctx e false
      let steps :=
        match r.2 with
        | some gt =>
          if s.steps.length < MAX_GAIN_STEPS then
            s.steps ++ [⟨e.time - cur, gt.target, gt.isInput⟩]
          else s.steps
        | none => s.steps
      stageLoop cur stop es { s with ctx := r.1, fused := s.fused ++ [e], steps }

/-- The smoother target after `apply_gain_ramp_with_steps`. -/
def rampTarget (target : F32) (steps : List GainStep) (wantInput : Bool) : F32 :=
  steps.foldl (fun t s => if s.isInput = wantInput then s.target else t) target

/-- The part of a block the sub-block processing works on. -/
structure SubState where
  xfade : BypassCrossfader
  smootherIn : F32
  smootherOut : F32
  deriving DecidableEq, Repr

/-- `process_sub_block` up to `MAX_RESAMP_BUF` samples: the number of samples returned. -/
def processChunk (pos n : Nat) (bypass : Bool) (steps : List GainStep) (s : SubState) :
    Nat × SubState :=
  if s.xfade.active then
    let nOut := if D.gateClosed pos n then n else D.streaming pos n
    (nOut, { s with xfade := s.xfade.advance nOut })
  else if bypass then (n, s)
  else
    let s := { s with
      smootherIn := rampTarget s.smootherIn steps true
      smootherOut := rampTarget s.smootherOut steps false }
    (if D.gateClosed pos n then n else D.streaming pos n, s)

/-- `process_sub_block_chunked`: the chunks are processed without gain steps. -/
def processChunks (bypass : Bool) : Nat → Nat → Nat → Nat → SubState → List (Nat × Nat) × SubState
  | 0, _, _, _, s => ([], s)
  | fuel + 1, pos, outPos, remaining, s =>
    if remaining = 0 then ([], s)
    else
      let chunk := min remaining D.maxResampBuf
      let r := processChunk D pos chunk bypass [] s
      let rest := processChunks bypass fuel (pos + chunk) (outPos + r.1) (remaining - chunk) r.2
      ((outPos, r.1) :: rest.1, rest.2)

/-- `process_sub_block`: the output ranges written. -/
def processSubBlock (pos n outPos : Nat) (bypass : Bool) (steps : List GainStep) (s : SubState) :
    List (Nat × Nat) × SubState :=
  if D.maxResampBuf < n then processChunks D bypass n pos outPos n s
  else
    let r := processChunk D pos n bypass steps s
    ([(outPos, r.1)], r.2)

/-- The samples returned in all. -/
def written (ws : List (Nat × Nat)) : Nat := (ws.map (·.2)).sum

/-- A sub-block of `n > 0` samples at `start`, with the output from `outPos` on. -/
def BlockState.process (b : BlockState) (start n outPos : Nat) (fused : List ScheduledEvent)
    (steps : List GainStep) : BlockState × Nat :=
  let r := processSubBlock D start n outPos b.ctx.rt.params.bypass steps
    ⟨b.xfade, b.ctx.rt.smootherIn, b.ctx.rt.smootherOut⟩
  ({ b with
      xfade := r.2.xfade
      ctx := { b.ctx with rt := { b.ctx.rt with
        smootherIn := r.2.smootherIn, smootherOut := r.2.smootherOut } }
      trace := b.trace ++ [.sub start n b.ctx fused steps r.1] },
    written r.1)

/-- Whether gain events may be fused into the next sub-block of a slice of `n` samples. -/
def BlockState.fuses (b : BlockState) (n : Nat) : Bool :=
  decide (1 < MIN_SPLIT_SAMPLES) && b.sorted && decide (n ≤ D.maxResampBuf) && !b.xfade.active &&
    !b.ctx.rt.params.bypass

/-- The part of an iteration that ends with the sub-block `[off, subEnd)` processed. -/
def BlockState.advanceTo (b : BlockState) (base off subEnd out : Nat) (fuse : Bool) :
    BlockState × Nat :=
  if subEnd - off = 0 then (b, out)
  else if fuse then
    let s := stageLoop E (base + off) (base + subEnd) b.pending ⟨b.ctx, [], [], []⟩
    let r := { b with ctx := s.ctx, pending := s.pending }.process D (base + off) (subEnd - off)
      (base + out) s.fused s.steps
    (r.1, out + r.2)
  else
    let r := b.process D (base + off) (subEnd - off) (base + out) [] []
    (r.1, out + r.2)

/-- One round of the loop of `process_wet_sub_blocks` on a slice of `n` samples at `base`, from the
block offset `off` and the output offset `out`. -/
def wetIteration (base n : Nat) (b : BlockState) (off out : Nat) : BlockState × Nat × Nat :=
  let b := b.applyAnomalous E (fun e => decide (e.time < base + off))
  let fuse := b.fuses D n
  let subEnd := scanEnd fuse (base + off) base n b.pending 0
  let r := b.advanceTo E D base off subEnd out fuse
  let b := r.1
  let b := (applyWhile E (fun e => decide (e.time = base + subEnd ∧ subEnd < n)) b.pending b).1
  (b.refreshGate.triggerBypass, subEnd, r.2)

def wetLoop (base n : Nat) : Nat → BlockState → Nat → Nat → Option BlockState
  | 0, _, _, _ => none
  | fuel + 1, b, off, out =>
    if off < n then
      let r := wetIteration E D base n b off out
      wetLoop base n fuel r.1 r.2.1 r.2.2
    else some b

/-- `process_wet_sub_blocks`. -/
def processWetSubBlocks (fuel base n : Nat) (isLastSlice : Bool) (b : BlockState) :
    Option BlockState :=
  (wetLoop E D base n fuel b 0 0).map fun b =>
    if isLastSlice then b.applyAnomalous E (fun _ => true) else b

/-! ## The callback -/

/-- The loop over the slices of a block longer than `max_frames`. -/
def sliceLoop (maxFrames total : Nat) : Nat → Nat → BlockState → Option BlockState
  | 0, _, _ => none
  | fuel + 1, start, b =>
    if start < total then
      let len := min (total - start) maxFrames
      (processWetSubBlocks E D (fuel + 1) start len (decide (total ≤ start + len)) b).bind
        (sliceLoop maxFrames total fuel (start + len))
    else some b

/-- A pair of an input and an output port: its frames, and whether its channels are `f32`. -/
structure PortPair where
  frames : Nat
  isF32 : Bool
  deriving DecidableEq, Repr

def processPortPair (fuel maxFrames : Nat) (b : BlockState) (p : PortPair) : Option BlockState :=
  if maxFrames < p.frames then
    let b := { b with contractViolation := true }
    if !p.isF32 then some b
    else sliceLoop E D maxFrames p.frames fuel 0 b.refreshGate.triggerBypass
  else if p.frames = 0 then some b
  else if !p.isF32 then some b
  else processWetSubBlocks E D fuel 0 p.frames true b.refreshGate.triggerBypass

def processPortPairs (fuel maxFrames : Nat) : List PortPair → BlockState → Option BlockState
  | [], b => some b
  | p :: ps, b => (processPortPair E D fuel maxFrames b p).bind (processPortPairs fuel maxFrames ps)

/-- `process_dsp_audio` from the scheduling of the events on. -/
def processDspAudio (fuel maxFrames : Nat) (audio : List PortPair) (input : List InputEvent)
    (b : BlockState) : Option BlockState :=
  let pendingBefore := b.ctx.pendingRestart
  let s := scheduleInputEvents input
  (processPortPairs E D fuel maxFrames audio
      { b with pending := s.events, sorted := s.sorted, trace := [] }).map fun b =>
    let b := b.applyAnomalous E (fun _ => true)
    if b.ctx.pendingRestart ≠ pendingBefore ∧ b.ctx.pendingRestart ≠ .none then
      { b with requestRestart := true }
    else b

end

end NamPlug
