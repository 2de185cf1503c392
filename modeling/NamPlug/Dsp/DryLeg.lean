import NamPlug.Dsp.DryDelay
import NamPlug.Dsp.Orchestrator

/-!
# The dry legs

The two ways a block reaches the host as delayed dry signal: the containment leg of a model that is
still converging (`processDryContainedBlock`) and the bypass leg of `processDspAudio`
(`processor/dsp/orchestrator.rs`, `orchestrator/audio_loop.rs`, `channels.rs`), without parameter
events. Each keeps its own slicing, channel extraction, port gating and mono selection. Of a
sub-block that is not bypassed only the call is kept (`Pipeline`); meters, flags and telemetry are
left out.
-/

namespace NamPlug.DryLeg

variable {α : Type}

/-! ## Ports -/

/-- One channel of a port pair. -/
inductive ChannelPair (α : Type) where
  | inputOutput (i o : List α)
  | inPlace (io : List α)
  | inputOnly (i : List α)
  | outputOnly (o : List α)
  deriving DecidableEq, Repr

def ChannelPair.input : ChannelPair α → Option (List α)
  | .inputOutput i _ => some i
  | .inPlace io => some io
  | .inputOnly i => some i
  | .outputOnly _ => none

def ChannelPair.output : ChannelPair α → Option (List α)
  | .inputOutput _ o => some o
  | .inPlace io => some io
  | .inputOnly _ => none
  | .outputOnly o => some o

/-- The pair once its output holds `o`. -/
def ChannelPair.setOutput (o : List α) : ChannelPair α → ChannelPair α
  | .inputOutput i _ => .inputOutput i o
  | .inPlace _ => .inPlace o
  | .inputOnly i => .inputOnly i
  | .outputOnly _ => .outputOnly o

/-- What `channels()?.into_f32()` gives, with the first two pairs of channels. -/
inductive Channels (α : Type) where
  | error
  | notF32
  | f32 (pairL pairR : Option (ChannelPair α))
  deriving DecidableEq, Repr

structure PortPair (α : Type) where
  frames : Nat
  channels : Channels α
  deriving DecidableEq, Repr

/-- Whether channel R carries an input. -/
def hasRInput (pairR : Option (ChannelPair α)) : Bool := (pairR.bind ChannelPair.input).isSome

/-! ## State -/

/-- What does not change while a processor is active: the feature `dual-mono`, the engine's block
limit and sample sanitizing, the block size of the activation. -/
structure LegConfig (α : Type) where
  dualMono : Bool
  maxResampBuf : Nat
  maxFrames : Nat
  zero : α
  sanitize : α → α
  maxResampBuf_pos : 0 < maxResampBuf
  maxFrames_pos : 0 < maxFrames

structure LegState (α : Type) where
  dryDelay : DryRings α
  bufHostL : List α
  bufHostR : List α
  bufXfadeDryL : List α
  bufXfadeDryR : List α
  processMono : Bool
  bypass : Bool
  xfade : BypassCrossfader
  nonFiniteInput : Bool
  portInputActive : Bool
  portOutputActive : Bool
  hostRDeactivated : Bool
  deriving DecidableEq, Repr

/-- The output slices of a sub-block, where the port has them. -/
structure Outs (α : Type) where
  outL : Option (List α)
  outR : Option (List α)
  deriving DecidableEq, Repr

/-- A call of the crossfade or of the wet pipeline: from the input and output offsets, the length,
the mono flag and the outputs to the number of samples returned. -/
abbrev Pipeline (α : Type) :=
  Nat → Nat → Nat → Bool → Outs α → LegState α → Nat × Outs α × LegState α

/-- The first samples of a buffer, overwritten. -/
def overwrite (buf xs : List α) : List α := xs ++ buf.drop xs.length

/-- A buffer with `xs` from `start` on. -/
def writeAt (o : List α) (start : Nat) (xs : List α) : List α :=
  o.take start ++ xs ++ o.drop (start + xs.length)

section
variable (cfg : LegConfig α)

/-! ## Channels -/

/-- `copy_channel_input` -/
def copyChannelInput (pair : Option (ChannelPair α)) (sliceStart sliceLen : Nat) : List α :=
  match pair.bind ChannelPair.input with
  | some i =>
    let avail := min (i.length - sliceStart) sliceLen
    (i.drop sliceStart).take avail ++ List.replicate (sliceLen - avail) cfg.zero
  | none => List.replicate sliceLen cfg.zero

/-- `get_channel_output` -/
def getChannelOutput (pair : Option (ChannelPair α)) (sliceStart sliceLen : Nat) :
    Option (List α) :=
  match pair.bind ChannelPair.output with
  | some o =>
    let stop := min (sliceStart + sliceLen) o.length
    if sliceStart < stop then some ((o.take stop).drop sliceStart) else none
  | none => none

/-- The pair once a slice of its output was written. -/
def putChannelOutput (pair : Option (ChannelPair α)) (sliceStart : Nat)
    (slice : Option (List α)) : Option (ChannelPair α) :=
  match slice with
  | some xs => pair.map fun c => c.setOutput (writeAt (c.output.getD []) sliceStart xs)
  | none => pair

/-- `extract_channels`: the host buffers and the mono flag, with the outputs. -/
def extractChannels (pairL pairR : Option (ChannelPair α)) (n : Nat) (st : LegState α) :
    LegState α × Outs α :=
  ({ st with
      processMono := if cfg.dualMono then !hasRInput pairR else true
      bufHostL := overwrite st.bufHostL (match pairL.bind ChannelPair.input with
        | some i => i.take n
        | none => List.replicate n cfg.zero)
      bufHostR := match pairR.bind ChannelPair.input with
        | some i => overwrite st.bufHostR (i.take n)
        | none => st.bufHostR },
    ⟨pairL.bind ChannelPair.output, pairR.bind ChannelPair.output⟩)

/-! ## Dry output -/

/-- `sanitize_copy_peak` into an output slice from an offset on. -/
def sanitizeInto (src : List α) (outputOffset : Nat) (o : List α) : List α :=
  writeAt o outputOffset ((src.take (o.length - outputOffset)).map cfg.sanitize)

/-- `copy_delayed_dry_to_output` -/
def copyDelayedDryToOutput (outs : Outs α) (dryL dryR : List α) (outputOffset : Nat)
    (processMono : Bool) : Outs α where
  outL := outs.outL.map (sanitizeInto cfg dryL outputOffset)
  outR := outs.outR.map (sanitizeInto cfg (if processMono then dryL else dryR) outputOffset)

/-- `dry_delay.process_block` on slices of the host buffers, into the crossfade buffers. -/
def LegState.feedDry (st : LegState α) (offset n : Nat) (processMono : Bool) : LegState α :=
  let r := st.dryDelay.processBlock
    { inL := (st.bufHostL.drop offset).take n
      inR := (st.bufHostR.drop offset).take n
      outL := st.bufXfadeDryL.take n
      outR := st.bufXfadeDryR.take n
      n
      processMono }
  { st with
    dryDelay := r.2
    bufXfadeDryL := overwrite st.bufXfadeDryL r.1.1
    bufXfadeDryR := overwrite st.bufXfadeDryR r.1.2 }

/-- An inactive input port is silent. -/
def LegState.gateInput (st : LegState α) (n : Nat) : LegState α :=
  if st.portInputActive then st
  else { st with
    bufHostL := overwrite st.bufHostL (List.replicate n cfg.zero)
    bufHostR := overwrite st.bufHostR (List.replicate n cfg.zero) }

/-! ## The bypass leg -/

section
variable (wet : Pipeline α)

/-- `process_sub_block`, up to `MAX_RESAMP_BUF` samples. -/
def processChunk (offset n : Nat) (outs : Outs α) (outputOffset : Nat) (bypass processMono : Bool)
    (st : LegState α) : Nat × Outs α × LegState α :=
  let st := st.feedDry offset n processMono
  if st.xfade.active then wet offset n outputOffset processMono outs st
  else if bypass then
    (n, copyDelayedDryToOutput cfg outs (st.bufXfadeDryL.take n) (st.bufXfadeDryR.take n)
      outputOffset processMono, st)
  else wet offset n outputOffset processMono outs st

/-- `process_sub_block_chunked` -/
def processSubBlockChunked (bypass processMono : Bool) : Nat → Nat → Nat → Nat → Outs α →
    LegState α → Nat × Outs α × LegState α
  | 0, _, _, _, outs, st => (0, outs, st)
  | fuel + 1, currOffset, currOutOffset, remaining, outs, st =>
    if 0 < remaining then
      let chunk := min remaining cfg.maxResampBuf
      let r := processChunk cfg wet currOffset chunk outs currOutOffset bypass processMono st
      let rest := processSubBlockChunked bypass processMono fuel (currOffset + chunk)
        (currOutOffset + r.1) (remaining - chunk) r.2.1 r.2.2
      (r.1 + rest.1, rest.2)
    else (0, outs, st)

/-- `process_sub_block` -/
def processSubBlock (offset n : Nat) (outs : Outs α) (outputOffset : Nat)
    (bypass processMono : Bool) (st : LegState α) : Nat × Outs α × LegState α :=
  if cfg.maxResampBuf < n then
    processSubBlockChunked cfg wet bypass processMono n offset outputOffset n outs st
  else processChunk cfg wet offset n outs outputOffset bypass processMono st

/-- `process_wet_sub_blocks`: without events the slice is one sub-block. -/
def processWetSubBlocks (n : Nat) (outs : Outs α) (st : LegState α) : Outs α × LegState α :=
  if 0 < n then
    let r := processSubBlock cfg wet 0 n outs 0 st.bypass st.processMono st
    (r.2.1, { r.2.2 with xfade := r.2.2.xfade.trigger r.2.2.bypass })
  else (outs, st)

/-- The slice loop of `process_dsp_audio`. -/
def wetSlices (total : Nat) : Nat → Nat → Option (ChannelPair α) → Option (ChannelPair α) →
    LegState α → (Option (ChannelPair α) × Option (ChannelPair α)) × LegState α
  | 0, _, pairL, pairR, st => ((pairL, pairR), st)
  | fuel + 1, sliceStart, pairL, pairR, st =>
    if sliceStart < total then
      let sliceLen := min (total - sliceStart) cfg.maxFrames
      let st := { st with
        bufHostL := overwrite st.bufHostL (copyChannelInput cfg pairL sliceStart sliceLen) }
      let st := if st.processMono then st
        else { st with
          bufHostR := overwrite st.bufHostR (copyChannelInput cfg pairR sliceStart sliceLen) }
      let st := st.gateInput cfg sliceLen
      let outs : Outs α := if st.portOutputActive then
          ⟨getChannelOutput pairL sliceStart sliceLen, getChannelOutput pairR sliceStart sliceLen⟩
        else ⟨none, none⟩
      let r := processWetSubBlocks cfg wet sliceLen outs st
      wetSlices total fuel (sliceStart + sliceLen) (putChannelOutput pairL sliceStart r.1.outL)
        (putChannelOutput pairR sliceStart r.1.outR) r.2
    else ((pairL, pairR), st)

/-- A port pair in the loop of `process_dsp_audio`; none where its channels cannot be read. -/
def processPortPair (port : PortPair α) (st : LegState α) : Option (PortPair α × LegState α) :=
  if cfg.maxFrames < port.frames then
    match port.channels with
    | .error => none
    | .notF32 => some (port, st)
    | .f32 pairL pairR =>
      let st := { st with processMono := if cfg.dualMono then !hasRInput pairR else true }
      let st := if st.hostRDeactivated then { st with processMono := true } else st
      let st := { st with xfade := st.xfade.trigger st.bypass }
      let r := wetSlices cfg wet port.frames port.frames 0 pairL pairR st
      some ({ port with channels := .f32 r.1.1 r.1.2 }, r.2)
  else if port.frames = 0 then some (port, st)
  else
    match port.channels with
    | .error => none
    | .notF32 => some (port, st)
    | .f32 pairL pairR =>
      let e := extractChannels cfg pairL pairR port.frames st
      let st := if e.1.hostRDeactivated then { e.1 with processMono := true } else e.1
      let st := st.gateInput cfg port.frames
      let outs := if st.portOutputActive then e.2 else ⟨none, none⟩
      let st := { st with xfade := st.xfade.trigger st.bypass }
      let r := processWetSubBlocks cfg wet port.frames outs st
      let channels := .f32 (putChannelOutput pairL 0 r.1.outL) (putChannelOutput pairR 0 r.1.outR)
      some ({ port with channels }, r.2)

end

/-! ## The containment leg -/

/-- The slice loop of `process_dry_contained_block`. -/
def containedSlices (total : Nat) : Nat → Nat → Option (ChannelPair α) →
    Option (ChannelPair α) → LegState α →
    (Option (ChannelPair α) × Option (ChannelPair α)) × LegState α
  | 0, _, pairL, pairR, st => ((pairL, pairR), st)
  | fuel + 1, sliceStart, pairL, pairR, st =>
    if sliceStart < total then
      let sliceLen := min (total - sliceStart) cfg.maxFrames
      let st := { st with
        bufHostL := overwrite st.bufHostL (copyChannelInput cfg pairL sliceStart sliceLen) }
      let st := if st.processMono then st
        else { st with
          bufHostR := overwrite st.bufHostR (copyChannelInput cfg pairR sliceStart sliceLen) }
      let st := st.gateInput cfg sliceLen
      let outs : Outs α := if st.portOutputActive then
          ⟨getChannelOutput pairL sliceStart sliceLen, getChannelOutput pairR sliceStart sliceLen⟩
        else ⟨none, none⟩
      let st := st.feedDry 0 sliceLen st.processMono
      let outs := copyDelayedDryToOutput cfg outs (st.bufXfadeDryL.take sliceLen)
        (st.bufXfadeDryR.take sliceLen) 0 st.processMono
      containedSlices total fuel (sliceStart + sliceLen)
        (putChannelOutput pairL sliceStart outs.outL)
        (putChannelOutput pairR sliceStart outs.outR) st
    else ((pairL, pairR), st)

/-- A port pair in the loop of `process_dry_contained_block`. -/
def containPortPair (port : PortPair α) (st : LegState α) : Option (PortPair α × LegState α) :=
  if cfg.maxFrames < port.frames then
    match port.channels with
    | .error => none
    | .notF32 => some (port, st)
    | .f32 pairL pairR =>
      let st := { st with processMono := if cfg.dualMono then !hasRInput pairR else true }
      let r := containedSlices cfg port.frames port.frames 0 pairL pairR st
      some ({ port with channels := .f32 r.1.1 r.1.2 }, r.2)
  else if port.frames = 0 then some (port, st)
  else
    match port.channels with
    | .error => none
    | .notF32 => some (port, st)
    | .f32 pairL pairR =>
      let e := extractChannels cfg pairL pairR port.frames st
      let st := e.1.gateInput cfg port.frames
      let outs := if st.portOutputActive then e.2 else ⟨none, none⟩
      let st := st.feedDry 0 port.frames st.processMono
      let outs := copyDelayedDryToOutput cfg outs (st.bufXfadeDryL.take port.frames)
        (st.bufXfadeDryR.take port.frames) 0 st.processMono
      let channels := .f32 (putChannelOutput pairL 0 outs.outL) (putChannelOutput pairR 0 outs.outR)
      some ({ port with channels }, st)

/-! ## Blocks -/

/-- The loop over the port pairs; the flag says whether it went through. A pair whose channels cannot
be read ends it. -/
def forPortPairs (body : PortPair α → LegState α → Option (PortPair α × LegState α)) :
    List (PortPair α) → LegState α → (List (PortPair α) × Bool) × LegState α
  | [], st => (([], true), st)
  | p :: ps, st =>
    match body p st with
    | none => ((p :: ps, false), st)
    | some (p', st') =>
      let r := forPortPairs body ps st'
      ((p' :: r.1.1, r.1.2), r.2)

/-- `process_dry_contained_block`: the ports after it, whether it succeeded, and the state. -/
def processDryContainedBlock (audio : List (PortPair α)) (st : LegState α) :
    (List (PortPair α) × Bool) × LegState α := forPortPairs (containPortPair cfg) audio st

/-- The containment of a non-finite input: nothing from before it survives. -/
def LegState.containNonFinite (st : LegState α) : LegState α :=
  let silence : List α → List α := fun buf => List.replicate buf.length cfg.zero
  { st with
    nonFiniteInput := false
    dryDelay := { st.dryDelay with
      lineL := { st.dryDelay.lineL with slots := silence st.dryDelay.lineL.slots }
      lineR := { st.dryDelay.lineR with slots := silence st.dryDelay.lineR.slots } }
    bufHostL := silence st.bufHostL
    bufHostR := silence st.bufHostR
    bufXfadeDryL := silence st.bufXfadeDryL
    bufXfadeDryR := silence st.bufXfadeDryR }

/-- `process_dsp_audio` -/
def processDspAudio (wet : Pipeline α) (audio : List (PortPair α)) (st : LegState α) :
    (List (PortPair α) × Bool) × LegState α :=
  if st.nonFiniteInput then processDryContainedBlock cfg audio (st.containNonFinite cfg)
  else forPortPairs (processPortPair cfg wet) audio st

end

end NamPlug.DryLeg
