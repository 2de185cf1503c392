import Mathlib.Data.Rat.Defs
import NamPlug.Dsp.Orchestrator
import NamPlug.Lib.Delay

/-!
# Dry and wet

The samples `process_sub_block` puts out (`processor/dsp/orchestrator/audio_loop.rs`), under the
bypass crossfader and with the dry delay ring (`processor/dsp/dry_delay.rs`), for one channel. The
wet chain is a unity-gain delay line of the latency the dry ring is set to, the gains are at unity
and the gate is open. Samples are rationals; the mix of a crossfade is the number its float stands
for.
-/

namespace NamPlug

open Binary32

/-- `BypassCrossfader::new`. -/
def BypassCrossfader.new (initialBypass : Bool) : BypassCrossfader where
  target := initialBypass
  active := false
  mix := if initialBypass then f0 else f1
  step := f0
  remaining := 0

def BypassCrossfader.finalMix (c : BypassCrossfader) : F32 := if c.target then f0 else f1

/-- The number a finite float stands for. -/
def ratOf (x : F32) : Rat :=
  match datum x with
  | .fin neg units => (if neg then -1 else 1) * (units / 2 ^ 1074)
  | .inf _ => 0
  | .nan => 0

/-! ## Sub-blocks -/

/-- The blended portion: the mix ramps by `step` for every sample. -/
def blend (step : F32) : F32 → List Rat → List Rat → List Rat
  | mix, d :: ds, w :: ws => (d + (w - d) * ratOf mix) :: blend step (add mix step) ds ws
  | _, _, _ => []

/-- The blend of `process_crossfade_sub_block`: the ramp, then the final mix. -/
def crossfade (c : BypassCrossfader) (dry wet : List Rat) : List Rat :=
  let nXfade := min wet.length c.remaining
  blend c.step c.mix (dry.take nXfade) (wet.take nXfade) ++
    if c.target then dry.drop nXfade else wet.drop nXfade

/-- The crossfader, the dry ring and the wet chain. -/
structure DryWet where
  bypassXfade : BypassCrossfader
  dryDelay : List Rat
  wet : List Rat
  deriving DecidableEq, Repr

/-- `process_sub_block` on a sub-block of at most `MAX_RESAMP_BUF` samples. The dry ring is fed
always, the wet chain not under a full bypass. -/
def DryWet.processChunk (x : DryWet) (bypass : Bool) (xs : List Rat) : List Rat × DryWet :=
  let dry := Delay.feed x.dryDelay xs
  let x := { x with dryDelay := dry.2 }
  if x.bypassXfade.active then
    let wet := Delay.feed x.wet xs
    (crossfade x.bypassXfade dry.1 wet.1,
      { x with wet := wet.2, bypassXfade := x.bypassXfade.advance xs.length })
  else if bypass then (dry.1, x)
  else
    let wet := Delay.feed x.wet xs
    (wet.1, { x with wet := wet.2 })

/-- The chunks of a sub-block (`process_sub_block_chunked`); `maxBuf` is `MAX_RESAMP_BUF`. -/
def chunkSizes (maxBuf n : Nat) : List Nat :=
  if n ≤ maxBuf then [n]
  else List.replicate (n / maxBuf) maxBuf ++ if n % maxBuf = 0 then [] else [n % maxBuf]

/-- `process_sub_block`, chunk by chunk. -/
def DryWet.processChunks (x : DryWet) (bypass : Bool) : List Nat → List Rat → List Rat × DryWet
  | [], _ => ([], x)
  | n :: ns, xs =>
    let r := x.processChunk bypass (xs.take n)
    let rest := r.2.processChunks bypass ns (xs.drop n)
    (r.1 ++ rest.1, rest.2)

def DryWet.processSubBlock (maxBuf : Nat) (x : DryWet) (bypass : Bool) (xs : List Rat) :
    List Rat × DryWet :=
  x.processChunks bypass (chunkSizes maxBuf xs.length) xs

/-! ## Schedules -/

/-- What a schedule of blocks is made of: the bypass is set, which triggers the crossfader, or a
sub-block is processed. -/
inductive BypassAction where
  | setBypass (bypass : Bool)
  | subBlock (n : Nat)
  deriving DecidableEq, Repr

/-- An instance under way: what was put out and how much of the input was taken. -/
structure DryWetRun where
  bypass : Bool
  block : DryWet
  time : Nat
  out : List Rat
  deriving DecidableEq, Repr

/-- The start, with a latency of `L` samples. -/
def DryWetRun.init (L : Nat) (bypass : Bool) : DryWetRun where
  bypass
  block := ⟨.new bypass, List.replicate L 0, List.replicate L 0⟩
  time := 0
  out := []

def bypassStep (maxBuf : Nat) (signal : Nat → Rat) (x : DryWetRun) : BypassAction → DryWetRun
  | .setBypass bypass =>
    { x with
      bypass
      block := { x.block with bypassXfade := x.block.bypassXfade.trigger bypass } }
  | .subBlock n =>
    let r := x.block.processSubBlock maxBuf x.bypass
      ((List.range n).map fun i => signal (x.time + i))
    { x with block := r.2, time := x.time + n, out := x.out ++ r.1 }

/-- A schedule run on a signal. -/
def bypassRun (maxBuf L : Nat) (bypass : Bool) (signal : Nat → Rat) (as : List BypassAction) :
    DryWetRun :=
  as.foldl (bypassStep maxBuf signal) (.init L bypass)

end NamPlug
