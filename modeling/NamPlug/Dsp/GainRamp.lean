import Mathlib.Algebra.GroupWithZero.Nat
import Mathlib.Algebra.Order.Ring.Rat

/-!
# The gain ramp

`apply_gain_ramp_with_steps` and `apply_iir_gain_ramp_sub_block`
(`processor/dsp/orchestrator/audio_loop.rs`, with `dual-mono`) over exact rationals. The smoother and
the gain kernels are the engine's (`SmootherEngine`); a smoother holds a coefficient, a value and a
target. The buffers hold the slices the ramps are applied to.
-/

namespace NamPlug

/-- What is used of the engine: its `ParamSmoother` and whether its fused kernel detects clipping in
a slice it has applied a gain to. -/
structure SmootherEngine (S : Type) where
  alpha : S → ℚ
  peek : S → ℚ
  targetValue : S → ℚ
  set : S → ℚ → S
  setTarget : S → ℚ → S
  detectClipping : List ℚ → Bool
  alpha_set : ∀ s v, alpha (set s v) = alpha s
  peek_set : ∀ s v, peek (set s v) = v
  targetValue_set : ∀ s v, targetValue (set s v) = targetValue s
  alpha_setTarget : ∀ s t, alpha (setTarget s t) = alpha s
  peek_setTarget : ∀ s t, peek (setTarget s t) = peek s
  targetValue_setTarget : ∀ s t, targetValue (setTarget s t) = t

/-- `GainStep`, with a rational target. -/
structure RampStep where
  offset : Nat
  target : ℚ
  isInput : Bool
  deriving DecidableEq, Repr

/-- What a ramp works on. -/
structure RampState (S : Type) where
  smoother : S
  bufL : List ℚ
  bufR : List ℚ
  inputClipped : Bool

/-- Below this distance the gain counts as stable. -/
def stableGain : ℚ := 1 / 10 ^ 9

/-- The loop of the ramp over a slice: the samples, and `bp` after it. -/
def rampLoop (target diff beta : ℚ) : ℚ → List ℚ → List ℚ × ℚ
  | bp, [] => ([], bp)
  | bp, p :: ps =>
    let rest := rampLoop target diff beta (bp * beta) ps
    (p * (target + bp * diff) :: rest.1, rest.2)

/-- `buf[offset..offset + n]` -/
def sliceOf (buf : List ℚ) (offset n : Nat) : List ℚ := (buf.drop offset).take n

/-- A buffer with `buf[offset..offset + n]` written. -/
def writeSlice (buf : List ℚ) (offset n : Nat) (xs : List ℚ) : List ℚ :=
  buf.take offset ++ xs ++ buf.drop (offset + n)

section
variable {S : Type} (E : SmootherEngine S)

/-- `apply_iir_gain_ramp_sub_block` -/
def applyIirGainRampSubBlock (detectClip processMono : Bool) (x : RampState S) (offset n : Nat) :
    RampState S :=
  let start := E.peek x.smoother
  let target := E.targetValue x.smoother
  let sliceL := sliceOf x.bufL offset n
  let sliceR := sliceOf x.bufR offset n
  if |start - target| < stableGain then
    let l := sliceL.map (· * start)
    let r := if processMono then sliceR else sliceR.map (· * start)
    let clipped := detectClip && (E.detectClipping l || !processMono && E.detectClipping r)
    { x with
      bufL := writeSlice x.bufL offset n l
      bufR := writeSlice x.bufR offset n r
      inputClipped := x.inputClipped || clipped }
  else
    let beta := 1 - E.alpha x.smoother
    let diff := start - target
    -- in stereo both slices are ramped in one loop
    let l := rampLoop target diff beta beta sliceL
    let r := if processMono then sliceR else (rampLoop target diff beta beta sliceR).1
    let clips (xs : List ℚ) := xs.any fun s => decide (1 < |s|)
    let clipped := detectClip && (clips l.1 || !processMono && clips r)
    let finalVal := if beta ≤ 0 then target else target + l.2 / beta * diff
    { smoother := E.set x.smoother finalVal
      bufL := writeSlice x.bufL offset n l.1
      bufR := writeSlice x.bufR offset n r
      inputClipped := x.inputClipped || clipped }

/-- One round of the loop over the steps, from the position the ramp has come to. -/
def rampStep (wantInput detectClip processMono : Bool) (offset n : Nat) (x : RampState S × Nat)
    (step : RampStep) : RampState S × Nat :=
  if step.isInput ≠ wantInput then x
  else
    let stepOff := offset + min step.offset n
    let y :=
      if x.2 < stepOff then
        (applyIirGainRampSubBlock E detectClip processMono x.1 x.2 (stepOff - x.2), stepOff)
      else x
    ({ y.1 with smoother := E.setTarget y.1.smoother step.target }, y.2)

/-- `apply_gain_ramp_with_steps` -/
def applyGainRampWithSteps (wantInput detectClip processMono : Bool) (x : RampState S)
    (offset n : Nat) (steps : List RampStep) : RampState S :=
  let y := steps.foldl (rampStep E wantInput detectClip processMono offset n) (x, offset)
  if y.2 < offset + n then
    applyIirGainRampSubBlock E detectClip processMono y.1 y.2 (offset + n - y.2)
  else y.1

/-- A call on the next `n` samples. -/
structure RampCall where
  n : Nat
  steps : List RampStep
  deriving DecidableEq, Repr

/-- Consecutive calls from an offset on. -/
def applyRampCalls (wantInput detectClip processMono : Bool) :
    RampState S → Nat → List RampCall → RampState S
  | x, _, [] => x
  | x, offset, c :: cs =>
    applyRampCalls wantInput detectClip processMono
      (applyGainRampWithSteps E wantInput detectClip processMono x offset c.n c.steps)
      (offset + c.n) cs

end

/-! ## The targets in force -/

/-- The steps of a call that concern one gain, with their offsets counted from `base` samples before
the call. -/
def callSteps (wantInput : Bool) (base : Nat) (steps : List RampStep) : List (Nat × ℚ) :=
  (steps.filter (·.isInput == wantInput)).map fun s => (base + s.offset, s.target)

/-- The steps of consecutive calls that concern one gain. -/
def timeline (wantInput : Bool) : Nat → List RampCall → List (Nat × ℚ)
  | _, [] => []
  | base, c :: cs => callSteps wantInput base c.steps ++ timeline wantInput (base + c.n) cs

/-- The target at a sample: that of the last step at or before it. -/
def targetAt (T : ℚ) (steps : List (Nat × ℚ)) (i : Nat) : ℚ :=
  (steps.filter fun s => s.1 ≤ i).foldl (fun _ s => s.2) T

/-- The samples of a buffer from `offset` to `offset + n` multiplied by gains. -/
def multiplied (offset n : Nat) (gain : Nat → ℚ) (buf : List ℚ) : List ℚ :=
  buf.mapIdx fun j v => if offset ≤ j ∧ j < offset + n then v * gain (j - offset) else v

/-- The steps of a call come in order and none is after its end. -/
structure RampCall.Ordered (c : RampCall) : Prop where
  sorted : c.steps.Pairwise fun s t => s.offset ≤ t.offset
  within : ∀ s ∈ c.steps, s.offset ≤ c.n

def totalSamples (calls : List RampCall) : Nat := (calls.map (·.n)).sum

end NamPlug
