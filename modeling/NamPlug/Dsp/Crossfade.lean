import Mathlib.Algebra.Order.Ring.Rat

/-!
# The bypass crossfade

`BypassCrossfader` (`processor/state.rs`) and the blend of `process_crossfade_sub_block`
(`processor/dsp/orchestrator/audio_loop.rs`) over exact rationals, under a schedule of triggers and
sub-blocks. A sub-block is the list of its frames, each the compensated dry and the wet value of one
sample (streaming inference returns as many wet samples as the dry capture holds). The bypass
parameter has the value of the last trigger whenever a sub-block is processed.
-/

namespace NamPlug

/-- A sample put out: the mix applied to it, what was mixed and the result. -/
structure Blended where
  mix : ℚ
  dry : ℚ
  wet : ℚ
  out : ℚ
  deriving DecidableEq, Repr

/-- `BypassCrossfader`. -/
structure Crossfader where
  target : Bool
  active : Bool
  mix : ℚ
  step : ℚ
  remaining : Nat
  deriving DecidableEq, Repr

namespace Crossfader

/-- `BYPASS_XFADE_SAMPLES` -/
def xfadeSamples : Nat := 64

/-- `BYPASS_XFADE_INV` -/
def xfadeInv : ℚ := 1 / 64

def new (initialBypass : Bool) : Crossfader where
  target := initialBypass
  active := false
  mix := if initialBypass then 0 else 1
  step := 0
  remaining := 0

def trigger (x : Crossfader) (target : Bool) : Crossfader :=
  if x.target = target then x
  else { x with
    target
    active := true
    remaining := xfadeSamples
    step := if target then -xfadeInv else xfadeInv }

/-- The mix a bypass state ends at. -/
def finalMix (target : Bool) : ℚ := if target then 0 else 1

/-- `f32::clamp(0.0, 1.0)` -/
def clamp01 (q : ℚ) : ℚ := max 0 (min q 1)

/-- The loop over the blended portion: what it puts out, and the mix after it. -/
def blend (step : ℚ) : ℚ → List (ℚ × ℚ) → List Blended × ℚ
  | mix, [] => ([], mix)
  | mix, (d, w) :: frames =>
    let rest := blend step (mix + step) frames
    (⟨mix, d, w, d + (w - d) * mix⟩ :: rest.1, rest.2)

/-- A sample of the pure portion: dry is copied over wet if the target is dry. -/
def pure (target : Bool) (frame : ℚ × ℚ) : Blended :=
  ⟨finalMix target, frame.1, frame.2, if target then frame.1 else frame.2⟩

/-- `process_crossfade_sub_block`, from the blend on. -/
def processCrossfadeSubBlock (x : Crossfader) (frames : List (ℚ × ℚ)) :
    List Blended × Crossfader :=
  let nXfade := min frames.length x.remaining
  let blended := blend x.step x.mix (frames.take nXfade)
  let out := blended.1 ++ (frames.drop nXfade).map (pure x.target)
  let remaining := x.remaining - nXfade
  if remaining = 0 then
    (out, { x with active := false, mix := finalMix x.target, remaining })
  else (out, { x with mix := clamp01 blended.2, remaining })

/-- `process_sub_block`: the crossfade while one is under way, else dry or wet alone. -/
def processSubBlock (x : Crossfader) (frames : List (ℚ × ℚ)) : List Blended × Crossfader :=
  if x.active then x.processCrossfadeSubBlock frames
  else (frames.map (pure x.target), x)

end Crossfader

/-! ## Schedules -/

inductive XfadeAction where
  | trigger (bypass : Bool)
  | subBlock (frames : List (ℚ × ℚ))
  deriving DecidableEq, Repr

def XfadeAction.isTrigger : XfadeAction → Bool
  | .trigger _ => true
  | .subBlock _ => false

namespace Crossfader

/-- What one action of a schedule puts out. -/
def act (x : Crossfader) : XfadeAction → List Blended × Crossfader
  | .trigger bypass => ([], x.trigger bypass)
  | .subBlock frames => x.processSubBlock frames

/-- What a schedule puts out. -/
def render (x : Crossfader) : List XfadeAction → List Blended × Crossfader
  | [] => ([], x)
  | a :: as =>
    let r := x.act a
    let rest := r.2.render as
    (r.1 ++ rest.1, rest.2)

/-- The mixes applied, sample by sample. -/
def mixes (x : Crossfader) (as : List XfadeAction) : List ℚ := (x.render as).1.map (·.mix)

end Crossfader

/-- One action of a schedule with its sub-blocks cut into single samples. -/
def XfadeAction.singles : XfadeAction → List XfadeAction
  | .trigger bypass => [.trigger bypass]
  | .subBlock frames => frames.map fun f => .subBlock [f]

/-- A schedule with all its sub-blocks cut into single samples. Two schedules differ in their
partition into sub-blocks only if they agree in this. -/
def singles (as : List XfadeAction) : List XfadeAction := as.flatMap XfadeAction.singles

/-- What a crossfade promises of a schedule. -/
structure CrossfadeKept (bypass : Bool) (as : List XfadeAction) : Prop where
  range : ∀ s ∈ ((Crossfader.new bypass).render as).1, 0 ≤ s.mix ∧ s.mix ≤ 1
  gradual : ((Crossfader.new bypass).mixes as).IsChain fun m m' => |m' - m| ≤ 1 / 64
  between : ∀ s ∈ ((Crossfader.new bypass).render as).1,
    min s.dry s.wet ≤ s.out ∧ s.out ≤ max s.dry s.wet
  /-- 64 samples after the last trigger the mix is the one of its target. -/
  settles : ∀ before target after, as = before ++ .trigger target :: after →
    (∀ a ∈ after, a.isTrigger = false) →
    ∀ m ∈ (((Crossfader.new bypass).render (before ++ [.trigger target])).2.mixes after).drop 64,
      m = Crossfader.finalMix target
  uncut : (Crossfader.new bypass).mixes as = (Crossfader.new bypass).mixes (singles as)

end NamPlug
