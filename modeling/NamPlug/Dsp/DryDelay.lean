import NamPlug.Lib.Ring

/-!
# The dry delay line

`DryDelayLine` (`processor/dsp/dry_delay.rs`) with the contents of its rings; the engine's
`DelayLine` is an ideal ring. `DryBlock` holds the arguments of a call of `process_block`, the
output slices with what they held before.
-/

namespace NamPlug

open Delay

/-- `DryDelayLine`. -/
@[ext]
structure DryRings (α : Type) where
  lineL : Delay.Ring α
  lineR : Delay.Ring α
  lastMono : Bool
  deriving DecidableEq, Repr

structure DryBlock (α : Type) where
  inL : List α
  inR : List α
  outL : List α
  outR : List α
  n : Nat
  processMono : Bool
  deriving DecidableEq, Repr

/-- `n`, clamped to the shortest slice. -/
def DryBlock.len {α : Type} (b : DryBlock α) : Nat :=
  min (min (min (min b.n b.inL.length) b.inR.length) b.outL.length) b.outR.length

def DryBlock.left {α : Type} (b : DryBlock α) : List α := b.inL.take b.len

def DryBlock.right {α : Type} (b : DryBlock α) : List α := b.inR.take b.len

namespace DryRings

variable {α : Type}

/-- `DryDelayLine::new`, with silence `z`. -/
def new (z : α) (capacity delay : Nat) : DryRings α where
  lineL := .withCapacity z capacity delay
  lineR := .withCapacity z capacity delay
  lastMono := false

/-- `mirror_l_history_into_r` -/
def mirrorLHistoryIntoR (x : DryRings α) : DryRings α := { x with lineR := x.lineL }

/-- `process_block`: the output slices after it, and the line. -/
def processBlock (x : DryRings α) (b : DryBlock α) : (List α × List α) × DryRings α :=
  if b.processMono then
    let l := x.lineL.process b.left
    ((l.1 ++ b.outL.drop b.len, l.1 ++ b.outR.drop b.len),
      { x with lineL := l.2, lastMono := true })
  else
    let x := if x.lastMono then x.mirrorLHistoryIntoR else x
    let l := x.lineL.process b.left
    let r := x.lineR.process b.right
    ((l.1 ++ b.outL.drop b.len, r.1 ++ b.outR.drop b.len),
      { lineL := l.2, lineR := r.2, lastMono := false })

/-- The line after a sequence of calls. -/
def afterBlocks (x : DryRings α) (bs : List (DryBlock α)) : DryRings α :=
  bs.foldl (fun x b => (x.processBlock b).2) x

/-- What a sequence of calls put out on the left and on the right, one sample after the other. -/
def rendered (x : DryRings α) : List (DryBlock α) → List α × List α
  | [] => ([], [])
  | b :: bs =>
    let r := x.processBlock b
    let rest := r.2.rendered bs
    (r.1.1.take b.len ++ rest.1, r.1.2.take b.len ++ rest.2)

end DryRings

/-! ## The signals -/

/-- The left input of a sequence of calls. -/
def leftInput {α : Type} (bs : List (DryBlock α)) : List α := bs.flatMap DryBlock.left

/-- The right input of a sequence of calls. -/
def rightInput {α : Type} (bs : List (DryBlock α)) : List α := bs.flatMap DryBlock.right

/-- Where the last mono block ends, 0 if there was none. -/
def lastMonoEnd {α : Type} (bs : List (DryBlock α)) : Nat :=
  (bs.foldl (fun (s : Nat × Nat) b =>
    (s.1 + b.len, if b.processMono then s.1 + b.len else s.2)) (0, 0)).2

/-- The right input since the last mono block, and the left input up to its end. -/
def bridgedInput {α : Type} (bs : List (DryBlock α)) : List α :=
  (leftInput bs).take (lastMonoEnd bs) ++ (rightInput bs).drop (lastMonoEnd bs)

/-- The samples a block puts out at a delay of `d`, after `T` samples of the signal. -/
def delayedBlock {α : Type} (d : Nat) (z : α) (signal : List α) (T n : Nat) : List α :=
  (List.range n).map fun i => delayed d z (fun t => signal.getD t z) (T + i)

end NamPlug
