import Mathlib.Logic.Function.Basic
import NamPlug.Plugin.State

/-!
# The command scheduler

`CommandProducer` and its `CoalesceBuffer` (`plugin/command_scheduler.rs`). A snapshot of the
parameters is kept as one `f64` for each, with a dirty bit, and put together from them again. Whether
a push finds room in the ring is up to the audio thread; a call carries the answer for each push it
may make. `SnapshotQueue` is what the producer is for: at most one snapshot waits, and goes before the
next command.
-/

namespace NamPlug

open Binary32

/-- The conversions between `f32`, `u32` and `f64`. -/
structure WideFloat (F64 : Type) where
  /-- `v as f64` -/
  widen : F32 → F64
  /-- `v as f32` -/
  narrow : F64 → F32
  /-- `v as u32 as f64` -/
  ofNat : Nat → F64
  /-- `v != 0.0` -/
  nonzero : F64 → Bool
  narrow_widen : ∀ v, narrow (widen v) = v
  narrow_ofNat : ∀ n, n ≤ 2 → narrow (ofNat n) = Binary32.ofNat n
  nonzero_ofNat : ∀ n, n ≤ 2 → nonzero (ofNat n) = decide (n ≠ 0)

abbrev PARAM_COUNT : Nat := 9

structure CoalesceBuffer (F64 : Type) where
  slots : Fin PARAM_COUNT → Option F64
  dirtyMask : BitVec 16

namespace CoalesceBuffer

variable {F64 : Type} (W : WideFloat F64) (E : ParamEngine)

def default : CoalesceBuffer F64 := ⟨fun _ => none, 0#16⟩

def set (b : CoalesceBuffer F64) (paramId : Nat) (value : F64) : CoalesceBuffer F64 :=
  if h : paramId < PARAM_COUNT then
    { slots := Function.update b.slots ⟨paramId, h⟩ (some value)
      dirtyMask := b.dirtyMask ||| 1#16 <<< paramId }
  else b

/-- The value of a slot that is taken: that of a dirty parameter. -/
def taken (b : CoalesceBuffer F64) (i : Fin PARAM_COUNT) : Option F64 :=
  if b.dirtyMask &&& (1#16 <<< i.val) ≠ 0#16 then b.slots i else none

/-- `take_snapshot`. The slot of the ninth parameter is not looked at. -/
def takeSnapshot (b : CoalesceBuffer F64) : Option RtProcessingParams × CoalesceBuffer F64 :=
  if b.dirtyMask = 0#16 then (none, b)
  else
    let d := E.rtDefault
    (some {
        inputGainDb := ((b.taken 0).map W.narrow).getD d.inputGainDb
        outputGainDb := ((b.taken 1).map W.narrow).getD d.outputGainDb
        gateThresholdDb := ((b.taken 2).map W.narrow).getD d.gateThresholdDb
        bypass := ((b.taken 3).map W.nonzero).getD d.bypass
        adaptiveCompute := ((b.taken 4).map (E.adaptiveOfF32 ∘ W.narrow)).getD d.adaptiveCompute
        slimOverride := ((b.taken 5).map (E.slimOfF32 ∘ W.narrow)).getD d.slimOverride
        oversample := ((b.taken 6).map (E.oversampleOfF32 ∘ W.narrow)).getD d.oversample
        activationPrecision :=
          ((b.taken 7).map (E.activationOfF32 ∘ W.narrow)).getD d.activationPrecision },
      { slots := fun i => if i.val < 8 ∧ (b.taken i).isSome then none else b.slots i
        dirtyMask := 0#16 })

/-- `restore_snapshot`; `push_params` sets the same slots. -/
def restoreSnapshot (b : CoalesceBuffer F64) (p : RtProcessingParams) : CoalesceBuffer F64 :=
  b |>.set 0 (W.widen p.inputGainDb)
    |>.set 1 (W.widen p.outputGainDb)
    |>.set 2 (W.widen p.gateThresholdDb)
    |>.set 3 (W.ofNat (if p.bypass then 1 else 0))
    |>.set 4 (W.ofNat p.adaptiveCompute.code)
    |>.set 5 (W.ofNat p.slimOverride.code)
    |>.set 6 (W.ofNat p.oversample.code)
    |>.set 7 (W.ofNat p.activationPrecision.code)

end CoalesceBuffer

/-! ## The producer -/

/-- A payload in the ring, with the sequence number it was given. -/
structure Sent where
  seq : Nat
  payload : ClapParamPayload
  deriving DecidableEq, Repr

/-- `CommandProducer`, with all that went into its ring. -/
structure CommandProducer (F64 : Type) where
  nextSeq : Nat
  coalescing : CoalesceBuffer F64
  tx : List Sent

/-- What a call returns. -/
inductive SendResult where
  /-- `push_params`: whether this is a new batch. -/
  | batch (new : Bool)
  | ok (seq : Nat)
  | full
  /-- `try_push_command`, with the command handed back. -/
  | refused (cmd : ClapParamPayload)
  deriving DecidableEq, Repr

namespace CommandProducer

variable {F64 : Type} (W : WideFloat F64) (E : ParamEngine)

def new : CommandProducer F64 := ⟨0, .default, []⟩

/-- A push that finds room takes the next sequence number. -/
def push (x : CommandProducer F64) (payload : ClapParamPayload) : CommandProducer F64 × Nat :=
  ({ x with
      nextSeq := x.nextSeq + 1
      tx := x.tx ++ [⟨x.nextSeq + 1, payload⟩] },
    x.nextSeq + 1)

def pushParams (x : CommandProducer F64) (p : RtProcessingParams) : CommandProducer F64 × Bool :=
  let hadPending := x.coalescing.dirtyMask ≠ 0#16
  ({ x with coalescing := x.coalescing.restoreSnapshot W p }, !decide hadPending)

/-- `force_flush`: the sequence number, or `none` on a full ring. -/
def forceFlush (x : CommandProducer F64) (room : Bool) : CommandProducer F64 × Option Nat :=
  match x.coalescing.takeSnapshot W E with
  | (some snapshot, b) =>
    if room then
      let r := { x with coalescing := b }.push (.params snapshot)
      (r.1, some r.2)
    else ({ x with coalescing := b.restoreSnapshot W snapshot }, none)
  | (none, b) => ({ x with coalescing := b }, some 0)

def tryPushCommand (x : CommandProducer F64) (cmd : ClapParamPayload) (flushRoom room : Bool) :
    CommandProducer F64 × SendResult :=
  match x.forceFlush W E flushRoom with
  | (x, none) => (x, .refused cmd)
  | (x, some _) =>
    if room then
      let r := x.push cmd
      (r.1, .ok r.2)
    else (x, .refused cmd)

end CommandProducer

/-- A call, with whether its pushes find room. -/
inductive SendCall where
  | pushParams (p : RtProcessingParams)
  | forceFlush (room : Bool)
  | tryPushCommand (cmd : ClapParamPayload) (flushRoom room : Bool)
  deriving DecidableEq, Repr

def CommandProducer.call {F64 : Type} (W : WideFloat F64) (E : ParamEngine)
    (x : CommandProducer F64) : SendCall → CommandProducer F64 × SendResult
  | .pushParams p =>
    let r := x.pushParams W p
    (r.1, .batch r.2)
  | .forceFlush room =>
    match x.forceFlush W E room with
    | (x, some seq) => (x, .ok seq)
    | (x, none) => (x, .full)
  | .tryPushCommand cmd flushRoom room => x.tryPushCommand W E cmd flushRoom room

/-- A sequence of calls: the producer after it, and what they returned. -/
def CommandProducer.calls {F64 : Type} (W : WideFloat F64) (E : ParamEngine)
    (x : CommandProducer F64) : List SendCall → CommandProducer F64 × List SendResult
  | [] => (x, [])
  | c :: cs =>
    let r := x.call W E c
    let rest := r.1.calls W E cs
    (rest.1, r.2 :: rest.2)

/-! ## Its purpose -/

/-- The last snapshot pushed that was not delivered yet, and the payloads accepted so far. -/
structure SnapshotQueue where
  latest : Option RtProcessingParams
  accepted : List ClapParamPayload
  deriving DecidableEq, Repr

namespace SnapshotQueue

def empty : SnapshotQueue := ⟨none, []⟩

/-- A payload accepted: its number is its place. -/
def accept (q : SnapshotQueue) (payload : ClapParamPayload) : SnapshotQueue :=
  { q with accepted := q.accepted ++ [payload] }

/-- The snapshot that waits is delivered, or waits on. The result says whether none waits. -/
def deliver (q : SnapshotQueue) (room : Bool) : SnapshotQueue × Bool :=
  match q.latest with
  | none => (q, true)
  | some p => if room then ({ q with latest := none }.accept (.params p), true) else (q, false)

def call (q : SnapshotQueue) : SendCall → SnapshotQueue × SendResult
  | .pushParams p => ({ q with latest := some p }, .batch q.latest.isNone)
  | .forceFlush room =>
    match q.deliver room with
    | (q', true) => (q', .ok (if q.latest.isSome then q'.accepted.length else 0))
    | (q', false) => (q', .full)
  | .tryPushCommand cmd flushRoom room =>
    match q.deliver flushRoom with
    | (q', true) =>
      if room then (q'.accept cmd, .ok (q'.accepted.length + 1)) else (q', .refused cmd)
    | (q', false) => (q', .refused cmd)

def calls (q : SnapshotQueue) : List SendCall → SnapshotQueue × List SendResult
  | [] => (q, [])
  | c :: cs =>
    let r := q.call c
    let rest := r.1.calls cs
    (rest.1, r.2 :: rest.2)

end SnapshotQueue

end NamPlug
