import NamPlug.Params.Value

/-!
# The shared parameter atomics

`UiToRt` (`plugin/shared.rs`): the raw value of every parameter, the gesture flags and the GUI
generation counter; what the host reads from them (`getValue`, `extensions/params/main.rs`),
what the GUI callbacks write into them (`gui/slint_view_model.rs`) and the events
`writeGuiEvents` makes of them. The gains are stored as the bits of a float, the other
parameters as a small integer.
-/

namespace NamPlug

open Binary32

/-- Fields written by the GUI and the main thread and read by the audio thread. -/
structure UiToRt where
  paramInputGain : BitVec 32
  paramOutputGain : BitVec 32
  paramGateThresh : BitVec 32
  paramBypass : BitVec 32
  paramAdaptiveCompute : BitVec 32
  paramSlimOverride : BitVec 32
  paramOversample : BitVec 32
  paramActivation : BitVec 32
  gestureFlags : BitVec 32
  guiParamGeneration : BitVec 32
  deriving DecidableEq, Repr

/-- `UiToRt::default()`. -/
def UiToRt.default : UiToRt where
  paramInputGain := f0
  paramOutputGain := f0
  paramGateThresh := fm90
  paramBypass := 0
  paramAdaptiveCompute := 1
  paramSlimOverride := 0
  paramOversample := 0
  paramActivation := 1
  gestureFlags := 0
  guiParamGeneration := 0

/-- The atomic of a parameter; `activeModel` has none. -/
def UiToRt.load (u : UiToRt) : ParamId → BitVec 32
  | .inputGain => u.paramInputGain
  | .outputGain => u.paramOutputGain
  | .gateThresh => u.paramGateThresh
  | .bypass => u.paramBypass
  | .activeModel => 0
  | .adaptiveCompute => u.paramAdaptiveCompute
  | .slimOverride => u.paramSlimOverride
  | .oversample => u.paramOversample
  | .activation => u.paramActivation

def UiToRt.store (u : UiToRt) (p : ParamId) (v : BitVec 32) : UiToRt :=
  match p with
  | .inputGain => { u with paramInputGain := v }
  | .outputGain => { u with paramOutputGain := v }
  | .gateThresh => { u with paramGateThresh := v }
  | .bypass => { u with paramBypass := v }
  | .activeModel => u
  | .adaptiveCompute => { u with paramAdaptiveCompute := v }
  | .slimOverride => { u with paramSlimOverride := v }
  | .oversample => { u with paramOversample := v }
  | .activation => { u with paramActivation := v }

/-- `bump_generation`: the counter wraps. -/
def UiToRt.bumpGeneration (u : UiToRt) : UiToRt :=
  { u with guiParamGeneration := u.guiParamGeneration + 1 }

@[simp] theorem UiToRt.load_store_self (u : UiToRt) {p : ParamId} (v : BitVec 32)
    (h : p ≠ .activeModel) : (u.store p v).load p = v := by
  cases p <;> first | rfl | exact absurd rfl h

theorem UiToRt.load_store_ne (u : UiToRt) {p q : ParamId} (v : BitVec 32) (h : q ≠ p) :
    (u.store p v).load q = u.load q := by
  cases p <;> cases q <;> first | rfl | exact absurd rfl h

@[simp] theorem UiToRt.store_gestureFlags (u : UiToRt) (p : ParamId) (v : BitVec 32) :
    (u.store p v).gestureFlags = u.gestureFlags := by cases p <;> rfl

@[simp] theorem UiToRt.load_bumpGeneration (u : UiToRt) (p : ParamId) :
    u.bumpGeneration.load p = u.load p := by cases p <;> rfl

/-! ## What the host reads -/

/-- A whole number as a binary64 value. -/
@[irreducible] def natDatum (n : Nat) : Datum := .fin false (n * 2 ^ 1074)

/-- `get_value`. `activeModel` is `modelCounter` (the model load counter, or 0 with no model
named). -/
def getValue (u : UiToRt) (modelCounter : Nat) : ParamId → Datum
  | .inputGain => datum u.paramInputGain
  | .outputGain => datum u.paramOutputGain
  | .gateThresh => datum u.paramGateThresh
  | .bypass => natDatum u.paramBypass.toNat
  | .activeModel => natDatum modelCounter
  | .adaptiveCompute => natDatum u.paramAdaptiveCompute.toNat
  | .slimOverride => natDatum u.paramSlimOverride.toNat
  | .oversample => natDatum u.paramOversample.toNat
  | .activation => natDatum u.paramActivation.toNat

/-! ## Gestures -/

/-- The three gesture flags of a parameter. -/
inductive GestureFlag where
  | changed | begin_ | end_
  deriving DecidableEq, Repr

def GestureFlag.shift : GestureFlag → Nat
  | .changed => 0 | .begin_ => 1 | .end_ => 2

def GESTURE_BITS_PER_PARAM : Nat := 3

/-- `param_index`: the CLAP id itself. -/
def paramIndex (p : ParamId) : Nat := p.code

def gestureBit (p : ParamId) (f : GestureFlag) : BitVec 32 :=
  1#32 <<< (paramIndex p * GESTURE_BITS_PER_PARAM + f.shift)

def UiToRt.setGesture (u : UiToRt) (p : ParamId) (f : GestureFlag) : UiToRt :=
  { u with gestureFlags := u.gestureFlags ||| gestureBit p f }

/-- Whether the flag was set, and the atomics with it cleared. -/
def UiToRt.takeGesture (u : UiToRt) (p : ParamId) (f : GestureFlag) : Bool × UiToRt :=
  (u.gestureFlags &&& gestureBit p f != 0,
    { u with gestureFlags := u.gestureFlags &&& ~~~gestureBit p f })

def UiToRt.beginGesture (u : UiToRt) (p : ParamId) : UiToRt := u.setGesture p .begin_

def UiToRt.endGesture (u : UiToRt) (p : ParamId) : UiToRt := u.setGesture p .end_

def UiToRt.markParamChanged (u : UiToRt) (p : ParamId) : UiToRt := u.setGesture p .changed

@[simp] theorem UiToRt.load_setGesture (u : UiToRt) (p q : ParamId) (f : GestureFlag) :
    (u.setGesture p f).load q = u.load q := by cases q <;> rfl

@[simp] theorem UiToRt.load_takeGesture (u : UiToRt) (p q : ParamId) (f : GestureFlag) :
    (u.takeGesture p f).2.load q = u.load q := by cases q <;> rfl

/-! ## GUI callbacks -/

/-- The GUI callbacks that write a parameter, with the value the widget passes. -/
inductive GuiEdit where
  | inputGainChanged (val : F32)
  | outputGainChanged (val : F32)
  | gateThreshChanged (val : F32)
  | toggleBypass
  | oversampleChanged (val : BitVec 32)
  | cycleOversample
  | activationChanged (val : BitVec 32)
  deriving DecidableEq, Repr

/-- The parameter a callback writes. -/
def GuiEdit.param : GuiEdit → ParamId
  | .inputGainChanged _ => .inputGain
  | .outputGainChanged _ => .outputGain
  | .gateThreshChanged _ => .gateThresh
  | .toggleBypass => .bypass
  | .oversampleChanged _ => .oversample
  | .cycleOversample => .oversample
  | .activationChanged _ => .activation

def minU32 (v n : BitVec 32) : BitVec 32 := if v.toNat ≤ n.toNat then v else n

/-- The raw value a callback stores. -/
def GuiEdit.value (u : UiToRt) : GuiEdit → BitVec 32
  | .inputGainChanged val => val
  | .outputGainChanged val => val
  | .gateThreshChanged val => val
  | .toggleBypass => if !bypassU32ToBool u.paramBypass then 1 else 0
  | .oversampleChanged val => minU32 val 2
  | .cycleOversample => (u.paramOversample + 1) % 3
  | .activationChanged val => minU32 val 1

/-- A knob reports begin and end of its gesture itself; the switches do all in one callback. -/
def GuiEdit.isKnob : GuiEdit → Bool
  | .inputGainChanged _ => true
  | .outputGainChanged _ => true
  | .gateThreshChanged _ => true
  | _ => false

/-- The first step of a callback: the value is stored in the atomic. -/
def guiStore (u : UiToRt) (e : GuiEdit) : UiToRt := u.store e.param (e.value u)

/-- The rest of a callback: a knob bumps the generation and marks the change, a switch records
its whole gesture and bumps. -/
def guiAnnounce (u : UiToRt) (e : GuiEdit) : UiToRt :=
  if e.isKnob then u.bumpGeneration.markParamChanged e.param
  else (((u.beginGesture e.param).markParamChanged e.param).endGesture e.param).bumpGeneration

/-- A whole GUI callback. -/
def guiCallback (u : UiToRt) (e : GuiEdit) : UiToRt := guiAnnounce (guiStore u e) e

/-! ## Events for the host -/

/-- An event in the host's output queue. -/
inductive OutEvent where
  | gestureBegin (p : ParamId)
  | value (p : ParamId) (v : Datum)
  | gestureEnd (p : ParamId)
  deriving DecidableEq, Repr

/-- The parameters `write_gui_events` goes through, in its order. -/
def guiEventParams : List ParamId :=
  [.inputGain, .outputGain, .gateThresh, .bypass, .adaptiveCompute, .slimOverride, .oversample,
    .activation]

/-- A drain of the gesture flags under way: `room` is how many events the output queue still
takes, `stopped` is set by the first one it refuses. -/
structure GuiDrain where
  ui : UiToRt
  room : Nat
  out : List OutEvent
  stopped : Bool

/-- One flag of one parameter: take it, push its event, put the flag back if the queue is full. -/
def GuiDrain.flag (d : GuiDrain) (p : ParamId) (f : GestureFlag) (ev : OutEvent) : GuiDrain :=
  if d.stopped then d
  else
    match d.ui.takeGesture p f with
    | (false, ui) => { d with ui }
    | (true, ui) =>
      if d.room = 0 then { d with ui := ui.setGesture p f, stopped := true }
      else { d with ui, room := d.room - 1, out := d.out ++ [ev] }

/-- The value event of a parameter: the raw atomic read as a float, whatever the parameter. -/
def valueEvent (u : UiToRt) (p : ParamId) : OutEvent := .value p (datum (u.load p))

/-- The three flags of one parameter. -/
def GuiDrain.param (d : GuiDrain) (p : ParamId) : GuiDrain :=
  let d := d.flag p .begin_ (.gestureBegin p)
  let d := d.flag p .changed (valueEvent d.ui p)
  d.flag p .end_ (.gestureEnd p)

/-- `write_gui_events` into a queue with room for `room` more events. -/
def writeGuiEvents (u : UiToRt) (room : Nat) : GuiDrain :=
  if u.gestureFlags = 0 then ⟨u, room, [], false⟩
  else guiEventParams.foldl GuiDrain.param ⟨u, room, [], false⟩

end NamPlug
