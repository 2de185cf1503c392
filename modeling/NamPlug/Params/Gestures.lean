import NamPlug.Lib.Run
import NamPlug.Params.Atomics

/-!
# Gestures between two threads

The GUI thread sets gesture flags (`begin_gesture`, `mark_param_changed`, `end_gesture`) while
`write_gui_events` takes them on another thread (`plugin/shared.rs`). Here every access to an atomic
and every push into the host's queue is a step of its own; `writeGuiEvents` is what the steps of a
drain make when the GUI does not run between them (`run_emits`).

`GestureState.gui` is not in the source: it records, newest first, what the GUI did.
-/

namespace NamPlug

/-- A step of the GUI. A change of a value is a store and its mark. -/
inductive GuiStep where
  | beginGesture (p : ParamId)
  | store (p : ParamId) (v : BitVec 32)
  | markParamChanged (p : ParamId)
  | endGesture (p : ParamId)
  deriving DecidableEq, Repr

/-- The next step of a drain. -/
inductive EmitPc where
  /-- No drain is under way. -/
  | idle
  /-- A flag is taken; the parameters of `rest` follow. -/
  | take (p : ParamId) (f : GestureFlag) (rest : List ParamId)
  /-- The change of a parameter is taken, its value is read. -/
  | load (p : ParamId) (rest : List ParamId)
  /-- The event of a flag that is taken goes to the host. -/
  | push (p : ParamId) (f : GestureFlag) (ev : OutEvent) (rest : List ParamId)
  /-- The host's queue is full, the flag is put back. -/
  | retain (p : ParamId) (f : GestureFlag)
  deriving DecidableEq, Repr

structure GestureState where
  ui : UiToRt
  pc : EmitPc
  out : List OutEvent
  gui : List GuiStep

/-- Any values, and no gesture yet. -/
def GestureState.init (u : UiToRt) : GestureState :=
  ⟨{ u with gestureFlags := 0 }, .idle, [], []⟩

/-! ## The GUI -/

/-- Whether a gesture is open in a GUI history. -/
def guiOpen (p : ParamId) : List GuiStep → Bool
  | [] => false
  | .beginGesture q :: h => if q = p then true else guiOpen p h
  | .endGesture q :: h => if q = p then false else guiOpen p h
  | .store _ _ :: h => guiOpen p h
  | .markParamChanged _ :: h => guiOpen p h

/-- Whether a value is stored whose mark is still to come. -/
def unmarked (p : ParamId) : List GuiStep → Bool
  | [] => false
  | .beginGesture _ :: h => unmarked p h
  | .endGesture _ :: h => unmarked p h
  | .store q _ :: h => if q = p then true else unmarked p h
  | .markParamChanged q :: h => if q = p then false else unmarked p h

/-- The last value the GUI set. -/
def lastSet (p : ParamId) : List GuiStep → Option (BitVec 32)
  | [] => none
  | .beginGesture _ :: h => lastSet p h
  | .endGesture _ :: h => lastSet p h
  | .store q v :: h => if q = p then some v else lastSet p h
  | .markParamChanged _ :: h => lastSet p h

def GuiStep.param : GuiStep → ParamId
  | .beginGesture p => p
  | .store p _ => p
  | .markParamChanged p => p
  | .endGesture p => p

/-- The gestures of a parameter do not nest, and a value that is stored is marked inside one. -/
def GuiStep.inOrder (h : List GuiStep) : GuiStep → Bool
  | .beginGesture p => !guiOpen p h
  | .store _ _ => true
  | .markParamChanged p => guiOpen p h && unmarked p h
  | .endGesture p => guiOpen p h

def GuiStep.run (u : UiToRt) : GuiStep → UiToRt
  | .beginGesture p => u.beginGesture p
  | .store p v => u.store p v
  | .markParamChanged p => u.markParamChanged p
  | .endGesture p => u.endGesture p

/-! ## The drain -/

def nextParam : List ParamId → EmitPc
  | [] => .idle
  | p :: rest => .take p .begin_ rest

/-- What follows a flag. -/
def nextFlag (p : ParamId) (f : GestureFlag) (rest : List ParamId) : EmitPc :=
  match f with
  | .begin_ => .take p .changed rest
  | .changed => .take p .end_ rest
  | .end_ => nextParam rest

/-- What follows once a flag is taken. -/
def takenFlag (p : ParamId) (f : GestureFlag) (rest : List ParamId) : EmitPc :=
  match f with
  | .begin_ => .push p .begin_ (.gestureBegin p) rest
  | .changed => .load p rest
  | .end_ => .push p .end_ (.gestureEnd p) rest

/-- A step of `write_gui_events`; `accepted` says whether the host's queue takes the event that is
pushed. -/
def emitStep (x : GestureState) (accepted : Bool) : GestureState :=
  match x.pc with
  | .idle => { x with pc := if x.ui.gestureFlags = 0 then .idle else nextParam guiEventParams }
  | .take p f rest =>
    match x.ui.takeGesture p f with
    | (false, ui) => { x with ui, pc := nextFlag p f rest }
    | (true, ui) => { x with ui, pc := takenFlag p f rest }
  | .load p rest => { x with pc := .push p .changed (valueEvent x.ui p) rest }
  | .push p f ev rest =>
    if accepted then { x with out := x.out ++ [ev], pc := nextFlag p f rest }
    else { x with pc := .retain p f }
  | .retain p f => { x with ui := x.ui.setGesture p f, pc := .idle }

inductive GestureAction where
  | gui (s : GuiStep)
  | emit (accepted : Bool)
  deriving DecidableEq, Repr

/-- A step of either thread; `none` where the GUI does not take the step. -/
def gestureStep (x : GestureState) : GestureAction → Option GestureState
  | .gui s =>
    if s.param ≠ .activeModel ∧ s.inOrder x.gui then
      some { x with ui := s.run x.ui, gui := s :: x.gui }
    else none
  | .emit accepted => some (emitStep x accepted)

/-! ## What the host sees -/

/-- An event within the gestures of a parameter, open or not. -/
def OutEvent.follow (p : ParamId) (isOpen : Bool) : OutEvent → Option Bool
  | .gestureBegin q =>
    if q ≠ p then some isOpen else if isOpen then none else some true
  | .value q _ =>
    if q ≠ p then some isOpen else if isOpen then some true else none
  | .gestureEnd q =>
    if q ≠ p then some isOpen else if isOpen then some false else none

/-- Whether a gesture of the parameter is left open, where its events are a sequence of gestures
`begin value* end`. -/
def gestures (p : ParamId) (es : List OutEvent) : Option Bool :=
  es.foldlM (OutEvent.follow p) false

def OutEvent.valueOf (p : ParamId) : OutEvent → Option Binary32.Datum
  | .value q v => if q = p then some v else none
  | .gestureBegin _ => none
  | .gestureEnd _ => none

/-- The last value emitted for a parameter. -/
def lastValue (p : ParamId) (es : List OutEvent) : Option Binary32.Datum :=
  (es.filterMap (OutEvent.valueOf p)).getLast?

/-- The state after a drain with room for `room` events and no step of the GUI in between. -/
def GestureState.drained (x : GestureState) (room : Nat) : GestureState :=
  { x with ui := (writeGuiEvents x.ui room).ui, out := x.out ++ (writeGuiEvents x.ui room).out }

end NamPlug
