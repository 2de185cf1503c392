import NamPlug.Lib.Level
import NamPlug.Lib.Run
import NamPlug.Params.Value

/-!
# The meters

The cells in which the audio thread leaves its peaks (`processor/dsp/peaks.rs`, `RtToUi` of
`plugin/shared.rs`) and the view model that shows them (`gui/slint_view_model.rs`): the ballistics of
the two channels, the clip lamp and the cadence of the telemetry timer. Each atomic access is a step
of its own, the two threads interleave as they like; what a thread does between two accesses to the
shared cells belongs to the step of the first.
-/

namespace NamPlug.Gui

open Binary32

/-! ## Constants -/

/-- `BALLISTICS_DECAY_RATE`, 0.962 -/
def BALLISTICS_DECAY_RATE : F32 := 0x3F7645A2#32

/-- `SILENCE_PEAK_AMP`, 3.1622777e-5 -/
def SILENCE_PEAK_AMP : F32 := 0x3804A2B3#32

/-- `PEAK_HOLD_FRAMES` -/
def PEAK_HOLD_FRAMES : Nat := 120

/-- `TELEMETRY_PERIOD_FULL`, in milliseconds -/
def TELEMETRY_PERIOD_FULL : Nat := 16

/-- `TELEMETRY_PERIOD_LOW` -/
def TELEMETRY_PERIOD_LOW : Nat := 33

/-- `TELEMETRY_LOW_CADENCE_IDLE` -/
def TELEMETRY_LOW_CADENCE_IDLE : Nat := 2000

/-- `UI_NO_INTERACTION` -/
def UI_NO_INTERACTION : Nat := 2 ^ 64 - 1

/-! ## One channel -/

inductive Channel where
  | left | right
  deriving DecidableEq, Repr

/-- What is stored of a peak: neither a negative number nor a NaN. -/
def safePeak (peak : F32) : F32 := if le peak 0 || isNaN peak then 0 else peak

/-- The ballistics state of a channel. -/
structure Ballistics where
  currentPeak : F32
  holdPeak : F32
  holdTimer : Nat
  deriving DecidableEq, Repr

/-- A meter at rest. -/
def Ballistics.zero : Ballistics := ⟨0, 0, 0⟩

/-- The ballistics of one tick. -/
def Ballistics.tick (b : Ballistics) (raw : F32) : Ballistics :=
  let currentPeak :=
    if lt b.currentPeak raw then raw else fmax (mul b.currentPeak BALLISTICS_DECAY_RATE) raw
  if le b.holdPeak raw then ⟨currentPeak, raw, PEAK_HOLD_FRAMES⟩
  else if 0 < b.holdTimer then ⟨currentPeak, b.holdPeak, b.holdTimer - 1⟩
  else ⟨currentPeak, fmax (mul b.holdPeak BALLISTICS_DECAY_RATE) raw, b.holdTimer⟩

def Ballistics.silent (b : Ballistics) : Bool :=
  lt b.currentPeak SILENCE_PEAK_AMP && lt b.holdPeak SILENCE_PEAK_AMP

/-! ## The threads -/

/-- Where the audio thread is in `store_peaks`, or in reporting a clipped input. -/
inductive AudioAt where
  | idle
  /-- The left peak is stored. -/
  | storedLeft (peakL peakR : F32)
  /-- Both are, and one is above full scale. -/
  | storedBoth
  /-- `ui_clipped` is set. -/
  | clipped
  deriving DecidableEq, Repr

/-- Where the GUI thread is in `tick_telemetry`, or in resetting the clip lamp. -/
inductive GuiAt where
  | idle
  | collectedLeft (rawL : F32)
  | collected (rawL rawR : F32)
  /-- `ui_clip_indicator` was not set. -/
  | unlit (rawL rawR : F32)
  /-- The lamp shows what was read. -/
  | shown (rawL rawR : F32)
  /-- `ui_clip_indicator` is cleared. -/
  | resetting
  deriving DecidableEq, Repr

structure Meters where
  -- the shared cells
  uiPeakL : F32
  uiPeakR : F32
  uiClipped : Bool
  uiClipIndicator : Bool
  -- the view model
  left : Ballistics
  right : Ballistics
  clipActive : Bool
  telemetryActive : Bool
  cadence : Nat
  /-- The period of the timer, where it runs. -/
  timer : Option Nat
  audio : AudioAt
  gui : GuiAt
  deriving DecidableEq, Repr

inductive Access where
  -- the audio thread
  | storeLeft (peakL peakR : F32)
  | storeRight
  | clipInput
  | setClipped
  | setIndicator
  -- the GUI thread
  | swapLeft
  | swapRight
  | loadIndicator
  | loadClipped
  | evaluateCadence (lastInteraction now : Nat)
  | clearIndicator
  | clearClipped
  | setTelemetryActive (active : Bool)
  deriving DecidableEq, Repr

/-- A view model as it is built, with a timer at the full rate. -/
def Meters.new : Meters where
  uiPeakL := 0
  uiPeakR := 0
  uiClipped := false
  uiClipIndicator := false
  left := .zero
  right := .zero
  clipActive := false
  telemetryActive := true
  cadence := TELEMETRY_PERIOD_FULL
  timer := some TELEMETRY_PERIOD_FULL
  audio := .idle
  gui := .idle

def Meters.cell (x : Meters) : Channel → F32
  | .left => x.uiPeakL
  | .right => x.uiPeakR

def Meters.meter (x : Meters) : Channel → Ballistics
  | .left => x.left
  | .right => x.right

/-- No interaction within the last idle window. -/
def isIdle (lastInteraction now : Nat) : Bool :=
  lastInteraction = UI_NO_INTERACTION || TELEMETRY_LOW_CADENCE_IDLE ≤ now - lastInteraction

/-- The cadence for the next interval. -/
def Meters.targetCadence (x : Meters) (rawL rawR : F32) (lastInteraction now : Nat) : Nat :=
  let silent := lt rawL SILENCE_PEAK_AMP && lt rawR SILENCE_PEAK_AMP && x.left.silent &&
    x.right.silent
  if isIdle lastInteraction now && silent then TELEMETRY_PERIOD_LOW else TELEMETRY_PERIOD_FULL

/-- `evaluate_cadence`, and the timer armed anew where the cadence changes. -/
def Meters.evaluateCadence (x : Meters) (rawL rawR : F32) (lastInteraction now : Nat) : Meters :=
  let target := x.targetCadence rawL rawR lastInteraction now
  if target ≠ x.cadence then
    { x with
      cadence := target
      timer := if x.telemetryActive then some target else x.timer
      gui := .idle }
  else { x with gui := .idle }

/-- `apply_telemetry_active` -/
def Meters.applyTelemetryActive (x : Meters) (active : Bool) : Meters :=
  { x with
    telemetryActive := active
    timer := if active then some x.cadence else none }

/-- One atomic access; the other thread may be anywhere. -/
def Meters.step (x : Meters) : Access → Option Meters
  | .storeLeft peakL peakR =>
    match x.audio with
    | .idle => some { x with
        uiPeakL := fetchMax x.uiPeakL (safePeak peakL)
        audio := .storedLeft peakL peakR }
    | _ => none
  | .storeRight =>
    match x.audio with
    | .storedLeft peakL peakR => some { x with
        uiPeakR := fetchMax x.uiPeakR (safePeak peakR)
        audio := if lt f1 peakL || lt f1 peakR then .storedBoth else .idle }
    | _ => none
  | .clipInput =>
    match x.audio with
    | .idle => some { x with uiClipped := true, audio := .clipped }
    | _ => none
  | .setClipped =>
    match x.audio with
    | .storedBoth => some { x with uiClipped := true, audio := .clipped }
    | _ => none
  | .setIndicator =>
    match x.audio with
    | .clipped => some { x with uiClipIndicator := true, audio := .idle }
    | _ => none
  | .swapLeft =>
    match x.gui with
    | .idle => some { x with uiPeakL := 0, gui := .collectedLeft x.uiPeakL }
    | _ => none
  | .swapRight =>
    match x.gui with
    | .collectedLeft rawL => some { x with
        uiPeakR := 0
        left := x.left.tick rawL
        right := x.right.tick x.uiPeakR
        gui := .collected rawL x.uiPeakR }
    | _ => none
  | .loadIndicator =>
    match x.gui with
    | .collected rawL rawR =>
      if x.uiClipIndicator then some { x with clipActive := true, gui := .shown rawL rawR }
      else some { x with gui := .unlit rawL rawR }
    | _ => none
  | .loadClipped =>
    match x.gui with
    | .unlit rawL rawR => some { x with clipActive := x.uiClipped, gui := .shown rawL rawR }
    | _ => none
  | .evaluateCadence lastInteraction now =>
    match x.gui with
    | .shown rawL rawR => some (x.evaluateCadence rawL rawR lastInteraction now)
    | _ => none
  | .clearIndicator =>
    match x.gui with
    | .idle => some { x with uiClipIndicator := false, gui := .resetting }
    | _ => none
  | .clearClipped =>
    match x.gui with
    | .resetting => some { x with uiClipped := false, clipActive := false, gui := .idle }
    | _ => none
  | .setTelemetryActive active =>
    match x.gui with
    | .idle => some (x.applyTelemetryActive active)
    | _ => none

end NamPlug.Gui
