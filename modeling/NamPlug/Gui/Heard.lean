import NamPlug.Gui.Meters

/-!
# What a meter hears

The abstract meter of one channel. The peaks stored between one collection and the next are those a
tick hears; a meter is what the ticks so far make of the loudest peak of each. Nothing is said here of
cells, threads or the order of accesses within a tick.
-/

namespace NamPlug.Gui

open Binary32 Machine

/-- What an access to a peak cell does to it. -/
inductive Sound where
  | stored (c : Channel) (peak : F32)
  | collected (c : Channel)
  deriving DecidableEq, Repr

/-- The store of the right peak that is due. -/
def AudioAt.due : AudioAt → List Sound
  | .storedLeft _ peakR => [.stored .right peakR]
  | _ => []

/-- The accesses to the peak cells, with the peak as it was measured. -/
def sounds (x : Meters) : Access → List Sound
  | .storeLeft peakL _ => [.stored .left peakL]
  | .storeRight => x.audio.due
  | .swapLeft => [.collected .left]
  | .swapRight => [.collected .right]
  | _ => []

def Sound.peak (c : Channel) : Sound → Option F32
  | .stored d peak => if d = c then some peak else none
  | .collected _ => none

/-- The peaks each tick heard, and those since the last. -/
structure Heard where
  ticks : List (List F32)
  since : List F32
  deriving DecidableEq, Repr

def Heard.hear (c : Channel) (h : Heard) : Sound → Heard
  | .stored d peak => if d = c then { h with since := h.since ++ [peak] } else h
  | .collected d => if d = c then ⟨h.ticks ++ [h.since], []⟩ else h

/-- The loudest of some peaks; silence where there is none. -/
def loudest (peaks : List F32) : F32 := peaks.foldl (fun m peak => fetchMax m (safePeak peak)) 0

/-- The meter after some ticks. -/
def shownAfter (ticks : List (List F32)) : Ballistics :=
  ticks.foldl (fun b peaks => b.tick (loudest peaks)) .zero

/-- `f32::INFINITY` -/
def INFINITY : F32 := 0x7F800000#32

/-- The hold time, and the ticks that take the largest finite level below the silence threshold. -/
def restingTicks : Nat := PEAK_HOLD_FRAMES + 2640

/-- The accesses of a run to the peak cells. -/
def soundsOf (as : List Access) : List Sound := emitted Meters.step sounds .new as

/-- The peaks a run stored in a channel, in order. -/
def peaksStored (c : Channel) (as : List Access) : List F32 := (soundsOf as).filterMap (Sound.peak c)

/-- What the ticks of a run heard on a channel. -/
def heard (c : Channel) (as : List Access) : Heard := (soundsOf as).foldl (Heard.hear c) ⟨[], []⟩

end NamPlug.Gui
