import NamPlug.Dsp.Proof.Block
import NamPlug.Dsp.Proof.Keeps
import NamPlug.Plugin.Process

/-!
# What a step of a session does

`Sessions E gate x a y`: the step is one of the instance, or the block of a callback. `Renders` takes
the block apart: it is held in the stabilization window, contained after a sample that is not finite,
or wet. `processBlock_total` says that every block ends.
-/

namespace NamPlug

section
variable (E : Engine) (gate : GateCache)

/-- What is left of a session after a block. -/
def Session.rendered (nonFinite : Bool) (restarts : Nat) (r : Rendered) : Session :=
  ⟨⟨r.shared, some r.proc⟩, r.rendering, false, nonFinite, restarts + r.restart.toNat⟩

/-- Whether the block is held on the dry path. -/
def Session.holds (x : Session) (p : Processor) (c : DspCall) : Bool :=
  (x.rendering.prewarmStep p c).2 || x.nonFinite

/-- The block of a callback. -/
inductive Renders (x : Session) (p : Processor) (c : DspCall) : Session → Prop where
  | held (hw : (x.rendering.prewarmStep p c).2 = true) :
    Renders x p c (.rendered x.nonFinite x.restarts
      (dryContainedBlock E x.plugin.shared p (x.rendering.prewarmStep p c).1 c))
  | contained (hw : (x.rendering.prewarmStep p c).2 = false) (hn : x.nonFinite = true) :
    Renders x p c (.rendered false x.restarts (dryContainedBlock E x.plugin.shared p
      ((x.rendering.prewarmStep p c).1.prewarmReset p) c))
  | wet {r} (hw : (x.rendering.prewarmStep p c).2 = false) (hn : x.nonFinite = false)
    (hr : wetBlock E x.plugin.shared p (x.rendering.prewarmStep p c).1 c = some r) :
    Renders x p c (.rendered c.nonFinite x.restarts r)

theorem processBlock_spec {x : Session} {p : Processor} {c : DspCall} {y : Session}
    (h : processBlock E x p c = some y) : Renders E x p c y := by
  unfold processBlock at h
  dsimp only at h
  split at h
  · rename_i hw
    exact Option.some.inj h ▸ .held hw
  · rename_i hw
    rw [Bool.not_eq_true] at hw
    split at h
    · rename_i hn
      exact Option.some.inj h ▸ .contained hw hn
    · rename_i hn
      rw [Bool.not_eq_true] at hn
      obtain ⟨r, hr, rfl⟩ := Option.map_eq_some_iff.1 h
      exact .wet hw hn hr

/-- A step of a session. -/
inductive Sessions (x : Session) : SessionAction → Session → Prop where
  | step {a y} (he : ∀ es, a ≠ .audio (.hostEvents es))
    (hd : x.dspDue = true → a.awaitsBlock = false) (h : step E x.plugin a = some y) :
    Sessions x (.step a)
      { x with
        plugin := y
        rendering := x.rendering.after gate x.plugin y a
        dspDue := x.dspDue || (match a with | .audio .endEvents => true | _ => false) }
  | block {c p y} (hp : x.plugin.proc = some p) (hd : x.dspDue = true)
    (h : Renders E x p c y) : Sessions x (.block c) y

theorem sessionStep_spec {x y : Session} {a : SessionAction}
    (h : sessionStep E gate x a = some y) : Sessions E gate x a y := by
  cases a with
  | step a =>
    unfold sessionStep at h
    split at h
    · cases h
    · rename_i b hb hab
      obtain rfl : a = b := SessionAction.step.inj hab
      split_ifs at h with hd
      obtain ⟨z, hz, rfl⟩ := Option.map_eq_some_iff.1 h
      refine .step (fun es he => hb es he) (fun hx => ?_) hz
      simpa [hx] using hd
    · rename_i hab
      cases hab
  | block c =>
    simp only [sessionStep] at h
    split at h
    · rename_i p hp
      split_ifs at h with hd
      exact .block hp hd (processBlock_spec E h)
    · cases h

/-- Every block of a plugin that takes samples ends. -/
theorem processBlock_total (x : Session) (p : Processor) (c : DspCall)
    (hsize : 1 ≤ x.plugin.shared.bufferSize) : ∃ y, processBlock E x p c = some y := by
  have hwet : ∀ r : Rendering, ∃ q, wetBlock E x.plugin.shared p r c = some q := by
    intro r
    unfold wetBlock
    split
    · exact ⟨_, rfl⟩
    · rename_i audio hc
      have hlen := scheduleInputEvents_length c.input
      have hfuel : (audio.map (·.frames)).sum + (scheduleInputEvents c.input).events.length <
          blockFuel audio c.input := by
        unfold blockFuel
        omega
      obtain ⟨b, hb⟩ := processDspAudio_total (E := E.toParamEngine) (D := c.dsp) hsize
        (r.block (paramCtx x.plugin.shared p)) hfuel
      rw [hb]
      exact ⟨_, rfl⟩
  unfold processBlock
  dsimp only
  split
  · exact ⟨_, rfl⟩
  · split
    · exact ⟨_, rfl⟩
    · obtain ⟨q, hq⟩ := hwet (x.rendering.prewarmStep p c).1
      rw [hq]
      exact ⟨_, rfl⟩

end

/-! ## Reference calls -/

def refGate : GateCache := ⟨f0, f0⟩

/-- A block of 64 samples. -/
def refCall (input : List InputEvent) : DspCall :=
  ⟨refDspEngine, some [⟨64, true⟩], input, true, true, false⟩

/-- A callback that drains nothing. -/
def refProcess (c : DspCall) : List SessionAction :=
  [.step (.audio (.beginEvents 0)), .step (.audio .endEvents), .block c]

end NamPlug
