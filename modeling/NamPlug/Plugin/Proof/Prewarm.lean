import NamPlug.Plugin.Proof.Process
import NamPlug.Plugin.Proof.Twins

/-!
# No wet block before the models are stable

The window of `process` is armed by a reset and by a containment, and is ended by a command that
brings a model and by the convergence of both channels. A slimmed model comes alone and leaves it as
it is. `Stabilizes`: while the pass of an installed model is outstanding, the window is armed. No
step breaks it, so that the block of a callback that is not held meets stable models only
(`wet_stable`).
-/

namespace NamPlug

open Machine

/-- A right model is installed beside a left one only. -/
def Paired (l r : Option StaticModel) : Prop := r.isSome = true → l.isSome = true

theorem Twins.paired {l r : Option StaticModel} (h : Twins l r) : Paired l r := by
  intro hr
  obtain ⟨m, hm⟩ := Option.isSome_iff_exists.1 hr
  obtain ⟨n, hn, -⟩ := h m hm
  exact Option.isSome_of_eq_some hn

/-- The pass of one of these models is outstanding. -/
def Rendering.Unstable (r : Rendering) (modelL modelR : Option StaticModel) : Prop :=
  (r.stabilizingL = true ∧ modelL.isSome = true) ∨ (r.stabilizingR = true ∧ modelR.isSome = true)

instance (r : Rendering) (modelL modelR : Option StaticModel) :
    Decidable (r.Unstable modelL modelR) :=
  inferInstanceAs (Decidable (_ ∨ _))

/-- The window is armed as long as a pass is outstanding. -/
def Stabilizes (r : Rendering) (modelL modelR : Option StaticModel) : Prop :=
  r.Unstable modelL modelR → r.prewarmPending = true

theorem Rendering.Unstable.of_eq {r r' : Rendering} {modelL modelR : Option StaticModel}
    (h : r.Unstable modelL modelR) (hl : r'.stabilizingL = r.stabilizingL)
    (hr : r'.stabilizingR = r.stabilizingR) : r'.Unstable modelL modelR := by
  unfold Rendering.Unstable
  rw [hl, hr]
  exact h

theorem Stabilizes.of_eq {r r' : Rendering} {modelL modelR : Option StaticModel}
    (h : Stabilizes r modelL modelR) (hl : r'.stabilizingL = r.stabilizingL)
    (hr : r'.stabilizingR = r.stabilizingR) (hp : r'.prewarmPending = r.prewarmPending) :
    Stabilizes r' modelL modelR := by
  intro hu
  rw [hp]
  exact h (hu.of_eq hl.symm hr.symm)

/-- Nothing is outstanding. -/
theorem stabilizes_stable {r : Rendering} {modelL modelR : Option StaticModel}
    (hl : r.stabilizingL = false) (hr : r.stabilizingR = false) : Stabilizes r modelL modelR := by
  rintro (⟨h, -⟩ | ⟨h, -⟩)
  · rw [hl] at h
    cases h
  · rw [hr] at h
    cases h

/-! ## The block -/

theorem prewarmReset_stabilizes (r : Rendering) (p : Processor) :
    Stabilizes (r.prewarmReset p) p.modelL p.modelR := by
  unfold Rendering.prewarmReset
  rintro (⟨-, hl⟩ | ⟨-, hr⟩)
  · simp [hl]
  · simp [hr]

/-- The window ends with the passes of both models, and is left armed while one is outstanding. -/
theorem prewarmStep_stabilizes {r : Rendering} {p : Processor} (c : DspCall)
    (hpair : Paired p.modelL p.modelR) (h : Stabilizes r p.modelL p.modelR) :
    Stabilizes (r.prewarmStep p c).1 p.modelL p.modelR ∧
      ((r.prewarmStep p c).2 = false → ¬(r.prewarmStep p c).1.Unstable p.modelL p.modelR) := by
  unfold Rendering.prewarmStep
  by_cases hp : r.prewarmPending = true
  · rw [if_pos hp]
    by_cases hl : p.modelL.isSome = true
    · rw [if_pos hl]
      dsimp only
      split
      · exact ⟨fun _ => hp, fun hw => by cases hw⟩
      · rename_i hdone
        rw [Bool.or_eq_true, not_or] at hdone
        have hstable : ¬Rendering.Unstable { r with
            prewarmPending := false
            stabilizingL := r.stabilizingL && !c.convergesL
            stabilizingR := r.stabilizingR && !(p.modelR.isSome && c.convergesR) }
            p.modelL p.modelR := by
          rintro (⟨h1, -⟩ | ⟨h1, h2⟩)
          · exact hdone.1 h1
          · exact hdone.2 (Bool.and_eq_true_iff.2 ⟨h2, h1⟩)
        exact ⟨fun hu => absurd hu hstable, fun _ => hstable⟩
    · -- no left model, and so no right one
      rw [if_neg hl]
      have hstable : ¬Rendering.Unstable { r with prewarmPending := false } p.modelL p.modelR := by
        rintro (⟨-, h2⟩ | ⟨-, h2⟩)
        · exact hl h2
        · exact hl (hpair h2)
      exact ⟨fun hu => absurd hu hstable, fun _ => hstable⟩
  · rw [if_neg hp]
    exact ⟨h, fun _ hu => hp (h hu)⟩

/-- What a block leaves of the models and of their window. -/
theorem BlockState.rendered_stabilizes {b : BlockState} {s : Shared} {p : Processor} {r : Rendering}
    (h : Stabilizes r p.modelL p.modelR) :
    Stabilizes (b.rendered s p r).rendering (b.rendered s p r).proc.modelL
      (b.rendered s p r).proc.modelR :=
  h.of_eq rfl rfl rfl

section
variable (E : Engine) (gate : GateCache)

theorem wetBlock_rendered {s : Shared} {p : Processor} {r : Rendering} {c : DspCall} {q : Rendered}
    (h : wetBlock E s p r c = some q) : ∃ b : BlockState, q = b.rendered s p r := by
  unfold wetBlock at h
  split at h
  · exact ⟨_, (Option.some.inj h).symm⟩
  · obtain ⟨b, -, hb⟩ := Option.map_eq_some_iff.1 h
    exact ⟨b, hb.symm⟩

/-! ## Commands -/

/-- The commands of a step bring their models stabilized, and end the window for them. -/
theorem installedAll_stabilizes (hostRate : Nat) (cs : List ClapParamPayload) (r : Rendering)
    (k : Chain) (h : Stabilizes r k.modelL k.modelR) :
    Stabilizes (r.installedAll cs)
      ((cs.map ChainOp.command).foldl (Chain.apply E hostRate) k).modelL
      ((cs.map ChainOp.command).foldl (Chain.apply E hostRate) k).modelR := by
  induction cs generalizing r k with
  | nil => exact h
  | cons c cs ih =>
    have hstep : Stabilizes (r.installed c) (k.install E hostRate c).modelL
        (k.install E hostRate c).modelR := by
      unfold Rendering.installed
      obtain ⟨m, hm, -⟩ | ⟨hm, hl, hr, -⟩ := Chain.install_model E hostRate k c
      · rw [hm]
        exact stabilizes_stable rfl rfl
      · rw [hm, hl, hr]
        exact h
    exact ih _ _ hstep

/-- A step of the audio thread. -/
theorem audioStep_stabilizes {x y : Plugin} {p : Processor} {a : AudioAction} {r : Rendering}
    {q : Shared × Processor} (hp : x.proc = some p) (h : audioStep E x.shared p a = some q)
    (hr : Stabilizes r p.modelL p.modelR) :
    Stabilizes (r.after gate x y (.audio a)) q.2.modelL q.2.modelR := by
  have hchain := audioStep_chain E h
  obtain ⟨k, hk, hkl, hkr⟩ : ∃ k : Chain, k = p.chain x.shared ∧ k.modelL = p.modelL ∧
      k.modelR = p.modelR := ⟨_, rfl, rfl, rfl⟩
  rw [← hk] at hchain
  rw [← hkl, ← hkr] at hr
  show Stabilizes _ (q.2.chain q.1).modelL (q.2.chain q.1).modelR
  rw [hchain]
  simp only [Rendering.after, hp]
  cases a with
  | beginEvents room => exact installedAll_stabilizes E _ _ _ _ hr
  | drain m =>
    cases m with
    | installDeferred =>
      simp only [audioOps, Option.toList_map]
      exact installedAll_stabilizes E _ _ _ _ hr
    | installCandidate =>
      simp only [audioOps, Option.toList_map]
      exact installedAll_stabilizes E _ _ _ _ hr
    | _ => exact hr
  | slimmable m =>
    cases m with
    | install =>
      -- the left model is a stable one; the window is still armed for the right one
      cases hd : p.slim.deferred with
      | none =>
        simp only [audioOps, hd]
        rintro (⟨hl, -⟩ | hright)
        · cases hl
        · exact hr (.inr hright)
      | some m =>
        simp only [audioOps, hd]
        rintro (⟨hl, -⟩ | hright)
        · cases hl
        · exact hr (.inr hright)
    | _ => exact hr
  | reset =>
    show Stabilizes _ k.modelL k.modelR
    rw [hkl, hkr]
    exact (prewarmReset_stabilizes r p).of_eq rfl rfl rfl
  | _ => exact hr

/-! ## Runs -/

/-- The installed models are paired, and while a pass is outstanding the window is armed. -/
structure PrewarmInv (x : Session) : Prop where
  pair : PairInv twinCarriage Paired x.plugin
  window : ∀ p, x.plugin.proc = some p → Stabilizes x.rendering p.modelL p.modelR

theorem pairInv_step {x y : Plugin} {a : Action} (hx : PairInv twinCarriage Paired x)
    (h : step E x a = some y) : PairInv twinCarriage Paired y :=
  hx.step E Twins.paired id (fun _ _ _ _ _ _ => rfl) h

/-- The plugin of a block keeps its models, and everything off the processor. -/
theorem PrewarmInv.rendered {x : Session} {p : Processor} {b : BlockState} {r : Rendering}
    {nonFinite : Bool} {n : Nat} (hx : PrewarmInv x) (hp : x.plugin.proc = some p)
    (hr : Stabilizes r p.modelL p.modelR) :
    PrewarmInv (.rendered nonFinite n (b.rendered x.plugin.shared p r)) where
  pair := by
    have hcarried := hx.pair.carried
    have hproc := hcarried.proc p hp
    refine ⟨⟨hcarried.shared.of_eq rfl rfl rfl rfl rfl rfl rfl, ?_⟩, ?_, hx.pair.deactivated⟩
    · rintro q ⟨⟩
      exact ⟨hproc.recovered, hproc.deferred, hproc.candidate⟩
    · rintro q ⟨⟩
      exact hx.pair.proc p hp
  window := by
    rintro q ⟨⟩
    exact BlockState.rendered_stabilizes hr

/-- A step of an instance. -/
theorem step_stabilizes {x y : Plugin} {a : Action} {r : Rendering} (h : step E x a = some y)
    (hr : ∀ p, x.proc = some p → Stabilizes r p.modelL p.modelR) :
    ∀ q, y.proc = some q → Stabilizes (r.after gate x y a) q.modelL q.modelR := by
  intro q hq
  cases a with
  | main a =>
    obtain rfl := Option.some.inj h
    exact hr q hq
  | audio a =>
    obtain ⟨p, hp, h⟩ := Option.bind_eq_some_iff.1 h
    obtain ⟨t, ht, rfl⟩ := Option.map_eq_some_iff.1 h
    obtain rfl := Option.some.inj hq
    exact audioStep_stabilizes E gate hp ht (hr p hp)
  | activate cfg faults =>
    -- the drain of the activation completes both passes
    simp only [Rendering.after, hq]
    exact stabilizes_stable rfl rfl
  | deactivate =>
    simp only [step] at h
    split at h
    · split_ifs at h
      obtain rfl := Option.some.inj h
      cases hq
    · cases h

theorem PrewarmInv.step {x y : Session} {a : SessionAction} (hx : PrewarmInv x)
    (h : sessionStep E gate x a = some y) : PrewarmInv y := by
  cases sessionStep_spec E gate h with
  | step he hd k => exact ⟨pairInv_step E hx.pair k, step_stabilizes E gate k hx.window⟩
  | @block c p y hp hd h =>
    have hpair := hx.pair.proc p hp
    obtain ⟨hwindow, -⟩ := prewarmStep_stabilizes c hpair (hx.window p hp)
    cases h with
    | held hw => exact hx.rendered hp hwindow
    | contained hw hn => exact hx.rendered hp (prewarmReset_stabilizes _ p)
    | wet hw hn hr =>
      obtain ⟨b, rfl⟩ := wetBlock_rendered E hr
      exact hx.rendered hp hwindow

theorem PrewarmInv.init : PrewarmInv (.init E gate) :=
  ⟨PairInv.init E, fun _ h => (by cases h)⟩

/-- In every run, the window is armed while the pass of an installed model is outstanding, and a
block that is not held meets stable models. -/
theorem wet_stable {as : List SessionAction} {x : Session}
    (h : run (sessionStep E gate) (.init E gate) as = some x) {p : Processor}
    (hp : x.plugin.proc = some p) :
    Stabilizes x.rendering p.modelL p.modelR ∧ ∀ c, x.holds p c = false →
      ¬(x.rendering.prewarmStep p c).1.Unstable p.modelL p.modelR := by
  have hx : PrewarmInv x :=
    run_always (fun _ _ _ hI h => hI.step E gate h) (PrewarmInv.init E gate) h
  refine ⟨hx.window p hp, fun c hc => ?_⟩
  obtain ⟨hw, -⟩ := Bool.or_eq_false_iff.1 hc
  exact (prewarmStep_stabilizes c (hx.pair.proc p hp) (hx.window p hp)).2 hw

end

/-! ## A run of the reference engine -/

/-- A stereo model is installed, and the plugin is reset; the budget of the block that follows
completes the left pass alone. -/
def refHeld : List SessionAction :=
  [.main (.loadModel { refWide "one.nam" with stereo := true } noFaults), refActivate,
    .audio (.beginEvents 0), .audio (.drain .popCandidate), .audio (.drain .installCandidate),
    .audio .endEvents].map .step ++ [.block (refCall []), .step (.audio .reset)] ++
    refProcess { refCall [] with convergesR := false } ++
    [.step (.audio (.beginEvents 0)), .step (.audio .endEvents)]

/-- The block is held for the right model alone; and once a budget completes it, the block is wet. -/
theorem wet_stable_stereo :
    ∃ x p, run (sessionStep refEngine refGate) (.init refEngine refGate) refHeld = some x ∧
      x.plugin.proc = some p ∧ x.rendering.Unstable p.modelL p.modelR ∧
      x.rendering.prewarmPending = true ∧ x.holds p (refCall []) = false ∧
      ¬(x.rendering.prewarmStep p (refCall [])).1.Unstable p.modelL p.modelR := by
  have hsome : (run (sessionStep refEngine refGate) (.init refEngine refGate) refHeld).map
      (fun x => x.plugin.proc.map fun p => (decide (x.rendering.Unstable p.modelL p.modelR),
        x.holds p (refCall []))) = some (some (true, false)) := by decide +kernel
  obtain ⟨x, hx, hval⟩ := Option.map_eq_some_iff.1 hsome
  obtain ⟨p, hp, hval⟩ := Option.map_eq_some_iff.1 hval
  simp only [Prod.mk.injEq] at hval
  have hunstable := of_decide_eq_true hval.1
  obtain ⟨harmed, hwet⟩ := wet_stable refEngine refGate hx hp
  exact ⟨x, p, hx, hp, hunstable, harmed hunstable, hval.2, hwet _ hval.2⟩

end NamPlug
