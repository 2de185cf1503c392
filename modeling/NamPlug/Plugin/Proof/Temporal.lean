import NamPlug.Plugin.Proof.Prewarm
import NamPlug.Plugin.Proof.Targets
import NamPlug.Plugin.Temporal

/-!
# The first wet block after a containment

`reset` clears every part of the wet chain (`mem_resetParts`), the containment the models alone, and
neither is the last to touch the chain before the wet block: the telemetry of the held blocks moves
the adaptive controller, and an event retargets the smoothers. `Rested` is what a window keeps:
every installed part is fresh, or is a model whose pass is outstanding, and the smoothers stand at
the gains of its beginning. `KeepsFresh` says of the state before a step when it does not break
this, and `first_wet_fresh` that the first wet block then finds the state of a fresh processor.
-/

namespace NamPlug

open Binary32 Machine

/-! ## Parts -/

theorem mem_models {p : Processor} {x : WetPart} :
    x ∈ p.models ↔ x.isModel = true ∧ p.has x = true := by
  cases x <;> simp [Processor.models, Processor.has, WetPart.isModel]

theorem mem_outstanding {r : Rendering} {x : WetPart} : x ∈ r.outstanding ↔
    (x = .modelL ∧ r.stabilizingL = true) ∨ (x = .modelR ∧ r.stabilizingR = true) := by
  cases x <;> simp [Rendering.outstanding]

theorem isModel_of_outstanding {r : Rendering} {x : WetPart} (h : x ∈ r.outstanding) :
    x.isModel = true := by
  obtain ⟨rfl, -⟩ | ⟨rfl, -⟩ := mem_outstanding.1 h <;> rfl

/-- The list of `reset` has every installed part that is no model, and no model. -/
theorem mem_resetParts {p : Processor} {x : WetPart} (hp : p.has x = true) :
    x ∈ p.resetParts ↔ x.isModel = false := by
  cases x <;> simp_all [Processor.resetParts, Processor.has, WetPart.isModel]

/-- A stable rendering has no pass outstanding for an installed model. -/
theorem not_outstanding {r : Rendering} {p : Processor} {x : WetPart}
    (h : ¬r.Unstable p.modelL p.modelR) (hp : p.has x = true) : x ∉ r.outstanding := by
  intro hx
  obtain ⟨rfl, hr⟩ | ⟨rfl, hr⟩ := mem_outstanding.1 hx
  · exact h (.inl ⟨hr, hp⟩)
  · exact h (.inr ⟨hr, hp⟩)

/-- `prewarm_reset` leaves the passes of the installed models outstanding. -/
theorem outstanding_prewarmReset (r : Rendering) {p : Processor} {x : WetPart}
    (hp : p.has x = true) : x ∈ (r.prewarmReset p).outstanding ↔ x.isModel = true := by
  refine ⟨isModel_of_outstanding, fun hx => mem_outstanding.2 ?_⟩
  cases x with
  | modelL => exact .inl ⟨rfl, by simpa [Rendering.prewarmReset] using .inr hp⟩
  | modelR => exact .inr ⟨rfl, by simpa [Rendering.prewarmReset] using .inr hp⟩
  | _ => cases hx

/-- The budget of a callback begins no pass. -/
theorem outstanding_prewarmStep {r : Rendering} {p : Processor} {c : DspCall} {x : WetPart}
    (h : x ∈ (r.prewarmStep p c).1.outstanding) : x ∈ r.outstanding := by
  rw [mem_outstanding] at h ⊢
  unfold Rendering.prewarmStep at h
  split at h
  · split at h
    · dsimp only at h
      split at h <;> simp only [Bool.and_eq_true] at h <;> tauto
    · exact h
  · exact h

/-! ## Rest -/

section
variable {W : WetEngine} {E : Engine}

/-- What a window keeps of the temporal state. -/
structure Rested (W : WetEngine) (E : Engine) (v : Window) (t : WetState W.State) (r : Rendering)
    (p : Processor) : Prop where
  pending : ∀ x, p.has x = true → x ∈ r.outstanding → ∃ s, t.part x = W.prewarmReset x s
  fresh : ∀ x, p.has x = true → x ∉ r.outstanding → t.part x = W.fresh x
  currentIn : t.currentIn = E.dbToLinear v.inputGainDb
  currentOut : t.currentOut = E.dbToLinear v.outputGainDb

/-- The smoothers aim at the gains where no modulation makes a difference. -/
theorem AtGains.unmodulated (hlut : ∀ x, E.dbToLinear (add x f0) = E.dbToLinear x)
    {r : RtParamState} (h : AtGains E.toParamEngine r) (hm : Unmodulated E.toParamEngine r) :
    r.smootherIn = E.dbToLinear r.params.inputGainDb ∧
      r.smootherOut = E.dbToLinear r.params.outputGainDb :=
  ⟨(h.input.trans hm.input).trans (hlut _), (h.output.trans hm.output).trans (hlut _)⟩

namespace Rested
variable {v : Window} {t : WetState W.State} {r : Rendering} {p : Processor}

theorem reset (hW : W.Restores) (hlut : ∀ x, E.dbToLinear (add x f0) = E.dbToLinear x)
    (h : AtGains E.toParamEngine p.rt) (hm : Unmodulated E.toParamEngine p.rt)
    (t : WetState W.State) (r : Rendering) :
    Rested W E (.opened p) (t.reset W p) (r.prewarmReset p) p where
  pending x hp hx := by
    have hmodel := (outstanding_prewarmReset r hp).1 hx
    refine ⟨t.part x, ?_⟩
    show ite (x ∈ p.resetParts) _ (ite (x ∈ p.models) _ _) = _
    rw [if_neg (by rw [mem_resetParts hp, hmodel]; simp), if_pos (mem_models.2 ⟨hmodel, hp⟩)]
  fresh x hp hx := by
    have hmodel : x.isModel = false := by
      rw [outstanding_prewarmReset r hp] at hx
      simpa using hx
    show ite (x ∈ p.resetParts) _ (ite (x ∈ p.models) _ _) = _
    rw [if_pos ((mem_resetParts hp).2 hmodel), hW.reset]
  currentIn := (h.unmodulated hlut hm).1
  currentOut := (h.unmodulated hlut hm).2

theorem contained (hlut : ∀ x, E.dbToLinear (add x f0) = E.dbToLinear x)
    (h : AtGains E.toParamEngine p.rt) (hm : Unmodulated E.toParamEngine p.rt)
    (hfresh : ∀ x, p.has x = true → x.isModel = false → t.part x = W.fresh x) (r : Rendering) :
    Rested W E (.opened p) (t.contained W p) (r.prewarmReset p) p where
  pending x hp hx := by
    refine ⟨t.part x, ?_⟩
    show ite (x ∈ p.models) _ _ = _
    rw [if_pos (mem_models.2 ⟨(outstanding_prewarmReset r hp).1 hx, hp⟩)]
  fresh x hp hx := by
    have hmodel : x.isModel = false := by
      rw [outstanding_prewarmReset r hp] at hx
      simpa using hx
    show ite (x ∈ p.models) _ _ = _
    rw [if_neg (by rw [mem_models, hmodel]; simp), hfresh x hp hmodel]
  currentIn := (h.unmodulated hlut hm).1
  currentOut := (h.unmodulated hlut hm).2

/-- A pass that is completed leaves its model fresh. -/
theorem prewarmed (hW : W.Restores) (h : Rested W E v t r p) (c : DspCall) :
    Rested W E v (t.prewarmed W r (r.prewarmStep p c).1) (r.prewarmStep p c).1 p where
  pending x hp hx := by
    obtain ⟨s, hs⟩ := h.pending x hp (outstanding_prewarmStep hx)
    refine ⟨s, ?_⟩
    show ite (x ∈ r.outstanding.filter (· ∉ (r.prewarmStep p c).1.outstanding)) _ _ = _
    rw [if_neg (by simp [hx]), hs]
  fresh x hp hx := by
    show ite (x ∈ r.outstanding.filter (· ∉ (r.prewarmStep p c).1.outstanding)) _ _ = _
    by_cases hr : x ∈ r.outstanding
    · obtain ⟨s, hs⟩ := h.pending x hp hr
      rw [if_pos (by simp [hr, hx]), hs, hW.prewarm]
    · rw [if_neg (by simp [hr]), h.fresh x hp hr]
  currentIn := h.currentIn
  currentOut := h.currentOut

/-- Telemetry that leaves a fresh controller as it is. -/
theorem telemetry {c : DspCall} (h : Rested W E v t r p)
    (hc : c.audio.isSome = true → W.telemetry c (W.fresh .adaptive) = W.fresh .adaptive) :
    Rested W E v (t.telemetry W c) r p := by
  unfold WetState.telemetry
  split
  · rename_i haudio
    have hother : ∀ x, x ≠ .adaptive → Function.update t.part .adaptive
        (W.telemetry c (t.part .adaptive)) x = t.part x :=
      fun x hx => Function.update_of_ne hx _ _
    refine ⟨fun x hp hx => ?_, fun x hp hx => ?_, h.currentIn, h.currentOut⟩
    · obtain ⟨s, hs⟩ := h.pending x hp hx
      refine ⟨s, (hother x ?_).trans hs⟩
      rintro rfl
      cases isModel_of_outstanding hx
    · by_cases ha : x = .adaptive
      · subst ha
        dsimp only
        rw [Function.update_self, h.fresh _ hp hx, hc haudio]
      · exact (hother x ha).trans (h.fresh x hp hx)
  · exact h

/-- New parts are fresh, and need no pass. -/
theorem renewed {xs : List WetPart} {r' : Rendering} {q : Processor} (h : Rested W E v t r p)
    (hq : ∀ x, q.has x = true → p.has x = true ∨ x ∈ xs)
    (hr : ∀ x, x ∈ r'.outstanding ↔ x ∈ r.outstanding ∧ x ∉ xs) :
    Rested W E v (t.renew W xs) r' q where
  pending x hx ho := by
    obtain ⟨ho, hxs⟩ := (hr x).1 ho
    obtain ⟨s, hs⟩ := h.pending x ((hq x hx).resolve_right hxs) ho
    refine ⟨s, ?_⟩
    show ite (x ∈ xs) _ _ = _
    rw [if_neg hxs, hs]
  fresh x hx ho := by
    show ite (x ∈ xs) _ _ = _
    by_cases hxs : x ∈ xs
    · rw [if_pos hxs]
    · rw [if_neg hxs, h.fresh x ((hq x hx).resolve_right hxs) fun hr' => ho ((hr x).2 ⟨hr', hxs⟩)]
  currentIn := h.currentIn
  currentOut := h.currentOut

theorem congr {r' : Rendering} {q : Processor} (h : Rested W E v t r p)
    (hq : ∀ x, q.has x = true → p.has x = true) (hr : r'.outstanding = r.outstanding) :
    Rested W E v t r' q :=
  ⟨fun x hx ho => h.pending x (hq x hx) (hr ▸ ho), fun x hx ho => h.fresh x (hq x hx) (hr ▸ ho),
    h.currentIn, h.currentOut⟩

theorem rendered (h : Rested W E v t r p) (b : BlockState) (s : Shared) :
    Rested W E v t (b.rendered s p r).rendering (b.rendered s p r).proc :=
  h.congr (fun x hx => by cases x <;> exact hx) rfl

/-- At rest and stable, with the gains of the beginning and no modulation, all is fresh. -/
theorem temporal_fresh (hlut : ∀ x, E.dbToLinear (add x f0) = E.dbToLinear x)
    (h : Rested W E v t r p) (hstable : ¬r.Unstable p.modelL p.modelR)
    (hat : AtGains E.toParamEngine p.rt) (hm : Unmodulated E.toParamEngine p.rt)
    (hin : E.dbToLinear v.inputGainDb = E.dbToLinear p.rt.params.inputGainDb)
    (hout : E.dbToLinear v.outputGainDb = E.dbToLinear p.rt.params.outputGainDb) :
    p.temporal W t = .fresh W E p := by
  obtain ⟨htin, htout⟩ := hat.unmodulated hlut hm
  unfold Processor.temporal Temporal.fresh
  rw [h.currentIn, h.currentOut, htin, htout, hin, hout]
  congr 1
  funext x
  by_cases hp : p.has x = true
  · rw [if_pos hp, if_pos hp, h.fresh x hp (not_outstanding hstable hp)]
  · rw [if_neg hp, if_neg hp]

end Rested

end

/-! ## What the steps of a window replace -/

/-- What is not structural brings a left model at most. -/
theorem apply_has (E : Engine) (hostRate : Nat) {op : ChainOp} (h : op.isStructural = false)
    (k : Chain) :
    (k.apply E hostRate op).modelR = k.modelR ∧ (k.apply E hostRate op).cabsimPair = k.cabsimPair ∧
      ((k.apply E hostRate op).modelL = k.modelL ∨ .modelL ∈ op.replaces hostRate) := by
  cases op with
  | command c =>
    cases c with
    | params q => exact ⟨rfl, rfl, .inl rfl⟩
    | _ => cases h
  | slimmable r => exact ⟨rfl, rfl, .inr (.head _)⟩
  | request ch => exact ⟨rfl, rfl, .inl rfl⟩
  | reset => exact ⟨rfl, rfl, .inl rfl⟩

theorem foldl_apply_has (E : Engine) (hostRate : Nat) :
    ∀ {ops : List ChainOp}, ops.any (·.isStructural) = false → ∀ k : Chain,
      (ops.foldl (Chain.apply E hostRate) k).modelR = k.modelR ∧
        (ops.foldl (Chain.apply E hostRate) k).cabsimPair = k.cabsimPair ∧
        ((ops.foldl (Chain.apply E hostRate) k).modelL = k.modelL ∨
          .modelL ∈ ops.flatMap (·.replaces hostRate))
  | [], _, _ => ⟨rfl, rfl, .inl rfl⟩
  | op :: ops, h, k => by
    rw [List.any_cons, Bool.or_eq_false_iff] at h
    obtain ⟨hr, hc, hl⟩ := apply_has E hostRate h.1 k
    obtain ⟨hrs, hcs, hls⟩ := foldl_apply_has E hostRate h.2 (k.apply E hostRate op)
    refine ⟨hrs.trans hr, hcs.trans hc, ?_⟩
    rw [List.flatMap_cons, List.mem_append]
    rcases hls with hls | hls
    · exact hl.imp (hls.trans ·) .inl
    · exact .inr (.inr hls)

/-- Without a structural command the parts stay installed, and only new ones come. -/
theorem audioStep_has {E : Engine} {s : Shared} {p : Processor} {a : AudioAction}
    {q : Shared × Processor} (h : audioStep E s p a = some q)
    (hops : (audioOps p a).any (·.isStructural) = false) {x : WetPart} (hx : q.2.has x = true) :
    p.has x = true ∨ x ∈ (audioOps p a).flatMap (·.replaces s.sampleRate) := by
  obtain ⟨hr, hc, hl⟩ := foldl_apply_has E s.sampleRate hops (p.chain s)
  rw [← audioStep_chain E h] at hr hc hl
  have hr : q.2.modelR = p.modelR := hr
  have hc : q.2.cabsimPair = p.cabsimPair := hc
  cases x with
  | modelL =>
    refine hl.imp_left fun (hl : q.2.modelL = p.modelL) => ?_
    show p.modelL.isSome = true
    rwa [← hl]
  | modelR =>
    left
    show p.modelR.isSome = true
    rwa [← hr]
  | cabL =>
    left
    show p.cabsimPair.isSome = true
    rwa [← hc]
  | cabR =>
    left
    show p.cabsimPair.isSome = true
    rwa [← hc]
  | _ => exact .inl rfl

/-- Light commands replace nothing, and leave the passes as they are. -/
theorem light_commands {cs : List ClapParamPayload} (hostRate : Nat) (r : Rendering)
    (h : (cs.map ChainOp.command).any (·.isStructural) = false) :
    r.installedAll cs = r ∧ (cs.map ChainOp.command).flatMap (·.replaces hostRate) = [] := by
  induction cs generalizing r with
  | nil => exact ⟨rfl, rfl⟩
  | cons c cs ih =>
    rw [List.map_cons, List.any_cons, Bool.or_eq_false_iff] at h
    cases c with
    | params q => exact ih r h.2
    | _ => cases h.1

/-- Without a structural command, the passes that a step ends are those of models it replaces. -/
theorem after_outstanding {E : Engine} {gate : GateCache} {x y : Plugin} {p : Processor}
    {a : AudioAction} {q : Shared × Processor} (hp : x.proc = some p)
    (h : audioStep E x.shared p a = some q) (hops : (audioOps p a).any (·.isStructural) = false)
    (ha : a ≠ .reset) (r : Rendering) (z : WetPart) :
    z ∈ (r.after gate x y (.audio a)).outstanding ↔ z ∈ r.outstanding ∧
      z ∉ (audioOps p a).flatMap (·.replaces x.shared.sampleRate) := by
  have hsame : ∀ {r' : Rendering} {ops : List ChainOp},
      r' = r ∧ ops.flatMap (·.replaces x.shared.sampleRate) = [] →
        (z ∈ r'.outstanding ↔ z ∈ r.outstanding ∧
          z ∉ ops.flatMap (·.replaces x.shared.sampleRate)) := by
    rintro r' ops ⟨rfl, ho⟩
    rw [ho]
    simp
  simp only [Rendering.after, hp]
  cases a with
  | beginEvents room => exact hsame (light_commands _ r hops)
  | drain m =>
    cases m with
    | installDeferred =>
      simp only [audioOps, Option.toList_map] at hops ⊢
      exact hsame (light_commands _ r hops)
    | installCandidate =>
      simp only [audioOps, Option.toList_map] at hops ⊢
      exact hsame (light_commands _ r hops)
    | _ => exact hsame ⟨rfl, rfl⟩
  | slimmable m =>
    cases m with
    | install =>
      -- the left model is new, and stable
      simp only [audioStep] at h
      split_ifs at h
      cases slimmableMove_spec h with
      | install hd hg =>
        simp only [audioOps, hd]
        rw [mem_outstanding, mem_outstanding]
        cases z <;> simp [ChainOp.replaces]
    | _ => exact hsame ⟨rfl, rfl⟩
  | signalSlimmableRebuild ch => exact hsame ⟨rfl, rfl⟩
  | reset => exact absurd rfl ha
  | _ => exact hsame ⟨rfl, rfl⟩

/-! ## Steps -/

section
variable (W : WetEngine) (E : Engine) (gate : GateCache)

/-- The state before a block, for the window it is in: a containment finds nothing in the parts it
does not clear and no modulation, the telemetry of a held block leaves a fresh controller as it is,
and the first wet block comes with the gains of the beginning and no modulation. -/
structure BlockKeepsFresh (w : Heard W) (p : Processor) (c : DspCall) : Prop where
  contained : (w.session.rendering.prewarmStep p c).2 = false → w.session.nonFinite = true →
    (∀ x, p.has x = true → x.isModel = false → w.state.part x = W.fresh x) ∧
      Unmodulated E.toParamEngine p.rt
  held : w.session.holds p c = true → w.window.isSome = true ∨ w.session.nonFinite = true →
    c.audio.isSome = true → W.telemetry c (W.fresh .adaptive) = W.fresh .adaptive
  wet : w.session.holds p c = false → ∀ v ∈ w.window, Unmodulated E.toParamEngine p.rt ∧
    E.dbToLinear v.inputGainDb = E.dbToLinear p.rt.params.inputGainDb ∧
    E.dbToLinear v.outputGainDb = E.dbToLinear p.rt.params.outputGainDb

/-- The state before a step, where the first wet block after it is to be fresh. -/
def KeepsFresh (w : Heard W) : HeardAction → Prop
  | .step (.audio .reset) _ => ∀ p ∈ w.session.plugin.proc, Unmodulated E.toParamEngine p.rt
  | .block c => ∀ p ∈ w.session.plugin.proc, BlockKeepsFresh W E w p c
  | _ => True

/-- The last block, if it was the first wet one of a window, started as on a processor that was just
activated. -/
def Heard.FirstWetFresh (w : Heard W) : Prop :=
  ∀ p t, w.firstWet = some (p, t) → p.temporal W t = .fresh W E p

variable {W E}

theorem Heard.firstWetFresh_none {w : Heard W} (h : w.firstWet = none) : w.FirstWetFresh W E := by
  intro p t ht
  rw [h] at ht
  cases ht

theorem KeepsFresh.resetsUnmodulated {w : Heard W} {a : HeardAction} (h : KeepsFresh W E w a) :
    ResetsUnmodulated E w.session a.action := by
  cases a with
  | block c => trivial
  | step a kept =>
    cases a with
    | audio a => cases a with
      | reset => exact h
      | _ => trivial
    | _ => trivial

/-- The session of a step, and what is known of its window. -/
structure HeardInv (W : WetEngine) (E : Engine) (w : Heard W) : Prop where
  prewarm : PrewarmInv w.session
  gains : w.session.AtGains E
  window : ∀ v, w.window = some v → ∀ p, w.session.plugin.proc = some p →
    Rested W E v w.state w.session.rendering p

variable (hW : W.Restores) (hlut : ∀ x, E.dbToLinear (add x f0) = E.dbToLinear x)

include hlut in
/-- A containment begins a window where the parts it does not clear are fresh. -/
theorem HeardInv.contained {w : Heard W} {p : Processor} {c : DspCall} (hx : HeardInv W E w)
    (hp : w.session.plugin.proc = some p)
    (hfresh : ∀ x, p.has x = true → x.isModel = false → w.state.part x = W.fresh x)
    (hm : Unmodulated E.toParamEngine p.rt) :
    Rested W E (.opened p) (WetState.contained W
      (w.state.prewarmed W w.session.rendering (w.session.rendering.prewarmStep p c).1) p)
      ((w.session.rendering.prewarmStep p c).1.prewarmReset p) p := by
  refine .contained hlut (hx.gains p hp) hm (fun x hx hmodel => ?_) _
  show ite (x ∈ w.session.rendering.outstanding.filter _) _ _ = _
  rw [if_neg, hfresh x hx hmodel]
  intro hmem
  rw [isModel_of_outstanding (List.mem_filter.1 hmem).1] at hmodel
  cases hmodel

include hW hlut

/-- The first wet block of a window starts in the fresh state. -/
theorem HeardInv.wet {w : Heard W} {p : Processor} {c : DspCall} (hx : HeardInv W E w)
    (hp : w.session.plugin.proc = some p) (hG : BlockKeepsFresh W E w p c)
    (hw : (w.session.rendering.prewarmStep p c).2 = false) (hn : w.session.nonFinite = false)
    {v : Window} (hv : w.window = some v) :
    p.temporal W (w.state.prewarmed W w.session.rendering
      (w.session.rendering.prewarmStep p c).1) = .fresh W E p := by
  have hrested := (hx.window v hv p hp).prewarmed hW c
  have hstable := (prewarmStep_stabilizes c (hx.prewarm.pair.proc p hp)
    (hx.prewarm.window p hp)).2 hw
  obtain ⟨hm, hin, hout⟩ := hG.wet (by simp [Session.holds, hw, hn]) v hv
  exact hrested.temporal_fresh hlut hstable (hx.gains p hp) hm hin hout

/-- A block: held blocks keep the window, a containment opens it, and a wet block ends it. -/
theorem HeardInv.block {w : Heard W} {p : Processor} {c : DspCall} {y : Session}
    (hx : HeardInv W E w) (hp : w.session.plugin.proc = some p) (hG : BlockKeepsFresh W E w p c)
    (hy : Renders E w.session p c y) :
    (∀ v, (w.block p c).window = some v → ∀ q, y.plugin.proc = some q →
        Rested W E v (w.block p c).state y.rendering q) ∧ (w.block p c).FirstWetFresh W E := by
  have hpre : ∀ v, w.window = some v → Rested W E v
      (w.state.prewarmed W w.session.rendering (w.session.rendering.prewarmStep p c).1)
      (w.session.rendering.prewarmStep p c).1 p :=
    fun v hv => (hx.window v hv p hp).prewarmed hW c
  unfold Heard.block
  dsimp only
  cases hy with
  | held hw =>
    have hhold : w.session.holds p c = true := by simp [Session.holds, hw]
    rw [if_pos hw]
    refine ⟨?_, Heard.firstWetFresh_none rfl⟩
    rintro v hv q ⟨⟩
    have hv : w.window = some v := hv
    have htel := (hpre v hv).telemetry (hG.held hhold (.inl (Option.isSome_of_eq_some hv)))
    exact htel.rendered _ _
  | contained hw hn =>
    have hhold : w.session.holds p c = true := by simp [Session.holds, hn]
    rw [if_neg (by rw [hw]; exact Bool.false_ne_true), if_pos hn]
    refine ⟨?_, Heard.firstWetFresh_none rfl⟩
    rintro v ⟨⟩ q ⟨⟩
    obtain ⟨hfresh, hm⟩ := hG.contained hw hn
    have htel := (hx.contained (c := c) hlut hp hfresh hm).telemetry (hG.held hhold (.inr hn))
    exact htel.rendered _ _
  | wet hw hn hr =>
    rw [if_neg (by rw [hw]; exact Bool.false_ne_true),
      if_neg (by rw [hn]; exact Bool.false_ne_true)]
    unfold Heard.wet
    dsimp only
    constructor
    · obtain ⟨b, rfl⟩ := wetBlock_rendered E hr
      split
      · exact fun v hv => by cases hv
      · rintro v hv q ⟨⟩
        exact (hpre v hv).rendered b _
    · have hfirst : ∀ q t, w.window.map (fun _ => (p,
          w.state.prewarmed W w.session.rendering (w.session.rendering.prewarmStep p c).1)) =
            some (q, t) → q.temporal W t = .fresh W E q := by
        intro q t ht
        obtain ⟨v, hv, ht⟩ := Option.map_eq_some_iff.1 ht
        obtain ⟨rfl, rfl⟩ := Prod.mk.inj ht
        exact hx.wet hW hlut hp hG hw hn hv
      split <;> exact hfirst

omit hW hlut in
/-- A step of the audio thread that is no reset. -/
theorem HeardInv.installed {w : Heard W} {p : Processor} {a : AudioAction} {q : Shared × Processor}
    (hx : HeardInv W E w) (hp : w.session.plugin.proc = some p)
    (hq : audioStep E w.session.plugin.shared p a = some q) (ha : a ≠ .reset) {y : Session}
    (hpre : PrewarmInv y) (hgains : y.AtGains E) (hy : y.plugin = ⟨q.1, some q.2⟩)
    (hr : y.rendering =
      w.session.rendering.after gate w.session.plugin ⟨q.1, some q.2⟩ (.audio a)) :
    HeardInv W E { w.installed w.session.plugin.shared.sampleRate (audioOps p a) with
      session := y } := by
  refine ⟨hpre, hgains, fun v hv r hproc => ?_⟩
  rw [hy] at hproc
  obtain rfl := Option.some.inj hproc
  simp only [Heard.installed] at hv
  split at hv
  · cases hv
  · rename_i hops
    rw [Bool.not_eq_true] at hops
    dsimp only
    rw [hr]
    exact (hx.window v hv p hp).renewed (fun x => audioStep_has hq hops)
      (after_outstanding hp hq hops ha _)

theorem HeardInv.step {w y : Heard W} {a : HeardAction} (hx : HeardInv W E w)
    (h : heardStep W E gate w a = some y) (hG : KeepsFresh W E w a) :
    HeardInv W E y ∧ y.FirstWetFresh W E := by
  obtain ⟨z, hz, rfl⟩ := Option.map_eq_some_iff.1 h
  have hpre := hx.prewarm.step E gate hz
  have hgains := hx.gains.step hlut hz hG.resetsUnmodulated
  cases a with
  | block c =>
    cases sessionStep_spec E gate hz with
    | @block c p z hp hd k =>
      obtain ⟨hwindow, hfresh⟩ := hx.block hW hlut hp (hG p hp) k
      simp only [hp]
      exact ⟨⟨hpre, hgains, hwindow⟩, hfresh⟩
  | step a kept =>
    cases sessionStep_spec E gate hz with
    | @step a z he hd k =>
    cases a with
    | main a =>
      refine ⟨⟨hpre, hgains, fun v hv p hp => ?_⟩, Heard.firstWetFresh_none rfl⟩
      obtain rfl := Option.some.inj k
      exact hx.window v hv p hp
    | deactivate =>
      exact ⟨⟨hpre, hgains, fun v hv => by cases hv⟩, Heard.firstWetFresh_none rfl⟩
    | activate cfg faults =>
      dsimp only
      split
      · exact ⟨⟨hpre, hgains, fun v hv => by cases hv⟩, Heard.firstWetFresh_none rfl⟩
      · rename_i hnone
        refine ⟨⟨hpre, hgains, fun v hv p hp => ?_⟩, Heard.firstWetFresh_none rfl⟩
        rw [hnone] at hp
        cases hp
    | audio a =>
      obtain ⟨p, hp, k⟩ := Option.bind_eq_some_iff.1 k
      obtain ⟨q, hq, rfl⟩ := Option.map_eq_some_iff.1 k
      by_cases ha : a = .reset
      · subst ha
        simp only [hp]
        refine ⟨⟨hpre, hgains, ?_⟩, Heard.firstWetFresh_none rfl⟩
        rintro v ⟨⟩ r ⟨⟩
        have hrest := Rested.reset hW hlut (hx.gains p hp) (hG p hp) w.state w.session.rendering
        simp only [audioStep] at hq
        split_ifs at hq
        obtain rfl := Option.some.inj hq
        refine hrest.congr (fun x hx => by cases x <;> exact hx) ?_
        simp only [Rendering.after, hp]
        rfl
      · simp only [hp]
        cases a with
        | reset => exact absurd rfl ha
        | _ => exact ⟨hx.installed gate hp hq ha hpre hgains rfl rfl, Heard.firstWetFresh_none rfl⟩

omit hW hlut in
/-- An activation that takes nothing over starts in the fresh state. -/
theorem activate_fresh {w y : Heard W} {cfg : AudioConfig} {faults : ActivateCall → Bool}
    {p : Processor} (h : heardStep W E gate w (.step (.activate cfg faults) []) = some y)
    (hp : y.session.plugin.proc = some p) : p.temporal W y.state = .fresh W E p := by
  obtain ⟨z, hz, rfl⟩ := Option.map_eq_some_iff.1 h
  have hsmooth : ∀ q, z.plugin.proc = some q →
      q.rt.smootherIn = E.dbToLinear q.rt.params.inputGainDb ∧
        q.rt.smootherOut = E.dbToLinear q.rt.params.outputGainDb := by
    intro q hq
    cases sessionStep_spec E gate hz with
    | step he hd k =>
      simp only [NamPlug.step] at k
      split_ifs at k
      obtain rfl := Option.some.inj k
      have hgains := activate_gains hq
      unfold RtParamState.gains at hgains
      simp only [Prod.mk.injEq, true_and] at hgains
      exact ⟨hgains.1.1, hgains.2.1⟩
  dsimp only at hp ⊢
  cases hq : z.plugin.proc with
  | none =>
    simp only [hq] at hp
    cases hp
  | some q =>
    simp only [hq] at hp ⊢
    obtain rfl := Option.some.inj hp
    obtain ⟨hin, hout⟩ := hsmooth q hq
    unfold Processor.temporal Temporal.fresh WetState.activated
    simp only [List.not_mem_nil, and_false, if_false, hin, hout]

omit hW hlut in
theorem HeardInv.init : HeardInv W E (.init W E gate) :=
  ⟨PrewarmInv.init E gate, fun p hp => (by cases hp), fun _ h => (by cases h)⟩

/-- In every run whose steps keep the window of every reset and every containment fresh, the first
wet block after it starts in the temporal state of a processor that was just activated with the same
resources and parameters. -/
theorem first_wet_fresh {as : List HeardAction} {w : Heard W}
    (hG : Guarded (heardStep W E gate) (KeepsFresh W E) (.init W E gate) as)
    (h : run (heardStep W E gate) (.init W E gate) as = some w) : w.FirstWetFresh W E := by
  have hinv : HeardInv W E w ∧ w.FirstWetFresh W E :=
    run_invariant (I := fun w => HeardInv W E w ∧ w.FirstWetFresh W E)
      (fun _ _ _ hy hG hs => hy.1.step gate hW hlut hs hG)
      ⟨.init gate, Heard.firstWetFresh_none rfl⟩ hG h
  exact hinv.2

end

/-! ## Runs of the reference engine -/

/-- What a part of the reference engine holds. -/
inductive Fed where
  | fresh | cleared | fed
  deriving DecidableEq, Repr

/-- A wet block feeds every part; telemetry leaves the controller as it is. -/
def refWetEngine : WetEngine where
  State _ := Fed
  fresh _ := .fresh
  reset _ _ := .fresh
  prewarmReset _ _ := .cleared
  prewarm _ s := match s with
    | .cleared => .fresh
    | s => s
  process _ _ t := ⟨fun _ => .fed, t.currentIn, t.currentOut⟩
  telemetry _ s := s

theorem refWetEngine_restores : refWetEngine.Restores := ⟨fun _ _ => rfl, fun _ _ => rfl⟩

/-- A stereo model is installed, and heard in a block that is not finite if `nonFinite`. -/
def refHeardWet (nonFinite : Bool) : List HeardAction :=
  ([.main (.loadModel { refWide "one.nam" with stereo := true } noFaults), refActivate,
    .audio (.beginEvents 0), .audio (.drain .popCandidate), .audio (.drain .installCandidate),
    .audio .endEvents] : List Action).map (.step · []) ++ [.block { refCall [] with nonFinite }]

/-- A callback; the budget of its block completes both passes if `converges`. -/
def refHeardProcess (converges : Bool) : List HeardAction :=
  [.step (.audio (.beginEvents 0)) [], .step (.audio .endEvents) [],
    .block { refCall [] with convergesL := converges, convergesR := converges }]

/-- The plugin is reset after it was heard; the callback after it is held, the next one wet. -/
def refHeardReset : List HeardAction :=
  refHeardWet false ++ [.step (.audio .reset) []] ++ refHeardProcess false ++ refHeardProcess true

theorem WetPart.forall_iff {P : WetPart → Prop} : (∀ x, P x) ↔ P .modelL ∧ P .modelR ∧ P .stream ∧
    P .resampler ∧ P .osL ∧ P .osR ∧ P .cabL ∧ P .cabR ∧ P .silenceHyst ∧ P .monoHyst ∧
    P .adaptive := by
  constructor
  · exact fun h => ⟨h _, h _, h _, h _, h _, h _, h _, h _, h _, h _, h _⟩
  · rintro ⟨h1, h2, h3, h4, h5, h6, h7, h8, h9, h10, h11⟩ x
    cases x <;> assumption

instance (x : WetPart) : DecidableEq (refWetEngine.State x) := inferInstanceAs (DecidableEq Fed)

instance (w : Heard refWetEngine) (p : Processor) (c : DspCall) :
    Decidable (BlockKeepsFresh refWetEngine refLookup w p c) :=
  haveI : Decidable (∀ x, p.has x = true → x.isModel = false →
      w.state.part x = refWetEngine.fresh x) := decidable_of_iff _ WetPart.forall_iff.symm
  decidable_of_iff (_ ∧ _ ∧ _) ⟨fun h => ⟨h.1, h.2.1, h.2.2⟩, fun h => ⟨h.1, h.2, h.3⟩⟩

instance (w : Heard refWetEngine) (a : HeardAction) :
    Decidable (KeepsFresh refWetEngine refLookup w a) :=
  match a with
  | .block c => inferInstanceAs (Decidable (∀ p ∈ w.session.plugin.proc,
      BlockKeepsFresh refWetEngine refLookup w p c))
  | .step (.audio .reset) _ => inferInstanceAs (Decidable (∀ p ∈ w.session.plugin.proc,
      Unmodulated refLookup.toParamEngine p.rt))
  | .step (.main _) _ => isTrue trivial
  | .step (.activate _ _) _ => isTrue trivial
  | .step .deactivate _ => isTrue trivial
  | .step (.audio (.beginEvents _)) _ => isTrue trivial
  | .step (.audio (.drain _)) _ => isTrue trivial
  | .step (.audio .endEvents) _ => isTrue trivial
  | .step (.audio (.hostEvents _)) _ => isTrue trivial
  | .step (.audio (.flushInner _ _)) _ => isTrue trivial
  | .step (.audio (.slimmable _)) _ => isTrue trivial
  | .step (.audio (.signalSlimmableRebuild _)) _ => isTrue trivial

theorem first_wet_fresh_reset :
    ∃ w p t, run (heardStep refWetEngine refLookup refGate) (.init refWetEngine refLookup refGate)
        refHeardReset = some w ∧
      w.firstWet = some (p, t) ∧ p.temporal refWetEngine t = .fresh refWetEngine refLookup p := by
  have hsome : (run (heardStep refWetEngine refLookup refGate)
      (.init refWetEngine refLookup refGate) refHeardReset).map (·.firstWet.isSome) =
        some true := by decide +kernel
  obtain ⟨w, hw, hval⟩ := Option.map_eq_some_iff.1 hsome
  obtain ⟨⟨p, t⟩, ht⟩ := Option.isSome_iff_exists.1 hval
  have hkept : Guarded (heardStep refWetEngine refLookup refGate) (KeepsFresh refWetEngine refLookup)
      (.init refWetEngine refLookup refGate) refHeardReset := by decide +kernel
  have hfresh := first_wet_fresh refGate refWetEngine_restores add_add_zero hkept hw
  exact ⟨w, p, t, hw, ht, hfresh p t ht⟩

/-- A block that is not finite is contained in the callback after it, and the one after that is
wet. -/
def refHeardNonFinite : List HeardAction :=
  refHeardWet true ++ refHeardProcess true ++ refHeardProcess true

/-- The models are fresh; the stream adapter, the oversamplers and the gate are not. -/
theorem first_wet_not_fresh :
    ∃ w p t, run (heardStep refWetEngine refLookup refGate) (.init refWetEngine refLookup refGate)
        refHeardNonFinite = some w ∧ w.firstWet = some (p, t) ∧
      (t.part .modelL : Fed) = .fresh ∧ (t.part .stream : Fed) = .fed ∧
      ¬w.FirstWetFresh refWetEngine refLookup := by
  have hsome : (run (heardStep refWetEngine refLookup refGate)
      (.init refWetEngine refLookup refGate) refHeardNonFinite).bind (fun w => w.firstWet.map
        fun f => ((f.2.part .modelL : Fed), (f.2.part .stream : Fed))) =
          some (.fresh, .fed) := by decide +kernel
  obtain ⟨w, hw, hval⟩ := Option.bind_eq_some_iff.1 hsome
  obtain ⟨⟨p, t⟩, ht, hval⟩ := Option.map_eq_some_iff.1 hval
  obtain ⟨hmodel, hstream⟩ := Prod.mk.inj hval
  refine ⟨w, p, t, hw, ht, hmodel, hstream, fun hfresh => ?_⟩
  have hpart := congrFun (congrArg Temporal.part (hfresh p t ht)) .stream
  have hfed : (Fed.fed : Fed) = .fresh := hstream.symm.trans (Option.some.inj hpart)
  cases hfed

end NamPlug
