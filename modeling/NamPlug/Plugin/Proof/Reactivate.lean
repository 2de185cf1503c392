import NamPlug.Params.Proof.Sync
import NamPlug.Plugin.Proof.Atomics

/-!
# Parameters across a reactivation

`reactivate_iff`: when the first callback after a deactivation and an activation leaves the audio
thread with the values of the shared atomics. A new processor starts from the two gains, the
oversampling factor and defaults, and counts on the generation guard for the rest; the guard does
not fire while the generation counter is 0.
-/

namespace NamPlug

open Binary32 Machine

/-- Nothing is left in the ring, in the retained slots or in the staged items. -/
structure Shared.Drained (s : Shared) : Prop where
  ring : s.ring = []
  coalescing : s.coalescing = none
  inFlightParams : s.inFlightParams = none
  recoveredCommands : s.recoveredCommands = []
  pendingModel : s.pendingModel = none
  pendingRestore : s.pendingRestore = none
  stagedRestore : s.stagedRestore = none
  stagedSwap : s.stagedSwap = none

structure Processor.Drained (p : Processor) : Prop where
  recoveredCommands : p.recoveredCommands = []
  deferred : p.deferred = none
  candidate : p.candidate = none

instance (s : Shared) : Decidable s.Drained :=
  decidable_of_iff (s.ring = [] ∧ s.coalescing = none ∧ s.inFlightParams = none ∧
      s.recoveredCommands = [] ∧ s.pendingModel = none ∧ s.pendingRestore = none ∧
      s.stagedRestore = none ∧ s.stagedSwap = none)
    ⟨fun ⟨h1, h2, h3, h4, h5, h6, h7, h8⟩ => ⟨h1, h2, h3, h4, h5, h6, h7, h8⟩,
      fun ⟨h1, h2, h3, h4, h5, h6, h7, h8⟩ => ⟨h1, h2, h3, h4, h5, h6, h7, h8⟩⟩

instance (p : Processor) : Decidable p.Drained :=
  decidable_of_iff (p.recoveredCommands = [] ∧ p.deferred = none ∧ p.candidate = none)
    ⟨fun ⟨h1, h2, h3⟩ => ⟨h1, h2, h3⟩, fun ⟨h1, h2, h3⟩ => ⟨h1, h2, h3⟩⟩

/-- The actions of a callback's `process_events`. -/
def processEvents (room : Nat) (ms : List DrainMove) : List Action :=
  .audio (.beginEvents room) :: ms.map (fun m => .audio (.drain m)) ++ [.audio .endEvents]

/-- The audio thread holds what the host reads. -/
structure HostValues (u : UiToRt) (r : RtParamState) : Prop where
  params : ∀ p, p ≠ .activeModel → rtValue r.params p = getValue u 0 p
  mode : natDatum r.adaptive.mode.code = getValue u 0 .adaptiveCompute
  slimOverride : natDatum r.adaptive.slimOverride.code = getValue u 0 .slimOverride

section
variable (E : Engine)

/-- What a new processor starts with is what the atomics hold. -/
structure StartsRight (s : Shared) : Prop where
  gateThresh : datum E.rtDefault.gateThresholdDb = datum s.ui.paramGateThresh
  bypass : bypassBoolToU32 E.rtDefault.bypass = s.ui.paramBypass
  adaptiveCompute : E.rtDefault.adaptiveCompute.code = s.ui.paramAdaptiveCompute.toNat
  mode : AdaptiveComputeMode.conservative.code = s.ui.paramAdaptiveCompute.toNat
  slimOverride : E.rtDefault.slimOverride.code = s.ui.paramSlimOverride.toNat
  adaptiveSlim : E.adaptiveNewSlim.code = s.ui.paramSlimOverride.toNat
  oversample : s.pendingRestartOs = .none ∨
    ∃ f, s.pendingRestartOs = .pending f ∧ f.code = s.ui.paramOversample.toNat
  activation : E.rtDefault.activationPrecision.code = s.ui.paramActivation.toNat

/-- The float parameters hold what a synchronization takes over unchanged. -/
structure SyncsRight (u : UiToRt) : Prop where
  inputGain : InRange (E.gainMinDb, E.gainMaxDb) u.paramInputGain
  outputGain : InRange (E.gainMinDb, E.gainMaxDb) u.paramOutputGain
  gateThresh : InRange (fm90, fm40) u.paramGateThresh

/-- When the parameters survive: with the generation guard firing, the synchronization must not
clamp; without, the defaults must be the values. -/
def Survives (s : Shared) : Prop :=
  if s.ui.guiParamGeneration = 0 then StartsRight E s else SyncsRight E s.ui

/-! ## Values -/

theorem natDatum_inj {m n : Nat} : natDatum m = natDatum n ↔ m = n := by
  unfold natDatum
  rw [Datum.fin.injEq]
  exact ⟨fun h => Nat.eq_of_mul_eq_mul_right (by positivity) h.2, fun h => ⟨rfl, by rw [h]⟩⟩

theorem decode_adaptive {n : Nat} (h : n ≤ 2) :
    (E.adaptiveOfF32 (sanitizeParamValue E.toParamEngine .adaptiveCompute (ofNat n))).code = n := by
  obtain ⟨m, rfl⟩ : ∃ m : AdaptiveComputeMode, m.code = n := by
    have hn : n = 0 ∨ n = 1 ∨ n = 2 := by omega
    obtain rfl | rfl | rfl := hn
    exacts [⟨.off, rfl⟩, ⟨.conservative, rfl⟩, ⟨.aggressive, rfl⟩]
  simp only [sanitizeParamValue]
  rw [sanitizeStep_ofNat_two m.code_le, E.adaptive_code]

theorem decode_slim {n : Nat} (h : n ≤ 2) :
    (E.slimOfF32 (sanitizeParamValue E.toParamEngine .slimOverride (ofNat n))).code = n := by
  obtain ⟨m, rfl⟩ : ∃ m : SlimOverride, m.code = n := by
    have hn : n = 0 ∨ n = 1 ∨ n = 2 := by omega
    obtain rfl | rfl | rfl := hn
    exacts [⟨.auto, rfl⟩, ⟨.forceFull, rfl⟩, ⟨.forceLite, rfl⟩]
  simp only [sanitizeParamValue]
  rw [sanitizeStep_ofNat_two m.code_le, E.slim_code]

theorem oversample_of_code {n : Nat} (h : n ≤ 2) : ∃ m : OversampleFactor, m.code = n := by
  have hn : n = 0 ∨ n = 1 ∨ n = 2 := by omega
  obtain rfl | rfl | rfl := hn
  exacts [⟨.off, rfl⟩, ⟨.x2, rfl⟩, ⟨.x4, rfl⟩]

theorem decode_oversample {n : Nat} (h : n ≤ 2) :
    (E.oversampleOfF32 (sanitizeParamValue E.toParamEngine .oversample (ofNat n))).code = n := by
  obtain ⟨m, rfl⟩ := oversample_of_code h
  simp only [sanitizeParamValue]
  rw [sanitizeStep_ofNat_two m.code_le, E.oversample_code]

theorem decode_activation {n : Nat} (h : n ≤ 1) :
    (E.activationOfF32 (sanitizeParamValue E.toParamEngine .activation (ofNat n))).code = n := by
  obtain ⟨m, rfl⟩ : ∃ m : ActivationPrecision, m.code = n := by
    have hn : n = 0 ∨ n = 1 := by omega
    obtain rfl | rfl := hn
    exacts [⟨.fast, rfl⟩, ⟨.standard, rfl⟩]
  simp only [sanitizeParamValue]
  rw [sanitizeStep_ofNat_one m.code_le, E.activation_code]

theorem toNat_bypass {b : BitVec 32} (h : b.toNat ≤ 1) :
    bypassBoolToU32 (bypassU32ToBool b) = b := by
  have hb : b = 0 ∨ b = 1 := by
    have hn : b.toNat = 0 ∨ b.toNat = 1 := by omega
    exact hn.imp (fun h => BitVec.eq_of_toNat_eq h) (fun h => BitVec.eq_of_toNat_eq h)
  obtain rfl | rfl := hb <;> rfl

/-- A gain that started as the atomic's. -/
theorem synced_self_iff {p : ParamId} {r : F32 × F32}
    (hr : floatRange E.toParamEngine p = some r) {x v : F32}
    (h : Synced (sanitizeParamValue E.toParamEngine p x) x v) : datum v = datum x ↔ InRange r x := by
  obtain rfl | ⟨hfeq, rfl⟩ := h
  · exact datum_sanitize_float_iff E.toParamEngine hr x
  · obtain ⟨h1, h2⟩ := floatRange_finite E.toParamEngine hr
    exact ⟨fun _ => (sanitize_float E.toParamEngine hr v).of_feq h1 h2 hfeq, fun _ => rfl⟩

/-- A gate threshold in its range is not zero, so that comparing equal is being equal. -/
theorem synced_gate {x old v : F32}
    (h : Synced (sanitizeParamValue E.toParamEngine .gateThresh x) old v) :
    v = sanitizeParamValue E.toParamEngine .gateThresh x := by
  obtain rfl | ⟨hfeq, rfl⟩ := h
  · rfl
  · obtain ⟨hfin, -, hhi⟩ := sanitize_float E.toParamEngine (p := .gateThresh) rfl x
    refine eq_of_feq hfin hfeq fun h0 => ?_
    rw [lt_of_isFinite (by decide +kernel) hfin, h0] at hhi
    exact absurd hhi (by decide +kernel)

/-- The values after a synchronization, the gains having been the atomics' before. -/
theorem hostValues_synced_iff {u : UiToRt} (hu : Coded u) {old : RtProcessingParams}
    {r : RtParamState} (hi : old.inputGainDb = u.paramInputGain)
    (ho : old.outputGainDb = u.paramOutputGain) (h : FromGui E.toParamEngine u old r) :
    HostValues u r ↔ SyncsRight E u := by
  have hin := synced_self_iff E (p := .inputGain) rfl (hi ▸ h.inputGain)
  have hout := synced_self_iff E (p := .outputGain) rfl (ho ▸ h.outputGain)
  have hgate := datum_sanitize_float_iff E.toParamEngine (p := .gateThresh) rfl u.paramGateThresh
  rw [← synced_gate E h.gateThresh] at hgate
  constructor
  · intro hv
    exact ⟨hin.1 (hv.params .inputGain (by decide)), hout.1 (hv.params .outputGain (by decide)),
      hgate.1 (hv.params .gateThresh (by decide))⟩
  · rintro ⟨h1, h2, h3⟩
    have hadapt : r.params.adaptiveCompute.code = u.paramAdaptiveCompute.toNat := by
      rw [h.adaptive]; exact decode_adaptive E (hu .adaptiveCompute 2 rfl)
    have hslim : r.params.slimOverride.code = u.paramSlimOverride.toNat := by
      rw [h.slim]; exact decode_slim E (hu .slimOverride 2 rfl)
    refine ⟨fun p hp => ?_, ?_, ?_⟩
    · cases p with
      | inputGain => exact hin.2 h1
      | outputGain => exact hout.2 h2
      | gateThresh => exact hgate.2 h3
      | bypass =>
        simp only [rtValue, getValue, h.bypass]
        rw [toNat_bypass (b := u.paramBypass) (hu .bypass 1 rfl)]
      | activeModel => exact absurd rfl hp
      | adaptiveCompute => exact natDatum_inj.2 hadapt
      | slimOverride => exact natDatum_inj.2 hslim
      | oversample =>
        exact natDatum_inj.2 (h.oversample ▸ decode_oversample E (hu .oversample 2 rfl))
      | activation =>
        exact natDatum_inj.2 (h.activation ▸ decode_activation E (hu .activation 1 rfl))
    · rw [h.mode]; exact natDatum_inj.2 hadapt
    · rw [h.slimOverride]; exact natDatum_inj.2 hslim

/-- The values of a new processor. -/
theorem hostValues_start_iff {s : Shared} (hu : Coded s.ui) {r : RtParamState}
    (hp : r.params = activateParams E s (s.activateOsFactor E))
    (ha : r.adaptive = ⟨.conservative, E.adaptiveNewSlim⟩) :
    HostValues s.ui r ↔ StartsRight E s := by
  have hos : (s.activateOsFactor E).code = s.ui.paramOversample.toNat ↔
      (s.pendingRestartOs = .none ∨
        ∃ f, s.pendingRestartOs = .pending f ∧ f.code = s.ui.paramOversample.toNat) := by
    unfold Shared.activateOsFactor
    split
    · rename_i f h
      simp [h]
    · rename_i h
      obtain ⟨m, hm⟩ := oversample_of_code (hu .oversample 2 rfl)
      have hm' : m.code = s.ui.paramOversample.toNat := hm
      rw [← hm', E.oversample_code]
      simp [h]
  constructor
  · intro hv
    have hparam := fun p hp => hv.params p hp
    rw [hp] at hparam
    have hmode := hv.mode
    have hslim := hv.slimOverride
    rw [ha] at hmode hslim
    exact ⟨hparam .gateThresh (by decide),
      BitVec.eq_of_toNat_eq (natDatum_inj.1 (hparam .bypass (by decide))),
      natDatum_inj.1 (hparam .adaptiveCompute (by decide)), natDatum_inj.1 hmode,
      natDatum_inj.1 (hparam .slimOverride (by decide)), natDatum_inj.1 hslim,
      hos.1 (natDatum_inj.1 (hparam .oversample (by decide))),
      natDatum_inj.1 (hparam .activation (by decide))⟩
  · intro h
    refine ⟨fun p hpm => ?_, ?_, ?_⟩
    · rw [hp]
      cases p with
      | inputGain => rfl
      | outputGain => rfl
      | gateThresh => exact h.gateThresh
      | bypass => exact natDatum_inj.2 (congrArg BitVec.toNat h.bypass)
      | activeModel => exact absurd rfl hpm
      | adaptiveCompute => exact natDatum_inj.2 h.adaptiveCompute
      | slimOverride => exact natDatum_inj.2 h.slimOverride
      | oversample => exact natDatum_inj.2 (hos.2 h.oversample)
      | activation => exact natDatum_inj.2 h.activation
    · rw [ha]; exact natDatum_inj.2 h.mode
    · rw [ha]; exact natDatum_inj.2 h.adaptiveSlim

/-! ## The first callback -/

/-- A new processor, with nothing to replay or to drain. -/
structure Fresh (s : Shared) (p : Processor) : Prop where
  ring : s.ring = []
  renderMode : s.renderMode = .realtime
  drained : p.Drained
  lastSeenGeneration : p.lastSeenGeneration = 0
  lastRenderMode : p.lastRenderMode = .realtime

theorem Fresh.beginEvents {s : Shared} {p : Processor} (h : Fresh s p) (room : Nat) :
    ∃ s' p', NamPlug.beginEvents E s p room = (s', p') ∧ Fresh s' p' ∧
      s'.ui = (writeGuiEvents s.ui room).ui ∧ p'.rt = p.rt ∧ p'.inCallback = true := by
  refine ⟨{ s with ui := (writeGuiEvents s.ui room).ui },
    { p with recoveredCommands := [], inCallback := true }, ?_,
    ⟨h.ring, h.renderMode, ⟨rfl, h.drained.deferred, h.drained.candidate⟩, h.lastSeenGeneration,
      h.lastRenderMode⟩, rfl, rfl, rfl⟩
  simp only [NamPlug.beginEvents, replayRecovered, h.drained.recoveredCommands, List.foldl_nil]

theorem Fresh.drainMove {s : Shared} {p : Processor} (h : Fresh s p) (m : DrainMove) :
    NamPlug.drainMove E s p m = none := by
  cases m <;> simp [NamPlug.drainMove, h.ring, h.drained.deferred, h.drained.candidate]

/-- The parameters a callback ends with when it has nothing to drain. -/
theorem Fresh.endEvents {s : Shared} {p : Processor} (h : Fresh s p) :
    (NamPlug.endEvents E s p).2.rt = if s.ui.guiParamGeneration = 0 then p.rt
      else (syncParamsFromGui E.toParamEngine (paramCtx s p)).rt := by
  unfold NamPlug.endEvents endDrain syncGeneration followRenderMode
  simp only [h.drained.candidate, h.lastSeenGeneration]
  split <;> simp [putParamCtx, h.renderMode, h.lastRenderMode, paramCtx]

/-- The first callback of a new processor. -/
theorem Fresh.processEvents {s : Shared} {p : Processor} {y : Plugin} {room : Nat}
    {ms : List DrainMove} (hf : Fresh s p) (hi : p.inCallback = false)
    (h : run (NamPlug.step E) ⟨s, some p⟩ (processEvents room ms) = some y) :
    (∀ q, y.shared.ui.load q = s.ui.load q) ∧
      ∃ q, y.proc = some q ∧
        ((s.ui.guiParamGeneration = 0 ∧ q.rt = p.rt) ∨
          (s.ui.guiParamGeneration ≠ 0 ∧
            FromGui E.toParamEngine y.shared.ui p.rt.params q.rt)) := by
  obtain ⟨s1, p1, hb, hf1, hui, hrt, hc⟩ := hf.beginEvents E room
  obtain ⟨y1, h1, h⟩ := run_cons.1 h
  simp only [NamPlug.step, audioStep, Option.bind_some, hi, Bool.false_eq_true, if_false,
    Option.map_some, Option.some.injEq, hb] at h1
  subst h1
  obtain ⟨y2, h2, h⟩ := run_append.1 h
  cases ms with
  | cons m ms =>
    obtain ⟨y3, h3, -⟩ := run_cons.1 h2
    simp [NamPlug.step, audioStep, hf1.drainMove] at h3
  | nil =>
    obtain rfl := Option.some.inj h2
    obtain ⟨y3, h3, h⟩ := run_cons.1 h
    obtain rfl := Option.some.inj h
    simp only [NamPlug.step, audioStep, Option.bind_some, hc, if_true, Option.map_some,
      Option.some.injEq] at h3
    subst h3
    dsimp only
    rw [endEvents_ui]
    refine ⟨fun q => ?_, _, rfl, ?_⟩
    · rw [hui, load_writeGuiEvents]
    · rw [hf1.endEvents, hui, guiParamGeneration_writeGuiEvents, hrt]
      split_ifs with h0
      · exact .inl ⟨h0, rfl⟩
      · have hsync := syncParamsFromGui_spec E.toParamEngine (paramCtx s1 p1)
        simp only [paramCtx, hui, hrt] at hsync ⊢
        exact .inr ⟨h0, hsync⟩

/-! ## The new processor -/

/-- What an activation with nothing retained leads to. -/
theorem activate_drained {s : Shared} (hs : s.Drained) (hm : s.renderMode = .realtime)
    {cfg : AudioConfig} {faults : ActivateCall → Bool} {t : Shared} {p : Processor}
    (h : s.activate E cfg faults = (t, some p)) :
    Fresh t p ∧ p.inCallback = false ∧ t.ui = s.ui ∧
      p.rt.params = activateParams E s (s.activateOsFactor E) ∧
      p.rt.adaptive = ⟨.conservative, E.adaptiveNewSlim⟩ := by
  have hspec := activate_spec E s cfg faults
  rw [h] at hspec
  cases hspec with
  | @ok restore swap pipe a u hprep hf =>
    have ha := hprep.adapted
    simp only [adaptStaged, hs.stagedRestore, hs.stagedSwap, Option.map_none, Prod.mk.injEq] at ha
    obtain ⟨-, rfl, rfl⟩ := ha
    have hpm : (s.published E cfg none a).pendingModel = none := hs.pendingModel
    simp only [Shared.flushPendingModel, hpm, Prod.mk.injEq, and_true] at hf
    subst hf
    exact ⟨⟨hs.ring, hm, ⟨hs.recoveredCommands, rfl, rfl⟩, rfl, rfl⟩, rfl, rfl, rfl, rfl⟩

theorem deactivate_drained {s : Shared} {p : Processor} (hp : p.Drained) (hs : s.Drained) :
    (deactivate s p).Drained ∧ (deactivate s p).ui = s.ui ∧
      (deactivate s p).renderMode = s.renderMode ∧
      (deactivate s p).pendingRestartOs = s.pendingRestartOs := by
  unfold deactivate
  rw [hp.deferred]
  exact ⟨⟨hs.ring, hs.coalescing, hs.inFlightParams, hs.recoveredCommands, hs.pendingModel,
    hs.pendingRestore, hs.stagedRestore, hs.stagedSwap⟩, rfl, rfl, rfl⟩

theorem getValue_congr {u v : UiToRt} (h : ∀ p, u.load p = v.load p) (k : Nat) (p : ParamId) :
    getValue u k p = getValue v k p := by
  have hp := h p
  cases p <;> simp only [UiToRt.load] at hp <;> simp only [getValue, hp]

theorem hostValues_congr {u v : UiToRt} (h : ∀ p, u.load p = v.load p) {r : RtParamState} :
    HostValues u r ↔ HostValues v r := by
  have hdir : ∀ {u v : UiToRt}, (∀ p, u.load p = v.load p) → HostValues u r → HostValues v r :=
    fun h hv => ⟨fun p hp => (hv.params p hp).trans (getValue_congr h 0 p),
      hv.mode.trans (getValue_congr h 0 _), hv.slimOverride.trans (getValue_congr h 0 _)⟩
  exact ⟨hdir h, hdir fun p => (h p).symm⟩

theorem syncsRight_congr {u v : UiToRt} (h : ∀ p, u.load p = v.load p) :
    SyncsRight E u ↔ SyncsRight E v := by
  have hdir : ∀ {u v : UiToRt}, (∀ p, u.load p = v.load p) → SyncsRight E u → SyncsRight E v := by
    rintro u v h ⟨h1, h2, h3⟩
    have e1 : u.paramInputGain = v.paramInputGain := h .inputGain
    have e2 : u.paramOutputGain = v.paramOutputGain := h .outputGain
    have e3 : u.paramGateThresh = v.paramGateThresh := h .gateThresh
    exact ⟨e1 ▸ h1, e2 ▸ h2, e3 ▸ h3⟩
  exact ⟨hdir h, hdir fun p => (h p).symm⟩

theorem survives_congr {s t : Shared} (hu : s.ui = t.ui)
    (ho : s.pendingRestartOs = t.pendingRestartOs) : Survives E s ↔ Survives E t := by
  have hstart : ∀ {s t : Shared}, s.ui = t.ui → s.pendingRestartOs = t.pendingRestartOs →
      StartsRight E s → StartsRight E t := by
    intro s t hu ho h
    exact ⟨hu ▸ h.gateThresh, hu ▸ h.bypass, hu ▸ h.adaptiveCompute, hu ▸ h.mode,
      hu ▸ h.slimOverride, hu ▸ h.adaptiveSlim, hu ▸ ho ▸ h.oversample, hu ▸ h.activation⟩
  unfold Survives
  rw [hu]
  split
  · exact ⟨hstart hu ho, hstart hu.symm ho.symm⟩
  · exact Iff.rfl

/-- Whatever was done before, with nothing left to deliver the first callback after a deactivation
and an activation leaves the audio thread with the host's values exactly when `Survives`. -/
theorem reactivate_iff {as : List Action} {x y : Plugin} {p q : Processor}
    (hx : run (NamPlug.step E) (.init E.toParamEngine) as = some x) (hp : x.proc = some p)
    (hs : x.shared.Drained) (hd : p.Drained) (hm : x.shared.renderMode = .realtime)
    {cfg : AudioConfig} {faults : ActivateCall → Bool} {room : Nat} {ms : List DrainMove}
    (hy : run (NamPlug.step E) x
      (.deactivate :: .activate cfg faults :: processEvents room ms) = some y)
    (hq : y.proc = some q) : HostValues y.shared.ui q.rt ↔ Survives E x.shared := by
  obtain ⟨s, px⟩ := x
  dsimp only at hp hs hm
  subst hp
  obtain ⟨y1, h1, hy⟩ := run_cons.1 hy
  simp only [NamPlug.step] at h1
  split_ifs at h1
  obtain rfl := Option.some.inj h1
  obtain ⟨hs1, hu1, hm1, ho1⟩ := deactivate_drained hd hs
  obtain ⟨y2, h2, hy⟩ := run_cons.1 hy
  simp only [NamPlug.step, Option.isSome_none, Bool.false_eq_true, if_false,
    Option.some.injEq] at h2
  rcases hact : (deactivate s p).activate E cfg faults with ⟨t, _ | p'⟩
  · rw [hact] at h2
    subst h2
    obtain ⟨y3, h3, -⟩ := run_cons.1 hy
    cases h3
  · rw [hact] at h2
    subst h2
    obtain ⟨hf, hi, hut, hparams, hadapt⟩ := activate_drained E hs1 (hm1.trans hm) hact
    obtain ⟨hload, q', hq', hrt⟩ := hf.processEvents E hi hy
    obtain rfl : q' = q := Option.some.inj (hq'.symm.trans hq)
    have hcoded : Coded s.ui := atomics_coded E hx
    rw [hut, hu1] at hload hrt
    have hcy : Coded y.shared.ui := hcoded.of_load hload
    rw [← survives_congr E hu1 ho1]
    unfold Survives
    rw [hu1]
    obtain ⟨h0, hrt⟩ | ⟨h0, hgui⟩ := hrt
    · rw [if_pos h0, hrt, hostValues_congr hload, ← hu1]
      exact hostValues_start_iff E (hu1 ▸ hcoded) hparams hadapt
    · rw [if_neg h0, ← syncsRight_congr E hload]
      have hin : p'.rt.params.inputGainDb = y.shared.ui.paramInputGain := by
        rw [hparams]; exact (congrArg UiToRt.paramInputGain hu1).trans (hload .inputGain).symm
      have hout : p'.rt.params.outputGainDb = y.shared.ui.paramOutputGain := by
        rw [hparams]; exact (congrArg UiToRt.paramOutputGain hu1).trans (hload .outputGain).symm
      exact hostValues_synced_iff E hcy hin hout hgui

end

/-- Deactivation, activation and the first callback. -/
def refReactivate : List Action := .deactivate :: refActivate :: processEvents 0 []

/-- A bypass set by a host event. -/
def refBypassEvent : Action := .audio (.hostEvents [⟨0, 3, f1, false⟩])

/-- After an input gain of 1 dB from the GUI the parameters survive. -/
theorem reactivate_gui_gain :
    ∃ q, (refRun ([refActivate, .main (.guiStore (.inputGainChanged f1)),
        .main (.guiAnnounce (.inputGainChanged f1))] ++ refReactivate)).proc = some q ∧
      HostValues (refRun ([refActivate, .main (.guiStore (.inputGainChanged f1)),
        .main (.guiAnnounce (.inputGainChanged f1))] ++ refReactivate)).shared.ui q.rt := by
  generalize has : [refActivate, .main (.guiStore (.inputGainChanged f1)),
    .main (.guiAnnounce (.inputGainChanged f1))] = as
  obtain ⟨p, hp⟩ := Option.isSome_iff_exists.1
    (show (refRun as).proc.isSome = true by subst has; decide +kernel)
  obtain ⟨q, hq⟩ := Option.isSome_iff_exists.1
    (show (refRun (as ++ refReactivate)).proc.isSome = true by subst has; decide +kernel)
  have hd : (refRun as).proc.all (fun p => decide p.Drained) = true := by
    subst has; decide +kernel
  rw [hp] at hd
  refine ⟨q, hq, (reactivate_iff refEngine (run_refRun (by subst has; decide +kernel)) hp
    (by subst has; decide +kernel) (of_decide_eq_true hd) (by subst has; decide +kernel)
    (run_refRun_append (by subst has; decide +kernel)) hq).2 ?_⟩
  unfold Survives
  rw [if_neg (by subst has; decide +kernel)]
  subst has
  exact ⟨by decide +kernel, by decide +kernel, by decide +kernel⟩

/-- After a bypass switched on by a host event they do not: the new processor is not bypassed. -/
theorem reactivate_bypass_lost :
    (refRun [refActivate, refBypassEvent]).shared.Drained ∧
      (refRun [refActivate, refBypassEvent]).proc.any (fun p => decide p.Drained) = true ∧
      ∃ q, (refRun ([refActivate, refBypassEvent] ++ refReactivate)).proc = some q ∧
        ¬HostValues (refRun ([refActivate, refBypassEvent] ++ refReactivate)).shared.ui q.rt := by
  have hb : (refRun ([refActivate, refBypassEvent] ++ refReactivate)).proc.map
      (fun q => q.rt.params.bypass) = some false := by decide +kernel
  obtain ⟨q, hq, hbypass⟩ := Option.map_eq_some_iff.1 hb
  refine ⟨by decide +kernel, by decide +kernel, q, hq, fun hv => ?_⟩
  have h := hv.params .bypass (by decide)
  simp only [rtValue, hbypass, getValue] at h
  exact absurd (natDatum_inj.1 h) (by decide +kernel)

end NamPlug
