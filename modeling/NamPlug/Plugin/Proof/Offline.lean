import NamPlug.Lib.Run
import NamPlug.Params.Proof.Sync
import NamPlug.Plugin.Proof.Activates
import NamPlug.Plugin.Proof.Installs
import NamPlug.Plugin.Proof.Reactivate

/-!
# Offline rendering

`process_events` forces the adaptive controller off and the activation precision to standard on the
edge into the offline mode, and takes both back on the edge out of it: the mode from the shared
atomics, the precision from the snapshot of the first edge. Only the controller is checked again in
between.

`Tracked` is an instance with the requests the user made. Both edges do what they should exactly where
`FollowsRequests` holds (`offline_forced_and_undone`): the last precision that the processor took over
offline is standard, and what was asked for last is what the atomics and the snapshot hold.
-/

namespace NamPlug

open Binary32 Machine

/-! ## Requests -/

/-- A request for an adaptive mode, for a precision, or for both. -/
structure Request where
  mode : Option AdaptiveComputeMode
  precision : Option ActivationPrecision
  deriving DecidableEq, Repr

def Request.empty : Request := ⟨none, none⟩

/-- The mode after these requests, `m` before them. -/
def lastMode (m : AdaptiveComputeMode) (rs : List Request) : AdaptiveComputeMode :=
  rs.foldl (fun m r => r.mode.getD m) m

def lastPrecision (a : ActivationPrecision) (rs : List Request) : ActivationPrecision :=
  rs.foldl (fun a r => r.precision.getD a) a

theorem lastPrecision_append (a : ActivationPrecision) (rs ts : List Request) :
    lastPrecision a (rs ++ ts) = lastPrecision (lastPrecision a rs) ts := List.foldl_append

def RtProcessingParams.request (q : RtProcessingParams) : Request :=
  ⟨some q.adaptiveCompute, some q.activationPrecision⟩

def ClapParamPayload.request : ClapParamPayload → Request
  | .params q => q.request
  | .restoreTxn txn => txn.params.request
  | _ => .empty

section
variable (E : ParamEngine)

def ScheduledEvent.request (e : ScheduledEvent) : Request :=
  match ParamId.ofCode e.paramId, e.isMod with
  | some .adaptiveCompute, false =>
    ⟨some (E.adaptiveOfF32 (sanitizeParamValue E .adaptiveCompute e.value)), none⟩
  | some .activation, false =>
    ⟨none, some (E.activationOfF32 (sanitizeParamValue E .activation e.value))⟩
  | _, _ => .empty

def UiToRt.sharedMode (u : UiToRt) : AdaptiveComputeMode :=
  E.adaptiveOfF32 (sanitizeParamValue E .adaptiveCompute (ofNat u.paramAdaptiveCompute.toNat))

def UiToRt.sharedPrecision (u : UiToRt) : ActivationPrecision :=
  E.activationOfF32 (sanitizeParamValue E .activation (ofNat u.paramActivation.toNat))

/-- What a synchronization asks for. -/
def UiToRt.request (u : UiToRt) : Request := ⟨some (u.sharedMode E), some (u.sharedPrecision E)⟩

/-- What the main thread stored. -/
def UiToRt.stored (u v : UiToRt) : Request where
  mode := if v.paramAdaptiveCompute = u.paramAdaptiveCompute then none else some (v.sharedMode E)
  precision := if v.paramActivation = u.paramActivation then none else some (v.sharedPrecision E)

/-! ## The precision in force -/

/-- The precision of the parameters and of the thread. -/
structure InForce (r : RtParamState) (a : ActivationPrecision) : Prop where
  params : r.params.activationPrecision = a
  tls : r.activationTls = a

theorem InForce.of_eq {r r' : RtParamState} {a : ActivationPrecision} (h : InForce r a)
    (hp : r'.params.activationPrecision = r.params.activationPrecision)
    (ht : r'.activationTls = r.activationTls) : InForce r' a := ⟨hp.trans h.1, ht.trans h.2⟩

theorem applyEvent_inForce {c : ParamCtx} {a : ActivationPrecision} (h : InForce c.rt a)
    (e : ScheduledEvent) (smooth : Bool) :
    InForce (applyEvent E c e smooth).1.rt (lastPrecision a [e.request E]) := by
  unfold applyEvent ScheduledEvent.request
  cases hp : ParamId.ofCode e.paramId with
  | none => exact h
  | some p =>
    unfold applyScheduledEvent
    cases hm : e.isMod with
    | true => cases p <;> exact ⟨h.1, h.2⟩
    | false =>
      cases p
      case activation =>
        simp only [Bool.false_eq_true, if_false, applyValueEvent]
        split_ifs with hne
        · exact ⟨rfl, rfl⟩
        · rw [not_not] at hne
          exact ⟨hne.symm, h.2.trans (h.1.symm.trans hne.symm)⟩
      case oversample =>
        simp only [Bool.false_eq_true, if_false, applyValueEvent]
        split_ifs <;> exact ⟨h.1, h.2⟩
      all_goals exact ⟨h.1, h.2⟩

theorem setParam_inForce {c : ParamCtx} {a : ActivationPrecision} (h : InForce c.rt a)
    {e : ScheduledEvent} {p : ParamId} (hp : ParamId.ofCode e.paramId = some p)
    (hm : e.isMod = false) :
    InForce (setParam E c p e.value).rt (lastPrecision a [e.request E]) := by
  unfold ScheduledEvent.request
  rw [hp, hm]
  cases p
  case activation =>
    unfold setParam
    dsimp only
    split_ifs with hne
    · exact ⟨rfl, rfl⟩
    · rw [not_not] at hne
      exact ⟨hne.symm, h.2.trans (h.1.symm.trans hne.symm)⟩
  case oversample =>
    unfold setParam
    dsimp only
    split_ifs
    · rw [applyOversample_rt]
      exact ⟨h.1, h.2⟩
    · exact h
  all_goals exact ⟨h.1, h.2⟩

/-- A snapshot. -/
theorem applyParamsFromSpsc_inForce {c : ParamCtx} {a : ActivationPrecision} (h : InForce c.rt a)
    (q : RtProcessingParams) :
    InForce (applyParamsFromSpsc E c q).rt (lastPrecision a [q.request]) := by
  have hset : ∀ t : ActivationPrecision,
      t = (if c.rt.params.activationPrecision ≠ q.activationPrecision then q.activationPrecision
        else c.rt.activationTls) → t = q.activationPrecision := by
    rintro t rfl
    split_ifs with hne
    · rfl
    · exact h.2.trans (h.1.symm.trans (not_not.1 hne))
  unfold applyParamsFromSpsc
  dsimp only
  split
  · rw [applyOversample_rt]
    exact ⟨rfl, hset _ rfl⟩
  · exact ⟨rfl, hset _ rfl⟩

/-- A synchronization of another parameter leaves the precision and the atomics. -/
structure SyncsOther (c d : ParamCtx) : Prop where
  ui : d.ui = c.ui
  params : d.rt.params.activationPrecision = c.rt.params.activationPrecision
  tls : d.rt.activationTls = c.rt.activationTls

theorem SyncsOther.trans {c d e : ParamCtx} (h : SyncsOther c d) (k : SyncsOther d e) :
    SyncsOther c e :=
  ⟨k.ui.trans h.ui, k.params.trans h.params, k.tls.trans h.tls⟩

theorem syncOversampleFromGui_other (c : ParamCtx) : SyncsOther c (syncOversampleFromGui E c) := by
  obtain ⟨o, r, h⟩ := syncOversampleFromGui_eq E c
  rw [h]
  exact ⟨rfl, rfl, rfl⟩

/-- All that is synchronized before the precision. -/
theorem syncOthers_other (c : ParamCtx) : SyncsOther c (syncOversampleFromGui E
    (syncSlimOverrideFromGui E (syncAdaptiveComputeFromGui E (syncBypassFromGui
      (syncGateThreshFromGui E (syncOutputGainFromGui E (syncInputGainFromGui E c))))))) := by
  have h1 : SyncsOther c (syncInputGainFromGui E c) := by
    obtain ⟨g, s, -, h⟩ := syncInputGainFromGui_eq E c
    rw [h]
    exact ⟨rfl, rfl, rfl⟩
  have h2 : ∀ d, SyncsOther d (syncOutputGainFromGui E d) := by
    intro d
    obtain ⟨g, s, -, h⟩ := syncOutputGainFromGui_eq E d
    rw [h]
    exact ⟨rfl, rfl, rfl⟩
  have h3 : ∀ d, SyncsOther d (syncGateThreshFromGui E d) := by
    intro d
    obtain ⟨g, s, -, h⟩ := syncGateThreshFromGui_eq E d
    rw [h]
    exact ⟨rfl, rfl, rfl⟩
  have h4 : ∀ d, SyncsOther d (syncBypassFromGui d) := by
    intro d
    rw [syncBypassFromGui_eq]
    exact ⟨rfl, rfl, rfl⟩
  have h5 : ∀ d, SyncsOther d (syncAdaptiveComputeFromGui E d) := by
    intro d
    rw [syncAdaptiveComputeFromGui_eq]
    exact ⟨rfl, rfl, rfl⟩
  have h6 : ∀ d, SyncsOther d (syncSlimOverrideFromGui E d) := by
    intro d
    rw [syncSlimOverrideFromGui_eq]
    exact ⟨rfl, rfl, rfl⟩
  exact (((((h1.trans (h2 _)).trans (h3 _)).trans (h4 _)).trans (h5 _)).trans (h6 _)).trans
    (syncOversampleFromGui_other E _)

theorem syncParamsFromGui_inForce {c : ParamCtx} {a : ActivationPrecision} (h : InForce c.rt a) :
    InForce (syncParamsFromGui E c).rt (lastPrecision a [c.ui.request E]) := by
  have hother := syncOthers_other E c
  unfold syncParamsFromGui
  dsimp only
  generalize syncOversampleFromGui E _ = d at hother ⊢
  have hd : InForce d.rt a := h.of_eq hother.params hother.tls
  have hstep : E.activationOfF32 (sharedStep E d .activation) = c.ui.sharedPrecision E := by
    unfold sharedStep
    rw [hother.ui]
    rfl
  unfold syncActivationFromGui
  dsimp only
  rw [hstep]
  split_ifs with hne
  · exact ⟨rfl, rfl⟩
  · rw [not_not] at hne
    exact ⟨hne.symm, hd.2.trans (hd.1.symm.trans hne.symm)⟩

end

/-- The precision in force in a processor that follows the render mode `m`. -/
structure RunsAt (m : RenderMode) (a : ActivationPrecision) (p : Processor) : Prop where
  rt : InForce p.rt a
  lastRenderMode : p.lastRenderMode = m

section
variable (E : Engine) {m : RenderMode}

theorem applyStructural_runsAt {s : Shared} {p : Processor} {a : ActivationPrecision}
    (h : RunsAt m a p) (c : ClapParamPayload) :
    RunsAt m (lastPrecision a [c.request]) (applyStructural E s p c).2 := by
  have hcab : ∀ (s : Shared) (p : Processor) pair, RunsAt m a p →
      RunsAt m a (coldLoadCabsim E s p pair).2 := by
    intro s p pair h
    unfold coldLoadCabsim
    split
    · exact h
    · exact ⟨h.1, h.2⟩
  have hparams : ∀ (s : Shared) (p : Processor) q, RunsAt m a p →
      RunsAt m (lastPrecision a [RtProcessingParams.request q]) (applyParams E s p q).2 :=
    fun s p q h =>
      ⟨applyParamsFromSpsc_inForce E.toParamEngine (c := paramCtx s p) h.1 q, h.2⟩
  cases c with
  | params q => exact hparams s p q h
  | loadModel m => exact ⟨h.1, h.2⟩
  | loadCabIr pair => exact hcab s p pair h
  | setOversample osL osR => exact ⟨h.1, h.2⟩
  | restoreTxn txn =>
    simp only [applyStructural, coldApplyRestoreTxn, ClapParamPayload.request]
    refine hparams _ _ txn.params ?_
    cases txn.model <;> cases txn.ir
    · exact h
    · exact hcab _ _ _ h
    · exact ⟨h.1, h.2⟩
    · exact hcab _ _ _ ⟨h.1, h.2⟩

theorem replayRecovered_runsAt {s : Shared} {p : Processor} {a : ActivationPrecision}
    (h : RunsAt m a p) : RunsAt m (lastPrecision a (p.recoveredCommands.map (·.request)))
      (replayRecovered E s p).2 := by
  have hall : ∀ (cs : List ClapParamPayload) (r : Shared × Processor) (a : ActivationPrecision),
      RunsAt m a r.2 → RunsAt m (lastPrecision a (cs.map (·.request)))
        (cs.foldl (fun r c => applyStructural E r.1 r.2 c) r).2 := by
    intro cs
    induction cs with
    | nil => exact fun r a h => h
    | cons c cs ih => exact fun r a h => ih _ _ (applyStructural_runsAt E h c)
  exact hall _ _ _ ⟨h.1, h.2⟩

/-- The requests of a synchronization, where the generation moved. -/
def syncRequests (s : Shared) (p : Processor) : List Request :=
  if s.ui.guiParamGeneration = p.lastSeenGeneration then [] else [s.ui.request E.toParamEngine]

theorem syncGeneration_runsAt {s : Shared} {p : Processor} {a : ActivationPrecision}
    (h : RunsAt m a p) :
    RunsAt m (lastPrecision a (syncRequests E s p)) (syncGeneration E s p).2 := by
  unfold syncGeneration syncRequests
  split_ifs
  · exact h
  · exact ⟨syncParamsFromGui_inForce E.toParamEngine (c := paramCtx s p) h.1, h.2⟩

theorem hostEvents_runsAt {s : Shared} {p : Processor} {a : ActivationPrecision}
    (h : RunsAt m a p) (es : List ScheduledEvent) :
    RunsAt m (lastPrecision a (es.map (·.request E.toParamEngine))) (hostEvents E s p es).2 := by
  have hall : ∀ (es : List ScheduledEvent) (r : Shared × Processor) (a : ActivationPrecision),
      RunsAt m a r.2 → RunsAt m (lastPrecision a (es.map (·.request E.toParamEngine)))
        (es.foldl (fun r e => hostEvent E r.1 r.2 e) r).2 := by
    intro es
    induction es with
    | nil => exact fun r a h => h
    | cons e es ih =>
      exact fun r a h => ih _ _
        ⟨applyEvent_inForce E.toParamEngine (c := paramCtx r.1 r.2) h.1 e true, h.2⟩
  exact hall _ _ _ h

theorem flushInnerEvent_runsAt {s : Shared} {p : Processor} {a : ActivationPrecision}
    (h : RunsAt m a p) (e : ScheduledEvent) :
    RunsAt m (lastPrecision a [e.request E.toParamEngine]) (flushInnerEvent E s p e).1.2 := by
  unfold flushInnerEvent
  cases hp : ParamId.ofCode e.paramId with
  | none =>
    simp only [ScheduledEvent.request, hp]
    exact h
  | some q =>
    cases hm : e.isMod with
    | true =>
      have hnone : e.request E.toParamEngine = .empty := by
        unfold ScheduledEvent.request
        rw [hp, hm]
        cases q <;> rfl
      rw [hnone]
      cases q <;> exact ⟨⟨h.1.1, h.1.2⟩, h.2⟩
    | false =>
      have hset := setParam_inForce E.toParamEngine (c := paramCtx s p) h.1 hp hm
      cases q <;> exact ⟨hset, h.2⟩

/-- The processor a flush synchronizes, and the state after its events. -/
def flushedEvents (s : Shared) (p : Processor) (room : Nat) (es : List ScheduledEvent) :
    Shared × Processor :=
  let s := { s with ui := (writeGuiEvents s.ui room).ui }
  let r := es.foldl (fun r e =>
    let q := flushInnerEvent E r.1.1 r.1.2 e
    (q.1, r.2 || q.2)) ((s, p), false)
  (if r.2 then r.1.1.bumpGeneration else r.1.1, r.1.2)

theorem flushInner_eq (s : Shared) (p : Processor) (room : Nat) (es : List ScheduledEvent) :
    flushInner E s p room es =
      syncGeneration E (flushedEvents E s p room es).1 (flushedEvents E s p room es).2 := rfl

theorem flushedEvents_runsAt {s : Shared} {p : Processor} {a : ActivationPrecision}
    (h : RunsAt m a p) (room : Nat) (es : List ScheduledEvent) :
    RunsAt m (lastPrecision a (es.map (·.request E.toParamEngine)))
      (flushedEvents E s p room es).2 := by
  have hall : ∀ (es : List ScheduledEvent) (r : (Shared × Processor) × Bool)
      (a : ActivationPrecision), RunsAt m a r.1.2 →
      RunsAt m (lastPrecision a (es.map (·.request E.toParamEngine))) (es.foldl (fun r e =>
        let q := flushInnerEvent E r.1.1 r.1.2 e
        (q.1, r.2 || q.2)) r).1.2 := by
    intro es
    induction es with
    | nil => exact fun r a h => h
    | cons e es ih => exact fun r a h => ih _ _ (flushInnerEvent_runsAt E h e)
  exact hall _ _ _ h

/-! ## What a step takes over -/

/-- The requests that a step of the audio thread takes over, in order. -/
def taken (s : Shared) (p : Processor) : AudioAction → List Request
  | .beginEvents _ => p.recoveredCommands.map (·.request)
  | .drain .installDeferred => p.deferred.toList.map (·.request)
  | .drain .installCandidate => p.candidate.toList.map (·.request)
  | .drain .applyParams => s.ring.head?.toList.map (·.request)
  | .endEvents => syncRequests E s p
  | .hostEvents es => es.map (·.request E.toParamEngine)
  | .flushInner room es =>
    let r := flushedEvents E s p room es
    es.map (·.request E.toParamEngine) ++ syncRequests E r.1 r.2
  | _ => []

/-- The precision in force follows what is taken over; the end of `process_events` is apart. -/
theorem audioStep_runsAt {s : Shared} {p : Processor} {a : AudioAction} {r : Shared × Processor}
    {v : ActivationPrecision} (h : audioStep E s p a = some r) (hne : a ≠ .endEvents)
    (hp : RunsAt m v p) : RunsAt m (lastPrecision v (taken E s p a)) r.2 := by
  cases a with
  | beginEvents room =>
    simp only [audioStep] at h
    split_ifs at h
    obtain rfl := Option.some.inj h
    exact replayRecovered_runsAt E (p := { p with inCallback := true }) ⟨hp.1, hp.2⟩
  | drain m =>
    simp only [audioStep] at h
    split_ifs at h
    cases drainMove_spec E h with
    | installDeferred hd =>
      simp only [taken, hd]
      exact applyStructural_runsAt E (p := { p with
        deferred := none, processedSeq := p.processedSeq + 1, resolved := p.resolved + 1 }) ⟨hp.1, hp.2⟩ _
    | discardDeferred hd hr hs => exact ⟨hp.1, hp.2⟩
    | applyParams hd hr =>
      simp only [taken, hr]
      exact applyStructural_runsAt E (p := { p with
        processedSeq := p.processedSeq + 1, resolved := p.resolved + 1 }) ⟨hp.1, hp.2⟩ (.params _)
    | popCandidate hd hc hr hs => exact ⟨hp.1, hp.2⟩
    | supersede hd hc hr hs => exact ⟨hp.1, hp.2⟩
    | installCandidate hd hc =>
      simp only [taken, hc]
      exact applyStructural_runsAt E
        (p := { p with candidate := none, resolved := p.resolved + 1 }) ⟨hp.1, hp.2⟩ _
  | endEvents => exact absurd rfl hne
  | hostEvents es =>
    simp only [audioStep] at h
    split_ifs at h
    obtain rfl := Option.some.inj h
    exact hostEvents_runsAt E hp es
  | flushInner room es =>
    simp only [audioStep] at h
    split_ifs at h
    obtain rfl := Option.some.inj h
    rw [flushInner_eq]
    simp only [taken, lastPrecision_append]
    exact syncGeneration_runsAt E (flushedEvents_runsAt E hp room es)
  | slimmable m =>
    simp only [audioStep] at h
    split_ifs at h
    cases slimmableMove_spec h <;> exact ⟨hp.1, hp.2⟩
  | signalSlimmableRebuild ch =>
    simp only [audioStep] at h
    split_ifs at h
    obtain rfl := Option.some.inj h
    exact ⟨hp.1, hp.2⟩
  | reset =>
    simp only [audioStep] at h
    split_ifs at h
    obtain rfl := Option.some.inj h
    exact ⟨⟨hp.1.1, hp.1.2⟩, hp.2⟩

/-! ## The end of `process_events` -/

/-- The precision in force after the render mode section: both edges set it. -/
def followedPrecision (mode last : RenderMode) (snapshot a : ActivationPrecision) :
    ActivationPrecision :=
  match mode, last with
  | .offline, .realtime => .standard
  | .realtime, .offline => snapshot
  | _, _ => a

/-- What the render mode section leaves. -/
structure Follows (s : Shared) (p : Processor) (a : ActivationPrecision) (q : Processor) : Prop where
  runsAt : RunsAt s.renderMode
    (followedPrecision s.renderMode p.lastRenderMode p.realtimeActivation a) q
  off : s.renderMode = .offline → q.rt.adaptive.mode = .off
  mode : s.renderMode = .realtime → p.lastRenderMode = .offline →
    q.rt.adaptive.mode = E.adaptiveOfF32 (ofNat s.ui.paramAdaptiveCompute.toNat)

theorem followRenderMode_spec (s : Shared) {p : Processor} {a : ActivationPrecision}
    (h : InForce p.rt a) : Follows E s p a (followRenderMode E s p) := by
  unfold followRenderMode
  cases hm : s.renderMode <;> cases hl : p.lastRenderMode <;>
    simp only [reduceCtorEq, if_true, if_false, false_and, true_and]
  · exact ⟨by rw [hm, hl]; exact ⟨h, hl⟩, by simp [hm], by simp [hl]⟩
  · refine ⟨?_, by simp [hm], fun _ _ => rfl⟩
    rw [hm, hl]
    exact ⟨⟨rfl, rfl⟩, rfl⟩
  · -- the edge forces the controller off already
    refine ⟨?_, fun _ => rfl, by simp [hm]⟩
    rw [hm, hl]
    exact ⟨⟨rfl, rfl⟩, rfl⟩
  · split_ifs with hne
    · refine ⟨?_, fun _ => rfl, by simp [hm]⟩
      rw [hm, hl]
      exact ⟨⟨h.1, h.2⟩, rfl⟩
    · refine ⟨?_, fun _ => not_not.1 hne, by simp [hm]⟩
      rw [hm, hl]
      exact ⟨h, hl⟩

/-- The synchronization leaves what the render mode section reads. -/
theorem syncGeneration_follow (s : Shared) (p : Processor) :
    (syncGeneration E s p).1.renderMode = s.renderMode ∧ (syncGeneration E s p).1.ui = s.ui ∧
      (syncGeneration E s p).2.lastRenderMode = p.lastRenderMode ∧
      (syncGeneration E s p).2.realtimeActivation = p.realtimeActivation := by
  unfold syncGeneration
  split
  · exact ⟨rfl, rfl, rfl, rfl⟩
  · have hother := syncOthers_other E.toParamEngine (paramCtx s p)
    refine ⟨rfl, ?_, rfl, rfl⟩
    show (syncParamsFromGui E.toParamEngine (paramCtx s p)).ui = s.ui
    unfold syncParamsFromGui
    dsimp only
    generalize syncOversampleFromGui E.toParamEngine _ = d at hother ⊢
    obtain ⟨t, ht⟩ := syncActivationFromGui_eq E.toParamEngine d
    rw [ht]
    exact hother.ui

/-- The end of `process_events` takes the shared parameters over and follows the render mode. -/
theorem endEvents_follows {s : Shared} {p : Processor} {a : ActivationPrecision}
    (h : InForce p.rt a) : Follows E s p (lastPrecision a (syncRequests E s p))
      (endEvents E s p).2 ∧ (endEvents E s p).1.renderMode = s.renderMode := by
  obtain ⟨hrt, hlast, hsnap, hseen, hmode, hui⟩ : (endDrain s p).2.rt = p.rt ∧
      (endDrain s p).2.lastRenderMode = p.lastRenderMode ∧
      (endDrain s p).2.realtimeActivation = p.realtimeActivation ∧
      (endDrain s p).2.lastSeenGeneration = p.lastSeenGeneration ∧
      (endDrain s p).1.renderMode = s.renderMode ∧ (endDrain s p).1.ui = s.ui := by
    unfold endDrain
    cases p.candidate <;> exact ⟨rfl, rfl, rfl, rfl, rfl, rfl⟩
  obtain ⟨hmode', hui', hlast', hsnap'⟩ :=
    syncGeneration_follow E (endDrain s p).1 (endDrain s p).2
  have hsync := syncGeneration_runsAt E (m := p.lastRenderMode) (s := (endDrain s p).1)
    ⟨hrt ▸ h, hlast⟩
  have hreq : syncRequests E (endDrain s p).1 (endDrain s p).2 = syncRequests E s p := by
    unfold syncRequests
    rw [hseen, hui]
  rw [hreq] at hsync
  have hf := followRenderMode_spec E (syncGeneration E (endDrain s p).1 (endDrain s p).2).1 hsync.rt
  obtain ⟨h1, h2, h3⟩ := hf
  rw [hmode', hmode] at h1 h2 h3
  rw [hlast', hlast, hsnap', hsnap] at h1
  rw [hlast', hlast, hui', hui] at h3
  exact ⟨⟨⟨⟨h1.1.1, h1.1.2⟩, h1.2⟩, h2, h3⟩, hmode'.trans hmode⟩

end

/-! ## Tracked requests -/

/-- An instance with what was asked for last. `since` is the precision the processor took over last
since it went offline, standard if none; `ended` says that the last step ended `process_events`, and
`returned` that the processor was back in realtime there. A value that the main thread stores in the
shared parameters is asked for from then on, and one of a command once the command is taken over. -/
structure Tracked where
  plugin : Plugin
  mode : AdaptiveComputeMode
  precision : ActivationPrecision
  since : ActivationPrecision
  ended : Bool
  returned : Bool

/-- Offline the controller is off and the precision standard, and the first `process_events` back in
realtime takes what was asked for last. -/
def Tracked.Followed (w : Tracked) : Prop :=
  ∀ p, w.plugin.proc = some p →
    (w.ended = true → w.plugin.shared.renderMode = .offline →
        p.rt.adaptive.mode = .off ∧ p.rt.activationTls = .standard) ∧
      (w.returned = true → p.rt.adaptive.mode = w.mode ∧ p.rt.activationTls = w.precision)

section
variable (E : Engine)

/-- The requests of a step. -/
def requests (x y : Plugin) : Action → List Request
  | .audio a =>
    match x.proc with
    | some p => taken E x.shared p a
    | none => []
  | _ => [x.shared.ui.stored E.toParamEngine y.shared.ui]

/-- A step with the requests. -/
def trackStep (w : Tracked) (a : Action) : Option Tracked :=
  (step E w.plugin a).map fun y =>
    let rs := requests E w.plugin y a
    let last : Option RenderMode := w.plugin.proc.map (·.lastRenderMode)
    let ended := match a with
      | .audio .endEvents => true
      | _ => false
    { plugin := y
      mode := lastMode w.mode rs
      precision := lastPrecision w.precision rs
      since :=
        match a with
        | .audio .endEvents =>
          if last = some .realtime then .standard else lastPrecision w.since rs
        | .audio _ => lastPrecision w.since rs
        | _ => w.since
      ended
      returned := ended && last == some .offline && y.shared.renderMode == .realtime }

def Tracked.init : Tracked :=
  let x := Plugin.init E.toParamEngine
  ⟨x, x.shared.ui.sharedMode E.toParamEngine, x.shared.ui.sharedPrecision E.toParamEngine, .standard,
    false, false⟩

/-- The end of `process_events` finds what was asked for: in an offline stretch, a standard precision
was taken over last; and back in realtime, the atomics and the snapshot hold what was asked for
last. -/
def FollowsRequests (w : Tracked) : Action → Prop
  | .audio .endEvents => ∀ p ∈ w.plugin.proc,
      let s := w.plugin.shared
      let rs := syncRequests E s p
      match s.renderMode, p.lastRenderMode with
      | .offline, .offline => lastPrecision w.since rs = .standard
      | .realtime, .offline =>
        E.adaptiveOfF32 (ofNat s.ui.paramAdaptiveCompute.toNat) = lastMode w.mode rs ∧
          p.realtimeActivation = lastPrecision w.precision rs
      | _, _ => True
  | _ => True

/-- The processor has one precision in force; offline, the one it took over last. -/
def TrackInv (w : Tracked) : Prop :=
  ∀ p, w.plugin.proc = some p →
    ∃ a, InForce p.rt a ∧ (p.lastRenderMode = .offline → a = w.since)

theorem Tracked.followed_idle {w : Tracked} (he : w.ended = false) (hr : w.returned = false) :
    w.Followed := by
  intro p _
  rw [he, hr]
  exact ⟨fun h => (by cases h), fun h => (by cases h)⟩

/-- The end of `process_events`. -/
theorem endEvents_followed {w : Tracked} {p : Processor} {y : Tracked} (hw : TrackInv w)
    (hp : w.plugin.proc = some p) (hin : p.inCallback = true)
    (h : trackStep E w (.audio .endEvents) = some y) :
    TrackInv y ∧ (y.Followed ↔ FollowsRequests E w (.audio .endEvents)) := by
  obtain ⟨x, m, pr, si, en, re⟩ := w
  obtain ⟨s, q⟩ := x
  obtain rfl : q = some p := hp
  obtain ⟨z, hz, rfl⟩ := Option.map_eq_some_iff.1 h
  obtain ⟨t, ht, rfl⟩ := Option.map_eq_some_iff.1 hz
  simp only [audioStep, hin, if_true] at ht
  obtain rfl := Option.some.inj ht
  obtain ⟨a, ha, hsince⟩ := hw p rfl
  obtain ⟨⟨⟨hrt, hlast⟩, hoff, hmode⟩, hrender⟩ := endEvents_follows E (s := s) ha
  simp only [requests, taken, FollowsRequests, TrackInv, Tracked.Followed, Option.map_some,
    Option.mem_some_iff, forall_eq', Option.some.injEq, Bool.true_and, true_imp_iff, hrender]
  generalize endEvents E s p = e at *
  generalize syncRequests E s p = rs at *
  obtain ⟨-, htls⟩ := id hrt
  cases hm : s.renderMode <;> cases hl : p.lastRenderMode <;>
    rw [hm] at hlast hoff hmode <;> rw [hm, hl] at hrt htls <;>
    simp only [followedPrecision] at hrt htls <;>
    simp only [reduceCtorEq, if_true, if_false, false_imp_iff, true_imp_iff, true_and]
  case realtime.realtime =>
    exact ⟨⟨_, hrt, fun h => by rw [hlast] at h; cases h⟩, by simp⟩
  case realtime.offline =>
    refine ⟨⟨_, hrt, fun h => by rw [hlast] at h; cases h⟩, ?_⟩
    rw [hmode rfl hl, htls]
    simp
  case offline.realtime =>
    refine ⟨⟨_, hrt, fun _ => rfl⟩, ?_⟩
    rw [hoff rfl, htls]
    simp
  case offline.offline =>
    have hsi : a = si := hsince hl
    subst hsi
    refine ⟨⟨_, hrt, fun _ => rfl⟩, ?_⟩
    rw [hoff rfl, htls]
    simp

/-- A new processor runs at the precision of its parameters, in realtime. -/
theorem activates_runsAt {s : Shared} {cfg : AudioConfig} {faults : ActivateCall → Bool}
    {x : Shared × Option Processor} (h : Activates E s cfg faults x) :
    ∀ p, x.2 = some p → RunsAt .realtime p.rt.params.activationPrecision p := by
  intro p hp
  cases h with
  | ok hprep hf =>
    obtain rfl := Option.some.inj hp
    exact ⟨⟨rfl, rfl⟩, rfl⟩
  | _ => cases hp

/-- A step of the audio thread within a callback, or between two. -/
theorem audio_tracked {w y : Tracked} {a : AudioAction} (hw : TrackInv w) (hne : a ≠ .endEvents)
    (h : trackStep E w (.audio a) = some y) :
    TrackInv y ∧ y.ended = false ∧ y.returned = false := by
  obtain ⟨z, hz, rfl⟩ := Option.map_eq_some_iff.1 h
  obtain ⟨p, hp, h⟩ := Option.bind_eq_some_iff.1 hz
  obtain ⟨r, hr, rfl⟩ := Option.map_eq_some_iff.1 h
  obtain ⟨v, hv, hsince⟩ := hw p hp
  obtain ⟨hrt, hlast⟩ := audioStep_runsAt E hr hne ⟨hv, rfl⟩
  have hinv : ∀ q, some r.2 = some q → ∃ b, InForce q.rt b ∧ (q.lastRenderMode = .offline →
      b = lastPrecision w.since (requests E w.plugin ⟨r.1, some r.2⟩ (.audio a))) := by
    rintro q ⟨⟩
    refine ⟨_, hrt, fun hq => ?_⟩
    rw [hsince (hlast.symm.trans hq)]
    simp only [requests, hp]
  cases a with
  | endEvents => exact absurd rfl hne
  | _ => exact ⟨hinv, rfl, rfl⟩

theorem TrackInv.step {w y : Tracked} {a : Action} (hw : TrackInv w)
    (h : trackStep E w a = some y) : TrackInv y ∧ (y.Followed ↔ FollowsRequests E w a) := by
  cases a with
  | audio a =>
    by_cases ha : a = .endEvents
    · subst ha
      obtain ⟨z, hz, -⟩ := Option.map_eq_some_iff.1 h
      obtain ⟨p, hp, k⟩ := Option.bind_eq_some_iff.1 hz
      obtain ⟨r, hr, -⟩ := Option.map_eq_some_iff.1 k
      refine endEvents_followed E hw hp ?_ h
      simp only [audioStep] at hr
      split_ifs at hr with hin
      exact hin
    · obtain ⟨hinv, he, hr⟩ := audio_tracked E hw ha h
      refine ⟨hinv, iff_of_true (Tracked.followed_idle he hr) ?_⟩
      cases a with
      | endEvents => exact absurd rfl ha
      | _ => trivial
  | main a =>
    obtain ⟨z, hz, rfl⟩ := Option.map_eq_some_iff.1 h
    obtain rfl := Option.some.inj hz
    exact ⟨hw, iff_of_true (Tracked.followed_idle rfl rfl) trivial⟩
  | deactivate =>
    obtain ⟨z, hz, rfl⟩ := Option.map_eq_some_iff.1 h
    refine ⟨?_, iff_of_true (Tracked.followed_idle rfl rfl) trivial⟩
    simp only [NamPlug.step] at hz
    split at hz
    · split_ifs at hz
      obtain rfl := Option.some.inj hz
      rintro p ⟨⟩
    · cases hz
  | activate cfg faults =>
    obtain ⟨z, hz, rfl⟩ := Option.map_eq_some_iff.1 h
    refine ⟨?_, iff_of_true (Tracked.followed_idle rfl rfl) trivial⟩
    simp only [NamPlug.step] at hz
    split_ifs at hz
    obtain rfl := Option.some.inj hz
    intro p hp
    obtain ⟨hrt, hlast⟩ := activates_runsAt E (activate_spec E w.plugin.shared cfg faults) p hp
    exact ⟨_, hrt, fun hoff => by rw [hlast] at hoff; cases hoff⟩

theorem TrackInv.init : TrackInv (.init E) := fun _ h => (by cases h)

/-- In every run, every end of `process_events` forces the offline settings, and the first one back in
realtime takes what was asked for last, if each finds what was asked for, and only then. -/
theorem offline_forced_and_undone {as : List Action} {w : Tracked}
    (h : run (trackStep E) (.init E) as = some w) :
    (∀ bs u, bs <+: as → run (trackStep E) (.init E) bs = some u → u.Followed) ↔
      Guarded (trackStep E) (FollowsRequests E) (.init E) as :=
  always_iff_guarded (P := fun w => TrackInv w ∧ w.Followed) (fun _ hw => hw.2)
    (fun _ _ _ hw hu hf => (hw.1.step E hu).2.1 hf)
    (fun _ _ _ hw hu hG => ⟨(hw.1.step E hu).1, (hw.1.step E hu).2.2 hG⟩)
    ⟨.init E, Tracked.followed_idle rfl rfl⟩ h

end

/-! ## Runs of the reference engine -/

def refEvent (id : Nat) (v : F32) : Action := .audio (.hostEvents [⟨0, id, v, false⟩])

/-- The fast precision is set in realtime and the aggressive mode offline, and the host renders in
realtime again. -/
def refBounce : List Action :=
  [refActivate, refEvent 8 f0] ++ processEvents 0 [] ++ [.main (.setRenderMode .offline)] ++
    processEvents 0 [] ++ [refEvent 5 f2] ++ processEvents 0 [] ++
    [.main (.setRenderMode .realtime)] ++ processEvents 0 []

instance (w : Tracked) (a : Action) : Decidable (FollowsRequests refEngine w a) :=
  match a with
  | .audio .endEvents => by
    unfold FollowsRequests
    exact @Option.decidableForallMem _ _ (fun p => by dsimp only; split <;> infer_instance) _
  | .main _ => isTrue trivial
  | .activate _ _ => isTrue trivial
  | .deactivate => isTrue trivial
  | .audio (.beginEvents _) => isTrue trivial
  | .audio (.drain _) => isTrue trivial
  | .audio (.hostEvents _) => isTrue trivial
  | .audio (.flushInner _ _) => isTrue trivial
  | .audio (.slimmable _) => isTrue trivial
  | .audio (.signalSlimmableRebuild _) => isTrue trivial
  | .audio .reset => isTrue trivial

theorem offline_forced_and_undone_bounce :
    ∃ w p, run (trackStep refEngine) (.init refEngine) refBounce = some w ∧
      w.plugin.proc = some p ∧ w.returned = true ∧ w.mode = .aggressive ∧ w.precision = .fast ∧
      p.rt.adaptive.mode = w.mode ∧ p.rt.activationTls = w.precision := by
  have hsome : (run (trackStep refEngine) (.init refEngine) refBounce).map
      (fun w => (w.plugin.proc.isSome, w.returned, w.mode, w.precision)) =
      some (true, true, .aggressive, .fast) := by decide +kernel
  obtain ⟨w, hw, hval⟩ := Option.map_eq_some_iff.1 hsome
  simp only [Prod.mk.injEq] at hval
  obtain ⟨hproc, hret, hmode, hprec⟩ := hval
  obtain ⟨p, hp⟩ := Option.isSome_iff_exists.1 hproc
  have hfollowed := (offline_forced_and_undone refEngine hw).2 (by decide +kernel) refBounce w
    (List.prefix_refl _) hw
  obtain ⟨h1, h2⟩ := (hfollowed p hp).2 hret
  exact ⟨w, p, hw, hp, hret, hmode, hprec, h1, h2⟩

/-- The fast precision is set offline. -/
def refFastOffline : List Action :=
  [refActivate, .main (.setRenderMode .offline)] ++ processEvents 0 [] ++ [refEvent 8 f0] ++
    processEvents 0 []

/-- The processor renders at the fast precision, and back in realtime it is standard. -/
theorem offline_not_forced :
    (∃ w p, run (trackStep refEngine) (.init refEngine) refFastOffline = some w ∧
      w.plugin.proc = some p ∧ p.rt.activationTls = .fast ∧ ¬w.Followed) ∧
    ∃ w p, run (trackStep refEngine) (.init refEngine)
        (refFastOffline ++ [.main (.setRenderMode .realtime)] ++ processEvents 0 []) = some w ∧
      w.plugin.proc = some p ∧ w.precision = .fast ∧ p.rt.activationTls = .standard ∧
      ¬w.Followed := by
  constructor
  · have hsome : (run (trackStep refEngine) (.init refEngine) refFastOffline).map
        (fun w => (w.ended, w.plugin.shared.renderMode, w.plugin.proc.map (·.rt.activationTls))) =
        some (true, .offline, some .fast) := by decide +kernel
    obtain ⟨w, hw, hval⟩ := Option.map_eq_some_iff.1 hsome
    simp only [Prod.mk.injEq, Option.map_eq_some_iff] at hval
    obtain ⟨hend, hmode, p, hp, htls⟩ := hval
    refine ⟨w, p, hw, hp, htls, fun hf => ?_⟩
    have := ((hf p hp).1 hend hmode).2
    rw [htls] at this
    cases this
  · have hsome : (run (trackStep refEngine) (.init refEngine) (refFastOffline ++
        [.main (.setRenderMode .realtime)] ++ processEvents 0 [])).map
        (fun w => (w.returned, w.precision, w.plugin.proc.map (·.rt.activationTls))) =
        some (true, .fast, some .standard) := by decide +kernel
    obtain ⟨w, hw, hval⟩ := Option.map_eq_some_iff.1 hsome
    simp only [Prod.mk.injEq, Option.map_eq_some_iff] at hval
    obtain ⟨hret, hprec, p, hp, htls⟩ := hval
    refine ⟨w, p, hw, hp, hprec, htls, fun hf => ?_⟩
    have := ((hf p hp).2 hret).2
    rw [hprec, htls] at this
    cases this

end NamPlug
