import NamPlug.Plugin.Proof.Frame

/-!
# What the audio thread installs

`AudioFrame r r'`: from `r` to `r'` the audio thread installed commands and applied parameters, and
moved nothing else. `applyStructural_frame`, `hostEvents_frame` and `flushInner_frame` say so of the
operations, the `carries` lemmas which model and impulse response they leave.
-/

namespace NamPlug

open Binary32

/-! ## What a command carries -/

/-- The impulse response a command installs. -/
def ClapParamPayload.ir? : ClapParamPayload → Option (Option CabSimPair)
  | .loadCabIr pair => some pair
  | .restoreTxn txn => txn.ir
  | _ => none

/-- The restore a command is. -/
def ClapParamPayload.restore? : ClapParamPayload → Option RestoreTxn
  | .restoreTxn txn => some txn
  | _ => none

/-- Commands that supersede each other carry the same kind of thing, and no restore. -/
theorem supersedes_spec {c d : ClapParamPayload} (h : c.supersedes d = true) :
    (c.model?.isSome = d.model?.isSome) ∧ (c.ir?.isSome = d.ir?.isSome) ∧
      c.restore? = none ∧ d.restore? = none ∧ c.isStructural = true := by
  cases c <;> cases d <;> first | exact ⟨rfl, rfl, rfl, rfl, rfl⟩ | cases h

/-! ## The frame -/

/-- `s` with what the audio thread writes outside the command path taken from `t`. -/
def Shared.over (s t : Shared) : Shared :=
  { s with
    ui := t.ui
    pendingRestartOs := t.pendingRestartOs
    osRequest := t.osRequest
    currentStreamLatency := t.currentStreamLatency
    currentCabsimLatency := t.currentCabsimLatency
    currentLatency := t.currentLatency
    lastAppliedGeneration := t.lastAppliedGeneration
    slim := t.slim
    log := t.log }

/-- `p` with its resources and parameters taken from `q`. -/
def Processor.over (p q : Processor) : Processor :=
  { p with
    modelL := q.modelL
    modelR := q.modelR
    modelGeneration := q.modelGeneration
    cabsimPair := q.cabsimPair
    resampler := q.resampler
    stream := q.stream
    osL := q.osL
    osR := q.osR
    rt := q.rt
    appliedOsFactor := q.appliedOsFactor
    cachedEffectiveLatency := q.cachedEffectiveLatency
    dryDelay := q.dryDelay
    slim := q.slim
    lastSeenGeneration := q.lastSeenGeneration
    lastRenderMode := q.lastRenderMode
    realtimeActivation := q.realtimeActivation }

structure AudioFrame (r r' : Shared × Processor) : Prop where
  shared : r'.1 = r.1.over r'.1
  proc : r'.2 = r.2.over r'.2

theorem AudioFrame.refl (r : Shared × Processor) : AudioFrame r r := ⟨rfl, rfl⟩

theorem AudioFrame.trans {r r' r'' : Shared × Processor} (h : AudioFrame r r')
    (k : AudioFrame r' r'') : AudioFrame r r'' where
  shared := k.shared.trans (congrArg (·.over r''.1) h.shared)
  proc := k.proc.trans (congrArg (·.over r''.2) h.proc)

section
variable (E : Engine)

theorem coldLoadModel_frame (s : Shared) (p : Processor) (m : LoadModelPayload) :
    AudioFrame (s, p) (coldLoadModel E s p m) := ⟨rfl, rfl⟩

theorem coldLoadCabsim_frame (s : Shared) (p : Processor) (pair : Option CabSimPair) :
    AudioFrame (s, p) (coldLoadCabsim E s p pair) := by
  unfold coldLoadCabsim
  split
  · exact .refl _
  · exact ⟨rfl, rfl⟩

theorem applyParams_frame (s : Shared) (p : Processor) (q : RtProcessingParams) :
    AudioFrame (s, p) (applyParams E s p q) := ⟨rfl, rfl⟩

/-! ### The parts of a restore -/

/-- The model of a restore, where it has one. -/
def coldApplyModel (r : Shared × Processor) (model : Option LoadModelPayload) : Shared × Processor :=
  model.elim r (coldLoadModel E r.1 r.2)

/-- The impulse response of a restore, where it has one. -/
def coldApplyIr (r : Shared × Processor) (ir : Option (Option CabSimPair)) : Shared × Processor :=
  ir.elim r (coldLoadCabsim E r.1 r.2)

@[simp] theorem coldApplyIr_some (r : Shared × Processor) (pair : Option CabSimPair) :
    coldApplyIr E r (some pair) = coldLoadCabsim E r.1 r.2 pair := rfl

/-- The parameters of a restore, and its generation. -/
def coldApplyParams (r : Shared × Processor) (txn : RestoreTxn) : Shared × Processor :=
  let r := applyParams E r.1 r.2 txn.params
  ({ r.1 with lastAppliedGeneration := txn.generation }.note (.applied txn.generation), r.2)

theorem coldApplyRestoreTxn_eq (s : Shared) (p : Processor) (txn : RestoreTxn) :
    coldApplyRestoreTxn E s p txn =
      coldApplyParams E (coldApplyIr E (coldApplyModel E (s, p) txn.model) txn.ir) txn := by
  obtain ⟨generation, model, ir, params⟩ := txn
  cases model <;> cases ir <;> rfl

/-- What no impulse response changes, that of a restore does not change. -/
theorem coldApplyIr_eq {β : Type*} (f : Shared × Processor → β)
    (h : ∀ r pair, f (coldLoadCabsim E r.1 r.2 pair) = f r) (r : Shared × Processor)
    (ir : Option (Option CabSimPair)) : f (coldApplyIr E r ir) = f r := by
  cases ir with
  | none => rfl
  | some pair => exact h r pair

theorem applyStructural_frame (s : Shared) (p : Processor) (c : ClapParamPayload) :
    AudioFrame (s, p) (applyStructural E s p c) := by
  cases c with
  | params q => exact applyParams_frame E s p q
  | loadModel m => exact coldLoadModel_frame E s p m
  | loadCabIr pair => exact coldLoadCabsim_frame E s p pair
  | setOversample osL osR => exact ⟨rfl, rfl⟩
  | restoreTxn txn =>
    have hm : AudioFrame (s, p) (coldApplyModel E (s, p) txn.model) := by
      cases txn.model with
      | none => exact .refl _
      | some m => exact coldLoadModel_frame E s p m
    have hi : ∀ r : Shared × Processor, AudioFrame r (coldApplyIr E r txn.ir) := by
      intro r
      cases txn.ir with
      | none => exact .refl _
      | some ir => exact coldLoadCabsim_frame E r.1 r.2 ir
    rw [applyStructural, coldApplyRestoreTxn_eq]
    exact ((hm.trans (hi _)).trans (applyParams_frame E _ _ txn.params)).trans ⟨rfl, rfl⟩

/-! ### Slimmed models -/

theorem SlimmableDrains.frame {s : Shared} {p : Processor} {m : SlimmableMove}
    {r : Shared × Processor} (h : SlimmableDrains s p m r) :
    AudioFrame (s, p) r ∧ r.1.log = s.log := by
  cases h <;> exact ⟨⟨rfl, rfl⟩, rfl⟩

theorem signalSlimmableRebuild_frame (s : Shared) (p : Processor) (ch : Nat) :
    AudioFrame (s, p) (signalSlimmableRebuild s p ch) := ⟨rfl, rfl⟩

theorem resetProcessor_frame (s : Shared) (p : Processor) :
    AudioFrame (s, p) (s, resetProcessor p) := ⟨rfl, rfl⟩

/-! ## What is installed -/

/-- The model a processor runs: its generation and its file. -/
def Processor.modelTag (p : Processor) : Nat × Option Asset :=
  (p.modelGeneration, p.modelL.map StaticModel.asset)

def LoadModelPayload.tag (m : LoadModelPayload) : Nat × Option Asset :=
  (m.generation, m.modelL.map StaticModel.asset)

/-- The impulse response a processor runs. -/
def Processor.irAsset (p : Processor) : Option Asset := p.cabsimPair.map CabSimPair.asset

theorem coldLoadCabsim_modelTag (s : Shared) (p : Processor) (pair : Option CabSimPair) :
    (coldLoadCabsim E s p pair).2.modelTag = p.modelTag := by
  unfold coldLoadCabsim
  split <;> rfl

theorem coldLoadCabsim_log (s : Shared) (p : Processor) (pair : Option CabSimPair) :
    (coldLoadCabsim E s p pair).1.log = s.log := by
  unfold coldLoadCabsim
  split <;> rfl

/-- A command is logged as applied where it is a restore. -/
theorem applyStructural_log (s : Shared) (p : Processor) (c : ClapParamPayload) :
    (applyStructural E s p c).1.log =
      (c.restore?.map fun txn => Event.applied txn.generation).toList ++ s.log := by
  cases c with
  | params q => rfl
  | loadModel m => rfl
  | loadCabIr pair => exact coldLoadCabsim_log E s p pair
  | setOversample osL osR => rfl
  | restoreTxn txn =>
    have hi : (coldApplyIr E (coldApplyModel E (s, p) txn.model) txn.ir).1.log =
        (coldApplyModel E (s, p) txn.model).1.log :=
      coldApplyIr_eq E (·.1.log) (fun r pair => coldLoadCabsim_log E r.1 r.2 pair) _ _
    rw [applyStructural, coldApplyRestoreTxn_eq]
    exact congrArg (Event.applied txn.generation :: ·) (hi.trans (by cases txn.model <;> rfl))

theorem coldLoadCabsim_reported (s : Shared) (p : Processor) (pair : Option CabSimPair) :
    (coldLoadCabsim E s p pair).1.currentLatency = s.currentLatency := by
  unfold coldLoadCabsim
  split <;> rfl

/-- The latency is reported at the end of a callback only. -/
theorem applyStructural_reported (s : Shared) (p : Processor) (c : ClapParamPayload) :
    (applyStructural E s p c).1.currentLatency = s.currentLatency := by
  cases c with
  | params q => rfl
  | loadModel m => rfl
  | loadCabIr pair => exact coldLoadCabsim_reported E s p pair
  | setOversample osL osR => rfl
  | restoreTxn txn =>
    have hi : (coldApplyIr E (coldApplyModel E (s, p) txn.model) txn.ir).1.currentLatency =
        (coldApplyModel E (s, p) txn.model).1.currentLatency :=
      coldApplyIr_eq E (·.1.currentLatency)
        (fun r pair => coldLoadCabsim_reported E r.1 r.2 pair) _ _
    rw [applyStructural, coldApplyRestoreTxn_eq]
    exact hi.trans (by cases txn.model <;> rfl)

/-! ## Events -/

/-- The intents of host events. -/
def ParamEvents (es : List Event) : Prop := ∀ e ∈ es, ∃ p raw, e = .param p raw

/-- `p` with its parameters taken from `q`. -/
def Processor.retuned (p q : Processor) : Processor :=
  { p with
    rt := q.rt
    lastSeenGeneration := q.lastSeenGeneration
    lastRenderMode := q.lastRenderMode
    realtimeActivation := q.realtimeActivation }

/-- A change of parameters only. -/
structure ParamFrame (r r' : Shared × Processor) : Prop extends AudioFrame r r' where
  retuned : r'.2 = r.2.retuned r'.2
  slim : r'.1.slim = r.1.slim
  reported : r'.1.currentLatency = r.1.currentLatency ∨
    r'.1.currentLatency = r'.2.cachedEffectiveLatency
  modelTag : r'.2.modelTag = r.2.modelTag
  cabsimPair : r'.2.cabsimPair = r.2.cabsimPair
  currentStreamLatency : r'.1.currentStreamLatency = r.1.currentStreamLatency
  currentCabsimLatency : r'.1.currentCabsimLatency = r.1.currentCabsimLatency
  log : ∃ es, r'.1.log = es ++ r.1.log ∧ ParamEvents es

theorem ParamFrame.refl (r : Shared × Processor) : ParamFrame r r :=
  ⟨.refl r, rfl, rfl, .inl rfl, rfl, rfl, rfl, rfl, [], rfl, by simp [ParamEvents]⟩

theorem ParamFrame.trans {r r' r'' : Shared × Processor} (h : ParamFrame r r')
    (k : ParamFrame r' r'') : ParamFrame r r'' := by
  obtain ⟨es, hl, he⟩ := h.log
  obtain ⟨fs, kl, kf⟩ := k.log
  refine ⟨h.toAudioFrame.trans k.toAudioFrame,
    k.retuned.trans (congrArg (·.retuned r''.2) h.retuned), k.slim.trans h.slim, ?_,
    k.modelTag.trans h.modelTag,
    k.cabsimPair.trans h.cabsimPair, k.currentStreamLatency.trans h.currentStreamLatency,
    k.currentCabsimLatency.trans h.currentCabsimLatency, fs ++ es,
    by rw [kl, hl, List.append_assoc], fun e hm => (List.mem_append.1 hm).elim (kf e) (he e)⟩
  rcases k.reported with hk | hk
  · have hc : r''.2.cachedEffectiveLatency = r'.2.cachedEffectiveLatency := by
      rw [k.retuned]
      rfl
    rw [hk, hc]
    exact h.reported
  · exact .inr hk

theorem putParamCtx_frame (s : Shared) (p : Processor) (c : ParamCtx) :
    ParamFrame (s, p) (putParamCtx s p c) :=
  ⟨⟨rfl, rfl⟩, rfl, rfl, .inl rfl, rfl, rfl, rfl, rfl, [], rfl, by simp [ParamEvents]⟩

theorem noteEvent_frame (s : Shared) (p : Processor) (id : Nat) (v : F32) :
    ParamFrame (s, p) (s.noteEvent E id v, p) := by
  unfold Shared.noteEvent
  split
  · exact .refl _
  · exact ⟨⟨rfl, rfl⟩, rfl, rfl, .inl rfl, rfl, rfl, rfl, rfl, [_], rfl, by simp [ParamEvents]⟩
  · exact .refl _

theorem ParamFrame.foldl {α : Type} (f : Shared × Processor → α → Shared × Processor)
    (hf : ∀ r a, ParamFrame r (f r a)) (as : List α) (r : Shared × Processor) :
    ParamFrame r (as.foldl f r) := by
  induction as generalizing r with
  | nil => exact .refl r
  | cons a as ih => exact (hf r a).trans (ih _)

theorem hostEvents_frame (s : Shared) (p : Processor) (es : List ScheduledEvent) :
    ParamFrame (s, p) (hostEvents E s p es) := by
  refine ParamFrame.foldl _ (fun r e => ?_) es (s, p)
  unfold hostEvent
  dsimp only
  split
  · exact putParamCtx_frame ..
  · exact (putParamCtx_frame r.1 r.2 _).trans (noteEvent_frame E _ _ e.paramId e.value)

theorem syncGeneration_frame (s : Shared) (p : Processor) :
    ParamFrame (s, p) (syncGeneration E s p) := by
  unfold syncGeneration
  split
  · exact .refl _
  · exact (putParamCtx_frame s p _).trans
      ⟨⟨rfl, rfl⟩, rfl, rfl, .inl rfl, rfl, rfl, rfl, rfl, [], rfl, by simp [ParamEvents]⟩

theorem ui_frame (s : Shared) (p : Processor) (u : UiToRt) :
    ParamFrame (s, p) ({ s with ui := u }, p) :=
  ⟨⟨rfl, rfl⟩, rfl, rfl, .inl rfl, rfl, rfl, rfl, rfl, [], rfl, by simp [ParamEvents]⟩

theorem flushInnerEvent_frame (s : Shared) (p : Processor) (e : ScheduledEvent) :
    ParamFrame (s, p) (flushInnerEvent E s p e).1 := by
  unfold flushInnerEvent
  dsimp only
  split
  · exact .refl _
  · exact (putParamCtx_frame s p _).trans (noteEvent_frame E _ _ e.paramId e.value)
  · exact putParamCtx_frame ..
  · exact .refl _

theorem flushInner_frame (s : Shared) (p : Processor) (room : Nat) (es : List ScheduledEvent) :
    ParamFrame (s, p) (flushInner E s p room es) := by
  have hall : ∀ (es : List ScheduledEvent) (r : (Shared × Processor) × Bool),
      ParamFrame r.1 (es.foldl (fun r e =>
        let q := flushInnerEvent E r.1.1 r.1.2 e
        (q.1, r.2 || q.2)) r).1 := by
    intro es
    induction es with
    | nil => exact fun r => .refl _
    | cons e es ih =>
      intro r
      rw [List.foldl_cons]
      refine ParamFrame.trans ?_ (ih _)
      exact flushInnerEvent_frame E r.1.1 r.1.2 e
  have h := (ui_frame s p (writeGuiEvents s.ui room).ui).trans (hall es ((_, p), false))
  unfold flushInner
  dsimp only
  split
  · exact (h.trans (ui_frame _ _ _)).trans (syncGeneration_frame E _ _)
  · exact h.trans (syncGeneration_frame E _ _)

/-! ## A callback -/

/-- The commands an activation recovered are installed one after the other. -/
theorem replayRecovered_frame (s : Shared) (p : Processor) :
    AudioFrame (s, { p with recoveredCommands := [] }) (replayRecovered E s p) := by
  have hall : ∀ (cs : List ClapParamPayload) (r : Shared × Processor),
      AudioFrame r (cs.foldl (fun r c => applyStructural E r.1 r.2 c) r) := by
    intro cs
    induction cs with
    | nil => exact fun r => .refl r
    | cons c cs ih => exact fun r => (applyStructural_frame E r.1 r.2 c).trans (ih _)
  exact hall _ _

theorem replayRecovered_reported (s : Shared) (p : Processor) :
    (replayRecovered E s p).1.currentLatency = s.currentLatency := by
  have hall : ∀ (cs : List ClapParamPayload) (r : Shared × Processor),
      (cs.foldl (fun r c => applyStructural E r.1 r.2 c) r).1.currentLatency =
        r.1.currentLatency := by
    intro cs
    induction cs with
    | nil => exact fun r => rfl
    | cons c cs ih => exact fun r => (ih _).trans (applyStructural_reported E r.1 r.2 c)
  exact hall _ _

/-- Every restore among them is logged as applied. -/
theorem replayRecovered_log (s : Shared) (p : Processor) :
    ∃ es, (replayRecovered E s p).1.log = es ++ s.log ∧ (∀ e ∈ es, ∃ g, e = .applied g) ∧
      ∀ c ∈ p.recoveredCommands, ∀ txn, c.restore? = some txn → .applied txn.generation ∈ es := by
  have hall : ∀ (cs : List ClapParamPayload) (r : Shared × Processor), ∃ es,
      (cs.foldl (fun r c => applyStructural E r.1 r.2 c) r).1.log = es ++ r.1.log ∧
        (∀ e ∈ es, ∃ g, e = .applied g) ∧
        ∀ c ∈ cs, ∀ txn, c.restore? = some txn → .applied txn.generation ∈ es := by
    intro cs
    induction cs with
    | nil => exact fun r => ⟨[], rfl, by simp, by simp⟩
    | cons c cs ih =>
      intro r
      obtain ⟨es, hl, he, hc⟩ := ih (applyStructural E r.1 r.2 c)
      refine ⟨es ++ (c.restore?.map fun txn => Event.applied txn.generation).toList, ?_, ?_, ?_⟩
      · rw [List.foldl_cons, hl, applyStructural_log, List.append_assoc]
      · intro e hm
        obtain hm | hm := List.mem_append.1 hm
        · exact he e hm
        · obtain ⟨txn, -, ht⟩ := Option.map_eq_some_iff.1 (Option.mem_toList.1 hm)
          exact ⟨_, ht.symm⟩
      · intro d hd txn ht
        obtain rfl | hd := List.mem_cons.1 hd
        · exact List.mem_append_right _ (by simp [ht])
        · exact List.mem_append_left _ (hc d hd txn ht)
  exact hall _ _

theorem followRenderMode_frame (s : Shared) (p : Processor) :
    ParamFrame (s, p) (s, followRenderMode E s p) := by
  have hrt : ∀ (p : Processor) (m : RenderMode) (a : ActivationPrecision) (r : RtParamState),
      ParamFrame (s, p) (s, { p with lastRenderMode := m, realtimeActivation := a, rt := r }) :=
    fun p m a r => ⟨⟨rfl, rfl⟩, rfl, rfl, .inl rfl, rfl, rfl, rfl, rfl, [], rfl, by simp [ParamEvents]⟩
  unfold followRenderMode
  dsimp only
  split
  · split
    · exact hrt p _ _ _
    · exact .refl _
  · split
    · split
      · exact (hrt p _ _ _).trans (hrt _ _ _ _)
      · exact hrt p _ _ _
    · split
      · exact (hrt p _ _ _).trans (hrt _ _ _ _)
      · exact hrt p _ _ _

/-- The end of a callback after its drain. -/
theorem endEvents_frame (s : Shared) (p : Processor) :
    ∃ r : Shared × Processor, ParamFrame (endDrain s p) r ∧
      endEvents E s p = (r.1, { r.2 with inCallback := false }) := by
  have hsync := syncGeneration_frame E (endDrain s p).1 (endDrain s p).2
  rcases hr : syncGeneration E (endDrain s p).1 (endDrain s p).2 with ⟨s1, p1⟩
  rw [hr] at hsync
  have hlat : ParamFrame (s1, p1) ({ s1 with currentLatency := p1.cachedEffectiveLatency }, p1) :=
    ⟨⟨rfl, rfl⟩, rfl, rfl, .inr rfl, rfl, rfl, rfl, rfl, [], rfl, by simp [ParamEvents]⟩
  refine ⟨_, (hsync.trans hlat).trans (followRenderMode_frame E _ _), ?_⟩
  simp only [endEvents, hr]
  rfl

/-! ## Steps of the audio thread -/

/-- `s` with all that the audio thread writes taken from `t`. -/
def Shared.audio (s t : Shared) : Shared :=
  { s.over t with ring := t.ring, cmdLastAck := t.cmdLastAck }

theorem audio_of_over {s u t : Shared} (h : t = u.over t) (hu : s.audio (u.over t) = u.over t) :
    t = s.audio t := by
  rw [← h] at hu
  exact hu.symm

/-- A step of the audio thread writes nothing else. -/
theorem audioStep_shared {s : Shared} {p : Processor} {a : AudioAction} {r : Shared × Processor}
    (h : audioStep E s p a = some r) : r.1 = s.audio r.1 := by
  cases a with
  | beginEvents room =>
    simp only [audioStep] at h
    split_ifs at h
    obtain rfl := Option.some.inj h
    exact audio_of_over (replayRecovered_frame E { s with ui := (writeGuiEvents s.ui room).ui }
      { p with inCallback := true }).shared rfl
  | drain m =>
    simp only [audioStep] at h
    split_ifs at h
    cases drainMove_spec E h with
    | installDeferred hd => exact audio_of_over (applyStructural_frame E _ _ _).shared rfl
    | discardDeferred hd hr hs => rfl
    | applyParams hd hr => exact audio_of_over (applyStructural_frame E _ _ _).shared rfl
    | popCandidate hd hc hr hs => rfl
    | supersede hd hc hr hs => rfl
    | installCandidate hd hc => exact audio_of_over (applyStructural_frame E _ _ _).shared rfl
  | endEvents =>
    simp only [audioStep] at h
    split_ifs at h
    obtain rfl := Option.some.inj h
    obtain ⟨r, hf, he⟩ := endEvents_frame E s p
    rw [he]
    exact audio_of_over hf.shared rfl
  | hostEvents es =>
    simp only [audioStep] at h
    split_ifs at h
    obtain rfl := Option.some.inj h
    exact audio_of_over (hostEvents_frame E s p es).shared rfl
  | flushInner room es =>
    simp only [audioStep] at h
    split_ifs at h
    obtain rfl := Option.some.inj h
    exact audio_of_over (flushInner_frame E s p room es).shared rfl
  | slimmable m =>
    simp only [audioStep] at h
    split_ifs at h
    cases slimmableMove_spec h <;> rfl
  | signalSlimmableRebuild ch =>
    simp only [audioStep] at h
    split_ifs at h
    obtain rfl := Option.some.inj h
    rfl
  | reset =>
    simp only [audioStep] at h
    split_ifs at h
    obtain rfl := Option.some.inj h
    rfl

/-- Where the commands of the audio thread come from. -/
structure Moves (s : Shared) (p : Processor) (r : Shared × Processor) : Prop where
  ring : ∀ c ∈ r.1.ring, c ∈ s.ring
  recovered : ∀ c ∈ r.2.recoveredCommands, c ∈ p.recoveredCommands
  deferred : ∀ c, r.2.deferred = some c → p.deferred = some c ∨ p.candidate = some c
  candidate : ∀ c, r.2.candidate = some c → p.candidate = some c ∨ c ∈ s.ring
  reported : r.1.currentLatency = s.currentLatency ∨
    r.1.currentLatency = r.2.cachedEffectiveLatency
  log : ∃ es, r.1.log = es ++ s.log ∧ ∀ g a, .model g a ∉ es

theorem ParamFrame.moves {s : Shared} {p : Processor} {r : Shared × Processor}
    (h : ParamFrame (s, p) r) : Moves s p r where
  ring c hc := by rw [h.shared] at hc; exact hc
  recovered c hc := by rw [h.proc] at hc; exact hc
  deferred c hc := by rw [h.proc] at hc; exact .inl hc
  candidate c hc := by rw [h.proc] at hc; exact .inl hc
  reported := h.reported
  log := by
    obtain ⟨es, hl, he⟩ := h.log
    refine ⟨es, hl, fun g a hm => ?_⟩
    obtain ⟨p, raw, hp⟩ := he _ hm
    cases hp

/-- A command is installed with the drain of `p`, and the ring of `s`, where they were. -/
theorem applyStructural_moves (s : Shared) (p : Processor) (c : ClapParamPayload) :
    Moves s p (applyStructural E s p c) := by
  have h := applyStructural_frame E s p c
  have hlog := applyStructural_log E s p c
  have hrep := applyStructural_reported E s p c
  generalize applyStructural E s p c = r at h hlog hrep
  exact
    { ring := fun d hd => by rw [h.shared] at hd; exact hd
      recovered := fun d hd => by rw [h.proc] at hd; exact hd
      deferred := fun d hd => by rw [h.proc] at hd; exact .inl hd
      candidate := fun d hd => by rw [h.proc] at hd; exact .inl hd
      reported := .inl hrep
      log := ⟨_, hlog, fun g a => by cases c.restore? <;> simp⟩ }

theorem endDrain_moves (s : Shared) (p : Processor) : Moves s p (endDrain s p) := by
  cases hc : p.candidate with
  | none =>
    have he : endDrain s p = ({ s with cmdLastAck := s.cmdLastAck + p.resolved },
        { p with resolved := 0 }) := by
      simp only [endDrain, hc]
    rw [he]
    exact ⟨fun _ h => h, fun _ h => h, fun _ h => .inl h, fun _ h => .inl h, .inl rfl, [], rfl,
      by simp⟩
  | some c =>
    have he : endDrain s p = ({ s with cmdLastAck := s.cmdLastAck + p.resolved },
        { p with
          candidate := none, deferred := some c, processedSeq := p.processedSeq - 1
          resolved := 0 }) := by
      simp only [endDrain, hc]
    rw [he]
    exact ⟨fun _ h => h, fun _ h => h, fun d h => .inr (hc.trans h), fun _ h => (by cases h),
      .inl rfl, [], rfl,
      by simp⟩

theorem audioStep_moves {s : Shared} {p : Processor} {a : AudioAction} {r : Shared × Processor}
    (h : audioStep E s p a = some r) : Moves s p r := by
  cases a with
  | beginEvents room =>
    simp only [audioStep] at h
    split_ifs at h
    obtain rfl := Option.some.inj h
    have hf := replayRecovered_frame E { s with ui := (writeGuiEvents s.ui room).ui }
      { p with inCallback := true }
    obtain ⟨es, hl, he, -⟩ := replayRecovered_log E { s with ui := (writeGuiEvents s.ui room).ui }
      { p with inCallback := true }
    have hrep := replayRecovered_reported E { s with ui := (writeGuiEvents s.ui room).ui }
      { p with inCallback := true }
    show Moves s p (replayRecovered E { s with ui := (writeGuiEvents s.ui room).ui }
      { p with inCallback := true })
    generalize replayRecovered E _ _ = r at hf hl hrep
    exact
      { ring := fun d hd => by rw [hf.shared] at hd; exact hd
        recovered := fun d hd => by rw [hf.proc] at hd; cases hd
        deferred := fun d hd => by rw [hf.proc] at hd; exact .inl hd
        candidate := fun d hd => by rw [hf.proc] at hd; exact .inl hd
        reported := .inl hrep
        log := ⟨es, hl, fun g a hm => by obtain ⟨g', hg⟩ := he _ hm; cases hg⟩ }
  | drain m =>
    simp only [audioStep] at h
    split_ifs at h
    cases drainMove_spec E h with
    | @installDeferred d hd =>
      have hm := applyStructural_moves E s { p.unpark with resolved := p.unpark.resolved + 1 } d
      exact { hm with
        deferred := fun c hc => by
          obtain h | h := hm.deferred c hc
          · cases h
          · exact .inr h }
    | discardDeferred hd hr hs =>
      exact ⟨fun _ h => h, fun _ h => h, fun _ h => (by cases h), fun _ h => .inl h, .inl rfl, [],
        rfl, by simp⟩
    | @applyParams q rest hd hr =>
      have hm := applyStructural_moves E (s.popped rest)
        { p.pop p.candidate with resolved := (p.pop p.candidate).resolved + 1 } (.params q)
      exact { hm with
        ring := fun c hc => by rw [hr]; exact List.mem_cons_of_mem _ (hm.ring c hc)
        candidate := fun c hc => (hm.candidate c hc).imp id fun h => by
          rw [hr]; exact List.mem_cons_of_mem _ h }
    | popCandidate hd hc hr hs =>
      refine ⟨fun c h => ?_, fun _ h => h, fun _ h => .inl h, fun c h => .inr ?_, .inl rfl, [],
        rfl, by simp⟩
      · rw [hr]; exact List.mem_cons_of_mem _ h
      · rw [hr]; exact Option.some.inj h ▸ List.mem_cons_self
    | supersede hd hc hr hs =>
      refine ⟨fun c h => ?_, fun _ h => h, fun _ h => .inl h, fun c h => .inr ?_, .inl rfl, [],
        rfl, by simp⟩
      · rw [hr]; exact List.mem_cons_of_mem _ h
      · rw [hr]; exact Option.some.inj h ▸ List.mem_cons_self
    | @installCandidate c hd hc =>
      have hm := applyStructural_moves E s
        { p with candidate := none, resolved := p.resolved + 1 } c
      exact { hm with
        deferred := fun c hc' => by
          obtain h | h := hm.deferred c hc'
          · exact .inl h
          · cases h
        candidate := fun c hc' => by
          obtain h | h := hm.candidate c hc'
          · cases h
          · exact .inr h }
  | endEvents =>
    simp only [audioStep] at h
    split_ifs at h
    obtain rfl := Option.some.inj h
    obtain ⟨r, hf, he⟩ := endEvents_frame E s p
    have hd := endDrain_moves s p
    have hm := ParamFrame.moves (s := (endDrain s p).1) (p := (endDrain s p).2) hf
    rw [he]
    obtain ⟨es, hl, he'⟩ := hm.log
    obtain ⟨fs, kl, kf⟩ := hd.log
    exact
      { ring := fun c hc => hd.ring c (hm.ring c hc)
        recovered := fun c hc => hd.recovered c (hm.recovered c hc)
        deferred := fun c hc => by
          rw [hf.proc] at hc
          exact hd.deferred c hc
        candidate := fun c hc => by
          rw [hf.proc] at hc
          exact hd.candidate c hc
        reported := hf.reported.imp (·.trans rfl) id
        log := ⟨es ++ fs, by rw [hl, kl, List.append_assoc],
          fun g a hg => (List.mem_append.1 hg).elim (he' g a) (kf g a)⟩ }
  | hostEvents es =>
    simp only [audioStep] at h
    split_ifs at h
    obtain rfl := Option.some.inj h
    exact (hostEvents_frame E s p es).moves
  | flushInner room es =>
    simp only [audioStep] at h
    split_ifs at h
    obtain rfl := Option.some.inj h
    exact (flushInner_frame E s p room es).moves
  | slimmable m =>
    simp only [audioStep] at h
    split_ifs at h
    cases slimmableMove_spec h <;>
      exact ⟨fun _ h => h, fun _ h => h, fun _ h => .inl h, fun _ h => .inl h, .inl rfl, [], rfl,
      by simp⟩
  | signalSlimmableRebuild ch =>
    simp only [audioStep] at h
    split_ifs at h
    obtain rfl := Option.some.inj h
    exact ⟨fun _ h => h, fun _ h => h, fun _ h => .inl h, fun _ h => .inl h, .inl rfl, [], rfl,
      by simp⟩
  | reset =>
    simp only [audioStep] at h
    split_ifs at h
    obtain rfl := Option.some.inj h
    exact ⟨fun _ h => h, fun _ h => h, fun _ h => .inl h, fun _ h => .inl h, .inl rfl, [], rfl,
      by simp⟩

end

end NamPlug
