import NamPlug.Plugin.Chain
import NamPlug.Plugin.Proof.Activates
import NamPlug.Plugin.Proof.Installs
import NamPlug.Plugin.Proof.Outcomes

/-!
# The audio thread works on its chain

`audioStep_chain`: a step of the audio thread changes the installed chain by its operations
(`audioOps`) and nothing else, so that what every operation keeps of a chain a step keeps of a
processor (`audioStep_chain_invariant`). The main thread leaves the chain alone, and an activation
starts it with what it assembled.
-/

namespace NamPlug

theorem ParamFrame.chain {r r' : Shared × Processor} (h : ParamFrame r r') :
    r'.2.chain r'.1 = r.2.chain r.1 := by
  rw [h.retuned]
  simp only [Processor.chain, Processor.retuned, h.currentStreamLatency, h.currentCabsimLatency]

section
variable (E : Engine)

theorem coldLoadModel_chain (s : Shared) (p : Processor) (m : LoadModelPayload) :
    (coldLoadModel E s p m).2.chain (coldLoadModel E s p m).1 =
      (p.chain s).loadModel E m := rfl

theorem coldLoadCabsim_chain (s : Shared) (p : Processor) (pair : Option CabSimPair) :
    (coldLoadCabsim E s p pair).2.chain (coldLoadCabsim E s p pair).1 =
      (p.chain s).loadCabsim E s.sampleRate pair := by
  have hstale : CabSimPair.stale s pair = CabSimPair.builtElsewhere s.sampleRate pair := by
    cases pair <;> rfl
  unfold coldLoadCabsim Chain.loadCabsim
  rw [hstale]
  split <;> rfl

theorem applyStructural_sampleRate (s : Shared) (p : Processor) (c : ClapParamPayload) :
    (applyStructural E s p c).1.sampleRate = s.sampleRate := by
  rw [(applyStructural_frame E s p c).shared]
  rfl

/-- A command does to a processor what it does to its chain. -/
theorem applyStructural_chain (s : Shared) (p : Processor) (c : ClapParamPayload) :
    (applyStructural E s p c).2.chain (applyStructural E s p c).1 =
      (p.chain s).install E s.sampleRate c := by
  cases c with
  | params q => exact (putParamCtx_frame s p _).chain
  | loadModel m => exact coldLoadModel_chain E s p m
  | loadCabIr pair => exact coldLoadCabsim_chain E s p pair
  | setOversample osL osR => rfl
  | restoreTxn txn =>
    have hparams : ∀ r : Shared × Processor,
        (coldApplyParams E r txn).2.chain (coldApplyParams E r txn).1 = r.2.chain r.1 := fun r =>
      (putParamCtx_frame r.1 r.2 _).chain
    rw [applyStructural, coldApplyRestoreTxn_eq, hparams]
    obtain ⟨generation, model, ir, params⟩ := txn
    -- the model, then the impulse response at the rate of the state after it
    obtain ⟨r, hr⟩ : ∃ r, coldApplyModel E (s, p) model = r := ⟨_, rfl⟩
    have hrate : r.1.sampleRate = s.sampleRate := by
      rw [← hr]
      cases model <;> rfl
    have hir : ∀ c, (p.chain s).install E s.sampleRate (.restoreTxn ⟨generation, model, none, c⟩) =
        r.2.chain r.1 := by
      intro c
      rw [← hr]
      cases model with
      | none => rfl
      | some m => exact (coldLoadModel_chain E s p m).symm
    rw [hr]
    cases ir with
    | none => exact (hir params).symm
    | some pair =>
      have hcab := coldLoadCabsim_chain E r.1 r.2 pair
      rw [hrate, ← hir params] at hcab
      exact hcab

theorem replayRecovered_chain (s : Shared) (p : Processor) :
    (replayRecovered E s p).2.chain (replayRecovered E s p).1 =
      (p.recoveredCommands.map ChainOp.command).foldl (Chain.apply E s.sampleRate) (p.chain s) := by
  have hall : ∀ (cs : List ClapParamPayload) (r : Shared × Processor),
      r.1.sampleRate = s.sampleRate →
      (cs.foldl (fun r c => applyStructural E r.1 r.2 c) r).2.chain
          (cs.foldl (fun r c => applyStructural E r.1 r.2 c) r).1 =
        (cs.map ChainOp.command).foldl (Chain.apply E s.sampleRate) (r.2.chain r.1) := by
    intro cs
    induction cs with
    | nil => exact fun r _ => rfl
    | cons c cs ih =>
      intro r hr
      rw [List.foldl_cons, List.map_cons, List.foldl_cons,
        ih _ ((applyStructural_sampleRate E r.1 r.2 c).trans hr), applyStructural_chain, hr]
      rfl
  exact hall _ _ rfl

/-- A step of the audio thread changes the chain by its operations. -/
theorem audioStep_chain {s : Shared} {p : Processor} {a : AudioAction} {r : Shared × Processor}
    (h : audioStep E s p a = some r) :
    r.2.chain r.1 = (audioOps p a).foldl (Chain.apply E s.sampleRate) (p.chain s) := by
  cases a with
  | beginEvents room =>
    simp only [audioStep] at h
    split_ifs at h
    obtain rfl := Option.some.inj h
    exact replayRecovered_chain E { s with ui := (writeGuiEvents s.ui room).ui }
      { p with inCallback := true }
  | drain m =>
    simp only [audioStep] at h
    split_ifs at h
    cases drainMove_spec E h with
    | installDeferred hd =>
      simp only [audioOps, hd]
      exact applyStructural_chain E s _ _
    | discardDeferred hd hr hs => rfl
    | applyParams hd hr => exact applyStructural_chain E _ _ _
    | popCandidate hd hc hr hs => rfl
    | supersede hd hc hr hs => rfl
    | installCandidate hd hc =>
      simp only [audioOps, hc]
      exact applyStructural_chain E s _ _
  | endEvents =>
    simp only [audioStep] at h
    split_ifs at h
    obtain rfl := Option.some.inj h
    obtain ⟨r, hf, he⟩ := endEvents_frame E s p
    rw [he]
    have hd : (endDrain s p).2.chain (endDrain s p).1 = p.chain s := by
      simp only [endDrain]
      split <;> rfl
    exact hf.chain.trans hd
  | hostEvents es =>
    simp only [audioStep] at h
    split_ifs at h
    obtain rfl := Option.some.inj h
    exact (hostEvents_frame E s p es).chain
  | flushInner room es =>
    simp only [audioStep] at h
    split_ifs at h
    obtain rfl := Option.some.inj h
    exact (flushInner_frame E s p room es).chain
  | slimmable m =>
    simp only [audioStep] at h
    split_ifs at h
    cases slimmableMove_spec h with
    | take hd hr => rfl
    | install hd hg =>
      simp only [audioOps, hd]
      rfl
    | discard hd hr => rfl
  | signalSlimmableRebuild ch =>
    simp only [audioStep] at h
    split_ifs at h
    obtain rfl := Option.some.inj h
    rfl
  | reset =>
    simp only [audioStep] at h
    split_ifs at h
    obtain rfl := Option.some.inj h
    rfl

/-- What a command does to the model of a chain. -/
theorem Chain.install_model (h : Nat) (c : Chain) (d : ClapParamPayload) :
    (∃ m, d.model? = some m ∧ (c.install E h d).modelL = m.modelL ∧
      (c.install E h d).modelR = m.modelR ∧ (c.install E h d).modelGeneration = m.generation ∧
      (c.install E h d).stream = m.newStream) ∨
    (d.model? = none ∧ (c.install E h d).modelL = c.modelL ∧ (c.install E h d).modelR = c.modelR ∧
      (c.install E h d).modelGeneration = c.modelGeneration ∧
      (c.install E h d).stream = c.stream) := by
  have hcab : ∀ (c : Chain) pair, (c.loadCabsim E h pair).modelL = c.modelL ∧
      (c.loadCabsim E h pair).modelR = c.modelR ∧
      (c.loadCabsim E h pair).modelGeneration = c.modelGeneration ∧
      (c.loadCabsim E h pair).stream = c.stream := by
    intro c pair
    unfold Chain.loadCabsim
    split <;> exact ⟨rfl, rfl, rfl, rfl⟩
  cases d with
  | params q => exact .inr ⟨rfl, rfl, rfl, rfl, rfl⟩
  | loadModel m => exact .inl ⟨m, rfl, rfl, rfl, rfl, rfl⟩
  | loadCabIr pair => exact .inr ⟨rfl, hcab c pair⟩
  | setOversample osL osR => exact .inr ⟨rfl, rfl, rfl, rfl, rfl⟩
  | restoreTxn txn =>
    obtain ⟨g, model, ir, params⟩ := txn
    cases model with
    | none =>
      cases ir with
      | none => exact .inr ⟨rfl, rfl, rfl, rfl, rfl⟩
      | some ir => exact .inr ⟨rfl, hcab c ir⟩
    | some m =>
      cases ir with
      | none => exact .inl ⟨m, rfl, rfl, rfl, rfl, rfl⟩
      | some ir => exact .inl ⟨m, rfl, hcab (c.loadModel E m) ir⟩

/-- What a command does to the adaptive controller of a chain. -/
theorem Chain.install_level (h : Nat) (c : Chain) (d : ClapParamPayload) :
    (∃ m, d.model? = some m ∧ (c.install E h d).level = c.level.install m.modelL) ∨
    (d.model? = none ∧ (c.install E h d).level = c.level) := by
  have hcab : ∀ (c : Chain) pair, (c.loadCabsim E h pair).level = c.level := by
    intro c pair
    unfold Chain.loadCabsim
    split <;> rfl
  cases d with
  | params q => exact .inr ⟨rfl, rfl⟩
  | loadModel m => exact .inl ⟨m, rfl, rfl⟩
  | loadCabIr pair => exact .inr ⟨rfl, hcab c pair⟩
  | setOversample osL osR => exact .inr ⟨rfl, rfl⟩
  | restoreTxn txn =>
    obtain ⟨g, model, ir, params⟩ := txn
    cases model with
    | none =>
      cases ir with
      | none => exact .inr ⟨rfl, rfl⟩
      | some ir => exact .inr ⟨rfl, hcab c ir⟩
    | some m =>
      cases ir with
      | none => exact .inl ⟨m, rfl, rfl⟩
      | some ir => exact .inl ⟨m, rfl, hcab (c.loadModel E m) ir⟩

/-- The commands that a step installs. -/
theorem audioOps_command {p : Processor} {a : AudioAction} {d : ClapParamPayload}
    (h : .command d ∈ audioOps p a) :
    d ∈ p.recoveredCommands ∨ p.deferred = some d ∨ p.candidate = some d := by
  unfold audioOps at h
  split at h <;> simp only [List.mem_map, Option.mem_toList, Option.map_eq_some_iff,
    ChainOp.command.injEq, exists_eq_right, List.not_mem_nil, List.mem_singleton, reduceCtorEq,
    and_false, exists_false] at h
  · exact .inl h
  · exact .inr (.inl h)
  · exact .inr (.inr h)

/-- The slimmed model that a step installs. -/
theorem audioOps_slimmable {p : Processor} {a : AudioAction} {r : SlimmableRebuild}
    (h : .slimmable r ∈ audioOps p a) :
    a = .slimmable .install ∧ p.slim.deferred = some r := by
  unfold audioOps at h
  split at h <;> simp only [List.mem_map, Option.mem_toList, Option.map_eq_some_iff,
    ChainOp.slimmable.injEq, exists_eq_right, List.not_mem_nil, List.mem_singleton, reduceCtorEq,
    and_false, exists_false] at h
  exact ⟨rfl, h⟩

/-- The adaptive controller asks and starts over in steps of its own. -/
theorem audioOps_controller {p : Processor} {a : AudioAction} :
    (∀ ch, .request ch ∈ audioOps p a → a = .signalSlimmableRebuild ch) ∧
      (.reset ∈ audioOps p a → a = .reset) := by
  constructor
  · intro ch h
    unfold audioOps at h
    split at h <;> simp only [List.mem_map, Option.mem_toList, Option.map_eq_some_iff,
      List.not_mem_nil, List.mem_singleton, reduceCtorEq, and_false, exists_false,
      ChainOp.request.injEq] at h
    rw [h]
  · intro h
    unfold audioOps at h
    split at h <;> simp only [List.mem_map, Option.mem_toList, Option.map_eq_some_iff,
      List.not_mem_nil, List.mem_singleton, reduceCtorEq, and_false, exists_false] at h
    rfl

/-- What every operation of a step keeps of the chain the step keeps. -/
theorem audioStep_chain_invariant {I : Chain → Prop} {s : Shared} {p : Processor} {a : AudioAction}
    {r : Shared × Processor} (h : audioStep E s p a = some r) (hI : I (p.chain s))
    (hop : ∀ c, I c → ∀ op ∈ audioOps p a, I (c.apply E s.sampleRate op)) :
    I (r.2.chain r.1) := by
  rw [audioStep_chain E h]
  exact List.foldlRecOn _ _ hI hop

/-- A step of the audio thread leaves the audio configuration alone. -/
theorem audioStep_config {s : Shared} {p : Processor} {a : AudioAction} {r : Shared × Processor}
    (h : audioStep E s p a = some r) :
    r.1.sampleRate = s.sampleRate ∧ r.1.bufferSize = s.bufferSize := by
  rw [audioStep_shared E h]
  exact ⟨rfl, rfl⟩

theorem mainStep_chain (s : Shared) (p : Processor) (a : MainAction) :
    p.chain (mainStep E s a) = p.chain s := by
  have h := mainStep_frame E s a
  simp only [Processor.chain, h.currentStreamLatency, h.currentCabsimLatency]

/-- The chain and the audio configuration after an activation. -/
theorem activates_chain {s : Shared} {cfg : AudioConfig} {faults : ActivateCall → Bool}
    {restore : Option StagedRestore} {a : Assembly} {t : Shared} {ok : Bool}
    (hf : (s.published E cfg restore a).flushPendingModel (fun c => faults (.flush c)) = (t, ok))
    (f : OversampleFactor) :
    (a.processor E t cfg f).chain t = a.chain E cfg ∧ t.sampleRate = cfg.hostRate ∧
      t.bufferSize = cfg.maxFrames := by
  have h := (flushPendingModel_spec (s.published E cfg restore a) fun c => faults (.flush c)).frame
  rw [hf] at h
  refine ⟨?_, h.sampleRate.trans rfl, h.bufferSize.trans rfl⟩
  have hs : t.currentStreamLatency = E.streamLatency a.stream := h.currentStreamLatency.trans rfl
  have hc : t.currentCabsimLatency = cabsimLatency a.cabsimPair :=
    h.currentCabsimLatency.trans rfl
  simp only [Processor.chain, Assembly.processor, Assembly.chain, hs, hc]

/-- An activation keeps the deactivated DSP or uses it up. -/
theorem activates_deactivated {s : Shared} {cfg : AudioConfig} {faults : ActivateCall → Bool}
    {x : Shared × Option Processor} (h : Activates E s cfg faults x) :
    x.1.deactivatedDsp = s.deactivatedDsp ∨ x.1.deactivatedDsp = none := by
  have hused : ∀ (restore : Option StagedRestore) (a : Assembly) (r : Shared × Bool),
      (s.published E cfg restore a).flushPendingModel (fun c => faults (.flush c)) = r →
      r.1.deactivatedDsp = none := by
    rintro restore a _ rfl
    refine (flushPendingModel_spec _ fun c => faults (.flush c)).frame.deactivatedDsp.trans ?_
    cases restore with
    | none => rfl
    | some r =>
      simp only [Shared.published, Shared.publishStaged]
      rw [publishRestore_eq]
      rfl
  cases h with
  | noConsumer h => exact .inl rfl
  | early hp h => exact .inl rfl
  | adapt hp hg hl hb hpipe ha => exact .inl rfl
  | flush hprep hf => exact .inr (hused _ _ _ hf)
  | ok hprep hf => exact .inr (hused _ _ _ hf)

end

end NamPlug
