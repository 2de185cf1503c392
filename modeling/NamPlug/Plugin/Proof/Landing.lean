import NamPlug.Params.Proof.Sync
import NamPlug.Plugin.Proof.Atomics
import NamPlug.Plugin.Proof.Installs
import NamPlug.Plugin.Proof.Rollback

/-!
# Where a restore lands

A transaction is applied in one call on the audio thread (`cold_apply_restore_txn`) or, staged, by
an activation. `Lands`: what it carries is in force. On the audio thread that is so exactly if its
impulse response is not refused and its parameters are in their ranges, and in an activation exactly
if the retained model can be flushed and the parameters that an activation does not read are the
defaults of a processor (`restore_lands_iff`).

A staged restore and its publication agree (`StagedSound`), in every state of a run.
-/

namespace NamPlug

/-- What a transaction carries is in force. -/
structure Lands (txn : RestoreTxn) (p : Processor) : Prop where
  model : ∀ m, txn.model = some m →
    p.modelTag = m.tag ∧ p.modelR.map StaticModel.asset = m.modelR.map StaticModel.asset
  ir : ∀ ir, txn.ir = some ir → p.irAsset = ir.map CabSimPair.asset
  params : p.rt.params = txn.params

section
variable (E : Engine)

/-- The audio thread applies `txn` in a step from `x`, to the state `s` and `p`. -/
inductive AudioApplies (x : Plugin) (txn : RestoreTxn) : Action → Shared → Processor → Prop where
  | deferred {p y} (hp : x.proc = some p) (hd : p.deferred = some (.restoreTxn txn))
    (h : step E x (.audio (.drain .installDeferred)) = some y) :
    AudioApplies x txn (.audio (.drain .installDeferred)) x.shared
      { p.unpark with resolved := p.resolved + 1 }
  | candidate {p y} (hp : x.proc = some p) (hc : p.candidate = some (.restoreTxn txn))
    (h : step E x (.audio (.drain .installCandidate)) = some y) :
    AudioApplies x txn (.audio (.drain .installCandidate)) x.shared
      { p with candidate := none, resolved := p.resolved + 1 }
  | recovered {p y room pre post} (hp : x.proc = some p)
    (hr : p.recoveredCommands = pre ++ ClapParamPayload.restoreTxn txn :: post)
    (h : step E x (.audio (.beginEvents room)) = some y) :
    AudioApplies x txn (.audio (.beginEvents room))
      (pre.foldl (fun r c => applyStructural E r.1 r.2 c)
        ({ x.shared with ui := (writeGuiEvents x.shared.ui room).ui },
          { p with inCallback := true, recoveredCommands := [] })).1
      (pre.foldl (fun r c => applyStructural E r.1 r.2 c)
        ({ x.shared with ui := (writeGuiEvents x.shared.ui room).ui },
          { p with inCallback := true, recoveredCommands := [] })).2

/-- The impulse response of a transaction is not refused, or it is the one installed already, and
its parameters are in their ranges. -/
def AudioTakes (s : Shared) (p : Processor) (txn : RestoreTxn) : Prop :=
  (∀ ir, txn.ir = some ir →
    CabSimPair.stale s ir = false ∨ p.irAsset = ir.map CabSimPair.asset) ∧
  sanitizeSnapshot E.toParamEngine txn.params = txn.params

/-- The retained model cannot be flushed in an activation. -/
def FlushFails (s : Shared) (cfg : AudioConfig) (faults : ActivateCall → Bool) : Prop :=
  cfg.maxFrames ≠ 0 ∧ ∃ p, s.pendingModel = some p ∧
    (faults (.flush .resampler) = true ∨ faults (.flush .stream) = true ∨
      (p.model.isSome ∧ faults (.flush .resizeL) = true) ∨
      (p.modelR.isSome ∧ faults (.flush .resizeR) = true))

/-- The activation succeeds, and the parameters of the transaction are the defaults but for the
gains and the factor of this activation. -/
def ActivateTakes (s : Shared) (cfg : AudioConfig) (faults : ActivateCall → Bool)
    (txn : RestoreTxn) : Prop :=
  ¬FlushFails s cfg faults ∧
  txn.params = { E.rtDefault with
    inputGainDb := txn.params.inputGainDb
    outputGainDb := txn.params.outputGainDb
    oversample := s.activateOsFactor E }

/-! ## On the audio thread -/

theorem stale_coldLoadModel (s : Shared) (p : Processor) (m : LoadModelPayload)
    (ir : Option CabSimPair) :
    CabSimPair.stale (coldLoadModel E s p m).1 ir = CabSimPair.stale s ir := by
  cases ir <;> rfl

theorem coldLoadCabsim_irAsset (s : Shared) (p : Processor) (ir : Option CabSimPair) :
    (coldLoadCabsim E s p ir).2.irAsset = ir.map CabSimPair.asset ↔
      CabSimPair.stale s ir = false ∨ p.irAsset = ir.map CabSimPair.asset := by
  unfold coldLoadCabsim
  split
  case isTrue h => simp [h]
  case isFalse h => exact iff_of_true rfl (.inl (by simpa using h))

theorem coldLoadCabsim_modelR (s : Shared) (p : Processor) (ir : Option CabSimPair) :
    (coldLoadCabsim E s p ir).2.modelR = p.modelR := by
  unfold coldLoadCabsim
  split <;> rfl

/-- A transaction lands exactly if it is taken as a whole. -/
theorem lands_coldApply_iff (s : Shared) (p : Processor) (txn : RestoreTxn) :
    Lands txn (coldApplyRestoreTxn E s p txn).2 ↔ AudioTakes E s p txn := by
  obtain ⟨gen, model, ir, params⟩ := txn
  -- the state after the model
  obtain ⟨r, hr, hmodel, hstale, hasset⟩ : ∃ r : Shared × Processor,
      coldApplyModel E (s, p) model = r ∧
      (∀ m, model = some m → r.2.modelTag = m.tag ∧
        r.2.modelR.map StaticModel.asset = m.modelR.map StaticModel.asset) ∧
      (∀ ir, CabSimPair.stale r.1 ir = CabSimPair.stale s ir) ∧ r.2.irAsset = p.irAsset := by
    cases model with
    | none => exact ⟨_, rfl, by simp, fun ir => rfl, rfl⟩
    | some m =>
      refine ⟨_, rfl, ?_, stale_coldLoadModel E s p m, rfl⟩
      rintro _ ⟨⟩
      exact ⟨rfl, rfl⟩
  -- the state after the impulse response
  obtain ⟨t, ht, hkeep, hir⟩ : ∃ t : Shared × Processor, coldApplyIr E r ir = t ∧
      (t.2.modelTag = r.2.modelTag ∧ t.2.modelR = r.2.modelR) ∧
      ((∀ i, ir = some i → t.2.irAsset = i.map CabSimPair.asset) ↔
        ∀ i, ir = some i →
          CabSimPair.stale s i = false ∨ p.irAsset = i.map CabSimPair.asset) := by
    cases ir with
    | none => exact ⟨_, rfl, ⟨rfl, rfl⟩, by simp⟩
    | some i =>
      refine ⟨_, rfl, ⟨coldLoadCabsim_modelTag E r.1 r.2 i, coldLoadCabsim_modelR E r.1 r.2 i⟩, ?_⟩
      simp only [Option.some.injEq, forall_eq', coldApplyIr_some, coldLoadCabsim_irAsset, hstale,
        hasset]
  have happ : (coldApplyRestoreTxn E s p ⟨gen, model, ir, params⟩).2 =
      (applyParams E t.1 t.2 params).2 := by
    rw [← ht, ← hr, coldApplyRestoreTxn_eq]
    rfl
  rw [happ]
  constructor
  · intro h
    exact ⟨hir.1 h.ir, (applyParamsFromSpsc_params _ _ params).symm.trans h.params⟩
  · intro h
    refine ⟨fun m hm => ?_, hir.2 h.1, (applyParamsFromSpsc_params _ _ params).trans h.2⟩
    obtain ⟨htag, hR⟩ := hmodel m hm
    exact ⟨hkeep.1.trans htag, (congrArg (Option.map StaticModel.asset) hkeep.2).trans hR⟩

/-! ## Staged -/

/-- A staged restore and its publication agree. -/
def StagedSound (s : Shared) : Prop :=
  ∀ r, s.stagedRestore = some r →
    r.txn.params = r.publish.params.rt ∧
    ∀ a, r.txn.ir = some (some a) → ∃ q, r.publish.irRawSamples = some q ∧ q.asset = a.asset

/-- A staged restore stays as it is or goes. -/
def KeepsStaged (s t : Shared) : Prop :=
  t.stagedRestore = s.stagedRestore ∨ t.stagedRestore = none

theorem StagedSound.keeps {s t : Shared} (h : StagedSound s) (k : KeepsStaged s t) :
    StagedSound t := by
  intro r hr
  rcases k with k | k
  · exact h r (k ▸ hr)
  · rw [k] at hr; cases hr

theorem Swaps.keepsStaged {s t : Shared} {m : LoadModelPayload} (h : Swaps s m t) :
    KeepsStaged s t := by
  cases h <;> exact .inr rfl

theorem Commits.keepsStaged {s t : Shared} {prep : PreparedModel} {g : Nat}
    (h : Commits s prep g t) : KeepsStaged s t := by
  cases h with
  | inactive h => exact .inl rfl
  | failed => exact .inl rfl
  | swapped hb hg ha ht => exact ht.keepsStaged

theorem Clears.keepsStaged {s t : Shared} (h : Clears s t) : KeepsStaged s t := by
  cases h with
  | inactive h => exact .inl rfl
  | failed => exact .inl rfl
  | swapped hb hg ha ht => exact ht.keepsStaged

theorem publishIfAcked_keepsStaged (s : Shared) : KeepsStaged s s.publishIfAcked := by
  obtain h | ⟨r, -, -, -, h⟩ := publishIfAcked_cases s <;> rw [h]
  · exact .inl rfl
  · rw [acknowledged_eq]
    exact .inl rfl

theorem localCommit_keepsStaged (s : Shared) (v : ValidatedRestore) (mode : RestoreMode) :
    KeepsStaged s (s.localCommit v mode) := by
  have hm : (s.localModel v mode).stagedRestore = s.stagedRestore := by
    unfold Shared.localModel
    split <;> rfl
  have hi : ((s.localModel v mode).localIr v mode).stagedRestore =
      (s.localModel v mode).stagedRestore := by
    unfold Shared.localIr
    split <;> rfl
  exact .inl (hi.trans hm)

theorem Packaged.stagedSound {s t : Shared} {v : ValidatedRestore} {mode : RestoreMode}
    {publish : RestorePublish} {txn : RestoreTxn} (h : Packaged s v mode t publish txn) :
    txn.params = publish.params.rt ∧
    ∀ a, txn.ir = some (some a) → ∃ q, publish.irRawSamples = some q ∧ q.asset = a.asset := by
  refine ⟨h.params, fun a ha => ?_⟩
  have hir := h.ir
  rw [ha, h.publication] at *
  cases hv : v.ir with
  | some ir =>
    rw [hv] at hir
    simp only [Option.map_some, Option.some.injEq] at hir
    exact ⟨⟨ir, s.hostRate⟩, by simp [restorePublish, hv], hir.symm⟩
  | none =>
    rw [hv] at hir
    cases mode <;> cases hir

theorem loadModel_keepsStaged (s : Shared) (file : ModelFile) (faults : EngineCall → Bool) :
    KeepsStaged s (s.loadModel E file faults) := by
  obtain h | ⟨prep, h, -⟩ := loadModel_spec E s file faults
  · exact .inl (congrArg Shared.stagedRestore h)
  · exact h.keepsStaged

theorem Polls.keepsStaged {s t : Shared} (h : Polls s t) : KeepsStaged s t := by
  cases h with
  | idle h => exact .inl rfl
  | dropped => exact .inl rfl
  | commits hr hg h0 ho ht => exact ht.keepsStaged

theorem FlushesModel.keepsStaged {s : Shared} {r : Shared × Bool} (h : FlushesModel s r) :
    KeepsStaged s r.1 := by
  cases h <;> exact .inl rfl

theorem LoadsIr.keepsStaged {s t : Shared} {ir : Asset} (h : LoadsIr s ir t) :
    KeepsStaged s t := by
  cases h with
  | recorded h => exact .inl rfl
  | failed h hb => exact .inr rfl
  | sent h hb hf => exact .inr rfl
  | kept h hb hf => exact .inr rfl
  | staged h hb => exact .inr rfl

theorem FlushesRestore.keepsStaged {s t : Shared} (h : FlushesRestore s t) :
    KeepsStaged s t := by
  cases h with
  | idle h => exact .inl rfl
  | waiting hr ht => exact publishIfAcked_keepsStaged s
  | sent hr ht hf => exact publishIfAcked_keepsStaged _
  | kept hr ht hf => exact .inl rfl

/-- The main thread keeps a staged restore, drops it, or stages one whose publication agrees. -/
theorem stagedSound_main {s : Shared} (h : StagedSound s) (a : MainAction) :
    StagedSound (mainStep E s a) := by
  by_cases hq : a.isQuiet = true
  · exact h.keeps (.inl (mainStep_quiet E s hq).stagedRestore)
  cases a with
  | loadModel file faults => exact h.keeps (loadModel_keepsStaged E s file faults)
  | clearModel faults => exact h.keeps (clearModel_spec E s faults).keepsStaged
  | dispatchModelLoadSync file faults =>
    refine h.keeps ?_
    show KeepsStaged s (s.dispatchModelLoadSync E file faults)
    obtain ⟨jobs, hd⟩ | ⟨jobs, f, hd⟩ := dispatchModelLoadSync_spec E s file faults <;> rw [hd]
    · exact .inl rfl
    · exact loadModel_keepsStaged E { s with pendingAsyncLoads := jobs } f faults
  | pollModelLoaderResult faults =>
    exact h.keeps (pollModelLoaderResult_spec E s faults).keepsStaged
  | flushPendingModel faults => exact h.keeps (flushPendingModel_spec s faults).keepsStaged
  | handlePendingIr ir faults =>
    exact h.keeps (loadCabsim_spec { s with uiPendingIr := none } ir faults).keepsStaged
  | clearIr =>
    refine h.keeps (.inl ?_)
    show s.clearIr.stagedRestore = s.stagedRestore
    unfold Shared.clearIr
    split <;> rfl
  | restore v mode faults =>
    show StagedSound (s.commitRestore E v mode faults)
    unfold Shared.commitRestore
    split
    · exact h.keeps (localCommit_keepsStaged s v mode)
    · have hr := atomicCommit_spec E s v mode faults
      generalize s.atomicCommit E v mode faults = t at hr
      cases hr with
      | failed => exact h
      | @staged t publish txn o hp =>
        intro r hr
        obtain rfl : (⟨txn, publish⟩ : StagedRestore) = r := by
          rw [noteRestore_eq] at hr
          exact Option.some.inj hr
        exact hp.stagedSound
      | sent hp hf =>
        intro r hr
        rw [noteRestore_eq] at hr
        cases hr
      | kept hp hf =>
        intro r hr
        rw [noteRestore_eq] at hr
        cases hr
  | flushPendingRestore => exact h.keeps (flushPendingRestore_spec s).keepsStaged
  | _ => exact absurd rfl hq

theorem adaptIr_asset {s : Shared} {ir : Option (Option CabSimPair)} {q : Option IrSamples}
    {cfg : AudioConfig} {fault : Bool}
    (h : ∀ a, ir = some (some a) → ∃ r, q = some r ∧ r.asset = a.asset) :
    (adaptIr s ir q cfg fault).2.map (Option.map CabSimPair.asset) =
      ir.map (Option.map CabSimPair.asset) := by
  rcases ir with _ | _ | a
  · rfl
  · rfl
  obtain ⟨r, rfl, hr⟩ := h a rfl
  unfold adaptIr buildCabSimFromRawSamples
  dsimp only
  split
  · split
    · rfl
    · rename_i new hnew
      split at hnew
      · cases hnew
      · cases fault with
        | true => cases hnew
        | false =>
          obtain rfl := Option.some.inj (Option.some.inj hnew)
          simp [hr]
    · rfl
  · rfl

/-- An adaptation changes no model. -/
theorem adaptModel_tag (m : LoadModelPayload) (cfg : AudioConfig) (fRes fStream fL fR : Bool) :
    (adaptModel m cfg fRes fStream fL fR).2.tag = m.tag ∧
    (adaptModel m cfg fRes fStream fL fR).2.modelR.map StaticModel.asset =
      m.modelR.map StaticModel.asset := by
  have hsize : ∀ l : Option StaticModel, (l.map (·.setMaxBufferSize cfg.maxFrames)).map
      StaticModel.asset = l.map StaticModel.asset := fun l => by cases l <;> rfl
  obtain ⟨h, -, -⟩ | h | ⟨l, rfl | rfl, h⟩ := adaptModel_cases m cfg fRes fStream fL fR <;> rw [h]
  · exact ⟨rfl, rfl⟩
  · exact ⟨congrArg (m.generation, ·) (hsize m.modelL), hsize m.modelR⟩
  · exact ⟨rfl, rfl⟩
  · exact ⟨congrArg (m.generation, ·) (hsize m.modelL), rfl⟩

/-- Two transactions carry the same files and parameters. -/
structure SameContent (t u : RestoreTxn) : Prop where
  model : u.model.map (fun m => (m.tag, m.modelR.map StaticModel.asset)) =
    t.model.map (fun m => (m.tag, m.modelR.map StaticModel.asset))
  ir : u.ir.map (Option.map CabSimPair.asset) = t.ir.map (Option.map CabSimPair.asset)
  params : u.params = t.params

theorem SameContent.lands {t u : RestoreTxn} {p : Processor} (h : SameContent t u)
    (hl : Lands u p) : Lands t p where
  model m hm := by
    have := h.model
    rw [hm, Option.map_some, Option.map_eq_some_iff] at this
    obtain ⟨n, hn, heq⟩ := this
    obtain ⟨htag, hR⟩ := Prod.mk.inj heq
    have := hl.model n hn
    exact ⟨this.1.trans htag, this.2.trans hR⟩
  ir i hi := by
    have := h.ir
    rw [hi, Option.map_some, Option.map_eq_some_iff] at this
    obtain ⟨j, hj, heq⟩ := this
    exact (hl.ir j hj).trans heq
  params := hl.params.trans h.params

theorem adaptRestore_content {s : Shared} {r : StagedRestore} (h : StagedSound s)
    (hr : s.stagedRestore = some r) (cfg : AudioConfig) (faults : ActivateCall → Bool) :
    SameContent r.txn (adaptRestore s r cfg faults).2.txn ∧
      (adaptRestore s r cfg faults).2.publish = r.publish := by
  have hm : ∀ (m : Option LoadModelPayload) (a b c d : Bool),
      (adaptModel? m cfg a b c d).2.map (fun m => (m.tag, m.modelR.map StaticModel.asset)) =
        m.map (fun m => (m.tag, m.modelR.map StaticModel.asset)) := by
    intro m a b c d
    cases m with
    | none => rfl
    | some m =>
      obtain ⟨htag, hR⟩ := adaptModel_tag m cfg a b c d
      simp [adaptModel?, htag, hR]
  have hm := hm r.txn.model (faults .restoreResampler) (faults .restoreStream)
    (faults .restoreResizeL) (faults .restoreResizeR)
  unfold adaptRestore
  split
  · rename_i m hadapt
    rw [hadapt] at hm
    exact ⟨⟨hm, rfl, rfl⟩, rfl⟩
  · rename_i m hadapt
    rw [hadapt] at hm
    exact ⟨⟨hm, adaptIr_asset (h r hr).2, rfl⟩, rfl⟩

/-! ## In an activation -/

theorem flushPendingModel_ok_iff {s : Shared} {faults : EngineCall → Bool} :
    (s.flushPendingModel faults).2 = false ↔
      s.bufferSize ≠ 0 ∧ ∃ p, s.pendingModel = some p ∧
        (faults .resampler = true ∨ faults .stream = true ∨
          (p.model.isSome ∧ faults .resizeL = true) ∨
          (p.modelR.isSome ∧ faults .resizeR = true)) := by
  unfold Shared.flushPendingModel
  split
  case h_1 h => simp [h]
  case h_2 p h =>
    split_ifs with hb hf
    · simp [hb]
    · have hf : faults .resampler = true ∨ faults .stream = true := by simpa using hf
      exact iff_of_true rfl ⟨hb, p, h, hf.imp id .inl⟩
    · have hf : ¬faults .resampler = true ∧ ¬faults .stream = true := by simpa using hf
      have hfails := resizeModels_fails (faults .resizeL) (faults .resizeR) s.bufferSize p.model
        p.modelR
      split
      · rename_i hres
        rw [hres] at hfails
        exact iff_of_true rfl ⟨hb, p, h, .inr (.inr (hfails.1 rfl))⟩
      · rename_i hres
        rw [hres] at hfails
        refine iff_of_false (by simp) ?_
        rintro ⟨-, q, hq, hor⟩
        obtain rfl := Option.some.inj (h.symm.trans hq)
        rcases hor with h | h | h
        · exact hf.1 h
        · exact hf.2 h
        · cases hfails.2 h

theorem published_pendingModel (s : Shared) (cfg : AudioConfig) (restore : Option StagedRestore)
    (a : Assembly) : (s.published E cfg restore a).pendingModel = s.pendingModel := by
  cases restore with
  | none => rfl
  | some r =>
    simp only [Shared.published, Shared.publishStaged]
    rw [publishRestore_eq]
    rfl

theorem publishRestore_ui (s : Shared) (pub : RestorePublish) :
    (s.publishRestore pub).ui.paramInputGain = pub.params.rt.inputGainDb ∧
    (s.publishRestore pub).ui.paramOutputGain = pub.params.rt.outputGainDb := by
  unfold Shared.publishRestore Shared.publishParams
  cases pub.modeFull <;> exact ⟨rfl, rfl⟩

/-- An activation that uses a staged restore up lands it exactly if it succeeds and leaves none of
its parameters at another value. -/
theorem lands_activate_iff {s : Shared} {cfg : AudioConfig} {faults : ActivateCall → Bool}
    {x : Shared × Option Processor} {r : StagedRestore} (hs : StagedSound s)
    (h : Activates E s cfg faults x) (hr : s.stagedRestore = some r)
    (hused : x.1.stagedRestore = none) :
    (∃ p, x.2 = some p ∧ Lands r.txn p) ↔ ActivateTakes E s cfg faults r.txn := by
  have hnone : ∀ {t : Shared}, t.stagedRestore = s.stagedRestore → t.stagedRestore ≠ none :=
    fun h h' => by rw [h, hr] at h'; cases h'
  -- the flush fails at the published state exactly if it is foreseen to
  have hflush : ∀ (restore : Option StagedRestore) (a : Assembly),
      ((s.published E cfg restore a).flushPendingModel (fun c => faults (.flush c))).2 = false ↔
        FlushFails s cfg faults := by
    intro restore a
    rw [flushPendingModel_ok_iff, published_pendingModel]
    exact Iff.rfl
  cases h with
  | noConsumer h => exact absurd hused (hnone rfl)
  | early hp h => exact absurd hused (hnone rfl)
  | @adapt restore swap hp hg hl hb hpipe ha =>
    have hrestore := adaptStaged_restore ha
    rw [hr, Option.map_some] at hrestore
    exact absurd (hrestore.symm.trans hused) (by simp)
  | @flush restore swap pipe a t hprep hf =>
    exact iff_of_false (by simp) fun h => h.1 ((hflush restore a).1 (congrArg Prod.snd hf))
  | @ok restore swap pipe a t hprep hf =>
    have hno : ¬FlushFails s cfg faults := fun h => by
      cases (congrArg Prod.snd hf).symm.trans ((hflush restore a).2 h)
    have hrestore := adaptStaged_restore hprep.adapted
    rw [hr, Option.map_some] at hrestore
    obtain ⟨hcontent, hpub⟩ := adaptRestore_content hs hr cfg faults
    -- the gains of the processor are those the publication stores
    have hui : t.ui.paramInputGain = r.txn.params.inputGainDb ∧
        t.ui.paramOutputGain = r.txn.params.outputGainDb := by
      have hu : t.ui = (s.taken.publishRestore r.publish).ui := by
        have := flushPendingModel_ui (s.published E cfg restore a) fun c => faults (.flush c)
        rw [hf] at this
        rw [this, published_ui, hrestore]
        simp only [Shared.publishStaged, hpub]
      rw [hu, (hs r hr).1]
      exact publishRestore_ui s.taken r.publish
    have hparams : (a.processor E t cfg (s.activateOsFactor E)).rt.params =
        { E.rtDefault with
          inputGainDb := r.txn.params.inputGainDb
          outputGainDb := r.txn.params.outputGainDb
          oversample := s.activateOsFactor E } := by
      simp only [Assembly.processor, activateParams, hui]
    obtain ⟨-, hir, hmodel, -⟩ := assemble_spec hprep.assembled
    rw [hrestore] at hir hmodel
    constructor
    · rintro ⟨p, hp, hl⟩
      obtain rfl := Option.some.inj hp
      exact ⟨hno, hl.params.symm.trans hparams⟩
    · rintro ⟨-, htake⟩
      refine ⟨_, rfl, hcontent.lands ⟨fun m hm => ?_, fun i hi => ?_, ?_⟩⟩
      · obtain ⟨hL, hR, hg, -, -⟩ := hmodel m hm
        refine ⟨?_, congrArg _ hR⟩
        simp only [Processor.modelTag, LoadModelPayload.tag, Assembly.processor, hL, hg]
      · rcases hir with hir | ⟨hir, -⟩
        · obtain rfl := Option.some.inj (hi.symm.trans hir)
          rfl
        · exact absurd (hi.symm.trans hir) (by simp)
      · rw [hparams, hcontent.params, ← htake]

/-! ## Runs -/

theorem publishStaged_stagedRestore (s : Shared) (restore : Option StagedRestore) :
    (s.publishStaged restore).stagedRestore = s.stagedRestore := by
  cases restore with
  | none => rfl
  | some r =>
    simp only [Shared.publishStaged]
    rw [publishRestore_eq]

theorem stagedSound_activates {s : Shared} {cfg : AudioConfig} {faults : ActivateCall → Bool}
    {x : Shared × Option Processor} (hs : StagedSound s) (h : Activates E s cfg faults x) :
    StagedSound x.1 := by
  -- past the adaptation nothing is staged
  have hflushed : ∀ (restore : Option StagedRestore) (a : Assembly) (f : EngineCall → Bool)
      (t : Shared), ((s.published E cfg restore a).flushPendingModel f).1 = t → StagedSound t := by
    rintro restore a f t rfl
    refine StagedSound.keeps (fun r hr => ?_) (flushPendingModel_spec _ f).keepsStaged
    replace hr : (s.taken.publishStaged restore).stagedRestore = some r := hr
    rw [publishStaged_stagedRestore] at hr
    cases hr
  cases h with
  | noConsumer h => exact hs
  | early hp h => exact hs
  | @adapt restore swap hp hg hl hb hpipe ha =>
    intro r hr
    replace hr : restore = some r := hr
    rw [adaptStaged_restore ha, Option.map_eq_some_iff] at hr
    obtain ⟨q, hq, rfl⟩ := hr
    obtain ⟨hcontent, hpub⟩ := adaptRestore_content hs hq cfg faults
    rw [hpub]
    refine ⟨hcontent.params.trans (hs q hq).1, fun a ha => ?_⟩
    have hir := hcontent.ir
    rw [ha, Option.map_some, Option.map_some] at hir
    obtain ⟨i, hi, heq⟩ := Option.map_eq_some_iff.1 hir.symm
    obtain ⟨b, rfl, hb⟩ := Option.map_eq_some_iff.1 heq
    exact hb ▸ (hs q hq).2 b hi
  | flush hprep hf => exact (hflushed _ _ _ _ (congrArg Prod.fst hf)).keeps (.inl rfl)
  | ok hprep hf => exact (hflushed _ _ _ _ (congrArg Prod.fst hf)).keeps (.inl rfl)

theorem stagedSound_step {x y : Plugin} {a : Action} (hx : StagedSound x.shared)
    (h : step E x a = some y) : StagedSound y.shared := by
  cases a with
  | main a =>
    obtain rfl := Option.some.inj h
    exact stagedSound_main E hx a
  | audio a =>
    obtain ⟨p, -, h⟩ := Option.bind_eq_some_iff.1 h
    obtain ⟨r, hr, rfl⟩ := Option.map_eq_some_iff.1 h
    exact hx.keeps (.inl (by rw [audioStep_shared E hr]; rfl))
  | activate cfg faults =>
    simp only [step] at h
    split_ifs at h
    obtain rfl := Option.some.inj h
    exact stagedSound_activates E hx (activate_spec E x.shared cfg faults)
  | deactivate =>
    simp only [step] at h
    split at h
    · split_ifs at h
      obtain rfl := Option.some.inj h
      refine hx.keeps (.inl ?_)
      unfold deactivate
      split <;> rfl
    · cases h

open Machine

/-- In every run, whenever the audio thread applies a restore it lands as a whole exactly if it is
taken as a whole, and whenever an activation uses up a staged one, exactly if the activation takes
it. -/
theorem restore_lands_iff {as : List Action} {x : Plugin}
    (h : run (step E) (.init E.toParamEngine) as = some x) :
    (∀ (a : Action) (txn : RestoreTxn) (s : Shared) (p : Processor), AudioApplies E x txn a s p →
      (Lands txn (coldApplyRestoreTxn E s p txn).2 ↔ AudioTakes E s p txn)) ∧
    (∀ (cfg : AudioConfig) (faults : ActivateCall → Bool) (y : Plugin) (r : StagedRestore),
      step E x (.activate cfg faults) = some y → x.shared.stagedRestore = some r →
      y.shared.stagedRestore = none →
      ((∃ p, y.proc = some p ∧ Lands r.txn p) ↔ ActivateTakes E x.shared cfg faults r.txn)) := by
  have hs : StagedSound x.shared := run_always (fun _ _ _ hI h => stagedSound_step E hI h)
    (fun r hr => by cases hr) h
  refine ⟨fun a txn s p _ => lands_coldApply_iff E s p txn, fun cfg faults y r hy hr hused => ?_⟩
  simp only [step] at hy
  split_ifs at hy
  obtain rfl := Option.some.inj hy
  exact lands_activate_iff E hs (activate_spec E x.shared cfg faults) hr hused

end

/-- A preset that bypasses and brings an impulse response. -/
def refIrPreset : ValidatedRestore :=
  ⟨{ ProcessingParams.initial refParamEngine with
      rt := { (ProcessingParams.initial refParamEngine).rt with bypass := true }
      irPath := some ⟨true, ["two.wav"]⟩ }, none, some (refIr "two.wav"), refIr_path _⟩

/-- The transaction of that preset. -/
def refIrTxn : RestoreTxn :=
  ⟨1, none, some (some ⟨refIr "two.wav", 48000, 512⟩), refIrPreset.params.rt⟩

/-- The preset is sent to an instance with an impulse response, and taken off the ring after a
deactivation and an activation at `rate`. -/
def refIrSent (rate : Nat) : List Action :=
  [.main (.handlePendingIr (refIr "one.wav") noFaults), refActivate,
    .main (.restore refIrPreset .forPreset noFaults), .deactivate,
    .activate ⟨rate, 512⟩ fun _ => false, .audio (.beginEvents 0), .audio (.drain .popCandidate)]

/-- The processor the transaction of the ring is applied to. -/
def refIrInstalled (rate : Nat) (h : (refRun (refIrSent rate)).proc.isSome = true) : Processor :=
  { refProc (refIrSent rate) h with
    candidate := none, resolved := (refProc (refIrSent rate) h).resolved + 1 }

theorem refIrSent_applies (rate : Nat) (hp : (refRun (refIrSent rate)).proc.isSome = true)
    (hc : (refProc (refIrSent rate) hp).candidate = some (.restoreTxn refIrTxn))
    (hs : (step refEngine (refRun (refIrSent rate))
      (.audio (.drain .installCandidate))).isSome = true) :
    AudioApplies refEngine (refRun (refIrSent rate)) refIrTxn (.audio (.drain .installCandidate))
      (refRun (refIrSent rate)).shared (refIrInstalled rate hp) := by
  obtain ⟨y, hy⟩ := Option.isSome_iff_exists.1 hs
  exact .candidate (refProc_eq hp) hc hy

open Machine

/-- At the same rate the preset lands. -/
theorem restore_lands_same_rate :
    Lands refIrTxn (coldApplyRestoreTxn refEngine (refRun (refIrSent 48000)).shared
      (refIrInstalled 48000 (by decide +kernel)) refIrTxn).2 := by
  have happ := refIrSent_applies 48000 (by decide +kernel) (by decide +kernel) (by decide +kernel)
  have hrun := @run_refRun (refIrSent 48000) (by decide +kernel)
  refine ((restore_lands_iff refEngine hrun).1 _ _ _ _ happ).2 ⟨?_, by decide +kernel⟩
  rintro _ ⟨⟩
  exact .inl (by decide +kernel)

/-- At another rate its parameters land and its impulse response is refused. -/
theorem restore_hybrid :
    ¬∀ (E : Engine) (as : List Action) (x : Plugin),
      run (step E) (.init E.toParamEngine) as = some x →
      (∀ (a : Action) (txn : RestoreTxn) (s : Shared) (p : Processor), AudioApplies E x txn a s p →
        Lands txn (coldApplyRestoreTxn E s p txn).2) ∧
      (∀ (cfg : AudioConfig) (faults : ActivateCall → Bool) (y : Plugin) (r : StagedRestore),
        step E x (.activate cfg faults) = some y → x.shared.stagedRestore = some r →
        y.shared.stagedRestore = none → ∃ p, y.proc = some p ∧ Lands r.txn p) := by
  intro h
  have happ := refIrSent_applies 44100 (by decide +kernel) (by decide +kernel) (by decide +kernel)
  have hrun := @run_refRun (refIrSent 44100) (by decide +kernel)
  have hl := (h refEngine (refIrSent 44100) _ hrun).1 _ _ _ _ happ
  exact absurd (hl.ir _ rfl) (by decide +kernel)

end NamPlug
