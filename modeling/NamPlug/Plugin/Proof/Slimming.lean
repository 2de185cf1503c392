import NamPlug.Plugin.Proof.Numbering

/-!
# What steps do to slimming

The requests, builds and rings of slimmed models change by the operations of slimming only
(`Slims`, `audioStep_slim`). Every other operation of the main thread at most publishes another full
model (`mainStep_slim`), as an activation does, and the audio thread leaves them alone.
-/

namespace NamPlug

open Binary32

/-- The operations of the main thread and the worker on slimmed models. -/
def MainAction.isSlimmable : MainAction → Bool
  | .pollSlimmable => true
  | .publishSlimmable _ _ => true
  | .drainSlimmableRebuild => true
  | .handleSlimmableRebuildInline _ _ => true
  | .lowerSlimmableFlag => true
  | _ => false

/-! ## Operations on slimmed models -/

/-- What these operations make of the slimming state. -/
inductive Slims (s : Shared) : MainAction → SlimmableShared → Prop where
  | idle (a : MainAction) : Slims s a s.slim
  | polled {w b} (hw : w = s.slim.worker ∨ (s.slim.needsRebuild = true ∧
      w = .building s.slim.requestedCh s.slim.requestedGeneration)) :
    Slims s .pollSlimmable { s.slim with worker := w, built := b }
  | built {ch g sliced resized} (hw : s.slim.worker = .building ch g) :
    Slims s (.publishSlimmable sliced resized) { s.slim with
      slot := some (buildSlimmable s ch g sliced resized)
      built := some (ch, g)
      worker := .idle }
  | drained {r} (hf : s.slim.needsRebuild = true) (hd : s.slim.drain = .idle)
    (hs : s.slim.slot = some (.ready r)) :
    Slims s .drainSlimmableRebuild { s.slim with
      slot := none, ring := s.slim.ring ++ [r], drain := .lowering (some r) }
  | dropped (hf : s.slim.needsRebuild = true) (hd : s.slim.drain = .idle) :
    Slims s .drainSlimmableRebuild { s.slim with slot := none, drain := .lowering none }
  | inlined {r sliced resized} (hf : s.slim.needsRebuild = true) (hd : s.slim.drain = .idle)
    (hb : buildSlimmable s s.slim.requestedCh s.slim.requestedGeneration sliced resized =
      .ready r) :
    Slims s (.handleSlimmableRebuildInline sliced resized) { s.slim with
      ring := s.slim.ring ++ [r], drain := .lowering (some r) }
  | refused {sliced resized} (hf : s.slim.needsRebuild = true) (hd : s.slim.drain = .idle) :
    Slims s (.handleSlimmableRebuildInline sliced resized) { s.slim with
      drain := .lowering none }
  | lowered {pushed} (hd : s.slim.drain = .lowering pushed) :
    Slims s .lowerSlimmableFlag { s.slim with needsRebuild := false, drain := .idle }

section
variable (E : Engine)

theorem mainStep_slims (s : Shared) {a : MainAction} (h : a.isSlimmable = true) :
    ∃ x, Slims s a x ∧ mainStep E s a = { s with slim := x } := by
  cases a <;> simp only [MainAction.isSlimmable, Bool.false_eq_true] at h
  case pollSlimmable =>
    refine ⟨s.slim.poll, ?_, rfl⟩
    unfold SlimmableShared.poll
    split
    · exact .idle _
    · split
      · split
        · exact .idle _
        · exact .polled (.inr ⟨‹_›, rfl⟩)
      · exact .polled (.inl rfl)
  case publishSlimmable sliced resized =>
    simp only [mainStep, Shared.publishSlimmable]
    split
    · exact ⟨_, .idle _, rfl⟩
    · exact ⟨_, .built ‹_›, rfl⟩
  case drainSlimmableRebuild =>
    refine ⟨s.slim.drainSlot, ?_, rfl⟩
    unfold SlimmableShared.drainSlot
    split
    · rename_i hf
      split
      · exact .idle _
      · rename_i r hs
        unfold SlimmableShared.push
        dsimp only
        split
        · exact .drained hf.1 hf.2 hs
        · exact .idle _
      · exact .dropped hf.1 hf.2
    · exact .idle _
  case handleSlimmableRebuildInline sliced resized =>
    simp only [mainStep, Shared.handleSlimmableRebuildInline]
    split
    · rename_i hf
      split
      · rename_i r hb
        unfold SlimmableShared.push
        split
        · exact ⟨_, .inlined hf.1 hf.2 hb, rfl⟩
        · exact ⟨_, .idle _, rfl⟩
      · exact ⟨_, .refused hf.1 hf.2, rfl⟩
    · exact ⟨_, .idle _, rfl⟩
  case lowerSlimmableFlag =>
    refine ⟨s.slim.lower, ?_, rfl⟩
    unfold SlimmableShared.lower
    split
    · exact .idle _
    · exact .lowered ‹_›

/-- A build that works is a slice of the published full model. -/
theorem buildSlimmable_ready {s : Shared} {ch g : Nat} {sliced resized : Bool}
    {r : SlimmableRebuild} (h : buildSlimmable s ch g sliced resized = .ready r) :
    4 ≤ ch ∧ sliced = true ∧ ∃ w, s.slim.fullWavenetModel = some w ∧
      r = ⟨g, sliceWavenetModel w ch s.bufferSize resized⟩ := by
  unfold buildSlimmable at h
  split at h
  · cases h
  · rename_i hc
    split at h
    · cases h
    · rename_i w hw
      split at h
      · cases h
        exact ⟨by omega, ‹_›, w, hw, rfl⟩
      · cases h

/-! ## Other operations of the main thread -/

/-- The full model that is published is another one. -/
def Shared.Republished (s t : Shared) : Prop :=
  t.slim = { s.slim with fullWavenetModel := t.slim.fullWavenetModel }

theorem Shared.Republished.trans {s t u : Shared} (h : s.Republished t) (k : t.Republished u) :
    s.Republished u := by
  unfold Shared.Republished at *
  rw [k, h]

theorem quiet_slim (s : Shared) {a : MainAction} (h : a.isQuiet = true)
    (hs : a.isSlimmable = false) : (mainStep E s a).slim = s.slim := by
  have hsend : ∀ (s : Shared) (q : RtProcessingParams), (s.sendParams q).slim = s.slim := by
    intro s q
    obtain h | h := sendParams_cases s q <;> rw [h] <;> rfl
  have hnotes : ∀ (es : List ParamValueEvent) (s : Shared),
      (es.foldl (fun s e => s.noteEvent E e.id (narrow e.value)) s).slim = s.slim := by
    intro es
    induction es with
    | nil => exact fun s => rfl
    | cons e es ih =>
      intro s
      refine (ih _).trans ?_
      show (s.noteEvent E e.id (narrow e.value)).slim = s.slim
      unfold Shared.noteEvent
      split <;> rfl
  cases a <;> simp only [MainAction.isQuiet, MainAction.isSlimmable, Bool.true_eq_false,
    Bool.false_eq_true] at h hs <;> simp only [mainStep]
  case dispatchModelLoad =>
    unfold Shared.dispatchModelLoad
    split
    · rfl
    · split <;> rfl
  case finishModelLoad file faults =>
    unfold Shared.finishModelLoad
    split <;> rfl
  case flush room input =>
    unfold Shared.flush
    dsimp only
    split
    · rw [hsend, hnotes]
    · rw [hnotes]
  case flushInFlightParams =>
    unfold Shared.flushInFlightParams
    split
    · rw [hsend]
    · rfl
  case handleOversampleRebuild =>
    unfold Shared.handleOversampleRebuild
    split
    · rfl
    · rename_i f _
      obtain ⟨ps, hf, hp⟩ | ⟨ps, c, hf, hp⟩ :=
        tryPushCommand_cases s (.setOversample ⟨f⟩ ⟨f⟩) <;> rw [hp] <;> rfl
  all_goals rfl

theorem Swaps.slim {s t : Shared} {m : LoadModelPayload} (h : Swaps s m t) : t.slim = s.slim := by
  cases h <;> rfl

theorem Commits.republished {s t : Shared} {prep : PreparedModel} {g : Nat}
    (h : Commits s prep g t) : s.Republished t := by
  cases h with
  | inactive hb => rfl
  | failed => rfl
  | @swapped m u faults hb hg ha ht hm =>
    show { u.slim with fullWavenetModel := prep.file.modelL.fullWavenet } =
      { s.slim with fullWavenetModel := prep.file.modelL.fullWavenet }
    rw [ht.slim]

theorem Clears.republished {s t : Shared} (h : Clears s t) : s.Republished t := by
  cases h with
  | inactive hb => rfl
  | failed hb => rfl
  | @swapped m u hb hg ha ht hm =>
    show u.slim = { s.slim with fullWavenetModel := u.slim.fullWavenetModel }
    rw [ht.slim]
    rfl

theorem publishRestore_republished (s : Shared) (pub : RestorePublish) :
    s.Republished (s.publishRestore pub) := by
  unfold Shared.Republished Shared.publishRestore
  cases pub.model <;> cases pub.irPathOnDisk <;> cases pub.modeFull <;> rfl

theorem publishIfAcked_republished (s : Shared) : s.Republished s.publishIfAcked := by
  obtain h | ⟨r, -, -, -, h⟩ := publishIfAcked_cases s <;> rw [h]
  · rfl
  · exact publishRestore_republished { s with pendingRestore := none } r.publish

theorem FlushesRestore.republished {s t : Shared} (h : FlushesRestore s t) : s.Republished t := by
  cases h with
  | idle h => rfl
  | waiting hr ht => exact publishIfAcked_republished s
  | sent hr ht hf => exact publishIfAcked_republished _
  | kept hr ht hf => rfl

theorem Restores.republished {s t : Shared} {v : ValidatedRestore} {mode : RestoreMode}
    (h : Restores s v mode t) : s.Republished t := by
  have hpack : ∀ {t u : Shared} {publish : RestorePublish} {txn : RestoreTxn},
      Packaged s v mode t publish txn → u.slim = t.slim → s.Republished (u.noteRestore txn) := by
    intro t u publish txn hp hu
    have ht : t.slim = s.slim := by rw [hp.state]
    unfold Shared.Republished
    rw [noteRestore_eq]
    show u.slim = { s.slim with fullWavenetModel := u.slim.fullWavenetModel }
    rw [hu, ht]
  cases h with
  | failed => rfl
  | staged hp => exact hpack hp rfl
  | sent hp hf => exact hpack hp rfl
  | kept hp hf => exact hpack hp rfl

theorem localCommit_republished (s : Shared) (v : ValidatedRestore) (mode : RestoreMode) :
    s.Republished (s.localCommit v mode) := by
  have hm : s.Republished (s.localModel v mode) := by
    unfold Shared.localModel
    split <;> rfl
  have hi : (s.localModel v mode).Republished ((s.localModel v mode).localIr v mode) := by
    unfold Shared.localIr
    split <;> rfl
  exact hm.trans hi

theorem loadModel_republished (s : Shared) (file : ModelFile) (faults : EngineCall → Bool) :
    s.Republished (s.loadModel E file faults) := by
  obtain h | ⟨prep, h, -⟩ := loadModel_spec E s file faults
  · rw [h]
    rfl
  · exact h.republished

/-- The main thread changes nothing else of slimming. -/
theorem mainStep_slim (s : Shared) {a : MainAction} (h : a.isSlimmable = false) :
    s.Republished (mainStep E s a) := by
  by_cases hq : a.isQuiet = true
  · unfold Shared.Republished
    rw [quiet_slim E s hq h]
  cases a with
  | loadModel file faults => exact loadModel_republished E s file faults
  | clearModel faults => exact (clearModel_spec E s faults).republished
  | dispatchModelLoadSync file faults =>
    show s.Republished (s.dispatchModelLoadSync E file faults)
    obtain ⟨jobs, hd⟩ | ⟨jobs, f, hd⟩ := dispatchModelLoadSync_spec E s file faults <;> rw [hd]
    · rfl
    · exact loadModel_republished E { s with pendingAsyncLoads := jobs } f faults
  | pollModelLoaderResult faults =>
    have hspec := pollModelLoaderResult_spec E s faults
    show s.Republished (s.pollModelLoaderResult E faults)
    generalize s.pollModelLoaderResult E faults = t at hspec
    cases hspec with
    | idle h => rfl
    | dropped => rfl
    | commits hr hg h0 ho ht => exact ht.republished
  | flushPendingModel faults =>
    have hspec := flushPendingModel_spec s faults
    show s.Republished (s.flushPendingModel faults).1
    generalize s.flushPendingModel faults = r at hspec
    cases hspec <;> rfl
  | handlePendingIr ir faults =>
    have hspec := loadCabsim_spec { s with uiPendingIr := none } ir faults
    show s.Republished ({ s with uiPendingIr := none }.loadCabsim ir faults)
    generalize Shared.loadCabsim _ ir faults = t at hspec
    cases hspec <;> rfl
  | clearIr =>
    show s.Republished s.clearIr
    unfold Shared.clearIr
    split <;> rfl
  | restore v mode faults =>
    show s.Republished (s.commitRestore E v mode faults)
    unfold Shared.commitRestore
    split
    · exact localCommit_republished s v mode
    · exact (atomicCommit_spec E s v mode faults).republished
  | flushPendingRestore => exact (flushPendingRestore_spec s).republished
  | _ => exact absurd rfl hq

/-! ## The audio thread -/

/-- What the audio thread has of slimming besides the adaptive controller. -/
def slimOf (r : Shared × Processor) : SlimmableShared × Option SlimmableRebuild :=
  (r.1.slim, r.2.slim.deferred)

theorem ParamFrame.slimOf {r r' : Shared × Processor} (h : ParamFrame r r') :
    slimOf r' = NamPlug.slimOf r := by
  unfold NamPlug.slimOf
  rw [h.slim, h.retuned]
  rfl

theorem coldLoadModel_slimOf (s : Shared) (p : Processor) (m : LoadModelPayload) :
    slimOf (coldLoadModel E s p m) = slimOf (s, p) := by
  rfl

theorem coldLoadCabsim_slimOf (s : Shared) (p : Processor) (pair : Option CabSimPair) :
    slimOf (coldLoadCabsim E s p pair) = slimOf (s, p) := by
  unfold coldLoadCabsim
  split <;> rfl

/-- Installing a command leaves the rebuilds where they are. -/
theorem applyStructural_slimOf (s : Shared) (p : Processor) (c : ClapParamPayload) :
    slimOf (applyStructural E s p c) = slimOf (s, p) := by
  cases c with
  | params q => exact (putParamCtx_frame s p _).slimOf
  | loadModel m => exact coldLoadModel_slimOf E s p m
  | loadCabIr pair => exact coldLoadCabsim_slimOf E s p pair
  | setOversample osL osR => rfl
  | restoreTxn txn =>
    have hm : slimOf (coldApplyModel E (s, p) txn.model) = slimOf (s, p) := by
      cases txn.model with
      | none => rfl
      | some m => exact coldLoadModel_slimOf E s p m
    have hi : ∀ r : Shared × Processor, slimOf (coldApplyIr E r txn.ir) = slimOf r := fun r =>
      coldApplyIr_eq E slimOf (fun r pair => coldLoadCabsim_slimOf E r.1 r.2 pair) r txn.ir
    have hp : ∀ r : Shared × Processor, slimOf (coldApplyParams E r txn) = slimOf r := fun r =>
      (putParamCtx_frame r.1 r.2 _).slimOf
    rw [applyStructural, coldApplyRestoreTxn_eq]
    exact (hp _).trans ((hi _).trans hm)

theorem replayRecovered_slimOf (s : Shared) (p : Processor) :
    slimOf (replayRecovered E s p) = slimOf (s, p) := by
  have hall : ∀ (cs : List ClapParamPayload) (r : Shared × Processor),
      slimOf (cs.foldl (fun r c => applyStructural E r.1 r.2 c) r) = slimOf r := by
    intro cs
    induction cs with
    | nil => exact fun r => rfl
    | cons c cs ih => exact fun r => (ih _).trans (applyStructural_slimOf E r.1 r.2 c)
  exact hall _ _

/-- The operations of the audio thread on slimmed models. -/
def AudioAction.isSlimmable : AudioAction → Bool
  | .slimmable _ => true
  | .signalSlimmableRebuild _ => true
  | _ => false

theorem audioStep_slim {s : Shared} {p : Processor} {a : AudioAction} {r : Shared × Processor}
    (h : audioStep E s p a = some r) (ha : a.isSlimmable = false) :
    r.1.slim = s.slim ∧ r.2.slim.deferred = p.slim.deferred := by
  have heq : slimOf r = slimOf (s, p) := by
    cases a with
    | beginEvents room =>
      simp only [audioStep] at h
      split_ifs at h
      obtain rfl := Option.some.inj h
      exact replayRecovered_slimOf E { s with ui := (writeGuiEvents s.ui room).ui }
        { p with inCallback := true }
    | drain m =>
      simp only [audioStep] at h
      split_ifs at h
      cases drainMove_spec E h with
      | installDeferred hd => exact applyStructural_slimOf E _ _ _
      | discardDeferred hd hr hs => rfl
      | applyParams hd hr => exact applyStructural_slimOf E _ _ _
      | popCandidate hd hc hr hs => rfl
      | supersede hd hc hr hs => rfl
      | installCandidate hd hc => exact applyStructural_slimOf E _ _ _
    | endEvents =>
      simp only [audioStep] at h
      split_ifs at h
      obtain rfl := Option.some.inj h
      obtain ⟨r, hf, he⟩ := endEvents_frame E s p
      rw [he]
      have hd : slimOf (endDrain s p) = slimOf (s, p) := by
        unfold endDrain
        cases p.candidate <;> rfl
      exact hf.slimOf.trans hd
    | hostEvents es =>
      simp only [audioStep] at h
      split_ifs at h
      obtain rfl := Option.some.inj h
      exact (hostEvents_frame E s p es).slimOf
    | flushInner room es =>
      simp only [audioStep] at h
      split_ifs at h
      obtain rfl := Option.some.inj h
      exact (flushInner_frame E s p room es).slimOf
    | slimmable m => cases ha
    | signalSlimmableRebuild ch => cases ha
    | reset =>
      simp only [audioStep] at h
      split_ifs at h
      obtain rfl := Option.some.inj h
      rfl
  exact Prod.mk.inj heq

/-! ## The lifecycle -/

theorem published_slim (s : Shared) (cfg : AudioConfig) (restore : Option StagedRestore)
    (a : Assembly) : (s.published E cfg restore a).slim = (s.publishStaged restore).slim := by
  cases restore with
  | none => rfl
  | some r =>
    simp only [Shared.published, Shared.publishStaged, Shared.publishRestore]
    cases r.publish.model <;> cases r.publish.irPathOnDisk <;> cases r.publish.modeFull <;> rfl

theorem FlushesModel.slim {s : Shared} {r : Shared × Bool} (h : FlushesModel s r) :
    r.1.slim = s.slim := by
  cases h <;> rfl

/-- An activation publishes the full model of a staged restore, and no other. -/
theorem Activates.slim {s : Shared} {cfg : AudioConfig} {faults : ActivateCall → Bool}
    {r : Shared × Option Processor} (h : Activates E s cfg faults r) :
    r.1.slim = s.slim ∨ ∃ restore swap, adaptStaged s cfg faults = (true, restore, swap) ∧
      r.1.slim = (s.publishStaged restore).slim := by
  have hflush : ∀ (restore : Option StagedRestore) (a : Assembly) (r : Shared × Bool),
      (s.published E cfg restore a).flushPendingModel (fun c => faults (.flush c)) = r →
      r.1.slim = (s.publishStaged restore).slim := by
    rintro restore a _ rfl
    exact (flushPendingModel_spec _ _).slim.trans (published_slim E s cfg restore a)
  cases h with
  | noConsumer h => exact .inl rfl
  | early hp h => exact .inl rfl
  | adapt hp hg hl hb hpipe ha => exact .inl rfl
  | flush hprep hf => exact .inr ⟨_, _, hprep.adapted, hflush _ _ _ hf⟩
  | ok hprep hf => exact .inr ⟨_, _, hprep.adapted, hflush _ _ _ hf⟩

theorem publishStaged_republished (s : Shared) (restore : Option StagedRestore) :
    s.Republished (s.publishStaged restore) := by
  cases restore with
  | none => rfl
  | some r => exact publishRestore_republished s r.publish

theorem deactivate_slim (s : Shared) (p : Processor) : (deactivate s p).slim = s.slim := by
  unfold deactivate
  cases p.deferred <;> rfl

end

/-! ## Slimmed models of the reference engine -/

/-- A WaveNet is loaded, and installed after the first activation. -/
def refWideInstalled : List Action :=
  [.main (.loadModel (refWide "one.nam") noFaults), refActivate, .audio (.beginEvents 0),
    .audio (.drain .popCandidate), .audio (.drain .installCandidate), .audio .endEvents]

/-- The adaptive controller asks for `ch` channels, the worker cuts the model, and the audio thread
takes it off the ring. -/
def refCut (ch : Nat) : List Action :=
  [.audio (.signalSlimmableRebuild ch), .main .pollSlimmable, .main (.publishSlimmable true true),
    .main .drainSlimmableRebuild, .main .lowerSlimmableFlag, .audio (.beginEvents 0),
    .audio (.slimmable .take)]

end NamPlug
