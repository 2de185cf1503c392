import NamPlug.Plugin.Proof.Tickets

/-!
# The outcomes of the operations of the main thread

One relation for each operation that moves a model, an impulse response or a restore, with every
state it can lead to. The other operations are quiet (`Quiet`): at most they send light parameters
or oversampling engines, store parameters and record intents about them.
-/

namespace NamPlug

open Binary32

/-! ## Loads and clears -/

section
variable (E : Engine)

/-- The adoption of a prepared model with the generation `g`. -/
inductive Commits (s : Shared) (prep : PreparedModel) (g : Nat) : Shared → Prop where
  | inactive (h : s.bufferSize = 0) : Commits s prep g
      (({ s with pendingModel := some ⟨g, prep.modelL, prep.modelR, prep.file.rate⟩ }
        |>.publishModelIdentity prep.file).note (.model g (some prep.file.asset)))
  | failed : Commits s prep g s
  | swapped {m t faults} (hb : s.bufferSize ≠ 0) (hg : m.generation = g)
    (ha : m.modelL.map StaticModel.asset = some prep.file.asset) (ht : Swaps s m t)
    (hm : prep.adapt s faults g = some m) :
    Commits s prep g ((t.publishModelIdentity prep.file).note (.model g (some prep.file.asset)))

theorem commitPreparedModel_spec (s : Shared) (prep : PreparedModel) (g : Nat)
    (faults : EngineCall → Bool) : Commits s prep g (s.commitPreparedModel E prep g faults) := by
  unfold Shared.commitPreparedModel
  split
  · exact .inactive ‹_›
  · split
    · exact .failed
    · rename_i m h
      obtain ⟨hg, ha⟩ := adapt_spec h
      exact .swapped ‹_› hg ha (swapModel_spec E s m) h

/-- A load: nothing, or the adoption with the next generation. -/
theorem loadModel_spec (s : Shared) (file : ModelFile) (faults : EngineCall → Bool) :
    s.loadModel E file faults = s ∨ ∃ prep,
      Commits s.allocateModelGeneration prep (s.modelGeneration + 1)
        (s.loadModel E file faults) ∧
      prepareModel file ⟨s.sampleRate, s.bufferSize⟩ faults = some prep := by
  unfold Shared.loadModel
  split
  · exact .inl rfl
  · exact .inr ⟨_, commitPreparedModel_spec E .., ‹_›⟩

/-- The state of a clear once the identity is gone. -/
def Shared.cleared (s : Shared) : Shared :=
  { s.allocateModelGeneration with
    params := { s.params with modelPath := none, modelBasename := none, modelHash := none }
    modelSampleRate := 0
    slim := { s.slim with fullWavenetModel := none } }

/-- The payload of a clear. -/
def Shared.clearPayload (s : Shared) : LoadModelPayload :=
  ⟨s.modelGeneration + 1, none, none, ⟨s.hostRate, s.hostRate⟩,
    buildStreamAdapter s.hostRate s.hostRate s.bufferSize, s.hostRate⟩

inductive Clears (s : Shared) : Shared → Prop where
  | inactive (h : s.bufferSize = 0) : Clears s
      ({ s.cleared with pendingModel := some ⟨s.modelGeneration + 1, none, none, s.hostRate⟩ }.note
        (.model (s.modelGeneration + 1) none))
  | failed (h : s.bufferSize ≠ 0) : Clears s s.cleared
  | swapped {m t} (h : s.bufferSize ≠ 0) (hg : m.generation = s.modelGeneration + 1)
    (ha : m.modelL = none) (ht : Swaps s.cleared m t) (hm : m = s.clearPayload) :
    Clears s (t.note (.model (s.modelGeneration + 1) none))

theorem clearModel_spec (s : Shared) (faults : EngineCall → Bool) :
    Clears s (s.clearModel E faults) := by
  unfold Shared.clearModel
  dsimp only
  split
  · exact .inactive ‹_›
  · split
    · exact .failed ‹_›
    · exact .swapped ‹_› rfl rfl (swapModel_spec E s.cleared _) rfl

/-! ## The loader -/

/-- A result that is polled: dropped, or adopted. -/
inductive Polls (s : Shared) : Shared → Prop where
  | idle (h : s.modelResultSlot = none) : Polls s s
  | dropped : Polls s { s with
      modelResultSlot := none, dispatchedModelGeneration := 0, dispatchedModelIsGui := false }
  | commits {r prep t} (hr : s.modelResultSlot = some r)
    (hg : r.generation = s.dispatchedModelGeneration) (h0 : r.generation ≠ 0)
    (ho : r.outcome = some prep)
    (ht : Commits { s with
      modelResultSlot := none, dispatchedModelGeneration := 0, dispatchedModelIsGui := false }
      prep r.generation t) : Polls s t

theorem pollModelLoaderResult_spec (s : Shared) (faults : EngineCall → Bool) :
    Polls s (s.pollModelLoaderResult E faults) := by
  unfold Shared.pollModelLoaderResult
  split
  · exact .idle ‹_›
  · rename_i r hr
    dsimp only
    split_ifs with hs
    · exact .dropped
    · obtain ⟨h0, hg⟩ := not_or.1 hs
      split
      · exact .commits hr (not_not.1 hg) h0 ‹_› (commitPreparedModel_spec E ..)
      · exact .dropped

/-- A load with no worker: no job, a job that failed, or a load of its own. -/
theorem dispatchModelLoadSync_spec (s : Shared) (file : Option ModelFile)
    (faults : EngineCall → Bool) :
    (∃ jobs, s.dispatchModelLoadSync E file faults = { s with pendingAsyncLoads := jobs }) ∨
      ∃ jobs f, s.dispatchModelLoadSync E file faults =
        { s with pendingAsyncLoads := jobs }.loadModel E f faults := by
  unfold Shared.dispatchModelLoadSync
  split
  · exact .inl ⟨s.pendingAsyncLoads, rfl⟩
  · split
    · exact .inl ⟨s.pendingAsyncLoads, rfl⟩
    · exact .inl ⟨_, rfl⟩
    · dsimp only
      split
      · exact .inr ⟨_, _, rfl⟩
      · exact .inl ⟨_, rfl⟩

/-! ## The retained model -/

/-- A retained model built for the current configuration. -/
def PendingModel.rebuilt (p : PendingModel) (s : Shared) : LoadModelPayload :=
  ⟨p.generation, p.model.map (·.setMaxBufferSize s.bufferSize),
    p.modelR.map (·.setMaxBufferSize s.bufferSize), ⟨s.sampleRate, p.modelRate⟩,
    buildStreamAdapter s.sampleRate p.modelRate s.bufferSize, p.modelRate⟩

/-- The flush of a retained model, with whether it went without an error. -/
inductive FlushesModel (s : Shared) : Shared × Bool → Prop where
  | idle (h : s.pendingModel = none ∨ s.bufferSize = 0) : FlushesModel s (s, true)
  | failed {p q : PendingModel} (hp : s.pendingModel = some p) (hb : s.bufferSize ≠ 0)
    (hg : q.generation = p.generation)
    (ha : q.model.map StaticModel.asset = p.model.map StaticModel.asset)
    (hq : ∃ l, (l = p.model ∨ l = p.model.map (·.setMaxBufferSize s.bufferSize)) ∧
      q = { p with model := l }) :
    FlushesModel s ({ s with pendingModel := some q }, false)
  | sent {p : PendingModel} {m : LoadModelPayload} {ps} (hp : s.pendingModel = some p)
    (hb : s.bufferSize ≠ 0) (hg : m.generation = p.generation)
    (ha : m.modelL.map StaticModel.asset = p.model.map StaticModel.asset)
    (hf : Flushed s ps none) (hm : m = p.rebuilt s) :
    FlushesModel s
      ({ s with pendingModel := none }.sent (ps ++ [ClapParamPayload.loadModel m]) none, true)
  | kept {p q : PendingModel} {ps c} (hp : s.pendingModel = some p) (hb : s.bufferSize ≠ 0)
    (hg : q.generation = p.generation)
    (ha : q.model.map StaticModel.asset = p.model.map StaticModel.asset)
    (hf : Flushed s ps c) (hq : q = (p.rebuilt s).toPending) :
    FlushesModel s ({ s.sent ps c with pendingModel := some q }, true)

theorem flushPendingModel_spec (s : Shared) (faults : EngineCall → Bool) :
    FlushesModel s (s.flushPendingModel faults) := by
  have hasset : ∀ l : Option StaticModel, (l.map (·.setMaxBufferSize s.bufferSize)).map
      StaticModel.asset = l.map StaticModel.asset := fun l => by cases l <;> rfl
  unfold Shared.flushPendingModel
  split
  · exact .idle (.inl ‹_›)
  · rename_i p hp
    split_ifs with hb hf
    · exact .idle (.inr hb)
    · have hs : FlushesModel s ({ s with pendingModel := some p }, false) :=
        .failed hp hb rfl rfl ⟨p.model, .inl rfl, rfl⟩
      rwa [← hp] at hs
    · obtain h | ⟨l, hl, h⟩ :=
        resizeModels_cases (faults .resizeL) (faults .resizeR) s.bufferSize p.model p.modelR <;>
        rw [h]
      · obtain ⟨ps, hf, hp'⟩ | ⟨ps, c, hf, hp'⟩ :=
          pushModel_cases { s with pendingModel := none } (p.rebuilt s) <;>
          rw [PendingModel.rebuilt] at hp' <;> dsimp only <;> rw [hp']
        · exact .sent hp hb rfl (hasset p.model) ⟨hf.mem, hf.left⟩ rfl
        · exact .kept hp hb rfl (hasset p.model) ⟨hf.mem, hf.left⟩ rfl
      · refine .failed hp hb rfl ?_ ⟨l, hl, rfl⟩
        rcases hl with rfl | rfl
        · rfl
        · exact hasset p.model

theorem FlushesModel.log {s : Shared} {r : Shared × Bool} (h : FlushesModel s r) :
    r.1.log = s.log := by
  cases h <;> rfl

/-! ## Impulse responses -/

/-- What an IR load leaves of the staged items where it does not stage itself. -/
def Shared.unstagedIr (s : Shared) : Shared := { s with stagedRestore := none }.clearStagedIr

/-- An IR load. Active, its pair is sent or staged and it clears a staged restore. -/
inductive LoadsIr (s : Shared) (ir : Asset) : Shared → Prop where
  | recorded (h : s.paramRx = true ∨ s.bufferSize = 0) : LoadsIr s ir (s.adoptIr ir s.hostRate)
  | failed (h : s.paramRx = false) (hb : s.bufferSize ≠ 0) :
    LoadsIr s ir { s with stagedRestore := none }
  | sent {ps} (h : s.paramRx = false) (hb : s.bufferSize ≠ 0) (hf : Flushed s ps none)
    (hl : s.bufferSize = s.currentCabsimLatency) : LoadsIr s ir ((s.unstagedIr.sent
      (ps ++ [ClapParamPayload.loadCabIr (some ⟨ir, s.hostRate, s.bufferSize⟩)]) none).adoptIr
        ir s.hostRate)
  | kept {ps c} (h : s.paramRx = false) (hb : s.bufferSize ≠ 0) (hf : Flushed s ps c) :
    LoadsIr s ir { s.unstagedIr.sent ps c with uiPendingIr := some ir.path }
  | staged (h : s.paramRx = false) (hb : s.bufferSize ≠ 0) :
    LoadsIr s ir ({ s with
      stagedRestore := none
      stagedSwap := some { s.stagedSwap.getD .empty with
        ir := some (some ⟨ir, s.hostRate, s.bufferSize⟩) } }.adoptIr ir s.hostRate)

theorem loadCabsim_spec (s : Shared) (ir : Asset) (faults : EngineCall → Bool) :
    LoadsIr s ir (s.loadCabsim ir faults) := by
  unfold Shared.loadCabsim
  dsimp only
  split_ifs with h hf hl
  · simp only [Bool.and_eq_true, Bool.not_eq_true', decide_eq_true_eq] at h
    exact .failed h.1 (by omega)
  · simp only [Bool.and_eq_true, Bool.not_eq_true', decide_eq_true_eq] at h
    obtain ⟨ps, hf, hp⟩ | ⟨ps, c, hf, hp⟩ := tryPushCommand_cases
      { s with stagedRestore := none }.clearStagedIr
      (.loadCabIr (some ⟨ir, s.hostRate, s.bufferSize⟩)) <;> rw [hp]
    · exact .sent h.1 (by omega) ⟨hf.mem, hf.left⟩ hl
    · exact .kept h.1 (by omega) ⟨hf.mem, hf.left⟩
  · simp only [Bool.and_eq_true, Bool.not_eq_true', decide_eq_true_eq] at h
    exact .staged h.1 (by omega)
  · simp only [Bool.and_eq_true, Bool.not_eq_true', decide_eq_true_eq, not_and] at h
    refine .recorded ?_
    cases hp : s.paramRx
    · exact .inr (by have := h hp; omega)
    · exact .inl rfl

theorem LoadsIr.log {s t : Shared} {ir : Asset} (h : LoadsIr s ir t) :
    ∃ es, t.log = es ++ s.log := by
  cases h with
  | recorded h => exact ⟨[.ir (some ir)], rfl⟩
  | failed h hb => exact ⟨[], rfl⟩
  | sent h hb hf => exact ⟨[.ir (some ir)], rfl⟩
  | kept h hb hf => exact ⟨[], rfl⟩
  | staged h hb => exact ⟨[.ir (some ir)], rfl⟩

/-! ## Restores -/

/-- The package of a restore: its generations are the next ones, its components those of the
validated restore. -/
structure Packaged (s : Shared) (v : ValidatedRestore) (mode : RestoreMode) (t : Shared)
    (publish : RestorePublish) (txn : RestoreTxn) : Prop where
  state : t = { s with
    modelGeneration := if txn.model.isSome then s.modelGeneration + 1 else s.modelGeneration
    nextRestoreGeneration := s.nextRestoreGeneration + 1 }
  publication : publish = restorePublish s v mode
  generation : txn.generation = s.nextRestoreGeneration + 1
  params : txn.params = publish.params.rt
  model : txn.model.map (fun m => m.modelL.map StaticModel.asset) =
    match v.model, mode with
    | some f, _ => some (some f.asset)
    | none, .full => some none
    | none, .forPreset => none
  modelGeneration : ∀ m, txn.model = some m → m.generation = s.modelGeneration + 1
  ir : txn.ir.map (fun p => p.map CabSimPair.asset) =
    match v.ir, mode with
    | some ir, _ => some (some ir)
    | none, .full => some none
    | none, .forPreset => none
  /-- The model is built from its file, or clears. -/
  built : ∀ m, txn.model = some m → (∃ f, v.model = some f ∧
      m = restoreModel s f (s.modelGeneration + 1)) ∨ m = restoreClear s (s.modelGeneration + 1)

theorem restoreModel_asset (s : Shared) (f : ModelFile) (g : Nat) :
    (restoreModel s f g).modelL.map StaticModel.asset = some f.asset := by
  simp only [restoreModel]
  split <;> rfl

theorem buildRestorePackage_spec {s : Shared} {v : ValidatedRestore} {mode : RestoreMode}
    {faults : EngineCall → Bool} {t : Shared} {publish : RestorePublish} {txn : RestoreTxn}
    (h : s.buildRestorePackage v mode faults = some (t, publish, txn)) :
    Packaged s v mode t publish txn := by
  unfold Shared.buildRestorePackage at h
  dsimp only at h
  cases hv : v.model with
  | some f =>
    simp only [hv, Option.some.injEq, Prod.mk.injEq] at h
    obtain ⟨rfl, rfl, rfl⟩ := h
    refine ⟨rfl, rfl, rfl, rfl, by simp [hv, restoreModel_asset], by rintro _ ⟨⟩; rfl, ?_,
      by rintro _ ⟨⟩; exact .inl ⟨f, hv, rfl⟩⟩
    cases v.ir <;> cases mode <;> rfl
  | none =>
    cases mode with
    | full =>
      simp only [hv] at h
      split_ifs at h
      simp only [Option.some.injEq, Prod.mk.injEq] at h
      obtain ⟨rfl, rfl, rfl⟩ := h
      refine ⟨rfl, rfl, rfl, rfl, by simp [hv, restoreClear], by rintro _ ⟨⟩; rfl, ?_,
        by rintro _ ⟨⟩; exact .inr rfl⟩
      cases v.ir <;> rfl
    | forPreset =>
      simp only [hv, Option.some.injEq, Prod.mk.injEq] at h
      obtain ⟨rfl, rfl, rfl⟩ := h
      refine ⟨rfl, rfl, rfl, rfl, by simp [hv], by rintro _ ⟨⟩, ?_, by rintro _ ⟨⟩⟩
      cases v.ir <;> rfl

/-- The intents of a restore are noted and nothing else. -/
theorem noteRestore_eq (s : Shared) (txn : RestoreTxn) :
    s.noteRestore txn = { s with log := (s.noteRestore txn).log } := by
  unfold Shared.noteRestore
  cases txn.model <;> cases txn.ir <;> rfl

/-- A restore notes the model it carries. -/
theorem noteRestore_log (s : Shared) (txn : RestoreTxn) :
    ∃ es, (s.noteRestore txn).log = es ++ s.log ∧ ∀ m, txn.model = some m →
      .model m.generation (m.modelL.map StaticModel.asset) ∈ es := by
  unfold Shared.noteRestore
  cases txn.model <;> cases txn.ir
  · exact ⟨[_], rfl, by simp⟩
  · exact ⟨[_, _], rfl, by simp⟩
  · exact ⟨[_, _], rfl, by simp⟩
  · exact ⟨[_, _, _], rfl, by simp⟩

/-- A restore of an active plugin: staged, sent, or retained. -/
inductive Restores (s : Shared) (v : ValidatedRestore) (mode : RestoreMode) : Shared → Prop where
  | failed : Restores s v mode s
  | staged {t publish txn o} (hp : Packaged s v mode t publish txn) :
    Restores s v mode ({ t with
      pendingRestartOs := o
      stagedSwap := none
      stagedRestore := some ⟨txn, publish⟩ }.noteRestore txn)
  | sent {t publish txn ps} (hp : Packaged s v mode t publish txn) (hf : Flushed s ps none) :
    Restores s v mode ({ { t with stagedRestore := none, stagedSwap := none }.sent
        (ps ++ [ClapParamPayload.restoreTxn txn]) none with
      pendingRestore := some ⟨txn.generation, none, publish,
        s.cmdNextSeq + (ps.length + 1)⟩ }.noteRestore txn)
  | kept {t publish txn ps c} (hp : Packaged s v mode t publish txn) (hf : Flushed s ps c) :
    Restores s v mode ({ { t with stagedRestore := none, stagedSwap := none }.sent ps c with
      pendingRestore := some ⟨txn.generation, some txn, publish, 0⟩ }.noteRestore txn)

theorem atomicCommit_spec (s : Shared) (v : ValidatedRestore) (mode : RestoreMode)
    (faults : EngineCall → Bool) : Restores s v mode (s.atomicCommit E v mode faults) := by
  unfold Shared.atomicCommit
  split
  · exact .failed
  · rename_i t publish txn h
    have hp := buildRestorePackage_spec h
    dsimp only
    split_ifs with hl
    · exact .staged hp
    · exact .staged hp
    · unfold Shared.deliverPendingRestore
      obtain ⟨ps, hf, ht⟩ | ⟨ps, c, hf, ht⟩ := tryPushCommand_cases
        { t with stagedRestore := none, stagedSwap := none } (.restoreTxn txn) <;> rw [ht]
      · have hf' : Flushed s ps none := by
          rw [hp.state] at hf
          exact ⟨hf.mem, hf.left⟩
        have hseq : s.cmdNextSeq = t.cmdNextSeq := by rw [hp.state]
        have := Restores.sent hp hf'
        rw [hseq] at this
        simpa [Shared.sent] using this
      · have hf' : Flushed s ps c := by
          rw [hp.state] at hf
          exact ⟨hf.mem, hf.left⟩
        exact .kept hp hf'

/-- A publication writes the identities, the parameters and nothing else. -/
theorem publishRestore_eq (s : Shared) (pub : RestorePublish) :
    s.publishRestore pub = { s with
      modelSampleRate := (s.publishRestore pub).modelSampleRate
      slim := (s.publishRestore pub).slim
      irPath := (s.publishRestore pub).irPath
      irHash := (s.publishRestore pub).irHash
      irRawSamples := (s.publishRestore pub).irRawSamples
      params := (s.publishRestore pub).params
      ui := (s.publishRestore pub).ui } := by
  unfold Shared.publishRestore
  cases pub.model <;> cases pub.irPathOnDisk <;> cases pub.modeFull <;> rfl

/-- The publication of an acknowledged restore. -/
def Shared.acknowledged (s : Shared) (r : PendingRestore) : Shared :=
  ({ s with pendingRestore := none }.publishRestore r.publish).note (.published r.generation)

theorem acknowledged_eq (s : Shared) (r : PendingRestore) :
    s.acknowledged r = { s with
      pendingRestore := none
      modelSampleRate := (s.acknowledged r).modelSampleRate
      slim := (s.acknowledged r).slim
      irPath := (s.acknowledged r).irPath
      irHash := (s.acknowledged r).irHash
      irRawSamples := (s.acknowledged r).irRawSamples
      params := (s.acknowledged r).params
      ui := (s.acknowledged r).ui
      log := .published r.generation :: s.log } := by
  have h := publishRestore_eq { s with pendingRestore := none } r.publish
  exact congrArg (fun t : Shared => t.note (.published r.generation)) h

theorem publishIfAcked_cases (s : Shared) :
    s.publishIfAcked = s ∨ ∃ r, s.pendingRestore = some r ∧ 0 < r.seq ∧ r.seq ≤ s.cmdLastAck ∧
      s.publishIfAcked = s.acknowledged r := by
  unfold Shared.publishIfAcked
  split
  · rename_i r hr
    split_ifs with h
    · exact .inr ⟨r, hr, h.1, h.2, rfl⟩
    · exact .inl rfl
  · exact .inl rfl

/-- The retry of a pending restore. -/
inductive FlushesRestore (s : Shared) : Shared → Prop where
  | idle (h : s.pendingRestore = none) : FlushesRestore s s
  | waiting {r} (hr : s.pendingRestore = some r) (ht : r.txn = none) :
    FlushesRestore s s.publishIfAcked
  | sent {r txn ps} (hr : s.pendingRestore = some r) (ht : r.txn = some txn)
    (hf : Flushed s ps none) :
    FlushesRestore s { s.sent (ps ++ [ClapParamPayload.restoreTxn txn]) none with
      pendingRestore := some { r with
        txn := none, seq := s.cmdNextSeq + (ps.length + 1) } }.publishIfAcked
  | kept {r txn ps c} (hr : s.pendingRestore = some r) (ht : r.txn = some txn)
    (hf : Flushed s ps c) : FlushesRestore s (s.sent ps c)

theorem flushPendingRestore_spec (s : Shared) : FlushesRestore s s.flushPendingRestore := by
  unfold Shared.flushPendingRestore
  split
  · exact .idle ‹_›
  · rename_i r hr
    split
    · exact .waiting hr ‹_›
    · rename_i txn ht
      obtain ⟨ps, hf, hp⟩ | ⟨ps, c, hf, hp⟩ := tryPushCommand_cases s (.restoreTxn txn) <;> rw [hp]
      · have h := FlushesRestore.sent hr ht hf
        simpa [Shared.sent] using h
      · exact .kept hr ht hf

/-! ## Quiet operations -/

/-- A command with neither a model nor an impulse response. -/
def ClapParamPayload.Quiet (c : ClapParamPayload) : Prop :=
  (∃ q, c = .params q) ∨ ∃ osL osR, c = .setOversample osL osR

theorem Flushed.quiet {s : Shared} {ps : List ClapParamPayload} {c : Option RtProcessingParams}
    (h : Flushed s ps c) : ∀ x ∈ ps, x.Quiet := fun x hx => by
  obtain ⟨q, rfl, -⟩ := h.mem x hx
  exact .inl ⟨q, rfl⟩

/-- The operations of the main thread that move no model, impulse response or restore. -/
def MainAction.isQuiet : MainAction → Bool
  | .acceptModelRequest _ _ => true
  | .dispatchModelLoad => true
  | .finishModelLoad _ _ => true
  | .flush _ _ => true
  | .flushInFlightParams => true
  | .handleOversampleRebuild => true
  | .snapshotParams => true
  | .guiStore _ => true
  | .guiAnnounce _ => true
  | .setRenderMode _ => true
  | .pollSlimmable => true
  | .publishSlimmable _ _ => true
  | .drainSlimmableRebuild => true
  | .handleSlimmableRebuildInline _ _ => true
  | .lowerSlimmableFlag => true
  | _ => false

/-- What a quiet operation leaves alone. -/
structure Quiet (s s' : Shared) : Prop where
  sent : ∃ ps, s'.ring = s.ring ++ ps ∧ s'.cmdNextSeq = s.cmdNextSeq + ps.length ∧
    ∀ c ∈ ps, c.Quiet
  cmdLastAck : s'.cmdLastAck = s.cmdLastAck
  recoveredCommands : s'.recoveredCommands = s.recoveredCommands
  paramRx : s'.paramRx = s.paramRx
  sampleRate : s'.sampleRate = s.sampleRate
  bufferSize : s'.bufferSize = s.bufferSize
  currentStreamLatency : s'.currentStreamLatency = s.currentStreamLatency
  currentCabsimLatency : s'.currentCabsimLatency = s.currentCabsimLatency
  currentLatency : s'.currentLatency = s.currentLatency
  modelGeneration : s.modelGeneration ≤ s'.modelGeneration
  deactivatedDsp : s'.deactivatedDsp = s.deactivatedDsp
  pendingModel : s'.pendingModel = s.pendingModel
  pendingRestore : s'.pendingRestore = s.pendingRestore
  stagedRestore : s'.stagedRestore = s.stagedRestore
  stagedSwap : s'.stagedSwap = s.stagedSwap
  irPath : s'.irPath = s.irPath
  irHash : s'.irHash = s.irHash
  irRawSamples : s'.irRawSamples = s.irRawSamples
  modelPath : s'.params.modelPath = s.params.modelPath
  modelBasename : s'.params.modelBasename = s.params.modelBasename
  modelHash : s'.params.modelHash = s.params.modelHash
  log : ∃ es, s'.log = es ++ s.log ∧ ∀ e ∈ es, ∃ p raw, e = .param p raw
  /-- The worker may put its result in the slot. -/
  result : ∀ r prep, s'.modelResultSlot = some r → r.outcome = some prep →
    s.modelResultSlot = some r ∨ ∃ file epoch faults, prepareModel file epoch faults = some prep
  renumbers : Renumbers s.modelGeneration s.waiting s.carried s.logged s'.modelGeneration
    s'.waiting s'.carried s'.logged

theorem Quiet.refl (s : Shared) : Quiet s s where
  sent := ⟨[], by simp⟩
  cmdLastAck := rfl
  recoveredCommands := rfl
  paramRx := rfl
  sampleRate := rfl
  bufferSize := rfl
  currentStreamLatency := rfl
  currentCabsimLatency := rfl
  currentLatency := rfl
  modelGeneration := Nat.le_refl _
  deactivatedDsp := rfl
  pendingModel := rfl
  pendingRestore := rfl
  stagedRestore := rfl
  stagedSwap := rfl
  irPath := rfl
  irHash := rfl
  irRawSamples := rfl
  modelPath := rfl
  modelBasename := rfl
  modelHash := rfl
  log := ⟨[], by simp⟩
  result := fun _ _ h _ => .inl h
  renumbers := .refl ..

theorem Quiet.trans {s t u : Shared} (h : Quiet s t) (k : Quiet t u) : Quiet s u where
  sent := by
    obtain ⟨ps, hr, hn, hq⟩ := h.sent
    obtain ⟨qs, kr, kn, kq⟩ := k.sent
    refine ⟨ps ++ qs, by rw [kr, hr, List.append_assoc], by rw [kn, hn, List.length_append]; omega,
      fun c hc => ?_⟩
    exact (List.mem_append.1 hc).elim (hq c) (kq c)
  cmdLastAck := k.cmdLastAck.trans h.cmdLastAck
  recoveredCommands := k.recoveredCommands.trans h.recoveredCommands
  paramRx := k.paramRx.trans h.paramRx
  sampleRate := k.sampleRate.trans h.sampleRate
  bufferSize := k.bufferSize.trans h.bufferSize
  currentStreamLatency := k.currentStreamLatency.trans h.currentStreamLatency
  currentCabsimLatency := k.currentCabsimLatency.trans h.currentCabsimLatency
  currentLatency := k.currentLatency.trans h.currentLatency
  modelGeneration := Nat.le_trans h.modelGeneration k.modelGeneration
  deactivatedDsp := k.deactivatedDsp.trans h.deactivatedDsp
  pendingModel := k.pendingModel.trans h.pendingModel
  pendingRestore := k.pendingRestore.trans h.pendingRestore
  stagedRestore := k.stagedRestore.trans h.stagedRestore
  stagedSwap := k.stagedSwap.trans h.stagedSwap
  irPath := k.irPath.trans h.irPath
  irHash := k.irHash.trans h.irHash
  irRawSamples := k.irRawSamples.trans h.irRawSamples
  modelPath := k.modelPath.trans h.modelPath
  modelBasename := k.modelBasename.trans h.modelBasename
  modelHash := k.modelHash.trans h.modelHash
  log := by
    obtain ⟨es, hl, he⟩ := h.log
    obtain ⟨fs, kl, kf⟩ := k.log
    exact ⟨fs ++ es, by rw [kl, hl, List.append_assoc],
      fun e hm => (List.mem_append.1 hm).elim (kf e) (he e)⟩
  result r prep hr hp := by
    obtain hr | hf := k.result r prep hr hp
    · exact h.result r prep hr hp
    · exact .inr hf
  renumbers := h.renumbers.trans k.renumbers

theorem quiet_generations {ps : List ClapParamPayload} (h : ∀ x ∈ ps, x.Quiet) :
    modelGenerations ps = [] := by
  refine modelGenerations_eq_nil fun c hc => ?_
  obtain ⟨q, rfl⟩ | ⟨osL, osR, rfl⟩ := h c hc <;> rfl

/-- A push of quiet commands. -/
theorem Quiet.sent' {s : Shared} {ps : List ClapParamPayload} {c : Option RtProcessingParams}
    (h : ∀ x ∈ ps, x.Quiet) : Quiet s (s.sent ps c) :=
  { Quiet.refl s with
    sent := ⟨ps, rfl, rfl, h⟩
    renumbers := by
      have hc : (s.sent ps c).carried = s.carried := by
        simp [Shared.carried, Shared.sent, quiet_generations h]
      rw [hc]
      exact .refl .. }

theorem Quiet.note {s : Shared} (p : ParamId) (raw : BitVec 32) :
    Quiet s (s.note (.param p raw)) :=
  { Quiet.refl s with log := ⟨[.param p raw], rfl, by simp⟩ }

theorem Quiet.slim (s : Shared) (x : SlimmableShared) : Quiet s { s with slim := x } :=
  { Quiet.refl s with }

theorem Quiet.noteEvent (s : Shared) (id : Nat) (v : F32) : Quiet s (s.noteEvent E id v) := by
  unfold Shared.noteEvent
  split
  · exact .refl s
  · exact .note ..
  · exact .refl s

theorem Quiet.sendParams (s : Shared) (q : RtProcessingParams) : Quiet s (s.sendParams q) := by
  obtain h | h := sendParams_cases s q <;> rw [h]
  · exact .sent' (by simp [ClapParamPayload.Quiet])
  · exact Quiet.trans (t := s.sent [] (some q)) (.sent' (by simp)) { Quiet.refl _ with }

theorem Quiet.flush (s : Shared) (room : Nat) (input : List ParamValueEvent) :
    Quiet s (s.flush E room input) := by
  have hnotes : ∀ (es : List ParamValueEvent) (s : Shared),
      Quiet s (es.foldl (fun s e => s.noteEvent E e.id (narrow e.value)) s) := by
    intro es
    induction es with
    | nil => exact fun s => .refl s
    | cons e es ih => exact fun s => (Quiet.noteEvent E s e.id _).trans (ih _)
  unfold Shared.flush
  dsimp only
  refine Quiet.trans (t := { s with
    params := { s.params with rt :=
      (flushEvents E.toParamEngine s.params.rt (writeGuiEvents s.ui room).ui input).1 }
    ui := (flushEvents E.toParamEngine s.params.rt (writeGuiEvents s.ui room).ui input).2 })
    { Quiet.refl s with } ?_
  split
  · exact (hnotes input _).trans (.sendParams ..)
  · exact hnotes input _

/-- A model request takes the next generation; it drops older requests or not. -/
theorem acceptModelRequest_renumbers (s : Shared) (path : Path) (isGui : Bool) :
    Renumbers s.modelGeneration s.waiting s.carried s.logged
      (s.acceptModelRequest path isGui).modelGeneration (s.acceptModelRequest path isGui).waiting
      (s.acceptModelRequest path isGui).carried (s.acceptModelRequest path isGui).logged := by
  have hwaiting : ∀ g, (s.acceptModelRequest path isGui).waiting.count g ≤
      s.waiting.count g + [s.modelGeneration + 1].count g := by
    intro g
    obtain ⟨jobs, hsub, hjobs⟩ : ∃ jobs : List ModelLoaderJob, jobs.Sublist s.pendingAsyncLoads ∧
        (s.acceptModelRequest path isGui).pendingAsyncLoads =
          jobs ++ [⟨path, isGui, s.modelGeneration + 1, ⟨0, 0⟩⟩] := by
      have hfilter : (if isGui then s.pendingAsyncLoads.filter (!·.isGui)
          else s.pendingAsyncLoads).Sublist s.pendingAsyncLoads := by
        split
        · exact List.filter_sublist
        · exact .refl _
      have hkept : ∀ l : List ModelLoaderJob, l.Sublist s.pendingAsyncLoads →
          (if MAX_PENDING_MODEL_REQUESTS ≤ l.length then l.tail else l).Sublist
            s.pendingAsyncLoads := by
        intro l hl
        split
        · exact (List.tail_sublist l).trans hl
        · exact hl
      exact ⟨_, hkept _ hfilter, rfl⟩
    have hle := (hsub.map (·.generation)).count_le g
    show ((s.acceptModelRequest path isGui).pendingAsyncLoads.map (·.generation) ++
      (s.workerJob.map (·.generation)).toList ++
      (s.modelResultSlot.map (·.generation)).toList).count g ≤ _
    rw [hjobs]
    simp only [Shared.waiting, List.map_append, List.map_cons, List.map_nil, List.count_append]
    omega
  constructor
  · refine .succ fun g => ?_
    have := hwaiting g
    rw [List.count_append, List.count_append]
    show _ + s.carried.count g ≤ _
    omega
  · refine .succ fun g => ?_
    have := hwaiting g
    rw [List.count_append, List.count_append]
    show _ + s.logged.count g ≤ _
    omega

/-- Loads that wait are dropped or stay. -/
theorem Renumbers.waiting_le {n : Nat} {w w' c l : List Nat} (h : ∀ g, w'.count g ≤ w.count g) :
    Renumbers n w c l n w' c l := by
  constructor <;> refine .of_le fun g => ?_ <;> have := h g <;>
    rw [List.count_append, List.count_append] <;> omega

theorem mainStep_quiet (s : Shared) {a : MainAction} (h : a.isQuiet = true) :
    Quiet s (mainStep E s a) := by
  cases a <;> simp only [MainAction.isQuiet, Bool.false_eq_true] at h <;> simp only [mainStep]
  case acceptModelRequest path isGui =>
    exact { Quiet.refl s with
      modelGeneration := Nat.le_succ _
      renumbers := acceptModelRequest_renumbers s path isGui }
  case dispatchModelLoad =>
    unfold Shared.dispatchModelLoad
    split
    · exact .refl s
    · rename_i hbusy
      split
      · exact .refl s
      · rename_i job jobs hjobs
        refine { Quiet.refl s with renumbers := .waiting_le fun g => ?_ }
        have hj : s.workerJob = none := by
          cases hw : s.workerJob <;> simp_all [Shared.modelWorkerBusy]
        simp only [Shared.waiting, hjobs, hj, List.map_cons, Option.map_some, Option.map_none,
          Option.toList_some, Option.toList_none, List.append_nil, List.count_append,
          List.count_cons, List.count_nil]
        omega
  case finishModelLoad file faults =>
    unfold Shared.finishModelLoad
    split
    · exact .refl s
    · rename_i job hj
      refine { Quiet.refl s with
        result := fun r prep hr hp => .inr ?_
        renumbers := .waiting_le fun g => ?_ }
      · obtain rfl := Option.some.inj hr
        obtain ⟨f, -, hf⟩ := Option.bind_eq_some_iff.1 hp
        exact ⟨f, _, faults, hf⟩
      · simp only [Shared.waiting, hj, Option.map_some, Option.map_none, Option.toList_some,
          Option.toList_none, List.append_nil, List.count_append, List.count_cons, List.count_nil]
        omega
  case flush room input => exact .flush E s room input
  case flushInFlightParams =>
    unfold Shared.flushInFlightParams
    split
    · exact Quiet.trans (t := { s with inFlightParams := none }) { Quiet.refl s with }
        (.sendParams ..)
    · exact .refl s
  case handleOversampleRebuild =>
    unfold Shared.handleOversampleRebuild
    split
    · exact .refl s
    · rename_i f _
      obtain ⟨ps, hf, hp⟩ | ⟨ps, c, hf, hp⟩ :=
        tryPushCommand_cases s (.setOversample ⟨f⟩ ⟨f⟩) <;> rw [hp]
      · refine Quiet.trans (.sent' (c := none) fun x hx => ?_) { Quiet.refl _ with }
        obtain hx | hx := List.mem_append.1 hx
        · exact hf.quiet x hx
        · exact .inr ⟨⟨f⟩, ⟨f⟩, List.mem_singleton.1 hx⟩
      · exact .sent' hf.quiet
  case pollSlimmable => exact .slim s _
  case publishSlimmable sliced resized =>
    rw [publishSlimmable_eq]
    exact .slim s _
  case drainSlimmableRebuild => exact .slim s _
  case handleSlimmableRebuildInline sliced resized =>
    rw [handleSlimmableRebuildInline_eq]
    exact .slim s _
  case lowerSlimmableFlag => exact .slim s _
  case snapshotParams => exact { Quiet.refl s with }
  case guiStore e => exact { Quiet.note (s := s) e.param (e.value s.ui) with }
  case guiAnnounce e => exact { Quiet.refl s with }
  case setRenderMode mode => exact { Quiet.refl s with }

/-- A quiet operation sends light parameters and the oversampling engine that was requested. -/
theorem quiet_ring (s : Shared) {a : MainAction} (h : a.isQuiet = true) :
    ∀ c ∈ (mainStep E s a).ring, c ∈ s.ring ∨ (∃ q, c = .params q) ∨
      ∃ f, a = .handleOversampleRebuild ∧ s.osRequest = some f ∧ c = .setOversample ⟨f⟩ ⟨f⟩ := by
  have hsend : ∀ (s : Shared) (q : RtProcessingParams), ∀ c ∈ (s.sendParams q).ring,
      c ∈ s.ring ∨ ∃ q, c = .params q := by
    intro s q c hc
    obtain h | h := sendParams_cases s q <;> rw [h] at hc
    · exact (List.mem_append.1 hc).imp id fun hc => ⟨q, List.mem_singleton.1 hc⟩
    · exact .inl (by simpa [Shared.sent, Shared.bumpGeneration] using hc)
  have hnotes : ∀ (es : List ParamValueEvent) (s : Shared),
      (es.foldl (fun s e => s.noteEvent E e.id (narrow e.value)) s).ring = s.ring := by
    intro es
    induction es with
    | nil => exact fun s => rfl
    | cons e es ih =>
      intro s
      refine (ih _).trans ?_
      show (s.noteEvent E e.id (narrow e.value)).ring = s.ring
      unfold Shared.noteEvent
      split <;> rfl
  intro c hc
  cases a <;> simp only [MainAction.isQuiet, Bool.false_eq_true] at h
  case flush room input =>
    simp only [mainStep, Shared.flush] at hc
    split at hc
    · obtain hc | hc := hsend _ _ c hc
      · rw [hnotes] at hc
        exact .inl hc
      · exact .inr (.inl hc)
    · rw [hnotes] at hc
      exact .inl hc
  case flushInFlightParams =>
    simp only [mainStep, Shared.flushInFlightParams] at hc
    split at hc
    · obtain hc | hc := hsend _ _ c hc
      · exact .inl hc
      · exact .inr (.inl hc)
    · exact .inl hc
  case handleOversampleRebuild =>
    simp only [mainStep, Shared.handleOversampleRebuild] at hc
    split at hc
    · exact .inl hc
    · rename_i f ho
      obtain ⟨ps, hf, hp⟩ | ⟨ps, c', hf, hp⟩ :=
        tryPushCommand_cases s (.setOversample ⟨f⟩ ⟨f⟩) <;> rw [hp] at hc
      · obtain hc | hc := List.mem_append.1 hc
        · exact .inl hc
        · obtain hc | hc := List.mem_append.1 hc
          · obtain ⟨q, hq, -⟩ := hf.mem c hc
            exact .inr (.inl ⟨q, hq⟩)
          · exact .inr (.inr ⟨f, rfl, ho, List.mem_singleton.1 hc⟩)
      · obtain hc | hc := List.mem_append.1 hc
        · exact .inl hc
        · obtain ⟨q, hq, -⟩ := hf.mem c hc
          exact .inr (.inl ⟨q, hq⟩)
  case dispatchModelLoad =>
    simp only [mainStep, Shared.dispatchModelLoad] at hc
    split at hc
    · exact .inl hc
    · split at hc <;> exact .inl hc
  case finishModelLoad file faults =>
    simp only [mainStep, Shared.finishModelLoad] at hc
    split at hc <;> exact .inl hc
  case publishSlimmable sliced resized =>
    simp only [mainStep] at hc
    rw [publishSlimmable_eq] at hc
    exact .inl hc
  case handleSlimmableRebuildInline sliced resized =>
    simp only [mainStep] at hc
    rw [handleSlimmableRebuildInline_eq] at hc
    exact .inl hc
  all_goals exact .inl hc

end

/-! ## What the main thread leaves alone -/

/-- The audio configuration and what the audio thread owns stay; the ring and the log grow. -/
structure MainFrame (s t : Shared) : Prop where
  sampleRate : t.sampleRate = s.sampleRate
  bufferSize : t.bufferSize = s.bufferSize
  currentStreamLatency : t.currentStreamLatency = s.currentStreamLatency
  currentCabsimLatency : t.currentCabsimLatency = s.currentCabsimLatency
  currentLatency : t.currentLatency = s.currentLatency
  paramRx : t.paramRx = s.paramRx
  recoveredCommands : t.recoveredCommands = s.recoveredCommands
  deactivatedDsp : t.deactivatedDsp = s.deactivatedDsp
  sent : ∃ ps, t.ring = s.ring ++ ps
  log : ∃ es, t.log = es ++ s.log

theorem MainFrame.refl (s : Shared) : MainFrame s s :=
  ⟨rfl, rfl, rfl, rfl, rfl, rfl, rfl, rfl, ⟨[], by simp⟩, ⟨[], by simp⟩⟩

theorem MainFrame.trans {s t u : Shared} (h : MainFrame s t) (k : MainFrame t u) :
    MainFrame s u where
  sampleRate := k.sampleRate.trans h.sampleRate
  bufferSize := k.bufferSize.trans h.bufferSize
  currentStreamLatency := k.currentStreamLatency.trans h.currentStreamLatency
  currentCabsimLatency := k.currentCabsimLatency.trans h.currentCabsimLatency
  currentLatency := k.currentLatency.trans h.currentLatency
  paramRx := k.paramRx.trans h.paramRx
  recoveredCommands := k.recoveredCommands.trans h.recoveredCommands
  deactivatedDsp := k.deactivatedDsp.trans h.deactivatedDsp
  sent := by
    obtain ⟨ps, hr⟩ := h.sent
    obtain ⟨qs, kr⟩ := k.sent
    exact ⟨ps ++ qs, by rw [kr, hr, List.append_assoc]⟩
  log := by
    obtain ⟨es, hl⟩ := h.log
    obtain ⟨fs, kl⟩ := k.log
    exact ⟨fs ++ es, by rw [kl, hl, List.append_assoc]⟩

theorem Quiet.frame {s t : Shared} (h : Quiet s t) : MainFrame s t where
  sampleRate := h.sampleRate
  bufferSize := h.bufferSize
  currentStreamLatency := h.currentStreamLatency
  currentCabsimLatency := h.currentCabsimLatency
  currentLatency := h.currentLatency
  paramRx := h.paramRx
  recoveredCommands := h.recoveredCommands
  deactivatedDsp := h.deactivatedDsp
  sent := by
    obtain ⟨ps, hr, -⟩ := h.sent
    exact ⟨ps, hr⟩
  log := by
    obtain ⟨es, hl, -⟩ := h.log
    exact ⟨es, hl⟩

theorem MainFrame.note (s : Shared) (e : Event) : MainFrame s (s.note e) :=
  { MainFrame.refl s with log := ⟨[e], rfl⟩ }

theorem MainFrame.pushed (s : Shared) (ps : List ClapParamPayload)
    (c : Option RtProcessingParams) : MainFrame s (s.sent ps c) :=
  { MainFrame.refl s with sent := ⟨ps, rfl⟩ }

theorem Swaps.frame {s t : Shared} {m : LoadModelPayload} (h : Swaps s m t) : MainFrame s t := by
  have hu : MainFrame s s.unstaged := { MainFrame.refl s with }
  cases h with
  | sent hf => exact hu.trans (.pushed ..)
  | @retained ps c hf =>
    exact (hu.trans (.pushed s.unstaged ps c)).trans { MainFrame.refl (s.unstaged.sent ps c) with }
  | staged => exact { MainFrame.refl s with }

theorem Commits.frame {s t : Shared} {prep : PreparedModel} {g : Nat} (h : Commits s prep g t) :
    MainFrame s t := by
  cases h with
  | inactive hb => exact { MainFrame.refl s with log := ⟨[_], rfl⟩ }
  | failed => exact .refl s
  | @swapped m u faults hb hg ha ht hm =>
    exact ht.frame.trans { MainFrame.refl u with log := ⟨[_], rfl⟩ }

theorem Clears.frame {s t : Shared} (h : Clears s t) : MainFrame s t := by
  have hc : MainFrame s s.cleared := { MainFrame.refl s with }
  cases h with
  | inactive hb => exact { MainFrame.refl s with log := ⟨[_], rfl⟩ }
  | failed hb => exact hc
  | swapped hb hg ha ht hm => exact (hc.trans ht.frame).trans (.note ..)

theorem Polls.frame {s t : Shared} (h : Polls s t) : MainFrame s t := by
  cases h with
  | idle h => exact .refl s
  | dropped => exact { MainFrame.refl s with }
  | commits hr hg h0 ho ht =>
    refine MainFrame.trans (t := { s with
      modelResultSlot := none, dispatchedModelGeneration := 0, dispatchedModelIsGui := false })
      ?_ ht.frame
    exact { MainFrame.refl s with }

theorem FlushesModel.frame {s : Shared} {r : Shared × Bool} (h : FlushesModel s r) :
    MainFrame s r.1 := by
  cases h with
  | idle h => exact .refl s
  | failed hp hb hg ha hq => exact { MainFrame.refl s with }
  | sent hp hb hg ha hf hm => exact { MainFrame.refl s with sent := ⟨_, rfl⟩ }
  | kept hp hb hg ha hf hq => exact { MainFrame.refl s with sent := ⟨_, rfl⟩ }

theorem LoadsIr.frame {s t : Shared} {ir : Asset} (h : LoadsIr s ir t) : MainFrame s t := by
  cases h with
  | recorded h => exact { MainFrame.refl s with log := ⟨[_], rfl⟩ }
  | failed h hb => exact { MainFrame.refl s with }
  | sent h hb hf => exact { MainFrame.refl s with sent := ⟨_, rfl⟩, log := ⟨[_], rfl⟩ }
  | kept h hb hf => exact { MainFrame.refl s with sent := ⟨_, rfl⟩ }
  | staged h hb => exact { MainFrame.refl s with log := ⟨[_], rfl⟩ }

theorem clearIr_frame (s : Shared) : MainFrame s s.clearIr := by
  unfold Shared.clearIr
  split
  · exact .note ..
  · exact { MainFrame.refl s with log := ⟨[_], rfl⟩ }

theorem localCommit_frame (s : Shared) (v : ValidatedRestore) (mode : RestoreMode) :
    MainFrame s (s.localCommit v mode) := by
  have hm : MainFrame s (s.localModel v mode) := by
    unfold Shared.localModel
    split
    · exact { MainFrame.refl s with log := ⟨[_], rfl⟩ }
    · exact { MainFrame.refl s with log := ⟨[_], rfl⟩ }
    · exact .refl s
  have hi : ∀ t : Shared, MainFrame t (t.localIr v mode) := by
    intro t
    unfold Shared.localIr
    split
    · exact { MainFrame.refl t with log := ⟨[_], rfl⟩ }
    · exact { MainFrame.refl t with log := ⟨[_], rfl⟩ }
    · exact .refl t
  exact (hm.trans (hi _)).trans { MainFrame.refl _ with log := ⟨[_], rfl⟩ }

theorem noteRestore_frame (s : Shared) (txn : RestoreTxn) : MainFrame s (s.noteRestore txn) := by
  obtain ⟨es, hl, -⟩ := noteRestore_log s txn
  rw [noteRestore_eq]
  exact { MainFrame.refl s with log := ⟨es, hl⟩ }

theorem Restores.frame {s t : Shared} {v : ValidatedRestore} {mode : RestoreMode}
    (h : Restores s v mode t) : MainFrame s t := by
  have hpack : ∀ {t : Shared} {publish : RestorePublish} {txn : RestoreTxn},
      Packaged s v mode t publish txn → MainFrame s t := by
    intro t publish txn hp
    rw [hp.state]
    exact { MainFrame.refl s with }
  cases h with
  | failed => exact .refl s
  | @staged t publish txn o hp =>
    refine (hpack hp).trans (MainFrame.trans ?_ (noteRestore_frame _ txn))
    exact { MainFrame.refl t with }
  | @sent t publish txn ps hp hf =>
    refine (hpack hp).trans (MainFrame.trans ?_ (noteRestore_frame _ txn))
    exact { MainFrame.refl t with sent := ⟨_, rfl⟩ }
  | @kept t publish txn ps c hp hf =>
    refine (hpack hp).trans (MainFrame.trans ?_ (noteRestore_frame _ txn))
    exact { MainFrame.refl t with sent := ⟨_, rfl⟩ }

theorem publishIfAcked_frame (s : Shared) : MainFrame s s.publishIfAcked := by
  obtain h | ⟨r, -, -, -, h⟩ := publishIfAcked_cases s <;> rw [h]
  · exact .refl s
  · rw [acknowledged_eq]
    exact { MainFrame.refl s with log := ⟨[_], rfl⟩ }

theorem FlushesRestore.frame {s t : Shared} (h : FlushesRestore s t) : MainFrame s t := by
  cases h with
  | idle h => exact .refl s
  | waiting hr ht => exact publishIfAcked_frame s
  | sent hr ht hf =>
    refine MainFrame.trans ?_ (publishIfAcked_frame _)
    exact { MainFrame.refl s with sent := ⟨_, rfl⟩ }
  | kept hr ht hf => exact .pushed ..

section
variable (E : Engine)

theorem loadModel_frame (s : Shared) (file : ModelFile) (faults : EngineCall → Bool) :
    MainFrame s (s.loadModel E file faults) := by
  obtain h | ⟨prep, h, -⟩ := loadModel_spec E s file faults
  · rw [h]
    exact .refl s
  · exact MainFrame.trans (t := s.allocateModelGeneration) { MainFrame.refl s with } h.frame

theorem mainStep_frame (s : Shared) (a : MainAction) : MainFrame s (mainStep E s a) := by
  by_cases hq : a.isQuiet = true
  · exact (mainStep_quiet E s hq).frame
  cases a with
  | loadModel file faults => exact loadModel_frame E s file faults
  | clearModel faults => exact (clearModel_spec E s faults).frame
  | dispatchModelLoadSync file faults =>
    show MainFrame s (s.dispatchModelLoadSync E file faults)
    obtain ⟨jobs, h⟩ | ⟨jobs, f, h⟩ := dispatchModelLoadSync_spec E s file faults <;> rw [h]
    · exact { MainFrame.refl s with }
    · exact MainFrame.trans (t := { s with pendingAsyncLoads := jobs }) { MainFrame.refl s with }
        (loadModel_frame E _ f faults)
  | pollModelLoaderResult faults => exact (pollModelLoaderResult_spec E s faults).frame
  | flushPendingModel faults => exact (flushPendingModel_spec s faults).frame
  | handlePendingIr ir faults =>
    exact MainFrame.trans (t := { s with uiPendingIr := none }) { MainFrame.refl s with }
      (loadCabsim_spec { s with uiPendingIr := none } ir faults).frame
  | clearIr => exact clearIr_frame s
  | restore v mode faults =>
    show MainFrame s (s.commitRestore E v mode faults)
    unfold Shared.commitRestore
    split
    · exact localCommit_frame s v mode
    · exact (atomicCommit_spec E s v mode faults).frame
  | flushPendingRestore => exact (flushPendingRestore_spec s).frame
  | _ => exact absurd rfl hq

end

end NamPlug
