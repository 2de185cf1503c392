import NamPlug.Params.Proof.GuiEvents
import NamPlug.Plugin.Proof.Activates

/-!
# The shared atomics along a run

`coded_step`: every stepped parameter holds one of its codes in every state a run reaches
(`atomics_coded`). Of the operations of the main thread only the parameter flush, the GUI callbacks and
the publication of a restore write a parameter.
-/

namespace NamPlug

open Binary32 Machine

/-! ## Operations that write no parameter -/

@[simp] theorem pushModel_ui (s : Shared) (m : LoadModelPayload) : (s.pushModel m).ui = s.ui := by
  obtain ⟨ps, -, h⟩ | ⟨ps, c, -, h⟩ := pushModel_cases s m <;> rw [h] <;> rfl

section
variable (E : Engine)

@[simp] theorem swapModel_ui (s : Shared) (m : LoadModelPayload) :
    (s.swapModel E m).ui = s.ui := by
  have h : ∀ t, Swaps s m t → t.ui = s.ui := by rintro _ (hf | hf | _) <;> rfl
  exact h _ (swapModel_spec E s m)

@[simp] theorem publishModelIdentity_ui (s : Shared) (f : ModelFile) :
    (s.publishModelIdentity f).ui = s.ui := rfl

@[simp] theorem note_ui (s : Shared) (e : Event) : (s.note e).ui = s.ui := rfl

@[simp] theorem noteEvent_ui (s : Shared) (id : Nat) (v : F32) :
    (s.noteEvent E id v).ui = s.ui := by
  unfold Shared.noteEvent
  split <;> rfl

@[simp] theorem commitPreparedModel_ui (s : Shared) (prep : PreparedModel) (g : Nat)
    (faults : EngineCall → Bool) : (s.commitPreparedModel E prep g faults).ui = s.ui := by
  unfold Shared.commitPreparedModel
  split
  · rfl
  · split <;> simp

@[simp] theorem loadModel_ui (s : Shared) (f : ModelFile) (faults : EngineCall → Bool) :
    (s.loadModel E f faults).ui = s.ui := by
  unfold Shared.loadModel
  split
  · rfl
  · simp [Shared.allocateModelGeneration]

@[simp] theorem clearModel_ui (s : Shared) (faults : EngineCall → Bool) :
    (s.clearModel E faults).ui = s.ui := by
  unfold Shared.clearModel
  dsimp only
  split
  · rfl
  · split <;> first | rfl | simp [Shared.allocateModelGeneration]

@[simp] theorem loadCabsim_ui (s : Shared) (ir : Asset) (faults : EngineCall → Bool) :
    (s.loadCabsim ir faults).ui = s.ui := by
  unfold Shared.loadCabsim
  dsimp only
  split_ifs
  · rfl
  · obtain ⟨ps, -, h⟩ | ⟨ps, c, -, h⟩ := tryPushCommand_cases
      { s with stagedRestore := none }.clearStagedIr
      (.loadCabIr (some ⟨ir, s.hostRate, s.bufferSize⟩)) <;> rw [h] <;> rfl
  · rfl
  · rfl

theorem atomicCommit_ui (s : Shared) (v : ValidatedRestore) (mode : RestoreMode)
    (faults : EngineCall → Bool) : (s.atomicCommit E v mode faults).ui = s.ui := by
  have hnote : ∀ (s : Shared) txn, (s.noteRestore txn).ui = s.ui := fun s txn => by
    unfold Shared.noteRestore
    cases txn.model <;> cases txn.ir <;> rfl
  have hpkg : ∀ t p txn, s.buildRestorePackage v mode faults = some (t, p, txn) → t.ui = s.ui := by
    intro t p txn h
    unfold Shared.buildRestorePackage at h
    dsimp only at h
    split at h
    · obtain ⟨rfl, -⟩ := Prod.mk.inj (Option.some.inj h); rfl
    · split at h
      · cases h
      · obtain ⟨rfl, -⟩ := Prod.mk.inj (Option.some.inj h); rfl
    · obtain ⟨rfl, -⟩ := Prod.mk.inj (Option.some.inj h); rfl
  unfold Shared.atomicCommit
  split
  · rfl
  · rename_i t p txn h
    dsimp only
    rw [hnote]
    split
    · exact hpkg t p txn h
    · unfold Shared.deliverPendingRestore
      obtain ⟨ps, -, hp⟩ | ⟨ps, c, -, hp⟩ := tryPushCommand_cases
        { t with stagedRestore := none, stagedSwap := none } (.restoreTxn txn) <;> rw [hp] <;>
        exact hpkg t p txn h

theorem flushPendingModel_ui (s : Shared) (faults : EngineCall → Bool) :
    (s.flushPendingModel faults).1.ui = s.ui := by
  unfold Shared.flushPendingModel
  split
  · rfl
  · split
    · rfl
    · split
      · rfl
      · split <;> simp

/-! ## Operations that write parameters -/

theorem coded_storeParams (u : UiToRt) (q : RtProcessingParams) : Coded (u.storeParams q) := by
  intro p n h
  cases p <;> simp only [stepMax, Option.some.injEq, reduceCtorEq] at h <;> subst h
  · exact toNat_bypassBoolToU32_le _
  · exact Nat.zero_le _
  · exact toNat_code_le (AdaptiveComputeMode.code_le _)
  · exact toNat_code_le (SlimOverride.code_le _)
  · exact toNat_code_le (OversampleFactor.code_le _)
  · exact toNat_code_le (ActivationPrecision.code_le _)

theorem coded_publishParams (s : Shared) (pub : RestorePublish) : Coded (s.publishParams pub).ui :=
  (coded_storeParams _ _).of_load (UiToRt.load_bumpGeneration _)

theorem coded_publishRestore (s : Shared) (pub : RestorePublish) :
    Coded (s.publishRestore pub).ui := coded_publishParams _ _

theorem coded_publishIfAcked {s : Shared} (hs : Coded s.ui) : Coded s.publishIfAcked.ui := by
  unfold Shared.publishIfAcked
  split
  · split
    · exact coded_publishRestore _ _
    · exact hs
  · exact hs

theorem coded_sendParams {s : Shared} (hs : Coded s.ui) (q : RtProcessingParams) :
    Coded (s.sendParams q).ui := by
  obtain h | h := sendParams_cases s q <;> rw [h]
  · exact hs
  · exact hs.of_load (UiToRt.load_bumpGeneration _)

theorem coded_writeGuiEvents {u : UiToRt} (hu : Coded u) (room : Nat) :
    Coded (writeGuiEvents u room).ui := hu.of_load (load_writeGuiEvents u room)

theorem coded_flush {s : Shared} (hs : Coded s.ui) (room : Nat) (input : List ParamValueEvent) :
    Coded (s.flush E room input).ui := by
  have hev : ∀ (es : List ParamValueEvent) (mu : RtProcessingParams × UiToRt), Coded mu.2 →
      Coded (es.foldl (flushEvent E.toParamEngine) mu).2 := by
    intro es
    induction es with
    | nil => exact fun mu h => h
    | cons e es ih => exact fun mu h => ih _ (coded_flushEvent E.toParamEngine h e)
  have hnote : ∀ (es : List ParamValueEvent) (s : Shared),
      (es.foldl (fun s e => s.noteEvent E e.id (narrow e.value)) s).ui = s.ui := by
    intro es
    induction es with
    | nil => exact fun s => rfl
    | cons e es ih => exact fun s => (ih _).trans (noteEvent_ui E s e.id (narrow e.value))
  unfold Shared.flush
  dsimp only
  have hu := hev input (s.params.rt, (writeGuiEvents s.ui room).ui) (coded_writeGuiEvents hs room)
  split
  · refine coded_sendParams ?_ _
    rw [hnote]
    exact hu
  · rw [hnote]
    exact hu

/-- The main thread keeps the atomics coded. -/
theorem coded_mainStep {s : Shared} (hs : Coded s.ui) (a : MainAction) :
    Coded (mainStep E s a).ui := by
  cases a with
  | loadModel file faults => simpa [mainStep] using hs
  | clearModel faults => simpa [mainStep] using hs
  | acceptModelRequest path isGui => exact hs
  | dispatchModelLoad =>
    simp only [mainStep, Shared.dispatchModelLoad]
    split
    · exact hs
    · split <;> exact hs
  | dispatchModelLoadSync file faults =>
    simp only [mainStep, Shared.dispatchModelLoadSync]
    split
    · exact hs
    · split
      · exact hs
      · exact hs
      · split
        · simpa using hs
        · exact hs
  | finishModelLoad file faults =>
    simp only [mainStep, Shared.finishModelLoad]
    split <;> exact hs
  | pollModelLoaderResult faults =>
    simp only [mainStep, Shared.pollModelLoaderResult]
    split
    · exact hs
    · split
      · exact hs
      · split
        · simpa using hs
        · exact hs
  | flushPendingModel faults => simpa [mainStep, flushPendingModel_ui] using hs
  | handlePendingIr ir faults => simpa [mainStep, Shared.handlePendingIr] using hs
  | clearIr =>
    simp only [mainStep, Shared.clearIr]
    split <;> exact hs
  | restore v mode faults =>
    simp only [mainStep, Shared.commitRestore]
    split
    · exact coded_publishParams _ _
    · rw [atomicCommit_ui]
      exact hs
  | flushPendingRestore =>
    simp only [mainStep, Shared.flushPendingRestore]
    split
    · exact hs
    · rename_i pending _
      split
      · exact coded_publishIfAcked hs
      · rename_i txn _
        obtain ⟨ps, -, h⟩ | ⟨ps, c, -, h⟩ := tryPushCommand_cases s (.restoreTxn txn) <;> rw [h]
        · exact coded_publishIfAcked hs
        · exact hs
  | flush room input => exact coded_flush E hs room input
  | flushInFlightParams =>
    simp only [mainStep, Shared.flushInFlightParams]
    split
    · exact coded_sendParams (s := { s with inFlightParams := none }) hs _
    · exact hs
  | handleOversampleRebuild =>
    simp only [mainStep, Shared.handleOversampleRebuild]
    split
    · exact hs
    · rename_i factor _
      obtain ⟨ps, -, h⟩ | ⟨ps, c, -, h⟩ :=
        tryPushCommand_cases s (.setOversample ⟨factor⟩ ⟨factor⟩) <;> rw [h] <;> exact hs
  | snapshotParams => exact hs
  | guiStore e => exact hs.store (fun _ h => toNat_guiValue_le s.ui e h)
  | guiAnnounce e => exact hs.of_load (load_guiAnnounce s.ui e)
  | setRenderMode mode => exact hs
  | pollSlimmable => exact hs
  | publishSlimmable sliced resized =>
    simp only [mainStep]
    rw [publishSlimmable_eq]
    exact hs
  | drainSlimmableRebuild => exact hs
  | handleSlimmableRebuildInline sliced resized =>
    simp only [mainStep]
    rw [handleSlimmableRebuildInline_eq]
    exact hs
  | lowerSlimmableFlag => exact hs

/-! ## The audio thread -/

theorem applyStructural_ui (s : Shared) (p : Processor) (c : ClapParamPayload) :
    (applyStructural E s p c).1.ui = s.ui := by
  have hcab : ∀ (s : Shared) (p : Processor) pair, (coldLoadCabsim E s p pair).1.ui = s.ui := by
    intro s p pair
    unfold coldLoadCabsim
    split <;> rfl
  cases c with
  | params q => exact applyParamsFromSpsc_ui E.toParamEngine (paramCtx s p) q
  | loadModel m => rfl
  | loadCabIr pair => exact hcab s p pair
  | setOversample osL osR => rfl
  | restoreTxn txn =>
    refine (applyParamsFromSpsc_ui E.toParamEngine _ txn.params).trans ?_
    simp only [paramCtx]
    cases txn.ir with
    | none => cases txn.model <;> rfl
    | some ir =>
      dsimp only
      rw [hcab]
      cases txn.model <;> rfl

theorem replayRecovered_ui (s : Shared) (p : Processor) : (replayRecovered E s p).1.ui = s.ui := by
  have h : ∀ (cs : List ClapParamPayload) (r : Shared × Processor),
      (cs.foldl (fun r c => applyStructural E r.1 r.2 c) r).1.ui = r.1.ui := by
    intro cs
    induction cs with
    | nil => exact fun r => rfl
    | cons c cs ih => exact fun r => (ih _).trans (applyStructural_ui E r.1 r.2 c)
  exact h _ _

theorem drainMove_ui {s : Shared} {p : Processor} {m : DrainMove} {r : Shared × Processor}
    (h : drainMove E s p m = some r) : r.1.ui = s.ui := by
  cases drainMove_spec E h with
  | installDeferred hd => exact applyStructural_ui ..
  | discardDeferred hd hr hs => rfl
  | applyParams hd hr => exact applyStructural_ui ..
  | popCandidate hd hc hr hs => rfl
  | supersede hd hc hr hs => rfl
  | installCandidate hd hc => exact applyStructural_ui ..

theorem syncGeneration_ui (s : Shared) (p : Processor) : (syncGeneration E s p).1.ui = s.ui := by
  unfold syncGeneration
  split
  · rfl
  · exact syncParamsFromGui_ui E.toParamEngine (paramCtx s p)

theorem coded_hostEvents {s : Shared} (hs : Coded s.ui) (p : Processor)
    (es : List ScheduledEvent) : Coded (hostEvents E s p es).1.ui := by
  have hone : ∀ (r : Shared × Processor) (e : ScheduledEvent), Coded r.1.ui →
      Coded (hostEvent E r.1 r.2 e).1.ui := by
    intro r e hr
    have hc : Coded (applyEvent E.toParamEngine (paramCtx r.1 r.2) e true).1.ui := by
      unfold applyEvent
      split
      · exact coded_applyScheduledEvent E.toParamEngine (c := paramCtx r.1 r.2) hr _ _ _ _
      · exact hr
    unfold hostEvent
    dsimp only
    split
    · exact hc
    · rw [noteEvent_ui]
      exact hc
  unfold hostEvents
  induction es generalizing s p with
  | nil => exact hs
  | cons e es ih => exact ih (hone (s, p) e hs) _

theorem coded_flushInner {s : Shared} (hs : Coded s.ui) (p : Processor) (room : Nat)
    (es : List ScheduledEvent) : Coded (flushInner E s p room es).1.ui := by
  have hone : ∀ (s : Shared) (p : Processor) (e : ScheduledEvent), Coded s.ui →
      Coded (flushInnerEvent E s p e).1.1.ui := by
    intro s p e hs
    unfold flushInnerEvent
    dsimp only
    split
    · exact hs
    · rw [noteEvent_ui]
      exact coded_setParam E.toParamEngine (c := paramCtx s p) hs _ _
    · rename_i q _ _ _
      have h : (applyModEvent E.toParamEngine (paramCtx s p) q e.value true).1.ui = s.ui :=
        applyModEvent_ui ..
      exact hs.of_load fun p => congrArg (·.load p) h
    · exact hs
  have hall : ∀ (es : List ScheduledEvent) (r : (Shared × Processor) × Bool), Coded r.1.1.ui →
      Coded (es.foldl (fun r e =>
        let q := flushInnerEvent E r.1.1 r.1.2 e
        (q.1, r.2 || q.2)) r).1.1.ui := by
    intro es
    induction es with
    | nil => exact fun r h => h
    | cons e es ih => exact fun r h => ih _ (hone r.1.1 r.1.2 e h)
  have hu := hall es (({ s with ui := (writeGuiEvents s.ui room).ui }, p), false)
    (coded_writeGuiEvents hs room)
  unfold flushInner
  dsimp only
  rw [syncGeneration_ui]
  split
  · exact hu.of_load (UiToRt.load_bumpGeneration _)
  · exact hu

theorem beginEvents_ui (s : Shared) (p : Processor) (room : Nat) :
    (beginEvents E s p room).1.ui = (writeGuiEvents s.ui room).ui := replayRecovered_ui E _ _

theorem endEvents_ui (s : Shared) (p : Processor) : (endEvents E s p).1.ui = s.ui := by
  unfold endEvents
  dsimp only
  rw [syncGeneration_ui]
  rfl

/-- The audio thread keeps the atomics coded. -/
theorem coded_audioStep {s : Shared} {p : Processor} {a : AudioAction} {r : Shared × Processor}
    (hs : Coded s.ui) (h : audioStep E s p a = some r) : Coded r.1.ui := by
  cases a with
  | beginEvents room =>
    simp only [audioStep] at h
    split_ifs at h
    obtain rfl := Option.some.inj h
    rw [beginEvents_ui]
    exact coded_writeGuiEvents hs room
  | drain m =>
    simp only [audioStep] at h
    split_ifs at h
    rw [drainMove_ui E h]
    exact hs
  | endEvents =>
    simp only [audioStep] at h
    split_ifs at h
    obtain rfl := Option.some.inj h
    rw [endEvents_ui]
    exact hs
  | hostEvents es =>
    simp only [audioStep] at h
    split_ifs at h
    obtain rfl := Option.some.inj h
    exact coded_hostEvents E hs p es
  | flushInner room es =>
    simp only [audioStep] at h
    split_ifs at h
    obtain rfl := Option.some.inj h
    exact coded_flushInner E hs p room es
  | slimmable m =>
    simp only [audioStep] at h
    split_ifs at h
    cases slimmableMove_spec h <;> exact hs
  | signalSlimmableRebuild ch =>
    simp only [audioStep] at h
    split_ifs at h
    obtain rfl := Option.some.inj h
    exact hs
  | reset =>
    simp only [audioStep] at h
    split_ifs at h
    obtain rfl := Option.some.inj h
    exact hs

/-! ## Activation and runs -/

theorem published_ui (s : Shared) (cfg : AudioConfig) (restore : Option StagedRestore)
    (a : Assembly) : (s.published E cfg restore a).ui = (s.taken.publishStaged restore).ui := rfl

theorem coded_publishStaged {s : Shared} (hs : Coded s.ui) (restore : Option StagedRestore) :
    Coded (s.publishStaged restore).ui := by
  cases restore with
  | none => exact hs
  | some r => exact coded_publishRestore s r.publish

theorem coded_activate {s : Shared} (hs : Coded s.ui) {cfg : AudioConfig}
    {faults : ActivateCall → Bool} {r : Shared × Option Processor}
    (h : Activates E s cfg faults r) : Coded r.1.ui := by
  cases h with
  | noConsumer h => exact hs
  | early hp h => exact hs
  | adapt hp hg hl hb hpipe ha => exact hs
  | @flush restore swap pipe a t h hf =>
    have hu := coded_publishStaged (s := s.taken) hs restore
    rw [← published_ui E s cfg restore a, ← flushPendingModel_ui, hf] at hu
    exact hu
  | @ok restore swap pipe a t h hf =>
    have hu := coded_publishStaged (s := s.taken) hs restore
    rw [← published_ui E s cfg restore a, ← flushPendingModel_ui, hf] at hu
    exact hu

theorem coded_step {x y : Plugin} {a : Action} (hx : Coded x.shared.ui)
    (h : NamPlug.step E x a = some y) : Coded y.shared.ui := by
  cases a with
  | main a =>
    obtain rfl := Option.some.inj h
    exact coded_mainStep E hx a
  | audio a =>
    obtain ⟨p, -, h⟩ := Option.bind_eq_some_iff.1 h
    obtain ⟨r, hr, rfl⟩ := Option.map_eq_some_iff.1 h
    exact coded_audioStep E hx hr
  | activate cfg faults =>
    simp only [NamPlug.step] at h
    split_ifs at h
    obtain rfl := Option.some.inj h
    exact coded_activate E hx (activate_spec E x.shared cfg faults)
  | deactivate =>
    simp only [NamPlug.step] at h
    split at h
    · split_ifs at h
      obtain rfl := Option.some.inj h
      rename_i p _ _
      unfold deactivate
      split <;> exact hx
    · cases h

/-- Every stepped parameter holds one of its codes, whatever was done. -/
theorem atomics_coded {as : List Action} {x : Plugin}
    (h : run (NamPlug.step E) (.init E.toParamEngine) as = some x) :
    Coded x.shared.ui :=
  run_always (I := fun x => Coded x.shared.ui) (fun _ _ _ => coded_step E) coded_default h

end

end NamPlug
