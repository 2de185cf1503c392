import NamPlug.Plugin.Display
import NamPlug.Plugin.Step

/-!
# Loads that fail

`failure_untouched_iff`: a load or a clear that fails leaves all as it was but for the error it
shows, except where an IR load that fails to build its convolution engine has dropped a staged
restore, and where a clear has already taken the model's identity, weights and display away.

* `commitPreparedModel_failed`: a commit builds what it needs before it changes anything.
-/

namespace NamPlug

variable {Meta Info : Type}

/-- All is as before but for the error shown, the model generation and the model's rate. -/
structure Panel.Untouched (x y : Panel Meta Info) : Prop where
  shared : { y.shared with
    modelGeneration := x.shared.modelGeneration
    modelSampleRate := x.shared.modelSampleRate } = x.shared
  modelName : y.display.modelName = x.display.modelName
  modelMetadata : y.display.modelMetadata = x.display.modelMetadata
  modelInfo : y.display.modelInfo = x.display.modelInfo

/-- Where a call changes nothing but the error shown, should it fail. -/
def Panel.KeepsOnFailure (x : Panel Meta Info) : LoadCall Meta Info → Prop
  | .loadModel _ => True
  | .commitPreparedModel .. => True
  | .loadCabsim none => True
  | .loadCabsim (some _) => x.shared.stagedRestore = none
  | .clearModel =>
    (x.shared.params.modelPath = none ∧ x.shared.params.modelBasename = none ∧
      x.shared.params.modelHash = none) ∧ x.shared.slim.fullWavenetModel = none ∧
      x.display.modelName = "" ∧ x.display.modelMetadata = none ∧ x.display.modelInfo = none

/-! ## Commits -/

theorem resizeModels_ok (failL failR : Bool) (n : Nat) (l r : Option StaticModel) :
    (resizeModels failL failR n l r).1 = !(l.isSome && failL || r.isSome && failR) := by
  unfold resizeModels
  cases l.isSome && failL
  · cases hr : r.isSome && failR <;> simp
  · simp

/-- A commit fails where the resources for the active configuration cannot be built. -/
theorem commitFailure_eq_none_iff (prep : PreparedModel) (s : Shared) (faults : EngineCall → Bool)
    (generation : Nat) (hs : s.bufferSize ≠ 0) :
    prep.commitFailure s faults = none ↔ (prep.adapt s faults generation).isSome = true := by
  unfold PreparedModel.commitFailure PreparedModel.adapt
  rw [if_neg hs]
  by_cases hd : prep.divergent s = true
  · rw [if_pos hd, if_pos hd]
    have hresize := resizeModels_ok (faults .resizeL) (faults .resizeR) s.bufferSize prep.modelL
      prep.modelR
    generalize resizeModels (faults .resizeL) (faults .resizeR) s.bufferSize prep.modelL
      prep.modelR = r at hresize
    obtain ⟨ok, l, r⟩ := r
    obtain rfl : ok = _ := hresize
    cases faults .resampler <;> cases faults .stream <;>
      cases prep.modelL.isSome && faults .resizeL <;>
      cases prep.modelR.isSome && faults .resizeR <;> simp
  · rw [if_neg hd, if_neg hd]
    cases prep.newResampler <;> cases prep.newStream <;> simp

theorem Shared.commitPreparedModel_failed (E : Engine) {s : Shared} {prep : PreparedModel}
    {faults : EngineCall → Bool} {why : CommitFailure} (generation : Nat)
    (h : prep.commitFailure s faults = some why) :
    s.commitPreparedModel E prep generation faults = s := by
  have hs : s.bufferSize ≠ 0 := by
    intro h0
    rw [PreparedModel.commitFailure, if_pos h0] at h
    cases h
  have hadapt : prep.adapt s faults generation = none := by
    rw [← Option.not_isSome_iff_eq_none, ← commitFailure_eq_none_iff prep s faults generation hs, h]
    simp
  rw [Shared.commitPreparedModel, if_neg hs, hadapt]

theorem Shared.without_restore {s : Shared} (h : s.stagedRestore = none) :
    { s with stagedRestore := none } = s := by
  cases s
  cases h
  rfl

theorem Shared.without_model {s : Shared} (hpath : s.params.modelPath = none)
    (hbase : s.params.modelBasename = none) (hhash : s.params.modelHash = none)
    (hw : s.slim.fullWavenetModel = none) :
    { s with
      params := { s.params with modelPath := none, modelBasename := none, modelHash := none }
      slim := { s.slim with fullWavenetModel := none } } = s := by
  have hp : { s.params with modelPath := none, modelBasename := none, modelHash := none } =
      s.params := by
    generalize s.params = p at hpath hbase hhash
    cases p
    cases hpath
    cases hbase
    cases hhash
    rfl
  have hslim : { s.slim with fullWavenetModel := none } = s.slim := by
    generalize s.slim = w at hw
    cases w
    cases hw
    rfl
  rw [hp, hslim]

namespace Panel

variable {E : Engine} {x : Panel Meta Info} {faults : EngineCall → Bool}

theorem Untouched.refl (x : Panel Meta Info) : Untouched x x := ⟨rfl, rfl, rfl, rfl⟩

theorem commitPreparedModel_failed {prep : PreparedModel} {ui : ModelUi Meta Info}
    {generation : Nat} (h : (x.commitPreparedModel E prep ui generation faults).2 = .failed) :
    ∃ why, (x.commitPreparedModel E prep ui generation faults).1 =
      ⟨x.shared, x.display.noteCommitFailure prep.file.asset.path why⟩ := by
  unfold commitPreparedModel at h ⊢
  cases hwhy : prep.commitFailure x.shared faults with
  | none => simp [hwhy] at h
  | some why =>
    refine ⟨why, ?_⟩
    simp only [Shared.commitPreparedModel_failed E generation hwhy]

theorem loadModel_failed {file : Option (ModelFile × ModelUi Meta Info)}
    (h : (x.loadModel E file faults).2 = .failed) : Untouched x (x.loadModel E file faults).1 := by
  unfold loadModel at h ⊢
  split at h
  · exact .refl x
  · split at h
    · exact .refl x
    · obtain ⟨why, hfailed⟩ := commitPreparedModel_failed h
      simp only [hfailed]
      exact ⟨rfl, rfl, rfl, rfl⟩

theorem loadCabsim_failed {ir : Asset} (h : (x.loadCabsim (some ir) faults).2 = .failed) :
    (x.loadCabsim (some ir) faults).1 =
      { x with shared := { x.shared with stagedRestore := none } } := by
  unfold loadCabsim at h ⊢
  by_cases hfail : (!x.shared.paramRx && decide (0 < x.shared.bufferSize) && faults .cabsim) = true
  · rw [Bool.and_eq_true] at hfail
    simp only [Shared.loadCabsim, hfail.1, hfail.2, if_true]
  · simp [hfail] at h

/-- A clear that fails after it has taken the identity away. -/
theorem clearModel_failed (h : (x.clearModel E faults).2 = .failed) :
    (x.clearModel E faults).1 =
      { shared := { x.shared.allocateModelGeneration with
          params := { x.shared.params with
            modelPath := none, modelBasename := none, modelHash := none }
          modelSampleRate := 0
          slim := { x.shared.slim with fullWavenetModel := none } }
        display := { x.display with
          modelMetadata := none
          modelInfo := none
          modelMemoryBytes := 0
          modelName := "" } } := by
  unfold clearModel at h ⊢
  by_cases hfail : (decide (0 < x.shared.bufferSize) &&
      (faults .resampler || faults .stream)) = true
  · simp only [if_pos hfail]
    rw [Bool.and_eq_true, decide_eq_true_eq] at hfail
    have hbuf : x.shared.allocateModelGeneration.bufferSize ≠ 0 := Nat.ne_of_gt hfail.1
    exact congrArg (Panel.mk · _) ((if_neg hbuf).trans (if_pos hfail.2))
  · simp [hfail] at h

end Panel

/-- A load or a clear that fails leaves all as it was but for the error shown exactly where no
staged restore was dropped for an IR, and where there was no model to clear. -/
theorem failure_untouched_iff (E : Engine) (x : Panel Meta Info) (c : LoadCall Meta Info)
    (faults : EngineCall → Bool) (h : (x.call E c faults).2 = .failed) :
    x.Untouched (x.call E c faults).1 ↔ x.KeepsOnFailure c := by
  cases c with
  | loadModel file => exact ⟨fun _ => trivial, fun _ => Panel.loadModel_failed h⟩
  | commitPreparedModel prep ui generation =>
    obtain ⟨why, hfailed⟩ := Panel.commitPreparedModel_failed h
    refine ⟨fun _ => trivial, fun _ => ?_⟩
    simp only [Panel.call, hfailed]
    exact ⟨rfl, rfl, rfl, rfl⟩
  | loadCabsim ir =>
    cases ir with
    | none => exact ⟨fun _ => trivial, fun _ => .refl x⟩
    | some ir =>
      simp only [Panel.call, Panel.loadCabsim_failed h]
      constructor
      · intro hx
        exact (congrArg Shared.stagedRestore hx.shared).symm
      · intro hx
        have hs : { x.shared with stagedRestore := none } = x.shared := Shared.without_restore hx
        exact ⟨hs, rfl, rfl, rfl⟩
  | clearModel =>
    simp only [Panel.call, Panel.clearModel_failed h]
    constructor
    · rintro ⟨hs, hname, hmeta, hinfo⟩
      have hp := congrArg Shared.params hs
      have hw := congrArg (·.slim.fullWavenetModel) hs
      exact ⟨⟨(congrArg (·.modelPath) hp).symm, (congrArg (·.modelBasename) hp).symm,
        (congrArg (·.modelHash) hp).symm⟩, hw.symm, hname.symm, hmeta.symm, hinfo.symm⟩
    · rintro ⟨⟨hpath, hbase, hhash⟩, hw, hname, hmeta, hinfo⟩
      exact ⟨Shared.without_model hpath hbase hhash hw, hname.symm, hmeta.symm, hinfo.symm⟩

/-! ## Failures -/

/-- An active plugin without a model. -/
def idlePanel : Panel Unit Unit := ⟨(refRun [refActivate]).shared, .empty⟩

/-- The same after a model was loaded. -/
def loadedPanel : Panel Unit Unit :=
  (idlePanel.loadModel refEngine (some (refFile "lead.nam", ⟨(), (), 1⟩)) noFaults).1

/-- A resampler that cannot be built. -/
def resamplerFault : EngineCall → Bool := fun c => c == .resampler

/-- A preset with an impulse response, which changes the latency. -/
def refStaging : ValidatedRestore :=
  ⟨{ ProcessingParams.initial refParamEngine with irPath := some ⟨true, ["two.wav"]⟩ }, none,
    some (refIr "two.wav"), refIr_path _⟩

/-- A model is loaded, and the restore of the preset is staged for a restart. -/
def stagedPanel : Panel Unit Unit :=
  { loadedPanel with
    shared := loadedPanel.shared.commitRestore refEngine refStaging .forPreset noFaults }

/-- Another model, prepared before the sample rate changed. -/
def refDivergent : PreparedModel :=
  (prepareModel (refFile "other.nam") ⟨44100, 512⟩ noFaults).get (by decide +kernel)

/-- With no model there is nothing a clear could take away, and a commit takes nothing away from a
loaded model and a staged restore. -/
theorem failure_untouched_idle :
    ((idlePanel.call refEngine .clearModel resamplerFault).2 = .failed ∧
      idlePanel.Untouched (idlePanel.call refEngine .clearModel resamplerFault).1) ∧
    (stagedPanel.shared.stagedRestore.isSome = true ∧
      stagedPanel.shared.params.modelPath.isSome = true ∧
      (stagedPanel.call refEngine (.commitPreparedModel refDivergent ⟨(), (), 1⟩ 2)
        resamplerFault).2 = .failed ∧
      stagedPanel.Untouched (stagedPanel.call refEngine
        (.commitPreparedModel refDivergent ⟨(), (), 1⟩ 2) resamplerFault).1) :=
  have hclear : (idlePanel.call refEngine .clearModel resamplerFault).2 = .failed := by
    decide +kernel
  have hcommit : (stagedPanel.call refEngine (.commitPreparedModel refDivergent ⟨(), (), 1⟩ 2)
      resamplerFault).2 = .failed := by decide +kernel
  ⟨⟨hclear, (failure_untouched_iff refEngine idlePanel .clearModel resamplerFault hclear).2
      ⟨⟨by decide +kernel, by decide +kernel, by decide +kernel⟩, by decide +kernel,
        by decide +kernel, by decide +kernel, by decide +kernel⟩⟩,
    by decide +kernel, by decide +kernel, hcommit,
    (failure_untouched_iff refEngine stagedPanel _ resamplerFault hcommit).2 trivial⟩

/-- A clear that fails: the model still plays, but its name and identity are gone. -/
theorem failure_not_untouched :
    (loadedPanel.call refEngine .clearModel resamplerFault).2 = .failed ∧
      ¬ loadedPanel.Untouched (loadedPanel.call refEngine .clearModel resamplerFault).1 :=
  ⟨by decide +kernel, fun h => absurd h.modelName (by decide +kernel)⟩

end NamPlug
