import Mathlib
import NamPlug.State.Proof.Looks
import NamPlug.Plugin.Step

/-!
# Which bytes a restore adopts

A model is checked in one read and built in two later ones: the digest it is recorded under is that
of the second, the weights are those of the third. What is adopted is what was saved exactly where
the file still has the saved digest at both (`adopted_verified_iff`). The bytes of an impulse
response are read once, but decoded from a temporary file, which has to hold them still.

`locateModel` and `stageIr` are the validation up to the point where the file is accepted.
-/

namespace NamPlug

open Text

section
variable (S : StateEngine) (env : HostEnv) (loaded : ProcessingParams)

/-! ## The check of a model -/

/-- `searchModel` up to the first candidate. -/
def searchCandidate (name expected : String) : List Path → Probe FileSystem PluginError Path
  | [] => .fail (.message MODEL_NOT_FOUND_PORTABLE)
  | dir :: dirs => do
    match ← resolveConfinedCandidate dir name with
    | none => searchCandidate name expected dirs
    | some candidate =>
      match ← (computeFileHash S.sha256 candidate).attempt with
      | .ok actual =>
        if eqIgnoreAsciiCase actual expected then pure candidate
        else searchCandidate name expected dirs
      | .error _ => searchCandidate name expected dirs

/-- `validateModelFromBasename` up to the candidate. -/
def locateFromBasename : Probe FileSystem PluginError (Option Path) :=
  match loaded.modelBasename with
  | none => pure none
  | some rawBasename =>
    match sanitizeBasename rawBasename with
    | none => .fail (.message MODEL_BASENAME_INVALID)
    | some cleanBasename =>
      match loaded.modelHash with
      | none => .fail (.message MODEL_HASH_MISSING)
      | some expectedHash =>
        if !isValidSha256Hex expectedHash then .fail (.message MODEL_HASH_MALFORMED)
        else do
          let canonical ← canonicalSearchDirs env.home
          let candidate ← searchCandidate S cleanBasename expectedHash
            (loaded.modelSearchPaths ++ canonical)
          pure (some candidate)

/-- `validateModelFull` up to the accepted path. -/
def locateFull : Probe FileSystem PluginError (Option Path) :=
  match loaded.modelPath with
  | none => locateFromBasename S env loaded
  | some path => do
    let hashValid ← modelHashValid S loaded path
    if hashValid then pure (some path)
    else if loaded.modelBasename.isSome then locateFromBasename S env loaded
    else .fail (.message MODEL_NOT_FOUND_OR_INVALID)

/-- The check of a model: the path it accepts. -/
def locateModel : RestoreMode → Probe FileSystem PluginError (Option Path)
  | .full => locateFull S env loaded
  | .forPreset => locateFromBasename S env loaded

/-! ## The check of an impulse response -/

/-- `validateIrAt` up to the temporary file: its path, and the digest of what was written there. -/
def stageIrAt (irPath : Path) : Probe FileSystem PluginError (Path × String) := do
  if ← .ask fun F => .ok (F.has irPath) then
    match loaded.irHash with
    | none => .fail (.message IR_HASH_MISSING)
    | some expectedHash =>
      if !isValidSha256Hex expectedHash then .fail (.message IR_HASH_MALFORMED)
      else
        let irBytes ← (readIrFileBytes irPath).mapError fun _ => .message IR_HASH_FAILED
        let actualHash := S.sha256 irBytes
        if !eqIgnoreAsciiCase actualHash expectedHash then .fail (.message IR_HASH_MISMATCH)
        else
          let tmpPath ← stageVerifiedBytes S env irBytes irPath env.tmpAttempts env.irTmpCounter
          pure (tmpPath, actualHash)
  else .fail (.message IR_NOT_FOUND)

/-- `validateIr` up to the temporary file. -/
def stageIr : Probe FileSystem PluginError (Option Path) :=
  match loaded.irPath with
  | none => pure none
  | some irPath => do
    let (tmpPath, _) ← stageIrAt S env loaded irPath
    pure (some tmpPath)

end

variable {S : StateEngine} {env : HostEnv} {loaded : ProcessingParams} {hostRate bufferSize : Nat}
variable {world : Nat → FileSystem} {t t' : Nat}

/-- The content of `path` has the digest, ignoring case. -/
def ContentDigest (S : StateEngine) (F : FileSystem) (path : Path) (expected : String) : Prop :=
  ∃ data, F.reading path = .bytes data ∧ eqIgnoreAsciiCase (S.sha256 data) expected = true

/-- A check that accepts a path has just read the saved digest there. -/
def Accepts (S : StateEngine) (loaded : ProcessingParams) (world : Nat → FileSystem) (path : Path)
    (t : Nat) : Prop :=
  ∃ expected t₁, loaded.modelHash = some expected ∧ t = t₁ + 1 ∧
    ContentDigest S (world t₁) path expected

theorem searchModel_eq (name expected : String) (dirs : List Path) :
    searchModel S name expected hostRate bufferSize dirs =
      searchCandidate S name expected dirs >>= fun c =>
        (buildModelResources S c hostRate bufferSize).mapError .diagnostic := by
  induction dirs with
  | nil => rfl
  | cons dir dirs ih =>
    simp only [searchModel, searchCandidate, bind_assoc]
    refine congrArg _ (funext fun o => ?_)
    cases o with
    | none => exact ih
    | some candidate =>
      simp only [bind_assoc]
      refine congrArg _ (funext fun r => ?_)
      cases r with
      | error e => exact ih
      | ok actual =>
        by_cases heq : eqIgnoreAsciiCase actual expected = true
        · simp only [heq, if_true]
          rfl
        · simp only [heq]
          exact ih

/-- What becomes of a check: the path it accepts is built. -/
def buildLocated (S : StateEngine) (hostRate bufferSize : Nat) :
    Option Path → Probe FileSystem PluginError (Option ModelResources)
  | none => pure none
  | some path => do
    let resources ← (buildModelResources S path hostRate bufferSize).mapError .diagnostic
    pure (some resources)

theorem validateModelFromBasename_eq :
    validateModelFromBasename S env loaded hostRate bufferSize =
      locateFromBasename S env loaded >>= buildLocated S hostRate bufferSize := by
  unfold validateModelFromBasename locateFromBasename
  cases loaded.modelBasename with
  | none => rfl
  | some rawBasename =>
    cases hclean : sanitizeBasename rawBasename with
    | none => simp only [hclean]; rfl
    | some cleanBasename =>
      cases loaded.modelHash with
      | none => simp only [hclean]; rfl
      | some expectedHash =>
        simp only [hclean, searchModel_eq]
        split
        · rfl
        · simp only [bind_assoc, pure_bind]
          rfl

theorem validateModelFull_eq :
    validateModelFull S env loaded hostRate bufferSize =
      locateFull S env loaded >>= buildLocated S hostRate bufferSize := by
  unfold validateModelFull locateFull
  cases loaded.modelPath with
  | none => exact validateModelFromBasename_eq
  | some path =>
    simp only [bind_assoc]
    refine congrArg _ (funext fun hashValid => ?_)
    cases hashValid with
    | true => rfl
    | false =>
      simp only [Bool.false_eq_true, if_false]
      split
      · exact validateModelFromBasename_eq
      · rfl

/-! ## What the check read -/

theorem searchCandidate_accepts {name expected : String} {dirs : List Path} {c : Path}
    (h : (searchCandidate S name expected dirs).run world t = (.ok c, t')) :
    ∃ t₁, t' = t₁ + 1 ∧ ContentDigest S (world t₁) c expected := by
  induction dirs generalizing t with
  | nil => cases (Probe.run_fail_ok.1 h)
  | cons dir dirs ih =>
    obtain ⟨o, t₁, ho, h⟩ := Probe.run_bind_ok.1 h
    cases o with
    | none => exact ih h
    | some candidate =>
      obtain ⟨r, t₂, hr, h⟩ := Probe.run_bind_ok.1 h
      cases r with
      | error e => exact ih h
      | ok actual =>
        by_cases heq : eqIgnoreAsciiCase actual expected = true
        · simp only [heq, if_true] at h
          obtain ⟨rfl, rfl⟩ := Probe.run_pure_ok.1 h
          obtain ⟨-, ⟨data, hcontent, rfl⟩, rfl⟩ :=
            computeFileHash_run.1 (Probe.run_attempt_ok.1 hr)
          exact ⟨t₁ + 1, rfl, data, hcontent.1, heq⟩
        · simp only [heq] at h
          exact ih h

/-- The check accepts a path whose content it has just found to have the saved digest. -/
theorem locateFromBasename_accepts {path : Path}
    (h : (locateFromBasename S env loaded).run world t = (.ok (some path), t')) :
    Accepts S loaded world path t' := by
  unfold locateFromBasename at h
  split at h
  · cases h
  split at h
  · cases (Probe.run_fail_ok.1 h)
  split at h
  · cases (Probe.run_fail_ok.1 h)
  rename_i expected hdigest
  split at h
  · cases (Probe.run_fail_ok.1 h)
  obtain ⟨canonical, t₁, -, h⟩ := Probe.run_bind_ok.1 h
  obtain ⟨c, t₂, hc, h⟩ := Probe.run_bind_ok.1 h
  obtain ⟨hpath, rfl⟩ := Probe.run_pure_ok.1 h
  obtain ⟨t₃, rfl, hcontent⟩ := searchCandidate_accepts hc
  exact ⟨expected, t₃, hdigest, rfl, Option.some.inj hpath ▸ hcontent⟩

theorem modelHashValid_accepts {path : Path}
    (h : (modelHashValid S loaded path).run world t = (.ok true, t')) :
    Accepts S loaded world path t' := by
  obtain ⟨found, t₁, hfound, h⟩ := Probe.run_bind_ok.1 h
  obtain ⟨-, rfl⟩ := Probe.run_ask_ok.1 hfound
  split at h
  swap
  · cases h
  split at h
  · cases h
  rename_i expected hdigest
  split at h
  · obtain ⟨r, t₁, hr, h⟩ := Probe.run_bind_ok.1 h
    cases r with
    | error e => cases h
    | ok actual =>
      obtain ⟨heq, rfl⟩ := Probe.run_pure_ok.1 h
      obtain ⟨-, ⟨data, hcontent, rfl⟩, rfl⟩ := computeFileHash_run.1 (Probe.run_attempt_ok.1 hr)
      exact ⟨expected, t + 2, hdigest, rfl, data, hcontent.1, heq⟩
  · cases h

theorem locateModel_accepts {mode : RestoreMode} {path : Path}
    (h : (locateModel S env loaded mode).run world t = (.ok (some path), t')) :
    Accepts S loaded world path t' := by
  cases mode with
  | forPreset => exact locateFromBasename_accepts h
  | full =>
    change (locateFull S env loaded).run world t = _ at h
    unfold locateFull at h
    split at h
    · exact locateFromBasename_accepts h
    obtain ⟨hashValid, t₂, hvalid, h⟩ := Probe.run_bind_ok.1 h
    cases hashValid with
    | false =>
      simp only [Bool.false_eq_true, if_false] at h
      split at h
      · exact locateFromBasename_accepts h
      · cases (Probe.run_fail_ok.1 h)
    | true =>
      obtain ⟨hpath, rfl⟩ := Probe.run_pure_ok.1 h
      obtain rfl := Option.some.inj hpath
      exact modelHashValid_accepts hvalid

/-! ## Impulse responses -/

/-- What becomes of a staged impulse response: it is decoded from the temporary file. -/
def decodeStaged (S : StateEngine) (hostRate bufferSize : Nat) (irPath : Path)
    (staged : Path × String) : Probe FileSystem PluginError (IrResources × String) := do
  let partitionSize := if 0 < bufferSize then bufferSize else 256
  let builtFrom ← (cabSimIrLoad S staged.1 hostRate).mapError fun e => .diagnostic
    (.caused .irLoadFailed s!"Failed to load cab-sim IR: {S.quote irPath}" e)
  .done (buildAdapter S false builtFrom partitionSize)
  .done (buildAdapter S true builtFrom partitionSize)
  pure (⟨builtFrom⟩, staged.2)

theorem validateIrAt_eq (irPath : Path) :
    validateIrAt S env loaded hostRate bufferSize irPath =
      stageIrAt S env loaded irPath >>= decodeStaged S hostRate bufferSize irPath := by
  unfold validateIrAt stageIrAt
  simp only [bind_assoc]
  refine congrArg _ (funext fun found => ?_)
  cases found with
  | false => rfl
  | true =>
    simp only [if_true]
    cases loaded.irHash with
    | none => rfl
    | some expectedHash =>
      simp only
      split
      · rfl
      simp only [bind_assoc]
      refine congrArg _ (funext fun irBytes => ?_)
      split
      · rfl
      simp only [buildIrResourcesFromBytes, loadCabsimFromVerifiedBytes, decodeStaged, bind_assoc,
        pure_bind]

theorem decodeStaged_ok {irPath : Path} {staged : Path × String} {r : IrResources}
    {digest : String}
    (h : (decodeStaged S hostRate bufferSize irPath staged).run world t = (.ok (r, digest), t')) :
    (world t).reading staged.1 = .bytes r.builtFrom ∧ digest = staged.2 := by
  obtain ⟨builtFrom, t₁, hload, h⟩ := Probe.run_bind_ok.1 h
  obtain ⟨-, t₂, -, h⟩ := Probe.run_bind_ok.1 h
  obtain ⟨-, t₃, -, h⟩ := Probe.run_bind_ok.1 h
  obtain ⟨hr, -⟩ := Probe.run_pure_ok.1 h
  obtain ⟨rfl, rfl⟩ := Prod.mk.inj hr
  obtain ⟨hread, -⟩ := Probe.run_ask_ok.1 (Probe.run_mapError_ok.1 hload)
  refine ⟨?_, rfl⟩
  split at hread
  · cases hread
  · cases hread
  · rename_i b hb
    obtain ⟨-, -, rfl⟩ := Probe.map_ok.1 hread
    exact hb

theorem stageIrAt_accepts {irPath tmpPath : Path} {digest : String}
    (h : (stageIrAt S env loaded irPath).run world t = (.ok (tmpPath, digest), t')) :
    ∃ expected, loaded.irHash = some expected ∧ eqIgnoreAsciiCase digest expected = true := by
  obtain ⟨found, t₁, -, h⟩ := Probe.run_bind_ok.1 h
  cases found with
  | false => cases h
  | true =>
    simp only [if_true] at h
    split at h
    · cases h
    rename_i expected hexpected
    split at h
    · cases h
    obtain ⟨irBytes, t₂, -, h⟩ := Probe.run_bind_ok.1 h
    split at h
    · cases h
    rename_i heq
    obtain ⟨tmp, t₃, -, h⟩ := Probe.run_bind_ok.1 h
    obtain ⟨hstaged, -⟩ := Probe.run_pure_ok.1 h
    obtain ⟨-, rfl⟩ := Prod.mk.inj hstaged
    exact ⟨expected, hexpected, by simpa using heq⟩

/-- No impulse response is named, or the one that is adopted has the saved digest and was decoded
from what the temporary file held once it was staged. -/
theorem validateIr_cases {v : IrValidation loaded}
    (h : (validateIr S env loaded hostRate bufferSize).run world t = (.ok v, t')) :
    (v.ir = none ∧ (stageIr S env loaded).run world t = (.ok none, t)) ∨
      ∃ asset r tmpPath t₁ expected, v.ir = some (asset, r) ∧
        (stageIr S env loaded).run world t = (.ok (some tmpPath), t₁) ∧
          (world t₁).reading tmpPath = .bytes r.builtFrom ∧ loaded.irHash = some expected ∧
            eqIgnoreAsciiCase asset.hash expected = true := by
  unfold validateIr at h
  split at h
  · rename_i hpath
    obtain ⟨rfl, -⟩ := Probe.run_pure_ok.1 h
    refine .inl ⟨rfl, ?_⟩
    simp only [stageIr, hpath]
    rfl
  rename_i irPath hpath
  obtain ⟨⟨resources, actualHash⟩, t₁, hat, h⟩ := Probe.run_bind_ok.1 h
  obtain ⟨rfl, -⟩ := Probe.run_pure_ok.1 h
  rw [validateIrAt_eq] at hat
  obtain ⟨⟨tmpPath, digest⟩, t₂, hstage, hdecode⟩ := Probe.run_bind_ok.1 hat
  obtain ⟨hread, rfl⟩ := decodeStaged_ok hdecode
  obtain ⟨expected, hexpected, heq⟩ := stageIrAt_accepts hstage
  refine .inr ⟨_, _, tmpPath, t₂, expected, rfl, ?_, hread, hexpected, heq⟩
  simp only [stageIr, hpath]
  exact Probe.run_bind_ok.2 ⟨_, t₂, hstage, rfl⟩

/-! ## The restore -/

theorem validateModel_eq (mode : RestoreMode) :
    validateModel S env loaded hostRate bufferSize mode =
      locateModel S env loaded mode >>= buildLocated S hostRate bufferSize := by
  cases mode with
  | full => exact validateModelFull_eq
  | forPreset => exact validateModelFromBasename_eq

/-- No model is named, or the one that is adopted was built from the path the check accepted. -/
theorem validateModel_cases {mode : RestoreMode} {r : Option ModelResources}
    (h : (validateModel S env loaded hostRate bufferSize mode).run world t = (.ok r, t')) :
    (r = none ∧ (locateModel S env loaded mode).run world t = (.ok none, t')) ∨
      ∃ m path t₀ hashed, r = some m ∧
        (locateModel S env loaded mode).run world t = (.ok (some path), t₀) ∧
          BuildLooks world path t₀ hashed m.builtFrom ∧
            m.file.asset = ⟨path, S.sha256 hashed⟩ := by
  rw [validateModel_eq] at h
  obtain ⟨located, t₀, hlocate, h⟩ := Probe.run_bind_ok.1 h
  cases located with
  | none =>
    obtain ⟨rfl, rfl⟩ := Probe.run_pure_ok.1 h
    exact .inl ⟨rfl, hlocate⟩
  | some path =>
    obtain ⟨m, t₁, hbuild, h⟩ := Probe.run_bind_ok.1 h
    obtain ⟨rfl, -⟩ := Probe.run_pure_ok.1 h
    obtain ⟨hashed, hlooks, hasset, -⟩ := buildModelResources_ok (Probe.run_mapError_ok.1 hbuild)
    exact .inr ⟨m, path, t₀, hashed, rfl, hlocate, hlooks, hasset⟩

/-- A restore that succeeds: the state parsed, its assets passed validation and were committed. -/
theorem restore_ok {E : Engine} {s s' : Shared} {buffer : ByteArray} {mode : RestoreMode}
    {faults : EngineCall → Bool} {a : Restored}
    (h : (s.restoreStateTransactional S env E buffer mode faults).run world t =
      (.ok (s', .ok a), t')) :
    loadState S buffer = .ok a.params ∧ s' = s.commitRestore E a.assets.restore mode faults ∧
      (validateAndBuild S env a.params s.hostRate s.bufferSize mode).run world t =
        (.ok a.assets, t') := by
  unfold Shared.restoreStateTransactional at h
  split at h
  · cases h
  split at h
  · cases h
  rename_i loaded hload
  obtain ⟨r, t₁, hr, h⟩ := Probe.run_bind_ok.1 h
  cases r with
  | error e => cases h
  | ok validated =>
    simp only at h
    split at h
    · cases h
    rename_i s₁ hcommit
    cases h
    exact ⟨hload, (congrArg Prod.fst hcommit).symm, Probe.run_attempt_ok.1 hr⟩

theorem validateAndBuild_ok {mode : RestoreMode} {a : ValidatedAssets loaded}
    (h : (validateAndBuild S env loaded hostRate bufferSize mode).run world t = (.ok a, t')) :
    ∃ t₁, (validateModel S env loaded hostRate bufferSize mode).run world t = (.ok a.model, t₁) ∧
      (validateIr S env loaded hostRate bufferSize).run world t₁ = (.ok a.toIrValidation, t') := by
  obtain ⟨m, t₁, hm, h⟩ := Probe.run_bind_ok.1 h
  obtain ⟨v, t₂, hv, h⟩ := Probe.run_bind_ok.1 h
  obtain ⟨rfl, rfl⟩ := Probe.run_pure_ok.1 h
  exact ⟨t₁, hm, hv⟩

/-! ## What is adopted -/

/-- What is adopted is what was saved: the digest it is recorded under and that of the bytes it was
built from are the saved ones, ignoring case. -/
structure Verified (S : StateEngine) (a : Restored) : Prop where
  model : ∀ m, a.assets.model = some m → ∃ expected, a.params.modelHash = some expected ∧
    eqIgnoreAsciiCase m.file.asset.hash expected = true ∧
      eqIgnoreAsciiCase (S.sha256 m.builtFrom) expected = true
  ir : ∀ asset r, a.assets.ir = some (asset, r) → ∃ expected, a.params.irHash = some expected ∧
    eqIgnoreAsciiCase asset.hash expected = true ∧
      eqIgnoreAsciiCase (S.sha256 r.builtFrom) expected = true

/-- The files stay what the checks accepted: the path of the model still has the saved digest at
the two reads of the build, which come two and three looks later, and the temporary file of the
impulse response has it when it is decoded. -/
structure Kept (S : StateEngine) (env : HostEnv) (loaded : ProcessingParams)
    (hostRate bufferSize : Nat) (mode : RestoreMode) (world : Nat → FileSystem) (t : Nat) :
    Prop where
  model : ∀ path t₀ expected,
    (locateModel S env loaded mode).run world t = (.ok (some path), t₀) →
      loaded.modelHash = some expected →
        ContentDigest S (world (t₀ + 2)) path expected ∧
          ContentDigest S (world (t₀ + 3)) path expected
  ir : ∀ m t₁ tmpPath t₂ expected,
    (validateModel S env loaded hostRate bufferSize mode).run world t = (.ok m, t₁) →
      (stageIr S env loaded).run world t₁ = (.ok (some tmpPath), t₂) →
        loaded.irHash = some expected → ContentDigest S (world t₂) tmpPath expected

/-- A model file that nobody replaces from its check to its last read keeps the digest. -/
theorem contentDigest_of_unchanged {mode : RestoreMode} {path : Path} {t₀ : Nat}
    {expected : String}
    (h : (locateModel S env loaded mode).run world t = (.ok (some path), t₀))
    (hsame : ∀ i, t₀ ≤ i + 1 → i ≤ t₀ + 2 →
      (world (i + 1)).reading path = (world i).reading path)
    (hexpected : loaded.modelHash = some expected) :
    ContentDigest S (world (t₀ + 2)) path expected ∧
      ContentDigest S (world (t₀ + 3)) path expected := by
  obtain ⟨expected', t₁, hexpected', rfl, data, hread, heq⟩ := locateModel_accepts h
  obtain rfl := Option.some.inj (hexpected'.symm.trans hexpected)
  have hfixed : ∀ n, n ≤ 4 → (world (t₁ + n)).reading path = .bytes data := by
    intro n
    induction n with
    | zero => exact fun _ => hread
    | succ n ih =>
      intro hn
      exact (hsame (t₁ + n) (by omega) (by omega)).trans (ih (by omega))
  exact ⟨⟨data, hfixed 3 (by decide), heq⟩, data, hfixed 4 (by decide), heq⟩

/-- **Only what the check accepted is adopted, where it is still there**: a restore that succeeds
commits what it validated, and that is verified exactly where the files stay what the checks
accepted. -/
theorem adopted_verified_iff {E : Engine} {s s' : Shared} {buffer : ByteArray} {mode : RestoreMode}
    {faults : EngineCall → Bool} {a : Restored}
    (h : (s.restoreStateTransactional S env E buffer mode faults).run world t =
      (.ok (s', .ok a), t')) :
    s' = s.commitRestore E a.assets.restore mode faults ∧
      (Verified S a ↔ Kept S env a.params s.hostRate s.bufferSize mode world t) := by
  obtain ⟨-, hs', hvalid⟩ := restore_ok h
  obtain ⟨t₁, hmodel, hir⟩ := validateAndBuild_ok hvalid
  refine ⟨hs', fun hv => ⟨?_, ?_⟩, fun hk => ⟨?_, ?_⟩⟩
  · intro path t₀ expected hlocate hexpected
    rcases validateModel_cases hmodel with ⟨-, hnone⟩ | ⟨m, path', t₂, hashed, hm, hlocate', hlooks,
      hasset⟩
    · rw [hnone] at hlocate
      cases hlocate
    rw [hlocate'] at hlocate
    cases hlocate
    obtain ⟨expected', hexpected', hrecorded, hbuilt⟩ := hv.model m hm
    obtain rfl := Option.some.inj (hexpected'.symm.trans hexpected)
    rw [hasset] at hrecorded
    exact ⟨⟨hashed, hlooks.hashed.1, hrecorded⟩, m.builtFrom, hlooks.loaded, hbuilt⟩
  · intro m t₂ tmpPath t₃ expected hmodel' hstage hexpected
    rw [hmodel] at hmodel'
    cases hmodel'
    rcases validateIr_cases hir with ⟨-, hnone⟩ | ⟨asset, r, tmpPath', t₄, expected', hv', hstage',
      hread, -, -⟩
    · rw [hnone] at hstage
      cases hstage
    rw [hstage'] at hstage
    cases hstage
    obtain ⟨expected'', hexpected'', -, hbuilt⟩ := hv.ir asset r hv'
    obtain rfl := Option.some.inj (hexpected''.symm.trans hexpected)
    exact ⟨r.builtFrom, hread, hbuilt⟩
  · intro m hm
    rcases validateModel_cases hmodel with ⟨hnone, -⟩ | ⟨m', path, t₀, hashed, hm', hlocate, hlooks,
      hasset⟩
    · rw [hm] at hnone
      cases hnone
    obtain rfl := Option.some.inj (hm.symm.trans hm')
    obtain ⟨expected, -, hexpected, -, -⟩ := locateModel_accepts hlocate
    obtain ⟨⟨data, hread, hrecorded⟩, data', hread', hbuilt⟩ :=
      hk.model path t₀ expected hlocate hexpected
    obtain rfl := Reading.bytes.inj (hread.symm.trans hlooks.hashed.1)
    obtain rfl := Reading.bytes.inj (hread'.symm.trans hlooks.loaded)
    rw [hasset]
    exact ⟨expected, hexpected, hrecorded, hbuilt⟩
  · intro asset r hv
    rcases validateIr_cases hir with ⟨hnone, -⟩ | ⟨asset', r', tmpPath, t₂, expected, hv', hstage,
      hread, hexpected, hrecorded⟩
    · rw [hv] at hnone
      cases hnone
    obtain ⟨rfl, rfl⟩ := Prod.mk.inj (Option.some.inj (hv.symm.trans hv'))
    obtain ⟨data, hread', hbuilt⟩ := hk.ir _ t₁ tmpPath t₂ expected hmodel hstage hexpected
    obtain rfl := Reading.bytes.inj (hread'.symm.trans hread)
    exact ⟨expected, hexpected, hrecorded, hbuilt⟩

/-! ## A file that is replaced -/

def refModelText (weight : String) : String :=
  "\x7b\"version\":\"0.5.4\",\"architecture\":\"Linear\",\"config\":" ++
    "\x7b\"receptive_field\":1,\"bias\":false\x7d,\"weights\":[" ++ weight ++ "]\x7d"

/-- The saved model. -/
def refModelBytes : ByteArray := (refModelText "1.0").toUTF8

/-- Another one of the same size. -/
def otherModelBytes : ByteArray := (refModelText "2.0").toUTF8

def refDigest : String := "ee6cf7c49a380edba3f2782a32345f8959f22dd91187bd15dae3b0b1244a5a29"

def otherDigest : String := "4d51b4e85dee0dd70f37d4fedd8fa17a0ef4c571dbdd0434b59b17db9434351e"

def refModelPath : Path := ⟨true, ["amp.nam"]⟩

/-- The state as it is written, every field of it. -/
def refStateText : String :=
  "\x7b\"version\":1,\"params\":\x7b\"input_gain_db\":0.0,\"output_gain_db\":0.0," ++
    "\"gate_threshold_db\":-90.0,\"model_path\":\"/amp.nam\",\"model_basename\":\"amp.nam\"," ++
    "\"model_search_paths\":[\"/\"],\"model_hash\":\"" ++ refDigest ++ "\"," ++
    "\"ir_path\":null,\"ir_hash\":null,\"bypass\":false,\"adaptive_compute\":\"Conservative\"," ++
    "\"slim_override\":\"Auto\",\"oversample\":\"Off\",\"activation_precision\":\"Standard\"\x7d\x7d"

def refLoaded : ProcessingParams :=
  { ProcessingParams.initial refParamEngine with
    modelPath := some refModelPath
    modelBasename := some "amp.nam"
    modelSearchPaths := [⟨true, []⟩]
    modelHash := some refDigest }

/-- The digests of the two models, and the state that names the first. -/
def refStateEngine : StateEngine where
  sha256 b := if b = refModelBytes then refDigest else if b = otherModelBytes then otherDigest else ""
  envelope b := if b = refStateText.toUTF8 then some ⟨1, refLoaded⟩ else none
  hasVersion _ := false
  legacyParams _ := .error "expected value at line 1 column 1"
  buildModel _ := .ok ⟨48000, true, false, none⟩
  setMaxBufferSizeL _ _ := .ok ()
  setMaxBufferSizeR _ _ := .ok ()
  resampler _ _ := .ok ()
  streamAdapter _ _ _ := .ok ()
  cabSimIr _ _ := .ok ()
  convEngine _ _ _ := .ok ()
  cabSimAdapter _ _ _ := .ok ()
  quote p := "/" ++ String.intercalate "/" p.names

def refEnv : HostEnv := ⟨none, ⟨true, ["tmp"]⟩, 1, 0, 1⟩

/-- A file system with one file, of the size and the time of the saved model. -/
def refFileSystem (content : ByteArray) : FileSystem where
  metadata p :=
    if p = refModelPath then .ok ⟨true, false, 103, some 0⟩
    else .error "No such file or directory (os error 2)"
  reading p :=
    if p = refModelPath then .bytes content
    else .openError "No such file or directory (os error 2)"
  canonicalize p := if p = refModelPath then some p else none
  createNew _ := .failed "Permission denied (os error 13)"
  writeAll _ _ := .error "Bad file descriptor (os error 9)"

/-- The restore of the saved state before the first activation. -/
def refRestore : Probe FileSystem Empty (Shared × Except PluginError Restored) :=
  (Shared.init refParamEngine).restoreStateTransactional refStateEngine refEnv refEngine
    refStateText.toUTF8 .full noFaults

theorem refModelBytes_size : refModelBytes.size = 103 := by decide +kernel

theorem otherModelBytes_ne : otherModelBytes ≠ refModelBytes := by decide +kernel

theorem refStateEngine_sha256_ref : refStateEngine.sha256 refModelBytes = refDigest := by
  simp only [refStateEngine, if_true]

theorem refStateEngine_sha256_other : refStateEngine.sha256 otherModelBytes = otherDigest := by
  simp only [refStateEngine, otherModelBytes_ne, if_false, if_true]

theorem refStateEngine_envelope :
    refStateEngine.envelope refStateText.toUTF8 = some ⟨1, refLoaded⟩ := by
  simp only [refStateEngine, if_true]

theorem refDigest_valid : isValidSha256Hex refDigest = true := by decide +kernel

theorem refDigest_refl : eqIgnoreAsciiCase refDigest refDigest = true := beq_self_eq_true _

theorem otherDigest_ne : eqIgnoreAsciiCase otherDigest refDigest = false := by decide +kernel

/-- The model of the reference state, of two contents. -/
def refBuilt (hashed builtFrom : ByteArray) : ModelResources :=
  ⟨⟨⟨refModelPath, refStateEngine.sha256 hashed⟩, 48000, false, none⟩, builtFrom⟩

def refAssets (hashed builtFrom : ByteArray) : ValidatedAssets refLoaded :=
  { ir := none, path := rfl, model := some (refBuilt hashed builtFrom) }

/-- The engine sizes the model to any block. -/
theorem refStateEngine_sizes (bufferSize : Nat) (hashed builtFrom : ByteArray) :
    sizeModelResources refStateEngine refModelPath 48000 bufferSize (refStateEngine.sha256 hashed)
      builtFrom ⟨48000, true, false, none⟩ = .ok (refBuilt hashed builtFrom) := by
  by_cases hb : bufferSize = 0
  · subst hb
    rfl
  · simp only [sizeModelResources, resizeForHost, hb]
    rfl

/-- The restore of the saved state into a host at 48 kHz reads the file at the times 2, 5 and 6. -/
theorem refRestore_into {s : Shared} (hrate : s.hostRate = 48000) {content : Nat → ByteArray}
    (h2 : content 2 = refModelBytes) (h5 : (content 5).size ≤ MAX_FILE_HASH_SIZE) :
    (s.restoreStateTransactional refStateEngine refEnv refEngine refStateText.toUTF8 .full
      noFaults).run (fun t => refFileSystem (content t)) 0 =
      (.ok (s.commitRestore refEngine (refAssets (content 5) (content 6)).restore .full noFaults,
        .ok ⟨refLoaded, refAssets (content 5) (content 6)⟩), 8) := by
  have hmeta : ∀ b, (refFileSystem b).metadata refModelPath = .ok ⟨true, false, 103, some 0⟩ := by
    simp [refFileSystem]
  have hread : ∀ b, (refFileSystem b).reading refModelPath = .bytes b := by simp [refFileSystem]
  have hbound : 103 ≤ MAX_FILE_HASH_SIZE := by decide +kernel
  have hsize : refModelBytes.size ≤ MAX_FILE_HASH_SIZE := by rwa [refModelBytes_size]
  have hfile : ∀ b, BoundedFile (refFileSystem b) refModelPath := fun b => ⟨_, hmeta b, rfl, hbound⟩
  have hhash : (computeFileHash refStateEngine.sha256 refModelPath).run
      (fun t => refFileSystem (content t)) 1 = (.ok refDigest, 3) :=
    computeFileHash_run.2 ⟨hfile _, ⟨content 2, ⟨hread _, by rw [h2]; exact hsize⟩, by
      rw [h2, refStateEngine_sha256_ref]⟩, rfl⟩
  have hcheck : (modelHashValid refStateEngine refLoaded refModelPath).run
      (fun t => refFileSystem (content t)) 0 = (.ok true, 3) := by
    refine Probe.run_bind_ok.2 ⟨true, 1, Probe.run_ask_ok.2 ⟨?_, rfl⟩, ?_⟩
    · rw [FileSystem.has, hmeta]
      rfl
    simp only [if_true, refLoaded, refDigest_valid]
    exact Probe.run_bind_ok.2 ⟨.ok refDigest, 3, Probe.run_attempt_ok.2 hhash,
      Probe.run_pure_ok.2 ⟨refDigest_refl, rfl⟩⟩
  have hbuild : (buildModelResources refStateEngine refModelPath 48000 s.bufferSize).run
      (fun t => refFileSystem (content t)) 3 = (.ok (refBuilt (content 5) (content 6)), 8) :=
    buildModelResources_run.2 ⟨content 5, content 6, ⟨48000, true, false, none⟩,
      ⟨⟨_, _, hmeta _, hmeta _, rfl, rfl⟩, hfile _, ⟨hread _, h5⟩, hread _⟩, rfl,
      refStateEngine_sizes _ _ _, rfl⟩
  have hmodel : (validateModel refStateEngine refEnv refLoaded 48000 s.bufferSize .full).run
      (fun t => refFileSystem (content t)) 0 =
        (.ok (some (refBuilt (content 5) (content 6))), 8) :=
    Probe.run_bind_ok.2 ⟨true, 3, hcheck,
      Probe.run_bind_ok.2 ⟨_, 8, Probe.run_mapError_ok.2 hbuild, rfl⟩⟩
  have hvalid : (validateAndBuild refStateEngine refEnv refLoaded s.hostRate s.bufferSize .full).run
      (fun t => refFileSystem (content t)) 0 = (.ok (refAssets (content 5) (content 6)), 8) := by
    rw [hrate]
    exact Probe.run_bind_ok.2 ⟨_, 8, hmodel, Probe.run_bind_ok.2 ⟨⟨none, rfl⟩, 8, rfl, rfl⟩⟩
  have hbuffer : refStateText.toUTF8.size ≠ 0 := by decide +kernel
  have hload : loadState refStateEngine refStateText.toUTF8 = .ok refLoaded := by
    rw [loadState, refStateEngine_envelope]
    rfl
  have hcommit : s.commit refEngine (refAssets (content 5) (content 6)).restore .full noFaults =
      (s.commitRestore refEngine (refAssets (content 5) (content 6)).restore .full noFaults,
        .ok ()) := Prod.ext rfl (if_neg fun h => Bool.false_ne_true h.2)
  unfold Shared.restoreStateTransactional
  rw [if_neg hbuffer, hload]
  refine Probe.run_bind_ok.2 ⟨.ok (refAssets (content 5) (content 6)), 8,
    Probe.run_attempt_ok.2 hvalid, ?_⟩
  simp only [hcommit]
  rfl

theorem refRestore_run {content : Nat → ByteArray} (h2 : content 2 = refModelBytes)
    (h5 : (content 5).size ≤ MAX_FILE_HASH_SIZE) :
    ∃ s', refRestore.run (fun t => refFileSystem (content t)) 0 =
      (.ok (s', .ok ⟨refLoaded, refAssets (content 5) (content 6)⟩), 8) :=
  ⟨_, refRestore_into rfl h2 h5⟩

theorem adopted_verified_ref :
    ∃ s' a, refRestore.run (fun _ => refFileSystem refModelBytes) 0 = (.ok (s', .ok a), 8) ∧
      a.assets.model.isSome = true ∧
      s' = (Shared.init refParamEngine).commitRestore refEngine a.assets.restore .full noFaults ∧
      (Verified refStateEngine a ↔
        Kept refStateEngine refEnv a.params (Shared.init refParamEngine).hostRate
          (Shared.init refParamEngine).bufferSize .full (fun _ => refFileSystem refModelBytes) 0) := by
  have hsize : refModelBytes.size ≤ MAX_FILE_HASH_SIZE := by decide +kernel
  obtain ⟨s', h⟩ := @refRestore_run (fun _ => refModelBytes) rfl hsize
  exact ⟨s', _, h, rfl, adopted_verified_iff h⟩

/-- The file is replaced after the check, by another model of the same size and time. -/
def replacedAfterCheck (t : Nat) : FileSystem :=
  refFileSystem (if t < 3 then refModelBytes else otherModelBytes)

/-- The other model is adopted, under its own digest. -/
theorem adopted_unverified :
    ∃ s' a m, refRestore.run replacedAfterCheck 0 = (.ok (s', .ok a), 8) ∧
      a.assets.model = some m ∧ a.params.modelHash = some refDigest ∧
      eqIgnoreAsciiCase m.file.asset.hash refDigest = false ∧
      eqIgnoreAsciiCase (refStateEngine.sha256 m.builtFrom) refDigest = false := by
  have hsize : otherModelBytes.size ≤ MAX_FILE_HASH_SIZE := by decide +kernel
  obtain ⟨s', h⟩ := @refRestore_run (fun t => if t < 3 then refModelBytes else otherModelBytes) rfl
    hsize
  have hother : eqIgnoreAsciiCase (refStateEngine.sha256 otherModelBytes) refDigest = false := by
    rw [refStateEngine_sha256_other]
    exact otherDigest_ne
  exact ⟨s', _, refBuilt otherModelBytes otherModelBytes, h, rfl, rfl, hother, hother⟩

end NamPlug
