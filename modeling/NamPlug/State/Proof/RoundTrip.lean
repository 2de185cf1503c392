import NamPlug.State.Proof.Identity
import NamPlug.State.Proof.Verified

/-!
# Save, load, save

`project_round_trip`: a project that is loaded where its files still are saves to the very bytes it
was loaded from. The parameters go out through the shared atomics and come back from them; the identity
of the assets goes through the validation, which finds each file under the path and the digest that
were saved.
-/

namespace NamPlug

open Machine Binary32

/-! ## Files that stay -/

/-- A regular file with content of the digest. -/
structure HasFile (S : StateEngine) (F : FileSystem) (path : Path) (digest : String) : Prop where
  file : BoundedFile F path
  content : ∃ data, BoundedContent F path data ∧ S.sha256 data = digest

theorem HasFile.digest {S : StateEngine} {F : FileSystem} {path : Path} {digest : String}
    (h : HasFile S F path digest) {data : ByteArray} (hr : F.reading path = .bytes data) :
    S.sha256 data = digest := by
  obtain ⟨data', hcontent, hsha⟩ := h.content
  obtain rfl := Text.Reading.bytes.inj (hr.symm.trans hcontent.1)
  exact hsha

/-- The model and the impulse response that the parameters name stay where they are. -/
structure Unmoved (S : StateEngine) (world : Nat → FileSystem) (p : ProcessingParams) : Prop where
  model : ∀ path digest, p.modelPath = some path → p.modelHash = some digest →
    ∀ t, HasFile S (world t) path digest
  ir : ∀ path digest, p.irPath = some path → p.irHash = some digest →
    ∀ t, HasFile S (world t) path digest

section
variable {S : StateEngine} {env : HostEnv} {p : ProcessingParams} {hostRate bufferSize : Nat}
variable {world : Nat → FileSystem} {t t' : Nat}

/-- The check of the saved path accepts it. -/
theorem modelHashValid_unmoved (h : Unmoved S world p) {path : Path} {digest : String}
    (hp : p.modelPath = some path) (hd : p.modelHash = some digest)
    (hv : isValidSha256Hex digest = true) :
    (modelHashValid S p path).run world t = (.ok true, t + 3) := by
  obtain ⟨m, hm, -⟩ := (h.model path digest hp hd t).file
  have hhash : (computeFileHash S.sha256 path).run world (t + 1) = (.ok digest, t + 3) :=
    computeFileHash_run.2 ⟨(h.model path digest hp hd (t + 1)).file,
      (h.model path digest hp hd (t + 2)).content, rfl⟩
  refine Probe.run_bind_ok.2 ⟨true, t + 1, Probe.run_ask_ok.2 ⟨?_, rfl⟩, ?_⟩
  · rw [FileSystem.has, hm]
    rfl
  simp only [if_true, hd, hv]
  exact Probe.run_bind_ok.2 ⟨.ok digest, t + 3, Probe.run_attempt_ok.2 hhash,
    Probe.run_pure_ok.2 ⟨beq_self_eq_true _, rfl⟩⟩

/-- The model that is validated is the one that was saved. -/
theorem validateModel_unmoved (h : Unmoved S world p) {a : Option Asset} (hn : p.namesModel a)
    (hv : ∀ m, a = some m → m.WellHashed) {r : Option ModelResources}
    (hr : (validateModel S env p hostRate bufferSize .full).run world t = (.ok r, t')) :
    r.map (·.file.asset) = a := by
  obtain ⟨hp, hb, hd, -⟩ := hn
  cases a with
  | none =>
    have hnone : validateModel S env p hostRate bufferSize .full = pure none := by
      simp only [validateModel, validateModelFull, hp, Option.map_none, validateModelFromBasename,
        hb, Option.bind_none]
    rw [hnone] at hr
    obtain ⟨rfl, -⟩ := Probe.run_pure_ok.1 hr
    rfl
  | some m =>
    have hlocate : (locateModel S env p .full).run world t = (.ok (some m.path), t + 3) := by
      show (locateFull S env p).run world t = _
      simp only [locateFull, hp, Option.map_some]
      refine Probe.run_bind_ok.2 ⟨true, t + 3, modelHashValid_unmoved h hp hd (hv m rfl), ?_⟩
      rfl
    obtain ⟨-, hl⟩ | ⟨m', path, t₀, hashed, rfl, hl, hlooks, hasset⟩ := validateModel_cases hr
    · rw [hlocate] at hl
      cases hl
    · rw [hlocate] at hl
      cases hl
      have hsha := (h.model m.path m.hash hp hd (t + 3 + 2)).digest hlooks.hashed.1
      rw [Option.map_some, hasset, hsha]

/-- The impulse response that is adopted has the digest of the file. -/
theorem validateIr_digest {v : IrValidation p}
    (h : (validateIr S env p hostRate bufferSize).run world t = (.ok v, t')) :
    ∀ asset r, v.ir = some (asset, r) →
      ∃ t₁ data, (world t₁).reading asset.path = .bytes data ∧ asset.hash = S.sha256 data := by
  unfold validateIr at h
  split at h
  · obtain ⟨rfl, -⟩ := Probe.run_pure_ok.1 h
    intro asset r hir
    cases hir
  rename_i irPath hpath
  obtain ⟨⟨resources, actualHash⟩, t₁, hat, h⟩ := Probe.run_bind_ok.1 h
  obtain ⟨rfl, -⟩ := Probe.run_pure_ok.1 h
  rintro asset r ⟨⟩
  obtain ⟨found, t₂, -, hat⟩ := Probe.run_bind_ok.1 hat
  cases found with
  | false => cases (Probe.run_fail_ok.1 hat)
  | true =>
    simp only [if_true] at hat
    split at hat
    · cases (Probe.run_fail_ok.1 hat)
    split at hat
    · cases (Probe.run_fail_ok.1 hat)
    obtain ⟨data, t₃, hdata, hat⟩ := Probe.run_bind_ok.1 hat
    obtain ⟨-, hcontent, -⟩ := readBounded_run.1 (Probe.run_mapError_ok.1 hdata)
    split at hat
    · cases (Probe.run_fail_ok.1 hat)
    obtain ⟨res, t₄, -, hat⟩ := Probe.run_bind_ok.1 hat
    cases (Probe.run_pure_ok.1 hat).1
    exact ⟨_, data, hcontent.1, rfl⟩

/-- The impulse response that is validated is the one that was saved. -/
theorem validateIr_unmoved (h : Unmoved S world p) {b : Option Asset} (hp : p.irPath = b.map Asset.path)
    (hd : p.irHash = b.map Asset.hash) {v : IrValidation p}
    (hr : (validateIr S env p hostRate bufferSize).run world t = (.ok v, t')) :
    v.ir.map (·.1) = b := by
  have hpath := v.path
  rw [hp] at hpath
  cases hv : v.ir with
  | none =>
    rw [hv] at hpath
    cases b with
    | none => rfl
    | some ir => cases hpath
  | some q =>
    obtain ⟨asset, r⟩ := q
    rw [hv] at hpath
    cases b with
    | none => cases hpath
    | some ir =>
      have hsame : asset.path = ir.path := Option.some.inj hpath
      obtain ⟨t₁, data, hread, hhash⟩ := validateIr_digest hr asset r hv
      rw [hsame] at hread
      have hdigest := (h.ir ir.path ir.hash hp hd t₁).digest hread
      obtain ⟨path, digest⟩ := asset
      obtain ⟨path', digest'⟩ := ir
      simp only at hsame hhash hdigest
      rw [Option.map_some, hsame, hhash, hdigest]

end

/-! ## What is published -/

/-- The eight parameters come back from the atomics as they went in. -/
theorem snapshot_storeParams (E : ParamEngine) (s : Shared) {u : UiToRt} {q : RtProcessingParams}
    (hu : s.ui = (u.storeParams q).bumpGeneration) : (s.snapshotParams E).params.rt = q := by
  obtain ⟨gi, go, gt, b, ac, so, os, ap⟩ := q
  simp only [Shared.snapshotParams, hu, UiToRt.storeParams, UiToRt.bumpGeneration,
    RtProcessingParams.mk.injEq, true_and]
  refine ⟨?_, ?_, ?_, ?_, ?_⟩
  · cases b <;> rfl
  · rw [show (BitVec.ofNat 32 ac.code).toNat = ac.code by cases ac <;> rfl]
    exact E.adaptive_code ac
  · rw [show (BitVec.ofNat 32 so.code).toNat = so.code by cases so <;> rfl]
    exact E.slim_code so
  · rw [show (BitVec.ofNat 32 os.code).toNat = os.code by cases os <;> rfl]
    exact E.oversample_code os
  · rw [show (BitVec.ofNat 32 ap.code).toNat = ap.code by cases ap <;> rfl]
    exact E.activation_code ap

/-- A publication of the identity that is there already. -/
theorem withModelIdentity_self {p : ProcessingParams} {a : Option Asset} (hn : p.namesModel a)
    {pub : RestorePublish} (h1 : pub.modelPathOnDisk = a.map Asset.path)
    (h2 : pub.modelBasename = a.bind (·.path.fileName)) (h3 : pub.modelHash = a.map Asset.hash)
    (h4 : pub.modelSearchPathToAdd = a.bind (·.path.parent)) : p.withModelIdentity pub = p := by
  obtain ⟨k1, k2, k3, k4⟩ := hn
  have hdirs : (p.withModelIdentity pub).modelSearchPaths = p.modelSearchPaths := by
    simp only [ProcessingParams.withModelIdentity, h4]
    split
    · rename_i d hd
      exact if_pos (k4 d hd)
    · rfl
  have hrest : p.withModelIdentity pub = { p with
      modelPath := pub.modelPathOnDisk
      modelBasename := pub.modelBasename
      modelHash := pub.modelHash
      modelSearchPaths := (p.withModelIdentity pub).modelSearchPaths } := rfl
  rw [hrest, hdirs, h1, h2, h3, ← k1, ← k2, ← k3]

/-- The restore carries what the parameters name. -/
structure Carries (v : ValidatedRestore) (p : ProcessingParams) : Prop where
  params : v.params = p
  model : ∃ a, p.namesModel a ∧ v.model.map ModelFile.asset = a
  ir : ∃ b : Option Asset, p.irPath = b.map Asset.path ∧ p.irHash = b.map Asset.hash ∧ v.ir = b

section
variable {v : ValidatedRestore} {p : ProcessingParams}

theorem Carries.identity (h : Carries v p) (s : Shared) :
    p.withModelIdentity (restorePublish s v .full) = p := by
  obtain ⟨a, hn, rfl⟩ := h.model
  refine withModelIdentity_self hn ?_ ?_ ?_ ?_
  · exact (Option.map_map ..).symm
  · cases hv : v.model <;> simp [restorePublish, hv]
  · exact (Option.map_map ..).symm
  · cases hv : v.model <;> simp [restorePublish, hv]

/-- What is left of a state whose parameter section was published is what the restore carries. -/
theorem Carries.snapshot (h : Carries v p) (E : ParamEngine) (s : Shared) {t : Shared}
    (hp : t.irPath = p.irPath) (hh : t.irHash = p.irHash) :
    ((t.publishParams (restorePublish s v .full)).snapshotParams E).params = p := by
  have hpub : (t.publishParams (restorePublish s v .full)).params = p := by
    have hi := h.identity s
    rw [← h.params] at hi ⊢
    exact hi
  have hrt : ((t.publishParams (restorePublish s v .full)).snapshotParams E).params.rt = p.rt :=
    snapshot_storeParams E _ (u := t.ui) (by rw [← hpub]; rfl)
  have hhash : (if t.irPath.isNone then none else t.irHash) = p.irHash := by
    obtain ⟨b, k1, k2, -⟩ := h.ir
    rw [hp, hh, k1, k2]
    cases b <;> rfl
  have hsnap : ((t.publishParams (restorePublish s v .full)).snapshotParams E).params =
      { (t.publishParams (restorePublish s v .full)).params with
        rt := ((t.publishParams (restorePublish s v .full)).snapshotParams E).params.rt
        irPath := t.irPath
        irHash := if t.irPath.isNone then none else t.irHash } := rfl
  rw [hsnap, hpub, hrt, hhash, hp]

/-- The publication of a restore leaves what it carries, whatever state it meets. -/
theorem Carries.published (h : Carries v p) (E : ParamEngine) (s u : Shared) :
    ((u.publishRestore (restorePublish s v .full)).snapshotParams E).params = p := by
  obtain ⟨b, k1, k2, hb⟩ := h.ir
  have hpub : ∃ t : Shared, u.publishRestore (restorePublish s v .full) =
      t.publishParams (restorePublish s v .full) ∧ t.irPath = p.irPath ∧ t.irHash = p.irHash := by
    unfold Shared.publishRestore
    cases b with
    | none => exact ⟨_, by simp only [restorePublish, hb]; rfl, k1.symm, k2.symm⟩
    | some ir => exact ⟨_, by simp only [restorePublish, hb]; rfl, k1.symm, k2.symm⟩
  obtain ⟨t, ht, hp, hh⟩ := hpub
  rw [ht]
  exact h.snapshot E s hp hh

/-- A restore before the first activation leaves what it carries. -/
theorem Carries.committed (h : Carries v p) (E : ParamEngine) (s : Shared) :
    ((s.localCommit v .full).snapshotParams E).params = p := by
  obtain ⟨b, k1, k2, hb⟩ := h.ir
  have hir : ((s.localModel v .full).localIr v .full).irPath = p.irPath ∧
      ((s.localModel v .full).localIr v .full).irHash = p.irHash := by
    unfold Shared.localIr
    rw [k1, k2, hb]
    cases b <;> exact ⟨rfl, rfl⟩
  exact h.snapshot E s hir.1 hir.2

end

/-! ## The round trip -/

section
variable {S : StateEngine} {env : HostEnv} {E : Engine} {world : Nat → FileSystem} {t t' : Nat}

theorem extract_of_small {b : ByteArray} {n : Nat} (h : (b.extract 0 (n + 1)).size ≤ n) :
    b.extract 0 (n + 1) = b := by
  rw [ByteArray.size_extract] at h
  have hsize : b.size ≤ n := by omega
  refine ByteArray.ext ?_
  rw [ByteArray.data_extract]
  exact Array.extract_eq_self_of_le (Nat.le_succ_of_le hsize)

/-- A load that succeeds restores all the bytes of its stream. -/
theorem load_ok {s s' : Shared} {bytes : ByteArray} {mode : RestoreMode}
    {faults : EngineCall → Bool} {a : Restored}
    (h : (s.load S env E (.ok bytes) mode faults).run world t = (.ok (s', .ok a), t')) :
    (s.restoreStateTransactional S env E bytes mode faults).run world t =
      (.ok (s', .ok a), t') := by
  unfold Shared.load at h
  dsimp only at h
  split at h
  · cases h
  · rename_i hsize
    rw [extract_of_small (Nat.not_lt.1 hsize)] at h
    obtain ⟨⟨u, result⟩, t₁, hr, h⟩ := Probe.run_bind_ok.1 h
    obtain ⟨hs, rfl⟩ := Probe.run_pure_ok.1 h
    obtain ⟨rfl, hres⟩ := Prod.mk.inj hs
    obtain rfl : result = .ok a := Probe.mapError_ok.1 hres
    exact hr

/-- The commit of a restore that succeeds, succeeds. -/
theorem restore_committed {s s' : Shared} {buffer : ByteArray} {mode : RestoreMode}
    {faults : EngineCall → Bool} {a : Restored}
    (h : (s.restoreStateTransactional S env E buffer mode faults).run world t =
      (.ok (s', .ok a), t')) : s.commit E a.assets.restore mode faults = (s', .ok ()) := by
  unfold Shared.restoreStateTransactional at h
  split at h
  · cases h
  split at h
  · cases h
  obtain ⟨r, t₁, -, h⟩ := Probe.run_bind_ok.1 h
  cases r with
  | error e => cases h
  | ok validated =>
    simp only at h
    split at h
    · cases h
    rename_i s₁ hcommit
    cases h
    exact hcommit

/-- A commit on an active plugin waits to be published. -/
theorem atomicCommit_waits {s u : Shared} {v : ValidatedRestore} {mode : RestoreMode}
    {faults : EngineCall → Bool} {publish : RestorePublish} {txn : RestoreTxn}
    (h : s.buildRestorePackage v mode faults = some (u, publish, txn)) :
    (∃ r, (s.atomicCommit E v mode faults).pendingRestore = some r ∧ r.publish = publish) ∨
      ∃ r, (s.atomicCommit E v mode faults).stagedRestore = some r ∧ r.publish = publish := by
  unfold Shared.atomicCommit
  rw [h]
  dsimp only
  rw [noteRestore_eq]
  dsimp only
  split_ifs
  · exact .inr ⟨_, rfl, rfl⟩
  · exact .inr ⟨_, rfl, rfl⟩
  · left
    unfold Shared.deliverPendingRestore
    split <;> exact ⟨_, rfl, rfl⟩

/-- Where a load is committed: before the first activation at once, and otherwise it waits with its
publication. -/
theorem commit_lands {s s' : Shared} {v : ValidatedRestore} {mode : RestoreMode}
    {faults : EngineCall → Bool} (h : s.commit E v mode faults = (s', .ok ())) :
    (s.bufferSize = 0 → s' = s.localCommit v mode) ∧
      (s.bufferSize ≠ 0 → (∃ r, s'.pendingRestore = some r ∧ r.publish = restorePublish s v mode) ∨
        ∃ r, s'.stagedRestore = some r ∧ r.publish = restorePublish s v mode) := by
  obtain ⟨hs, hok⟩ := Prod.mk.inj h
  subst hs
  refine ⟨fun hb => by rw [Shared.commitRestore, if_pos hb], fun hb => ?_⟩
  rw [Shared.commitRestore, if_neg hb]
  cases hp : s.buildRestorePackage v mode faults with
  | none =>
    rw [if_pos ⟨hb, by rw [hp]; rfl⟩] at hok
    cases hok
  | some r =>
    obtain ⟨u, publish, txn⟩ := r
    have hw := atomicCommit_waits (E := E) hp
    rwa [(buildRestorePackage_spec hp).publication] at hw

/-- The float parameters are numbers. -/
structure RtProcessingParams.Finite (p : RtProcessingParams) : Prop where
  inputGain : isFinite p.inputGainDb = true
  outputGain : isFinite p.outputGainDb = true
  gateThreshold : isFinite p.gateThresholdDb = true

/-- What is written of an envelope of numbers reads back; JSON has no other floats. -/
def StateWriter.ReadsBack (writer : StateWriter) (S : StateEngine) (e : StateEnvelope) : Prop :=
  e.params.rt.Finite → ∀ b, writer e = .ok b → S.envelope b = some e

/-- A project saved from any run, loaded from its bytes into any state while its files are where they
were, saves to the same bytes: at once before the first activation, and otherwise with the
publication it waits for, whatever that meets. -/
theorem project_round_trip {as : List Action} {x : Plugin}
    (hx : run (step E) (.init E.toParamEngine) as = some x) (ha : ∀ a ∈ as, a.WellHashed)
    (hfinite : (x.shared.snapshotParams E.toParamEngine).params.rt.Finite) {writer : StateWriter}
    (hwriter : writer.ReadsBack S
      ⟨CURRENT_STATE_VERSION, (x.shared.snapshotParams E.toParamEngine).params⟩) {bytes : ByteArray}
    (hsaved : savedBytes writer .full (x.shared.snapshotParams E.toParamEngine).params = .ok bytes)
    (hfiles : Unmoved S world (x.shared.snapshotParams E.toParamEngine).params)
    {s s' : Shared} {faults : EngineCall → Bool} {a : Restored}
    (hload : (s.load S env E (.ok bytes) .full faults).run world t = (.ok (s', .ok a), t')) :
    (s.bufferSize = 0 →
        savedBytes writer .full (s'.snapshotParams E.toParamEngine).params = .ok bytes) ∧
      (s.bufferSize ≠ 0 → ∃ pub, ((∃ r, s'.pendingRestore = some r ∧ r.publish = pub) ∨
          ∃ r, s'.stagedRestore = some r ∧ r.publish = pub) ∧
        ∀ u : Shared, savedBytes writer .full
          ((u.publishRestore pub).snapshotParams E.toParamEngine).params = .ok bytes) := by
  obtain ⟨hm, hi⟩ := (identified_run hx ha).snapshot E.toParamEngine
  generalize (x.shared.snapshotParams E.toParamEngine).params = p
    at hfinite hwriter hsaved hfiles hm hi ⊢
  -- the bytes are those of the envelope
  have hbytes : writer ⟨CURRENT_STATE_VERSION, p⟩ = .ok bytes := by
    obtain ⟨-, -, h⟩ := Probe.bind_ok.1 hsaved
    exact Probe.mapError_ok.1 h
  -- a load that succeeds read all of them
  have hrestore := load_ok hload
  have hcommit := restore_committed hrestore
  obtain ⟨hparams, -, hvalid⟩ := restore_ok hrestore
  have hp : a.params = p := by
    rw [loadState, hwriter hfinite bytes hbytes] at hparams
    exact (Except.ok.inj hparams).symm
  have hcarries : Carries a.assets.restore p := by
    obtain ⟨params, assets⟩ := a
    obtain rfl : params = p := hp
    obtain ⟨t₁, hmodel, hir⟩ := validateAndBuild_ok hvalid
    obtain ⟨b, hb, hv⟩ := hm
    obtain ⟨c, hc, hd, -⟩ := hi
    refine ⟨rfl, ⟨b, hb, ?_⟩, c, hc, hd, ?_⟩
    · have := validateModel_unmoved hfiles hb hv hmodel
      rw [← this]
      exact Option.map_map ..
    · exact validateIr_unmoved hfiles hc hd hir
  obtain ⟨hlocal, hwaits⟩ := commit_lands hcommit
  refine ⟨fun hb => ?_, fun hb => ⟨_, hwaits hb, fun u => ?_⟩⟩
  · rw [hlocal hb, hcarries.committed]
    exact hsaved
  · rw [hcarries.published]
    exact hsaved

end

/-! ## A project on fixed inputs -/

def refProjectFile : ModelFile := ⟨⟨refModelPath, refDigest⟩, 48000, false, none⟩

/-- The model of the reference state is loaded. -/
def refProject : List Action := [.main (.loadModel refProjectFile noFaults)]

/-- A writer that knows the reference state. -/
def refWriter : StateWriter := fun e =>
  if e = ⟨1, refLoaded⟩ then .ok refStateText.toUTF8 else .error "key must be a string"

theorem refProject_params :
    ((refRun refProject).shared.snapshotParams refEngine.toParamEngine).params = refLoaded := by
  decide +kernel

theorem refProject_saved : savedBytes refWriter .full refLoaded = .ok refStateText.toUTF8 := by
  have hguard : ensureAssetHashes refLoaded false = .ok () := by decide +kernel
  simp only [savedBytes, RestoreMode.savedParams, serializeEnvelope, refWriter,
    CURRENT_STATE_VERSION, if_true]
  rw [show decide (RestoreMode.full = .forPreset) = false from rfl, hguard]
  rfl

theorem refProject_unmoved :
    Unmoved refStateEngine (fun _ => refFileSystem refModelBytes) refLoaded where
  model path digest hp hd t := by
    obtain rfl := Option.some.inj hp
    obtain rfl := Option.some.inj hd
    have hbound : 103 ≤ MAX_FILE_HASH_SIZE := by decide +kernel
    refine ⟨⟨⟨true, false, 103, some 0⟩, by simp [refFileSystem], rfl, hbound⟩, refModelBytes,
      ⟨by simp [refFileSystem], by rwa [refModelBytes_size]⟩, refStateEngine_sha256_ref⟩
  ir path digest hp := by cases hp

/-- The load of the reference state into a host at 48 kHz. -/
theorem refProject_load {s : Shared} (hrate : s.hostRate = 48000) :
    (s.load refStateEngine refEnv refEngine (.ok refStateText.toUTF8) .full noFaults).run
        (fun _ => refFileSystem refModelBytes) 0 =
      (.ok (s.commitRestore refEngine (refAssets refModelBytes refModelBytes).restore .full noFaults,
        .ok ⟨refLoaded, refAssets refModelBytes refModelBytes⟩), 8) := by
  have hsize : refModelBytes.size ≤ MAX_FILE_HASH_SIZE := by decide +kernel
  have hbound : refStateText.toUTF8.size ≤ MAX_STATE_STREAM_SIZE := by decide +kernel
  have hsmall : (refStateText.toUTF8.extract 0 (MAX_STATE_STREAM_SIZE + 1)).size ≤
      MAX_STATE_STREAM_SIZE := by
    rw [ByteArray.size_extract]
    omega
  have hrun := @refRestore_into s hrate (fun _ => refModelBytes) rfl hsize
  unfold Shared.load
  dsimp only
  rw [if_neg (Nat.not_lt.2 hsmall), extract_of_small hsmall]
  exact Probe.run_bind_ok.2 ⟨_, 8, hrun, rfl⟩

/-- A new instance and an active one. -/
theorem project_round_trip_amp :
    (∃ s' a, ((Shared.init refParamEngine).load refStateEngine refEnv refEngine
        (.ok refStateText.toUTF8) .full noFaults).run (fun _ => refFileSystem refModelBytes) 0 =
          (.ok (s', .ok a), 8) ∧
      savedBytes refWriter .full (s'.snapshotParams refParamEngine).params =
        .ok refStateText.toUTF8) ∧
    ∃ s' a pub, ((refRun [refActivate]).shared.load refStateEngine refEnv refEngine
        (.ok refStateText.toUTF8) .full noFaults).run (fun _ => refFileSystem refModelBytes) 0 =
          (.ok (s', .ok a), 8) ∧
      ((∃ r, s'.pendingRestore = some r ∧ r.publish = pub) ∨
        ∃ r, s'.stagedRestore = some r ∧ r.publish = pub) ∧
      savedBytes refWriter .full ((s'.publishRestore pub).snapshotParams refParamEngine).params =
        .ok refStateText.toUTF8 := by
  have hhashed : ∀ a ∈ refProject, a.WellHashed := by
    simp only [refProject, List.forall_mem_cons]
    exact ⟨refDigest_valid, fun _ h => by cases h⟩
  have hfinite : refLoaded.rt.Finite := ⟨by decide +kernel, by decide +kernel, by decide +kernel⟩
  have hwriter : refWriter.ReadsBack refStateEngine ⟨CURRENT_STATE_VERSION, refLoaded⟩ := by
    intro _ b h
    rw [refWriter, CURRENT_STATE_VERSION, if_pos rfl] at h
    rw [← Except.ok.inj h, refStateEngine_envelope]
    rfl
  have hnew : (Shared.init refParamEngine).hostRate = 48000 := by decide +kernel
  have hactive : (refRun [refActivate]).shared.hostRate = 48000 := by decide +kernel
  refine ⟨⟨_, _, refProject_load hnew, ?_⟩, ?_⟩
  · exact (project_round_trip (run_refRun (by decide +kernel)) hhashed
      (by rw [refProject_params]; exact hfinite) (by rw [refProject_params]; exact hwriter)
      (by rw [refProject_params]; exact refProject_saved)
      (by rw [refProject_params]; exact refProject_unmoved) (refProject_load hnew)).1 rfl
  · obtain ⟨pub, hpub, hall⟩ := (project_round_trip (run_refRun (by decide +kernel)) hhashed
      (by rw [refProject_params]; exact hfinite) (by rw [refProject_params]; exact hwriter)
      (by rw [refProject_params]; exact refProject_saved)
      (by rw [refProject_params]; exact refProject_unmoved) (refProject_load hactive)).2
      (by decide +kernel)
    exact ⟨_, _, pub, refProject_load hactive, hpub, hall _⟩

end NamPlug
