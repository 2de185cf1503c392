import NamPlug.Receipt.Proof.Release
import NamPlug.Receipt.Verify

/-!
# What is certified and what can be verified

The check before an install asks of a certified receipt what the certification did not: a run id in
the build receipt and in the long audit, and the bundle that the build receipt declares
(`Verifiable`). A certified receipt passes the check exactly where they are there
(`certified_verifies_iff`); no other artifact passes it.
-/

namespace NamPlug.Receipt

open Text

@[simp] theorem problemWhen_eq_nil {c : Prop} [Decidable c] {text : String} :
    problemWhen c text = [] ↔ ¬ c := by
  unfold problemWhen
  split <;> simp_all

/-! ## What a certified receipt records -/

/-- What a certified receipt has of the files it is about. -/
structure Records (longReceiptPath : String) (ev : Evidence) (r : ReleaseReceipt) : Prop where
  status : r.status = "CERTIFIED"
  fails : r.fails = []
  gaps : r.gaps = []
  consistency : r.artifacts.artifactConsistency = "match"
  sha : r.artifacts.artifactSha256 = ev.sha
  flatpakPath : r.artifacts.flatpakPath = ev.build.artifacts.flatpakPath
  flatpakSha256 : r.artifacts.flatpakSha256 = ev.build.artifacts.flatpakSha256
  provenance : r.provenance = ev.build.provenance
  receiptPath : r.longAudit.receiptPath = longReceiptPath
  runId : r.longAudit.runId = lastRunId ev.entries none

/-- A receipt with another record of the PGO workload, of which a double need not come back from the
JSON to the last place. -/
def ReleaseReceipt.withWorkload (r : ReleaseReceipt) (workload : Option PgoWorkloadInfo) :
    ReleaseReceipt :=
  { r with pgoWorkload := workload }

theorem ReleaseReceipt.withWorkload_self (r : ReleaseReceipt) :
    r.withWorkload r.pgoWorkload = r := rfl

section
variable {codec : Codec} {disk : Disk}

/-- A certified receipt declares nothing against itself. -/
theorem certified_nil {now : Nat} {artifactPath buildReceiptPath longReceiptPath : String}
    {strictRequested : Bool} {expectedRunId : Option String}
    (h : (evaluateCertification codec disk now artifactPath buildReceiptPath longReceiptPath
      strictRequested expectedRunId).status = "CERTIFIED") :
    (evaluateCertification codec disk now artifactPath buildReceiptPath longReceiptPath
        strictRequested expectedRunId).fails = [] ∧
      (evaluateCertification codec disk now artifactPath buildReceiptPath longReceiptPath
        strictRequested expectedRunId).gaps = [] := by
  have hclean := (status_eq _).1 h
  exact ⟨sortedSet_eq_nil.2 hclean.1, sortedSet_eq_nil.2 hclean.2⟩

theorem readLongReceipt_consistency {longReceiptPath artifactPath content sha : String}
    {es : List Json} (expectedRunId : Option String)
    (hsha : hashFile codec disk artifactPath = .ok sha)
    (hfile : ((disk longReceiptPath).map FileNode.isFile).getD false = true)
    (hread : readToString disk longReceiptPath = .ok content)
    (hes : entriesOf codec (lines content) = some es) (hartifact : DeclaresArtifact sha es) :
    (readLongReceipt codec disk longReceiptPath artifactPath sha true expectedRunId).2 =
      "match" := by
  obtain ⟨node, hnode⟩ := exists_of_readToString hread
  have hentries := (readReceiptEntries_eq_ok hread).2 ⟨hes, hartifact.nonempty⟩
  have hmatched := verifyReceiptArtifact_matched.2 ⟨hfile, es, hentries, hartifact, hsha⟩
  unfold readLongReceipt
  simp only [hnode, hread, hmatched]
  rfl

theorem evaluateCertification_records (now : Nat)
    {artifactPath buildReceiptPath longReceiptPath : String} (strictRequested : Bool)
    {expectedRunId : Option String} {ev : Evidence}
    (hreads : Reads codec disk artifactPath buildReceiptPath longReceiptPath ev)
    (hacc : Accepted expectedRunId ev) :
    Records longReceiptPath ev (evaluateCertification codec disk now artifactPath buildReceiptPath
      longReceiptPath strictRequested expectedRunId) := by
  have hcert := (certified_iff now artifactPath buildReceiptPath longReceiptPath strictRequested
    expectedRunId).2 ⟨ev, hreads, hacc⟩
  obtain ⟨hfails, hgaps⟩ := certified_nil hcert
  obtain ⟨text, hread, hparse⟩ := hreads.build
  obtain ⟨content, hcontent, hes⟩ := hreads.entries
  have hbuild : readBuildReceipt codec disk buildReceiptPath ev.sha true expectedRunId =
      (checkBuildReceipt codec ev.build ev.sha true expectedRunId, some ev.build) :=
    readBuildReceipt_ok hread hparse
  obtain ⟨-, hrun⟩ := readLongReceipt_ok expectedRunId hreads.artifact hreads.isFile hcontent hes
  have hmatch := readLongReceipt_consistency expectedRunId hreads.artifact hreads.isFile hcontent
    hes hacc.entries.artifact
  constructor
  case status => exact hcert
  case fails => exact hfails
  case gaps => exact hgaps
  case receiptPath => rfl
  all_goals
    unfold evaluateCertification
    simp only [checkArtifact_ok hreads.artifact, hbuild, Option.getD_some, hmatch, hrun]
  exact hacc.build.sha

/-! ## The problems -/

theorem verdictProblems_eq_nil {r : ReleaseReceipt} :
    verdictProblems r = [] ↔
      r.status = "CERTIFIED" ∧ r.fails = [] ∧ r.gaps = [] ∧
        r.artifacts.artifactConsistency = "match" := by
  unfold verdictProblems
  simp only [List.append_eq_nil_iff, problemWhen_eq_nil, not_not, not_or, and_assoc]

theorem longAuditProblems_eq_nil {consistency : ArtifactConsistency} {actual : String} :
    longAuditProblems consistency actual = [] ↔ consistency = .matched actual := by
  unfold longAuditProblems
  cases consistency <;> simp

theorem runIdProblems_eq_nil {build long : Option String} :
    runIdProblems build long = [] ↔ ∃ rid, rid ≠ "" ∧ build = some rid ∧ long = some rid := by
  unfold runIdProblems
  rcases build with _ | b
  · simp
  rcases long with _ | l
  · simp
  simp only [problemWhen_eq_nil, not_or, not_not, String.isEmpty_iff, Option.some.injEq]
  constructor
  · rintro ⟨hne, rfl⟩
    exact ⟨b, hne, rfl, rfl⟩
  · rintro ⟨rid, hne, rfl, rfl⟩
    exact ⟨hne, rfl⟩

theorem flatpakProblems_eq_nil {path sha256 : Option String} :
    flatpakProblems codec disk path sha256 = [] ↔
      ∀ p sha, path = some p → sha256 = some sha → hashFile codec disk p = .ok sha := by
  unfold flatpakProblems
  rcases path with _ | p
  · simp
  rcases sha256 with _ | expected
  · simp
  cases hsha : hashFile codec disk p with
  | error e => simp [hsha]
  | ok sha => simp [hsha]

/-- A receipt is verified where nothing speaks against it and the artifact. -/
theorem verifyReleaseReceipt_eq_ok {codec : ReleaseCodec} {releasePath artifactPath sha : String}
    {r : ReleaseReceipt} (hr : readReleaseReceipt codec disk releasePath = .ok r) :
    verifyReleaseReceipt codec disk releasePath artifactPath = .ok sha ↔
      hashFile codec.toCodec disk artifactPath = .ok sha ∧
        releaseProblems codec.toCodec disk r artifactPath sha = [] := by
  unfold verifyReleaseReceipt
  rw [hr]
  cases hsha : hashFile codec.toCodec disk artifactPath with
  | error e => simp
  | ok actual =>
    simp only [Except.ok.injEq]
    constructor
    · intro h
      split at h
      · rename_i hnil
        obtain rfl := Except.ok.inj h
        exact ⟨rfl, hnil⟩
      · cases h
    · rintro ⟨rfl, hnil⟩
      rw [if_pos hnil]

/-- What is verified is the artifact the receipt is of. -/
theorem verified_sha {codec : ReleaseCodec} {releasePath artifactPath sha : String}
    {r : ReleaseReceipt} (hr : readReleaseReceipt codec disk releasePath = .ok r)
    (h : verifyReleaseReceipt codec disk releasePath artifactPath = .ok sha) :
    hashFile codec.toCodec disk artifactPath = .ok sha ∧ r.artifacts.artifactSha256 = sha := by
  obtain ⟨hsha, hnil⟩ := (verifyReleaseReceipt_eq_ok hr).1 h
  unfold releaseProblems artifactProblems at hnil
  simp only [List.append_eq_nil_iff, problemWhen_eq_nil, not_not] at hnil
  obtain ⟨⟨⟨⟨-, hartifact⟩, -⟩, -⟩, -⟩ := hnil
  exact ⟨hsha, hartifact.symm⟩

/-! ## Unchanged files -/

theorem hashFile_congr {disk' : Disk} {path : String} (h : disk' path = disk path) :
    hashFile codec disk' path = hashFile codec disk path := by
  unfold hashFile Disk.read
  rw [h]

theorem verifyReceiptArtifact_congr {disk' : Disk} {longReceiptPath artifactPath : String}
    (hlong : disk' longReceiptPath = disk longReceiptPath)
    (hartifact : disk' artifactPath = disk artifactPath) :
    verifyReceiptArtifact codec disk' longReceiptPath artifactPath =
      verifyReceiptArtifact codec disk longReceiptPath artifactPath := by
  have hread : disk'.read longReceiptPath = disk.read longReceiptPath := by
    unfold Disk.read
    rw [hlong]
  have hentries : readReceiptEntries codec disk' longReceiptPath =
      readReceiptEntries codec disk longReceiptPath := by
    unfold readReceiptEntries
    rw [hread]
  have hsha : sha256File codec disk' artifactPath = sha256File codec disk artifactPath := by
    unfold sha256File Disk.read
    rw [hartifact]
  unfold verifyReceiptArtifact
  rw [hlong, hentries, hsha]

/-! ## The run ids of the lines -/

theorem lastRunId_isSome {es : List Json} : ∀ (init : Option String),
    (lastRunId es init).isSome = true ↔
      init.isSome = true ∨ ∃ e ∈ es, (e.textField "run_id").isSome = true := by
  induction es with
  | nil =>
    intro init
    simp [lastRunId]
  | cons e es ih =>
    intro init
    have hstep : lastRunId (e :: es) init = lastRunId es ((e.textField "run_id").or init) := rfl
    rw [hstep, ih, Option.isSome_or, Bool.or_eq_true, List.exists_mem_cons_iff]
    tauto

/-! ## What the check asks beyond a certification -/

/-- The build receipt and some line of the long audit have a run id, and a bundle that the build
receipt declares has its hash. -/
structure Verifiable (codec : Codec) (disk : Disk) (ev : Evidence) : Prop where
  build : ∃ rid, rid ≠ "" ∧ ev.build.provenance.runId = some rid
  long : ∃ e ∈ ev.entries, (e.textField "run_id").isSome = true
  bundle : ∀ path sha, ev.build.artifacts.flatpakPath = some path →
    ev.build.artifacts.flatpakSha256 = some sha → hashFile codec disk path = .ok sha

/-- The run ids of receipts that pass the certification reconcile where both have one. -/
theorem runIds_iff {expectedRunId : Option String} {ev : Evidence}
    (hacc : Accepted expectedRunId ev) :
    (∃ rid, rid ≠ "" ∧ ev.build.provenance.runId = some rid ∧
        lastRunId ev.entries none = some rid) ↔
      (∃ rid, rid ≠ "" ∧ ev.build.provenance.runId = some rid) ∧
        ∃ e ∈ ev.entries, (e.textField "run_id").isSome = true := by
  have hlast : (lastRunId ev.entries none).isSome = true ↔
      ∃ e ∈ ev.entries, (e.textField "run_id").isSome = true := by
    rw [lastRunId_isSome]
    simp
  rw [← hlast]
  constructor
  · rintro ⟨rid, hne, hbuild, hrid⟩
    exact ⟨⟨rid, hne, hbuild⟩, by rw [hrid]; rfl⟩
  · rintro ⟨⟨rid, hne, hbuild⟩, hsome⟩
    obtain ⟨last, hrid⟩ := Option.isSome_iff_exists.1 hsome
    obtain rfl := hacc.cross rid last hbuild hrid hne
    exact ⟨rid, hne, hbuild, hrid⟩

theorem releaseProblems_certified {disk' : Disk} {longReceiptPath artifactPath : String}
    {expectedRunId : Option String} {ev : Evidence} {r : ReleaseReceipt}
    (hrec : Records longReceiptPath ev r) (hacc : Accepted expectedRunId ev)
    (hmatched : verifyReceiptArtifact codec disk' longReceiptPath artifactPath = .matched ev.sha) :
    releaseProblems codec disk' r artifactPath ev.sha = [] ↔ Verifiable codec disk' ev := by
  have hverdict : verdictProblems r = [] :=
    verdictProblems_eq_nil.2 ⟨hrec.status, hrec.fails, hrec.gaps, hrec.consistency⟩
  have hartifact : artifactProblems r ev.sha = [] := by
    unfold artifactProblems
    rw [problemWhen_eq_nil, not_not, hrec.sha]
  unfold releaseProblems
  rw [hverdict, hartifact, hrec.receiptPath, hmatched, longAuditProblems_eq_nil.2 rfl,
    hrec.provenance, hrec.runId, hrec.flatpakPath, hrec.flatpakSha256]
  simp only [List.nil_append, List.append_eq_nil_iff, runIdProblems_eq_nil, runIds_iff hacc,
    flatpakProblems_eq_nil]
  constructor
  · rintro ⟨⟨hbuild, hlong⟩, hbundle⟩
    exact ⟨hbuild, hlong, hbundle⟩
  · rintro ⟨hbuild, hlong, hbundle⟩
    exact ⟨⟨hbuild, hlong⟩, hbundle⟩

/-- A certified receipt, on the same files. -/
theorem certified_verifies {codec : ReleaseCodec} {disk disk' : Disk} {now : Nat}
    {artifactPath buildReceiptPath longReceiptPath releasePath : String} {strictRequested : Bool}
    {expectedRunId : Option String} {receipt : ReleaseReceipt} {workload : Option PgoWorkloadInfo}
    {ev : Evidence}
    (heq : evaluateCertification codec.toCodec disk now artifactPath buildReceiptPath
      longReceiptPath strictRequested expectedRunId = receipt)
    (hreads : Reads codec.toCodec disk artifactPath buildReceiptPath longReceiptPath ev)
    (hacc : Accepted expectedRunId ev)
    (hreceipt : readReleaseReceipt codec disk' releasePath =
      .ok (receipt.withWorkload workload))
    (hartifact : disk' artifactPath = disk artifactPath)
    (hlong : disk' longReceiptPath = disk longReceiptPath)
    (hbundle : ∀ path, receipt.artifacts.flatpakPath = some path → disk' path = disk path) :
    verifyReleaseReceipt codec disk' releasePath artifactPath = .ok ev.sha ↔
      Verifiable codec.toCodec disk ev := by
  have hrec : Records longReceiptPath ev receipt :=
    heq ▸ evaluateCertification_records now strictRequested hreads hacc
  have hrec' : Records longReceiptPath ev (receipt.withWorkload workload) :=
    ⟨hrec.status, hrec.fails, hrec.gaps, hrec.consistency, hrec.sha, hrec.flatpakPath,
      hrec.flatpakSha256, hrec.provenance, hrec.receiptPath, hrec.runId⟩
  obtain ⟨content, hcontent, hes⟩ := hreads.entries
  have hentries := (readReceiptEntries_eq_ok hcontent).2 ⟨hes, hacc.entries.artifact.nonempty⟩
  have hmatched : verifyReceiptArtifact codec.toCodec disk' longReceiptPath artifactPath =
      .matched ev.sha := by
    rw [verifyReceiptArtifact_congr hlong hartifact]
    exact verifyReceiptArtifact_matched.2
      ⟨hreads.isFile, ev.entries, hentries, hacc.entries.artifact, hreads.artifact⟩
  have hsame : Verifiable codec.toCodec disk' ev ↔ Verifiable codec.toCodec disk ev := by
    have hpath : ∀ path, ev.build.artifacts.flatpakPath = some path →
        hashFile codec.toCodec disk' path = hashFile codec.toCodec disk path := fun path h =>
      hashFile_congr (hbundle path (hrec.flatpakPath.trans h))
    constructor
    · rintro ⟨hbuild, hruns, hb⟩
      exact ⟨hbuild, hruns, fun path sha h h' => (hpath path h) ▸ hb path sha h h'⟩
    · rintro ⟨hbuild, hruns, hb⟩
      exact ⟨hbuild, hruns, fun path sha h h' => (hpath path h).trans (hb path sha h h')⟩
  rw [verifyReleaseReceipt_eq_ok hreceipt, hashFile_congr hartifact, hreads.artifact,
    releaseProblems_certified hrec' hacc hmatched, hsame]
  exact and_iff_right rfl

/-- **What is certified can be verified where its run ids and its bundle are there.** On the same
artifact, long audit and bundle, a certified receipt is verified, with the artifact's hash, exactly
where the receipts are `Verifiable`; and whatever the files, what it is verified for has the
certified hash. -/
theorem certified_verifies_iff (codec : ReleaseCodec) (disk disk' : Disk) (now : Nat)
    (artifactPath buildReceiptPath longReceiptPath releasePath : String) (strictRequested : Bool)
    (expectedRunId : Option String) (receipt : ReleaseReceipt) (workload : Option PgoWorkloadInfo)
    (heq : evaluateCertification codec.toCodec disk now artifactPath buildReceiptPath
      longReceiptPath strictRequested expectedRunId = receipt)
    (hcert : receipt.status = "CERTIFIED")
    (hreceipt : readReleaseReceipt codec disk' releasePath =
      .ok (receipt.withWorkload workload))
    (hartifact : disk' artifactPath = disk artifactPath)
    (hlong : disk' longReceiptPath = disk longReceiptPath)
    (hbundle : ∀ path, receipt.artifacts.flatpakPath = some path → disk' path = disk path) :
    ((∃ sha, hashFile codec.toCodec disk artifactPath = .ok sha ∧
        verifyReleaseReceipt codec disk' releasePath artifactPath = .ok sha) ↔
      ∀ ev, Reads codec.toCodec disk artifactPath buildReceiptPath longReceiptPath ev →
        Verifiable codec.toCodec disk ev) ∧
    ∀ (anyDisk : Disk) (anyRelease anyPath sha : String) (anyWorkload : Option PgoWorkloadInfo),
      readReleaseReceipt codec anyDisk anyRelease =
        .ok (receipt.withWorkload anyWorkload) →
      verifyReleaseReceipt codec anyDisk anyRelease anyPath = .ok sha →
        hashFile codec.toCodec anyDisk anyPath = .ok sha ∧
          hashFile codec.toCodec disk artifactPath = .ok sha := by
  obtain ⟨ev, hreads, hacc⟩ := (certified_iff now artifactPath buildReceiptPath longReceiptPath
    strictRequested expectedRunId).1 (heq ▸ hcert)
  have hverifies := certified_verifies heq hreads hacc hreceipt hartifact hlong hbundle
  constructor
  · constructor
    · rintro ⟨sha, hsha, hverify⟩ ev' hreads'
      obtain rfl := hreads.unique hreads'
      obtain rfl := Except.ok.inj (hreads.artifact.symm.trans hsha)
      exact hverifies.1 hverify
    · exact fun h => ⟨ev.sha, hreads.artifact, hverifies.2 (h ev hreads)⟩
  · intro anyDisk anyRelease anyPath sha anyWorkload hany hverify
    have hrec : Records longReceiptPath ev receipt :=
      heq ▸ evaluateCertification_records now strictRequested hreads hacc
    obtain ⟨hsha, hrecorded⟩ := verified_sha hany hverify
    have hcertified : ev.sha = sha := hrec.sha.symm.trans hrecorded
    exact ⟨hsha, hcertified ▸ hreads.artifact⟩

end

/-! ## Certified receipts with run ids and without -/

/-- The certification of the plain receipts, for the run id that they have or do not have. -/
@[irreducible] def plainRelease (ran : Bool) : ReleaseReceipt :=
  evaluateCertification (plainCodec ran) (plainDisk ran) 0 "nam_plug.clap" "build-receipt.json"
    "long-audit-receipt.jsonl" true (some "run-7")

def plainPhaseText (pid : String) : String :=
  "\x7b\"phase_id\":\"" ++ pid ++ "\",\"name\":\"\",\"status\":\"PASSED\",\"duration_ms\":0," ++
  "\"tests_executed\":0,\"gaps\":[],\"artifact_sha256\":\"" ++ EMPTY_SHA256 ++ "\"\x7d"

@[irreducible] def plainReleaseText (ran : Bool) : String :=
  "\x7b\"schema_version\":\"1.0.0\",\"timestamp_utc\":\"1970-01-01T00:00:00Z\"," ++
  "\"status\":\"CERTIFIED\",\"strict_mode\":true,\"fails\":[],\"gaps\":[],\"reasons\":[]," ++
  "\"package\":\x7b\"name\":\"nam-plug\",\"version\":\"1.0.0\"\x7d," ++
  "\"provenance\":\x7b\"git_commit\":\"c0ffee\",\"git_branch\":\"main\",\"git_dirty\":false," ++
  "\"cargo_lock_sha256\":\"00\",\"rustc_version\":\"rustc 1.90.0\",\"rustflags\":\"\"" ++
  runIdMember ran ++ "\x7d," ++
  "\"engine_provenance\":\x7b\"dependency_type\":\"crates.io\",\"version\":\"1.0.0\"\x7d," ++
  "\"optimizations\":\x7b\"pgo_applied\":true,\"bolt_applied\":false," ++
  "\"bolt_proof\":\"none\",\"codegen_comparison\":\"match\"\x7d," ++
  "\"artifacts\":\x7b\"artifact_path\":\"nam_plug.clap\",\"artifact_sha256\":\"" ++ EMPTY_SHA256 ++
  "\",\"artifact_consistency\":\"match\"\x7d," ++
  "\"long_audit\":\x7b\"receipt_path\":\"long-audit-receipt.jsonl\",\"status\":\"PASSED\"," ++
  "\"tests_executed\":0,\"duration_ms\":0" ++ runIdMember ran ++ ",\"phases\":[" ++
  String.intercalate "," (LONG_ROSTER.map plainPhaseText) ++ "]\x7d\x7d"

/-- The plain parsers, and that of the certified receipt. -/
def plainReleaseCodec (ran : Bool) : ReleaseCodec where
  toCodec := plainCodec ran
  releaseReceipt s :=
    if s = plainReleaseText ran then .ok (plainRelease ran)
    else .error "expected value at line 1 column 1"

/-- The plain files with the certified receipt beside them. -/
def plainReleaseDisk (ran : Bool) : Disk := fun path =>
  if path = "release-receipt.json" then some ⟨true, .bytes (plainReleaseText ran).toUTF8⟩
  else plainDisk ran path

section
variable (ran : Bool)

theorem plainReleaseCodec_parse :
    (plainReleaseCodec ran).releaseReceipt (plainReleaseText ran) = .ok (plainRelease ran) := by
  unfold plainReleaseCodec
  exact if_pos rfl

theorem plainRelease_read :
    readReleaseReceipt (plainReleaseCodec ran) (plainReleaseDisk ran) "release-receipt.json" =
      .ok (plainRelease ran) := by
  have hread : readToString (plainReleaseDisk ran) "release-receipt.json" =
      .ok (plainReleaseText ran) := by
    rw [readToString_eq_ok, Disk.read, plainReleaseDisk, if_pos rfl]
  rw [readReleaseReceipt, hread, Except.bind, plainReleaseCodec_parse]

theorem plainRelease_read_self :
    readReleaseReceipt (plainReleaseCodec ran) (plainReleaseDisk ran) "release-receipt.json" =
      .ok ((plainRelease ran).withWorkload (plainRelease ran).pgoWorkload) := by
  rw [ReleaseReceipt.withWorkload_self]
  exact plainRelease_read ran

theorem plainRelease_eq : evaluateCertification (plainCodec ran) (plainDisk ran) 0 "nam_plug.clap"
    "build-receipt.json" "long-audit-receipt.jsonl" true (some "run-7") = plainRelease ran := by
  rw [plainRelease]

theorem plainRelease_records :
    Records "long-audit-receipt.jsonl" (plainEvidence ran) (plainRelease ran) :=
  plainRelease_eq ran ▸
    evaluateCertification_records 0 true (plainEvidence_reads ran) (plainEvidence_accepted ran)

theorem plainRelease_bundle {path : String} :
    (plainRelease ran).artifacts.flatpakPath = some path →
      plainReleaseDisk ran path = plainDisk ran path :=
  fun h => nomatch (plainRelease_records ran).flatpakPath.symm.trans h

theorem plainReleaseDisk_of_ne {path : String} (h : path ≠ "release-receipt.json") :
    plainReleaseDisk ran path = plainDisk ran path := if_neg h

end

/-- The receipts with a run id have all the check asks for. -/
theorem plainEvidence_verifiable :
    Verifiable (plainCodec true) (plainDisk true) (plainEvidence true) where
  build := ⟨"run-7", by decide, rfl⟩
  long := by
    obtain ⟨pid, hpid⟩ := List.exists_mem_of_ne_nil LONG_ROSTER (by decide)
    exact ⟨gapEntry true pid, List.mem_map_of_mem hpid, by rw [gapEntry_runId]; rfl⟩
  bundle _ _ h := nomatch h

/-- With the run id in both receipts the certified one is verified, and without it is not. -/
theorem certified_verifies_plain :
    (∃ sha, hashFile (plainCodec true) (plainDisk true) "nam_plug.clap" = .ok sha ∧
      verifyReleaseReceipt (plainReleaseCodec true) (plainReleaseDisk true) "release-receipt.json"
        "nam_plug.clap" = .ok sha) ∧
    ((∃ sha, hashFile (plainCodec false) (plainDisk false) "nam_plug.clap" = .ok sha ∧
        verifyReleaseReceipt (plainReleaseCodec false) (plainReleaseDisk false)
          "release-receipt.json" "nam_plug.clap" = .ok sha) ↔
      ∀ ev, Reads (plainCodec false) (plainDisk false) "nam_plug.clap" "build-receipt.json"
        "long-audit-receipt.jsonl" ev → Verifiable (plainCodec false) (plainDisk false) ev) := by
  have hall := fun ran => (certified_verifies_iff (plainReleaseCodec ran) (plainDisk ran)
    (plainReleaseDisk ran) 0 "nam_plug.clap" "build-receipt.json" "long-audit-receipt.jsonl"
    "release-receipt.json" true (some "run-7") (plainRelease ran) (plainRelease ran).pgoWorkload
    (plainRelease_eq ran) (plainRelease_records ran).status (plainRelease_read_self ran)
    (plainReleaseDisk_of_ne ran (by decide)) (plainReleaseDisk_of_ne ran (by decide))
    fun _ h => plainRelease_bundle ran h).1
  refine ⟨(hall true).2 fun ev hreads => ?_, hall false⟩
  obtain rfl := hreads.unique (plainEvidence_reads true)
  exact plainEvidence_verifiable

/-- A receipt that is certified without run ids is refused. -/
theorem certified_refused :
    ¬ ∀ (codec : ReleaseCodec) (disk disk' : Disk) (now : Nat)
      (artifactPath buildReceiptPath longReceiptPath releasePath : String) (strictRequested : Bool)
      (expectedRunId : Option String) (receipt : ReleaseReceipt),
      evaluateCertification codec.toCodec disk now artifactPath buildReceiptPath longReceiptPath
        strictRequested expectedRunId = receipt →
      receipt.status = "CERTIFIED" →
      readReleaseReceipt codec disk' releasePath = .ok receipt →
      disk' artifactPath = disk artifactPath → disk' longReceiptPath = disk longReceiptPath →
      (∀ path, receipt.artifacts.flatpakPath = some path → disk' path = disk path) →
        ∃ sha, hashFile codec.toCodec disk artifactPath = .ok sha ∧
          verifyReleaseReceipt codec disk' releasePath artifactPath = .ok sha := by
  intro h
  have hartifact : plainReleaseDisk false "nam_plug.clap" = plainDisk false "nam_plug.clap" :=
    plainReleaseDisk_of_ne false (by decide)
  have hlong : plainReleaseDisk false "long-audit-receipt.jsonl" =
      plainDisk false "long-audit-receipt.jsonl" := plainReleaseDisk_of_ne false (by decide)
  have hbundle : ∀ path, (plainRelease false).artifacts.flatpakPath = some path →
      plainReleaseDisk false path = plainDisk false path := fun _ => plainRelease_bundle false
  obtain ⟨sha, hsha, hverify⟩ := h (plainReleaseCodec false) (plainDisk false)
    (plainReleaseDisk false) 0 "nam_plug.clap" "build-receipt.json" "long-audit-receipt.jsonl"
    "release-receipt.json" true (some "run-7") (plainRelease false) (plainRelease_eq false)
    (plainRelease_records false).status (plainRelease_read false) hartifact hlong hbundle
  have hcodec : (plainReleaseCodec false).toCodec = plainCodec false := rfl
  rw [hcodec, (plainEvidence_reads false).artifact] at hsha
  have hcertified : (plainEvidence false).sha = sha := Except.ok.inj hsha
  rw [← hcertified] at hverify
  have hiff := @certified_verifies (plainReleaseCodec false) (plainDisk false)
    (plainReleaseDisk false) 0 "nam_plug.clap" "build-receipt.json" "long-audit-receipt.jsonl"
    "release-receipt.json" true (some "run-7") (plainRelease false)
    (plainRelease false).pgoWorkload (plainEvidence false) (plainRelease_eq false)
    (plainEvidence_reads false) (plainEvidence_accepted false) (plainRelease_read_self false)
    hartifact hlong hbundle
  obtain ⟨⟨rid, -, hrid⟩, -, -⟩ := hiff.1 hverify
  cases hrid

end NamPlug.Receipt
