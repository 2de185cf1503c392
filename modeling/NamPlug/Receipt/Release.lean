import NamPlug.Receipt.LongArtifact

/-!
# Release certification

`evaluate_certification` (`receipt/release.rs`): the artifact, the build receipt and the long-audit
receipt reconciled into a release receipt. The clock and the parsers are parameters.
-/

namespace NamPlug.Receipt

open Text

/-! ## Schema -/

structure ReleaseArtifacts where
  artifactPath : String
  artifactSha256 : String
  artifactConsistency : String
  tarballPath : Option String
  tarballSha256 : Option String
  flatpakPath : Option String
  flatpakSha256 : Option String
  installedPath : Option String
  installedSha256 : Option String
  deriving DecidableEq, Repr

structure ReleaseLongPhaseSummary where
  phaseId : String
  name : String
  status : String
  durationMs : Nat
  testsExecuted : Nat
  gaps : List String
  artifactSha256 : Option String
  artifactExercised : Option Bool
  deriving DecidableEq, Repr

structure ReleaseLongAudit where
  receiptPath : String
  status : String
  testsExecuted : Nat
  durationMs : Nat
  runId : Option String
  phases : List ReleaseLongPhaseSummary
  deriving DecidableEq, Repr

structure ReleaseReceipt where
  schemaVersion : String
  timestampUtc : String
  status : String
  strictMode : Bool
  fails : List String
  gaps : List String
  reasons : List String
  package : PackageInfo
  provenance : BuildProvenance
  engineProvenance : EngineProvenance
  optimizations : BuildOptimizations
  pgoWorkload : Option PgoWorkloadInfo
  artifacts : ReleaseArtifacts
  longAudit : ReleaseLongAudit
  deriving DecidableEq, Repr

/-! ## The clock -/

/-- A number with at least `width` digits. -/
def padded (width n : Nat) : String :=
  let digits := Nat.toDigits 10 n
  .ofList (List.replicate (width - digits.length) '0' ++ digits)

/-- `now_iso8601`, from the seconds since the epoch. -/
def iso8601 (secs : Nat) : String :=
  let days := secs / 86400
  let timeOfDay := secs % 86400
  let hours := padded 2 (timeOfDay / 3600)
  let minutes := padded 2 (timeOfDay % 3600 / 60)
  let seconds := padded 2 (timeOfDay % 60)
  let z := days + 719468
  let era := z / 146097
  let doe := z - era * 146097
  let yoe := (doe - doe / 1460 + doe / 36524 - doe / 146096) / 365
  let y := yoe + era * 400
  let doy := doe - (365 * yoe + yoe / 4 - yoe / 100)
  let mp := (5 * doy + 2) / 153
  let day := padded 2 (doy - (153 * mp + 2) / 5 + 1)
  let m := if mp < 10 then mp + 3 else mp - 9
  let year := padded 4 (if m ≤ 2 then y + 1 else y)
  let month := padded 2 m
  s!"{year}-{month}-{day}T{hours}:{minutes}:{seconds}Z"

/-! ## Findings -/

/-- What speaks against a certification. -/
structure Findings where
  fails : List String := []
  gaps : List String := []
  reasons : List String := []
  deriving DecidableEq, Repr

def Findings.add (a b : Findings) : Findings :=
  ⟨a.fails ++ b.fails, a.gaps ++ b.gaps, a.reasons ++ b.reasons⟩

/-- A failure, where `c` holds. -/
def failWhen (c : Prop) [Decidable c] (token reason : String) : Findings :=
  if c then { fails := [token], reasons := [reason] } else {}

/-- An expected run id; an empty one is none. -/
def givenRunId (expectedRunId : Option String) : Option String :=
  expectedRunId.filter fun s => !s.isEmpty

section
variable (codec : Codec)

/-- A list of strings in an error text. -/
def quoteList (xs : List String) : String :=
  "[" ++ String.intercalate ", " (xs.map codec.quote) ++ "]"

def quoteOption : Option String → String
  | none => "None"
  | some s => "Some(" ++ codec.quote s ++ ")"

variable (disk : Disk)

/-! ## The artifact -/

/-- The artifact on disk: its hash, and whether it exists. -/
def checkArtifact (artifactPath : String) : Findings × String × Bool :=
  match disk artifactPath with
  | none =>
    (failWhen True "artifact_missing" s!"artifact not found: {artifactPath}", "absent", false)
  | some _ =>
    match hashFile codec disk artifactPath with
    | .ok h => ({}, h, true)
    | .error e =>
      (failWhen True "artifact_hash_failed" s!"failed to compute artifact SHA-256: {e}", "unknown",
        true)

/-! ## The build receipt -/

/-- The gaps a build receipt contains. -/
def buildGaps (br : BuildReceipt) : Findings :=
  if br.gaps = [] then {}
  else
    { gaps := br.gaps.map fun g => s!"build:{g}"
      reasons := ["build receipt contains gaps: " ++ quoteList codec br.gaps] }

/-- A run id of the build receipt, an empty one included, that is not the expected one. -/
def buildRunId (br : BuildReceipt) (expectedRunId : Option String) : Findings :=
  match givenRunId expectedRunId, br.provenance.runId with
  | some exp, some brRun =>
    failWhen (brRun ≠ exp) "run_id_mismatch_build"
      s!"build receipt run_id ({brRun}) != expected ({exp})"
  | _, _ => {}

def checkBuildReceipt (br : BuildReceipt) (actualSha : String) (artExists : Bool)
    (expectedRunId : Option String) : Findings :=
  let sha := br.artifacts.artifactSha256
  let status := br.status
  (((failWhen (artExists = true ∧ sha ≠ actualSha) "artifact_sha_mismatch_build"
      s!"artifact SHA-256 mismatch: actual disk ({actualSha}) != build receipt ({sha})").add
    (failWhen (br.strictMode = false) "build_not_strict"
      "build receipt strict_mode is false; release requires strict build")).add
    (failWhen (status ≠ "PASSED") "build_status_not_passed"
      s!"build receipt status is '{status}', expected 'PASSED'")).add
    ((buildGaps codec br).add (buildRunId br expectedRunId))

/-- The build receipt, read and checked. -/
def readBuildReceipt (buildReceiptPath actualSha : String) (artExists : Bool)
    (expectedRunId : Option String) : Findings × Option BuildReceipt :=
  match disk buildReceiptPath with
  | none =>
    (failWhen True "build_receipt_missing" s!"build receipt not found: {buildReceiptPath}", none)
  | some _ =>
    match readToString disk buildReceiptPath with
    | .error e =>
      (failWhen True "build_receipt_read_failed" s!"failed to read build receipt: {e}", none)
    | .ok content =>
      match codec.buildReceipt content with
      | .error e =>
        (failWhen True "build_receipt_invalid_schema"
          s!"build receipt schema validation failed (serde deny_unknown_fields): {e}", none)
      | .ok br => (checkBuildReceipt codec br actualSha artExists expectedRunId, some br)

/-! ## The long-audit receipt -/

/-- The artifact of the long audit against the one on disk. -/
def checkConsistency (consistency : ArtifactConsistency) (actualSha : String) (artExists : Bool) :
    Findings :=
  match consistency with
  | .matched declared =>
    failWhen (artExists = true ∧ declared ≠ actualSha) "artifact_sha_mismatch_long"
      s!"long audit declared SHA ({declared}) != actual SHA ({actualSha})"
  | .mismatch declared actual reason =>
    let declared := quoteOption codec declared
    let actual := quoteOption codec actual
    failWhen True "artifact_sha_mismatch_long"
      s!"long audit artifact mismatch (declared={declared}, actual={actual}): {reason}"
  | .absent reason =>
    failWhen True "long_artifact_absent" s!"long audit artifact provenance absent: {reason}"
  | .incomplete _ reason =>
    failWhen True "long_artifact_incomplete" s!"long audit artifact provenance incomplete: {reason}"

/-- The gaps of a line that the check reads: the non-empty strings of an array. -/
def phaseGaps (value : Json) : List String :=
  (((value.get "gaps").bind Json.asArray).getD []).filterMap fun g =>
    g.asString.filter fun s => !s.isEmpty

def summarizePhase (value : Json) : ReleaseLongPhaseSummary where
  phaseId := value.text "phase_id"
  name := value.text "name"
  status := value.text "status"
  durationMs := ((value.get "duration_ms").bind Json.asU64).getD 0
  testsExecuted := ((value.get "tests_executed").bind Json.asU64).getD 0
  gaps := phaseGaps value
  artifactSha256 := (value.get ARTIFACT_SHA256_KEY).bind Json.asString
  artifactExercised := (value.get ARTIFACT_EXERCISED_KEY).bind Json.asBool

/-- What is recorded of the lines read so far. -/
structure LongScan where
  findings : Findings := {}
  seenPhases : List String := []
  phases : List ReleaseLongPhaseSummary := []
  status : String := "UNKNOWN"
  testsTotal : Nat := 0
  durTotal : Nat := 0
  runId : Option String := none
  deriving DecidableEq, Repr

/-- The gaps a line declares. -/
def lineGaps (phase : ReleaseLongPhaseSummary) : Findings :=
  let pid := phase.phaseId
  { gaps := phase.gaps.map fun s => s!"{pid}:{s}"
    reasons := phase.gaps.map fun s => s!"long audit phase '{pid}' declares gap: '{s}'" }

/-- A run id of a line that is not the expected one. -/
def lineRunId (expectedRunId runId : Option String) (lineNo : Nat) : Findings :=
  match givenRunId expectedRunId, runId with
  | some exp, some rid =>
    failWhen (rid ≠ exp) "run_id_mismatch_long"
      s!"long audit line {lineNo} run_id ({rid}) != expected ({exp})"
  | _, _ => {}

def lineStatus (phase : ReleaseLongPhaseSummary) : Findings :=
  let pid := phase.phaseId
  let status := phase.status
  failWhen (status ≠ "PASSED") s!"long_phase_{pid}_status_{status}"
    s!"long audit phase '{pid}' status is '{status}', expected 'PASSED'"

/-- A line that is JSON. -/
def scanValue (expectedRunId : Option String) (lineNo : Nat) (value : Json) (scan : LongScan) :
    LongScan :=
  let phase := summarizePhase value
  let rid := value.textField "run_id"
  { findings := scan.findings.add ((lineGaps phase).add
      ((lineRunId expectedRunId rid lineNo).add (lineStatus phase)))
    seenPhases :=
      if phase.phaseId.isEmpty then scan.seenPhases else scan.seenPhases ++ [phase.phaseId]
    phases := scan.phases ++ [phase]
    status := if phase.phaseId = "overall" then phase.status else scan.status
    testsTotal := if phase.phaseId = "overall" then phase.testsExecuted else scan.testsTotal
    durTotal := if phase.phaseId = "overall" then phase.durationMs else scan.durTotal
    runId := rid.or scan.runId }

/-- The lines from index `idx` on. -/
def scanLines (expectedRunId : Option String) : Nat → List String → LongScan → LongScan
  | _, [], scan => scan
  | idx, line :: rest, scan =>
    if (trim line).isEmpty then scanLines expectedRunId (idx + 1) rest scan
    else
      let lineNo := idx + 1
      match codec.value (trim line) with
      | .ok value =>
        scanLines expectedRunId (idx + 1) rest (scanValue expectedRunId lineNo value scan)
      | .error e =>
        scanLines expectedRunId (idx + 1) rest { scan with
          findings := scan.findings.add (failWhen True s!"long_receipt_line_{lineNo}_invalid"
            s!"long audit line {lineNo} invalid JSON: {e}") }

/-- The canonical phases that no line is of. -/
def missingPhases (seenPhases : List String) : Findings :=
  let missing := LONG_ROSTER.filter fun req => !seenPhases.contains req
  { fails := missing.map fun req => s!"long_phase_{req}_missing"
    reasons := missing.map fun req =>
      s!"canonical phase '{req}' is missing from long audit receipt" }

/-- The long-audit receipt, read and checked, with its consistency. -/
def readLongReceipt (longReceiptPath artifactPath actualSha : String) (artExists : Bool)
    (expectedRunId : Option String) : LongScan × String :=
  match disk longReceiptPath with
  | none =>
    ({ findings :=
        failWhen True "long_receipt_missing" s!"long audit receipt not found: {longReceiptPath}" },
      "absent")
  | some _ =>
    let consistency := verifyReceiptArtifact codec disk longReceiptPath artifactPath
    let findings := checkConsistency codec consistency actualSha artExists
    match readToString disk longReceiptPath with
    | .error e =>
      ({ findings := findings.add
          (failWhen True "long_receipt_read_failed" s!"failed to read long audit receipt: {e}") },
        consistency.asStr)
    | .ok content =>
      let scan := scanLines codec expectedRunId 0 (lines content) { findings }
      ({ scan with findings := scan.findings.add (missingPhases scan.seenPhases) },
        consistency.asStr)

/-! ## The verdict -/

/-- The run ids of the two receipts against each other, where both have one. -/
def crossRunId (build : Option BuildReceipt) (longRunId : Option String) : Findings :=
  match build.bind (·.provenance.runId), longRunId with
  | some brRid, some lrRid =>
    failWhen (brRid.isEmpty = false ∧ lrRid.isEmpty = false ∧ brRid ≠ lrRid)
      "run_id_mismatch_cross_receipts"
      s!"run_id mismatch between build receipt ({brRid}) and long receipt ({lrRid})"
  | _, _ => {}

/-- What a release receipt says of a build without a readable receipt. -/
def unknownBuild (artifactPath actualSha : String) : BuildReceipt where
  schemaVersion := ""
  timestampUtc := ""
  status := ""
  strictMode := false
  gaps := []
  package := ⟨"nam-plug", "unknown"⟩
  provenance := ⟨"unknown", "unknown", true, "unknown", "unknown", "", none⟩
  engineProvenance := ⟨"unknown", "unknown", none⟩
  optimizations := ⟨false, false, "none", none, none, none, none, "none", none, none⟩
  pgoWorkload := none
  artifacts := ⟨artifactPath, actualSha, none, none, none, none, none, none, none⟩

/-- `evaluate_certification` -/
def evaluateCertification (now : Nat) (artifactPath buildReceiptPath longReceiptPath : String)
    (strictRequested : Bool) (expectedRunId : Option String) : ReleaseReceipt :=
  let artifact := checkArtifact codec disk artifactPath
  let actualSha := artifact.2.1
  let artExists := artifact.2.2
  let build := readBuildReceipt codec disk buildReceiptPath actualSha artExists expectedRunId
  let long := readLongReceipt codec disk longReceiptPath artifactPath actualSha artExists
    expectedRunId
  let found := ((artifact.1.add build.1).add long.1.findings).add (crossRunId build.2 long.1.runId)
  let br := build.2.getD (unknownBuild artifactPath actualSha)
  { schemaVersion := "1.0.0"
    timestampUtc := iso8601 now
    status := if sortedSet found.fails = [] ∧ sortedSet found.gaps = [] then "CERTIFIED"
      else "REJECTED"
    strictMode := strictRequested
    fails := sortedSet found.fails
    gaps := sortedSet found.gaps
    reasons := sortedSet found.reasons
    package := br.package
    provenance := br.provenance
    engineProvenance := br.engineProvenance
    optimizations := br.optimizations
    pgoWorkload := br.pgoWorkload
    artifacts :=
      { artifactPath := br.artifacts.artifactPath
        artifactSha256 := br.artifacts.artifactSha256
        artifactConsistency := long.2
        tarballPath := br.artifacts.tarballPath
        tarballSha256 := br.artifacts.tarballSha256
        flatpakPath := br.artifacts.flatpakPath
        flatpakSha256 := br.artifacts.flatpakSha256
        installedPath := br.artifacts.installedPath
        installedSha256 := br.artifacts.installedSha256 }
    longAudit :=
      { receiptPath := longReceiptPath
        status := long.1.status
        testsExecuted := long.1.testsTotal
        durationMs := long.1.durTotal
        runId := long.1.runId
        phases := long.1.phases } }

end

end NamPlug.Receipt
