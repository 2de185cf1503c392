import NamPlug.Lib.JsonText
import NamPlug.Receipt.LongArtifact

/-!
# The writer of the long-audit receipt

The commands of `plug_long_receipt` that write and check `long-audit-receipt.jsonl`
(`bin/plug_long_receipt.rs`): `append` adds the line of a phase, `summary` puts the overall line at
the end, and `verify-artifact` and `artifact-status` compare the artifact that the lines declare. The
engine's receipts and the rendering of JSON are parameters.
-/

namespace NamPlug.Receipt

open Text

/-! ## Receipts -/

inductive LongPhaseStatus where
  | passed
  | failed
  | skipped
  | inconclusive
  | skipCapability
  | notRun
  | simulated
  deriving DecidableEq, Repr

/-- `as_str` -/
def LongPhaseStatus.asStr : LongPhaseStatus → String
  | passed => "PASSED"
  | failed => "FAILED"
  | skipped => "SKIPPED"
  | inconclusive => "INCONCLUSIVE"
  | skipCapability => "SKIP_CAPABILITY"
  | notRun => "NOT_RUN"
  | simulated => "SIMULATED"

structure LongPhaseReceipt where
  phaseId : String
  name : String
  status : LongPhaseStatus
  durationMs : UInt64
  testsExecuted : UInt64
  gaps : List String
  timestamp : String
  artifactSha256 : Option String
  deriving DecidableEq, Repr

/-- The members of an object. -/
abbrev Fields := List (String × Json)

/-- The engine's receipts, with what is read of a phase's log, and the rendering of JSON. `toValue` is
of the receipts that this program builds and of summaries. -/
structure AuditEngine where
  statusFromStr : String → Except String LongPhaseStatus
  gapId : LongPhaseStatus → Option String
  countTestsExecuted : Reading → UInt64
  detectGapMarkers : Reading → List String
  toValue : LongPhaseReceipt → Fields
  parseJsonl : Reading → Except String (List LongPhaseReceipt)
  summaryReceipt : List LongPhaseReceipt → LongPhaseReceipt
  render : Json → String

/-- `DEFAULT_OUT` -/
def DEFAULT_OUT : String := "target/logs/long-audit-receipt.jsonl"

/-- `PLUG_LONG_ROSTER` -/
def PLUG_LONG_ROSTER : List String := LONG_ROSTER

/-! ## Flags -/

/-- `VALUE_LESS_FLAGS` -/
def VALUE_LESS_FLAGS : List String := ["strict", "package", "install", "certify"]

/-- Flags with their values, the last given one first. -/
abbrev Flags := List (String × String)

/-- A flag without its dashes. -/
def flagName (flag : String) : String :=
  match flag.toList with
  | '-' :: '-' :: name => .ofList name
  | _ => flag

/-- `parse_flags`, of the arguments after those that gave `flags`. -/
def parseFlags : List String → Flags → Except String Flags
  | [], flags => .ok flags
  | flag :: rest, flags =>
    let name := flagName flag
    if name.isEmpty then .error s!"{flag}: expected a flag name"
    else if VALUE_LESS_FLAGS.contains name then parseFlags rest ((name, "") :: flags)
    else
      match rest with
      | [] => .error s!"{flag} requires a value"
      | value :: rest => parseFlags rest ((name, value) :: flags)

/-- An error, but where `c` holds. -/
def ensure {ε : Type} (c : Prop) [Decidable c] (e : ε) : Except ε Unit :=
  if c then .ok () else .error e

/-- `required` -/
def required (flags : Flags) (name : String) : Except String String :=
  match flags.lookup name with
  | some v => .ok v
  | none => .error s!"missing required flag --{name}"

/-- The file that a command is about. -/
def outOf (flags : Flags) : String := (flags.lookup "out").getD DEFAULT_OUT

/-- `str::parse::<u64>` -/
def parseU64 (s : String) : Option UInt64 :=
  let digits :=
    match s.toList with
    | '+' :: rest => rest
    | cs => cs
  let n := Nat.ofDigitChars 10 digits 0
  if digits = [] ∨ digits.all Char.isDigit = false then none
  else if n < 2 ^ 64 then some (.ofNat n)
  else none

/-! ## Commands -/

/-- How the write of a command ends: a failed one leaves so many bytes. -/
inductive WriteEnd where
  | complete
  | refused (e : String)
  | failed (e : String) (written : Nat)

/-- What a command finds: `NAM_RUN_ID`, the time, and how its write ends. -/
structure Env where
  namRunId : Option String
  now : String
  writeEnd : WriteEnd

/-- The exit code of a command and its lines on the two streams. -/
structure Exit where
  code : Nat
  stdout : List String := []
  stderr : List String := []
  deriving DecidableEq, Repr

/-- `die_usage` -/
def dieUsage (subcommand message : String) : Exit where
  code := 2
  stderr := [s!"{subcommand}: {message}", "Run `plug_long_receipt --help` for usage."]

/-- A command that cannot do its work. -/
def dieFailure (message : String) : Exit where
  code := 1
  stderr := [message]

/-- The bytes of the text that a write that ends so has put there. -/
def WriteEnd.bytes (text : String) : WriteEnd → Option ByteArray
  | complete => some text.toUTF8
  | refused _ => none
  | failed _ written => some (text.toUTF8.extract 0 written)

def WriteEnd.error : WriteEnd → Option String
  | complete => none
  | refused e => some e
  | failed e _ => some e

/-- The bytes after what is in the file; a file that cannot be read stays one. -/
def appended (b : ByteArray) : Option FileNode → FileNode
  | some ⟨isFile, .bytes old⟩ => ⟨isFile, .bytes (old ++ b)⟩
  | some node => node
  | none => ⟨true, .bytes b⟩

/-- `append_line` -/
def appendLine (disk : Disk) (out line : String) (writeEnd : WriteEnd) : Disk :=
  match writeEnd.bytes (line ++ "\n") with
  | none => disk
  | some b => Function.update disk out (some (appended b (disk out)))

/-- `write_file` -/
def writeFile (disk : Disk) (out content : String) (writeEnd : WriteEnd) : Disk :=
  match writeEnd.bytes content with
  | none => disk
  | some b => Function.update disk out (some ⟨true, .bytes b⟩)

/-! ## `append` -/

section
variable (engine : AuditEngine)

/-- What an `append` command is to record. -/
structure AppendRequest where
  out : String
  receipt : LongPhaseReceipt
  artifactPath : Option String
  artifactExercised : Bool
  runId : Option String
  deriving DecidableEq, Repr

/-- The gaps of the flag. -/
def flagGaps (flags : Flags) : List String :=
  match flags.lookup "gaps" with
  | none => []
  | some list =>
    ((list.toList.splitOn ',').map fun g => trim (.ofList g)).filter fun g => !g.isEmpty

/-- The gaps, with those of the markers that are not among them. -/
def addMarkers (gaps : List String) : List String → List String
  | [] => gaps
  | marker :: rest => addMarkers (if gaps.contains marker then gaps else gaps ++ [marker]) rest

def testsExecuted (disk : Disk) (flags : Flags) : Except String UInt64 :=
  match flags.lookup "tests-executed" with
  | some v =>
    match parseU64 v with
    | some n => .ok n
    | none => .error "--tests-executed must be a non-negative integer"
  | none => .ok (((flags.lookup "log").map fun path => engine.countTestsExecuted (disk.read path)).getD 0)

def phaseGapsOf (disk : Disk) (flags : Flags) (status : LongPhaseStatus) : List String :=
  let gaps := flagGaps flags ++ (engine.gapId status).toList
  match flags.lookup "log" with
  | none => gaps
  | some path => addMarkers gaps (engine.detectGapMarkers (disk.read path))

def artifactExercised (flags : Flags) : Except String Bool :=
  match flags.lookup "artifact-exercised" with
  | none => .ok false
  | some v =>
    if v = "true" then .ok true
    else if v = "false" then .ok false
    else .error "--artifact-exercised must be exactly 'true' or 'false'"

def durationMs (flags : Flags) : Except String UInt64 := do
  let v ← required flags "duration-ms"
  match parseU64 v with
  | some n => .ok n
  | none => .error "--duration-ms must be a non-negative integer"

/-- `cmd_append`, up to the receipt. -/
def appendRequest (env : Env) (disk : Disk) (args : List String) :
    Except String AppendRequest := do
  let flags ← parseFlags args []
  let phaseId ← required flags "phase-id"
  let canonical := String.intercalate ", " PLUG_LONG_ROSTER
  ensure (phaseId ∈ PLUG_LONG_ROSTER) s!"unknown phase id '{phaseId}' (canonical: {canonical})"
  let name ← required flags "name"
  let status ← (required flags "status").bind engine.statusFromStr
  let durationMs ← durationMs flags
  let testsExecuted ← testsExecuted engine disk flags
  let artifactPath := flags.lookup "artifact-path"
  let artifactSha256 := flags.lookup "artifact-sha256"
  ensure (artifactPath.isSome = artifactSha256.isSome)
    "--artifact-path and --artifact-sha256 must be supplied together"
  let exercised ← artifactExercised flags
  ensure (exercised = true → artifactSha256.isSome = true)
    "--artifact-exercised true requires --artifact-path and --artifact-sha256"
  return {
    out := outOf flags
    receipt :=
      { phaseId, name, status, durationMs, testsExecuted
        gaps := phaseGapsOf engine disk flags status
        timestamp := env.now
        artifactSha256 }
    artifactPath
    artifactExercised := exercised
    runId := (flags.lookup "run-id").or env.namRunId }

/-- The members with a string set, where there is one. -/
def stamp (key : String) (s : Option String) (fields : Fields) : Fields :=
  match s with
  | none => fields
  | some s => Json.insert key (.string s) fields

/-- `render_with_plug_fields`, as members. -/
def plugFields (request : AppendRequest) : Fields :=
  let fields := engine.toValue request.receipt
  stamp "run_id" request.runId
    (match request.artifactPath with
    | none => fields
    | some path =>
      Json.insert ARTIFACT_EXERCISED_KEY (.bool request.artifactExercised)
        (Json.insert ARTIFACT_PATH_KEY (.string path) fields))

/-- `cmd_append` -/
def cmdAppend (env : Env) (args : List String) (disk : Disk) : Exit × Disk :=
  match appendRequest engine env disk args with
  | .error e => (dieUsage "append" e, disk)
  | .ok request =>
    let out := request.out
    let receipt := request.receipt
    let line := engine.render (.object (plugFields engine request))
    let disk := appendLine disk out line env.writeEnd
    match env.writeEnd.error with
    | some e => (dieFailure s!"append: failed to write receipt to {out}: {e}", disk)
    | none =>
      let status := receipt.status.asStr
      let tests := receipt.testsExecuted.toNat
      let ms := receipt.durationMs.toNat
      ({ code := 0
         stderr := [s!"✓ plug long-audit receipt: {receipt.phaseId} {status} ({tests} tests, {ms} ms)"] },
        disk)

/-! ## `summary` -/

/-- An entry of the overall line. -/
def isOverall (value : Json) : Bool := (value.get "phase_id").bind Json.asString == some "overall"

variable (codec : Codec)

/-- The lines of the phases, as text and as entries. -/
def keptLines : List String → Except String (List (String × Json))
  | [] => .ok []
  | line :: rest =>
    if (trim line).isEmpty then keptLines rest
    else
      match codec.value (trim line) with
      | .error e => .error e
      | .ok value =>
        if isOverall value then keptLines rest else (keptLines rest).map ((trim line, value) :: ·)

/-- The run id of the first entry that has one. -/
def firstRunId (entries : List Json) : Option String :=
  entries.findSome? fun e => (e.get "run_id").bind Json.asString

/-- The run id that `summary` stamps. -/
def summaryRunId (env : Env) (flags : Flags) (entries : List Json) : Option String :=
  ((flags.lookup "run-id").or env.namRunId).or (firstRunId entries)

/-- The overall line, as members. -/
def overallFields (summary : LongPhaseReceipt) (declared : Option DeclaredArtifact)
    (runId : Option String) : Fields :=
  let fields := engine.toValue summary
  stamp "run_id" runId
    (match declared with
    | none => fields
    | some declared =>
      stamp ARTIFACT_PATH_KEY declared.path
        (Json.insert ARTIFACT_SHA256_KEY (.string declared.sha256) fields))

/-- The artifact that the phases declare, if they declare one; not if they declare several. -/
def declaredBy (entries : List Json) : Except String (Option DeclaredArtifact) :=
  match declaredArtifact entries with
  | .ok declared => .ok (some declared)
  | .error .conflicting =>
    .error "summary: receipt declares conflicting artifacts — refusing to summarize"
  | .error _ => .ok none

/-- What a `summary` command is to write. -/
structure SummaryRequest where
  out : String
  lines : List String
  summary : LongPhaseReceipt
  value : Fields

/-- `cmd_summary`, up to the overall line. -/
def summaryRequest (env : Env) (disk : Disk) (args : List String) : Except Exit SummaryRequest := do
  let flags ← (parseFlags args []).mapError (dieUsage "summary")
  let out := outOf flags
  let audit ← (engine.parseJsonl (disk.read out)).mapError fun e =>
    dieFailure s!"summary: cannot build summary from {out}: {e}"
  ensure (audit.isEmpty = false)
    (dieFailure s!"summary: no phase entries in {out} — nothing to summarize")
  let raw ← (readToString disk out).mapError fun e => dieFailure s!"summary: cannot read {out}: {e}"
  let kept ← (keptLines codec (Text.lines raw)).mapError fun e =>
    dieFailure s!"summary: invalid JSON line in {out}: {e}"
  let entries := kept.map Prod.snd
  let declared ← (declaredBy entries).mapError dieFailure
  let summary := engine.summaryReceipt audit
  return {
    out
    lines := kept.map Prod.fst
    summary
    value := overallFields engine summary declared (summaryRunId env flags entries) }

/-- `cmd_summary` -/
def cmdSummary (env : Env) (args : List String) (disk : Disk) : Exit × Disk :=
  match summaryRequest engine codec env disk args with
  | .error exit => (exit, disk)
  | .ok request =>
    let out := request.out
    let content :=
      String.intercalate "\n" (request.lines ++ [engine.render (.object request.value)]) ++ "\n"
    let disk := writeFile disk out content env.writeEnd
    match env.writeEnd.error with
    | some e => (dieFailure s!"summary: failed to write overall line to {out}: {e}", disk)
    | none =>
      let status := request.summary.status.asStr
      let tests := request.summary.testsExecuted.toNat
      let ms := request.summary.durationMs.toNat
      let gaps := request.summary.gaps.length
      ({ code := 0
         stdout := [s!"OVERALL: {status}"]
         stderr := [s!"✓ plug long-audit receipt: overall {status} ({tests} tests, {ms} ms, {gaps} gaps)"] },
        disk)

/-! ## Runs -/

inductive Command where
  | append (args : List String)
  | summary (args : List String)

/-- A command of the program with what it finds. -/
structure Invocation where
  env : Env
  command : Command

def Invocation.exec (i : Invocation) (disk : Disk) : Exit × Disk :=
  match i.command with
  | .append args => cmdAppend engine i.env args disk
  | .summary args => cmdSummary engine codec i.env args disk

/-- The disk after the invocations, one after another. -/
def runAll : List Invocation → Disk → Disk
  | [], disk => disk
  | i :: rest, disk => runAll rest (i.exec engine codec disk).2

/-- What an invocation records in a file. -/
def Invocation.request (i : Invocation) (disk : Disk) (out : String) : Option AppendRequest :=
  match i.command with
  | .append args =>
    (appendRequest engine i.env disk args).toOption.filter fun r =>
      r.out = out ∧ i.env.writeEnd.error = none
  | .summary _ => none

/-- What the invocations record in a file, in their order. -/
def recorded (out : String) : List Invocation → Disk → List AppendRequest
  | [], _ => []
  | i :: rest, disk =>
    (i.request engine disk out).toList ++ recorded out rest (i.exec engine codec disk).2

end

/-! ## `verify-artifact` and `artifact-status` -/

section
variable (codec : Codec)

/-- `verify_receipt_declared_sha` -/
def verifyReceiptDeclaredSha (disk : Disk) (receiptPath expectedSha256 : String) :
    ArtifactConsistency :=
  if !((disk receiptPath).map FileNode.isFile).getD false then
    .absent s!"receipt {receiptPath} does not exist"
  else
    match readReceiptEntries codec disk receiptPath with
    | .error e => .mismatch none (some expectedSha256) e
    | .ok entries =>
      match declaredArtifact entries with
      | .error .missing => .absent DeclaredArtifactError.missing.text
      | .error .incomplete =>
        .incomplete (sortedSet (declaredShas entries)).head? DeclaredArtifactError.incomplete.text
      | .error kind => .mismatch none (some expectedSha256) kind.text
      | .ok declared =>
        if declared.sha256 = expectedSha256 then .matched declared.sha256
        else
          .mismatch (some declared.sha256) (some expectedSha256)
            s!"receipt declares {declared.sha256} but the release receipt recorded {expectedSha256}"

/-- `declared_sha256` -/
def ArtifactConsistency.declaredSha256 : ArtifactConsistency → Option String
  | matched declared => some declared
  | mismatch declared _ _ => declared
  | absent _ => none
  | incomplete declared _ => declared

/-- `reason` -/
def ArtifactConsistency.reason : ArtifactConsistency → Option String
  | matched _ => none
  | mismatch _ _ reason => some reason
  | absent reason => some reason
  | incomplete _ reason => some reason

/-- What the two commands print and exit with. -/
def ArtifactConsistency.exit (subcommand : String) (verdict : ArtifactConsistency) : Exit where
  code :=
    match verdict with
    | matched _ => 0
    | mismatch .. => 1
    | absent _ => 3
    | incomplete .. => 4
  stdout :=
    let consistency := verdict.asStr
    let declared := verdict.declaredSha256.getD "-"
    [s!"ARTIFACT_CONSISTENCY: {consistency}", s!"ARTIFACT_SHA256: {declared}"]
  stderr := verdict.reason.toList.map fun reason => s!"{subcommand}: {reason}"

/-- `cmd_verify_artifact` -/
def cmdVerifyArtifact (args : List String) (disk : Disk) : Exit :=
  let request := do
    let flags ← parseFlags args []
    let out ← required flags "out"
    let artifact ← required flags "artifact"
    return (out, artifact)
  match request with
  | .error e => dieUsage "verify-artifact" e
  | .ok (out, artifact) => (verifyReceiptArtifact codec disk out artifact).exit "verify-artifact"

/-- `cmd_artifact_status` -/
def cmdArtifactStatus (args : List String) (disk : Disk) : Exit :=
  let request := do
    let flags ← parseFlags args []
    let out ← required flags "out"
    let expected ← required flags "expected-sha256"
    return (out, expected)
  match request with
  | .error e => dieUsage "artifact-status" e
  | .ok (out, expected) => (verifyReceiptDeclaredSha codec disk out expected).exit "artifact-status"

end

end NamPlug.Receipt
