import NamPlug.Receipt.Release

/-!
# The check before an install

`verify_release_receipt` (`receipt/release.rs`): a release receipt against the bytes that are about
to be installed.
-/

namespace NamPlug.Receipt

/-- The JSON parser of release receipts, with the other parsers. -/
structure ReleaseCodec extends Codec where
  releaseReceipt : String → Except String ReleaseReceipt

/-- A problem, where `c` holds. -/
def problemWhen (c : Prop) [Decidable c] (text : String) : List String := if c then [text] else []

/-- What the receipt says of itself. -/
def verdictProblems (receipt : ReleaseReceipt) : List String :=
  let status := receipt.status
  let consistency := receipt.artifacts.artifactConsistency
  problemWhen (status ≠ "CERTIFIED") s!"release receipt status is '{status}', expected 'CERTIFIED'" ++
    problemWhen (receipt.fails ≠ [] ∨ receipt.gaps ≠ []) "release receipt declares fails or gaps" ++
    problemWhen (consistency ≠ "match")
      s!"release receipt artifact consistency is '{consistency}', expected 'match'"

/-- The artifact against the receipt. -/
def artifactProblems (receipt : ReleaseReceipt) (actual : String) : List String :=
  let expected := receipt.artifacts.artifactSha256
  problemWhen (actual ≠ expected)
    s!"artifact SHA-256 {actual} differs from release receipt {expected}"

/-- The artifact against the long audit. -/
def longAuditProblems (consistency : ArtifactConsistency) (actual : String) : List String :=
  match consistency with
  | .matched declared =>
    problemWhen (declared ≠ actual) "long audit declares a different artifact SHA"
  | .mismatch _ _ reason => [s!"long audit artifact provenance: {reason}"]
  | .absent reason => [s!"long audit artifact provenance: {reason}"]
  | .incomplete _ reason => [s!"long audit artifact provenance: {reason}"]

/-- The run ids of the build and of the long audit. -/
def runIdProblems (build long : Option String) : List String :=
  let text := "build and long audit run_id do not reconcile with the release receipt"
  match build, long with
  | some build, some long => problemWhen (build.isEmpty = true ∨ build ≠ long) text
  | _, _ => [text]

/-- The bundle that was packaged, where the receipt declares one. -/
def flatpakProblems (codec : Codec) (disk : Disk) (path sha256 : Option String) : List String :=
  match path, sha256 with
  | some path, some expected =>
    match hashFile codec disk path with
    | .ok sha =>
      problemWhen (sha ≠ expected)
        s!"flatpak SHA-256 mismatch at {path}: disk ({sha}) != release receipt ({expected})"
    | .error e => [s!"cannot hash flatpak at {path}: {e}"]
  | _, _ => []

/-- The problems of a receipt and an artifact with the hash `actual`. -/
def releaseProblems (codec : Codec) (disk : Disk) (receipt : ReleaseReceipt)
    (artifactPath actual : String) : List String :=
  verdictProblems receipt ++ artifactProblems receipt actual ++
    longAuditProblems
      (verifyReceiptArtifact codec disk receipt.longAudit.receiptPath artifactPath) actual ++
    runIdProblems receipt.provenance.runId receipt.longAudit.runId ++
    flatpakProblems codec disk receipt.artifacts.flatpakPath receipt.artifacts.flatpakSha256

/-- The receipt of a file. -/
def readReleaseReceipt (codec : ReleaseCodec) (disk : Disk) (releasePath : String) :
    Except String ReleaseReceipt :=
  (readToString disk releasePath).bind codec.releaseReceipt

/-- `verify_release_receipt` -/
def verifyReleaseReceipt (codec : ReleaseCodec) (disk : Disk) (releasePath artifactPath : String) :
    Except (List String) String :=
  match readReleaseReceipt codec disk releasePath with
  | .error e => .error [s!"release receipt {releasePath} unreadable or invalid: {e}"]
  | .ok receipt =>
    match hashFile codec.toCodec disk artifactPath with
    | .error e => .error [s!"cannot hash artifact {artifactPath}: {e}"]
    | .ok actual =>
      let problems := releaseProblems codec.toCodec disk receipt artifactPath actual
      if problems = [] then .ok actual else .error problems

end NamPlug.Receipt
