import NamPlug.Receipt.Build
import Mathlib.Data.List.Sort
import Mathlib.Data.List.Dedup
import Mathlib.Data.String.Basic

/-!
# The artifact of the long-audit receipt

The artifact that the lines of `long-audit-receipt.jsonl` declare, and its comparison with the file
(`receipt/long_artifact.rs`).
-/

namespace NamPlug.Receipt

open Text

/-- `ARTIFACT_PATH_KEY` -/
def ARTIFACT_PATH_KEY : String := "artifact_path"

/-- `ARTIFACT_SHA256_KEY` -/
def ARTIFACT_SHA256_KEY : String := "artifact_sha256"

/-- `ARTIFACT_EXERCISED_KEY` -/
def ARTIFACT_EXERCISED_KEY : String := "artifact_exercised"

structure DeclaredArtifact where
  path : Option String
  sha256 : String
  deriving DecidableEq, Repr

inductive DeclaredArtifactError where
  | missing
  | incomplete
  | conflicting
  deriving DecidableEq, Repr

def DeclaredArtifactError.text : DeclaredArtifactError → String
  | missing => "no artifact_sha256 declared by the receipt"
  | incomplete => "only some receipt lines declare artifact_sha256"
  | conflicting => "receipt lines declare conflicting artifacts"

/-- `matched` is `Match`. -/
inductive ArtifactConsistency where
  | matched (declared : String)
  | mismatch (declared actual : Option String) (reason : String)
  | absent (reason : String)
  | incomplete (declared : Option String) (reason : String)
  deriving DecidableEq, Repr

/-- `as_str` -/
def ArtifactConsistency.asStr : ArtifactConsistency → String
  | matched _ => "match"
  | mismatch .. => "mismatch"
  | absent _ => "absent"
  | incomplete .. => "incomplete"

/-- A list as the ordered set of its elements. -/
def sortedSet (xs : List String) : List String := xs.dedup.insertionSort (· ≤ ·)

/-- `sha256_file` -/
def sha256File (codec : Codec) (disk : Disk) (path : String) : Except String String :=
  match disk.read path with
  | .openError e => .error s!"cannot open artifact {path}: {e}"
  | .readError e => .error s!"cannot read artifact {path}: {e}"
  | .bytes b => .ok (codec.sha256 b)

/-- The entries of the lines from `lineNo` on. -/
def parseLines (codec : Codec) (path : String) :
    Nat → List (Except String String) → Except String (List Json)
  | _, [] => .ok []
  | _, .error e :: _ => .error s!"cannot read receipt {path}: {e}"
  | lineNo, .ok line :: rest =>
    if (trim line).isEmpty then parseLines codec path (lineNo + 1) rest
    else
      match codec.value (trim line) with
      | .error e => .error s!"receipt {path} line {lineNo + 1} is not valid JSON: {e}"
      | .ok value => (parseLines codec path (lineNo + 1) rest).map (value :: ·)

/-- `read_receipt_entries` -/
def readReceiptEntries (codec : Codec) (disk : Disk) (path : String) : Except String (List Json) :=
  match disk.read path with
  | .openError e => .error s!"cannot open receipt {path}: {e}"
  | .readError e => .error s!"cannot read receipt {path}: {e}"
  | .bytes b =>
    match parseLines codec path 0 (codec.bufLines b) with
    | .error e => .error e
    | .ok [] => .error s!"receipt {path} is empty"
    | .ok entries => .ok entries

/-- The hashes declared, in the order of the lines. -/
def declaredShas (entries : List Json) : List String :=
  entries.filterMap (·.textField ARTIFACT_SHA256_KEY)

/-- `declared_artifact` -/
def declaredArtifact (entries : List Json) : Except DeclaredArtifactError DeclaredArtifact :=
  let shas := sortedSet (declaredShas entries)
  let paths := sortedSet (entries.filterMap (·.textField ARTIFACT_PATH_KEY))
  if (declaredShas entries).length = 0 then .error .missing
  else if (declaredShas entries).length ≠ entries.length then .error .incomplete
  else if shas.length ≠ 1 then .error .conflicting
  else if 1 < paths.length then .error .conflicting
  else
    match shas with
    | [] => .error .missing
    | sha256 :: _ => .ok ⟨paths.head?, sha256⟩

/-- `verify_receipt_artifact` -/
def verifyReceiptArtifact (codec : Codec) (disk : Disk) (receiptPath artifactPath : String) :
    ArtifactConsistency :=
  if !((disk receiptPath).map FileNode.isFile).getD false then
    .absent s!"receipt {receiptPath} does not exist"
  else
    match readReceiptEntries codec disk receiptPath with
    | .error e => .mismatch none none e
    | .ok entries =>
      match declaredArtifact entries with
      | .error .missing => .absent DeclaredArtifactError.missing.text
      | .error .incomplete =>
        .incomplete (sortedSet (declaredShas entries)).head? DeclaredArtifactError.incomplete.text
      | .error kind => .mismatch none none kind.text
      | .ok declared =>
        match sha256File codec disk artifactPath with
        | .error e => .mismatch (some declared.sha256) none e
        | .ok actual =>
          if declared.sha256 = actual then .matched declared.sha256
          else
            .mismatch (some declared.sha256) (some actual)
              s!"receipt declares {declared.sha256} but {artifactPath} is {actual}"

end NamPlug.Receipt
