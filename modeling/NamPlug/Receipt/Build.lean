import NamPlug.Lib.Json
import NamPlug.Lib.Text

/-!
# The build receipt

The typed build receipt (`receipt/build.rs`), the files the receipts are read from and what reads
them: the digest, the lines of a reader and the JSON parsers (`Codec`).
-/

namespace NamPlug.Receipt

open Text

/-! ## Schema -/

structure PackageInfo where
  name : String
  version : String
  deriving DecidableEq, Repr

structure BuildProvenance where
  gitCommit : String
  gitBranch : String
  gitDirty : Bool
  cargoLockSha256 : String
  rustcVersion : String
  rustflags : String
  runId : Option String
  deriving DecidableEq, Repr

structure EngineProvenance where
  dependencyType : String
  version : String
  checksum : Option String
  deriving DecidableEq, Repr

structure BuildOptimizations where
  pgoApplied : Bool
  boltApplied : Bool
  boltProof : String
  boltProfileSha256 : Option String
  boltVersion : Option String
  boltLbrSamples : Option String
  boltLbrFdataSha256 : Option String
  codegenComparison : String
  preBoltSymbols : Option Nat
  postBoltSymbols : Option Nat
  deriving DecidableEq, Repr

/-- `excitationGain` is the bit pattern of a double. -/
structure PgoWorkloadInfo where
  status : String
  excitationGain : Option UInt64
  totalScenarios : Option Nat
  totalCallbacks : Option Nat
  clippingCountPhase1 : Option Nat
  clippingCountBolt : Option Nat
  logSha256 : Option String
  receiptSha256 : Option String
  deriving DecidableEq, Repr

structure BuildArtifacts where
  artifactPath : String
  artifactSha256 : String
  preStripArtifactSha256 : Option String
  tarballPath : Option String
  tarballSha256 : Option String
  flatpakPath : Option String
  flatpakSha256 : Option String
  installedPath : Option String
  installedSha256 : Option String
  deriving DecidableEq, Repr

structure BuildReceipt where
  schemaVersion : String
  timestampUtc : String
  status : String
  strictMode : Bool
  gaps : List String
  package : PackageInfo
  provenance : BuildProvenance
  engineProvenance : EngineProvenance
  optimizations : BuildOptimizations
  pgoWorkload : Option PgoWorkloadInfo
  artifacts : BuildArtifacts
  deriving DecidableEq, Repr

/-- `LONG_ROSTER` -/
def LONG_ROSTER : List String :=
  ["phase1", "phase2", "phase3", "phase4", "phase5", "phase6", "overall"]

/-! ## Files -/

structure FileNode where
  isFile : Bool
  reading : Reading

/-- What is at the paths; none where nothing exists. -/
abbrev Disk := String → Option FileNode

/-- The error of a path where nothing is. -/
def NOT_FOUND : String := "No such file or directory (os error 2)"

def Disk.read (disk : Disk) (path : String) : Reading :=
  match disk path with
  | none => .openError NOT_FOUND
  | some node => node.reading

/-- The error of a text that is not UTF-8. -/
def NOT_UTF8 : String := "stream did not contain valid UTF-8"

/-- The digest in hexadecimal, the lines of a buffered reader, the JSON parsers and the quoting of a
string in an error text. Of a file in UTF-8 the reader gives the lines of its text. -/
structure Codec where
  sha256 : ByteArray → String
  bufLines : ByteArray → List (Except String String)
  value : String → Except String Json
  buildReceipt : String → Except String BuildReceipt
  quote : String → String
  bufLines_text : ∀ s : String, bufLines s.toUTF8 = (lines s).map .ok

/-- `fs::read_to_string` -/
def readToString (disk : Disk) (path : String) : Except String String :=
  match disk.read path with
  | .openError e => .error e
  | .readError e => .error e
  | .bytes b =>
    match String.fromUTF8? b with
    | some s => .ok s
    | none => .error NOT_UTF8

/-- `hash_file` -/
def hashFile (codec : Codec) (disk : Disk) (path : String) : Except String String :=
  match disk.read path with
  | .openError e => .error e
  | .readError e => .error e
  | .bytes b => .ok (codec.sha256 b)

end NamPlug.Receipt
