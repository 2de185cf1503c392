import Mathlib.Data.List.Infix
import NamPlug.Lib.Probe
import NamPlug.Lib.Text
import NamPlug.Plugin.Payload

/-!
# Asset files

What a restore does with the file system (`extensions/state_transaction/validate.rs`): the digest
of a file, the search directories and the candidate of a directory. Each call into the file system
is one look, and the file system may be another one at the next; a file is opened and read to its
end in one look, as what is opened stays what it is.
-/

namespace NamPlug

open Text

/-! ## The file system -/

/-- `fs::Metadata`. There is no time where the platform has none. -/
structure Metadata where
  isFile : Bool
  isDir : Bool
  len : Nat
  modified : Option Nat
  deriving DecidableEq, Repr

/-- The outcome of `create_new`. -/
inductive Creation where
  | created
  | alreadyExists
  | failed (e : String)
  deriving DecidableEq, Repr

/-- What the calls give at one instant. The metadata are those of what a link points to. -/
structure FileSystem where
  metadata : Path → Except String Metadata
  reading : Path → Reading
  canonicalize : Path → Option Path
  createNew : Path → Creation
  writeAll : Path → ByteArray → Except String Unit

/-- `Path::exists` -/
def FileSystem.has (F : FileSystem) (path : Path) : Bool := (F.metadata path).isOk

/-- `Path::is_dir` -/
def FileSystem.isDir (F : FileSystem) (path : Path) : Bool :=
  match F.metadata path with
  | .ok m => m.isDir
  | .error _ => false

/-- `Path::join` with one name. -/
def Path.join (p : Path) (name : String) : Path := { p with names := p.names ++ [name] }

/-- `Path::starts_with` -/
def Path.startsWith (p base : Path) : Bool :=
  p.absolute == base.absolute && base.names.isPrefixOf p.names

/-- `Path::new` of a text without separators; a lone dot is no name. -/
def Path.ofName (name : String) : Path := ⟨false, if name = "." then [] else [name]⟩

/-! ## Digests -/

/-- `MAX_FILE_HASH_SIZE` -/
@[irreducible] def MAX_FILE_HASH_SIZE : Nat := 256 * 1024 * 1024

def HASH_METADATA_FAILED : String :=
  "Failed to read file metadata while computing the asset SHA-256"

def HASH_TARGET_NOT_REGULAR_FILE : String := "Asset is not a regular file"

def HASH_FILE_TOO_LARGE : String := "Asset file exceeds the maximum size allowed for SHA-256 hashing"

def HASH_OPEN_FAILED : String := "Failed to open asset file for SHA-256 hashing"

def HASH_READ_FAILED : String := "Failed to read asset file while computing the SHA-256"

def HASH_STREAM_TOO_LARGE : String :=
  "Asset stream exceeded the maximum size allowed for SHA-256 hashing"

/-- A regular file of at most `MAX_FILE_HASH_SIZE` bytes, read to its end; `tooLong` where it is
longer than its metadata said. The error is the code of `static_plugin_error`. -/
def readBounded (tooLong : String) (path : Path) : Probe FileSystem String ByteArray := do
  let metadata ← .ask fun F => (F.metadata path).mapError fun _ => HASH_METADATA_FAILED
  if !metadata.isFile then .fail HASH_TARGET_NOT_REGULAR_FILE
  else if MAX_FILE_HASH_SIZE < metadata.len then .fail HASH_FILE_TOO_LARGE
  else
    let data ← .ask fun F => match F.reading path with
      | .openError _ => .error HASH_OPEN_FAILED
      | .readError _ => .error HASH_READ_FAILED
      | .bytes b => .ok b
    if MAX_FILE_HASH_SIZE < data.size then .fail tooLong else pure data

/-- `compute_file_hash`, where `sha256` gives the digest in lower-case hexadecimal. -/
def computeFileHash (sha256 : ByteArray → String) (path : Path) :
    Probe FileSystem String String := do
  let data ← readBounded HASH_STREAM_TOO_LARGE path
  pure (sha256 data)

/-- `read_ir_file_bytes` -/
def readIrFileBytes (path : Path) : Probe FileSystem String ByteArray :=
  readBounded HASH_FILE_TOO_LARGE path

/-- `u8::is_ascii_hexdigit` -/
def isAsciiHexdigit (c : Char) : Bool :=
  ('0' ≤ c && c ≤ '9') || ('a' ≤ c && c ≤ 'f') || ('A' ≤ c && c ≤ 'F')

/-- `is_valid_sha256_hex`. The source counts bytes, which are the characters of a text of
hexadecimal digits. -/
def isValidSha256Hex (digest : String) : Bool :=
  digest.toList.length == 64 && digest.toList.all isAsciiHexdigit

/-- `str::eq_ignore_ascii_case` -/
def eqIgnoreAsciiCase (a b : String) : Bool := a.toList.map Char.toLower == b.toList.map Char.toLower

/-! ## Search -/

/-- `canonical_search_dirs`: those of the home directory that are there. -/
def canonicalSearchDirs {ε : Type} (home : Option Path) : Probe FileSystem ε (List Path) :=
  match home with
  | none => pure []
  | some home => do
    let models := (home.join ".nam").join "models"
    let found ← .ask fun F => .ok (F.isDir models)
    let other := home.join "NAM Models"
    let foundOther ← .ask fun F => .ok (F.isDir other)
    pure ((if found then [models] else []) ++ (if foundOther then [other] else []))

/-- `sanitize_basename` -/
def sanitizeBasename (rawName : String) : Option String :=
  if rawName = "" ∨ '/' ∈ rawName.toList ∨ '\\' ∈ rawName.toList ∨
      ['.', '.'] <:+: rawName.toList ∨ Char.ofNat 0 ∈ rawName.toList then
    none
  else
    match (Path.ofName rawName).fileName with
    | none => none
    | some fileName => if fileName = rawName then some fileName else none

/-- `resolve_confined_candidate` -/
def resolveConfinedCandidate {ε : Type} (dir : Path) (cleanBasename : String) :
    Probe FileSystem ε (Option Path) := do
  match ← .ask fun F => .ok (F.canonicalize dir) with
  | none => pure none
  | some dirCanon =>
    let candidate := dirCanon.join cleanBasename
    if ← .ask fun F => .ok (F.has candidate) then
      match ← .ask fun F => .ok (F.canonicalize candidate) with
      | none => pure none
      | some candCanon => pure (if candCanon.startsWith dirCanon then some candCanon else none)
    else pure none

end NamPlug
