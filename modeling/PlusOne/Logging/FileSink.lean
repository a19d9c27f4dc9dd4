import Mathlib.Data.List.AList
import PlusOne.Logging.Envelopes
import PlusOne.Patterns.Classes
import PlusOne.Patterns.Sequence

/-! # The rotating file sink

One line for each record in the active file. A file that would grow too large moves to the first numbered
backup, and a file that a write may have torn, or that start-up does not know, moves aside. -/

namespace PlusOne

open Files Patterns

/-! ## Files -/

inductive PreservedKind
  | legacy | mixed | corrupt | torn
  deriving DecidableEq

def PreservedKind.text : PreservedKind → String
  | legacy => "legacy"
  | mixed => "mixed"
  | corrupt => "corrupt"
  | torn => "partial"

/-- The paths a sink makes of its own: `path`, `path.index`, and `path.kind-suffix`. -/
inductive SinkPath
  | active
  | backup (index : ℕ)
  | preserved (kind : PreservedKind) (suffix : String)
  deriving DecidableEq

/-- What is under the paths of a sink. -/
abbrev SinkFiles (C : Type) := AList fun _ : SinkPath => C

namespace SinkFiles

variable {C : Type} (d : SinkFiles C)

/-- `pathExists` -/
def pathExists (path : SinkPath) : Bool := (d.lookup path).isSome

/-- `unlink` -/
def unlink (path : SinkPath) : SinkFiles C := d.erase path

/-- `rename`, which takes the place of what was at the target. -/
def rename (source target : SinkPath) : SinkFiles C :=
  match d.lookup source with
  | some content => (d.erase source).insert target content
  | none => d

/-- `ensureActive`, which makes a file when there is none. -/
def ensureActive (fresh : C) : SinkFiles C := if d.pathExists .active then d else d.insert .active fresh

/-- The loop of `rotateIfNeeded` from an index down to one. -/
def shiftBackups (backupCount : ℕ) : ℕ → SinkFiles C → SinkFiles C
  | 0, d => d
  | index + 1, d =>
    if d.pathExists (.backup (index + 1)) then
      let d' := if index + 2 = backupCount ∧ d.pathExists (.backup (index + 2)) then d.unlink (.backup (index + 2)) else d
      shiftBackups backupCount index (d'.rename (.backup (index + 1)) (.backup (index + 2)))
    else shiftBackups backupCount index d

/-- `rotateIfNeeded` once the file is too large. -/
def rotate (backupCount : ℕ) (fresh : C) : SinkFiles C :=
  if backupCount = 0 then (d.unlink .active).ensureActive fresh
  else
    let shifted := d.shiftBackups backupCount (backupCount - 1)
    let cleared := if shifted.pathExists (.backup 1) then shifted.unlink (.backup 1) else shifted
    (cleared.rename .active (.backup 1)).ensureActive fresh

/-- Put bytes behind those of the active file. -/
def append (add : C → C) : SinkFiles C :=
  match d.lookup .active with
  | some content => d.insert .active (add content)
  | none => d

end SinkFiles

/-! ## The sink -/

structure FileSinkOptions where
  maxBytes : ℕ
  backupCount : ℕ

structure FileSink where
  files : SinkFiles Bytes
  initialized : Bool
  uncertain : Bool

namespace FileSink

/-- `LEGACY_LINE_PATTERN` for one of its severities. -/
def legacyPieces (severity : String) : List (Piece ℕ) :=
  [.many isDigit 4 (some 4), .lit 45, .many isDigit 2 (some 2), .lit 45, .many isDigit 2 (some 2),
    .one fun unit => unit == 32 || unit == 84, .many isDigit 2 (some 2), .lit 58, .many isDigit 2 (some 2), .lit 58,
    .many isDigit 2 (some 2), .lit 46, .many isDigit 3 (some 3), .many isSpace 1 none] ++
    (codeUnits severity).map Piece.lit ++ [.one isSpace]

/-- `LEGACY_LINE_PATTERN.test(line)` -/
def isLegacyLine (line : String) : Bool :=
  ["DEBUG", "INFO", "WARN", "WARNING", "ERROR"].any fun severity =>
    (matchAt (legacyPieces severity) none (codeUnits line)).isSome

/-- `timestampSuffix` -/
def timestampSuffix (F : LogFormats) (now : ℕ) : String :=
  (F.toISOString now).map fun c => if c = ':' ∨ c = '.' then '-' else c

/-- `preserveActive` -/
def preserveActive (F : LogFormats) (kind : PreservedKind) (now : ℕ) (files : SinkFiles Bytes) : SinkFiles Bytes :=
  if files.pathExists .active then files.rename .active (.preserved kind (timestampSuffix F now)) else files

/-- The kind `migrateActive` gives a file, unless it leaves it. -/
def migratedKind (F : LogFormats) (content : Bytes) : Option PreservedKind :=
  let lines := ((splitLines '\n' (F.decodeUtf8 content).toList).map String.ofList).filter fun line => line ≠ ""
  if lines.all fun line => (parseLogEnvelope F line).isSome then none
  else if lines.all isLegacyLine then some .legacy
  else if (lines.any fun line => (parseLogEnvelope F line).isSome) || lines.any isLegacyLine then some .mixed
  else some .corrupt

def migrateActive (F : LogFormats) (now : ℕ) (files : SinkFiles Bytes) : SinkFiles Bytes :=
  match files.lookup .active with
  | none => files
  | some content =>
    match migratedKind F content with
    | none => files
    | some kind => preserveActive F kind now files

def ensureReady (F : LogFormats) (now : ℕ) (s : FileSink) : FileSink :=
  if s.uncertain then ⟨(preserveActive F .torn now s.files).ensureActive [], true, false⟩
  else if !s.initialized then ⟨(migrateActive F now s.files).ensureActive [], true, false⟩
  else s

/-- Whether `rotateIfNeeded` rotates. -/
def rotates (O : FileSinkOptions) (nextBytes : ℕ) (files : SinkFiles Bytes) : Bool :=
  match files.lookup .active with
  | none => false
  | some content => decide (O.maxBytes < content.length + nextBytes)

def rotateIfNeeded (O : FileSinkOptions) (nextBytes : ℕ) (files : SinkFiles Bytes) : SinkFiles Bytes :=
  if rotates O nextBytes files then files.rotate O.backupCount [] else files.ensureActive []

/-- What becomes of an append: all of its bytes are there, or it fails and has left some of them. -/
inductive AppendOutcome
  | appended
  | failed (written : ℕ)

/-- What `write` does once the sink is ready, and whether it resolves. -/
def writeReady (F : LogFormats) (O : FileSinkOptions) (record : LogEnvelopeV1) (outcome : AppendOutcome)
    (ready : FileSink) : FileSink × Bool :=
  match serializeLogEnvelope F record with
  | none => (ready, false)
  | some line =>
    let files := rotateIfNeeded O line.length ready.files
    match outcome with
    | .appended => ({ ready with files := files.append (· ++ line) }, true)
    | .failed written => ({ ready with files := files.append (· ++ line.take written), uncertain := true }, false)

/-- `write` -/
def write (F : LogFormats) (O : FileSinkOptions) (record : LogEnvelopeV1) (now : ℕ) (outcome : AppendOutcome)
    (s : FileSink) : FileSink × Bool :=
  writeReady F O record outcome (ensureReady F now s)

/-- A process that starts knows nothing of the one before it. -/
def restart (s : FileSink) : FileSink := { s with initialized := false, uncertain := false }

def initial : FileSink := ⟨∅, false, false⟩

end FileSink

end PlusOne
