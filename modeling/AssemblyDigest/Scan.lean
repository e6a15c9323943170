import AssemblyDigest.Block.Extractor
import AssemblyDigest.Receiver
import AssemblyDigest.Report
import AssemblyDigest.Scope.Search

/-! # Scanning a workspace

A scan resolves the scope of a workspace, reads its source files one after the other, and
collects the assembly blocks of each in a report. Bytes that are not UTF-8 do not stop a
scan; a file that cannot be read does.
-/

namespace AssemblyDigest

/-- The numbers of a scan. -/
structure Stats where
  filesScanned : Nat
  filesWithSnippets : Nat
  snippetsWritten : Nat
  /-- The path of the scope declaration. -/
  scopeFile : Option Text
  deriving DecidableEq, Repr

namespace Stats

/-- The numbers before the first file. -/
def start (scopeFile : Option Text) : Stats where
  filesScanned := 0
  filesWithSnippets := 0
  snippetsWritten := 0
  scopeFile := scopeFile

/-- The numbers after one more file with the given snippets. -/
def count (stats : Stats) (snippets : List Text) : Stats :=
  if snippets.isEmpty then { stats with filesScanned := stats.filesScanned + 1 }
  else
    { stats with
      filesScanned := stats.filesScanned + 1
      filesWithSnippets := stats.filesWithSnippets + 1
      snippetsWritten := stats.snippetsWritten + snippets.length }

end Stats

/-- What a scan ends with. -/
inductive Outcome where
  /-- The scope holds no source file. -/
  | noFiles (scopeFile : Option Text)
  /-- At least one file was scanned; the report may still be empty. -/
  | report (report : Report) (stats : Stats)
  deriving DecidableEq, Repr

namespace Scan

/-- The text of a source file. -/
def readSource (volume : Volume) (path : Text) : Except Fault Text :=
  match volume.read path with
  | .ok bytes => .ok (Utf8.decodeLossy bytes)
  | .error cause => .error (.access path cause)

/-- The report and the numbers after scanning files. -/
def files (volume : Volume) : List Text → Report → Stats → Except Fault (Report × Stats)
  | [], report, stats => .ok (report, stats)
  | path :: rest, report, stats => do
      let text ← readSource volume path
      let snippets := Block.extractText text
      files volume rest (report.push path snippets) (stats.count snippets)

/-- Scans a workspace. -/
def workspace (volume : Volume) (root : Text) (options : Options) : Except Fault Outcome := do
  let scope ← Scope.resolve volume root options
  if scope.files.isEmpty then .ok (.noFiles scope.declarationPath)
  else
    let (report, stats) ← files volume scope.files .empty (.start scope.declarationPath)
    .ok (.report report stats)

/-- What was written of a report, and how the writing ended: with the numbers of the scan,
with nothing to write, or with a fault. -/
structure Written where
  bytes : Bytes
  result : Except Fault (Option Stats)

/-- The path by which faults name the receiver of a report. -/
def receiverPath : Text := "<report output>".toList

/-- Writes bytes to a receiver. If it does not take all of them, that is a fault. -/
def emit (receiver : Receiver) (bytes : Bytes) (stats : Stats) : Written :=
  let sent := receiver.send bytes
  ⟨sent.taken,
    if sent.complete then .ok (some stats) else .error (.access receiverPath .outputFull)⟩

/-- Scans a workspace and writes the report to a receiver. -/
def writeTo (volume : Volume) (root : Text) (receiver : Receiver) (options : Options) : Written :=
  match workspace volume root options with
  | .error fault => ⟨[], .error fault⟩
  | .ok (.noFiles _) => ⟨[], .ok none⟩
  | .ok (.report report stats) => emit receiver (Utf8.encode (report.render options)) stats

/-- Scans a workspace and writes the report to a receiver with limited room, or without a
limit. -/
def write (volume : Volume) (root : Text) (room : Option Nat) (options : Options) : Written :=
  writeTo volume root (.ofRoom room) options

end Scan

end AssemblyDigest
