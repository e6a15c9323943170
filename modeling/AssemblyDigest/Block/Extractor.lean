import AssemblyDigest.Block.Opening

/-! # Collecting blocks

An extractor takes lines one after the other. Outside a block it waits for a line that
opens one. The opening line counts as one open brace, whatever braces it holds; each later
line adds its opening and takes off its closing braces, and the block ends with the line
that brings the count to exactly zero. A block that is still open at the end of the input
ends there.
-/

namespace AssemblyDigest

namespace Block

/-- How many more opening than closing braces a line holds. -/
def balance (line : Text) : Int :=
  (line.count '{' : Int) - (line.count '}' : Int)

/-- A block that is being captured: the count of its open braces and its lines, the latest
line first. -/
structure Capture where
  depth : Int
  reversed : List Text
  deriving DecidableEq, Repr

namespace Capture

/-- The lines captured so far, in source order. -/
def lines (capture : Capture) : List Text :=
  capture.reversed.reverse

/-- The text of the captured lines. -/
def text (capture : Capture) : Text :=
  Text.joinLines capture.lines

/-- A capture that starts with its opening line. -/
def start (line : Text) : Capture where
  depth := 1
  reversed := [line]

/-- A capture after one more line. -/
def push (capture : Capture) (line : Text) : Capture where
  depth := capture.depth + balance line
  reversed := line :: capture.reversed

end Capture

/-- The state between lines: the block being captured, if any, and the texts of the
finished blocks, the latest first. -/
structure Extractor where
  capture : Option Capture
  finished : List Text
  deriving DecidableEq, Repr

namespace Extractor

/-- The extractor that has seen no line. -/
def empty : Extractor where
  capture := none
  finished := []

/-- Whether a block is being captured. -/
def inside (extractor : Extractor) : Bool :=
  extractor.capture.isSome

/-- The count of open braces, zero outside a block. -/
def depth (extractor : Extractor) : Int :=
  match extractor.capture with
  | some capture => capture.depth
  | none => 0

/-- The lines of the block being captured, in source order. -/
def captured (extractor : Extractor) : List Text :=
  match extractor.capture with
  | some capture => capture.lines
  | none => []

/-- Keeps a capture open, or files its text if its braces are closed. -/
def settle (capture : Capture) (finished : List Text) : Extractor :=
  if capture.depth = 0 then ⟨none, capture.text :: finished⟩ else ⟨some capture, finished⟩

/-- The extractor after one more line. -/
def push (extractor : Extractor) (line : Text) : Extractor :=
  match extractor.capture with
  | some capture => settle (capture.push line) extractor.finished
  | none => if opens line then ⟨some (Capture.start line), extractor.finished⟩ else extractor

/-- The texts of all blocks in source order, an open one included. -/
def finish (extractor : Extractor) : List Text :=
  match extractor.capture with
  | some capture => (capture.text :: extractor.finished).reverse
  | none => extractor.finished.reverse

end Extractor

/-- The texts of the blocks in a list of lines. -/
def extract (lines : List Text) : List Text :=
  (lines.foldl Extractor.push Extractor.empty).finish

/-- The texts of the blocks in a text. -/
def extractText (text : Text) : List Text :=
  extract (Text.lines text)

end Block

end AssemblyDigest
