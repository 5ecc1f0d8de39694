import LanguageClient.Text.Blank
import LanguageClient.Text.Utf8

/-!
# `LanguageClient.ChildProcess.Monitor`: the lines of an error stream

A monitor reads what a child writes to its error stream, line by line, so that
the child never waits for a reader. A line ends with a line feed or with the
stream. It is handed on without blanks at its ends, unless nothing is left of
it; a line that is no text ends the monitoring.

- `Monitor.feed`, `Monitor.finish`: bytes arrive, and the stream ends.
- `Monitor.lines`: the lines handed on so far.
-/

set_option autoImplicit false

namespace LanguageClient.ChildProcess

/-- What reads an error stream. -/
structure Monitor where
  /-- Whether someone wants the lines; they are read either way. -/
  reports : Bool
  isReading : Bool := true
  /-- The bytes of the line that has not ended. -/
  partialLine : List UInt8 := []
  /-- The lines handed on so far. -/
  lines : List String := []
  deriving DecidableEq, Repr

namespace Monitor

/-- The byte that ends a line. -/
def lineFeed : UInt8 := 0x0A

/-- Take a whole line. -/
def takeLine (m : Monitor) (line : List UInt8) : Monitor :=
  if ¬m.isReading then m
  else
    match Text.decode? line with
    | none => { m with isReading := false }
    | some text =>
      let line := Text.trim text
      if m.reports ∧ line ≠ [] then { m with lines := m.lines ++ [String.ofList line] } else m

/-- A byte arrives. -/
def feedByte (m : Monitor) (b : UInt8) : Monitor :=
  if b = lineFeed then { m with partialLine := [] }.takeLine m.partialLine
  else { m with partialLine := m.partialLine ++ [b] }

/-- Bytes arrive. -/
def feed (m : Monitor) (bytes : List UInt8) : Monitor := bytes.foldl feedByte m

/-- The stream ends; what stands after the last line feed is a line too. -/
def finish (m : Monitor) : Monitor :=
  let last := { m with partialLine := [] }
  { (if m.partialLine = [] then last else last.takeLine m.partialLine) with isReading := false }

/-- The monitor is stopped. -/
def stop (m : Monitor) : Monitor := { m with isReading := false }

end Monitor

end LanguageClient.ChildProcess
