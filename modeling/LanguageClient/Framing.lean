import LanguageClient.Text.Blank
import LanguageClient.Text.Numeral
import LanguageClient.Text.Split
import LanguageClient.Text.Utf8

/-!
# `LanguageClient.Framing`: messages in a stream of text

A message travels as a header block, an empty line and a body. The header says
how many bytes the UTF-8 form of the body has. The stream arrives in chunks that
are cut anywhere; the framing keeps what is not yet a whole message, and queues
the messages that a chunk completes until they are asked for.

- `contentLength`: the length that a header block names.
- `nextFrame`: the first message of a text and what follows it.
- `Framing.push`: add a chunk; a fault leaves the faulty text in front.
- `Framing.receive`: the next message, from the queue or from further chunks.
- `frame`: the written form of a message.
-/

set_option autoImplicit false

namespace LanguageClient

/-- Why a text is no sequence of frames. -/
inductive FramingError where
  | missingLength
  /-- The length ends inside a character. -/
  | splitsCharacter (length : Nat)
  | invalidLength (value : String)
  | messageTooLarge (size : Nat)
  deriving DecidableEq, Repr

namespace Framing

/-- The largest body, in bytes. -/
def maxSize : Nat := 16 * 1024 * 1024

end Framing

/-- A number as it stands in a text. -/
def FramingError.numeral (n : Nat) : String := String.ofList (Text.decimal n)

/-- The text of a fault. -/
def FramingError.message : FramingError → String
  | .missingLength => "Invalid LSP message format: Missing Content-Length header"
  | .splitsCharacter n =>
    "Invalid LSP message format: Content-Length " ++ numeral n ++ " splits a UTF-8 character"
  | .invalidLength value => "Invalid content length: " ++ value
  | .messageTooLarge n =>
    "Message too large: " ++ numeral n ++ " bytes (max: " ++ numeral Framing.maxSize ++ ")"

/-! ### Header blocks -/

namespace Framing

/-- The name of the header that counts, in lower case. -/
def lengthName : List Char := "content-length".toList

/-- The value of a header line, if it is the one that names the length. -/
def lengthValue? (line : List Char) : Option (List Char) :=
  match Text.splitFirst? ':' line with
  | some (name, value) =>
    if (Text.trim name).map Char.toLower = lengthName then some (Text.trim value) else none
  | none => none

/-- The length that a header block names: the first line with the right name
counts. -/
def contentLength (header : List Char) : Except FramingError Nat :=
  match (Text.splitCrLf header).findSome? lengthValue? with
  | none => .error .missingLength
  | some value =>
    match Text.readUnsigned Text.maxWord64 value with
    | none => .error (.invalidLength (String.ofList value))
    | some n => if maxSize < n then .error (.messageTooLarge n) else .ok n

/-- A header block and what follows the empty line after it. -/
def splitHeader? : List Char → Option (List Char × List Char)
  | '\r' :: '\n' :: '\r' :: '\n' :: s => some ([], s)
  | c :: s => (splitHeader? s).map fun (header, rest) => (c :: header, rest)
  | [] => none

/-! ### Bodies -/

/-- Where a number of bytes ends in a text. -/
inductive Cut where
  /-- Between two characters. -/
  | between (before after : List Char)
  /-- Inside a character. -/
  | inside
  /-- Behind the end of the text. -/
  | beyond
  deriving DecidableEq, Repr

/-- Cut a text after a number of bytes; `before` is what was passed already, last
character first. -/
def cutFrom (before : List Char) : Nat → List Char → Cut
  | 0, s => .between before.reverse s
  | _ + 1, [] => .beyond
  | n + 1, c :: s =>
    if c.utf8Size ≤ n + 1 then cutFrom (c :: before) (n + 1 - c.utf8Size) s else .inside

/-- Cut a text after a number of bytes. -/
def cutBytes (n : Nat) (s : List Char) : Cut := cutFrom [] n s

/-- The first message of a text and what follows it; `none` if it is not
complete. -/
def nextFrame (s : List Char) : Except FramingError (Option (List Char × List Char)) :=
  match splitHeader? s with
  | none => .ok none
  | some (header, rest) => do
    let n ← contentLength header
    match cutBytes n rest with
    | .between body rest => pure (some (body, rest))
    | .inside => .error (.splitsCharacter n)
    | .beyond => pure none

/-- The written form of a message. -/
def frame (message : List Char) : List Char :=
  "Content-Length: ".toList ++ Text.decimal (Text.byteLength message)
    ++ ['\r', '\n', '\r', '\n'] ++ message

end Framing

/-! ### Receiving -/

/-- The text that is not yet a whole message, and the messages nobody has asked
for. -/
structure Framing where
  buffer : List Char := []
  queue : List (List Char) := []
  deriving DecidableEq, Repr

namespace Framing

/-- Move whole messages from the buffer to the queue, at most `fuel` of them. A
fault ends it and leaves the faulty text in the buffer. -/
def splitOff : Nat → Framing → Option FramingError × Framing
  | 0, f => (none, f)
  | fuel + 1, f =>
    match nextFrame f.buffer with
    | .ok none => (none, f)
    | .ok (some (message, rest)) =>
      splitOff fuel { buffer := rest, queue := f.queue ++ [message] }
    | .error e => (some e, f)

/-- Add a chunk and queue the messages it completes. A message takes at least
one character, so there are no more messages than characters. -/
def push (f : Framing) (chunk : List Char) : Option FramingError × Framing :=
  let f := { f with buffer := f.buffer ++ chunk }
  splitOff f.buffer.length f

/-- How an attempt to receive a message ends. -/
inductive Reception where
  | message (body : List Char)
  | failed (e : FramingError)
  /-- There is no whole message in the queue and the chunks. -/
  | exhausted
  deriving DecidableEq, Repr

/-- Receive a message: the first one of the queue, else one out of further
chunks. What is left of the chunks comes back. -/
def receive (f : Framing) : List (List Char) → Reception × Framing × List (List Char)
  | [] =>
    match f.queue with
    | body :: queue => (.message body, { f with queue }, [])
    | [] => (.exhausted, f, [])
  | chunk :: chunks =>
    match f.queue with
    | body :: queue => (.message body, { f with queue }, chunk :: chunks)
    | [] =>
      match f.push chunk with
      | (some e, f) => (.failed e, f, chunks)
      | (none, f) => receive f chunks

end Framing

end LanguageClient
