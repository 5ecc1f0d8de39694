import LanguageClient.Notice
import LanguageClient.Text.Decoder
import LanguageClient.Text.Numeral

/-!
# `LanguageClient.Stream`: text over a pair of byte streams

A stream has a writer, which takes one queued text after another, and a reader,
which decodes what arrives and queues it as chunks. Both go on by themselves, in
steps whose outcome the other end decides. Closing lets the writer finish its
queue and then ends the outgoing stream; the reader stops at once.

- `Stream.send`, `Stream.take`, `Stream.close`: what the owner does.
- `Stream.write`: the writer's step.
- `Stream.deliver`, `Stream.finish`, `Stream.breakOff`: the reader's steps.
- `Stream.arrive`, `Stream.drain`, `Stream.takeAll`, `Stream.takeSize`: steps
  taken while there are some to take.
-/

set_option autoImplicit false

namespace LanguageClient

/-- Why an operation on a stream fails. -/
inductive StreamError where
  /-- The stream has been closed or has ended. -/
  | disconnected
  /-- The writer has failed. -/
  | writerGone
  deriving DecidableEq, Repr

/-- The text of a failure. -/
def StreamError.message : StreamError → String
  | .disconnected => "Transport is disconnected"
  | .writerGone => "Channel error: channel closed"

/-- What a writer is doing. -/
inductive Writer where
  | running
  /-- A write has failed; what was queued is lost. -/
  | failed
  /-- The queue was written out and the outgoing stream ended. -/
  | finished
  deriving DecidableEq, Repr

/-- A stream of text in both directions. -/
structure Stream where
  /-- Whether the owner may still use the stream. -/
  connected : Bool := true
  /-- Whether the owner has not closed it. -/
  isOpen : Bool := true
  writer : Writer := .running
  /-- The texts that wait to be written. -/
  outgoing : List (List Char) := []
  /-- The texts that have been written, in order. -/
  written : List (List Char) := []
  reading : Bool := true
  decoder : Text.Decoder := {}
  /-- The chunks that have been decoded and not been taken. -/
  incoming : List (List Char) := []
  deriving DecidableEq, Repr

namespace Stream

/-! ### The owner -/

/-- Queue a text for the writer. -/
def send (s : Stream) (text : List Char) : Except StreamError Stream :=
  if ¬s.connected then .error .disconnected
  else if s.writer ≠ .running then .error .writerGone
  else .ok { s with outgoing := s.outgoing ++ [text] }

/-- What can be taken from a stream. -/
inductive Taken where
  | chunk (text : List Char)
  /-- There is nothing yet. -/
  | waiting
  /-- There will be nothing more. -/
  | ended
  deriving DecidableEq, Repr

/-- Take the next chunk. A stream that has ended is disconnected once its end is
seen. -/
def take (s : Stream) : Taken × Stream :=
  if ¬s.connected then (.ended, s)
  else
    match s.incoming with
    | chunk :: rest => (.chunk chunk, { s with incoming := rest })
    | [] => if s.reading then (.waiting, s) else (.ended, { s with connected := false })

/-- Close the stream: the reader stops, and the writer finishes its queue. -/
def close (s : Stream) : Stream :=
  { s with connected := false, isOpen := false, reading := false, incoming := [] }

/-! ### The writer -/

/-- The notice of a failed write. -/
def writeFailed (cause : String) : Notice := ⟨.error, "Failed to write to stream: " ++ cause⟩

/-- One step of the writer: write a text, or end the stream once it is closed and
nothing is queued. `refusal` is why the other end takes nothing, if it does not;
an empty text is written all the same. -/
def write (s : Stream) (refusal : Option String) : Stream × List Notice :=
  match s.writer, s.outgoing with
  | .running, text :: rest =>
    match refusal, text with
    | some cause, _ :: _ =>
      ({ s with writer := .failed, outgoing := [] }, [writeFailed cause])
    | _, text => ({ s with outgoing := rest, written := s.written ++ [text] }, [])
  | .running, [] => (if s.isOpen then s else { s with writer := .finished }, [])
  | _, _ => (s, [])

/-- Whether the writer has something to do. -/
def canWrite (s : Stream) : Bool :=
  s.writer == .running && (!s.outgoing.isEmpty || !s.isOpen)

/-! ### The reader -/

/-- A number as it stands in a text. -/
def numeral (n : Nat) : String := String.ofList (Text.decimal n)

/-- The notice that invalid bytes were replaced. -/
def replaced (n : Nat) : Notice :=
  ⟨.warning, "StreamTransport: replacing " ++ numeral n ++ " invalid UTF-8 byte(s) from stream"⟩

/-- The notice that the stream ended inside a character. -/
def incomplete (n : Nat) : Notice :=
  ⟨.error, "StreamTransport: " ++ numeral n ++ " incomplete bytes remaining at EOF"⟩

/-- The notice of a failed read. -/
def readFailed (cause : String) : Notice := ⟨.error, "Failed to read from stream: " ++ cause⟩

/-- What is said about a piece. -/
def pieceNotices : Text.Piece → List Notice
  | .text _ => []
  | .damage bytes => [replaced bytes.length]

/-- Bytes arrive: every piece they complete is a chunk. -/
def deliver (s : Stream) (portion : List UInt8) : Stream × List Notice :=
  if s.reading then
    let (pieces, decoder) := s.decoder.push portion
    ({ s with decoder, incoming := s.incoming ++ pieces.map Text.Piece.chars },
      pieces.flatMap pieceNotices)
  else (s, [])

/-- The incoming stream ends. Bytes that begin a character are lost. -/
def finish (s : Stream) : Stream × List Notice :=
  if s.reading then
    ({ s with reading := false },
      if s.decoder.buffer.isEmpty then [] else [incomplete s.decoder.buffer.length])
  else (s, [])

/-- Reading fails. -/
def breakOff (s : Stream) (cause : String) : Stream × List Notice :=
  if s.reading then ({ s with reading := false }, [readFailed cause]) else (s, [])

/-! ### Many steps -/

/-- How many bytes are read at once. -/
def readSize : Nat := 4096

/-- Cut bytes into at most `fuel` portions that are read at once. -/
def portionsFuel : Nat → List UInt8 → List (List UInt8)
  | 0, _ => []
  | _, [] => []
  | fuel + 1, bytes => bytes.take readSize :: portionsFuel fuel (bytes.drop readSize)

/-- The portions in which bytes are read. There are no more portions than
bytes. -/
def portions (bytes : List UInt8) : List (List UInt8) := portionsFuel bytes.length bytes

/-- Bytes arrive, portion by portion. -/
def arrive (s : Stream) (bytes : List UInt8) : Stream :=
  (portions bytes).foldl (fun s portion => (s.deliver portion).1) s

/-- Let the writer go on, at most `fuel` steps. -/
def drainFuel (refusal : Option String) : Nat → Stream → Stream
  | 0, s => s
  | fuel + 1, s => if s.canWrite then drainFuel refusal fuel (s.write refusal).1 else s

/-- Let the writer go on until it has nothing to do: it writes what is queued
and then perhaps ends. -/
def drain (s : Stream) (refusal : Option String) : Stream :=
  drainFuel refusal (s.outgoing.length + 1) s

/-- Take up to `fuel` chunks, and say whether the end was seen. -/
def takeFuel : Nat → Stream → List (List Char) × Bool × Stream
  | 0, s => ([], false, s)
  | fuel + 1, s =>
    match s.take with
    | (.chunk chunk, s) =>
      let (chunks, ended, s) := takeFuel fuel s
      (chunk :: chunks, ended, s)
    | (.waiting, s) => ([], false, s)
    | (.ended, s) => ([], true, s)

/-- Take every chunk that is there, and say whether the end was seen. -/
def takeAll (s : Stream) : List (List Char) × Bool × Stream :=
  takeFuel (s.incoming.length + 1) s

/-- Take up to `fuel` chunks until they hold `size` bytes of text. -/
def takeSizeFuel (size : Nat) : Nat → Stream → List Char → List Char × Bool × Stream
  | 0, s, text => (text, false, s)
  | fuel + 1, s, text =>
    if size ≤ Text.byteLength text then (text, false, s)
    else
      match s.take with
      | (.chunk chunk, s) => takeSizeFuel size fuel s (text ++ chunk)
      | (.waiting, s) => (text, false, s)
      | (.ended, s) => (text, true, s)

/-- Take chunks until they hold `size` bytes of text, and say whether the end was
seen. -/
def takeSize (s : Stream) (size : Nat) : List Char × Bool × Stream :=
  takeSizeFuel size (s.incoming.length + 1) s []

end Stream

end LanguageClient
