import LanguageClient.FileTree
import LanguageClient.Text.Numeral

/-!
# `LanguageClient.Scripted.Command`: what small commands do

A child process that runs a small command does a few things one after another:
it writes, copies its input, or pauses. The commands are `cat`, `echo`,
`printf`, `pwd`, `sleep`, `true`, `false`, and `sh -c` with a list of them; in a
list, output may be sent to the error stream or nowhere.

- `Act`: what a child does.
- `Words.split`: the words and operators of a list of commands.
- `Command.acts?`: what a command does.
- `Command.spawn`: what comes of starting a command in a directory.
-/

set_option autoImplicit false

namespace LanguageClient.Scripted

/-- Where a child writes. -/
inductive Outlet where
  | output
  | error
  | nowhere
  deriving DecidableEq, Repr

/-- What a child does. -/
inductive Act where
  | write (outlet : Outlet) (bytes : List UInt8)
  /-- Copy the input until it ends. -/
  | copyInput (outlet : Outlet)
  | pause (milliseconds : Nat)
  deriving DecidableEq, Repr

/-- A pause that someone who waits for the child would sit out. -/
def Act.shortPause : Nat := 1000

/-! ### Words -/

/-- A word of a list of commands, or an operator. -/
inductive Token where
  | word (text : List Char)
  /-- A semicolon, or the end of a line. -/
  | next
  /-- Go on only if the command before has succeeded, or only if it has not. -/
  | nextIf (success : Bool)
  /-- Send the output elsewhere. -/
  | redirect (outlet : Outlet)
  deriving DecidableEq, Repr

namespace Words

/-- How far a reader is: in a word or between two, and inside which quotes. -/
structure Reader where
  tokens : List Token := []
  word : Option (List Char) := none
  quote : Option Char := none
  escaped : Bool := false
  deriving DecidableEq, Repr

/-- Put a character into the word. -/
def Reader.put (r : Reader) (c : Char) : Reader :=
  { r with word := some (r.word.getD [] ++ [c]), escaped := false }

/-- The word has ended. -/
def Reader.finishWord (r : Reader) : Reader :=
  match r.word with
  | some w => { r with tokens := r.tokens ++ [.word w], word := none }
  | none => r

/-- Add an operator, which also ends a word. -/
def Reader.operator (r : Reader) (t : Token) : Reader :=
  let r := r.finishWord
  { r with tokens := r.tokens ++ [t] }

/-- Read a character inside quotes. Between double quotes a backslash keeps its
place unless it stands in front of one of four characters. -/
def Reader.quoted (r : Reader) (q c : Char) : Reader :=
  if r.escaped then
    if c == '"' || c == '\\' || c == '$' || c == '\x60' then r.put c else (r.put '\\').put c
  else if c = q then { r with quote := none, word := some (r.word.getD []) }
  else if c = '\\' ∧ q = '"' then { r with escaped := true }
  else r.put c

/-- Read a character outside quotes. -/
def Reader.plain (r : Reader) (c : Char) : Reader :=
  if r.escaped then r.put c
  else if c = '\\' then { r with escaped := true }
  else if c = '\x27' ∨ c = '"' then { r with quote := some c, word := some (r.word.getD []) }
  else if c = ';' ∨ c = '\n' then r.operator .next
  else if c = ' ' ∨ c = '\t' then r.finishWord
  else r.put c

/-- Read a character. -/
def Reader.read (r : Reader) (c : Char) : Reader :=
  match r.quote with
  | some q => r.quoted q c
  | none => r.plain c

/-- A word that is an operator by itself. -/
def operator? (word : List Char) : Option Token :=
  if word = "&&".toList then some (.nextIf true)
  else if word = "||".toList then some (.nextIf false)
  else if word = ">&2".toList ∨ word = "1>&2".toList then some (.redirect .error)
  else if word = ">/dev/null".toList then some (.redirect .nowhere)
  else none

/-- The words and operators of a list of commands. -/
def split (s : List Char) : List Token :=
  (s.foldl Reader.read {}).finishWord.tokens.map fun t =>
    match t with
    | .word w => (operator? w).getD t
    | t => t

end Words

/-! ### Texts with escapes -/

/-- The value of an octal digit. -/
def octalValue? (c : Char) : Option Nat :=
  if '0' ≤ c ∧ c ≤ '7' then some (Text.digitValue c) else none

/-- Read up to `most` octal digits after those that make `value`. -/
def readOctal : Nat → Nat → List Char → Nat × List Char
  | 0, value, s => (value, s)
  | _, value, [] => (value, [])
  | most + 1, value, c :: s =>
    match octalValue? c with
    | some d => readOctal most (8 * value + d) s
    | none => (value, c :: s)

/-- The character that a letter after a backslash stands for. -/
def escapeValue? (c : Char) : Option UInt8 :=
  match c with
  | 'a' => some 0x07
  | 'b' => some 0x08
  | 't' => some 0x09
  | 'n' => some 0x0A
  | 'v' => some 0x0B
  | 'f' => some 0x0C
  | 'r' => some 0x0D
  | '\\' => some 0x5C
  | _ => none

/-- The bytes of a text with escapes, at most `fuel` characters long. -/
def unescapeFuel : Nat → List Char → List UInt8
  | 0, _ => []
  | _, [] => []
  | fuel + 1, '\\' :: c :: s =>
    match escapeValue? c, octalValue? c with
    | some b, _ => b :: unescapeFuel fuel s
    | none, some d =>
      let (value, s) := readOctal 2 d s
      UInt8.ofNat value :: unescapeFuel fuel s
    | none, none => 0x5C :: Text.encode [c] ++ unescapeFuel fuel s
  | fuel + 1, c :: s => Text.encode [c] ++ unescapeFuel fuel s

/-- The bytes of a text with escapes. -/
def unescape (s : List Char) : List UInt8 := unescapeFuel s.length s

/-- A format with its places filled in, and the arguments that are left. -/
def fill : List Char → List (List Char) → List Char × List (List Char)
  | '%' :: '%' :: s, values =>
    let (text, values) := fill s values
    ('%' :: text, values)
  | '%' :: 's' :: s, values =>
    let (text, rest) := fill s values.tail
    (values.headD [] ++ text, rest)
  | '%' :: 'd' :: s, values =>
    let (text, rest) := fill s values.tail
    (values.headD ['0'] ++ text, rest)
  | c :: s, values =>
    let (text, values) := fill s values
    (c :: text, values)
  | [], values => ([], values)

/-- A format that is used again while it takes arguments. -/
def fillAll : Nat → List Char → List (List Char) → List Char
  | 0, _, _ => []
  | fuel + 1, format, values =>
    let (text, rest) := fill format values
    if rest = [] ∨ rest.length = values.length then text else text ++ fillAll fuel format rest

/-! ### Commands -/

/-- The milliseconds of a number of seconds. -/
def readPause (s : List Char) : Nat :=
  match Text.splitFirst? '.' s with
  | some (whole, part) =>
    Text.decimalValue whole * 1000 + Text.decimalValue ((part ++ ['0', '0', '0']).take 3)
  | none => Text.decimalValue s * 1000

namespace Command

/-- What a command does in a directory that is no list, and whether it succeeds.
-/
def simple? (directory : Place) (outlet : Outlet) (words : List (List Char)) :
    Option (List Act × Bool) :=
  match words with
  | [] => some ([], true)
  | name :: arguments =>
    match String.ofList name with
    | "cat" => some ([.copyInput outlet], true)
    | "echo" =>
      some ([.write outlet (Text.encode (Text.joinWith [' '] arguments ++ ['\n']))], true)
    | "printf" =>
      some
        ([.write outlet
          (unescape (fillAll (arguments.length + 1) (arguments.headD []) arguments.tail))], true)
    | "pwd" =>
      some ([.write outlet ((Path.rooted [Path.slash] directory false).bytes ++ [0x0A])], true)
    | "sleep" => some ([.pause (readPause (arguments.headD []))], true)
    | "true" | ":" => some ([], true)
    | "false" => some ([], false)
    | _ => none

/-- How far a list of commands has been read. -/
structure Reading where
  acts : List Act := []
  words : List (List Char) := []
  outlet : Outlet := .output
  /-- Whether the command is carried out. -/
  enabled : Bool := true
  succeeded : Bool := true
  /-- Whether the list has been left. -/
  left : Bool := false
  deriving DecidableEq, Repr

/-- The words that end a list of commands. -/
def leaving : List (List Char) := ["exit".toList, "kill".toList]

/-- The command has been read: carry it out. One that is not known does nothing
and fails. -/
def Reading.finish (directory : Place) (r : Reading) : Reading :=
  let fresh := { r with words := [], outlet := .output }
  let words := if r.words.head? = some "exec".toList then r.words.tail else r.words
  if ¬r.enabled ∨ r.left then fresh
  else if words.head?.any fun w => w ∈ leaving then { fresh with left := true }
  else
    let (acts, succeeded) := (simple? directory r.outlet words).getD ([], false)
    { fresh with
      acts := r.acts ++ acts
      succeeded := if words = [] then r.succeeded else succeeded }

/-- Read a token. -/
def Reading.read (directory : Place) (r : Reading) (t : Token) : Reading :=
  match t with
  | .word w => { r with words := r.words ++ [w] }
  | .redirect outlet => { r with outlet }
  | .next => { r.finish directory with enabled := true }
  | .nextIf success =>
    let r := r.finish directory
    { r with enabled := r.succeeded == success }

/-- What a list of commands does in a directory. -/
def listActs (directory : Place) (s : List Char) : List Act :=
  (((Words.split s).foldl (Reading.read directory) {}).finish directory).acts

/-- What a command does in a directory, if it is known. A shell that is given no list
reads its input, in which there is nothing for it to do. -/
def acts? (directory : Place) (name : List Char) (arguments : List (List Char)) :
    Option (List Act) :=
  if name = "sh".toList then
    match arguments with
    | option :: list :: _ =>
      if option = "-c".toList then some (listActs directory list) else some []
    | [] => some [.copyInput .nowhere]
    | _ => some []
  else (simple? directory .output (name :: arguments)).map Prod.fst

/-- The place of a path from the root. -/
def placeOf (s : String) : Place := (Path.ofString s).meaningful

/-- The directory in which commands lie. -/
def home : Place := placeOf "/usr/bin"

/-- The names of the commands. -/
def names : List String := ["cat", "echo", "printf", "pwd", "sleep", "sh", "true", "false"]

/-- What every system has: directories, some of which are links, the commands, and
files that keep nothing. -/
def systemTree : FileTree :=
  let directories :=
    ["/boot", "/dev", "/etc", "/home/work", "/media", "/mnt", "/opt", "/proc", "/root", "/run",
      "/srv", "/sys", "/tmp", "/usr", "/usr/lib", "/usr/local/bin", "/usr/sbin", "/usr/share",
      "/var"].map
        fun name => (placeOf name, FileNode.directory)
  let links :=
    [("/bin", "/usr/bin"), ("/sbin", "/usr/sbin"), ("/lib", "/usr/lib")].map
      fun (name, target) => (placeOf name, FileNode.link (placeOf target))
  let files :=
    ["/etc/passwd", "/etc/hosts"].map fun name => (placeOf name, FileNode.file [])
  let commands := names.map fun name => (home ++ placeOf name, FileNode.file [])
  let sinks :=
    ["/dev/null", "/dev/zero", "/dev/full"].map fun name => (placeOf name, FileNode.sink)
  (directories ++ links ++ files ++ commands ++ sinks).foldl
    (fun t (place, node) => t.add place node) {}

/-- Where a command works for which no directory is named. -/
def workplace : Place := placeOf "/home/work"

/-- The command that lies at a place. -/
def commandAt? (place : Place) : Option String :=
  names.find? fun name => place = home ++ placeOf name

/-- What a command does that is looked for by its name alone. Of what has the name,
a directory cannot be carried out; a name that no file can have ends the search. -/
def search (working : Place) (name : List Char) (arguments : List (List Char)) :
    Except SystemError (List Act) :=
  if name = ['.'] ∨ name = ['.', '.'] then .error .permissionDenied
  else if FileTree.maxSegment < (Text.encode name).length then .error .nameTooLong
  else if String.ofList name ∈ names then
    (acts? working name arguments).elim (.error .notFound) .ok
  else .error .notFound

/-- The acts of a command that is named by a path or by its name alone. -/
def find (working : Place) (name : List Char) (arguments : List (List Char)) :
    Except SystemError (List Act) :=
  if '/' ∉ name then search working name arguments
  else
    match systemTree.find working (.ofString (String.ofList name)) with
    | .error e => .error e
    | .ok (place, _) =>
      match (commandAt? place).bind fun base => acts? working base.toList arguments with
      | some acts => .ok acts
      | none => .error .permissionDenied

/-- What comes of starting a command in a directory. -/
def spawn (name : String) (arguments : List String) (directory : Option Path) :
    Except SystemError (List Act) :=
  let hasZero (s : String) := s.toList.contains '\x00'
  if hasZero name ∨ arguments.any hasZero ∨ directory.any (fun p => p.bytes.contains 0) then
    .error .zeroInArgument
  else do
    let (working, node) ← (directory.map (systemTree.find workplace)).getD
      (.ok (workplace, .directory))
    if node.isDirectory then find working name.toList (arguments.map String.toList)
    else .error .notADirectory

end Command

end LanguageClient.Scripted
