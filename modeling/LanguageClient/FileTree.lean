import LanguageClient.Document
import LanguageClient.SystemError
import LanguageClient.Uri.File

/-!
# `LanguageClient.FileTree`: files and directories, and documents read from them

A tree lists what lies where, by the segments below the root. A path is walked
segment by segment, from the root or from the place where the walk starts.
Whatever a segment says, be it nothing, one has to stand in a directory to go on.
The segment `..` leads to the parent of where the walk stands; a link leads to
the place that it names.

A directory that has been removed is not found any more, but one that stands in
it can still leave it.

- `FileTree.find`: what a path leads to.
- `FileTree.read`, `FileTree.touch`: the bytes of a file; a file opened for
  appending.
- `FileTree.document`: a file as a document, as an editor opens it.
-/

set_option autoImplicit false

namespace LanguageClient

/-- The segments that lead to a place from the root. -/
abbrev Place := List (List UInt8)

/-- What lies at a place. -/
inductive FileNode where
  | file (bytes : List UInt8)
  /-- A file that keeps nothing of what is written to it. -/
  | sink
  | directory
  /-- A directory that has been removed. -/
  | removed
  /-- Another name of a place, which is no link. -/
  | link (target : Place)
  deriving DecidableEq, Repr

/-- Whether a walk can go on from here. -/
def FileNode.isDirectory : FileNode → Bool
  | .directory | .removed => true
  | _ => false

/-- The files and directories, each with its place. The root is always there. -/
structure FileTree where
  nodes : List (Place × FileNode) := []
  deriving DecidableEq, Repr

/-- The document of a file: its bytes have to be text, and its language follows
from its name. -/
def Document.ofFile (path : Path) (bytes : List UInt8) : Except SystemError Document :=
  match Text.decode? bytes, Uri.ofPath? path with
  | some text, some uri =>
    .ok
      { uri
        language := (languageOf? path).getD plainLanguage
        version := 1
        text := String.ofList text }
  | none, _ => .error .notText
  | _, none => .error .emptyPath

namespace FileTree

/-- The longest segment that a file system takes. -/
def maxSegment : Nat := 255

/-- The longest path that the system takes. -/
def maxPath : Nat := 4095

/-- What lies at a place. -/
def node? (t : FileTree) (place : Place) : Option FileNode :=
  if place = [] then some .directory else t.nodes.lookup place

/-- A tree with one thing more, and the directories that lead to it. -/
def add (t : FileTree) (place : Place) (node : FileNode) : FileTree :=
  { nodes :=
      (place, node) :: ((List.range place.length).map fun n => (place.take n, FileNode.directory))
        ++ t.nodes }

/-- The place that a name leads to from a directory. -/
def enter? (t : FileTree) (place : Place) (name : List UInt8) : Option Place :=
  match t.node? (place ++ [name]) with
  | some .removed | none => none
  | some (.link target) => some target
  | some _ => some (place ++ [name])

/-- Walk on from a place. -/
def walk (t : FileTree) (place : Place) : List (List UInt8) → Except SystemError (Place × FileNode)
  | [] =>
    match t.node? place with
    | some node => .ok (place, node)
    | none => .error .notFound
  | segment :: rest =>
    if ¬(t.node? place).any FileNode.isDirectory then .error .notADirectory
    else if Path.isIdle segment then walk t place rest
    else if segment = [Path.dot, Path.dot] then walk t place.dropLast rest
    else if maxSegment < segment.length then .error .nameTooLong
    else
      match t.enter? place segment with
      | some place => walk t place rest
      | none => .error .notFound

/-- Where the walk along a path starts, if the path can be walked at all. -/
def startOf (working : Place) (p : Path) : Except SystemError Place :=
  if p.bytes.contains 0 then .error .zeroInPath
  else if p.bytes = [] then .error .notFound
  else if maxPath < p.bytes.length then .error .nameTooLong
  else .ok (if p.isAbsolute then [] else working)

/-- What a path leads to. A slash at the end asks for a directory. -/
def find (t : FileTree) (working : Place) (p : Path) : Except SystemError (Place × FileNode) :=
  startOf working p >>= fun start => t.walk start p.segments

/-- The bytes of a file. -/
def read (t : FileTree) (working : Place) (p : Path) : Except SystemError (List UInt8) :=
  match t.find working p with
  | .ok (_, .file bytes) => .ok bytes
  | .ok (_, .sink) => .ok []
  | .ok _ => .error .isADirectory
  | .error e => .error e

/-- The tree once a file has been opened for appending, and what has been opened:
the file is created if it is not there. What ends in a slash or in dots cannot be
created, be it there or not. -/
def touch (t : FileTree) (working : Place) (p : Path) :
    Except SystemError (FileNode × FileTree) := do
  let start ← startOf working p
  match p.segments.reverse.dropWhile (· = []) with
  | [] => .error .isADirectory
  | name :: before =>
    let (place, node) ← t.walk start before.reverse
    if ¬node.isDirectory then .error .notADirectory
    else if ¬Path.isName name ∨ p.bytes.getLast? = some Path.slash then .error .isADirectory
    else if maxSegment < name.length then .error .nameTooLong
    else
      match (t.enter? place name).bind t.node? with
      | some node => if node.isDirectory then .error .isADirectory else .ok (node, t)
      | none =>
        if node = .removed then .error .notFound
        else .ok (.file [], t.add (place ++ [name]) (.file []))

/-- The path of a working directory, if it is still there. -/
def pathOf (t : FileTree) (working : Place) : Except SystemError Path :=
  if t.node? working = some .directory then .ok (.rooted [Path.slash] working false)
  else .error .notFound

/-- The names of what lies directly below a place. -/
def names (t : FileTree) (place : Place) : List (List UInt8) :=
  (t.nodes.filterMap fun (q, node) =>
    if q.dropLast = place ∧ node ≠ .removed then q.getLast? else none).eraseDups

/-- The document that a path names, as seen from a working directory. -/
def document (t : FileTree) (working path : Path) : Except SystemError Document :=
  match Path.absolute? working path with
  | none => .error .emptyPath
  | some absolute =>
    match t.read [] absolute with
    | .ok bytes => Document.ofFile absolute bytes
    | .error e => .error e

end FileTree

end LanguageClient
