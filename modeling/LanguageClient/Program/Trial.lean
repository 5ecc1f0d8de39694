import LanguageClient.Program

/-!
# `LanguageClient.Program.Trial`: what the program leaves behind

Up to the activation the program only reads its surroundings and opens its log
file, so what it does can be foretold from a tree of files: whether it ends, with
which code and complaint, what its log keeps, and which file it creates.

- `Report`: what the program leaves behind.
- `trial`: what comes of starting the program among files.
-/

set_option autoImplicit false

namespace LanguageClient.Program

/-- What the program leaves behind before it activates. -/
structure Report where
  result : Except Ending Setup
  /-- The notices that the log keeps. -/
  logged : List Notice := []
  /-- Whether the log holds JSON objects. -/
  json : Bool := false
  files : FileTree

/-- Open the log file, if there is one: whether it keeps what is written to it, and
the files afterwards. -/
def openLog (t : FileTree) (working : Place) (file : Option Path) :
    Except SystemError (Bool × FileTree) :=
  match file with
  | none => .ok (true, t)
  | some p => (t.touch working p).map fun (node, t) => (node ≠ .sink, t)

/-- What comes of starting the program among files, at a working directory. -/
def trial (s : Surroundings) (t : FileTree) (working : Place) : Report :=
  match options s with
  | .error e => { result := .error e, files := t }
  | .ok (_, settings) =>
    match Logging.Filter.ofText? settings.level with
    | none => { result := .error .level, files := t }
    | some filter =>
      let opened := openLog t working settings.file
      let p := prepare { s with working := t.pathOf working } (opened.map fun _ => ())
      { result := p.result
        logged :=
          if opened.toOption.all Prod.fst then p.notices.filter (filter.accepts target) else []
        json := settings.json
        files := (opened.toOption.map Prod.snd).getD t }

end LanguageClient.Program
