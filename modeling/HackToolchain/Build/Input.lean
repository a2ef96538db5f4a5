import HackToolchain.File.Tree

/-!
The inputs of a build. A path to a source file stands for that file; a path to a directory stands for
the source files in it, ordered by name, and for an output named after the directory.
-/

namespace HackToolchain.Build

/-- Where the commands of a unit come from. -/
inductive Source
  | text (t : Text)
  | file (path : Text)
deriving DecidableEq, Repr

/-- One source of a program. -/
structure SourceUnit where
  name : Text
  source : Source
deriving DecidableEq, Repr

/-- The units of a program and the path of what is generated from them. -/
structure Inputs where
  units : List SourceUnit
  output : Text
deriving DecidableEq, Repr

/-- Why a path stands for no inputs. -/
inductive InputError
  | notFound (path : Text)
  | notSource (path : Text)
  | noSources (path : Text)
  | inaccessible (e : FileError)
deriving DecidableEq, Repr

def InputError.message : InputError → Text
  | .notFound path => "input not found: " ++ path
  | .notSource path => "input is not a .vm file: " ++ path
  | .noSources path => "no .vm files in directory: " ++ path
  | .inaccessible e => e.message

namespace Inputs

def sourceEnding : Text := ".vm"

def outputEnding : Text := ".asm"

def unitName (path : Text) : Text := Text.dropEnding sourceEnding (Path.base path)

/-- Whether a member of a directory is a source file. -/
def isSource (e : Entry) : Bool := !e.isDirectory && Path.extension e.name == sourceEnding

def unitOf (directory : Text) (e : Entry) : SourceUnit :=
  { name := unitName e.name, source := .file (Path.join directory e.name) }

def unitsOf (directory : Text) (entries : List Entry) : List SourceUnit :=
  ((entries.filter isSource).map (unitOf directory)).mergeSort fun x y => x.name ≤ y.name

/-- The output of a directory: in it, with its name. -/
def directoryOutput (here directory : Text) : Text :=
  let directory := Path.clean directory
  Path.join directory (Path.base (Path.absolute here directory) ++ outputEnding)

/-- The inputs that are the members of a directory. -/
def ofDirectory (here directory : Text) (entries : List Entry) : Except InputError Inputs :=
  match unitsOf directory entries with
  | [] => .error (.noSources directory)
  | units => .ok { units, output := directoryOutput here directory }

def ofFile (path : Text) : Except InputError Inputs :=
  if Path.extension path = sourceEnding then
    .ok
      { units := [{ name := unitName path, source := .file path }]
        output := Text.dropEnding sourceEnding path ++ outputEnding }
  else .error (.notSource path)

def resolve (tree : Tree) (path : Text) : Except InputError Inputs :=
  match tree.inspect path with
  | .error e => .error (if e.fault = .missing then .notFound path else .inaccessible e)
  | .ok place =>
    if tree.isDirectory place then ofDirectory tree.herePath path (tree.entries place) else ofFile path

end Inputs

end HackToolchain.Build
