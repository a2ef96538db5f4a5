import HackToolchain.Build.Units
import HackToolchain.Lint
import HackToolchain.Settings

/-!
A build from a path to an output file in a tree. The output is created before any unit is read and is
flushed however the units went. A check reads it back from the tree.
-/

namespace HackToolchain.Build

/-- Why a build failed. Of the units and the flush at least one failed where they are named. -/
inductive RunError (ε : Type)
  | input (cause : InputError)
  | create (cause : FileError)
  | emission (units : Option (UnitError ε)) (flush : Option ε)
  | reopen (cause : FileError)
  | lint (cause : Lint.Error)
deriving DecidableEq, Repr

/-- The wording of an error, given that of the emitter's errors; of two errors each has a line. -/
def RunError.message {ε : Type} (wording : ε → Text) : RunError ε → Text
  | .input cause => cause.message
  | .create cause => "failed to create output: " ++ cause.message
  | .emission units flush =>
    Text.join "\n" ((units.map (UnitError.message wording)).toList ++ (flush.map wording).toList)
  | .reopen cause => cause.message
  | .lint cause => cause.message

/-- What a build made: the path of its output, its units and the issues in it. -/
structure Result where
  output : Text := []
  tallies : List Tally := []
  issues : List Issue := []
deriving DecidableEq, Repr

/-- How a build ended, with the tree it leaves and the state of the emitter. -/
structure Outcome (σ ε : Type) where
  result : Result
  error : Option (RunError ε)
  tree : Tree
  state : σ

variable {σ ε : Type}

def doneRecord (output : Text) (tallies : List Tally) : Log.Record :=
  { level := .info
    message := "Translated"
    fields := [("Output", .text output), ("Units", .number tallies.length)] }

def issueRecord (i : Issue) : Log.Record :=
  { level := .warn
    message := "Lint"
    fields := [("Type", .text i.kind), ("Symbol", .text i.symbol), ("Line", .number i.line),
      ("Message", .text i.message)] }

/-- Checks the output as it is read in a tree that a reader sees. -/
def checkOutput (e : Emitter σ ε) (result : Result) (seen tree : Tree) (s : σ) : Outcome σ ε :=
  match seen.read result.output with
  | .error cause => { result, error := some (.reopen cause), tree, state := s }
  | .ok contents =>
    match Lint.checkText contents with
    | .error cause => { result, error := some (.lint cause), tree, state := s }
    | .ok issues =>
      { result := { result with issues }
        error := none
        tree
        state := issues.foldl (fun s i => e.note (issueRecord i) s) s }

def run (e : Emitter σ ε) (settings : Settings) (tree : Tree) (path : Text) (s : σ) : Outcome σ ε :=
  match Inputs.resolve tree path with
  | .error cause => { result := {}, error := some (.input cause), tree, state := s }
  | .ok inputs =>
    let output := if settings.output = [] then inputs.output else settings.output
    match tree.create output with
    | .error cause => { result := { output }, error := some (.create cause), tree, state := s }
    | .ok (place, tree) =>
      let written (s : σ) := tree.write place (e.delivered s)
      let read (s : σ) (source : Source) := source.read (e.noted s (written s))
      let (tallies, failed, s) := writeUnits e read settings.bootstrap inputs.units s
      let (flushed, s) := match e.flush s with
        | .ok _ s => (none, s)
        | .error cause s => (some cause, s)
      let tree := written s
      let result : Result := { output, tallies }
      if failed.isSome || flushed.isSome then
        { result, error := some (.emission failed flushed), tree, state := s }
      else
        let s := e.note (doneRecord output tallies) s
        if settings.lint then checkOutput e result (e.noted s tree) tree s
        else { result, error := none, tree, state := s }

/-- A session with the stack base and entry point of the settings. -/
def sessionOf (settings : Settings) : Emission.Session :=
  .start settings.stackBase settings.entryPoint none

end HackToolchain.Build
