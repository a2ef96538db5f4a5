import HackToolchain.CommandLine.Request
import HackToolchain.Lint.Report

/-!
The program as a function from arguments and a tree of files to what it prints, its exit code and the
tree it leaves.
-/

namespace HackToolchain.CommandLine

/-- What a run of the program leaves behind. -/
structure Outcome extends Answer where
  tree : Tree

/-- The settings with the options over them. A switch can only turn its setting on. -/
def override (o : Options) (s : Settings) : Settings :=
  { s with
    output := o.output.getD s.output
    entryPoint := o.entry.getD s.entryPoint
    bootstrap := s.bootstrap && !o.noBootstrap
    lint := s.lint || o.lint || o.strict
    log :=
      { level := o.logLevel.getD s.log.level
        format := o.logFormat.getD s.log.format
        file := o.logFile.getD s.log.file } }

/-- The settings of a run: those of a configuration file, which have to be valid by themselves, and the
options over them. -/
def settingsOf (lib : Libraries) (tree : Tree) (o : Options) : Except Failure Settings :=
  let (s, problem) := match o.config with
    | none | some [] => (Settings.default, none)
    | some path => Settings.load lib.decode tree path
  match problem with
  | some e => .error (.load e)
  | none =>
    let s := override o s
    match s.invalid? with
    | some e => .error (.invalid e)
    | none => .ok s

/-- Creates the log file, if there is to be one. -/
def openLog (tree : Tree) (s : LogSettings) : Except Failure (Option Place × Tree) :=
  if s.file = [] then .ok (none, tree)
  else match tree.create s.file with
    | .ok (place, tree) => .ok (some place, tree)
    | .error e => .error (.logFile e)

def renderLog (s : LogSettings) (newestFirst : List Log.Entry) : Text :=
  Log.render (s.format?.getD .text) (s.level?.getD .info) (newestFirst.reverse.map (·.record))

/-- The contents under the settings of a log file into which an output may be written too. -/
def logContents (s : LogSettings) (output : Text) (newestFirst : List Log.Entry) : Text :=
  Log.contents (s.format?.getD .text) (s.level?.getD .info) output newestFirst.reverse

/-- The tree with what was noted in a session written to the log file, if there is one. -/
def writeLog (s : LogSettings) (place : Option Place) (session : Emission.Session) (tree : Tree) : Tree :=
  match place with
  | some place => tree.write place (logContents s ((tree.contents? place).getD []) session.log)
  | none => tree

/-- What a build that succeeded prints, and its failure if it is checked strictly. -/
def report (strict : Bool) (s : Settings) (r : Build.Result) : Text × Option Failure :=
  let listing := if s.lint then Lint.Report.render { output := r.output, notices := r.issues.map .ofIssue } else []
  if s.lint ∧ strict ∧ r.issues ≠ [] then (listing, some (.issues r.issues.length r.output))
  else
    (listing ++
      Text.unlines ["Translated " ++ Text.ofNat r.tallies.length ++ " unit(s) into " ++ r.output], none)

def build (strict : Bool) (s : Settings) (tree : Tree) (input : Text) : Outcome :=
  match openLog tree s.log with
  | .error failure => { failure := some failure, tree }
  | .ok (logPlace, tree) =>
    let done := Build.run (.logging (writeLog s.log logPlace)) s tree input (Build.sessionOf s)
    let (stdout, failure) := match done.error with
      | some e => ([], some (.build e))
      | none => report strict s done.result
    { stdout, failure
      log := if logPlace.isSome then [] else renderLog s.log done.state.log
      tree := writeLog s.log logPlace done.state done.tree }

def translate (lib : Libraries) (tree : Tree) (o : Options) (input : Text) : Outcome :=
  match settingsOf lib tree o with
  | .error failure => { failure := some failure, tree }
  | .ok s => build o.strict s tree input

/-- Runs the program. -/
def execute (lib : Libraries) (tree : Tree) (arguments : List Text) : Outcome :=
  match lib.request arguments with
  | .translation o input => translate lib tree o input
  | .answer a => { a with tree }

end HackToolchain.CommandLine
