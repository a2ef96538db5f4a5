import HackToolchain.Build.Run
import HackToolchain.CommandLine.Completion
import HackToolchain.Settings.Decode

/-!
What arguments ask for: a translation, or an answer that needs no files. How arguments and configuration
texts are read is left to libraries; what the program makes of them is not.
-/

namespace HackToolchain.CommandLine

/-- Why the program failed. -/
inductive Failure
  | usage (e : UsageError)
  | load (e : Settings.LoadError)
  | invalid (e : Settings.Invalid)
  | logFile (e : FileError)
  | build (e : Build.RunError Emission.EmitError)
  | issues (count : Nat) (output : Text)
deriving DecidableEq, Repr

namespace Failure

def message : Failure → Text
  | .usage e => e.message
  | .load e => e.message
  | .invalid e => e.message
  | .logFile e => "failed to create log file: " ++ e.message
  | .build e => e.message Emission.EmitError.message
  | .issues count output => "lint found " ++ Text.ofNat count ++ " issues in " ++ output

/-- The exit code of a failure: 1 for arguments and settings, 2 for an input that is not there, 3 for a
build that failed, and 4 for issues that are not tolerated. -/
def code : Failure → Nat
  | .usage _ | .load _ | .invalid _ | .logFile _ => 1
  | .build (.input (.notFound _)) | .build (.input (.notSource _)) | .build (.input (.noSources _)) => 2
  | .build _ => 3
  | .issues .. => 4

end Failure

/-- What a run of the program prints, and its failure. -/
structure Answer where
  stdout : Text := []
  log : Text := []
  notice : Text := []
  failure : Option Failure := none
deriving DecidableEq, Repr

namespace Answer

def code (a : Answer) : Nat := (a.failure.map Failure.code).getD 0

/-- What is written for the user beside the log: a notice, and the line that reports a failure. -/
def stderr (a : Answer) : Text :=
  match a.failure with
  | some e => a.notice ++ Text.unlines ["vmtranslator: " ++ e.message]
  | none => a.notice

end Answer

/-- What arguments ask for. -/
inductive Request
  | translation (o : Options) (input : Text)
  | answer (a : Answer)
deriving DecidableEq, Repr

namespace Request

/-- The answer to a shell. -/
def complete (question : CompletionRequest) : Answer :=
  match question.arguments.getLast? with
  | none => { failure := some (.usage .nothingToComplete) }
  | some last =>
    let completion := Completion.of question.arguments.dropLast last
    { stdout := completion.render question.described
      log := completion.errorText
      notice := completion.notice }

def ofArguments (arguments : List Text) : Request :=
  match CompletionRequest.ofArguments? arguments, Options.ofArguments arguments {} with
  | some question, _ => .answer (complete question)
  | none, .error e => .answer { failure := some (.usage e) }
  | none, .ok (o, others) =>
    if o.help then .answer { stdout := help }
    else match others with
      | [input] => .translation o input
      | _ => .answer { failure := some (.usage (.argumentCount others.length)) }

end Request

/-- The libraries that read arguments and configuration texts. -/
structure Libraries where
  request : List Text → Request
  decode : Text → Settings × Option Settings.Stop × List Settings.TypeError

def Libraries.standard : Libraries where
  request := Request.ofArguments
  decode := Settings.ofText

end HackToolchain.CommandLine
