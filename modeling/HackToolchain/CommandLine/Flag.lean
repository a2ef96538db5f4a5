import HackToolchain.Text.Quoted

/-!
The flags of the command line and the help that lists them.
-/

namespace HackToolchain.CommandLine

/-- A flag, which is a switch or takes a text. -/
inductive Flag
  | config
  | entry
  | help
  | lint
  | logFile
  | logFormat
  | logLevel
  | noBootstrap
  | output
  | strict
deriving DecidableEq, Repr

namespace Flag

def all : List Flag :=
  [.config, .entry, .help, .lint, .logFile, .logFormat, .logLevel, .noBootstrap, .output, .strict]

def name : Flag → Text
  | .config => "config"
  | .entry => "entry"
  | .help => "help"
  | .lint => "lint"
  | .logFile => "log-file"
  | .logFormat => "log-format"
  | .logLevel => "log-level"
  | .noBootstrap => "no-bootstrap"
  | .output => "output"
  | .strict => "strict"

def letter? : Flag → Option UInt8
  | .help => some 104
  | .output => some 111
  | _ => none

/-- Whether a flag is on or off rather than a text. -/
def isSwitch : Flag → Bool
  | .help | .lint | .noBootstrap | .strict => true
  | _ => false

def description : Flag → Text
  | .config => "YAML configuration file"
  | .entry => "function called by the bootstrap (default Sys.init)"
  | .help => "help for vmtranslator"
  | .lint => "check the output for duplicate labels and undefined jump targets"
  | .logFile => "write logs to this file instead of stderr"
  | .logFormat => "text or json"
  | .logLevel => "trace, debug, info, warn or error"
  | .noBootstrap => "do not emit the bootstrap code"
  | .output => "output file (default derived from the input)"
  | .strict => "fail when lint finds issues (implies --lint)"

def ofName? (name : Text) : Option Flag := all.find? fun f => f.name == name

def ofLetter? (letter : UInt8) : Option Flag := all.find? fun f => f.letter? == some letter

/-- A flag as errors name it. -/
def title (f : Flag) : Text :=
  match f.letter? with
  | some letter => "-" ++ [letter] ++ ", --" ++ f.name
  | none => "--" ++ f.name

/-- A flag as the help names it. -/
def usage (f : Flag) : Text :=
  let margin : Text := if f.letter?.isSome then "  " else "      "
  let value : Text := if f.isSwitch then [] else " string"
  margin ++ f.title ++ value

end Flag

def purpose : Text :=
  Text.unlines
    ["vmtranslator translates stack-machine VM code into assembly for the",
      "Hack computer.",
      "",
      "Given a .vm file it writes the .asm file next to it. Given a directory it",
      "translates every .vm file in it, in name order, into <dir>/<dir>.asm. The",
      "output starts with bootstrap code that sets SP to 256 and calls Sys.init",
      "unless --no-bootstrap is given."]

/-- The help: what the program does and its flags, their descriptions below one another. -/
def help : Text :=
  let width := (Flag.all.map fun f => f.usage.length).foldl max 0 + 3
  let line (f : Flag) : Text := f.usage ++ List.replicate (width - f.usage.length) 32 ++ f.description
  purpose ++
    Text.unlines ["", "Usage:", "  vmtranslator <file.vm | directory> [flags]", "", "Flags:"] ++
    Text.unlines (Flag.all.map line)

end HackToolchain.CommandLine
