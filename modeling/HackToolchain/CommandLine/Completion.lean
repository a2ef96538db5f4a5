import HackToolchain.CommandLine.Options

/-!
Completion of a command line for a shell. The shell asks by one of two words in front of the arguments
typed so far, the last of which is unfinished. Names of flags are completed; for all else the shell is
left to offer files.
-/

namespace HackToolchain.CommandLine

/-- A question of a shell: whether it wants descriptions, and the arguments typed so far. -/
structure CompletionRequest where
  described : Bool
  arguments : List Text
deriving DecidableEq, Repr

namespace CompletionRequest

/-- Whether an argument would take the next one as its value. Help is no flag yet where this is asked. -/
def awaitsValue (argument : Text) : Bool :=
  let switch (flag : Option Flag) : Bool := flag.any fun f => f.isSwitch && f != .help
  !argument.contains 61 &&
    match argument with
    | 45 :: 45 :: name => !switch (Flag.ofName? name)
    | [45, letter] => !switch (Flag.ofLetter? letter)
    | _ => false

/-- The first argument that is neither a flag nor the value of one, and the arguments without it. -/
def firstWord : List Text → Option (Text × List Text)
  | [] => none
  | [argument] =>
    if argument = [] ∨ argument.head? = some 45 then none else some (argument, [])
  | argument :: next :: rest =>
    if argument = "--" then none
    else if awaitsValue argument then
      if rest = [] then none else (firstWord rest).map fun (word, others) => (word, argument :: next :: others)
    else if argument = [] ∨ argument.head? = some 45 then
      (firstWord (next :: rest)).map fun (word, others) => (word, argument :: others)
    else some (argument, next :: rest)

/-- The question that arguments ask, if they ask one. -/
def ofArguments? (arguments : List Text) : Option CompletionRequest :=
  match firstWord arguments with
  | some (word, others) =>
    if word = "__complete" then some ⟨true, others⟩
    else if word = "__completeNoDesc" then some ⟨false, others⟩
    else none
  | none => none

end CompletionRequest

/-- What is being completed: the value of a flag, or the argument itself. Arguments are those before it. -/
structure CompletionTarget where
  flag : Option Flag := none
  arguments : List Text
  unfinished : Text
  unknown : Option Text := none
deriving DecidableEq, Repr

namespace CompletionTarget

/-- The flag with a name, or with a letter if the name has one byte. -/
def flagOf? : Text → Option Flag
  | [letter] => Flag.ofLetter? letter
  | name => Flag.ofName? name

/-- The name an argument gives to a flag, all of it or its last letter. -/
def nameIn : Text → Text
  | 45 :: 45 :: name => name
  | letters => letters.getLast?.toList

/-- The name of the flag whose value the next argument would be, as far as its form tells. -/
def awaitingName? (argument : Text) : Option Text :=
  let isFlag := match argument with
    | 45 :: 45 :: _ :: _ => true
    | 45 :: letter :: _ => letter != 45
    | _ => false
  if isFlag && !argument.contains 61 then some (nameIn argument) else none

/-- The target once a flag's name is known. A switch takes no value from the next argument. -/
def named (arguments : List Text) (last : Text) (joined : Bool) (name : Text) (shorter : List Text)
    (unfinished : Text) : CompletionTarget :=
  match flagOf? name with
  | none => { arguments, unfinished := last, unknown := some name }
  | some flag =>
    if !joined && flag.isSwitch then { arguments, unfinished }
    else { flag := some flag, arguments := shorter, unfinished }

def of (arguments : List Text) (last : Text) : CompletionTarget :=
  let behindFlag (joined : Bool) (unfinished : Text) : CompletionTarget :=
    match arguments.getLast?.bind awaitingName? with
    | some name => named arguments last joined name arguments.dropLast unfinished
    | none => { arguments, unfinished }
  if last.head? = some 45 then
    match Text.cut 61 last with
    | (_, none) => { arguments, unfinished := last }
    | (front, some value) =>
      if nameIn front = [] then behindFlag true value
      else named arguments last true (nameIn front) arguments value
  else behindFlag false last

end CompletionTarget

/-- What is left to the shell. -/
inductive CompletionDirective
  | files
  | noFiles
deriving DecidableEq, Repr

namespace CompletionDirective

def number : CompletionDirective → Nat
  | .files => 0
  | .noFiles => 4

def name : CompletionDirective → Text
  | .files => "ShellCompDirectiveDefault"
  | .noFiles => "ShellCompDirectiveNoFileComp"

end CompletionDirective

/-- Why nothing can be completed. -/
inductive CompletionError
  | arguments (given : List Text) (cause : UsageError)
  | unknownFlag (name : Text)
deriving DecidableEq, Repr

def CompletionError.message : CompletionError → Text
  | .arguments given cause =>
    "Error while parsing flags from args [" ++ Text.join " " given ++ "]: " ++ cause.message
  | .unknownFlag name => "Subcommand 'vmtranslator' does not support flag '" ++ name ++ "'"

/-- An answer to a shell. -/
structure Completion where
  words : List (Text × Text) := []
  directive : CompletionDirective := .files
  error : Option CompletionError := none
deriving DecidableEq, Repr

namespace Completion

/-- The ways to write a flag that start with a text, with what the flag does. -/
def flagWords (start : Text) (flag : Flag) : List (Text × Text) :=
  let spellings : List Text := ("--" ++ flag.name) :: (flag.letter?.map fun letter => [45, letter]).toList
  (spellings.filter start.isPrefixOf).map (·, flag.description)

/-- Completes the last of the arguments. Behind a double dash nothing is a flag, and once help is asked
for nothing is completed. -/
def of (arguments : List Text) (last : Text) : Completion :=
  let target := CompletionTarget.of arguments last
  match Options.ofArguments target.arguments {} with
  | .error cause => { error := some (.arguments target.arguments cause) }
  | .ok (options, others) =>
    let ended := match Options.ofArguments (target.arguments ++ [("--" : Text)]) {} with
      | .ok (_, marked) => others.length < marked.length
      | .error _ => false
    match target.unknown.filter fun _ => !ended with
    | some name => { error := some (.unknownFlag name) }
    | none =>
      if options.given.contains .help then { directive := .noFiles }
      else if target.flag.isNone && target.unfinished.head? == some 45 && !target.unfinished.contains 61 &&
          !ended then
        { words := (Flag.all.filter fun f => !options.given.contains f).flatMap (flagWords target.unfinished)
          directive := .noFiles }
      else {}

/-- What the shell reads: a line for each word, and the directive. -/
def render (described : Bool) (c : Completion) : Text :=
  let line : Text × Text → Text := fun (word, description) => if described then word ++ "\t" ++ description else word
  Text.unlines (c.words.map line ++ [":" ++ Text.ofNat c.directive.number])

def errorText (c : Completion) : Text :=
  match c.error with
  | some e => Text.unlines ["[Debug] [Error] " ++ e.message]
  | none => []

/-- What the user may read. -/
def notice (c : Completion) : Text :=
  Text.unlines ["Completion ended with directive: " ++ c.directive.name]

end Completion

end HackToolchain.CommandLine
