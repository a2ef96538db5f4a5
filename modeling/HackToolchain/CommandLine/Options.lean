import HackToolchain.CommandLine.Flag

/-!
Arguments read into options. Flags and other arguments mix; a double dash ends the flags; of several
values of one flag the last one counts. Reading stops at the first error.
-/

namespace HackToolchain.CommandLine

/-- The values of the flags, and the flags that were given. A text is there if its flag was given. -/
structure Options where
  given : List Flag := []
  config : Option Text := none
  entry : Option Text := none
  help : Bool := false
  lint : Bool := false
  logFile : Option Text := none
  logFormat : Option Text := none
  logLevel : Option Text := none
  noBootstrap : Bool := false
  output : Option Text := none
  strict : Bool := false
deriving DecidableEq, Repr

/-- What is wrong with arguments. -/
inductive UsageError
  | badFlag (argument : Text)
  | unknownFlag (name : Text)
  | unknownLetter (letter : UInt8) (group : Text)
  | missingValue (argument : Text)
  | missingLetterValue (letter : UInt8)
  | badSwitch (flag : Flag) (value : Text)
  | argumentCount (count : Nat)
  | nothingToComplete
deriving DecidableEq, Repr

def letterQuote (letter : UInt8) : Text := Text.quoteChar (Char.ofNat letter.toNat)

def UsageError.message : UsageError → Text
  | .badFlag argument => "bad flag syntax: " ++ argument
  | .unknownFlag name => "unknown flag: --" ++ name
  | .unknownLetter letter group => "unknown shorthand flag: " ++ letterQuote letter ++ " in -" ++ group
  | .missingValue argument => "flag needs an argument: " ++ argument
  | .missingLetterValue letter => "flag needs an argument: " ++ letterQuote letter ++ " in -" ++ [letter]
  | .badSwitch flag value =>
    "invalid argument " ++ value.quote ++ " for " ++ flag.title.quote ++ " flag: strconv.ParseBool: parsing " ++
      value.quote ++ ": invalid syntax"
  | .argumentCount count => "accepts 1 arg(s), received " ++ Text.ofNat count
  | .nothingToComplete => "requires at least 1 arg(s), only received 0"

namespace Options

def switch? (value : Text) : Option Bool :=
  let among (words : List String) : Bool := words.any fun word => Text.ofString word == value
  if among ["1", "t", "T", "true", "TRUE", "True"] then some true
  else if among ["0", "f", "F", "false", "FALSE", "False"] then some false
  else none

def setSwitch (o : Options) (flag : Flag) (on : Bool) : Options :=
  let o := { o with given := flag :: o.given }
  match flag with
  | .help => { o with help := on }
  | .lint => { o with lint := on }
  | .noBootstrap => { o with noBootstrap := on }
  | .strict => { o with strict := on }
  | _ => o

def setText (o : Options) (flag : Flag) (value : Text) : Options :=
  let o := { o with given := flag :: o.given }
  match flag with
  | .config => { o with config := some value }
  | .entry => { o with entry := some value }
  | .logFile => { o with logFile := some value }
  | .logFormat => { o with logFormat := some value }
  | .logLevel => { o with logLevel := some value }
  | .output => { o with output := some value }
  | _ => o

def set (o : Options) (flag : Flag) (value : Text) : Except UsageError Options :=
  if flag.isSwitch then
    match switch? value with
    | some on => .ok (o.setSwitch flag on)
    | none => .error (.badSwitch flag value)
  else .ok (o.setText flag value)

/-- Reads flags given by letters in one argument. A letter that takes a text takes the rest of the
argument, and the last one awaits the next argument. What starts with `test.` is passed over. -/
def setLetters : Text → Options → Except UsageError (Options × Option (Flag × UInt8))
  | [], o => .ok (o, none)
  | letter :: rest, o =>
    if (letter :: rest).take 5 = "test." then .ok (o, none)
    else match Flag.ofLetter? letter with
      | none => .error (.unknownLetter letter (letter :: rest))
      | some flag =>
        match rest with
        | 61 :: b :: value => (o.set flag (b :: value)).map (·, none)
        | _ =>
          if flag.isSwitch then setLetters rest (o.setSwitch flag true)
          else if rest = [] then .ok (o, some (flag, letter))
          else .ok (o.setText flag rest, none)

/-- Reads a flag given by name. One that takes a text and has none awaits the next argument. -/
def setNamed (argument name : Text) (o : Options) : Except UsageError (Options × Option Flag) :=
  if name.head? = some 45 ∨ name.head? = some 61 then .error (.badFlag argument)
  else
    match Text.cut 61 name with
    | (name, value) =>
      match Flag.ofName? name, value with
      | none, _ => .error (.unknownFlag name)
      | some flag, some value => (o.set flag value).map (·, none)
      | some flag, none => if flag.isSwitch then .ok (o.setSwitch flag true, none) else .ok (o, some flag)

/-- Reads arguments. Those that are no flags come with the options. -/
def ofArguments : List Text → Options → Except UsageError (Options × List Text)
  | [], o => .ok (o, [])
  | argument :: rest, o =>
    match argument with
    | [45, 45] => .ok (o, rest)
    | 45 :: 45 :: name =>
      match setNamed argument name o, rest with
      | .error e, _ => .error e
      | .ok (o, none), rest => ofArguments rest o
      | .ok (_, some _), [] => .error (.missingValue argument)
      | .ok (o, some flag), value :: rest => ofArguments rest (o.setText flag value)
    | 45 :: letter :: letters =>
      match setLetters (letter :: letters) o, rest with
      | .error e, _ => .error e
      | .ok (o, none), rest => ofArguments rest o
      | .ok (_, some (_, letter)), [] => .error (.missingLetterValue letter)
      | .ok (o, some (flag, _)), value :: rest => ofArguments rest (o.setText flag value)
    | _ => (ofArguments rest o).map fun (o, others) => (o, argument :: others)

end Options

end HackToolchain.CommandLine
