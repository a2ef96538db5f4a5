import HackToolchain.Command
import HackToolchain.Emission.Code
import HackToolchain.Emission.Sink
import HackToolchain.Log

/-!
A session generates the assembly of one program, command after command. It numbers the labels it
makes up, scopes the labels of the program to the function they stand in, and only ever appends to
its output.
-/

namespace HackToolchain

/-- Whether a segment is read onto the stack or filled from it. A direction that is neither goes by
the name of a push, and no segment supports it. -/
inductive Direction
  | push
  | pop
  | neither
deriving DecidableEq, Repr

namespace Direction

def name : Direction → Text
  | .pop => "pop"
  | .push | .neither => "push"

/-- The direction with a number. -/
def ofNumber (n : Int) : Direction := if n = 0 then .push else if n = 1 then .pop else .neither

end Direction

namespace Emission

/-- Why a session refuses a command or cannot write its code. -/
inductive EmitError
  | unsupportedOperation (operation : Text)
  | unsupportedSegment (direction : Direction) (segment : Text)
  | negativeIndex
  | bootstrapOrder
  | write (e : WriteError)
deriving DecidableEq, Repr

def EmitError.message : EmitError → Text
  | .unsupportedOperation operation => "unsupported operation " ++ operation.quote
  | .unsupportedSegment direction segment =>
    "unsupported segment " ++ segment.quote ++ " for " ++ direction.name
  | .negativeIndex => "negative segment index"
  | .bootstrapOrder => "bootstrap must be written first and only once"
  | .write e => e.message

/-- The state of a session. The newest entry of the log comes first. -/
structure Session where
  stackBase : Int
  entryPoint : Text
  function : Text := []
  labels : Nat := 0
  calls : Nat := 0
  unit : Text := []
  started : Bool := false
  lines : Nat := 0
  sink : Sink := {}
  log : List Log.Entry := []
deriving DecidableEq, Repr

/-- An operation of a session. What it changed before an error stays changed. -/
abbrev Emit := EStateM EmitError Session

namespace Session

/-- Where the stack starts unless told otherwise. -/
def defaultStackBase : Int := 256

def defaultEntryPoint : Text := "Sys.init"

/-- A new session; zero and the empty name select the defaults. -/
def start (stackBase : Int) (entryPoint : Text) (device : Option Device) : Session :=
  { stackBase := if stackBase = 0 then defaultStackBase else stackBase
    entryPoint := if entryPoint = [] then defaultEntryPoint else entryPoint
    sink := { device } }

/-! ### Output -/

def note (r : Log.Record) (s : Session) : Session :=
  { s with log := ⟨r, s.sink.delivered.size⟩ :: s.log }

/-- Writes lines until the sink fails, and counts those whose end was stored. -/
def putLines : List Line → Session → Session
  | [], s => s
  | line :: rest, s =>
    let s := { s with sink := s.sink.put (line.render ++ [Text.newline]) }
    if s.sink.failure.isSome then s else putLines rest { s with lines := s.lines + 1 }

/-- Succeeds unless the sink has failed. -/
def checked (s : Session) : EStateM.Result EmitError Session Unit :=
  match s.sink.failure with
  | some e => .error (.write e) s
  | none => .ok () s

/-- Appends lines to the output. After a failure of the sink every call fails with it. -/
def emit (lines : List Line) : Emit Unit := fun s =>
  if s.sink.failure.isSome then s.checked else (putLines lines { s with started := true }).checked

/-- Appends the same lines a number of times. -/
def emitTimes (lines : List Line) : Nat → Emit Unit
  | 0 => pure ()
  | n + 1 => do
    emit lines
    emitTimes lines n

/-- Announces a command in the log and in the output. -/
def announce (text : Text) : Emit Unit := do
  modify fun s => s.note
    { level := .trace
      message := "Translate"
      fields := [("Unit", .text s.unit), ("Function", .text s.function), ("Command", .text text),
        ("Line", .number s.lines)] }
  emit [.comment text]

/-- Hands everything written so far to the device. -/
def flush : Emit Unit := fun s =>
  if s.sink.failure.isSome then s.checked else checked { s with sink := s.sink.flush }

/-- Names the unit whose commands follow. No counter changes. -/
def setUnit (name : Text) (s : Session) : Session :=
  { s with unit := name }.note
    { level := .debug
      message := "Unit"
      fields := [("Unit", .text name), ("LabelCounter", .number s.labels), ("CallCounter", .number s.calls)] }

/-! ### Names -/

/-- A label of the program as it is written in the function being generated. -/
def qualify (s : Session) (name : Text) : Text :=
  if s.function = [] then name else s.function ++ "$" ++ name

def compareLabels (n : Nat) : Text × Text := ("TRUE_" ++ Text.ofNat n, "END_" ++ Text.ofNat n)

def returnLabel (callee : Text) (n : Nat) : Text := callee ++ "$ret." ++ Text.ofNat n

/-- The pointer that holds the base of a segment. -/
def pointer? (segment : Text) : Option Text :=
  if segment = "local" then some "LCL" else if segment = "argument" then some "ARG" else none

/-! ### Commands -/

def writeCombine (operation : Text) (f : Alu) : Emit Unit := do
  announce operation
  emit (combine f)

/-- Compares. The number of the comparison is taken before anything is written. -/
def writeCompare (operation : Text) (condition : Jump) : Emit Unit := do
  let n := (← get).labels
  modify fun s => { s with labels := n + 1 }
  announce operation
  emit (compare condition (compareLabels n).1 (compareLabels n).2)

/-- Generates an arithmetic operation: one of `add`, `sub`, `eq` and `gt`. -/
def writeArithmetic (operation : Text) : Emit Unit :=
  if operation = "add" then writeCombine operation .dPlusX
  else if operation = "sub" then writeCombine operation .xMinusD
  else if operation = "eq" then writeCompare operation .eq
  else if operation = "gt" then writeCompare operation .gt
  else throw (.unsupportedOperation operation)

/-- The code of a push or pop, if the segment supports it. -/
def accessCode? (direction : Direction) (segment : Text) (index : Int) : Option (List Line) :=
  match direction with
  | .push => if segment = "constant" then some (pushConstant index) else (pointer? segment).map (pushIndexed · index)
  | .pop => (pointer? segment).map (popIndexed · index)
  | .neither => none

def writeAccess (direction : Direction) (segment : Text) (index : Int) : Emit Unit :=
  if index < 0 then throw .negativeIndex
  else match accessCode? direction segment index with
    | none => throw (.unsupportedSegment direction segment)
    | some code => do
      announce (direction.name ++ " " ++ segment ++ " " ++ Text.ofInt index)
      emit code

def writeLabel (name : Text) : Emit Unit := do
  announce ("label " ++ name)
  emit [.label ((← get).qualify name)]

def writeGoto (name : Text) : Emit Unit := do
  announce ("goto " ++ name)
  emit (goTo ((← get).qualify name))

/-- Pops a value and jumps to a label unless it is zero. -/
def writeIfGoto (name : Text) : Emit Unit := do
  announce ("if-goto " ++ name)
  emit (goToIf ((← get).qualify name))

/-- Starts a function. It is the scope of the labels that follow, even if the output fails. -/
def writeFunction (name : Text) (locals : Int) : Emit Unit :=
  if locals < 0 then throw .negativeIndex
  else do
    modify fun s => { s with function := name }
    announce ("function " ++ name ++ " " ++ Text.ofInt locals)
    emit [.label name]
    emitTimes pushZero locals.toNat

/-- Calls a function. The number of the call is taken before anything is written. -/
def writeCall (name : Text) (arguments : Int) : Emit Unit :=
  if arguments < 0 then throw .negativeIndex
  else do
    let n := (← get).calls
    modify fun s => { s with calls := n + 1 }
    announce ("call " ++ name ++ " " ++ Text.ofInt arguments)
    emit (callCode name arguments (returnLabel name n))

def writeReturn : Emit Unit := do
  announce "return"
  emit returnCode

/-- Writes the bootstrap, which sets the stack pointer and calls the entry point. It has to be the
first output. -/
def writeBootstrap : Emit Unit := do
  if (← get).started then throw .bootstrapOrder
  announce "bootstrap"
  emit (setStackPointer (← get).stackBase)
  writeCall (← get).entryPoint 0

def write : Command → Emit Unit
  | .arithmetic operation => writeArithmetic operation
  | .push segment index => writeAccess .push segment index
  | .pop segment index => writeAccess .pop segment index
  | .label name => writeLabel name
  | .goto name => writeGoto name
  | .ifGoto name => writeIfGoto name
  | .function name locals => writeFunction name locals
  | .call name arguments => writeCall name arguments
  | .ret => writeReturn

end Session

end Emission

end HackToolchain
