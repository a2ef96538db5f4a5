import HackToolchain.Machine.Alu

/-!
The assembly generated for each command of the stack machine.

The stack pointer `SP` selects the first free word. A call pushes the return address and the
caller's `LCL`, `ARG`, `THIS` and `THAT`, points `ARG` at the first argument and `LCL` at the stack
pointer; the callee pushes its zeroed locals. A return reads the saved values back from below the
frame, whose base it keeps in `R13`, with the return address in `R14`.
-/

namespace HackToolchain.Emission

/-- A line of generated assembly. -/
inductive Line
  | comment (text : Text)
  | address (symbol : Text)
  | label (symbol : Text)
  | compute (dest : List Register) (comp : Computation) (jump : Option Jump)
deriving DecidableEq, Repr

namespace Line

/-- The part of an instruction that names where its value goes. -/
def destination (dest : List Register) : Text :=
  if dest.isEmpty then [] else dest.map Register.letter ++ [61]

/-- The part of an instruction that says when it jumps. -/
def condition : Option Jump → Text
  | some j => ";" ++ j.render
  | none => []

def render : Line → Text
  | .comment text => "// " ++ text
  | .address symbol => "@" ++ symbol
  | .label symbol => "(" ++ symbol ++ ")"
  | .compute dest comp jump => destination dest ++ comp.render ++ condition jump

def number (n : Int) : Line := .address (Text.ofInt n)

/-- Stores a function of `D` and the address register. -/
def set (dest : List Register) (f : Alu) : Line := .compute dest ⟨f, false⟩ none

/-- Stores a function of `D` and the selected memory word. -/
def setM (dest : List Register) (f : Alu) : Line := .compute dest ⟨f, true⟩ none

/-- Jumps when `D` fulfils a condition. -/
def jumpIf (condition : Jump) : Line := .compute [] ⟨.d, false⟩ (some condition)

def jump : Line := .compute [] ⟨.zero, false⟩ (some .always)

end Line

open Line

/-! ### Stack -/

def pushD : List Line :=
  [.address "SP", setM [.A] .x, set [.M] .d, .address "SP", setM [.M] .xPlusOne]

def popD : List Line :=
  [.address "SP", setM [.A, .M] .xMinusOne, setM [.D] .x]

/-- Pops a value and combines it into the one below. -/
def combine (f : Alu) : List Line :=
  popD ++ [.address "SP", setM [.A] .xMinusOne, setM [.M] f]

/-- Replaces two values by -1 where their difference fulfils a condition, and by 0 where not. -/
def compare (condition : Jump) (trueLabel endLabel : Text) : List Line :=
  popD ++
    [.address "SP", setM [.A] .xMinusOne, setM [.D] .xMinusD, .address trueLabel, jumpIf condition,
      .address "SP", setM [.A] .xMinusOne, set [.M] .zero, .address endLabel, jump,
      .label trueLabel, .address "SP", setM [.A] .xMinusOne, set [.M] .minusOne, .label endLabel]

def pushConstant (index : Int) : List Line := [number index, set [.D] .x] ++ pushD

/-- Pushes the word at an index behind a pointer. -/
def pushIndexed (pointer : Text) (index : Int) : List Line :=
  [.address pointer, setM [.D] .x, number index, set [.A] .dPlusX, setM [.D] .x] ++ pushD

/-- Pops into the word at an index behind a pointer. Its address waits in `R13`, since the pop needs
both registers. -/
def popIndexed (pointer : Text) (index : Int) : List Line :=
  [.address pointer, setM [.D] .x, number index, set [.D] .dPlusX, .address "R13", set [.M] .d] ++ popD ++
    [.address "R13", setM [.A] .x, set [.M] .d]

/-! ### Control flow -/

def goTo (label : Text) : List Line := [.address label, jump]

/-- Pops a value and jumps to a label unless it is zero. -/
def goToIf (label : Text) : List Line := popD ++ [.address label, jumpIf .ne]

/-! ### Functions -/

/-- The words a call pushes in front of the callee's locals. -/
def frameSize : Int := 5

/-- The distance from the stack pointer after the frame is pushed back to the first argument, in
64-bit arithmetic. -/
def argumentOffset (arguments : Int) : Int := (arguments + frameSize).bmod 0x10000000000000000

def pushZero : List Line := [number 0, set [.D] .x] ++ pushD

def pushPointer (pointer : Text) : List Line := [.address pointer, setM [.D] .x] ++ pushD

/-- Calls a function whose arguments are on the stack. -/
def callCode (name : Text) (arguments : Int) (returnLabel : Text) : List Line :=
  [.address returnLabel, set [.D] .x] ++ pushD ++
    pushPointer "LCL" ++ pushPointer "ARG" ++ pushPointer "THIS" ++ pushPointer "THAT" ++
    [.address "SP", setM [.D] .x, number (argumentOffset arguments), set [.D] .dMinusX,
      .address "ARG", set [.M] .d, .address "SP", setM [.D] .x, .address "LCL", set [.M] .d,
      .address name, jump, .label returnLabel]

/-- Loads a pointer from below the frame. -/
def restore (pointer : Text) (offset : Int) : List Line :=
  [.address "R13", setM [.D] .x, number offset, set [.A] .dMinusX, setM [.D] .x, .address pointer, set [.M] .d]

/-- Returns, leaving the value where the first argument was. -/
def returnCode : List Line :=
  [.address "LCL", setM [.D] .x, .address "R13", set [.M] .d, number frameSize, set [.A] .dMinusX,
      setM [.D] .x, .address "R14", set [.M] .d] ++ popD ++
    [.address "ARG", setM [.A] .x, set [.M] .d, .address "ARG", setM [.D] .xPlusOne, .address "SP",
      set [.M] .d] ++
    restore "THAT" 1 ++ restore "THIS" 2 ++ restore "ARG" 3 ++ restore "LCL" 4 ++
    [.address "R14", setM [.A] .x, jump]

def setStackPointer (base : Int) : List Line :=
  [number base, set [.D] .x, .address "SP", set [.M] .d]

end HackToolchain.Emission
