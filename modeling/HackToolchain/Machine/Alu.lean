import HackToolchain.Text

/-!
What the arithmetic unit of the Hack computer can compute, and when a jump is taken. A computation
is written with the letter `A` for the address register, or with `M` in its place for the memory
word that register selects.
-/

namespace HackToolchain

/-- A machine word: 16 bits with a sign, arithmetic modulo 2^16. -/
abbrev Word := Int16

/-- A function of the data register `d` and a second operand `x`. -/
inductive Alu
  | zero
  | one
  | minusOne
  | d
  | x
  | notD
  | notX
  | negD
  | negX
  | dPlusOne
  | xPlusOne
  | dMinusOne
  | xMinusOne
  | dPlusX
  | xPlusD
  | dMinusX
  | xMinusD
  | dAndX
  | xAndD
  | dOrX
  | xOrD
deriving DecidableEq, Repr

namespace Alu

def all : List Alu :=
  [.zero, .one, .minusOne, .d, .x, .notD, .notX, .negD, .negX, .dPlusOne, .xPlusOne, .dMinusOne, .xMinusOne,
    .dPlusX, .xPlusD, .dMinusX, .xMinusD, .dAndX, .xAndD, .dOrX, .xOrD]

/-- How a function is written when `letter` stands for the second operand. -/
def render (letter : UInt8) : Alu → Text
  | .zero => "0"
  | .one => "1"
  | .minusOne => "-1"
  | .d => "D"
  | .x => [letter]
  | .notD => "!D"
  | .notX => "!" ++ [letter]
  | .negD => "-D"
  | .negX => "-" ++ [letter]
  | .dPlusOne => "D+1"
  | .xPlusOne => letter :: "+1"
  | .dMinusOne => "D-1"
  | .xMinusOne => letter :: "-1"
  | .dPlusX => "D+" ++ [letter]
  | .xPlusD => letter :: "+D"
  | .dMinusX => "D-" ++ [letter]
  | .xMinusD => letter :: "-D"
  | .dAndX => "D&" ++ [letter]
  | .xAndD => letter :: "&D"
  | .dOrX => "D|" ++ [letter]
  | .xOrD => letter :: "|D"

def eval (x d : Word) : Alu → Word
  | .zero => 0
  | .one => 1
  | .minusOne => -1
  | .d => d
  | .x => x
  | .notD => ~~~d
  | .notX => ~~~x
  | .negD => -d
  | .negX => -x
  | .dPlusOne => d + 1
  | .xPlusOne => x + 1
  | .dMinusOne => d - 1
  | .xMinusOne => x - 1
  | .dPlusX | .xPlusD => d + x
  | .dMinusX => d - x
  | .xMinusD => x - d
  | .dAndX | .xAndD => d &&& x
  | .dOrX | .xOrD => d ||| x

end Alu

/-- The letters of the registers and of the selected memory word. -/
inductive Register
  | A
  | M
  | D
deriving DecidableEq, Repr

def Register.letter : Register → UInt8
  | .A => 65
  | .M => 77
  | .D => 68

/-- A function together with whether its second operand is the memory word. -/
structure Computation where
  function : Alu
  memory : Bool
deriving DecidableEq, Repr

namespace Computation

def render (c : Computation) : Text :=
  c.function.render (if c.memory then Register.M.letter else Register.A.letter)

/-- Reads a computation. One that mentions both the register and the memory word is none. -/
def ofText? (t : Text) : Option Computation :=
  let memory := t.contains Register.M.letter
  if memory && t.contains Register.A.letter then none
  else
    let letter := if memory then Register.M.letter else Register.A.letter
    (Alu.all.find? fun f => f.render letter == t).map (⟨·, memory⟩)

end Computation

/-- The condition of a jump, a comparison of the computed value with zero. -/
inductive Jump
  | gt
  | eq
  | ge
  | lt
  | ne
  | le
  | always
deriving DecidableEq, Repr

namespace Jump

def all : List Jump := [.gt, .eq, .ge, .lt, .ne, .le, .always]

def render : Jump → Text
  | .gt => "JGT"
  | .eq => "JEQ"
  | .ge => "JGE"
  | .lt => "JLT"
  | .ne => "JNE"
  | .le => "JLE"
  | .always => "JMP"

def ofText? (t : Text) : Option Jump := all.find? fun j => j.render == t

def holds (value : Word) : Jump → Bool
  | .gt => 0 < value
  | .eq => value == 0
  | .ge => 0 ≤ value
  | .lt => value < 0
  | .ne => value != 0
  | .le => value ≤ 0
  | .always => true

end Jump

end HackToolchain
