import HackToolchain.Machine.Alu
import HackToolchain.Text.Quoted

/-!
One line of Hack assembly. `Operation.ofText` takes a line apart, `Operation.malformed?` says what
is wrong with it, and `Operation.parse` accepts the lines with which nothing is.
-/

namespace HackToolchain

/-- What an instruction does. Destination, computation and jump are kept as they were written. -/
inductive Operation
  | address (symbol : Text) (value : Int)
  | compute (dest comp jump : Text)
  | label (symbol : Text)
  | unknown
deriving DecidableEq, Repr

/-- An operation with the line it stands on and its text. -/
structure Instruction where
  operation : Operation
  line : Int
  text : Text
deriving DecidableEq, Repr

/-- What is wrong with a line of assembly. -/
inductive Operation.Malformed
  | shape (text : Text)
  | range (text : Text)
  | comp (text part : Text)
  | dest (text part : Text)
  | jump (text part : Text)
deriving DecidableEq, Repr

def Operation.Malformed.message : Operation.Malformed → Text
  | .shape text => "syntax error: " ++ text.quote
  | .range text => "syntax error: constant out of range " ++ text.quote
  | .comp text part => "syntax error: " ++ text.quote ++ ": unknown comp " ++ part.quote
  | .dest text part => "syntax error: " ++ text.quote ++ ": unknown dest " ++ part.quote
  | .jump text part => "syntax error: " ++ text.quote ++ ": unknown jump " ++ part.quote

namespace Operation

/-- The largest number an address instruction can load. -/
def maxLiteral : Int := 32767

/-- Whether a number can be loaded by an address instruction. -/
def isLiteral (n : Int) : Bool := 0 ≤ n && n ≤ maxLiteral

/-- The name between parentheses, when something stands between them. -/
def labelName? (afterOpen : Text) : Option Text :=
  if afterOpen.getLast? = some 41 ∧ 2 ≤ afterOpen.length then some afterOpen.dropLast else none

/-- Destination, computation and jump: the destination ends at the first equals sign, and the
computation at the first semicolon after it. -/
def parts (t : Text) : Text × Text × Text :=
  let (dest, rest) := match t.cut 61 with
    | (before, some after) => (before, after)
    | (whole, none) => ([], whole)
  match rest.cut 59 with
  | (comp, some jump) => (dest, comp, jump)
  | (comp, none) => (dest, comp, [])

/-- The operation a line stands for, as far as it can be told. -/
def ofText : Text → Operation
  | 64 :: symbol =>
    .address symbol <| match Text.toInt? symbol with
      | some n => if isLiteral n then n else 0
      | none => 0
  | 40 :: rest => ((labelName? rest).map label).getD (.address [] 0)
  | t => let (dest, comp, jump) := parts t; .compute dest comp jump

def malformed? (t : Text) : Option Malformed :=
  match t with
  | 64 :: symbol =>
    if symbol = [] then some (.shape t)
    else match Text.toInt? symbol with
      | some n => if isLiteral n then none else some (.range t)
      | none => none
  | 40 :: rest => if (labelName? rest).isSome then none else some (.shape t)
  | _ =>
    let (dest, comp, jump) := parts t
    if (Computation.ofText? comp).isNone then some (.comp t comp)
    else if !dest.all (fun b => b == 65 || b == 77 || b == 68) then some (.dest t dest)
    else if jump ≠ [] ∧ (Jump.ofText? jump).isNone then some (.jump t jump)
    else none

/-- Reads a line from which white space and comments are removed. -/
def parse (t : Text) : Except Malformed Operation :=
  match malformed? t with
  | some e => .error e
  | none => .ok (ofText t)

end Operation

end HackToolchain
