import HackToolchain.Machine.Program

/-!
Checks on assembly that the assembler does not make for a program: a label declared more than once,
and a jump to a symbol that is declared nowhere. The assembler refuses the first and takes the
second for a variable.
-/

namespace HackToolchain

/-- What an issue is about: where its label was declared first, or which jump goes astray. -/
inductive Finding
  | duplicate (first : Int)
  | undefined (jump : Text)
deriving DecidableEq, Repr

/-- One problem in an assembly text. -/
structure Issue where
  finding : Finding
  symbol : Text
  line : Int
deriving DecidableEq, Repr

namespace Issue

/-- The type of an issue that is a duplicate label. -/
def duplicateKind : Text := "DUPLICATE"

/-- The type of an issue that is an undefined jump target. -/
def undefinedKind : Text := "UNDEFINED"

def kind (i : Issue) : Text :=
  match i.finding with
  | .duplicate _ => duplicateKind
  | .undefined _ => undefinedKind

def message (i : Issue) : Text :=
  match i.finding with
  | .duplicate first => "label " ++ i.symbol ++ " declared again (first at line " ++ Text.ofInt first ++ ")"
  | .undefined _ => "jump to undeclared label " ++ i.symbol

end Issue

namespace Lint

/-- The labels with the line of their first declaration, and an issue for every later declaration. -/
def duplicates : List Instruction → Bindings Int → List Issue × Bindings Int
  | [], declared => ([], declared)
  | i :: rest, declared =>
    match i.operation with
    | .label symbol =>
      match declared.lookup symbol with
      | some first =>
        let (found, all) := duplicates rest declared
        ({ finding := .duplicate first, symbol, line := i.line } :: found, all)
      | none => duplicates rest (declared ++ [(symbol, i.line)])
    | _ => duplicates rest declared

/-- Whether a symbol has a meaning that is not a variable: a number, a label or a predefined symbol. -/
def isKnown (declared : Bindings Int) (symbol : Text) : Bool :=
  (Text.toInt? symbol).isSome || (declared.lookup symbol).isSome || (Assembly.predefined.lookup symbol).isSome

/-- The issue of an instruction, given the one after it. -/
def undefined? (declared : Bindings Int) (i next : Instruction) : Option Issue :=
  match i.operation, next.operation with
  | .address symbol _, .compute _ _ jump =>
    if jump = [] ∨ isKnown declared symbol then none
    else some { finding := .undefined jump, symbol, line := i.line }
  | _, _ => none

def undefineds (declared : Bindings Int) : List Instruction → List Issue
  | i :: next :: rest => (undefined? declared i next).toList ++ undefineds declared (next :: rest)
  | _ => []

/-- The issues of a list of instructions, ordered by line; on one line duplicates come first. -/
def check (instructions : List Instruction) : List Issue :=
  let (found, declared) := duplicates instructions []
  (found ++ undefineds declared instructions).mergeSort fun x y => x.line ≤ y.line

/-- Why a text cannot be checked. -/
structure Error where
  cause : Assembly.Error
deriving DecidableEq, Repr

def Error.message (e : Error) : Text := "failed to parse assembly: " ++ e.cause.message

def checkText (source : Text) : Except Error (List Issue) :=
  match Assembly.parse source with
  | .error cause => .error ⟨cause⟩
  | .ok instructions => .ok (check instructions)

end Lint

end HackToolchain
