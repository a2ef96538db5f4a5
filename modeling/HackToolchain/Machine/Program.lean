import HackToolchain.Machine.Instruction
import HackToolchain.Source.Lines
import HackToolchain.Text.Blank

/-!
Assembly text and loaded programs. Loading binds each label to the number of instructions in front
of it, and every other symbol that is neither a number nor predefined to a memory word of its own,
counted up from 16 in order of first use.
-/

namespace HackToolchain

/-- Names with what they stand for, in the order in which they were bound. -/
abbrev Bindings (α : Type) := List (Text × α)

namespace Assembly

/-- Why a text is no program. -/
inductive Error
  | malformed (line : Nat) (cause : Operation.Malformed)
  | tooLong
  | duplicateLabel (line : Int) (symbol : Text)
deriving DecidableEq, Repr

def Error.message : Error → Text
  | .malformed line cause => "line " ++ Text.ofNat line ++ ": " ++ cause.message
  | .tooLong => Lines.overflowMessage
  | .duplicateLabel line symbol => "line " ++ Text.ofInt line ++ ": duplicate label: " ++ symbol

/-- The instruction on a line, or nothing on a line without one. White space has no meaning in it. -/
def instruction? (content : Text) (line : Nat) : Except Error (Option Instruction) :=
  match content.beforeComment.fields.flatten with
  | [] => .ok none
  | text =>
    match Operation.parse text with
    | .ok operation => .ok (some { operation, line, text })
    | .error cause => .error (.malformed line cause)

/-- The instructions of numbered lines, up to the first faulty one. -/
def ofLines : List (Text × Nat) → Except Error (List Instruction)
  | [] => .ok []
  | (content, line) :: rest =>
    match instruction? content line with
    | .error e => .error e
    | .ok found =>
      match ofLines rest with
      | .error e => .error e
      | .ok later => .ok (found.toList ++ later)

/-- The instructions of a text, label declarations included. -/
def parse (source : Text) : Except Error (List Instruction) :=
  let lines := Lines.ofText source
  match ofLines lines.numbered with
  | .error e => .error e
  | .ok instructions => if lines.overflows then .error .tooLong else .ok instructions

/-! ### Symbols -/

/-- The symbols every program can use: pointers, the first sixteen words, and the mapped devices. -/
def predefined : Bindings Nat :=
  [("SP", 0), ("LCL", 1), ("ARG", 2), ("THIS", 3), ("THAT", 4), ("SCREEN", 16384), ("KBD", 24576),
    ("R0", 0), ("R1", 1), ("R2", 2), ("R3", 3), ("R4", 4), ("R5", 5), ("R6", 6), ("R7", 7),
    ("R8", 8), ("R9", 9), ("R10", 10), ("R11", 11), ("R12", 12), ("R13", 13), ("R14", 14), ("R15", 15)]

/-- The first memory word given to a variable. -/
def variableBase : Nat := 16

/-- Splits off the label declarations: the instructions without them, and where each label stands. -/
def bindLabels : List Instruction → (address : Nat) → Bindings Nat → Except Error (List Instruction × Bindings Nat)
  | [], _, labels => .ok ([], labels)
  | i :: rest, address, labels =>
    match i.operation with
    | .label symbol =>
      if (labels.lookup symbol).isSome then .error (.duplicateLabel i.line symbol)
      else bindLabels rest address (labels ++ [(symbol, address)])
    | _ =>
      match bindLabels rest (address + 1) labels with
      | .error e => .error e
      | .ok (code, bound) => .ok (i :: code, bound)

/-- The address of a symbol, and the variables with this one among them when it is a new one. -/
def resolve (labels storage : Bindings Nat) (symbol : Text) : Nat × Bindings Nat :=
  match labels.lookup symbol <|> predefined.lookup symbol <|> storage.lookup symbol with
  | some address => (address, storage)
  | none =>
    let address := variableBase + storage.length
    (address, storage ++ [(symbol, address)])

/-- Gives every symbolic operand its address. -/
def bindVariables (labels : Bindings Nat) : List Instruction → Bindings Nat → List Instruction × Bindings Nat
  | [], storage => ([], storage)
  | i :: rest, storage =>
    match i.operation with
    | .address symbol _ =>
      if (Text.toInt? symbol).isSome then
        let (later, bound) := bindVariables labels rest storage
        (i :: later, bound)
      else
        let (address, storage) := resolve labels storage symbol
        let (later, bound) := bindVariables labels rest storage
        ({ i with operation := .address symbol address } :: later, bound)
    | _ =>
      let (later, bound) := bindVariables labels rest storage
      (i :: later, bound)

end Assembly

/-- A loaded program. -/
structure Program where
  code : List Instruction
  labels : Bindings Nat
  storage : Bindings Nat
deriving DecidableEq, Repr

def Program.ofInstructions (instructions : List Instruction) : Except Assembly.Error Program :=
  match Assembly.bindLabels instructions 0 [] with
  | .error e => .error e
  | .ok (code, labels) =>
    let (code, storage) := Assembly.bindVariables labels code []
    .ok { code, labels, storage }

def Program.load (source : Text) : Except Assembly.Error Program :=
  match Assembly.parse source with
  | .error e => .error e
  | .ok instructions => Program.ofInstructions instructions

end HackToolchain
