import HackToolchain.Text.Blank

/-!
The commands of the stack machine and the form they have in a source. Which operations and segments
exist is not decided here: a command holds any name, and an index of any sign.
-/

namespace HackToolchain

/-- A command of the stack machine. -/
inductive Command
  | arithmetic (operation : Text)
  | push (segment : Text) (index : Int)
  | pop (segment : Text) (index : Int)
  | label (name : Text)
  | goto (name : Text)
  | ifGoto (name : Text)
  | function (name : Text) (locals : Int)
  | call (name : Text) (arguments : Int)
  | ret
deriving DecidableEq, Repr

namespace Command

/-- What a command does, without its operands. -/
inductive Kind
  | arithmetic
  | push
  | pop
  | label
  | goto
  | ifGoto
  | function
  | call
  | ret
deriving DecidableEq, Repr

namespace Kind

def all : List Kind := [.arithmetic, .push, .pop, .label, .goto, .ifGoto, .function, .call, .ret]

/-- The word for a kind; apart from arithmetic it is the first word of the command. -/
def name : Kind → Text
  | .arithmetic => "arithmetic"
  | .push => "push"
  | .pop => "pop"
  | .label => "label"
  | .goto => "goto"
  | .ifGoto => "if-goto"
  | .function => "function"
  | .call => "call"
  | .ret => "return"

def number (k : Kind) : Nat := all.idxOf k

/-- The name of the kind with a number, and a form that shows the number where there is no such kind. -/
def nameOfNumber (n : Int) : Text :=
  match n with
  | .ofNat i => (all[i]?.map name).getD ("Kind(" ++ Text.ofNat i ++ ")")
  | .negSucc _ => "Kind(" ++ Text.ofInt n ++ ")"

/-- The kind a first word selects; a word that is no keyword names an arithmetic operation. -/
def ofWord (word : Text) : Kind :=
  (all.find? fun k => k != .arithmetic && k.name == word).getD .arithmetic

end Kind

def kind : Command → Kind
  | .arithmetic _ => .arithmetic
  | .push .. => .push
  | .pop .. => .pop
  | .label _ => .label
  | .goto _ => .goto
  | .ifGoto _ => .ifGoto
  | .function .. => .function
  | .call .. => .call
  | .ret => .ret

def operand? : Command → Option Text
  | .arithmetic operation => some operation
  | .push segment _ | .pop segment _ => some segment
  | .label name | .goto name | .ifGoto name => some name
  | .function name _ | .call name _ => some name
  | .ret => none

def number? : Command → Option Int
  | .push _ index | .pop _ index => some index
  | .function _ locals => some locals
  | .call _ arguments => some arguments
  | _ => none

/-- A command as it is written in a source. -/
def render : Command → Text
  | .arithmetic operation => operation
  | .push segment index => "push " ++ segment ++ " " ++ Text.ofInt index
  | .pop segment index => "pop " ++ segment ++ " " ++ Text.ofInt index
  | .label name => "label " ++ name
  | .goto name => "goto " ++ name
  | .ifGoto name => "if-goto " ++ name
  | .function name locals => "function " ++ name ++ " " ++ Text.ofInt locals
  | .call name arguments => "call " ++ name ++ " " ++ Text.ofInt arguments
  | .ret => "return"

/-! ### Reading one command -/

/-- Why tokens are no command. -/
inductive Malformed
  | missingOperand
  | badNumber (token : Text)
deriving DecidableEq, Repr

def Malformed.message : Malformed → Text
  | .missingOperand => "missing operand"
  | .badNumber token => "operand is not a non-negative integer: " ++ token

def number (token : Text) : Except Malformed Int :=
  match Text.toInt? token with
  | some n => if n < 0 then .error (.badNumber token) else .ok n
  | none => .error (.badNumber token)

/-- The name and the number a command needs; further tokens are ignored. -/
def nameAndNumber : List Text → Except Malformed (Text × Int)
  | name :: token :: _ => (number token).map (name, ·)
  | _ => .error .missingOperand

/-- The name a command needs; further tokens are ignored. -/
def nameOnly : List Text → Except Malformed Text
  | name :: _ => .ok name
  | [] => .error .missingOperand

/-- The command with a first word and the tokens after it. -/
def ofTokens (word : Text) (operands : List Text) : Except Malformed Command :=
  match Kind.ofWord word with
  | .arithmetic => .ok (.arithmetic word)
  | .push => (nameAndNumber operands).map fun (segment, index) => .push segment index
  | .pop => (nameAndNumber operands).map fun (segment, index) => .pop segment index
  | .label => (nameOnly operands).map .label
  | .goto => (nameOnly operands).map .goto
  | .ifGoto => (nameOnly operands).map .ifGoto
  | .function => (nameAndNumber operands).map fun (name, locals) => .function name locals
  | .call => (nameAndNumber operands).map fun (name, arguments) => .call name arguments
  | .ret => .ok .ret

end Command

end HackToolchain
