import HackToolchain.Command
import HackToolchain.Machine.Alu

/-!
The stack machine that commands are written for. It knows nothing of memory or code: a state is a
position in a list of commands and a stack of frames, and whatever is out of bounds or missing has no
next state.
-/

namespace HackToolchain.Reference

/-- The activation of a function. The top of the operand stack comes first, and `back` is the position
its caller goes on at. -/
structure Frame where
  arguments : List Word := []
  locals : List Word := []
  operands : List Word := []
  back : Nat := 0
deriving DecidableEq, Repr

/-- A state of the stack machine, with the frames of the callers, the latest first. -/
structure State where
  position : Nat
  frame : Frame
  callers : List Frame
deriving DecidableEq, Repr

namespace Frame

def read (f : Frame) (segment : Text) (index : Nat) : Option Word :=
  if segment = "constant" then some (Int16.ofInt index)
  else if segment = "local" then f.locals[index]?
  else if segment = "argument" then f.arguments[index]?
  else none

def write (f : Frame) (segment : Text) (index : Nat) (value : Word) : Option Frame :=
  if segment = "local" then
    if index < f.locals.length then some { f with locals := f.locals.set index value } else none
  else if segment = "argument" then
    if index < f.arguments.length then some { f with arguments := f.arguments.set index value } else none
  else none

end Frame

/-- The result of an operation on two values; the truth values are -1 and 0. -/
def evaluate (operation : Text) (x y : Word) : Option Word :=
  if operation = "add" then some (x + y)
  else if operation = "sub" then some (x - y)
  else if operation = "eq" then some (if x - y = 0 then -1 else 0)
  else if operation = "gt" then some (if 0 < x - y then -1 else 0)
  else none

/-- Where the function begins that a position lies in, if it lies in one. -/
def scope (program : List Command) : Nat → Option Nat
  | 0 => none
  | i + 1 =>
    match program[i]? with
    | some (.function _ _) => some i
    | _ => scope program i

/-- Where a label of the function stands that a position lies in. -/
def target (program : List Command) (position : Nat) (name : Text) : Option Nat :=
  (List.range program.length).find? fun (i : Nat) =>
    program[i]? == some (.label name) && scope program i == scope program position

/-- Where a function begins, and the number of its locals. -/
def entry (program : List Command) (name : Text) : Option (Nat × Nat) :=
  (List.range program.length).findSome? fun (i : Nat) =>
    match program[i]? with
    | some (.function other locals) => if other = name then some (i, locals.toNat) else none
    | _ => none

/-- The state in which a function begins that is called from a frame. -/
def enter (program : List Command) (name : Text) (arguments : List Word) (back : Nat) (callers : List Frame) :
    Option State :=
  (entry program name).map fun (position, locals) =>
    { position := position + 1
      frame := { arguments, locals := List.replicate locals 0, back }
      callers }

/-- One command. A function is entered by calls only. -/
def step (program : List Command) : State → Option State
  | ⟨position, f, callers⟩ =>
    match program[position]?, f.operands with
    | some (.push segment (.ofNat i)), operands =>
      (f.read segment i).map fun value => ⟨position + 1, { f with operands := value :: operands }, callers⟩
    | some (.pop segment (.ofNat i)), value :: operands =>
      (Frame.write { f with operands } segment i value).map fun g => ⟨position + 1, g, callers⟩
    | some (.arithmetic operation), y :: x :: operands =>
      (evaluate operation x y).map fun value => ⟨position + 1, { f with operands := value :: operands }, callers⟩
    | some (.label _), _ => some ⟨position + 1, f, callers⟩
    | some (.goto name), _ => (target program position name).map fun there => ⟨there, f, callers⟩
    | some (.ifGoto name), value :: operands =>
      if value = 0 then some ⟨position + 1, { f with operands }, callers⟩
      else (target program position name).map fun there => ⟨there, { f with operands }, callers⟩
    | some (.call name (.ofNat n)), operands =>
      if n ≤ operands.length then
        enter program name (operands.take n).reverse (position + 1) ({ f with operands := operands.drop n } :: callers)
      else none
    | some .ret, value :: _ =>
      match callers with
      | caller :: callers => some ⟨f.back, { caller with operands := value :: caller.operands }, callers⟩
      | [] => none
    | _, _ => none

/-- The first state: the entry point is called without arguments from a frame of its own. -/
def start (program : List Command) (entryPoint : Text) : Option State := enter program entryPoint [] 0 [{}]

def run (program : List Command) : Nat → State → Option State
  | 0, s => some s
  | n + 1, s => (step program s).bind (run program n)

/-- The words that a frame and its callers take on a stack: a frame that was called takes five words
apart from its contents. -/
def extent (f : Frame) : List Frame → Nat
  | [] => f.locals.length + f.operands.length
  | caller :: callers => extent caller callers + f.arguments.length + 5 + f.locals.length + f.operands.length

def State.extent (s : State) : Nat := Reference.extent s.frame s.callers

end HackToolchain.Reference
