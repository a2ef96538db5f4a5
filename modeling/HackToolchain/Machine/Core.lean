import HackToolchain.Machine.Memory
import HackToolchain.Machine.Program

/-!
The processor of the Hack computer, one instruction a tick. A tick that faults changes nothing but
the recorded fault, and a core that halted or faulted stays as it is until a program is mapped.
-/

namespace HackToolchain

/-- Why a core stopped other than by halting. -/
inductive Fault
  | cycleLimit (cycles : Nat)
  | counterRange (pc : Int)
  | readRange (address pc : Int)
  | writeRange (address pc : Int)
  | unknownComp (comp : Text)
  | notExecutable (text : Text)
deriving DecidableEq, Repr

def Fault.message : Fault → Text
  | .cycleLimit cycles => "cycle limit reached before halt: " ++ Text.ofNat cycles ++ " cycles"
  | .counterRange pc => "memory address out of range: pc " ++ Text.ofInt pc
  | .readRange address pc =>
    "memory address out of range: read " ++ Text.ofInt address ++ " at pc " ++ Text.ofInt pc
  | .writeRange address pc =>
    "memory address out of range: write " ++ Text.ofInt address ++ " at pc " ++ Text.ofInt pc
  | .unknownComp comp => "unknown comp " ++ comp.quote
  | .notExecutable text => "cannot execute " ++ text.quote

/-- A processor with its program and memory. A limit that is not positive is no limit. -/
structure Core where
  rom : Array Instruction
  pc : Int
  a : Word
  d : Word
  memory : Memory
  cycles : Nat
  halted : Bool
  limit : Int
  fault : Option Fault

/-- How an instruction or a tick ended. A crash is a jump on a condition that does not exist. -/
inductive Core.Progress
  | advanced
  | faulted (fault : Fault)
  | crashed
deriving DecidableEq, Repr

namespace Core

/-- The number of cycles a core runs unless told otherwise. -/
def defaultLimit : Int := 1000000

/-- A core with zeroed registers and memory and no program. -/
def fresh (limit : Int) : Core :=
  { rom := #[], pc := 0, a := 0, d := 0, memory := .zero, cycles := 0, halted := false, limit, fault := none }

/-- Puts a program into the core and resets the program counter. Registers and memory are kept. -/
def map (c : Core) (code : List Instruction) : Core :=
  { c with rom := code.toArray, pc := 0, cycles := 0, halted := false, fault := none }

def word (c : Core) (address : Nat) : Word := c.memory.get address

/-! ### Instructions -/

/-- Whether a jump at `pc` leads back to the instruction before it, which loads its own address. -/
def isHaltLoop (rom : Array Instruction) (pc target : Int) : Bool :=
  target == pc - 1 && 0 ≤ target &&
    match rom[target.toNat]? with
    | some i => match i.operation with
      | .address _ value => value == target
      | _ => false
    | none => false

/-- Goes on after a computed value is stored: to `target` if the jump is taken, else to the next
instruction. -/
def proceed (c : Core) (jump : Text) (value : Word) (target : Int) : Progress × Core :=
  if jump = [] then (.advanced, { c with pc := c.pc + 1 })
  else match Jump.ofText? jump with
    | none => (.crashed, c)
    | some condition =>
      if condition.holds value then
        (.advanced, { c with halted := c.halted || isHaltLoop c.rom c.pc target, pc := target })
      else (.advanced, { c with pc := c.pc + 1 })

/-- Stores a computed value in the places a destination names; memory is addressed by the address
register as it was before. -/
def store (c : Core) (dest : Text) (value : Word) : Core :=
  { c with
    memory := if dest.contains Register.M.letter then c.memory.set c.a.toInt.toNat value else c.memory
    a := if dest.contains Register.A.letter then value else c.a
    d := if dest.contains Register.D.letter then value else c.d }

def compute (c : Core) (dest comp jump : Text) : Progress × Core :=
  match Computation.ofText? comp with
  | none => (.faulted (.unknownComp comp), c)
  | some computation =>
    let address := c.a.toInt
    let pc := c.pc
    if computation.memory && !Memory.isAddress address then (.faulted (.readRange address pc), c)
    else
      let x := if computation.memory then c.memory.get address.toNat else c.a
      let value := computation.function.eval x c.d
      if dest.contains Register.M.letter && !Memory.isAddress address then (.faulted (.writeRange address pc), c)
      else (c.store dest value).proceed jump value address

def execute (c : Core) (i : Instruction) : Progress × Core :=
  match i.operation with
  | .address _ value => (.advanced, { c with a := Int16.ofInt value, pc := c.pc + 1 })
  | .compute dest comp jump => c.compute dest comp jump
  | .label _ | .unknown => (.faulted (.notExecutable i.text), c)

/-! ### Ticks -/

/-- How a tick went: with more to come, the last one, or a crash. -/
inductive Tick
  | running
  | stopped
  | crashed
deriving DecidableEq, Repr

/-- Records the fault that stops the core. -/
def fail (c : Core) (fault : Fault) : Tick × Core := (.stopped, { c with fault := some fault })

/-- Runs one instruction. The cycle limit is checked first, then the program counter; beyond the end
of the program the core halts. -/
def tick (c : Core) : Tick × Core :=
  if c.halted || c.fault.isSome then (.stopped, c)
  else if 0 < c.limit ∧ c.limit ≤ c.cycles then c.fail (.cycleLimit c.cycles)
  else if c.pc < 0 then c.fail (.counterRange c.pc)
  else match c.rom[c.pc.toNat]? with
    | none => (.stopped, { c with halted := true })
    | some i =>
      match c.execute i with
      | (.advanced, after) =>
        (if after.halted then .stopped else .running, { after with cycles := after.cycles + 1 })
      | (.faulted fault, after) => after.fail fault
      | (.crashed, after) => (.crashed, after)

/-- Ticks something at most `n` times, up to the tick that stops it. `made` ticks were made before, and those
up to the last are counted. -/
def ticking {α : Type} (tick : (made : Nat) → α → Tick × α) : (n made : Nat) → α → Nat × Tick × α
  | 0, made, a => (made, .running, a)
  | n + 1, made, a =>
    match tick made a with
    | (.running, after) => ticking tick n (made + 1) after
    | (last, after) => (made + 1, last, after)

/-- The core after at most `n` ticks, and the number of ticks made. -/
def ticks (n made : Nat) (c : Core) : Nat × Tick × Core := ticking (fun _ => tick) n made c

/-- The core after at most `n` ticks. -/
def run (n : Nat) (c : Core) : Tick × Core := (c.ticks n 0).2

/-- The number of ticks within which a run is followed. Under a limit the core stops within it; a run
without a limit is followed for 2^62 ticks. -/
def horizon (limit : Int) : Nat := if 0 < limit then limit.toNat + 1 else 0x4000000000000000

/-! ### Access from outside -/

def badAddressMessage (address : Int) : Text := "invalid RAM address " ++ Text.ofInt address

/-- Stores a word from outside; the address comes back when it selects none. -/
def poke (c : Core) (address : Int) (value : Word) : Except Int Core :=
  if Memory.isAddress address then .ok { c with memory := c.memory.set address.toNat value }
  else .error address

/-- Reads a word from outside; the address comes back when it selects none. -/
def peek (c : Core) (address : Int) : Except Int Word :=
  match c.memory.read? address with
  | some value => .ok value
  | none => .error address

def stackTop (c : Core) : Except Int Word := c.peek ((c.word 0).toInt - 1)

/-- A fresh core with a program and words stored in memory. -/
def boot (code : List Instruction) (presets : List (Int × Word)) (limit : Int) : Except Int Core :=
  presets.foldlM (fun c (address, value) => c.poke address value) ((fresh limit).map code)

end Core

end HackToolchain
