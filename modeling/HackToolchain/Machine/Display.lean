import HackToolchain.Log
import HackToolchain.Machine.Core
import HackToolchain.Table

/-!
What a core shows of itself: its registers and the live part of the stack as tables, and log records
for each instruction and for the state a run ends in.
-/

namespace HackToolchain.Core

def numeral (w : Word) : Text := Text.ofInt w.toInt

def registerTable (c : Core) : Table :=
  { title := some ("Hack state after " ++ Text.ofNat c.cycles ++ " cycles")
    header := ["PC", "A", "D", "SP", "LCL", "ARG", "THIS", "THAT"]
    numeric := List.replicate 8 true
    rows := [Text.ofInt c.pc :: numeral c.a :: numeral c.d :: (List.range 5).map fun n => numeral (c.word n)]
    footer := none }

/-- The first address of the stack in the usual layout. -/
def stackFloor : Int := 256

/-- The words below the stack pointer, the top first and at most eight; none when the pointer does not
point into the stack. -/
def stackTable (c : Core) : Option Table :=
  let pointer := (c.word 0).toInt
  let base := max (pointer - 8) stackFloor
  if pointer ≤ base then none
  else
    let addresses := (List.range (pointer - base).toNat).map fun n => (pointer - 1).toNat - n
    some
      { title := some "Stack"
        header := ["Addr", "Value"]
        numeric := [true, true]
        rows := addresses.map fun address => [Text.ofNat address, numeral (c.word address)]
        footer := none }

def display (c : Core) : Text :=
  c.registerTable.render ++ (c.stackTable.map Table.render).getD []

def traceRecord (time : Nat) (pc : Int) (text : Text) (after : Core) : Log.Record :=
  { level := .trace
    message := "Inst"
    fields := [("Time", .number time), ("PC", .number pc), ("Inst", .text text), ("A", .number after.a.toInt),
      ("D", .number after.d.toInt), ("SP", .number (after.word 0).toInt)] }

def stateRecord (c : Core) : Log.Record :=
  { level := .debug
    message := "StateCheckpoint"
    fields := [("PC", .number c.pc), ("A", .number c.a.toInt), ("D", .number c.d.toInt),
      ("SP", .number (c.word 0).toInt), ("LCL", .number (c.word 1).toInt), ("ARG", .number (c.word 2).toInt),
      ("THIS", .number (c.word 3).toInt), ("THAT", .number (c.word 4).toInt), ("Cycles", .number c.cycles),
      ("Halted", .flag c.halted)] }

/-- Ticks and adds a record of an executed instruction. Each tick takes `step` units of time. -/
def tickLogged (step made : Nat) : Core × List Log.Record → Tick × Core × List Log.Record
  | (c, log) =>
    let pc := c.pc
    let cycles := c.cycles
    let text := (c.rom[pc.toNat]?.map Instruction.text).getD []
    let (progress, after) := c.tick
    (progress, after, if after.cycles = cycles then log else traceRecord (step * made) pc text after :: log)

/-- Ticks like `ticks` and collects a record of every executed instruction, the newest first. -/
def ticksLogged (step n made : Nat) (log : List Log.Record) (c : Core) : Nat × Tick × Core × List Log.Record :=
  ticking (tickLogged step) n made (c, log)

/-- Runs a program in a fresh core until it stops, and logs the state of a core that did not fault. With
`traced` every instruction is logged too. The newest record comes first, and an address that selects no
word comes back. -/
def simulate (code : List Instruction) (presets : List (Int × Word)) (limit : Int) (traced : Bool) :
    Except Int (Core × List Log.Record) :=
  match boot code presets limit with
  | .error address => .error address
  | .ok c =>
    let (c, log) :=
      if traced then
        let (_, _, after, log) := c.ticksLogged 1 (horizon limit) 0 []
        (after, log)
      else ((c.run (horizon limit)).2, [])
    .ok (c, if c.fault.isSome then log else c.stateRecord :: log)

end HackToolchain.Core
