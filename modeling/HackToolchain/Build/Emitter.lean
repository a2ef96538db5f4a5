import HackToolchain.Emission.Session
import HackToolchain.File.Tree

/-!
What a build drives: something that takes a bootstrap, units, commands and a final flush, any of which
but the unit may fail. A session is one; others keep a trace of what is asked of them.
-/

namespace HackToolchain.Build

/-- Operations on a state that collects generated code. What was noted may stand in a file of the tree,
where it is found by whoever reads the file meanwhile. -/
structure Emitter (σ ε : Type) where
  bootstrap : EStateM ε σ Unit
  setUnit : Text → σ → σ
  write : Command → EStateM ε σ Unit
  flush : EStateM ε σ Unit
  note : Log.Record → σ → σ
  delivered : σ → Text
  noted : σ → Tree → Tree := fun _ tree => tree

def Emitter.session : Emitter Emission.Session Emission.EmitError where
  bootstrap := Emission.Session.writeBootstrap
  setUnit := Emission.Session.setUnit
  write := Emission.Session.write
  flush := Emission.Session.flush
  note := Emission.Session.note
  delivered s := s.sink.delivered.toList

/-- Sessions whose notes are found in the tree. -/
def Emitter.logging (noted : Emission.Session → Tree → Tree) : Emitter Emission.Session Emission.EmitError :=
  { Emitter.session with noted }

/-! ### Traces of calls -/

/-- What can be asked of an emitter. -/
inductive Call
  | bootstrap
  | unit (name : Text)
  | write (c : Command)
  | flush
deriving DecidableEq, Repr

/-- Calls in their order, each with the error it ended in, if it did. -/
abbrev Trace (ε : Type) := List (Call × Option ε)

def traceCall {σ ε : Type} (call : Call) (action : EStateM ε σ Unit) : EStateM ε (σ × Trace ε) Unit :=
  fun (s, trace) =>
    match action s with
    | .ok _ after => .ok () (after, trace ++ [(call, none)])
    | .error cause after => .error cause (after, trace ++ [(call, some cause)])

/-- An emitter that keeps a trace beside the state of another one and otherwise does what that does. -/
def Emitter.traced {σ ε : Type} (e : Emitter σ ε) : Emitter (σ × Trace ε) ε where
  bootstrap := traceCall .bootstrap e.bootstrap
  setUnit name := fun (s, trace) => (e.setUnit name s, trace ++ [(.unit name, none)])
  write c := traceCall (.write c) (e.write c)
  flush := traceCall .flush e.flush
  note r := fun (s, trace) => (e.note r s, trace)
  delivered := fun (s, _) => e.delivered s
  noted := fun (s, _) => e.noted s

/-- Counts down the calls and fails at the last one. -/
def countDown : EStateM Unit Nat Unit := fun n => if n = 1 then .error () 0 else .ok () (n - 1)

/-- An emitter without output. Its state is the number of calls up to the one that fails, zero for none;
a unit cannot fail. -/
def Emitter.failing : Emitter Nat Unit where
  bootstrap := countDown
  setUnit _ := (· - 1)
  write _ := countDown
  flush := countDown
  note _ := id
  delivered _ := []

end HackToolchain.Build
