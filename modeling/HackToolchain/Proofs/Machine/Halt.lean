import HackToolchain.Proofs.Machine.Memory
import HackToolchain.Proofs.Machine.Run

/-!
Halt loops. A core halts at a jump that leads back to the instruction in front of it, which loads its
own address. Executed on, the two instructions repeat themselves exactly when the jump computes once
more the value it has computed. A jump that stores its value neither in `D` nor in memory always does.
-/

namespace HackToolchain

def Computation.valueIn (computation : Computation) (c : Core) : Word :=
  computation.function.eval (if computation.memory then c.memory.get c.a.toInt.toNat else c.a) c.d

namespace Core

/-- The core after one more instruction, whether or not it halted before. -/
def resume (c : Core) : Option Core :=
  if c.pc < 0 then none
  else match c.rom[c.pc.toNat]? with
    | none => none
    | some i =>
      match c.execute i with
      | (.advanced, after) => some after
      | _ => none

def resumes : Nat → Core → Option Core
  | 0, c => some c
  | n + 1, c => c.resume.bind (resumes n)

/-- Execution goes on for ever between the instruction at the counter and the one behind it, which jumps
back every time, and neither `D` nor the memory changes. -/
def Spins (c : Core) : Prop :=
  ∀ n, ∃ here next, c.resumes (2 * n) = some here ∧ here.resume = some next ∧
    here.pc = c.pc ∧ here.d = c.d ∧ here.memory = c.memory ∧
    next.pc = c.pc + 1 ∧ next.d = c.d ∧ next.memory = c.memory

theorem resume_execute {c : Core} {i : Instruction} (nonneg : 0 ≤ c.pc) (here : c.rom[c.pc.toNat]? = some i) :
    c.resume = match c.execute i with | (.advanced, after) => some after | _ => none := by
  rw [resume, if_neg (by omega), here]

theorem resumes_add (c : Core) (n m : Nat) : c.resumes (n + m) = (c.resumes n).bind (resumes m) := by
  induction n generalizing c with
  | zero => rw [Nat.zero_add]; rfl
  | succ n ih =>
    rw [show n + 1 + m = (n + m) + 1 by omega, resumes, resumes]
    cases c.resume with
    | none => rfl
    | some after => exact ih after

/-! ### Jumps -/

/-- The core behind a jump that is taken, and the one behind a jump that is not. -/
def jumped (c : Core) (dest : Text) (value : Word) : Core :=
  { c.store dest value with halted := c.halted || isHaltLoop c.rom c.pc c.a.toInt, pc := c.a.toInt }

def passed (c : Core) (dest : Text) (value : Word) : Core :=
  { c.store dest value with pc := c.pc + 1 }

/-- An instruction computes and then jumps on a condition, and what it reads and writes is in the memory. -/
structure Jumps (c : Core) (i : Instruction) (dest : Text) (computation : Computation) (condition : Jump) : Prop where
  code : ∃ comp jump, i.operation = .compute dest comp jump ∧ Computation.ofText? comp = some computation ∧
    jump ≠ [] ∧ Jump.ofText? jump = some condition
  reads : (computation.memory && !Memory.isAddress c.a.toInt) = false
  writes : (dest.contains Register.M.letter && !Memory.isAddress c.a.toInt) = false

theorem Jumps.execute {c : Core} {i : Instruction} {dest : Text} {computation : Computation} {condition : Jump}
    (jumps : c.Jumps i dest computation condition) :
    c.execute i = (.advanced, if condition.holds (computation.valueIn c) then c.jumped dest (computation.valueIn c)
      else c.passed dest (computation.valueIn c)) := by
  obtain ⟨comp, jump, operation, computes, some, known⟩ := jumps.code
  simp only [Core.execute, operation, compute, computes, jumps.reads, jumps.writes, Bool.false_eq_true, if_false,
    proceed, if_neg some, known]
  show (if condition.holds (computation.valueIn c) then _ else _) = _
  split
  · rfl
  · rfl

/-- Only a jump that is taken can halt a core. -/
theorem execute_cases {c after : Core} {i : Instruction} {progress : Progress}
    (executed : c.execute i = (progress, after)) :
    after.halted = c.halted ∨ progress = .advanced ∧ ∃ dest computation condition, c.Jumps i dest computation condition ∧
      condition.holds (computation.valueIn c) = true ∧ after = c.jumped dest (computation.valueIn c) := by
  cases operation : i.operation with
  | compute dest comp jump =>
    have opened := executed
    simp only [Core.execute, operation, compute] at opened
    split at opened
    · exact .inl (by rw [← (Prod.mk.inj opened).2])
    · rename_i computation computes
      split at opened
      · exact .inl (by rw [← (Prod.mk.inj opened).2])
      · rename_i reads
        split at opened
        · exact .inl (by rw [← (Prod.mk.inj opened).2])
        · rename_i writes
          by_cases plain : jump = []
          · rw [proceed, if_pos plain] at opened
            exact .inl (by rw [← (Prod.mk.inj opened).2]; rfl)
          · cases known : Jump.ofText? jump with
            | none =>
              rw [proceed, if_neg plain, known] at opened
              exact .inl (by rw [← (Prod.mk.inj opened).2]; rfl)
            | some condition =>
              have jumps : c.Jumps i dest computation condition :=
                ⟨⟨comp, jump, operation, computes, plain, known⟩, by simpa using reads, by simpa using writes⟩
              obtain ⟨rfl, rfl⟩ := Prod.mk.inj (executed.symm.trans jumps.execute)
              cases taken : condition.holds (computation.valueIn c) with
              | false => exact .inl rfl
              | true => exact .inr ⟨rfl, dest, computation, condition, jumps, taken, rfl⟩
  | _ =>
    simp only [Core.execute, operation] at executed
    exact .inl (by rw [← (Prod.mk.inj executed).2])

theorem tick_halts {c after : Core} {last : Tick} {i : Instruction} (running : c.halted = false)
    (here : c.rom[c.pc.toNat]? = some i) (ticked : c.tick = (last, after)) (halted : after.halted = true) :
    ∃ dest computation condition, c.Jumps i dest computation condition ∧ condition.holds (computation.valueIn c) = true ∧
      after = { c.jumped dest (computation.valueIn c) with cycles := c.cycles + 1 } := by
  -- Every other way through a tick leaves the core running, which `after` is not.
  have apart : ∀ {d : Core}, d.halted = c.halted → d ≠ after := by
    rintro d same rfl
    exact absurd ((same.trans running).symm.trans halted) Bool.false_ne_true
  unfold tick at ticked
  split at ticked
  · exact absurd (Prod.mk.inj ticked).2 (apart rfl)
  · split at ticked
    · exact absurd (Prod.mk.inj ticked).2 (apart rfl)
    · split at ticked
      · exact absurd (Prod.mk.inj ticked).2 (apart rfl)
      · simp only [here] at ticked
        rcases executed : c.execute i with ⟨progress, next⟩
        rw [executed] at ticked
        rcases execute_cases executed with same | ⟨rfl, dest, computation, condition, jumps, taken, rfl⟩
        · cases progress with
          | advanced => exact absurd (Prod.mk.inj ticked).2 (apart same)
          | faulted fault => exact absurd (Prod.mk.inj ticked).2 (apart same)
          | crashed => exact absurd (Prod.mk.inj ticked).2 (apart same)
        · exact ⟨dest, computation, condition, jumps, taken, (Prod.mk.inj ticked).2.symm⟩

theorem isHaltLoop_iff {rom : Array Instruction} {pc target : Int} :
    isHaltLoop rom pc target = true ↔
      target = pc - 1 ∧ 0 ≤ target ∧ ∃ loads symbol, rom[target.toNat]? = some loads ∧ loads.operation = .address symbol target := by
  unfold isHaltLoop
  cases found : rom[target.toNat]? with
  | none => simp
  | some loads => cases operation : loads.operation <;> simp [operation, and_assoc]

/-! ### Rounds -/

/-- A core brought back to the jump of another one. -/
def atJump (c d : Core) : Core := { d with a := c.a, pc := c.pc }

/-- A core stands at a jump that leads back to the instruction in front of it, which loads its own
address. -/
structure ClosesLoop (c : Core) (i loads : Instruction) (dest : Text) (computation : Computation) (condition : Jump) :
    Prop where
  here : c.rom[c.pc.toNat]? = some i
  jumps : c.Jumps i dest computation condition
  back : c.a.toInt = c.pc - 1
  inside : 0 ≤ c.a.toInt
  there : c.rom[c.a.toInt.toNat]? = some loads
  itself : ∃ symbol, loads.operation = .address symbol c.a.toInt

section Rounds

variable {c d : Core} {i loads : Instruction} {dest : Text} {computation : Computation} {condition : Jump}

theorem ClosesLoop.resume_target (loop : c.ClosesLoop i loads dest computation condition) (rom : d.rom = c.rom)
    (pc : d.pc = c.a.toInt) : d.resume = some (c.atJump d) := by
  obtain ⟨symbol, operation⟩ := loop.itself
  have inside := loop.inside
  have back := loop.back
  rw [resume_execute (by omega) (show d.rom[d.pc.toNat]? = some loads by rw [rom, pc]; exact loop.there)]
  simp only [Core.execute, operation, Int16.ofInt_toInt]
  rw [show d.pc + 1 = c.pc by omega]
  rfl

theorem ClosesLoop.resume_jump (loop : c.ClosesLoop i loads dest computation condition) (rom : d.rom = c.rom)
    (pc : d.pc = c.pc) (a : d.a = c.a) :
    d.resume = some (if condition.holds (computation.valueIn d) then d.jumped dest (computation.valueIn d)
      else d.passed dest (computation.valueIn d)) := by
  have inside := loop.inside
  have back := loop.back
  have jumps : d.Jumps i dest computation condition :=
    ⟨loop.jumps.code, by rw [a]; exact loop.jumps.reads, by rw [a]; exact loop.jumps.writes⟩
  rw [resume_execute (by omega) (show d.rom[d.pc.toNat]? = some i by rw [rom, pc]; exact loop.here), jumps.execute]

theorem ClosesLoop.round (loop : c.ClosesLoop i loads dest computation condition) (rom : d.rom = c.rom)
    (pc : d.pc = c.a.toInt) :
    d.resumes 2 = some (if condition.holds (computation.valueIn (c.atJump d))
      then (c.atJump d).jumped dest (computation.valueIn (c.atJump d))
      else (c.atJump d).passed dest (computation.valueIn (c.atJump d))) := by
  simp only [resumes, loop.resume_target rom pc, Option.bind_some]
  rw [loop.resume_jump (d := c.atJump d) rom rfl rfl]
  rfl

/-- If a round leaves `D` and the memory as they are, the jump computed the same value. -/
theorem ClosesLoop.value_of_round (loop : c.ClosesLoop i loads dest computation condition) {value : Word}
    (back : d.d = (c.store dest (computation.valueIn c)).d ∧ d.memory = (c.store dest (computation.valueIn c)).memory)
    (same : ((c.atJump d).store dest value).d = d.d ∧ ((c.atJump d).store dest value).memory = d.memory)
    (computed : value = computation.valueIn (c.atJump d)) : value = computation.valueIn c := by
  -- Either the value is stored in one of them, or nothing it was computed from has changed.
  by_cases inD : dest.contains Register.D.letter = true
  · have stored := same.1.trans back.1
    simpa only [store, if_pos inD] using stored
  · by_cases inM : dest.contains Register.M.letter = true
    · have stored := congrArg (fun m => m.get c.a.toInt.toNat) (same.2.trans back.2)
      have fits : c.a.toInt.toNat < 32768 := by
        have writes := loop.jumps.writes
        rw [inM, Bool.true_and, Bool.not_eq_false'] at writes
        exact Memory.isAddress_fits writes
      simpa only [store, if_pos inM, atJump, Memory.get_set_self _ _ fits] using stored
    · have kept : d.d = c.d ∧ d.memory = c.memory := by simpa only [store, if_neg inD, if_neg inM] using back
      rw [computed]
      simp only [Computation.valueIn, atJump, kept]

theorem jumped_again (halts : isHaltLoop c.rom c.pc c.a.toInt = true) (value : Word) (cycles : Nat) :
    (c.atJump { c.jumped dest value with cycles }).jumped dest value = { c.jumped dest value with cycles } := by
  simp only [atJump, jumped, store, halts, Bool.or_true]
  cases dest.contains Register.M.letter with
  | true => cases dest.contains Register.D.letter <;> simp [Memory.set_set]
  | false => cases dest.contains Register.D.letter <;> simp

theorem resumes_rounds (round : d.resumes 2 = some d) (n : Nat) : d.resumes (2 * n) = some d := by
  induction n with
  | zero => rfl
  | succ n ih => rw [Nat.mul_succ, resumes_add, ih, Option.bind_some, round]

/-- The loop is a fixed one exactly when the jump, taken once, computes its value again. -/
theorem ClosesLoop.spins_iff (loop : c.ClosesLoop i loads dest computation condition)
    (taken : condition.holds (computation.valueIn c) = true) (halts : isHaltLoop c.rom c.pc c.a.toInt = true) (cycles : Nat) :
    Spins { c.jumped dest (computation.valueIn c) with cycles } ↔
      computation.valueIn (c.atJump { c.jumped dest (computation.valueIn c) with cycles }) = computation.valueIn c := by
  have back := loop.back
  generalize behind : ({ c.jumped dest (computation.valueIn c) with cycles } : Core) = d
  have rom : d.rom = c.rom := by rw [← behind]; rfl
  have pc : d.pc = c.a.toInt := by rw [← behind]; rfl
  have round := loop.round rom pc
  constructor
  · -- One round is enough: it ends at the target, so the jump was taken, and it has stored what was there.
    intro spins
    obtain ⟨after, -, reached, -, returned, sameD, sameMemory, -⟩ := spins 1
    rw [Nat.mul_one, round] at reached
    obtain rfl := Option.some.inj reached
    cases again : condition.holds (computation.valueIn (c.atJump d)) with
    | false =>
      rw [again, if_neg Bool.false_ne_true] at returned
      have returned : c.pc + 1 = d.pc := returned
      omega
    | true =>
      simp only [again, if_true] at sameD sameMemory
      exact loop.value_of_round (by rw [← behind]; exact ⟨rfl, rfl⟩) ⟨sameD, sameMemory⟩ rfl
  · intro same n
    have repeated : d.resumes 2 = some d := by
      rw [round, same, if_pos taken, ← behind, jumped_again halts]
    refine ⟨d, c.atJump d, resumes_rounds repeated n, loop.resume_target rom pc, rfl, rfl, rfl, ?_, rfl, rfl⟩
    show c.pc = d.pc + 1
    omega

end Rounds

/-- When a core halts at a jump, it halts in a loop of that jump and the instruction in front of it. What
would follow is the same for ever exactly when the jump computes its value again from what it has stored,
and so it is for a jump that stores nothing but the address register. -/
theorem halt_loop_iff {c after : Core} {last : Tick} {i : Instruction} (running : c.halted = false)
    (here : c.rom[c.pc.toNat]? = some i) (ticked : c.tick = (last, after)) (halted : after.halted = true) :
    ∃ dest comp jump computation, i.operation = .compute dest comp jump ∧ Computation.ofText? comp = some computation ∧
      after.pc + 1 = c.pc ∧
      (∃ loads symbol, c.rom[after.pc.toNat]? = some loads ∧ loads.operation = .address symbol after.pc) ∧
      (after.Spins ↔ computation.valueIn { after with a := c.a } = computation.valueIn c) ∧
      (Register.D.letter ∉ dest → Register.M.letter ∉ dest → after.Spins) := by
  obtain ⟨dest, computation, condition, jumps, taken, rfl⟩ := tick_halts running here ticked halted
  have halts : isHaltLoop c.rom c.pc c.a.toInt = true := by simpa [jumped, running] using halted
  obtain ⟨back, inside, loads, symbol, there, itself⟩ := isHaltLoop_iff.mp halts
  obtain ⟨comp, jump, operation, computes, -⟩ := jumps.code
  have loop : c.ClosesLoop i loads dest computation condition := ⟨here, jumps, back, inside, there, symbol, itself⟩
  have spins := loop.spins_iff taken halts (c.cycles + 1)
  refine ⟨dest, comp, jump, computation, operation, computes, ?_, ⟨loads, symbol, there, itself⟩, spins, ?_⟩
  · show c.a.toInt + 1 = c.pc
    omega
  · intro notD notM
    refine spins.mpr ?_
    have notD : dest.contains Register.D.letter = false := by simpa using notD
    have notM : dest.contains Register.M.letter = false := by simpa using notM
    simp only [Computation.valueIn, atJump, jumped, store, notD, notM, Bool.false_eq_true, if_false]

def idiom : List Instruction := [⟨.address "END" 0, 2, "@END"⟩, ⟨.compute [] "0" "JMP", 3, "0;JMP"⟩]

/-- Counts `D` down from three in a loop of two instructions, and then ends. -/
def countdown : List Instruction :=
  [⟨.address "3" 3, 1, "@3"⟩, ⟨.compute "D" "A" [], 2, "D=A"⟩, ⟨.address "LOOP" 2, 4, "@LOOP"⟩,
    ⟨.compute "D" "D-1" "JGT", 5, "D=D-1;JGT"⟩]

/-- The idiom for a halt is a fixed loop. A countdown is taken for one after its first step. -/
theorem halt_loop_iff_countdown :
    (∃ program, Program.load "(END)\n@END\n0;JMP\n" = .ok program ∧
      let c := (((fresh 0).map program.code).run 1).2
      c.tick.2.halted = true ∧ c.tick.2.Spins) ∧
    ∃ program, Program.load "@3\nD=A\n(LOOP)\n@LOOP\nD=D-1;JGT\n" = .ok program ∧
      let c := (((fresh 0).map program.code).run 3).2
      c.tick.2.halted = true ∧ c.tick.2.d = 2 ∧ ¬ c.tick.2.Spins := by
  have loads {source : Text} {code : List Instruction}
      (bound : (Program.load source).toOption.map (·.code) = some code) :
      ∃ program, Program.load source = .ok program ∧ program.code = code := by
    cases found : Program.load source with
    | error e => rw [found] at bound; cases bound
    | ok program => rw [found] at bound; exact ⟨program, rfl, Option.some.inj bound⟩
  constructor
  · obtain ⟨program, loaded, code⟩ := @loads "(END)\n@END\n0;JMP\n" idiom (by decide +kernel)
    have ticked : (((fresh 0).map idiom).run 1).2.tick =
        (.stopped, { (fresh 0).map idiom with cycles := 2, halted := true }) := by rfl
    refine ⟨program, loaded, ?_⟩
    rw [code]
    dsimp only
    rw [ticked]
    refine ⟨rfl, ?_⟩
    obtain ⟨dest, comp, jump, computation, operation, -, -, -, -, plain⟩ := halt_loop_iff rfl rfl ticked rfl
    obtain ⟨rfl, -, -⟩ := Operation.compute.inj operation
    exact plain (by decide) (by decide)
  · obtain ⟨program, loaded, code⟩ := @loads "@3\nD=A\n(LOOP)\n@LOOP\nD=D-1;JGT\n" countdown (by decide +kernel)
    have ticked : (((fresh 0).map countdown).run 3).2.tick =
        (.stopped, { (fresh 0).map countdown with pc := 2, a := 2, d := 2, cycles := 4, halted := true }) := by rfl
    refine ⟨program, loaded, ?_⟩
    rw [code]
    dsimp only
    rw [ticked]
    refine ⟨rfl, rfl, ?_⟩
    obtain ⟨dest, comp, jump, computation, operation, computes, -, -, spins, -⟩ := halt_loop_iff rfl rfl ticked rfl
    obtain ⟨-, rfl, -⟩ := Operation.compute.inj operation
    obtain rfl := Option.some.inj computes
    rw [spins]
    decide

end Core

end HackToolchain
