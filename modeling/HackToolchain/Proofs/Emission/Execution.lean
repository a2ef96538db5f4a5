import HackToolchain.Proofs.Emission.Layout
import HackToolchain.Proofs.Machine.Memory
import HackToolchain.Proofs.Machine.Run

/-!
Execution of generated code. Straight code is a function of the two registers and the memory; a core
at the start of such code that has cycles left makes one tick for each instruction and ends behind
the code with that function's result.
-/

namespace HackToolchain

/-- What straight code reads and changes. -/
structure Registers where
  a : Word
  d : Word
  memory : Memory

namespace Registers

/-- Stores a function of the registers, if the memory words it uses exist. -/
def compute (dest : List Register) (c : Computation) (r : Registers) : Option Registers :=
  if (c.memory || dest.contains .M) && !Memory.isAddress r.a.toInt then none
  else
    let result := c.function.eval (if c.memory then r.memory.get r.a.toInt.toNat else r.a) r.d
    some
      { a := if dest.contains .A then result else r.a
        d := if dest.contains .D then result else r.d
        memory := if dest.contains .M then r.memory.set r.a.toInt.toNat result else r.memory }

end Registers

namespace Core

def registers (c : Core) : Registers := { a := c.a, d := c.d, memory := c.memory }

/-- A core a number of ticks later. -/
def moved (c : Core) (ticks : Nat) (pc : Int) (r : Registers) : Core :=
  { c with a := r.a, d := r.d, memory := r.memory, pc, cycles := c.cycles + ticks }

theorem moved_moved (c : Core) (n m : Nat) (p q : Int) (r s : Registers) :
    (c.moved n p r).moved m q s = c.moved (n + m) q s := by
  simp [moved, Nat.add_assoc]

theorem Ready.moved {c : Core} {n m : Nat} (ready : c.Ready (n + m)) (pc : Int) (r : Registers) : (c.moved n pc r).Ready m := by
  refine ⟨ready.running, ready.sound, ?_⟩
  intro limited
  have room := ready.room limited
  show ((c.cycles + n : Nat) : Int) + m ≤ c.limit
  omega

theorem Free.moved {c : Core} (free : c.Free) (ticks : Nat) (pc : Int) (r : Registers) : (c.moved ticks pc r).Free :=
  ⟨free.sound, free.unlimited⟩

end Core

namespace Emission

namespace Line

def apply (value : Text → Int) : Line → Registers → Option Registers
  | .comment _, r | .label _, r => some r
  | .address symbol, r => some { r with a := Int16.ofInt (value symbol) }
  | .compute dest c none, r => if Computation.ofText? c.render = some c then r.compute dest c else none
  | .compute _ _ (some _), _ => none

end Line

def exec (value : Text → Int) : List Line → Registers → Option Registers
  | [], r => some r
  | line :: lines, r => (line.apply value r).bind (exec value lines)

theorem exec_append (value : Text → Int) (xs ys : List Line) (r : Registers) :
    exec value (xs ++ ys) r = (exec value xs r).bind (exec value ys) := by
  induction xs generalizing r with
  | nil => rfl
  | cons line xs ih =>
    simp only [List.cons_append, exec]
    cases line.apply value r with
    | none => rfl
    | some s => exact ih s

theorem stands_cons {rom : Array Instruction} {value : Text → Int} {start : Nat} {line : Line} {rest : List Line}
    {operation : Operation} (stands : Stands rom value start (line :: rest))
    (loaded : line.loaded? value = some operation) :
    (∃ i, rom[start]? = some i ∧ i.operation = operation) ∧ Stands rom value (start + 1) rest := by
  unfold Stands at stands ⊢
  rw [List.filterMap_cons, loaded] at stands
  obtain ⟨tail, split⟩ := stands
  have here : (rom.toList.map (·.operation))[start]? = some operation := by
    rw [← List.head?_drop, ← split]
    rfl
  rw [List.getElem?_map, Option.map_eq_some_iff] at here
  obtain ⟨i, found, same⟩ := here
  refine ⟨⟨i, by simpa using found, same⟩, tail, ?_⟩
  rw [← List.drop_drop, ← split]
  rfl

theorem contains_letter (dest : List Register) (r : Register) :
    (dest.map Register.letter).contains r.letter = dest.contains r := by
  have injective : ∀ q : Register, (r.letter == q.letter) = (r == q) := by
    intro q
    cases r <;> cases q <;> decide
  induction dest with
  | nil => rfl
  | cons q dest ih => rw [List.map_cons, List.contains_cons, List.contains_cons, ih, injective]

theorem compute_straight {c : Core} {dest : List Register} {comp : Computation} {r : Registers}
    (canonical : Computation.ofText? comp.render = some comp) (done : c.registers.compute dest comp = some r) :
    c.compute (dest.map Register.letter) comp.render [] =
      (.advanced, { c with a := r.a, d := r.d, memory := r.memory, pc := c.pc + 1 }) := by
  unfold Registers.compute at done
  split at done
  · cases done
  · rename_i fits
    obtain rfl := Option.some.inj done
    have readable : ¬ (comp.memory && !Memory.isAddress c.a.toInt) = true := by
      intro unreadable
      rw [Bool.and_eq_true] at unreadable
      exact fits (by rw [Bool.and_eq_true, Bool.or_eq_true]; exact ⟨.inl unreadable.1, unreadable.2⟩)
    have writable : ¬ (dest.contains .M && !Memory.isAddress c.a.toInt) = true := by
      intro unwritable
      rw [Bool.and_eq_true] at unwritable
      exact fits (by rw [Bool.and_eq_true, Bool.or_eq_true]; exact ⟨.inr unwritable.1, unwritable.2⟩)
    unfold Core.compute
    simp only [canonical, contains_letter]
    rw [if_neg readable, if_neg writable]
    simp only [Core.store, Core.proceed, contains_letter, if_true, Core.registers]

theorem tick_line {c : Core} {value : Text → Int} {start n : Nat} {line : Line} {i : Instruction} {r : Registers}
    (ready : c.Ready (n + 1)) (here : c.pc = start) (found : c.rom[start]? = some i)
    (loaded : line.loaded? value = some i.operation) (applied : line.apply value c.registers = some r) :
    c.tick = (.running, c.moved 1 (start + 1) r) := by
  have execute : c.execute i = (.advanced, { c with a := r.a, d := r.d, memory := r.memory, pc := c.pc + 1 }) := by
    cases line with
    | comment text => cases loaded
    | label symbol => cases loaded
    | address symbol =>
      obtain rfl := Option.some.inj applied
      rw [Core.execute, ← Option.some.inj loaded]
      rfl
    | compute dest comp jump =>
      cases jump with
      | some j => cases applied
      | none =>
        simp only [Line.apply] at applied
        split at applied
        · rename_i canonical
          rw [Core.execute, ← Option.some.inj loaded]
          exact compute_straight canonical applied
        · cases applied
  rw [Core.tick_ready ready (by omega) (by rw [here]; exact found), execute]
  simp [ready.running, Core.moved, here]

/-- Straight code runs to its end, one tick for each of its instructions. -/
theorem run_exec {c : Core} {value : Text → Int} {start : Nat} {lines : List Line} {r : Registers}
    (stands : Stands c.rom value start lines) (here : c.pc = start) (ready : c.Ready (codeSize lines))
    (done : exec value lines c.registers = some r) :
    c.run (codeSize lines) = (.running, c.moved (codeSize lines) (start + codeSize lines : Nat) r) := by
  induction lines generalizing c start with
  | nil =>
    obtain rfl := Option.some.inj done
    show (Core.Tick.running, c) = (.running, { c with pc := start })
    rw [← here]
  | cons line lines ih =>
    obtain ⟨s, applied, later⟩ := Option.bind_eq_some_iff.mp done
    cases loaded : line.loaded? value with
    | none =>
      have silent : line.isCode = false := by cases line <;> first | rfl | cases loaded
      have same : s = c.registers := by
        cases line with
        | comment text => exact (Option.some.inj applied).symm
        | label symbol => exact (Option.some.inj applied).symm
        | address symbol => cases loaded
        | compute dest comp jump => cases loaded
      have size : codeSize (line :: lines) = codeSize lines := by simp [codeSize, silent]
      rw [size] at ready ⊢
      unfold Stands at stands
      rw [List.filterMap_cons, loaded] at stands
      exact ih stands here ready (same ▸ later)
    | some operation =>
      have code : line.isCode = true := by cases line <;> first | rfl | cases loaded
      have size : codeSize (line :: lines) = codeSize lines + 1 := by simp [codeSize, code]
      obtain ⟨⟨i, found, rfl⟩, rest⟩ := stands_cons stands loaded
      rw [size] at ready ⊢
      have ticked := tick_line ready here found loaded applied
      have ready' : (c.moved 1 (start + 1) s).Ready (codeSize lines) := Core.Ready.moved (Nat.add_comm .. ▸ ready) _ s
      have after := @ih (c.moved 1 (start + 1) s) (start + 1) rest rfl ready' later
      rw [Core.run_running ticked, after]
      simp only [Core.moved]
      congr 2
      · omega
      · omega

theorem front_of_codeSize {lines : List Line} {n : Nat} (le : n ≤ codeSize lines) :
    ∃ front back, lines = front ++ back ∧ codeSize front = n := by
  induction lines generalizing n with
  | nil =>
    obtain rfl : n = 0 := Nat.le_zero.mp le
    exact ⟨[], [], rfl, rfl⟩
  | cons line lines ih =>
    cases n with
    | zero => exact ⟨[], line :: lines, rfl, rfl⟩
    | succ n =>
      cases code : line.isCode with
      | true =>
        have size : codeSize (line :: lines) = codeSize lines + 1 := by simp [codeSize, code]
        obtain ⟨front, back, rfl, whole⟩ := @ih n (by omega)
        exact ⟨line :: front, back, rfl, by simp [codeSize, code, ← whole]⟩
      | false =>
        have size : codeSize (line :: lines) = codeSize lines := by simp [codeSize, code]
        obtain ⟨front, back, rfl, whole⟩ := @ih (n + 1) (by omega)
        exact ⟨line :: front, back, rfl, by simp [codeSize, code, ← whole]⟩

/-- On its way through straight code a core makes one step forward with each tick. -/
theorem run_within {c : Core} {value : Text → Int} {start n : Nat} {lines : List Line} {r : Registers}
    (stands : Stands c.rom value start lines) (here : c.pc = start) (ready : c.Ready (codeSize lines))
    (done : exec value lines c.registers = some r) (le : n ≤ codeSize lines) :
    ∃ s, c.run n = (.running, c.moved n (start + n : Nat) s) := by
  obtain ⟨front, back, rfl, rfl⟩ := front_of_codeSize le
  rw [exec_append] at done
  obtain ⟨s, first, -⟩ := Option.bind_eq_some_iff.mp done
  exact ⟨s, run_exec (stands_append.mp stands).1 here (ready.mono le) first⟩

theorem canonical_register (f : Alu) : Computation.ofText? (Computation.render ⟨f, false⟩) = some ⟨f, false⟩ := by
  cases f <;> decide

/-- A store is refused where the address register selects no word. -/
theorem tick_refused {c : Core} {value : Text → Int} {start n : Nat} {dest : List Register} {f : Alu} {i : Instruction}
    (ready : c.Ready (n + 1)) (here : c.pc = start) (found : c.rom[start]? = some i)
    (loaded : (Line.set dest f).loaded? value = some i.operation) (stores : dest.contains .M = true)
    (outside : Memory.isAddress c.a.toInt = false) : c.tick = c.fail (.writeRange c.a.toInt start) := by
  have execute : c.execute i = (.faulted (.writeRange c.a.toInt start), c) := by
    rw [Core.execute, ← Option.some.inj loaded]
    show c.compute (dest.map Register.letter) (Computation.render ⟨f, false⟩) [] = _
    rw [Core.compute, canonical_register]
    simp only [contains_letter, stores, outside, here, Bool.false_and, Bool.not_false, Bool.and_self, Bool.false_eq_true,
      if_false, if_true]
  rw [Core.tick_ready ready (by omega) (by rw [here]; exact found), execute]

/-! ### Jumps -/

theorem canonical_jump (j : Jump) : j.render ≠ [] ∧ Jump.ofText? j.render = some j := by
  cases j <;> decide

/-- A jump takes one tick, which halts the core if it leads to the instruction before it and that
loads its own address. -/
theorem tick_jump {c : Core} {value : Text → Int} {start n : Nat} {f : Alu} {j : Jump} {i : Instruction}
    (ready : c.Ready (n + 1)) (here : c.pc = start) (found : c.rom[start]? = some i)
    (loaded : (Line.compute [] ⟨f, false⟩ (some j)).loaded? value = some i.operation) :
    c.tick =
      if j.holds (f.eval c.a c.d) then
        (if Core.isHaltLoop c.rom start c.a.toInt then .stopped else .running,
          { c.moved 1 c.a.toInt c.registers with halted := Core.isHaltLoop c.rom start c.a.toInt })
      else (.running, c.moved 1 (start + 1) c.registers) := by
  obtain ⟨named, canonical⟩ := canonical_jump j
  have execute : c.execute i = c.proceed j.render (f.eval c.a c.d) c.a.toInt := by
    rw [Core.execute, ← Option.some.inj loaded]
    show c.compute [] (Computation.render ⟨f, false⟩) j.render = _
    rw [Core.compute, canonical_register]
    rfl
  rw [Core.tick_ready ready (by omega) (by rw [here]; exact found), execute, Core.proceed, if_neg named, canonical]
  cases taken : j.holds (f.eval c.a c.d) with
  | true => simp [taken, ready.running, Core.moved, Core.registers, here]
  | false => simp [taken, ready.running, Core.moved, Core.registers, here]

theorem stands_at {rom : Array Instruction} {value : Text → Int} {start : Nat} {front back : List Line} {line : Line}
    {operation : Operation} (stands : Stands rom value start (front ++ line :: back))
    (loaded : line.loaded? value = some operation) :
    ∃ i, rom[start + codeSize front]? = some i ∧ i.operation = operation :=
  (stands_cons (stands_append.mp stands).2 loaded).1

variable {c : Core} {value : Text → Int} {start : Nat} {body rest : List Line} {f : Alu} {j : Jump} {r : Registers}

/-- Straight code and the jump behind it, whose tick comes last. -/
theorem run_branch (stands : Stands c.rom value start (body ++ .compute [] ⟨f, false⟩ (some j) :: rest))
    (here : c.pc = start) (ready : c.Ready (codeSize body + 1)) (done : exec value body c.registers = some r) :
    c.run (codeSize body + 1) =
      if j.holds (f.eval r.a r.d) then
        (if Core.isHaltLoop c.rom (start + codeSize body : Nat) r.a.toInt then .stopped else .running,
          { c.moved (codeSize body + 1) r.a.toInt r with
            halted := Core.isHaltLoop c.rom (start + codeSize body : Nat) r.a.toInt })
      else (.running, c.moved (codeSize body + 1) (start + codeSize body + 1 : Nat) r) := by
  have straight := run_exec (stands_append.mp stands).1 here (ready.mono (Nat.le_succ _)) done
  obtain ⟨i, found, same⟩ := stands_at stands rfl
  have moved : (c.moved (codeSize body) (start + codeSize body : Nat) r).Ready (0 + 1) := ready.moved _ r
  have last := @tick_jump _ value _ 0 f j i moved rfl found (by rw [same]; rfl)
  rw [Core.run_add straight, Core.run_one, last]
  rfl

theorem isHaltLoop_of_ne {rom : Array Instruction} {pc target : Int} (ne : target ≠ pc - 1) :
    Core.isHaltLoop rom pc target = false := by
  simp [Core.isHaltLoop, ne]

/-- A jump that is taken, to elsewhere than the instruction before it. -/
theorem run_taken {target : Nat} (stands : Stands c.rom value start (body ++ .compute [] ⟨f, false⟩ (some j) :: rest))
    (here : c.pc = start) (ready : c.Ready (codeSize body + 1)) (done : exec value body c.registers = some r)
    (leads : r.a.toInt = target) (holds : j.holds (f.eval r.a r.d) = true)
    (elsewhere : Core.isHaltLoop c.rom (start + codeSize body : Nat) target = false) :
    c.run (codeSize body + 1) = (.running, c.moved (codeSize body + 1) target r) := by
  rw [run_branch stands here ready done, if_pos holds, leads, elsewhere]
  simp [Core.moved, ready.running]

theorem run_passed (stands : Stands c.rom value start (body ++ .compute [] ⟨f, false⟩ (some j) :: rest))
    (here : c.pc = start) (ready : c.Ready (codeSize body + 1)) (done : exec value body c.registers = some r)
    (fails : j.holds (f.eval r.a r.d) = false) :
    c.run (codeSize body + 1) = (.running, c.moved (codeSize body + 1) (start + codeSize body + 1 : Nat) r) := by
  rw [run_branch stands here ready done, if_neg (by simp [fails])]

/-! ### Lines one by one -/

/-- Whether a function depends on its second operand. -/
def usesOperand : Alu → Bool
  | .zero | .one | .minusOne | .d | .notD | .negD | .dPlusOne | .dMinusOne => false
  | _ => true

theorem canonical_memory {f : Alu} (uses : usesOperand f = true) :
    Computation.ofText? (Computation.render ⟨f, true⟩) = some ⟨f, true⟩ := by
  cases f <;> first | decide | cases uses

section Lines

variable (value : Text → Int) (lines : List Line) {a d : Word} {m : Memory} {n : Nat}

theorem exec_bind (r : Registers) : (some r).bind (exec value lines) = exec value lines r := by
  rw [Option.bind_some]

theorem exec_nil (r : Registers) : exec value [] r = some r := by rw [exec]

theorem exec_address (symbol : Text) :
    exec value (.address symbol :: lines) ⟨a, d, m⟩ = exec value lines ⟨Int16.ofInt (value symbol), d, m⟩ := by
  rw [exec, Line.apply, Option.bind_some]

theorem exec_comment (text : Text) (r : Registers) :
    exec value (.comment text :: lines) r = exec value lines r := by
  rw [exec, Line.apply, Option.bind_some]

theorem exec_label (symbol : Text) (r : Registers) :
    exec value (.label symbol :: lines) r = exec value lines r := by
  rw [exec, Line.apply, Option.bind_some]

theorem exec_set (dest : List Register) (f : Alu) (plain : dest.contains .M = false) :
    exec value (Line.set dest f :: lines) ⟨a, d, m⟩ =
      exec value lines ⟨if dest.contains .A then f.eval a d else a, if dest.contains .D then f.eval a d else d, m⟩ := by
  rw [exec, Line.set, Line.apply, if_pos (canonical_register f), Registers.compute, plain]
  rfl

theorem exec_store (dest : List Register) (f : Alu) (stores : dest.contains .M = true) (fits : n < 32768) :
    exec value (Line.set dest f :: lines) ⟨Word.ofNat n, d, m⟩ =
      exec value lines
        ⟨if dest.contains .A then f.eval (Word.ofNat n) d else Word.ofNat n,
          if dest.contains .D then f.eval (Word.ofNat n) d else d, m.set n (f.eval (Word.ofNat n) d)⟩ := by
  rw [exec, Line.set, Line.apply, if_pos (canonical_register f), Registers.compute, stores, Word.isAddress_ofNat fits,
    Word.index_ofNat fits]
  rfl

theorem exec_setM (dest : List Register) (f : Alu) (uses : usesOperand f = true) (fits : n < 32768) :
    exec value (Line.setM dest f :: lines) ⟨Word.ofNat n, d, m⟩ =
      exec value lines
        ⟨if dest.contains .A then f.eval (m.get n) d else Word.ofNat n,
          if dest.contains .D then f.eval (m.get n) d else d,
          if dest.contains .M then m.set n (f.eval (m.get n) d) else m⟩ := by
  rw [exec, Line.setM, Line.apply, if_pos (canonical_memory uses), Registers.compute, Word.isAddress_ofNat fits,
    Word.index_ofNat fits]
  simp

end Lines

end Emission

end HackToolchain
