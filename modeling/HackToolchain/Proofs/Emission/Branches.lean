import HackToolchain.Proofs.Emission.Comparison

/-!
Code with jumps, on a core without a cycle limit: comparisons, jumps to labels, and the bootstrap.
-/

namespace HackToolchain

namespace Emission

open Memory

section Blocks

variable {c : Core} {value : Text → Int} (pointers : Pointers value) {start : Nat} (here : c.pc = start)
  (free : c.Free) (running : c.halted = false)
include here free running

theorem reaches_exec {lines : List Line} {r : Registers} (stands : Stands c.rom value start lines)
    (done : exec value lines c.registers = some r) :
    c.Reaches (c.moved (codeSize lines) (start + codeSize lines : Nat) r) :=
  Core.reaches_of_run (run_exec stands here (free.ready running _) done)

/-- A jump to a label halts where it leads to itself. -/
theorem reaches_goTo {label : Text} {target : Nat} (stands : Stands c.rom value start (goTo label))
    (leads : value label = target) (fits : target < 32768) :
    ∃ halted r, c.Reaches { c.moved 2 target r with halted } ∧ r.memory = c.memory ∧ (halted = true → target = start) := by
  have split : Stands c.rom value start ([.address label] ++ Line.jump :: []) := stands
  have done : exec value [.address label] c.registers = some ⟨Word.ofNat target, c.d, c.memory⟩ := by
    rw [Core.registers, exec_address, leads, Word.ofInt_natCast, exec_nil]
  have ran := run_branch split here (free.ready running _) done
  rw [show codeSize [Line.address label] = 1 from rfl, if_pos (by rfl), Word.toInt_ofNat fits] at ran
  refine ⟨_, _, ⟨_, _, ran, ?_⟩, rfl, ?_⟩
  · cases Core.isHaltLoop c.rom (start + 1 : Nat) target with
    | true => exact .inr rfl
    | false => exact .inl rfl
  · intro halted
    by_contra elsewhere
    rw [isHaltLoop_of_ne (by omega)] at halted
    cases halted

include pointers

variable {s : Nat} (sp : c.memory.get 0 = Word.ofNat s)
include sp

theorem reaches_goToIf {label : Text} (stands : Stands c.rom value start (goToIf label)) (low : 1 < s) (high : s < 32768) :
    (c.memory.get (s - 1) = 0 →
      ∃ r, c.Reaches (c.moved 5 (start + 5 : Nat) r) ∧ r.memory = c.memory.set 0 (Word.ofNat (s - 1))) ∧
    (c.memory.get (s - 1) ≠ 0 → ∀ target : Nat, value label = target → target < 32768 → target ≠ start + 3 →
      ∃ r, c.Reaches (c.moved 5 target r) ∧ r.memory = c.memory.set 0 (Word.ofNat (s - 1))) := by
  have split : Stands c.rom value start ((popD ++ [.address label]) ++ Line.jumpIf .ne :: []) := stands
  have size : codeSize (popD ++ [.address label]) = 4 := rfl
  have done : exec value (popD ++ [.address label]) c.registers =
      some ⟨Int16.ofInt (value label), c.memory.get (s - 1), c.memory.set 0 (Word.ofNat (s - 1))⟩ := by
    rw [exec_append, Core.registers, exec_popD pointers sp low high, exec_bind, exec_address, exec_nil]
  constructor
  · intro zero
    have ran := run_passed split here (free.ready running _) done (by simp [Jump.holds, Alu.eval, zero])
    exact ⟨_, Core.reaches_of_run ran, rfl⟩
  · intro nonzero target leads fits apart
    rw [leads, Word.ofInt_natCast] at done
    have ran := run_taken split here (free.ready running _) done (Word.toInt_ofNat fits)
      (by simp [Jump.holds, Alu.eval, nonzero]) (isHaltLoop_of_ne (by rw [size]; omega))
    exact ⟨_, Core.reaches_of_run ran, rfl⟩

theorem reaches_compare {condition : Jump} {trueLabel endLabel : Text}
    (stands : Stands c.rom value start (compare condition trueLabel endLabel)) (isTrue : value trueLabel = (start + 13 : Nat))
    (isEnd : value endLabel = (start + 16 : Nat)) (fits : start + 16 < 32768) (low : 2 < s) (high : s < 32768) :
    ∃ k r, c.Reaches (c.moved k (start + 16 : Nat) r) ∧
      r.memory = (c.memory.set 0 (Word.ofNat (s - 1))).set (s - 2)
        (if condition.holds (c.memory.get (s - 2) - c.memory.get (s - 1)) then -1 else 0) := by
  obtain ⟨r, ran, memory⟩ := run_compare pointers here sp stands (free.ready running _) isTrue isEnd fits low high rfl
  exact ⟨_, r, Core.reaches_of_run ran, memory⟩

end Blocks

end Emission

end HackToolchain
