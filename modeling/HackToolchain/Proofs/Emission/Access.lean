import HackToolchain.Proofs.Emission.Calling

/-!
Words behind a pointer. A pop into such a word and a push of it leave the stack as it was, wherever the
word lies: it may be the one the pop keeps the address in, a word of the stack, or the popped one itself.
-/

namespace HackToolchain.Emission

open Memory

/-- The memory after a pop into the word `target`, when the stack pointer selects `s`. -/
def popped (m : Memory) (s target : Nat) : Memory :=
  ((m.set 13 (Word.ofNat target)).set 0 (Word.ofNat (s - 1))).set target (m.get (s - 1))

theorem get_popped_pointer {m : Memory} {s target k : Nat} (positive : 0 < k) (small : k < 13) (apart : target ≠ k) :
    (popped m s target).get k = m.get k := by
  rw [popped, get_set_ne _ _ (by omega), get_set_ne _ _ (by omega), get_set_ne _ _ (by omega)]

theorem get_popped_zero {m : Memory} {s target : Nat} (nonzero : target ≠ 0) :
    (popped m s target).get 0 = Word.ofNat (s - 1) := by
  rw [popped, get_set_ne _ _ (by omega), get_set_self _ _ (by omega)]

theorem get_popped_self {m : Memory} {s target : Nat} (fits : target < 32768) :
    (popped m s target).get target = m.get (s - 1) := get_set_self _ _ fits

/-- What a pop and a push of the same word leave behind. -/
theorem get_popped_push {m : Memory} {s target x : Nat} (sp : m.get 0 = Word.ofNat s) (low : 14 < s) (high : s < 32768)
    (nonzero : target ≠ 0) (fits : target < 32768) :
    ((popped m s target).push (s - 1) (m.get (s - 1))).get x =
      if x = target then m.get (s - 1) else if x = 13 then Word.ofNat target else m.get x := by
  by_cases zero : x = 0
  · subst zero
    rw [get_push_zero, if_neg (Ne.symm nonzero), if_neg (by decide), sp, Nat.sub_add_cancel (by omega)]
  · rw [push, get_set_ne _ _ zero]
    by_cases top : x = s - 1
    · -- The popped word is back in its place, whether or not it was the one written to.
      subst top
      rw [get_set_self _ _ (by omega), if_neg (show s - 1 ≠ 13 by omega), ite_self]
    · rw [get_set_ne _ _ top]
      by_cases there : x = target
      · rw [if_pos there, there, get_popped_self fits]
      · rw [if_neg there, popped, get_set_ne _ _ there, get_set_ne _ _ zero]
        by_cases waits : x = 13
        · rw [if_pos waits, waits, get_set_self _ _ (by decide)]
        · rw [if_neg waits, get_set_ne _ _ waits]

/-- The code of a pop and of a push of the same word, each behind its comment. -/
def popPush (pop push pointer : Text) (index : Int) : List Line :=
  .comment pop :: popIndexed pointer index ++ .comment push :: pushIndexed pointer index

theorem exec_popPush {value : Text → Int} (pointers : Pointers value) {r : Registers} (pop push : Text) {pointer : Text}
    {s k i target : Nat} (sp : r.memory.get 0 = Word.ofNat s) (low : 14 < s) (high : s < 32768)
    (selects : value pointer = k) (positive : 0 < k) (small : k < 13) (index : i < 32768)
    (lands : r.memory.get k + Word.ofNat i = Word.ofNat target) (fits : target < 32768) (nonzero : target ≠ 0)
    (apart : target ≠ k) :
    ∃ t, exec value (popPush pop push pointer i) r = some t ∧ ∀ x, t.memory.get x =
      if x = target then r.memory.get (s - 1) else if x = 13 then Word.ofNat target else r.memory.get x := by
  have first := @exec_popIndexed _ pointers r.a r.d _ _ sp _ _ _ _ selects small index lands fits low high
  -- The pop has left the pointer alone, so the push finds the same word.
  have lands' : (popped r.memory s target).get k + Word.ofNat i = Word.ofNat target := by
    rw [get_popped_pointer positive small apart, lands]
  have second := @exec_pushIndexed _ pointers (Word.ofNat target) (r.memory.get (s - 1)) _ _
    (get_popped_zero nonzero) _ _ _ _ selects (by omega) index lands' fits (by omega) (by omega)
  rw [get_popped_self fits] at second
  rw [popPush, List.cons_append, exec_comment, exec_append, first, exec_bind, exec_comment]
  refine ⟨_, second, ?_⟩
  intro x
  exact get_popped_push sp low high nonzero fits

theorem program_popPush {names : Naming} {segment : Text} {i : Nat} {block : List Line}
    (coded : names.program [.pop segment i, .push segment i] = .ok block) {pointer : Text}
    (known : Session.pointer? segment = some pointer) (indexed : segment ≠ "constant") :
    block = popPush (Command.pop segment i).render (Command.push segment i).render pointer i := by
  obtain ⟨pop, later, popCoded, rest, rfl⟩ := Naming.program_cons.mp coded
  obtain ⟨push, last, pushCoded, ended, rfl⟩ := Naming.program_cons.mp rest
  obtain rfl := Except.ok.inj ended
  have popShape := Naming.access_ok popCoded
  have pushShape := Naming.access_ok pushCoded
  simp only [Session.accessCode?, known, Option.map_some, if_neg indexed] at popShape pushShape
  rw [← Option.some.inj popShape, ← Option.some.inj pushShape, List.append_nil]
  rfl

/-- A pop and a push of the same word give the stack back, with the word written to and the one that
held its address as the only words that may differ. -/
theorem push_undoes_pop {source : Text} {instructions : List Instruction} {program : Program}
    {before after : List Operation} {names : Naming} {segment : Text} {b i : Nat} {block : List Line}
    (parsed : Assembly.parse source = .ok instructions) (loaded : Program.load source = .ok program)
    (cell : segment = "local" ∧ b = 1 ∨ segment = "argument" ∧ b = 2) (index : i ≤ 32767)
    (coded : names.program [.pop segment i, .push segment i] = .ok block)
    (placed : instructions.map (·.operation) = before ++ operations block ++ after)
    (free : ∀ symbol ∈ Assembly.predefined.map Prod.fst, program.labels.lookup symbol = none)
    {c : Core} {s target : Nat} (rom : c.rom = program.code.toArray) (here : c.pc = Assembly.size before)
    (ready : c.Ready (codeSize block)) (sp : (c.word 0).toInt = s) (low : 16 ≤ s)
    (lands : (c.word b).toInt + i = target) (fits : target ≤ 32767) (nonzero : target ≠ 0) (apart : target ≠ b) :
    ∃ r, c.run (codeSize block) = (.running, c.moved (codeSize block) (Assembly.size before + codeSize block : Nat) r) ∧
      r.memory.get (s - 1) = c.word (s - 1) ∧ r.memory.get 0 = c.word 0 ∧ r.memory.get target = c.word (s - 1) ∧
      ∀ x, x ≠ 13 → x ≠ target → r.memory.get x = c.word x := by
  have pointers := pointers_of_free free
  obtain ⟨pointer, known, indexed, selects, positive, small⟩ :
      ∃ pointer, Session.pointer? segment = some pointer ∧ segment ≠ "constant" ∧ program.value pointer = b ∧
        0 < b ∧ b < 13 := by
    rcases cell with ⟨rfl, rfl⟩ | ⟨rfl, rfl⟩
    · exact ⟨_, rfl, by decide, pointers.lcl, by decide, by decide⟩
    · exact ⟨_, rfl, by decide, pointers.arg, by decide, by decide⟩
  have high := Word.toInt_range (c.word 0)
  have sp' : c.memory.get 0 = Word.ofNat s := Word.eq_ofNat sp
  have lands' : c.memory.get b + Word.ofNat i = Word.ofNat target := by
    rw [← Word.ofInt_natCast, ← Word.ofInt_natCast, ← lands, Int16.ofInt_add, Int16.ofInt_toInt]
    rfl
  obtain rfl := program_popPush coded known indexed
  obtain ⟨r, done, word⟩ := exec_popPush pointers (r := c.registers) (Command.pop segment i).render
    (Command.push segment i).render sp' (by omega) (by omega) selects positive small (by omega) lands' (by omega) nonzero apart
  have named : ∀ l ∈ popPush (Command.pop segment i).render (Command.push segment i).render pointer i, l.Named :=
    named_of_declared List.not_mem_nil
  have stands := stands_block (placed ▸ Program.load_ok parsed loaded) named
  refine ⟨r, run_exec (rom ▸ stands) here ready done, ?_, ?_, ?_, ?_⟩
  · rw [word, if_neg (show s - 1 ≠ 13 by omega), ite_self]
    rfl
  · rw [word, if_neg (Ne.symm nonzero), if_neg (by decide)]
    rfl
  · rw [word, if_pos rfl]
    rfl
  · intro x waits there
    rw [word, if_neg there, if_neg waits]
    rfl

/-- The word is the one that holds its own address during the pop, fifteen behind a negative pointer. -/
theorem push_undoes_pop_thirteen :
    let lines := popPush (Command.pop "local" (15 : Nat)).render (Command.push "local" (15 : Nat)).render "LCL" (15 : Nat)
    ∃ program, Program.load (Text.unlines (lines.map Line.render)) = .ok program ∧
      let c : Core := { Core.fresh 0 with
        rom := program.code.toArray
        memory := ((Memory.zero.set 0 (Word.ofNat 257)).set 1 (-2)).set 256 42 }
      ∃ d, c.run 22 = (.running, d) ∧ d.pc = 22 ∧ d.word 0 = Word.ofNat 257 ∧ d.word 256 = 42 ∧ d.word 13 = 42 := by
  intro lines
  obtain ⟨instructions, program, parsed, loaded, same⟩ :=
    @Program.load_of_read (Text.unlines (lines.map Line.render)) (operations lines) (by decide +kernel) (by decide +kernel)
  have origin := same ▸ Program.load_ok parsed loaded
  refine ⟨program, loaded, ?_⟩
  intro c
  have sp : c.word 0 = Word.ofNat 257 := by simp (disch := decide) only [c, Core.word, get_set_ne, get_set_self]
  have pointer : c.word 1 = -2 := by simp (disch := decide) only [c, Core.word, get_set_ne, get_set_self]
  have top : c.word 256 = 42 := by simp (disch := decide) only [c, Core.word, get_set_self]
  obtain ⟨r, ran, top', sp', word, -⟩ := @push_undoes_pop _ instructions program [] [] {} "local" 1 15 lines parsed loaded
    (.inl ⟨rfl, rfl⟩) (by decide) rfl (by rw [same]; simp) (by rw [origin.labels]; decide +kernel) c 257 13 rfl rfl
    (Core.Free.ready ⟨rfl, Int.le_refl 0⟩ rfl _) (by rw [sp]; rfl) (by decide) (by rw [pointer]; rfl) (by decide)
    (by decide) (by decide)
  exact ⟨_, ran, rfl, sp'.trans sp, top'.trans top, word.trans top⟩

end HackToolchain.Emission
