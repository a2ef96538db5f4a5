import HackToolchain.Proofs.Emission.Calling

/-!
Comparisons. The code of `eq` and of `gt` subtracts the upper of two words from the lower one and looks
at the sign of the result. The subtraction is one of words, so a difference out of their range has the
wrong sign: `eq` compares words as the integers they stand for, `gt` does so only within that range.
-/

namespace HackToolchain.Emission

open Memory Session

/-! ### The parts of the block -/

/-- Takes the upper word and leaves its difference from the lower one in `D`. -/
def subtracts (trueLabel : Text) : List Line :=
  popD ++ [.address "SP", Line.setM [.A] .xMinusOne, Line.setM [.D] .xMinusD, .address trueLabel]

def answersNo (endLabel : Text) : List Line :=
  [.address "SP", Line.setM [.A] .xMinusOne, Line.set [.M] .zero, .address endLabel]

def answersYes (trueLabel endLabel : Text) : List Line :=
  [.label trueLabel, .address "SP", Line.setM [.A] .xMinusOne, Line.set [.M] .minusOne, .label endLabel]

theorem compare_eq (condition : Jump) (trueLabel endLabel : Text) :
    compare condition trueLabel endLabel =
      subtracts trueLabel ++ Line.jumpIf condition :: (answersNo endLabel ++ Line.jump :: answersYes trueLabel endLabel) := by
  simp [compare, subtracts, answersNo, answersYes]

section Parts

variable {value : Text → Int} (pointers : Pointers value) {a d : Word} {m : Memory} {s : Nat}
  (sp : m.get 0 = Word.ofNat s)
include pointers sp

theorem exec_subtracts {trueLabel : Text} {target : Nat} (leads : value trueLabel = target) (low : 2 < s) (high : s < 32768) :
    exec value (subtracts trueLabel) ⟨a, d, m⟩ =
      some ⟨Word.ofNat target, m.get (s - 2) - m.get (s - 1), m.set 0 (Word.ofNat (s - 1))⟩ := by
  rw [subtracts, exec_append, exec_popD pointers sp (by omega) high]
  simp (disch := omega) only [exec_address, pointers.sp, Word.ofInt_natCast, exec_loadBefore, get_set_self,
    Word.ofNat_sub_one, exec_difference, get_set_ne, leads, exec_nil, exec_bind]
  rfl

theorem exec_answersNo {endLabel : Text} {target : Nat} (leads : value endLabel = target) (low : 0 < s) (high : s < 32768) :
    exec value (answersNo endLabel) ⟨a, d, m⟩ = some ⟨Word.ofNat target, d, m.set (s - 1) 0⟩ := by
  simp (disch := omega) only [answersNo, exec_address, pointers.sp, Word.ofInt_natCast, exec_loadBefore, sp,
    Word.ofNat_sub_one, exec_storeZero, leads, exec_nil]

theorem exec_answersYes (trueLabel endLabel : Text) (low : 0 < s) (high : s < 32768) :
    exec value (answersYes trueLabel endLabel) ⟨a, d, m⟩ = some ⟨Word.ofNat (s - 1), d, m.set (s - 1) (-1)⟩ := by
  simp (disch := omega) only [answersYes, exec_label, exec_address, pointers.sp, Word.ofInt_natCast, exec_loadBefore, sp,
    Word.ofNat_sub_one, exec_storeMinusOne, exec_nil]

end Parts

/-! ### The block on a core -/

/-- The answer no is given first and jumps over the answer yes. -/
def comparisonTicks (holds : Bool) : Nat := if holds then 11 else 13

/-- The memory after a comparison, when the stack pointer selects `s`. -/
def compared (m : Memory) (s : Nat) (holds : Bool) : Memory :=
  (m.set 0 (Word.ofNat (s - 1))).set (s - 2) (if holds then -1 else 0)

theorem stands_answers {rom : Array Instruction} {value : Text → Int} {start : Nat} {condition : Jump}
    {trueLabel endLabel : Text} (stands : Stands rom value start (compare condition trueLabel endLabel)) :
    Stands rom value (start + 8) (answersNo endLabel ++ Line.jump :: answersYes trueLabel endLabel) ∧
      Stands rom value (start + 13) (answersYes trueLabel endLabel) := by
  have shape : compare condition trueLabel endLabel = (subtracts trueLabel ++ [Line.jumpIf condition]) ++
      ((answersNo endLabel ++ [Line.jump]) ++ answersYes trueLabel endLabel) := by
    rw [compare_eq]
    simp
  rw [shape] at stands
  have answers := (stands_append.mp stands).2
  refine ⟨?_, (stands_append.mp answers).2⟩
  rwa [List.append_assoc] at answers

section Block

variable {c : Core} {value : Text → Int} (pointers : Pointers value) {start s : Nat} (here : c.pc = start)
  (sp : c.memory.get 0 = Word.ofNat s)
include pointers here sp

theorem run_answersYes {trueLabel endLabel : Text} (stands : Stands c.rom value start (answersYes trueLabel endLabel))
    (ready : c.Ready 3) (low : 0 < s) (high : s < 32768) :
    c.run 3 = (.running, c.moved 3 (start + 3 : Nat) ⟨Word.ofNat (s - 1), c.d, c.memory.set (s - 1) (-1)⟩) :=
  run_exec stands here ready (exec_answersYes pointers sp trueLabel endLabel low high)

theorem run_answersNo {endLabel : Text} {rest : List Line} {target : Nat}
    (stands : Stands c.rom value start (answersNo endLabel ++ Line.jump :: rest)) (ready : c.Ready 5)
    (leads : value endLabel = target) (fits : target < 32768) (apart : target ≠ start + 3) (low : 0 < s) (high : s < 32768) :
    c.run 5 = (.running, c.moved 5 target ⟨Word.ofNat target, c.d, c.memory.set (s - 1) 0⟩) := by
  have done := @exec_answersNo _ pointers c.a c.d _ _ sp _ _ leads low high
  have elsewhere : Core.isHaltLoop c.rom (start + 4 : Nat) target = false := isHaltLoop_of_ne (by omega)
  exact run_taken stands here ready done (Word.toInt_ofNat fits) rfl elsewhere

/-- Both branches of a comparison end behind it. -/
theorem run_compare {condition : Jump} {trueLabel endLabel : Text} {holds : Bool}
    (stands : Stands c.rom value start (compare condition trueLabel endLabel)) (ready : c.Ready (comparisonTicks holds))
    (isTrue : value trueLabel = (start + 13 : Nat)) (isEnd : value endLabel = (start + 16 : Nat)) (fits : start + 16 < 32768)
    (low : 2 < s) (high : s < 32768)
    (decides : condition.holds (c.memory.get (s - 2) - c.memory.get (s - 1)) = holds) :
    ∃ r, c.run (comparisonTicks holds) = (.running, c.moved (comparisonTicks holds) (start + 16 : Nat) r) ∧
      r.memory = compared c.memory s holds := by
  obtain ⟨no, yes⟩ := stands_answers stands
  rw [compare_eq] at stands
  let tested : Registers :=
    ⟨Word.ofNat (start + 13), c.memory.get (s - 2) - c.memory.get (s - 1), c.memory.set 0 (Word.ofNat (s - 1))⟩
  have done : exec value (subtracts trueLabel) c.registers = some tested := exec_subtracts pointers sp isTrue low high
  have sp' : tested.memory.get 0 = Word.ofNat (s - 1) := get_set_self _ _ (by omega)
  cases holds with
  | true =>
    have elsewhere : Core.isHaltLoop c.rom (start + 7 : Nat) (start + 13 : Nat) = false := isHaltLoop_of_ne (by omega)
    have first : c.run 8 = (.running, c.moved 8 (start + 13 : Nat) tested) :=
      run_taken stands here (ready.mono (show 8 ≤ 11 by decide)) done (Word.toInt_ofNat (by omega)) decides elsewhere
    have second := run_answersYes (c := c.moved 8 (start + 13 : Nat) tested) pointers rfl sp' yes (Core.Ready.moved ready _ _)
      (by omega) (by omega)
    rw [Core.moved_moved] at second
    exact ⟨_, (Core.run_add first 3).trans second, rfl⟩
  | false =>
    have first : c.run 8 = (.running, c.moved 8 (start + 8 : Nat) tested) :=
      run_passed stands here (ready.mono (show 8 ≤ 13 by decide)) done decides
    have second := run_answersNo (c := c.moved 8 (start + 8 : Nat) tested) pointers rfl sp' no (Core.Ready.moved ready _ _)
      isEnd fits (by omega) (by omega) (by omega)
    rw [Core.moved_moved] at second
    exact ⟨_, (Core.run_add first 5).trans second, rfl⟩

end Block

theorem named_compare (condition : Jump) (k : Nat) :
    ∀ l ∈ compare condition (compareLabels k).1 (compareLabels k).2, l.Named := by
  apply named_of_declared
  obtain ⟨first, second⟩ := letter_mem_compareLabels k
  rw [declared_compare, List.mem_pair, not_or]
  exact ⟨(List.ne_nil_of_mem first).symm, (List.ne_nil_of_mem second).symm⟩

/-- Where the labels of a comparison stand. -/
theorem compare_labels {program : Program} {before after : List Operation} {condition : Jump} {k : Nat}
    (loaded : program.LoadedFrom (before ++ operations (compare condition (compareLabels k).1 (compareLabels k).2) ++ after)) :
    program.labels.lookup (compareLabels k).1 = some (Assembly.size before + 13) ∧
      program.labels.lookup (compareLabels k).2 = some (Assembly.size before + 16) := by
  have named := named_compare condition k
  constructor
  · exact @lookup_block _ _ _ _ ((compare condition (compareLabels k).1 (compareLabels k).2).take 13) _ _ loaded named rfl
  · exact @lookup_block _ _ _ _ ((compare condition (compareLabels k).1 (compareLabels k).2).take 17) _ _ loaded named rfl

/-- A comparison anywhere in a loaded program. -/
theorem run_comparison {program : Program} {before after : List Operation} {condition : Jump} {k : Nat}
    (loaded : program.LoadedFrom (before ++ operations (compare condition (compareLabels k).1 (compareLabels k).2) ++ after))
    (size : program.code.length ≤ 32767)
    (free : ∀ symbol ∈ Assembly.predefined.map Prod.fst, program.labels.lookup symbol = none)
    {c : Core} {s : Nat} {holds : Bool} (rom : c.rom = program.code.toArray) (here : c.pc = Assembly.size before)
    (ready : c.Ready (comparisonTicks holds)) (sp : c.memory.get 0 = Word.ofNat s) (low : 2 < s) (high : s < 32768)
    (decides : condition.holds (c.memory.get (s - 2) - c.memory.get (s - 1)) = holds) :
    ∃ r, c.run (comparisonTicks holds) = (.running, c.moved (comparisonTicks holds) (Assembly.size before + 16 : Nat) r) ∧
      r.memory = compared c.memory s holds := by
  obtain ⟨isTrue, isEnd⟩ := compare_labels loaded
  obtain ⟨symbolicTrue, symbolicEnd⟩ := symbolic_compareLabels k
  have stands := stands_block loaded (named_compare condition k)
  have fits := loaded.lookup_le isEnd
  exact run_compare (pointers_of_free free) here sp (rom ▸ stands) ready (value_label symbolicTrue isTrue)
    (value_label symbolicEnd isEnd) (by omega) low high decides

/-! ### Words and integers -/

/-- What a comparison finds for two integers. Where no word holds their difference, `gt` finds the opposite
of what it should. -/
def finds (operation : Text) (x y : Int) : Bool :=
  if operation = "eq" then x = y
  else if -32768 ≤ x - y ∧ x - y ≤ 32767 then y < x
  else x < y

/-- A difference of words is that of the integers, up to one turn through all words. -/
theorem toInt_difference (x y : Word) :
    (x - y).toInt = x.toInt - y.toInt +
      (if x.toInt - y.toInt < -32768 then 65536 else if 32767 < x.toInt - y.toInt then -65536 else 0) := by
  have first := Word.toInt_range x
  have second := Word.toInt_range y
  rw [show (x - y).toInt = (x.toInt - y.toInt).bmod 65536 from Int16.toInt_sub x y, Int.bmod_def]
  omega

theorem holds_eq (x y : Word) : Jump.eq.holds (x - y) = finds "eq" x.toInt y.toInt := by
  have zero : x - y = 0 ↔ x.toInt = y.toInt := by
    rw [Int16.sub_eq_iff_eq_add, Int16.zero_add, Int16.toInt_inj]
  rw [Bool.eq_iff_iff, finds, if_pos rfl, decide_eq_true_iff, ← zero]
  exact beq_iff_eq

theorem holds_gt (x y : Word) : Jump.gt.holds (x - y) = finds "gt" x.toInt y.toInt := by
  have positive : Jump.gt.holds (x - y) = true ↔ 0 < (x - y).toInt := decide_eq_true_iff.trans Int16.lt_iff_toInt_lt
  have unfolded : finds "gt" x.toInt y.toInt =
      if -32768 ≤ x.toInt - y.toInt ∧ x.toInt - y.toInt ≤ 32767 then decide (y.toInt < x.toInt)
      else decide (x.toInt < y.toInt) := if_neg (by decide)
  have first := Word.toInt_range x
  have second := Word.toInt_range y
  rw [Bool.eq_iff_iff, positive, toInt_difference, unfolded]
  by_cases inside : -32768 ≤ x.toInt - y.toInt ∧ x.toInt - y.toInt ≤ 32767
  · rw [if_pos inside, decide_eq_true_iff]
    omega
  · rw [if_neg inside, decide_eq_true_iff]
    omega

theorem comparison_ok {names : Naming} {operation : Text} {block : List Line} (compares : operation = "eq" ∨ operation = "gt")
    (coded : names.code (.arithmetic operation) = .ok block) :
    ∃ condition : Jump, block = compare condition (compareLabels names.labels).1 (compareLabels names.labels).2 ∧
      ∀ x y : Word, condition.holds (x - y) = finds operation x.toInt y.toInt := by
  rcases compares with rfl | rfl
  · exact ⟨.eq, (Except.ok.inj coded).symm, holds_eq⟩
  · exact ⟨.gt, (Except.ok.inj coded).symm, holds_gt⟩

/-! ### Comparisons in a program -/

/-- The code of the first `gt` of a program. -/
def greater : List Line := compare .gt (compareLabels 0).1 (compareLabels 0).2

/-- A core in front of a program, with two words on the stack. -/
def comparing (program : Program) (x y : Word) : Core :=
  { Core.fresh 0 with
    rom := program.code.toArray
    memory := ((Memory.zero.set 0 (Word.ofNat 258)).set 256 x).set 257 y }

theorem word_comparing (program : Program) (x y : Word) :
    (comparing program x y).word 0 = Word.ofNat 258 ∧ (comparing program x y).word 256 = x ∧
      (comparing program x y).word 257 = y := by
  refine ⟨?_, ?_, ?_⟩ <;> simp (disch := decide) only [Core.word, comparing, get_set_ne, get_set_self]

theorem comparing_ready (program : Program) (x y : Word) (n : Nat) : (comparing program x y).Ready n :=
  Core.Free.ready ⟨rfl, Int.le_refl 0⟩ rfl n

theorem greater_loads : ∃ instructions program,
    Assembly.parse (Text.unlines (greater.map Line.render)) = .ok instructions ∧
      Program.load (Text.unlines (greater.map Line.render)) = .ok program ∧
      instructions.map (·.operation) = operations greater ∧ program.code.length = 16 ∧
      ∀ symbol ∈ Assembly.predefined.map Prod.fst, program.labels.lookup symbol = none := by
  obtain ⟨instructions, program, parsed, loaded, same⟩ :=
    @Program.load_of_read (Text.unlines (greater.map Line.render)) (operations greater) (by decide +kernel) (by decide +kernel)
  have origin := same ▸ Program.load_ok parsed loaded
  refine ⟨instructions, program, parsed, loaded, same, ?_, ?_⟩
  · rw [origin.length]
    rfl
  · rw [origin.labels]
    decide +kernel

/-- The code of a comparison replaces the two upper words of the stack by the answer and changes nothing else. -/
theorem comparison_answers {source : Text} {instructions : List Instruction} {program : Program}
    {before after : List Operation} {names : Naming} {operation : Text} {block : List Line}
    (parsed : Assembly.parse source = .ok instructions) (loaded : Program.load source = .ok program)
    (compares : operation = "eq" ∨ operation = "gt") (coded : names.code (.arithmetic operation) = .ok block)
    (placed : instructions.map (·.operation) = before ++ operations block ++ after) (size : program.code.length ≤ 32767)
    (free : ∀ symbol ∈ Assembly.predefined.map Prod.fst, program.labels.lookup symbol = none)
    {c : Core} {s : Nat} (rom : c.rom = program.code.toArray) (here : c.pc = Assembly.size before)
    (sp : (c.word 0).toInt = s) (low : 2 < s)
    (ready : c.Ready (comparisonTicks (finds operation (c.word (s - 2)).toInt (c.word (s - 1)).toInt))) :
    let holds := finds operation (c.word (s - 2)).toInt (c.word (s - 1)).toInt
    ∃ r, c.run (comparisonTicks holds) =
        (.running, c.moved (comparisonTicks holds) (Assembly.size before + codeSize block : Nat) r) ∧
      (r.memory.get 0).toInt = s - 1 ∧ (r.memory.get (s - 2)).toInt = (if holds then -1 else 0) ∧
      ∀ x, x ≠ 0 → x ≠ s - 2 → r.memory.get x = c.word x := by
  intro holds
  obtain ⟨condition, rfl, decides⟩ := comparison_ok compares coded
  have high := Word.toInt_range (c.word 0)
  obtain ⟨r, ran, memory⟩ := run_comparison (placed ▸ Program.load_ok parsed loaded) size free rom here ready
    (Word.eq_ofNat sp) low (by omega) (decides _ _)
  refine ⟨r, ran, ?_, ?_, ?_⟩
  · rw [memory, compared, get_set_ne _ _ (by omega), get_set_self _ _ (by omega), Word.toInt_ofNat (by omega)]
    omega
  · rw [memory, compared, get_set_self _ _ (by omega), apply_ite Int16.toInt]
    rfl
  · intro x zero other
    rw [memory, compared, get_set_ne _ _ other, get_set_ne _ _ zero]
    rfl

/-- The least word is found to be greater than one, whose difference from it no word holds. -/
theorem comparison_answers_wrapped :
    ∃ program, Program.load (Text.unlines (greater.map Line.render)) = .ok program ∧
      ∃ d, (comparing program (-32768) 1).run 11 = (.running, d) ∧ d.pc = 16 ∧ (d.word 0).toInt = 257 ∧
        (d.word 256).toInt = -1 ∧ d.word 257 = 1 := by
  obtain ⟨instructions, program, parsed, loaded, same, size, free⟩ := greater_loads
  obtain ⟨sp, x, y⟩ := word_comparing program (-32768) 1
  have found : finds "gt" ((comparing program (-32768) 1).word 256).toInt ((comparing program (-32768) 1).word 257).toInt = true := by
    rw [x, y]
    decide
  obtain ⟨r, ran, sp', answer, others⟩ := @comparison_answers _ instructions program [] [] {} "gt" greater parsed loaded
    (.inr rfl) rfl (by rw [same]; simp) (by omega) free (comparing program (-32768) 1) 258 rfl rfl (by rw [sp]; rfl)
    (by decide) (comparing_ready ..)
  rw [found] at ran answer
  exact ⟨program, loaded, _, ran, rfl, sp', answer, (others 257 (by decide) (by decide)).trans y⟩

/-- The greatest word is not found to be greater than -1. -/
theorem greater_out_of_range :
    ∃ program, Program.load (Text.unlines (greater.map Line.render)) = .ok program ∧
      ((comparing program 32767 (-1)).word 257).toInt < ((comparing program 32767 (-1)).word 256).toInt ∧
      ∃ d, (comparing program 32767 (-1)).run 13 = (.running, d) ∧ d.pc = 16 ∧ d.word 256 = 0 := by
  obtain ⟨instructions, program, parsed, loaded, same, size, free⟩ := greater_loads
  obtain ⟨sp, x, y⟩ := word_comparing program 32767 (-1)
  have origin : program.LoadedFrom ([] ++ operations greater ++ []) := by
    rw [List.nil_append, List.append_nil, ← same]
    exact Program.load_ok parsed loaded
  obtain ⟨r, ran, memory⟩ := @run_comparison program [] [] .gt 0 origin (by omega) free (comparing program 32767 (-1)) 258
    false rfl rfl (comparing_ready ..) sp (by decide) (by decide) (by
      rw [← Core.word, ← Core.word, x, y]
      decide)
  refine ⟨program, loaded, ?_, _, ran, rfl, ?_⟩
  · rw [x, y]
    decide
  · show r.memory.get 256 = 0
    rw [memory, compared, get_set_self _ _ (by decide)]
    rfl

end HackToolchain.Emission
