import HackToolchain.Proofs.Emission.Blocks

/-!
The calling convention. The code of a call builds a frame on top of whatever the memory holds, and the
code of a return takes it down again, whatever ran in between, as long as the frame is intact.
-/

namespace HackToolchain.Emission

open Memory Session

theorem value_number {p : Program} {symbol : Text} {n : Nat} (number : Text.toInt? symbol = some (n : Int)) (fits : n < 32768) :
    p.value symbol = n := by
  have literal : Operation.isLiteral n = true := by
    simp only [Operation.isLiteral, Bool.and_eq_true, decide_eq_true_eq]
    unfold Operation.maxLiteral
    omega
  simp [Program.value, Operation.literal, number, literal]

theorem pointers_of_free {p : Program}
    (free : ∀ symbol ∈ Assembly.predefined.map Prod.fst, p.labels.lookup symbol = none) : Pointers p.value := by
  have predefined : ∀ {symbol : Text} {value : Nat}, Text.toInt? symbol = none →
      Assembly.predefined.lookup symbol = some value → p.value symbol = value := by
    intro symbol value symbolic known
    have member : symbol ∈ Assembly.predefined.map Prod.fst := lookup_isSome.mp (by simp [known])
    rw [Program.value, symbolic, Program.address_predefined (free symbol member) known]
    rfl
  refine ⟨?_, ?_, ?_, ?_, ?_, ?_, ?_, ?_⟩
  · exact predefined (by decide) (by decide)
  · exact predefined (by decide) (by decide)
  · exact predefined (by decide) (by decide)
  · exact predefined (by decide) (by decide)
  · exact predefined (by decide) (by decide)
  · exact predefined (by decide) (by decide)
  · exact predefined (by decide) (by decide)
  · intro n fits
    have read : Text.toInt? (Text.ofInt n) = some (n : Int) := Text.toInt?_ofInt (by
      simp only [Text.fitsWord, Bool.and_eq_true, decide_eq_true_eq]
      unfold Text.leastWord
      omega)
    exact value_number read fits

theorem value_label {p : Program} {symbol : Text} {value : Nat} (symbolic : Text.toInt? symbol = none)
    (known : p.labels.lookup symbol = some value) : p.value symbol = value := by
  rw [Program.value, symbolic, Program.address_label known]
  rfl

/-! ### Jumps that do not halt -/

theorem isHaltLoop_of_compute {rom : Array Instruction} {pc target : Int} {i : Instruction} {dest comp jump : Text}
    (found : rom[(pc - 1).toNat]? = some i) (operation : i.operation = .compute dest comp jump) :
    Core.isHaltLoop rom pc target = false := by
  by_cases same : target = pc - 1
  · rw [Core.isHaltLoop, same, found]
    simp [operation]
  · exact isHaltLoop_of_ne same

/-! ### Blocks on a core -/

section Blocks

variable {c : Core} {value : Text → Int} (pointers : Pointers value) {start : Nat} (here : c.pc = start)
include pointers here

theorem run_call {name returnLabel : Text} {s n back target : Nat}
    (stands : Stands c.rom value start (callCode name n returnLabel)) (ready : c.Ready 47)
    (sp : c.memory.get 0 = Word.ofNat s) (low : 16 ≤ s) (high : s + 5 ≤ 32767) (arguments : n ≤ s)
    (returns : value returnLabel = back) (calls : value name = target) (fits : target < 32768)
    (outside : target ≠ start + 45) :
    c.run 47 = (.running, c.moved 47 target ⟨Word.ofNat target, Word.ofNat (s + 5), called c.memory s n back⟩) := by
  rw [callCode_eq] at stands
  have done : exec value (callBody name n returnLabel) c.registers = _ :=
    exec_callBody pointers sp (by omega) (by omega) arguments (by omega) returns calls
  have elsewhere : Core.isHaltLoop c.rom (start + 46 : Nat) target = false := isHaltLoop_of_ne (by omega)
  exact run_taken stands here ready done (Word.toInt_ofNat fits) rfl elsewhere

theorem run_return {base result top back : Nat} (stands : Stands c.rom value start returnCode) (ready : c.Ready 50)
    (sp : c.memory.get 0 = Word.ofNat top) (lcl : c.memory.get 1 = Word.ofNat base)
    (arg : c.memory.get 2 = Word.ofNat result) (low : 16 ≤ result) (below : result + 5 ≤ base) (fits : base < 32768)
    (nonempty : 16 ≤ top) (high : top < 32768) (saved : c.memory.get (base - 5) = Word.ofNat back)
    (inRange : back < 32768) :
    c.run 50 = (.running, c.moved 50 back
      ⟨Word.ofNat back, c.memory.get (base - 4), returned c.memory base result top⟩) := by
  rw [returnCode_eq] at stands
  have done : exec value returnBody c.registers = _ :=
    exec_returnBody pointers sp lcl arg low below fits nonempty high
  rw [saved] at done
  -- The instruction before the jump loads a word, so the jump is no halt.
  have elsewhere : Core.isHaltLoop c.rom (start + 49 : Nat) back = false := by
    obtain ⟨i, found, operation⟩ := @stands_at _ value start (returnBody.take 48) [Line.jump]
      (Line.setM [.A] .x) _ stands rfl
    have index : ((start + 49 : Nat) - 1 : Int).toNat = start + codeSize (returnBody.take 48) := by
      rw [show codeSize (returnBody.take 48) = 48 from rfl]
      omega
    exact isHaltLoop_of_compute (by rw [index]; exact found) operation
  exact run_taken stands here ready done (Word.toInt_ofNat inRange) rfl elsewhere

end Blocks

section Frames

variable {m : Memory}

theorem get_called_saved {s n back i : Nat} (low : 16 ≤ s) (high : s + 5 ≤ 32767) (inside : i < 5) :
    (called m s n back).get (s + i) = [Word.ofNat back, m.get 1, m.get 2, m.get 3, m.get 4][i] := by
  rw [called, get_set_ne _ _ (by omega), get_set_ne _ _ (by omega), get_pushes_inside _ (by omega) (by simp; omega)]

theorem get_called_other {s n back other : Nat} (high : 2 < other) (outside : other < s ∨ s + 5 ≤ other) :
    (called m s n back).get other = m.get other := by
  rw [called, get_set_ne _ _ (by omega), get_set_ne _ _ (by omega), get_pushes_outside _ (by omega) (by simpa using outside)]

theorem get_called_pointers {s n back : Nat} (sp : m.get 0 = Word.ofNat s) :
    (called m s n back).get 0 = Word.ofNat (s + 5) ∧ (called m s n back).get 1 = Word.ofNat (s + 5) ∧
      (called m s n back).get 2 = Word.ofNat (s - n) := by
  refine ⟨?_, ?_, ?_⟩
  · rw [called, get_set_ne _ _ (by omega), get_set_ne _ _ (by omega), get_pushes_zero sp]
    rfl
  · rw [called, get_set_self _ _ (by omega)]
  · rw [called, get_set_ne _ _ (by omega), get_set_self _ _ (by omega)]

theorem get_returned_pointers (base result top : Nat) :
    (returned m base result top).get 0 = Word.ofNat (result + 1) ∧
      (returned m base result top).get 1 = m.get (base - 4) ∧ (returned m base result top).get 2 = m.get (base - 3) ∧
      (returned m base result top).get 3 = m.get (base - 2) ∧ (returned m base result top).get 4 = m.get (base - 1) := by
  unfold returned
  refine ⟨?_, ?_, ?_, ?_, ?_⟩ <;> simp (disch := omega) only [get_set_ne, get_set_self]

theorem get_returned_result {base result top : Nat} (low : 16 ≤ result) (high : result < 32768) :
    (returned m base result top).get result = m.get (top - 1) := by
  unfold returned
  simp (disch := omega) only [get_set_ne, get_set_self]

theorem get_returned_other {base result top other : Nat} (high : 4 < other) (apart : other ≠ 13 ∧ other ≠ 14 ∧ other ≠ result) :
    (returned m base result top).get other = m.get other := by
  unfold returned
  simp (disch := omega) only [get_set_ne]

end Frames

theorem named_of_declared {lines : List Line} (nonempty : [] ∉ declared lines) : ∀ l ∈ lines, l.Named := by
  intro l member
  cases l with
  | label symbol =>
    rintro rfl
    exact nonempty (List.mem_filterMap.mpr ⟨_, member, rfl⟩)
  | _ => trivial

theorem named_call (name : Text) (n : Int) (k : Nat) : ∀ l ∈ callCode name n (returnLabel name k), l.Named := by
  apply named_of_declared
  rw [declared_callCode, List.mem_singleton]
  exact (List.ne_nil_of_mem (dollar_mem_returnLabel name k)).symm

/-- Where a call returns to, and that its jump leads to no instruction of its own code. -/
theorem call_labels {program : Program} {before after : List Operation} {name : Text} {n : Int} {k : Nat}
    (loaded : program.LoadedFrom (before ++ operations (callCode name n (returnLabel name k)) ++ after)) :
    program.labels.lookup (returnLabel name k) = some (Assembly.size before + 47) ∧
      ∀ {symbol target}, program.labels.lookup symbol = some target → target ≠ Assembly.size before + 45 := by
  have named := named_call name n k
  have split : callCode name n (returnLabel name k) =
      (callBody name n (returnLabel name k) ++ [Line.jump]) ++ [.label (returnLabel name k)] := by
    rw [callCode_eq]
    simp
  refine ⟨lookup_block loaded named split, ?_⟩
  intro symbol target known
  have body : declared (callBody name n (returnLabel name k) ++ [Line.jump]) = [] := rfl
  have shape : before ++ operations (callCode name n (returnLabel name k)) ++ after =
      before ++ operations (callBody name n (returnLabel name k) ++ [Line.jump]) ++
        (operations [.label (returnLabel name k)] ++ after) := by
    rw [split, operations_append _ [.label (returnLabel name k)]]
    simp only [List.append_assoc]
  have outside := lookup_outside (shape ▸ loaded) (named_of_declared (by rw [body]; simp)) body known
  rw [show codeSize (callBody name n (returnLabel name k) ++ [Line.jump]) = 47 from rfl] at outside
  omega

/-- A call reaches its callee with a frame on top of the stack, and a return that finds this frame
intact leads back behind the call, with the result in place of the arguments and the caller's pointers
restored, whatever happened in between. -/
theorem calling_convention {source : Text} {instructions : List Instruction} {program : Program}
    {before after front rest : List Operation} {name : Text} {n k entry : Nat}
    (parsed : Assembly.parse source = .ok instructions) (loaded : Program.load source = .ok program)
    (call : instructions.map (·.operation) = before ++ operations (callCode name n (returnLabel name k)) ++ after)
    (ret : instructions.map (·.operation) = front ++ operations returnCode ++ rest)
    (size : program.code.length ≤ 32767)
    (free : ∀ symbol ∈ Assembly.predefined.map Prod.fst, program.labels.lookup symbol = none)
    (declared : program.labels.lookup name = some entry) (symbolic : Text.toInt? name = none)
    {c : Core} {s : Nat} (rom : c.rom = program.code.toArray) (here : c.pc = Assembly.size before)
    (ready : c.Ready 47) (sp : (c.word 0).toInt = s) (low : 16 + n ≤ s) (high : s + 5 ≤ 32767) :
    ∃ back q, program.labels.lookup (returnLabel name k) = some back ∧ c.run 47 = (.running, c.moved 47 entry q) ∧
      (q.memory.get 0).toInt = s + 5 ∧ (q.memory.get 1).toInt = s + 5 ∧ (q.memory.get 2).toInt = s - n ∧
      (q.memory.get s).toInt = back ∧ (∀ i < 4, q.memory.get (s + 1 + i) = c.word (1 + i)) ∧
      (∀ x, x ≠ 0 → x ≠ 1 → x ≠ 2 → (x < s ∨ s + 5 ≤ x) → q.memory.get x = c.word x) ∧
      ∀ (d : Core) (t : Nat), d.rom = c.rom → d.pc = Assembly.size front → d.Ready 50 →
        (d.word 0).toInt = t → 16 ≤ t → (d.word 1).toInt = s + 5 → (d.word 2).toInt = s - n →
        (∀ i < 5, d.word (s + i) = q.memory.get (s + i)) →
        ∃ r, d.run 50 = (.running, d.moved 50 back r) ∧
          (r.memory.get 0).toInt = s - n + 1 ∧ r.memory.get (s - n) = d.word (t - 1) ∧
          (∀ i < 4, r.memory.get (1 + i) = c.word (1 + i)) ∧
          ∀ x, 4 < x → x ≠ 13 → x ≠ 14 → x ≠ s - n → r.memory.get x = d.word x := by
  have origin : program.LoadedFrom (instructions.map (·.operation)) := by
    rw [Program.load, parsed] at loaded
    exact Program.ofInstructions_ok loaded
  have pointers := pointers_of_free free
  have caller : program.LoadedFrom (before ++ operations (callCode name n (returnLabel name k)) ++ after) := call ▸ origin
  have returner : program.LoadedFrom (front ++ operations returnCode ++ rest) := ret ▸ origin
  obtain ⟨returns, outside⟩ := call_labels caller
  have fits : ∀ {symbol value}, program.labels.lookup symbol = some value → value ≤ 32767 := by
    intro symbol value known
    have range := Assembly.labelsFrom_range (origin.labels ▸ mem_of_lookup known)
    have length := origin.length
    simp only at range
    omega
  generalize Assembly.size before + 47 = back at returns
  have backFits := fits returns
  have spWord : c.memory.get 0 = Word.ofNat s := Word.eq_ofNat sp
  have ran := run_call pointers here (rom ▸ stands_block caller (named_call name n k)) ready spWord (by omega) high
    (by omega) (value_label (symbolic_returnLabel name k) returns) (value_label symbolic declared)
    (Nat.lt_succ_of_le (fits declared)) (outside declared)
  obtain ⟨sp', lcl', arg'⟩ := @get_called_pointers c.memory s n back spWord
  have saved {i : Nat} (inside : i < 5) := @get_called_saved c.memory s n back i (by omega) high inside
  refine ⟨back, _, returns, ran, ?_, ?_, ?_, ?_, ?_, ?_, ?_⟩
  · rw [sp', Word.toInt_ofNat (by omega)]
    rfl
  · rw [lcl', Word.toInt_ofNat (by omega)]
    rfl
  · rw [arg', Word.toInt_ofNat (by omega)]
    omega
  · have first := @saved 0 (by omega)
    rw [Nat.add_zero] at first
    rw [first]
    exact Word.toInt_ofNat (by omega)
  · intro i small
    rw [Nat.add_assoc, saved (by omega)]
    match i, small with
    | 0, _ => rfl
    | 1, _ => rfl
    | 2, _ => rfl
    | 3, _ => rfl
  · intro x zero one two outside
    exact get_called_other (by omega) outside
  · intro d t same there ready sp nonempty lcl arg intact
    have high := Int16.toInt_lt (d.word 0)
    have frame {i : Nat} (inside : i < 5) : d.memory.get (s + i) = _ := (intact i inside).trans (saved inside)
    have named : ∀ l ∈ returnCode, l.Named := named_of_declared (by decide)
    have ran := @run_return d _ pointers _ there (s + 5) (s - n) t back (same ▸ rom ▸ stands_block returner named) ready
      (Word.eq_ofNat sp) (Word.eq_ofNat (by rw [← Core.word, lcl]; omega)) (Word.eq_ofNat (by rw [← Core.word, arg]; omega))
      (by omega) (by omega) (by omega) nonempty (by omega) (@frame 0 (by omega)) (by omega)
    obtain ⟨sp', lcl', arg', this', that'⟩ := @get_returned_pointers d.memory (s + 5) (s - n) t
    refine ⟨_, ran, ?_, get_returned_result (by omega) (by omega), ?_, ?_⟩
    · rw [sp', Word.toInt_ofNat (by omega)]
      omega
    · intro i small
      match i, small with
      | 0, _ => exact lcl'.trans (@frame 1 (by omega))
      | 1, _ => exact arg'.trans (@frame 2 (by omega))
      | 2, _ => exact this'.trans (@frame 3 (by omega))
      | 3, _ => exact that'.trans (@frame 4 (by omega))
    · intro x high thirteen fourteen other
      exact get_returned_other high ⟨thirteen, fourteen, other⟩

/-- A function that does nothing but return is called with one argument and leads back behind the call. -/
theorem calling_convention_roundtrip :
    let lines : List Line := .label "f" :: returnCode ++ callCode "f" (1 : Nat) (returnLabel "f" 0)
    ∃ program, Program.load (Text.unlines (lines.map Line.render)) = .ok program ∧
      let c : Core := { Core.fresh 0 with
        rom := program.code.toArray, pc := 50, memory := Memory.zero.set 0 (Word.ofNat 256) }
      ∃ d e, c.run 47 = (.running, d) ∧ d.pc = 0 ∧ d.run 50 = (.running, e) ∧ e.pc = 97 ∧ (e.word 0).toInt = 256 := by
  intro lines
  have read : (Assembly.parse (Text.unlines (lines.map Line.render))).toOption.map (·.map (·.operation)) =
      some (operations lines) := by decide +kernel
  have bound : (Program.load (Text.unlines (lines.map Line.render))).toOption.map (fun p => (p.labels, p.code.length)) =
      some ([(Text.ofString "f", 0), (Text.ofString "f$ret.0", 97)], 97) := by decide +kernel
  generalize Text.unlines (lines.map Line.render) = source at read bound ⊢
  cases parsed : Assembly.parse source with
  | error e => rw [parsed] at read; cases read
  | ok instructions =>
    cases loaded : Program.load source with
    | error e => rw [loaded] at bound; cases bound
    | ok program =>
      rw [parsed] at read
      rw [loaded] at bound
      have shape : instructions.map (·.operation) = operations lines := Option.some.inj read
      obtain ⟨labels, length⟩ := Prod.mk.inj (Option.some.inj bound)
      refine ⟨program, rfl, ?_⟩
      intro c
      have sp : (c.word 0).toInt = (256 : Nat) := by
        show ((Memory.zero.set 0 (Word.ofNat 256)).get 0).toInt = _
        rw [get_set_self _ _ (by decide)]
        rfl
      obtain ⟨back, q, returns, ran, sp', lcl, arg, -, -, -, finish⟩ :=
        @calling_convention source instructions program (operations (.label "f" :: returnCode)) [] [.label "f"]
          (operations (callCode "f" (1 : Nat) (returnLabel "f" 0))) "f" 1 0 0 parsed loaded
          (by rw [shape]; rfl) (by rw [shape]; rfl) (by omega) (by rw [labels]; decide) (by rw [labels]; rfl) (by decide)
          c 256 rfl rfl ⟨rfl, rfl, nofun⟩ sp (by decide) (by decide)
      obtain rfl : 97 = back := Option.some.inj ((labels ▸ rfl : program.labels.lookup (returnLabel "f" 0) = some 97).symm.trans returns)
      obtain ⟨r, finished, sp'', -⟩ := finish (c.moved 47 0 q) 261 rfl rfl ⟨rfl, rfl, nofun⟩ sp' (by decide) lcl arg
        (fun _ _ => rfl)
      exact ⟨_, _, ran, rfl, finished, rfl, sp''⟩

end HackToolchain.Emission
