import HackToolchain.Proofs.Simulation.Frames
import HackToolchain.Proofs.Simulation.Positions

/-!
Generated code does what its commands do. A core represents a state of the stack machine when it is at
the code of the state's position with the state's frames in memory; every command leads from one state
to the next, and the code of the command from one core to another.
-/

namespace HackToolchain

namespace Emission

open Reference Memory

/-- A core stands for a state of the stack machine, with the commands at given addresses. It may have
halted, but only on a jump to itself, which the stack machine makes for ever. -/
structure Represents (p : Program) (address : Nat → Nat) (base : Nat) (s : State) (c : Core) : Prop where
  rom : c.rom = p.code.toArray
  sound : c.fault = none
  pc : c.pc = address s.position
  placed : Placed c.memory address base s.frame s.callers
  stuck : c.halted = true →
    ∃ label, Stands c.rom p.value (address s.position) (goTo label) ∧ p.value label = address s.position

/-- A core without a cycle limit stands for a state. -/
structure Follows (p : Program) (address : Nat → Nat) (base : Nat) (s : State) (c : Core) : Prop
    extends Represents p address base s c where
  unlimited : c.limit ≤ 0

section Calls

variable {cs : List Command} {p : Program} {image : Image cs p} {c : Core} {name : Text} {s j locals : Nat}
  (rom : c.rom = p.code.toArray) (free : c.Free) (running : c.halted = false) (found : entry cs name = some (j, locals))
  (sp : c.memory.get 0 = Word.ofNat s)
include rom free running found sp

theorem reaches_function (here : c.pc = image.address j) (low : 0 < s) (room : s + locals ≤ 32767) :
    ∃ ticks r, c.Reaches (c.moved ticks (image.address (j + 1)) r) ∧
      r.memory = c.memory.pushes s (List.replicate locals 0) := by
  obtain ⟨-, -, callee, behind⟩ := image.value_entry found
  obtain ⟨r, zeroed, memory⟩ := @exec_pushZeros _ image.pointers c.a c.d _ _ sp locals low room
  have done : exec p.value (.label name :: (List.replicate locals pushZero).flatten) c.registers = some r :=
    (exec_label _ _ _ _).trans zeroed
  have size : codeSize (.label name :: (List.replicate locals pushZero).flatten) =
      codeSize (List.replicate locals pushZero).flatten := by simp [codeSize, Line.isCode]
  have reaches := reaches_exec here free running (rom ▸ callee.stands) done
  rw [size, ← behind] at reaches
  exact ⟨_, r, reaches, memory⟩

theorem reaches_call {start n k : Nat} (contains : image.Contains start (callCode name n (Session.returnLabel name k)))
    (here : c.pc = start) (low : 16 ≤ s) (arguments : n ≤ s) (room : s + 5 + locals ≤ 32767) :
    ∃ ticks r, c.Reaches (c.moved ticks (image.address (j + 1)) r) ∧
      r.memory = (called c.memory s n (start + 47)).pushes (s + 5) (List.replicate locals 0) := by
  obtain ⟨declared, leads, -, -⟩ := image.value_entry found
  obtain ⟨-, before, after, loaded, rfl⟩ := contains.loaded
  obtain ⟨returns, outside⟩ := call_labels loaded
  have ran := run_call image.pointers here (rom ▸ contains.stands) (free.ready running _) sp low (by omega) arguments
    (value_label (image.symbolic returns) returns) leads (Nat.lt_succ_of_le (image.address_le j)) (outside declared)
  have top := (@get_called_pointers c.memory s n (Assembly.size before + 47) sp).1
  obtain ⟨ticks, r, entered, memory⟩ := @reaches_function _ _ image (c.moved 47 (image.address j)
    ⟨Word.ofNat (image.address j), Word.ofNat (s + 5), called c.memory s n (Assembly.size before + 47)⟩) _ _ _ _
    rom (free.moved ..) running found top rfl (by omega) room
  rw [Core.moved_moved] at entered
  exact ⟨_, r, (Core.reaches_of_run ran).trans entered, memory⟩

end Calls

section Steps

variable {cs : List Command} {p : Program} {image : Image cs p} {base position : Nat} {f : Frame} {callers : List Frame}
  {c : Core}

theorem Follows.free (rep : Follows p image.address base ⟨position, f, callers⟩ c) : c.Free := ⟨rep.sound, rep.unlimited⟩

/-- A core at code whose second instruction stores something has not halted. -/
theorem Follows.running (rep : Follows p image.address base ⟨position, f, callers⟩ c) {symbol : Text} {register : Register} {dest : List Register}
    {comp : Computation} {jump : Option Jump} {rest : List Line}
    (stands : Stands c.rom p.value (image.address position) (.address symbol :: .compute (register :: dest) comp jump :: rest)) :
    c.halted = false := by
  by_contra halted
  obtain ⟨label, loop, -⟩ := rep.stuck (by simpa using halted)
  obtain ⟨⟨i, found, operation⟩, -⟩ := stands_cons (stands_cons stands rfl).2 rfl
  obtain ⟨⟨j, found', operation'⟩, -⟩ := stands_cons (stands_cons loop rfl).2 rfl
  obtain rfl : i = j := Option.some.inj (found.symm.trans found')
  rw [operation] at operation'
  cases operation'

theorem Follows.code (rep : Follows p image.address base ⟨position, f, callers⟩ c) {command : Command}
    (here : cs[position]? = some command) :
    ∃ code, (image.naming position).code command = .ok code ∧
      image.address (position + 1) = image.address position + codeSize code ∧
      image.Contains (image.address position) code ∧ Stands c.rom p.value (image.address position) code := by
  obtain ⟨code, coded, next, contains⟩ := image.block here
  exact ⟨code, coded, next, contains, rep.rom ▸ contains.stands⟩

/-- A core that moved on to another position has not halted. -/
theorem Follows.move (rep : Follows p image.address base ⟨position, f, callers⟩ c) (running : c.halted = false) {ticks : Nat}
    {pc : Int} {r : Registers} {there : Nat} {g : Frame} {rest : List Frame}
    (reaches : c.Reaches (c.moved ticks pc r)) (arrived : pc = image.address there)
    (placed : Placed r.memory image.address base g rest) :
    ∃ d, c.Reaches d ∧ Follows p image.address base ⟨there, g, rest⟩ d :=
  ⟨_, reaches, ⟨rep.rom, rep.sound, arrived, placed, fun halted => absurd (halted.symm.trans running) (by decide)⟩,
    rep.unlimited⟩

theorem Follows.advance (rep : Follows p image.address base ⟨position, f, callers⟩ c) (running : c.halted = false)
    {code : List Line} {r : Registers} {g : Frame}
    (next : image.address (position + 1) = image.address position + codeSize code)
    (stands : Stands c.rom p.value (image.address position) code) (done : exec p.value code c.registers = some r)
    (placed : Placed r.memory image.address base g callers) :
    ∃ d, c.Reaches d ∧ Follows p image.address base ⟨position + 1, g, callers⟩ d :=
  rep.move running (reaches_exec rep.pc rep.free running stands done) (by rw [next]) placed

/-- Two positions with one address, such as those of a label and of the command behind it, are the same
to a core. -/
theorem Follows.stay (rep : Follows p image.address base ⟨position, f, callers⟩ c) {there : Nat}
    (same : image.address there = image.address position) :
    ∃ d, c.Reaches d ∧ Follows p image.address base ⟨there, f, callers⟩ d := by
  refine ⟨c, Core.reaches_refl c, ⟨rep.rom, rep.sound, ?_, rep.placed, ?_⟩, rep.unlimited⟩
  · rw [same]
    exact rep.pc
  · rw [same]
    exact rep.stuck

theorem forward_label {name : Text} (rep : Follows p image.address base ⟨position, f, callers⟩ c)
    (here : cs[position]? = some (.label name)) :
    ∃ d, c.Reaches d ∧ Follows p image.address base ⟨position + 1, f, callers⟩ d := by
  obtain ⟨code, coded, next, -, -⟩ := rep.code here
  obtain rfl := Except.ok.inj coded
  exact rep.stay next

theorem forward_goto {name : Text} {there : Nat} (rep : Follows p image.address base ⟨position, f, callers⟩ c)
    (here : cs[position]? = some (.goto name)) (goes : target cs position name = some there) :
    ∃ d, c.Reaches d ∧ Follows p image.address base ⟨there, f, callers⟩ d := by
  obtain ⟨code, coded, next, contains, stands⟩ := rep.code here
  obtain rfl := Except.ok.inj coded
  obtain ⟨known, leads, fits⟩ := image.value_target goes
  cases halted : c.halted with
  | true =>
    -- The core stays where it halted, which is right only because this jump leads to itself.
    obtain ⟨label, loop, self⟩ := rep.stuck halted
    obtain ⟨⟨i, found, operation⟩, -⟩ := stands_cons stands rfl
    obtain ⟨⟨j, found', operation'⟩, -⟩ := stands_cons loop rfl
    obtain rfl : i = j := Option.some.inj (found.symm.trans found')
    rw [operation] at operation'
    obtain ⟨-, same⟩ := Operation.address.inj operation'
    rw [leads, self] at same
    exact rep.stay (Int.ofNat.inj same)
  | false =>
    obtain ⟨ends, r, reaches, memory, self⟩ := reaches_goTo rep.pc rep.free halted stands leads (by omega)
    have placed : Placed r.memory image.address base f callers := memory ▸ rep.placed
    refine ⟨_, reaches, ⟨rep.rom, rep.sound, rfl, placed, ?_⟩, rep.unlimited⟩
    intro stops
    have same : image.address there = image.address position := self stops
    exact ⟨_, same ▸ stands, leads⟩

variable (rep : Follows p image.address base ⟨position, f, callers⟩ c) (low : 16 ≤ base) (high : base + extent f callers < 32768)
include rep low high

theorem forward_push {segment : Text} {i : Nat} {value : Word} (here : cs[position]? = some (.push segment i))
    (read : f.read segment i = some value) :
    ∃ d, c.Reaches d ∧ Follows p image.address base
      ⟨position + 1, { f with operands := value :: f.operands }, callers⟩ d := by
  obtain ⟨code, coded, next, contains, stands⟩ := rep.code here
  have accessed : Session.accessCode? .push segment i = some code := Naming.access_ok coded
  have placed : Placed c.memory image.address base f callers := rep.placed
  have sp := placed.sp
  have indexed : ∀ {pointer : Text} {k start : Nat}, Session.accessCode? .push segment i = some (pushIndexed pointer i) →
      p.value pointer = k → k < 32768 → c.memory.get k = Word.ofNat start →
      start + i < base + extent f callers → c.memory.get (start + i) = value →
      ∃ d, c.Reaches d ∧ Follows p image.address base
        ⟨position + 1, { f with operands := value :: f.operands }, callers⟩ d := by
    intro pointer k start shape selects small points inside word
    obtain rfl := Option.some.inj (shape.symm.trans accessed)
    have lands : c.memory.get k + Word.ofNat i = Word.ofNat (start + i) := by rw [points, Word.ofNat_add]
    have done := @exec_pushIndexed _ image.pointers c.a c.d _ _ sp _ _ _ _ selects small (by omega) lands (by omega) (by omega)
      high
    rw [word] at done
    exact rep.advance (rep.running stands) next stands done (placed.push (by omega) high)
  unfold Frame.read at read
  split at read
  · rename_i constant
    subst constant
    obtain rfl := Option.some.inj accessed
    obtain rfl := Option.some.inj read
    have small : (i : Int) ≤ 32767 :=
      contains.number List.mem_cons_self ((image.wellFormed _ (List.mem_of_getElem? here)).number _ rfl).2
    have done := @exec_pushConstant _ image.pointers c.a c.d _ _ sp i (by omega) (by omega) high
    rw [← Word.ofInt_natCast] at done
    exact rep.advance (rep.running stands) next stands done (placed.push (by omega) high)
  · split at read
    · rename_i isLocal
      subst isLocal
      obtain ⟨inside, rfl⟩ := List.getElem?_eq_some_iff.mp read
      obtain ⟨start, points, -, room, word, -⟩ := placed.atLocal inside (by omega) high
      exact indexed rfl image.pointers.lcl (by omega) points room word
    · split at read
      · rename_i isArgument
        subst isArgument
        obtain ⟨inside, rfl⟩ := List.getElem?_eq_some_iff.mp read
        obtain ⟨start, points, -, room, word, -⟩ := placed.atArgument inside (by omega) high
        exact indexed rfl image.pointers.arg (by omega) points room word
      · cases read

theorem forward_pop {segment : Text} {i : Nat} {value : Word} {operands : List Word} {g : Frame}
    (here : cs[position]? = some (.pop segment i)) (top : f.operands = value :: operands)
    (written : Frame.write { f with operands } segment i value = some g) :
    ∃ d, c.Reaches d ∧ Follows p image.address base ⟨position + 1, g, callers⟩ d := by
  obtain ⟨code, coded, next, contains, stands⟩ := rep.code here
  have accessed : Session.accessCode? .pop segment i = some code := Naming.access_ok coded
  have placed : Placed c.memory image.address base f callers := rep.placed
  have sp := placed.sp
  have popped := placed.pop top (by omega)
  have shorter : extent { f with operands } callers < extent f callers := by
    cases callers <;> simp [extent, top]
  have word : c.memory.get (base + extent f callers - 1) = value := placed.operand top 0 rfl
  have indexed : ∀ {pointer : Text} {k start : Nat}, Session.accessCode? .pop segment i = some (popIndexed pointer i) →
      p.value pointer = k → k < 13 → c.memory.get k = Word.ofNat start → base ≤ start →
      start + i < base + extent f callers →
      Placed ((c.memory.set 0 (Word.ofNat (base + extent f callers - 1))).set (start + i) value)
        image.address base g callers →
      ∃ d, c.Reaches d ∧ Follows p image.address base ⟨position + 1, g, callers⟩ d := by
    intro pointer k start shape selects small points above inside stored
    obtain rfl := Option.some.inj (shape.symm.trans accessed)
    have lands : c.memory.get k + Word.ofNat i = Word.ofNat (start + i) := by rw [points, Word.ofNat_add]
    have done := @exec_popIndexed _ image.pointers c.a c.d _ _ sp _ _ _ _ selects small (by omega) lands (by omega) (by omega)
      high
    rw [word] at done
    -- The address that waited in word 13 lies outside the stack.
    refine rep.advance (rep.running stands) next stands done (stored.congr ?_ ?_)
    · intro x small
      exact get_set_congr _ (by omega) (get_set_congr _ (by omega) (get_set_ne _ _ (by omega)))
    · intro x above _
      exact get_set_congr _ (by omega) (get_set_congr _ (by omega) (get_set_ne _ _ (by omega)))
  unfold Frame.write at written
  split at written
  · rename_i isLocal
    subst isLocal
    split at written
    · rename_i inside
      obtain rfl := Option.some.inj written
      obtain ⟨start, points, above, room, -, stored⟩ := popped.atLocal inside (by omega) (by omega)
      rw [get_set_ne _ _ (by omega)] at points
      exact indexed rfl image.pointers.lcl (by omega) points above (by omega) (stored value)
    · cases written
  · split at written
    · rename_i isArgument
      subst isArgument
      split at written
      · rename_i inside
        obtain rfl := Option.some.inj written
        obtain ⟨start, points, above, room, -, stored⟩ := popped.atArgument inside (by omega) (by omega)
        rw [get_set_ne _ _ (by omega)] at points
        exact indexed rfl image.pointers.arg (by omega) points above (by omega) (stored value)
      · cases written
    · cases written

theorem forward_arithmetic {operation : Text} {x y value : Word} {operands : List Word}
    (here : cs[position]? = some (.arithmetic operation)) (top : f.operands = y :: x :: operands)
    (result : evaluate operation x y = some value) :
    ∃ d, c.Reaches d ∧ Follows p image.address base ⟨position + 1, { f with operands := value :: operands }, callers⟩ d := by
  obtain ⟨code, coded, next, contains, stands⟩ := rep.code here
  have placed : Placed c.memory image.address base f callers := rep.placed
  have sp := placed.sp
  have two : 2 ≤ extent f callers := Nat.le_trans (by simp) (operands_le_extent top callers)
  have second : c.memory.get (base + extent f callers - 1) = y := placed.operand top 0 rfl
  have first : c.memory.get (base + extent f callers - 2) = x := placed.operand top 1 rfl
  have combined : ∀ {alu : Alu}, usesOperand alu = true → code = combine alu → alu.eval x y = value →
      ∃ d, c.Reaches d ∧ Follows p image.address base ⟨position + 1, { f with operands := value :: operands }, callers⟩ d := by
    intro alu uses shape same
    subst shape
    obtain ⟨r, done, memory⟩ := @exec_combine _ image.pointers c.a c.d _ _ sp alu uses (by omega) high
    rw [first, second, same] at memory
    exact rep.advance (rep.running stands) next stands done (memory ▸ placed.combine top (by omega) high)
  have compared : ∀ {condition : Jump} {n : Nat},
      code = compare condition (Session.compareLabels n).1 (Session.compareLabels n).2 →
      (if condition.holds (x - y) then -1 else 0) = value →
      ∃ d, c.Reaches d ∧ Follows p image.address base ⟨position + 1, { f with operands := value :: operands }, callers⟩ d := by
    intro condition n shape same
    subst shape
    have running := rep.running stands
    obtain ⟨isTrue, isEnd⟩ := contains.comparison
    obtain ⟨k, r, reaches, memory⟩ := @reaches_compare c _ image.pointers _ rep.pc rep.free running _ sp _ _ _ stands
      isTrue isEnd (Nat.lt_succ_of_le contains.fits) (by omega) high
    rw [first, second, same] at memory
    exact rep.move running reaches (by rw [next]; rfl) (memory ▸ placed.combine top (by omega) high)
  rcases Naming.arithmetic_ok coded with ⟨rfl, shape⟩ | ⟨rfl, shape⟩ | ⟨condition, kind, shape⟩
  · have sum : x + y = value := Option.some.inj result
    rw [Int16.add_comm] at sum
    exact combined rfl shape sum
  · exact combined rfl shape (Option.some.inj result)
  · refine compared shape ?_
    rcases kind with ⟨rfl, rfl⟩ | ⟨rfl, rfl⟩
    · rw [← Option.some.inj result]
      simp [Jump.holds]
    · rw [← Option.some.inj result]
      simp [Jump.holds]

theorem forward_ifGoto {name : Text} {value : Word} {operands : List Word} {there : Nat}
    (here : cs[position]? = some (.ifGoto name)) (top : f.operands = value :: operands)
    (goes : if value = 0 then there = position + 1 else target cs position name = some there) :
    ∃ d, c.Reaches d ∧ Follows p image.address base ⟨there, { f with operands }, callers⟩ d := by
  obtain ⟨code, coded, next, contains, stands⟩ := rep.code here
  obtain rfl := Except.ok.inj coded
  have placed : Placed c.memory image.address base f callers := rep.placed
  have popped := placed.pop top (by omega)
  have running := rep.running stands
  have word : c.memory.get (base + extent f callers - 1) = value := placed.operand top 0 rfl
  obtain ⟨passed, taken⟩ := reaches_goToIf image.pointers rep.pc rep.free running placed.sp stands (by omega) high
  rw [word] at passed taken
  split at goes
  · rename_i zero
    subst goes
    obtain ⟨r, reaches, memory⟩ := passed zero
    exact rep.move running reaches (by rw [next]; rfl) (memory ▸ popped)
  · rename_i nonzero
    obtain ⟨known, leads, fits⟩ := image.value_target goes
    have apart : image.address there ≠ image.address position + 3 := by
      have outside := contains.outside rfl known
      rw [show codeSize (goToIf ((image.naming position).qualify name)) = 5 from rfl] at outside
      omega
    obtain ⟨r, reaches, memory⟩ := taken nonzero _ leads (by omega) apart
    exact rep.move running reaches rfl (memory ▸ popped)

omit high in
theorem forward_call {name : Text} {n : Nat} {s : State} (here : cs[position]? = some (.call name n))
    (enough : n ≤ f.operands.length)
    (entered : enter cs name (f.operands.take n).reverse (position + 1) ({ f with operands := f.operands.drop n } :: callers) =
      some s) (room : base + s.extent ≤ 32767) :
    ∃ d, c.Reaches d ∧ Follows p image.address base s d := by
  obtain ⟨⟨j, k⟩, found, rfl⟩ := Option.map_eq_some_iff.mp entered
  obtain ⟨code, coded, next, contains, stands⟩ := rep.code here
  obtain rfl := Naming.call_ok coded
  have placed : Placed c.memory image.address base f callers := rep.placed
  have running := rep.running stands
  have tall : base + extent f callers + 5 + k ≤ 32767 := by
    have dropped := extent_drop enough callers
    simp only [State.extent, extent, List.length_reverse, List.length_take, List.length_replicate, List.length_nil,
      Nat.min_eq_left enough] at room
    omega
  have arguments : n ≤ base + extent f callers := by
    have := operands_le_extent (f := f) rfl callers
    omega
  obtain ⟨ticks, r, reaches, memory⟩ := reaches_call rep.rom rep.free running found placed.sp contains rep.pc (by omega)
    arguments tall
  have behind : image.address (position + 1) = image.address position + 47 := next
  rw [← behind] at memory
  exact rep.move running reaches rfl (memory ▸ placed.enter enough low tall)

theorem forward_return {value : Word} {operands : List Word} {caller : Frame} {rest : List Frame}
    (here : cs[position]? = some .ret) (top : f.operands = value :: operands) (called : callers = caller :: rest) :
    ∃ d, c.Reaches d ∧ Follows p image.address base ⟨f.back, { caller with operands := value :: caller.operands }, rest⟩ d := by
  subst called
  obtain ⟨code, coded, next, contains, stands⟩ := rep.code here
  obtain rfl := Except.ok.inj coded
  have placed : Placed c.memory image.address base f (caller :: rest) := rep.placed
  have running := rep.running stands
  obtain ⟨start, result, lcl, arg, above, below, inside, saved, left⟩ := placed.leave top low (by omega)
  have ran := run_return image.pointers rep.pc stands (rep.free.ready running _) placed.sp lcl arg above below (by omega)
    (by omega) high saved (Nat.lt_succ_of_le (image.address_le f.back))
  exact rep.move running (Core.reaches_of_run ran) rfl left

end Steps

/-! ### Runs -/

section Runs

variable {cs : List Command} {p : Program} {image : Image cs p} {base : Nat} (low : 16 ≤ base)
include low

/-- Where the stack machine makes a step, the core gets to a core for the next state. -/
theorem forward_step {s t : State} {c : Core} (rep : Follows p image.address base s c) (stepped : step cs s = some t)
    (high : base + s.extent ≤ 32767) (room : base + t.extent ≤ 32767) :
    ∃ d, c.Reaches d ∧ Follows p image.address base t d := by
  obtain ⟨position, f, callers⟩ := s
  have high : base + extent f callers < 32768 := Nat.lt_succ_of_le high
  rw [step] at stepped
  split at stepped
  case h_1 segment i here =>
    obtain ⟨value, read, rfl⟩ := Option.map_eq_some_iff.mp stepped
    exact forward_push rep low high here read
  case h_2 segment i value operands here top =>
    obtain ⟨g, written, rfl⟩ := Option.map_eq_some_iff.mp stepped
    exact forward_pop rep low high here top written
  case h_3 operation y x operands here top =>
    obtain ⟨value, result, rfl⟩ := Option.map_eq_some_iff.mp stepped
    exact forward_arithmetic rep low high here top result
  case h_4 name here =>
    obtain rfl := Option.some.inj stepped
    exact forward_label rep here
  case h_5 name here =>
    obtain ⟨there, goes, rfl⟩ := Option.map_eq_some_iff.mp stepped
    exact forward_goto rep here goes
  case h_6 name value operands here top =>
    split at stepped
    · rename_i zero
      obtain rfl := Option.some.inj stepped
      exact forward_ifGoto rep low high here top (by rw [if_pos zero])
    · rename_i nonzero
      obtain ⟨there, goes, rfl⟩ := Option.map_eq_some_iff.mp stepped
      exact forward_ifGoto rep low high here top (by rw [if_neg nonzero]; exact goes)
  case h_7 name n here =>
    split at stepped
    · rename_i enough
      exact forward_call rep low here enough stepped room
    · cases stepped
  case h_8 value operands here top =>
    split at stepped
    · obtain rfl := Option.some.inj stepped
      exact forward_return rep low high here top rfl
    · cases stepped
  case h_9 => cases stepped

/-- What a run of the stack machine reaches, the core reaches too. -/
theorem forward_run {s t : State} {c : Core} {n : Nat} (rep : Follows p image.address base s c)
    (ran : run cs n s = some t) (room : ∀ i ≤ n, ∀ u, run cs i s = some u → base + u.extent ≤ 32767) :
    ∃ d, c.Reaches d ∧ Follows p image.address base t d := by
  induction n generalizing s c with
  | zero =>
    obtain rfl := Option.some.inj ran
    exact ⟨c, Core.reaches_refl c, rep⟩
  | succ n ih =>
    obtain ⟨u, stepped, later⟩ := Option.bind_eq_some_iff.mp ran
    have after : ∀ i v, run cs i u = some v → run cs (i + 1) s = some v := by
      intro i v reached
      rw [run, stepped, Option.bind_some, reached]
    obtain ⟨d, first, next⟩ := forward_step low rep stepped (room 0 (by omega) s rfl) (room 1 (by omega) u (after 0 u rfl))
    obtain ⟨e, rest, final⟩ := ih next later fun i le v reached => room (i + 1) (by omega) v (after i v reached)
    exact ⟨e, first.trans rest, final⟩

end Runs

/-! ### Whole programs -/

/-- The image of a program that was loaded from its own output. -/
theorem exists_image {cs : List Command} {p : Program} {front lines : List Line} {names : Naming}
    (wellFormed : ∀ c ∈ cs, c.WellFormed) (legible : Legible front) (unscoped : names.function = [])
    (coded : names.program cs = .ok lines) (loaded : Program.load (Session.written (front ++ lines)) = .ok p)
    (free : ∀ symbol ∈ p.labels.map Prod.fst, Assembly.predefined.lookup symbol = none ∧ Text.toInt? symbol = none)
    (small : p.code.length ≤ 32767) : ∃ image : Image cs p, image.front = front ∧ image.names = names := by
  have clean : Legible (front ++ lines) :=
    List.forall_mem_append.mpr ⟨legible, program_legible wellFormed (unscoped ▸ Text.clean_nil) coded⟩
  cases parsed : Assembly.parse (Session.written (front ++ lines)) with
  | error e => simp [Program.load, parsed] at loaded
  | ok instructions =>
    obtain ⟨operations, inRange⟩ := parse_written (fun l member => (clean l member).1) parsed
    have origin := Program.load_ok parsed loaded
    rw [operations] at origin
    have symbolic : ∀ {symbol value}, p.labels.lookup symbol = some value → Text.toInt? symbol = none := by
      intro symbol value known
      exact (free symbol (lookup_isSome.mp (by simp [known]))).2
    have pointers : Pointers p.value := by
      apply pointers_of_free
      intro symbol predefined
      by_contra bound
      have known := (free symbol (lookup_isSome.mp (Option.isSome_iff_ne_none.mpr bound))).1
      have isSome := lookup_isSome.mpr predefined
      rw [known] at isSome
      cases isSome
    have named : ∀ l ∈ front ++ lines, l.Named := fun l member => (clean l member).2
    exact ⟨⟨front, lines, names, wellFormed, unscoped, coded, origin, named, inRange, symbolic, pointers, small⟩, rfl, rfl⟩

/-- The bootstrap leads a fresh core to the first state. -/
theorem forward_start {cs : List Command} {p : Program} {image : Image cs p} {base : Nat} {entryPoint : Text} {s : State}
    (front : image.front = bootstrapLines base entryPoint) (low : 16 ≤ base)
    (started : start cs entryPoint = some s) (room : base + s.extent ≤ 32767) :
    ∃ d, ((Core.fresh 0).map p.code).Reaches d ∧ Follows p image.address base s d := by
  obtain ⟨⟨j, locals⟩, found, rfl⟩ := Option.map_eq_some_iff.mp started
  have tall : base + 5 + locals ≤ 32767 := by
    simp only [State.extent, extent, List.length_replicate, List.length_nil] at room
    omega
  have setsBase : image.Contains 0 (setStackPointer base) :=
    ⟨[.comment "bootstrap"], .comment (Command.call entryPoint 0).render ::
      (callCode entryPoint 0 (Session.returnLabel entryPoint 0) ++ image.lines), by rw [front, bootstrapLines]; simp, rfl⟩
  have calls : image.Contains 4 (callCode entryPoint (0 : Nat) (Session.returnLabel entryPoint 0)) :=
    ⟨.comment "bootstrap" :: setStackPointer base ++ [.comment (Command.call entryPoint 0).render], image.lines,
      by rw [front, bootstrapLines]; simp, rfl⟩
  have origin : image.address 0 = 4 + 47 := by
    rw [Image.address, commandAddress, front]
    rfl
  let c : Core := (Core.fresh 0).map p.code
  let based : Registers := ⟨Word.ofNat 0, Word.ofNat base, Memory.zero.set 0 (Word.ofNat base)⟩
  have free : c.Free := ⟨rfl, Int.le_refl 0⟩
  have sp : based.memory.get 0 = Word.ofNat base := get_set_self _ _ (by omega)
  have done : exec p.value (setStackPointer base) c.registers = some based :=
    exec_setStackPointer image.pointers (by omega)
  have first : c.Reaches (c.moved 4 (4 : Nat) based) := @reaches_exec c _ 0 rfl free rfl _ _ setsBase.stands done
  obtain ⟨ticks, r, entered, memory⟩ := @reaches_call _ _ image (c.moved 4 (4 : Nat) based) _ _ _ _ rfl (free.moved ..) rfl
    found sp 4 0 0 calls rfl low (Nat.zero_le base) tall
  rw [Core.moved_moved] at entered
  have empty : Placed based.memory image.address base {} [] := ⟨base, ⟨rfl, rfl, rfl⟩, held_nil _ _, sp⟩
  have placed := @Placed.enter _ _ _ _ _ 0 locals 0 empty (Nat.zero_le _) low tall
  rw [origin] at placed
  have stored : Placed r.memory image.address base { locals := List.replicate locals 0 } [{}] := by
    rw [memory]
    exact placed
  refine ⟨_, first.trans entered, ⟨rfl, rfl, rfl, stored, ?_⟩, Int.le_refl 0⟩
  intro halted
  cases halted

/-- Generated code simulates the stack machine. For commands that can be read, and a program that is
loaded from their output behind a bootstrap, whatever the stack machine reaches from the entry point
with its stack inside the memory, a fresh core reaches too, unless it runs out of cycles. -/
theorem forward_simulation {cs : List Command} {stackBase : Int} {entryPoint : Text} {device : Option Device}
    {session : Session} {program : Program} {base n : Nat} {s t : State} (readable : ∀ c ∈ cs, c.Readable)
    (accepted : Session.generate true cs (Session.start stackBase entryPoint device) = .ok () session)
    (based : (Session.start stackBase entryPoint device).stackBase = base) (low : 16 ≤ base)
    (loaded : Program.load session.sink.delivered.toList = .ok program)
    (free : ∀ symbol ∈ program.labels.map Prod.fst,
      Assembly.predefined.lookup symbol = none ∧ Text.toInt? symbol = none)
    (small : program.code.length ≤ 32767)
    (started : start cs (Session.start stackBase entryPoint device).entryPoint = some s) (ran : run cs n s = some t)
    (room : ∀ i ≤ n, ∀ u, run cs i s = some u → base + u.extent ≤ 32767) :
    ∃ ticks : Nat, ∀ limit : Int, limit ≤ 0 ∨ ticks ≤ limit →
      Represents program
        (commandAddress (bootstrapLines base (Session.start stackBase entryPoint device).entryPoint) { calls := 1 } cs)
        base t (Core.run ticks ((Core.fresh limit).map program.code)).2 := by
  have wellFormed : ∀ c ∈ cs, c.WellFormed := fun c member => (readable c member).wellFormed
  obtain ⟨lines, coded, delivered⟩ := Session.generate_ok accepted
  rw [if_pos rfl] at coded
  rw [if_pos rfl, based] at delivered
  rw [delivered] at loaded
  generalize (Session.start stackBase entryPoint device).entryPoint = entryPoint at loaded started ⊢
  -- The entry point is not read from a source, but the function of that name is.
  have token : Text.IsToken entryPoint := by
    obtain ⟨⟨j, locals⟩, found, -⟩ := Option.map_eq_some_iff.mp started
    obtain ⟨k, here, -⟩ := entry_spec found
    exact (wellFormed _ (List.mem_of_getElem? here)).token entryPoint rfl
  obtain ⟨image, front, names⟩ := exists_image wellFormed (bootstrap_legible base token) rfl coded loaded free small
  obtain ⟨c, booted, first⟩ := forward_start front low started (room 0 (Nat.zero_le n) s rfl)
  obtain ⟨d, reached, last⟩ := forward_run low first ran room
  obtain ⟨ticks, ending, arrived, -⟩ := booted.trans reached
  refine ⟨ticks, fun limit enough => ?_⟩
  have limited : Core.run ticks ((Core.fresh limit).map program.code) = (ending, d.limited limit) := by
    have same := @Core.run_limited ((Core.fresh 0).map program.code) limit ticks (Int.le_refl 0) (by
      show limit ≤ 0 ∨ ((0 : Nat) : Int) + ticks ≤ limit
      omega)
    rw [arrived] at same
    exact same
  rw [limited, ← front, ← names]
  exact ⟨last.rom, last.sound, last.pc, last.placed, last.stuck⟩

def doubling : List Command :=
  [.function "Sys.init" 0, .push "constant" 300, .call "Main.double" 1, .label "end", .goto "end",
    .function "Main.double" 1, .push "argument" 0, .pop "local" 0, .push "local" 0, .push "argument" 0,
    .arithmetic "add", .ret]

/-- The doubled number is on top of the stack when the program arrives at its end. -/
theorem forward_simulation_doubling :
    ∃ session program, Session.generate true doubling (Session.start 0 [] none) = .ok () session ∧
      Program.load session.sink.delivered.toList = .ok program ∧
      ∃ ticks : Nat, ∀ limit : Int, limit ≤ 0 ∨ ticks ≤ limit →
        let c := (Core.run ticks ((Core.fresh limit).map program.code)).2
        c.fault = none ∧ c.word 0 = 262 ∧ c.word 261 = 600 := by
  let lines := (Naming.program { calls := 1 } doubling).toOption.getD []
  have coded : Naming.program { calls := 1 } doubling = .ok lines := rfl
  have bound : (Program.load (Session.written (bootstrapLines 256 "Sys.init" ++ lines))).toOption.map
      (fun p => (p.labels.map Prod.fst, p.code.length)) =
        some ([Text.ofString "Sys.init$ret.0", "Sys.init", "Main.double$ret.1", "Sys.init$end", "Main.double"], 212) := by
    decide +kernel
  have readable : (Reader.start [] ("function Sys.init 0\npush constant 300\ncall Main.double 1\nlabel end\ngoto end\n" ++
      "function Main.double 1\npush argument 0\npop local 0\npush local 0\npush argument 0\nadd\nreturn\n")).readAll.1 =
        doubling := by decide +kernel
  obtain ⟨session, accepted, delivered⟩ := @Session.generate_free true doubling lines 0 [] coded
  have output : session.sink.delivered.toList = Session.written (bootstrapLines 256 "Sys.init" ++ lines) := delivered
  rw [← output] at bound
  cases loaded : Program.load session.sink.delivered.toList with
  | error e => rw [loaded] at bound; cases bound
  | ok program =>
    rw [loaded] at bound
    obtain ⟨labels, length⟩ := Prod.mk.inj (Option.some.inj bound)
    have started : start doubling (Session.start 0 [] none).entryPoint = some ⟨1, {}, [{}]⟩ := by decide +kernel
    have ran : run doubling 8 ⟨1, {}, [{}]⟩ = some ⟨3, { operands := [600] }, [{}]⟩ := by decide +kernel
    have low : (List.range 9).all (fun i => (run doubling i ⟨1, {}, [{}]⟩).all fun u => 256 + u.extent ≤ 32767) = true := by
      decide +kernel
    have free : ∀ symbol ∈ program.labels.map Prod.fst,
        Assembly.predefined.lookup symbol = none ∧ Text.toInt? symbol = none := by
      rw [labels]
      decide
    have room : ∀ i ≤ 8, ∀ u, run doubling i ⟨1, {}, [{}]⟩ = some u → 256 + u.extent ≤ 32767 := by
      intro i le u reached
      have fits := List.all_eq_true.mp low i (by simp; omega)
      simpa [reached] using fits
    have members : ∀ c ∈ doubling, c.Readable := fun c member => ⟨_, _, readable ▸ member⟩
    obtain ⟨ticks, represents⟩ := @forward_simulation doubling 0 [] none session program 256 8 _ _ members accepted rfl
      (by decide) loaded free (by omega) started ran room
    refine ⟨session, program, accepted, loaded, ticks, fun limit enough => ?_⟩
    have reached := represents limit enough
    exact ⟨reached.sound, reached.placed.sp, reached.placed.operand rfl 0 rfl⟩

end Emission

end HackToolchain
