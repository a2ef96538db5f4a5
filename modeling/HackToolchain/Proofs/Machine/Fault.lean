import HackToolchain.Proofs.Machine.Safety

/-!
Faults. An instruction is refused before it changes anything, whatever it reads, writes and jumps to, and whether
or not it can be read from a text. A core that a tick has stopped stays as it is until a program is mapped.
-/

namespace HackToolchain.Core

/-- Why a core cannot make its next tick. -/
inductive Refuses (c : Core) : Fault → Prop
  | cycleLimit (limited : 0 < c.limit) (spent : c.limit ≤ c.cycles) : Refuses c (.cycleLimit c.cycles)
  | counterRange (negative : c.pc < 0) : Refuses c (.counterRange c.pc)
  | notExecutable {i : Instruction} (here : c.rom[c.pc.toNat]? = some i)
    (other : i.operation = .unknown ∨ ∃ symbol, i.operation = .label symbol) : Refuses c (.notExecutable i.text)
  | unknownComp {i : Instruction} {dest comp jump : Text} (here : c.rom[c.pc.toNat]? = some i)
    (operation : i.operation = .compute dest comp jump) (unknown : Computation.ofText? comp = none) :
    Refuses c (.unknownComp comp)
  | readRange {i : Instruction} {dest comp jump : Text} {computation : Computation} (here : c.rom[c.pc.toNat]? = some i)
    (operation : i.operation = .compute dest comp jump) (computes : Computation.ofText? comp = some computation)
    (reads : computation.memory = true) (outside : Memory.isAddress c.a.toInt = false) :
    Refuses c (.readRange c.a.toInt c.pc)
  | writeRange {i : Instruction} {dest comp jump : Text} (here : c.rom[c.pc.toNat]? = some i)
    (operation : i.operation = .compute dest comp jump) (writes : dest.contains Register.M.letter = true)
    (outside : Memory.isAddress c.a.toInt = false) : Refuses c (.writeRange c.a.toInt c.pc)

/-! ### Instructions -/

theorem proceed_fault (c : Core) (jump : Text) (value : Word) (target : Int) :
    (∀ fault, (c.proceed jump value target).1 ≠ .faulted fault) ∧ (c.proceed jump value target).2.fault = c.fault := by
  unfold proceed
  split
  · exact ⟨by simp, rfl⟩
  · split
    · exact ⟨by simp, rfl⟩
    · split
      · exact ⟨by simp, rfl⟩
      · exact ⟨by simp, rfl⟩

/-- An instruction that is refused has done nothing, and any other one records no fault. -/
theorem execute_refused {c : Core} {i : Instruction} (here : c.rom[c.pc.toNat]? = some i) :
    (∃ fault, c.Refuses fault ∧ c.execute i = (.faulted fault, c)) ∨
      (∀ fault, (c.execute i).1 ≠ .faulted fault) ∧ (c.execute i).2.fault = c.fault := by
  cases operation : i.operation with
  | address symbol value =>
    rw [execute, operation]
    exact .inr ⟨by simp, rfl⟩
  | label symbol =>
    rw [execute, operation]
    exact .inl ⟨_, .notExecutable here (.inr ⟨symbol, operation⟩), rfl⟩
  | unknown =>
    rw [execute, operation]
    exact .inl ⟨_, .notExecutable here (.inl operation), rfl⟩
  | compute dest comp jump =>
    rw [execute, operation]
    dsimp only
    unfold compute
    split
    · rename_i unknown
      exact .inl ⟨_, .unknownComp here operation unknown, rfl⟩
    · rename_i computation computes
      dsimp only
      -- Both accesses are checked in front of the first store, and no store can fail any more.
      split
      · rename_i unreadable
        obtain ⟨reads, outside⟩ := Bool.and_eq_true_iff.mp unreadable
        exact .inl ⟨_, .readRange here operation computes reads (by simpa using outside), rfl⟩
      · split
        · rename_i unwritable
          obtain ⟨writes, outside⟩ := Bool.and_eq_true_iff.mp unwritable
          exact .inl ⟨_, .writeRange here operation writes (by simpa using outside), rfl⟩
        · exact .inr (proceed_fault (c.store dest _) jump _ _)

/-! ### Ticks -/

def Stopped (c : Core) : Prop := c.halted = true ∨ c.fault ≠ none

theorem Stopped.tick {c : Core} (stopped : c.Stopped) : c.tick = (.stopped, c) := by
  have ended : (c.halted || c.fault.isSome) = true := by
    rcases stopped with halted | faulty
    · simp [halted]
    · simp [Option.isSome_iff_ne_none, faulty]
  exact if_pos ended

/-- A tick stops a core for good or not at all, and a fault is all that is new in a core that records one. -/
theorem tick_refused_cases (c : Core) :
    (∃ fault, c.Refuses fault ∧ c.tick = (.stopped, { c with fault := some fault })) ∨
      c.tick.2.fault = c.fault ∧ (c.tick.1 = .stopped → c.tick.2.Stopped) := by
  unfold tick
  split
  · rename_i ended
    refine .inr ⟨rfl, ?_⟩
    intro _
    simpa [Stopped, Option.isSome_iff_ne_none] using ended
  · split
    · rename_i spent
      exact .inl ⟨_, .cycleLimit spent.1 spent.2, rfl⟩
    · split
      · rename_i negative
        exact .inl ⟨_, .counterRange negative, rfl⟩
      · cases here : c.rom[c.pc.toNat]? with
        | none => exact .inr ⟨rfl, fun _ => .inl rfl⟩
        | some i =>
          dsimp only
          rcases execute_refused here with ⟨fault, refuses, executed⟩ | ⟨accepted, kept⟩
          · rw [executed]
            exact .inl ⟨fault, refuses, rfl⟩
          · right
            generalize c.execute i = executed at accepted kept ⊢
            obtain ⟨progress, after⟩ := executed
            cases progress with
            | faulted fault => exact absurd rfl (accepted fault)
            | crashed =>
              refine ⟨kept, ?_⟩
              intro ends
              cases ends
            | advanced =>
              refine ⟨kept, ?_⟩
              intro ends
              left
              show after.halted = true
              apply Decidable.byContradiction
              intro running
              simp [running] at ends

/-! ### Stopped cores -/

theorem Stopped.perform {c : Core} (stopped : c.Stopped) {action : Action} (unmapped : ∀ program, action ≠ .map program) :
    action.perform c = { c with memory := (action.perform c).memory } ∧ (action = .tick → action.perform c = c) := by
  cases action with
  | map program => exact absurd rfl (unmapped program)
  | tick =>
    have same : Action.tick.perform c = c := congrArg Prod.snd stopped.tick
    rw [same]
    exact ⟨rfl, fun _ => rfl⟩
  | poke address value =>
    have stored : ∃ memory, (Action.poke address value).perform c = { c with memory } := by
      show ∃ memory, (c.poke address value).toOption.getD c = { c with memory }
      unfold poke
      split
      · exact ⟨_, rfl⟩
      · exact ⟨c.memory, rfl⟩
    obtain ⟨memory, same⟩ := stored
    rw [same]
    refine ⟨rfl, ?_⟩
    intro other
    cases other

/-- Nothing done to a stopped core changes more than its memory, and ticks do not change that, until a program is
mapped. -/
theorem Stopped.run {c : Core} (stopped : c.Stopped) {actions : List Action}
    (unmapped : ∀ program, Action.map program ∉ actions) :
    actions.foldl Action.perform c = { c with memory := (actions.foldl Action.perform c).memory } ∧
      ((∀ action ∈ actions, action = .tick) → actions.foldl Action.perform c = c) := by
  induction actions generalizing c with
  | nil => exact ⟨rfl, fun _ => rfl⟩
  | cons action actions ih =>
    obtain ⟨framed, idle⟩ := stopped.perform fun program same => unmapped program (same ▸ List.mem_cons_self)
    have still : (action.perform c).Stopped := by
      rw [framed]
      exact stopped
    obtain ⟨later, idleLater⟩ := ih still fun program member => unmapped program (List.mem_cons_of_mem _ member)
    rw [List.foldl_cons]
    refine ⟨?_, ?_⟩
    · rw [later, framed]
    · intro ticks
      obtain ⟨first, rest⟩ := List.forall_mem_cons.mp ticks
      rw [idleLater rest, idle first]

theorem ready_map (c : Core) (code : List Instruction) : (c.map code).Ready 1 := by
  refine ⟨rfl, rfl, ?_⟩
  intro limited
  show ((0 : Nat) : Int) + 1 ≤ c.limit
  have positive : 0 < c.limit := limited
  omega

/-- A tick that records a fault has a reason to refuse the instruction and changes nothing else. Once a tick has
stopped the core, all later ticks do nothing, whatever is stored in between, and a core that a program is mapped
into can tick again. -/
theorem faults_atomic_and_final (c : Core) :
    (∀ fault, c.fault = none → c.tick.2.fault = some fault →
      c.Refuses fault ∧ c.tick = (.stopped, { c with fault := some fault })) ∧
    (c.tick.1 = .stopped → ∀ actions : List Action, (∀ program, Action.map program ∉ actions) →
      let d := actions.foldl Action.perform c.tick.2
      d.tick = (.stopped, d) ∧ d = { c.tick.2 with memory := d.memory } ∧
        ((∀ action ∈ actions, action = .tick) → d = c.tick.2) ∧ ∀ code, (d.map code).Ready 1) := by
  refine ⟨?_, ?_⟩
  · intro fault sound recorded
    rcases tick_refused_cases c with ⟨other, refuses, ticked⟩ | ⟨kept, -⟩
    · have same : other = fault := by
        rw [ticked] at recorded
        exact Option.some.inj recorded
      exact ⟨same ▸ refuses, same ▸ ticked⟩
    · rw [kept, sound] at recorded
      cases recorded
  · intro ends actions unmapped d
    have stopped : c.tick.2.Stopped := by
      rcases tick_refused_cases c with ⟨fault, -, ticked⟩ | ⟨-, stops⟩
      · rw [ticked]
        exact .inr (by simp)
      · exact stops ends
    obtain ⟨framed, idle⟩ := stopped.run unmapped
    have still : d.Stopped := by
      show (actions.foldl Action.perform c.tick.2).Stopped
      rw [framed]
      exact stopped
    exact ⟨still.tick, framed, idle, ready_map d⟩

/-- An instruction that would store in both registers and in front of the memory, and jump there. -/
theorem faults_atomic_and_final_store :
    let c : Core := { fresh 5 with rom := #[⟨.compute "AMD" "D+1" "JMP", 1, "AMD=D+1;JMP"⟩], a := -1 }
    c.tick = (.stopped, { c with fault := some (.writeRange (-1) 0) }) ∧
      let d := [Action.tick, .poke 3 7, .tick].foldl Action.perform c.tick.2
      d.tick = (.stopped, d) ∧ d.fault = some (.writeRange (-1) 0) ∧ d.d = 0 ∧ (d.map []).Ready 1 := by
  intro c
  obtain ⟨atomic, final⟩ := faults_atomic_and_final c
  have ticked := (atomic (.writeRange (-1) 0) rfl rfl).2
  obtain ⟨idle, -, -, ready⟩ := final (by rw [ticked]) [.tick, .poke 3 7, .tick] (by simp)
  exact ⟨ticked, idle, rfl, rfl, ready []⟩

end HackToolchain.Core
