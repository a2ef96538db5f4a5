import HackToolchain.Proofs.Machine.Grammar
import HackToolchain.Proofs.Machine.Run

/-!
How loaded programs can stop. Reading admits an instruction only if a core can look up its computation and its
jump, and loading keeps labels out of the code. So nothing but an address out of range or a spent cycle limit
can stop a core that runs loaded programs, whatever jumps they compute and whatever is stored from outside.
-/

namespace HackToolchain

namespace Operation

/-- An operation of which a core finds everything that it looks up. -/
def Executable : Operation → Prop
  | .address _ _ => True
  | .compute _ comp jump =>
    (∃ computation, Computation.ofText? comp = some computation) ∧ (jump = [] ∨ ∃ condition, Jump.ofText? jump = some condition)
  | .label _ | .unknown => False

theorem executable_ofText {text : Text} (fine : malformed? text = none) (code : (ofText text).label? = none) :
    (ofText text).Executable := by
  obtain ⟨form, valid, rfl⟩ := Form.exists_form fine
  rw [valid.ofText] at code ⊢
  cases form with
  | address symbol => trivial
  | label symbol => cases code
  | compute dest comp jump =>
    obtain ⟨known, -, jumps⟩ := Form.valid_iff.mp valid
    exact ⟨Option.isSome_iff_exists.mp known, jumps.imp_right Option.isSome_iff_exists.mp⟩

theorem executable_bind {operation : Operation} (executable : operation.Executable) (value : Text → Nat) :
    (operation.bind value).Executable := by
  cases operation with
  | address symbol n => trivial
  | _ => exact executable

end Operation

theorem Program.executable {source : Text} {p : Program} (loaded : Program.load source = .ok p) :
    ∀ i ∈ p.code, i.operation.Executable := by
  intro i member
  obtain ⟨fine, code, operation⟩ := Program.mem_code loaded member
  rw [operation]
  apply Operation.executable_bind
  exact Operation.executable_ofText fine code

def Fault.AddressRange : Fault → Prop
  | .counterRange _ | .readRange .. | .writeRange .. => True
  | _ => False

def Fault.CycleLimit : Fault → Prop
  | .cycleLimit _ => True
  | _ => False

namespace Core

theorem proceed_executable {c : Core} {jump : Text} (known : jump = [] ∨ ∃ condition, Jump.ofText? jump = some condition)
    (value : Word) (target : Int) :
    ∃ after, c.proceed jump value target = (.advanced, after) ∧ after.rom = c.rom ∧ after.fault = c.fault ∧
      (after.pc = c.pc + 1 ∨ after.pc = target) := by
  unfold proceed
  by_cases plain : jump = []
  · rw [if_pos plain]
    exact ⟨_, rfl, rfl, rfl, .inl rfl⟩
  · obtain ⟨condition, found⟩ := known.resolve_left plain
    rw [if_neg plain, found]
    dsimp only
    split
    · exact ⟨_, rfl, rfl, rfl, .inr rfl⟩
    · exact ⟨_, rfl, rfl, rfl, .inl rfl⟩

/-- An executable instruction leads on or to an address out of range. -/
theorem execute_executable {i : Instruction} (executable : i.operation.Executable) (c : Core) :
    (∃ after, c.execute i = (.advanced, after) ∧ after.rom = c.rom ∧ after.fault = c.fault ∧
      (after.pc = c.pc + 1 ∨ after.pc = c.a.toInt)) ∨
    ∃ fault, fault.AddressRange ∧ c.execute i = (.faulted fault, c) := by
  unfold execute
  cases operation : i.operation with
  | address symbol value => exact .inl ⟨_, rfl, rfl, rfl, .inl rfl⟩
  | compute dest comp jump =>
    rw [operation] at executable
    obtain ⟨⟨computation, computes⟩, known⟩ := executable
    dsimp only
    unfold compute
    rw [computes]
    dsimp only
    split
    · refine .inr ⟨_, ?_, rfl⟩
      trivial
    · split
      · refine .inr ⟨_, ?_, rfl⟩
        trivial
      · left
        obtain ⟨after, proceeds, rom, fault, pc⟩ := proceed_executable known _ c.a.toInt
        exact ⟨after, proceeds, rom, fault, pc⟩
  | label symbol => rw [operation] at executable; exact executable.elim
  | unknown => rw [operation] at executable; exact executable.elim

/-! ### Sequences of actions -/

/-- What is done to a core from outside. -/
inductive Action
  | map (program : Program)
  | poke (address : Int) (value : Word)
  | tick

namespace Action

/-- Programs are loaded ones, and what is stored is stored in the memory. -/
def Allowed : Action → Prop
  | .map program => ∃ source, Program.load source = .ok program
  | .poke address _ => 0 ≤ address ∧ address ≤ 32767
  | .tick => True

def perform (c : Core) : Action → Core
  | .map program => c.map program.code
  | .poke address value => (c.poke address value).toOption.getD c
  | .tick => c.tick.2

end Action

/-- What holds of a core at all times. -/
structure Sound (c : Core) : Prop where
  code : ∀ i ∈ c.rom, i.operation.Executable
  above : -32768 ≤ c.pc
  below : c.pc ≤ max 32767 (c.rom.size : Int)
  fault : ∀ f ∈ c.fault, f.AddressRange ∨ f.CycleLimit

theorem sound_fresh (limit : Int) : (fresh limit).Sound := by
  refine ⟨?_, ?_, ?_, ?_⟩
  · intro i member
    exact absurd member (Array.not_mem_empty i)
  · show (-32768 : Int) ≤ 0
    decide
  · show (0 : Int) ≤ max 32767 0
    decide
  · intro f recorded
    cases recorded

theorem sound_map {c : Core} {source : Text} {p : Program} (loaded : Program.load source = .ok p) : (c.map p.code).Sound := by
  refine ⟨?_, ?_, ?_, ?_⟩
  · intro i member
    exact Program.executable loaded i (by simpa [map] using member)
  · show (-32768 : Int) ≤ 0
    decide
  · show (0 : Int) ≤ max 32767 _
    omega
  · intro f recorded
    cases recorded

theorem Sound.fail {c : Core} (sound : c.Sound) {fault : Fault} (known : fault.AddressRange ∨ fault.CycleLimit) :
    (c.fail fault).1 ≠ .crashed ∧ (c.fail fault).2.Sound := by
  refine ⟨(by intro same; cases same), sound.code, sound.above, sound.below, ?_⟩
  intro f recorded
  obtain rfl := Option.some.inj recorded
  exact known

theorem Sound.tick {c : Core} (sound : c.Sound) : c.tick.1 ≠ .crashed ∧ c.tick.2.Sound := by
  unfold Core.tick
  split
  · exact ⟨(by intro same; cases same), sound⟩
  · split
    · exact sound.fail (.inr trivial)
    · split
      · exact sound.fail (.inl trivial)
      · rename_i nonneg
        cases here : c.rom[c.pc.toNat]? with
        | none => exact ⟨(by intro same; cases same), sound.code, sound.above, sound.below, sound.fault⟩
        | some i =>
          have member := Array.mem_of_getElem? here
          dsimp only
          rcases execute_executable (sound.code i member) c with ⟨after, executed, rom, fault, pc⟩ | ⟨fault, known, executed⟩
          · rw [executed]
            refine ⟨?_, ?_, ?_, ?_, ?_⟩
            · dsimp only
              split
              · intro same
                cases same
              · intro same
                cases same
            · intro j inside
              exact sound.code j (rom ▸ inside)
            all_goals dsimp only
            · -- A jump leads to a word, and the next instruction is at most one behind the last.
              have low := Int16.le_toInt c.a
              omega
            · have high := Int16.toInt_lt c.a
              have inside := (Array.getElem?_eq_some_iff.mp here).1
              rw [rom]
              omega
            · rw [fault]
              exact sound.fault
          · rw [executed]
            exact sound.fail (.inl known)

theorem Sound.perform {c : Core} (sound : c.Sound) {action : Action} (allowed : action.Allowed) : (action.perform c).Sound := by
  cases action with
  | map program =>
    obtain ⟨source, loaded⟩ := allowed
    exact sound_map loaded
  | poke address value =>
    show ((c.poke address value).toOption.getD c).Sound
    unfold Core.poke
    split
    · exact ⟨sound.code, sound.above, sound.below, sound.fault⟩
    · exact sound
  | tick => exact sound.tick.2

theorem sound_run {actions : List Action} {c : Core} (sound : c.Sound) (allowed : ∀ action ∈ actions, action.Allowed) :
    (actions.foldl Action.perform c).Sound := by
  induction actions generalizing c with
  | nil => exact sound
  | cons action actions ih =>
    obtain ⟨here, later⟩ := List.forall_mem_cons.mp allowed
    exact ih (sound.perform here) later

/-- Whatever loaded programs are mapped, words stored and ticks made: no tick crashes, a recorded fault is an
address out of range or a spent limit, every instruction in the core either leads on or to an address out of
range, and the counter stays in its range. -/
theorem stops_as_documented (limit : Int) {actions : List Action} (allowed : ∀ action ∈ actions, action.Allowed) :
    let c := actions.foldl Action.perform (fresh limit)
    c.tick.1 ≠ .crashed ∧ (∀ fault ∈ c.fault, fault.AddressRange ∨ fault.CycleLimit) ∧
      (∀ i ∈ c.rom, ∀ d : Core, (d.execute i).1 = .advanced ∨ ∃ fault, fault.AddressRange ∧ (d.execute i).1 = .faulted fault) ∧
      -32768 ≤ c.pc ∧ c.pc ≤ max 32767 (c.rom.size : Int) := by
  intro c
  have sound : c.Sound := sound_run (sound_fresh limit) allowed
  refine ⟨sound.tick.1, sound.fault, ?_, sound.above, sound.below⟩
  intro i member d
  rcases execute_executable (sound.code i member) d with ⟨after, executed, -⟩ | ⟨fault, known, executed⟩
  · exact .inl (by rw [executed])
  · exact .inr ⟨fault, known, by rw [executed]⟩

/-- A store in front of the memory ends the run, where a store from outside went before. -/
theorem stops_as_documented_below :
    ∃ program, Program.load "@0\nAD=A-1\nAM=D;JMP\n" = .ok program ∧
      let actions : List Action := [.map program, .poke 32767 (-1), .tick, .tick, .tick]
      let c := actions.foldl Action.perform (fresh 5)
      c.fault = some (.writeRange (-1) 2) ∧ c.tick.1 ≠ .crashed ∧ c.pc ≤ max 32767 (c.rom.size : Int) := by
  let code : List Instruction :=
    [⟨.address "0" 0, 1, "@0"⟩, ⟨.compute "AD" "A-1" [], 2, "AD=A-1"⟩, ⟨.compute "AM" "D" "JMP", 3, "AM=D;JMP"⟩]
  have bound : (Program.load "@0\nAD=A-1\nAM=D;JMP\n").toOption = some { code, labels := [], storage := [] } := by decide +kernel
  cases loaded : Program.load "@0\nAD=A-1\nAM=D;JMP\n" with
  | error e => rw [loaded] at bound; cases bound
  | ok program =>
    rw [loaded] at bound
    obtain rfl := Option.some.inj bound
    have allowed : ∀ action ∈ ([.map { code, labels := [], storage := [] }, .poke 32767 (-1), .tick, .tick, .tick] : List Action),
        action.Allowed := by
      intro action member
      simp only [List.mem_cons, List.not_mem_nil, or_false] at member
      rcases member with rfl | rfl | rfl | rfl | rfl
      · exact ⟨_, loaded⟩
      · exact ⟨by decide, by decide⟩
      all_goals trivial
    obtain ⟨crashes, -, -, -, below⟩ := stops_as_documented 5 allowed
    exact ⟨_, rfl, rfl, crashes, below⟩

end Core

end HackToolchain
