import HackToolchain.Machine.Display
import HackToolchain.Proofs.Machine.Halt
import HackToolchain.Proofs.Machine.Safety

/-!
Cycle limits. A tick looks at the limit before all else, so up to the tick that finds it spent a limited run
is the run without a limit, and one tick more than the limit is the last. A core that runs off its program
notices only in the tick behind its last instruction, and that may be the tick that finds the limit spent.
-/

namespace HackToolchain.Core

/-! ### Single ticks -/

/-- What a tick does to a core that still has a cycle to spend: it executes an instruction, which may close a
halt loop, or it counts nothing and finds an address out of range or no instruction at all. -/
inductive Ticked (c : Core) : Tick × Core → Prop
  | advanced {after : Core} (sound : after.fault = none) (rom : after.rom = c.rom) (cycles : after.cycles = c.cycles + 1)
    (running : after.halted = false) : Ticked c (.running, after)
  | looped {after : Core} (sound : after.fault = none) (cycles : after.cycles = c.cycles + 1)
    (inside : after.pc < c.rom.size) : Ticked c (.stopped, after)
  | faulted {fault : Fault} (range : fault.AddressRange) : Ticked c (.stopped, { c with fault := some fault })
  | ended (beyond : c.rom.size ≤ c.pc) : Ticked c (.stopped, { c with halted := true })

theorem ticked {c : Core} (sound : c.Sound) (ready : c.Ready 1) : Ticked c c.tick := by
  by_cases negative : c.pc < 0
  · have faults : c.tick = (.stopped, { c with fault := some (.counterRange c.pc) }) := by
      unfold tick
      rw [if_neg (by simp [ready.running, ready.sound]), if_neg ready.unspent, if_pos negative]
      rfl
    rw [faults]
    exact .faulted trivial
  have nonneg : 0 ≤ c.pc := by omega
  cases here : c.rom[c.pc.toNat]? with
  | none =>
    have beyond := Array.getElem?_eq_none_iff.mp here
    rw [tick_beyond ready nonneg beyond]
    exact .ended (by omega)
  | some i =>
    have inside := (Array.getElem?_eq_some_iff.mp here).1
    have counted := (unlimited_execute i c).cycles
    rw [tick_ready ready nonneg here]
    rcases execute_executable (sound.code i (Array.mem_of_getElem? here)) c with
      ⟨after, executed, rom, fault, -⟩ | ⟨fault, range, executed⟩
    · rw [executed] at counted ⊢
      have counted : after.cycles = c.cycles := counted
      have intact : after.fault = none := fault.trans ready.sound
      dsimp only
      cases halted : after.halted with
      | false => exact .advanced intact rom (congrArg (· + 1) counted) rfl
      | true =>
        -- Nothing but a jump that is taken back to its own address load can have halted the core.
        rcases execute_cases executed with same | ⟨-, dest, computation, condition, -, -, rfl⟩
        · rw [halted, ready.running] at same
          cases same
        · have closes : isHaltLoop c.rom c.pc c.a.toInt = true := by simpa [jumped, ready.running] using halted
          obtain ⟨back, -, -⟩ := isHaltLoop_iff.mp closes
          refine .looped intact (congrArg (· + 1) counted) ?_
          show c.a.toInt < c.rom.size
          omega
    · rw [executed]
      exact .faulted range

theorem Ticked.stopped {c e : Core} (last : Ticked c (.stopped, e)) (sound : c.fault = none) :
    c.cycles ≤ e.cycles ∧ e.cycles ≤ c.cycles + 1 ∧ ∀ n, e.fault ≠ some (.cycleLimit n) := by
  cases last with
  | looped intact cycles => exact ⟨by omega, Nat.le_of_eq cycles, by simp [intact]⟩
  | faulted range =>
    refine ⟨Nat.le_refl _, Nat.le_succ _, ?_⟩
    intro n spent
    rw [Option.some.inj spent] at range
    exact range
  | ended => exact ⟨Nat.le_refl _, Nat.le_succ _, by simp [sound]⟩

theorem tick_spent {c : Core} (running : c.halted = false) (sound : c.fault = none) (limited : 0 < c.limit)
    (spent : c.limit ≤ c.cycles) : c.tick = (.stopped, { c with fault := some (.cycleLimit c.cycles) }) := by
  unfold tick
  rw [if_neg (by simp [running, sound]), if_pos ⟨limited, spent⟩]
  rfl

/-! ### Runs without a limit -/

/-- A core that has executed a number of instructions and can go on. -/
structure Underway (c : Core) (n : Nat) (d : Core) : Prop where
  ran : c.run n = (.running, d)
  sound : d.Sound
  free : d.Free
  running : d.halted = false
  rom : d.rom = c.rom
  cycles : d.cycles = c.cycles + n

theorem Underway.last {c d e : Core} {n : Nat} (way : c.Underway n d) (last : d.tick = (.stopped, e)) :
    Ticked d (.stopped, e) :=
  last ▸ ticked way.sound (way.free.ready way.running 1)

theorem Underway.step {c d : Core} {n : Nat} (way : c.Underway n d) :
    (∃ e, c.Underway (n + 1) e) ∨ ∃ e, d.tick = (.stopped, e) := by
  have kept : d.tick.2.limit = d.limit := (tick_limited way.free.unlimited (.inl way.free.unlimited)).1
  have still := way.sound.tick.2
  have next : c.run (n + 1) = d.tick := by rw [run_add way.ran, run_one]
  have ticked := ticked way.sound (way.free.ready way.running 1)
  generalize d.tick = result at kept still next ticked ⊢
  cases ticked with
  | @advanced after sound rom cycles running =>
    have unlimited : after.limit ≤ 0 := by
      have same : after.limit = d.limit := kept
      rw [same]
      exact way.free.unlimited
    refine .inl ⟨after, next, still, ⟨sound, unlimited⟩, running, rom.trans way.rom, ?_⟩
    rw [cycles, way.cycles, Nat.add_assoc]
  | looped => exact .inr ⟨_, rfl⟩
  | faulted => exact .inr ⟨_, rfl⟩
  | ended => exact .inr ⟨_, rfl⟩

theorem Underway.onward {c : Core} (begun : c.Underway 0 c) (n : Nat) :
    (∃ d, c.Underway n d) ∨ ∃ k d e, k < n ∧ c.Underway k d ∧ d.tick = (.stopped, e) := by
  -- The first tick that stops the core is the last one it makes, so it stays the one that is named.
  induction n with
  | zero => exact .inl ⟨c, begun⟩
  | succ n ih =>
    rcases ih with ⟨d, way⟩ | ⟨k, d, e, early, way, last⟩
    · rcases way.step with further | ⟨e, last⟩
      · exact .inl further
      · exact .inr ⟨n, d, e, Nat.lt_succ_self n, way, last⟩
    · exact .inr ⟨k, d, e, Nat.lt_succ_of_lt early, way, last⟩

/-! ### Whole runs -/

/-- Ticking a core until a tick stops it takes a number of ticks, the last one included, and leaves it as another
core, however many more ticks are allowed. -/
def Ends (c : Core) (made : Nat) (e : Core) : Prop := ∀ n, made ≤ n → c.ticks n 0 = (made, .stopped, e)

theorem ends_of_run {c d e : Core} {k : Nat} (ran : c.run k = (.running, d)) (last : d.tick = (.stopped, e)) :
    c.Ends (k + 1) e := by
  intro n enough
  obtain ⟨m, rfl⟩ := Nat.exists_eq_add_of_le enough
  rw [Nat.add_assoc, ticks_add ran, Nat.add_comm 1 m, ticks_last last (by simp), Nat.zero_add]

theorem Ends.unique {c d e : Core} {m n : Nat} (first : c.Ends m d) (second : c.Ends n e) : m = n ∧ d = e := by
  have same := (first (max m n) (Nat.le_max_left m n)).symm.trans (second (max m n) (Nat.le_max_right m n))
  obtain ⟨made, rest⟩ := Prod.mk.inj same
  exact ⟨made, (Prod.mk.inj rest).2⟩

/-- A run without a limit that ends does so in the tick behind its last instruction. -/
theorem Underway.ends {c e : Core} {made : Nat} (begun : c.Underway 0 c) (ends : c.Ends made e) :
    ∃ k d, made = k + 1 ∧ c.Underway k d ∧ d.tick = (.stopped, e) := by
  rcases begun.onward made with ⟨d, way⟩ | ⟨k, d, e', -, way, last⟩
  · have unfinished := ticks_add way.ran 0 0
    rw [Nat.add_zero, ends made (Nat.le_refl made)] at unfinished
    simp [ticks, ticking] at unfinished
  · obtain ⟨rfl, rfl⟩ := ends.unique (ends_of_run way.ran last)
    exact ⟨k, d, rfl, way, last⟩

theorem Underway.ends_limited {c d e : Core} {k : Nat} {limit : Int} (begun : c.Underway 0 c) (way : c.Underway k d)
    (last : d.tick = (.stopped, e)) (room : limit ≤ 0 ∨ c.cycles + k < limit) :
    (c.limited limit).Ends (k + 1) (e.limited limit) := by
  have counted := way.cycles
  have ran := @run_limited c limit k begun.free.unlimited (by omega)
  obtain ⟨-, -, stops⟩ := @tick_limited d limit way.free.unlimited (by omega)
  rw [way.ran] at ran
  rw [last] at stops
  exact ends_of_run ran stops

theorem Underway.ends_spent {c d : Core} {k : Nat} {limit : Int} (begun : c.Underway 0 c) (way : c.Underway k d)
    (limited : 0 < limit) (spent : c.cycles + k = limit) :
    (c.limited limit).Ends (k + 1) { d with limit, fault := some (.cycleLimit d.cycles) } := by
  have counted := way.cycles
  have ran := @run_limited c limit k begun.free.unlimited (by omega)
  rw [way.ran] at ran
  have stops := @tick_spent (d.limited limit) way.running way.free.sound limited
    (by show limit ≤ d.cycles; omega)
  exact ends_of_run ran stops

/-- A core that halts within a limit halts under it too, unless it ran off its program with the last cycle. -/
theorem Underway.halts_within {c d e : Core} {k : Nat} {limit : Int} (begun : c.Underway 0 c) (way : c.Underway k d)
    (last : d.tick = (.stopped, e)) (halted : e.halted = true) (positive : 0 < limit) (within : e.cycles ≤ limit) :
    e.fault = none ∧
      ((e.cycles = limit ∧ c.rom.size ≤ e.pc ∧
          (c.limited limit).Ends (k + 1) { e with limit, halted := false, fault := some (.cycleLimit e.cycles) }) ∨
        ¬ (e.cycles = limit ∧ c.rom.size ≤ e.pc) ∧ (c.limited limit).Ends (k + 1) (e.limited limit)) := by
  have counted := way.cycles
  rw [← way.rom]
  cases way.last last with
  | looped sound cycles inside =>
    refine ⟨sound, .inr ⟨?_, begun.ends_limited way last (.inr (by omega))⟩⟩
    rintro ⟨-, beyond⟩
    omega
  | faulted range =>
    rw [show Core.halted _ = d.halted from rfl, way.running] at halted
    cases halted
  | ended beyond =>
    have within : (d.cycles : Int) ≤ limit := within
    refine ⟨way.free.sound, ?_⟩
    by_cases spent : (d.cycles : Int) = limit
    · refine .inl ⟨spent, beyond, ?_⟩
      have cut := begun.ends_spent way positive (by omega)
      rwa [show ({ d with limit, fault := some (.cycleLimit d.cycles) } : Core) =
        { d with halted := false, limit, fault := some (.cycleLimit d.cycles) } by rw [← way.running]] at cut
    · exact .inr ⟨fun both => spent both.1, begun.ends_limited way last (.inr (by omega))⟩

/-! ### Fresh cores -/

/-- Stores one after the other change nothing but the memory, and do not depend on the limit, if each of them does so. -/
theorem foldlM_limited {α : Type} {f : Core → α → Except Int Core}
    (step : ∀ {c d x}, f c x = .ok d →
      d = { c with memory := d.memory } ∧ ∀ other, f (c.limited other) x = .ok (d.limited other))
    {xs : List α} {c d : Core} (done : xs.foldlM f c = .ok d) :
    d = { c with memory := d.memory } ∧ ∀ other, xs.foldlM f (c.limited other) = .ok (d.limited other) := by
  induction xs generalizing c with
  | nil =>
    obtain rfl := Except.ok.inj done
    exact ⟨rfl, fun _ => rfl⟩
  | cons x xs ih =>
    rw [List.foldlM_cons] at done
    cases first : f c x with
    | error address =>
      rw [first] at done
      cases done
    | ok next =>
      rw [first] at done
      obtain ⟨kept, same⟩ := step first
      obtain ⟨later, rest⟩ := ih done
      rw [kept] at later
      refine ⟨later, ?_⟩
      intro other
      rw [List.foldlM_cons, same other]
      exact rest other

theorem boot_ok {code : List Instruction} {presets : List (Int × Word)} {limit : Int} {c : Core}
    (booted : boot code presets limit = .ok c) :
    c = { (fresh limit).map code with memory := c.memory } ∧ ∀ other, boot code presets other = .ok (c.limited other) := by
  refine foldlM_limited ?_ booted
  rintro c d ⟨address, value⟩ stored
  cases valid : Memory.isAddress address with
  | false =>
    simp only [poke, valid, Bool.false_eq_true, if_false] at stored
    cases stored
  | true =>
    simp only [poke, valid, if_true] at stored ⊢
    obtain rfl := Except.ok.inj stored
    exact ⟨rfl, fun _ => rfl⟩

theorem boot_limited {source : Text} {program : Program} (loaded : Program.load source = .ok program)
    {presets : List (Int × Word)} {limit : Int} {c : Core} (booted : boot program.code presets limit = .ok c) :
    (∀ other, boot program.code presets other = .ok (c.limited other)) ∧ c.cycles = 0 ∧ c.rom = program.code.toArray ∧
      (limit ≤ 0 → c.Underway 0 c) := by
  obtain ⟨shape, limits⟩ := boot_ok booted
  generalize c.memory = memory at shape
  subst shape
  refine ⟨limits, rfl, rfl, ?_⟩
  intro unlimited
  have sound : ((fresh limit).map program.code).Sound := sound_map loaded
  exact ⟨rfl, ⟨sound.code, sound.above, sound.below, sound.fault⟩, ⟨rfl, unlimited⟩, rfl, rfl, rfl⟩

/-- What is kept beside something that ticks has no part in its ticks. -/
theorem ticking_beside {α β : Type} {tick : Nat → α → Tick × α} {beside : Nat → α × β → Tick × α × β}
    (same : ∀ made a b, (beside made (a, b)).1 = (tick made a).1 ∧ (beside made (a, b)).2.1 = (tick made a).2) (n made : Nat)
    (a : α) (b : β) :
    ∃ kept, ticking beside n made (a, b) =
      ((ticking tick n made a).1, (ticking tick n made a).2.1, (ticking tick n made a).2.2, kept) := by
  induction n generalizing made a b with
  | zero => exact ⟨b, rfl⟩
  | succ n ih =>
    obtain ⟨progress, states⟩ := same made a b
    rw [ticking, ticking]
    generalize tick made a = ticked at progress states ⊢
    generalize beside made (a, b) = besides at progress states ⊢
    obtain ⟨last, next⟩ := ticked
    obtain ⟨last', next', kept⟩ := besides
    obtain rfl : last' = last := progress
    obtain rfl : next' = next := states
    cases last' with
    | running => exact ih (made + 1) next' kept
    | stopped => exact ⟨kept, rfl⟩
    | crashed => exact ⟨kept, rfl⟩

theorem ticksLogged_eq_ticks (step : Nat) (c : Core) (n made : Nat) (log : List Log.Record) :
    ∃ all, c.ticksLogged step n made log = ((c.ticks n made).1, (c.ticks n made).2.1, (c.ticks n made).2.2, all) :=
  ticking_beside (fun _ _ _ => ⟨rfl, rfl⟩) n made c log

theorem simulate_ends {code : List Instruction} {presets : List (Int × Word)} {limit : Int} {c e : Core} {made : Nat}
    (booted : boot code presets limit = .ok c) (ends : c.Ends made e) (followed : made ≤ horizon limit) (traced : Bool) :
    ∃ log, simulate code presets limit traced = .ok (e, log) := by
  have ticks := ends (horizon limit) followed
  have ran : c.run (horizon limit) = (.stopped, e) := by rw [← ticks_run c _ 0, ticks]
  obtain ⟨log, logged⟩ := ticksLogged_eq_ticks 1 c (horizon limit) 0 []
  rw [ticks] at logged
  unfold simulate
  simp only [booted]
  cases traced with
  | true => exact ⟨_, by rw [if_pos rfl, logged]⟩
  | false => exact ⟨_, by rw [if_neg Bool.false_ne_true, ran]⟩

/-! ### Limits -/

/-- A cycle limit only cuts a run short. A loaded program stops within one tick more than the limit and has
then executed at most as many instructions as the limit says. Unless it stops because the limit is spent, it stops
in the same tick and in the same state under every higher limit and under none. If the limit is spent, exactly that
many instructions were executed, and all but the fault is as it is after them without a limit. -/
theorem limit_cuts_short {source : Text} {program : Program} (loaded : Program.load source = .ok program)
    {presets : List (Int × Word)} {limit : Int} (positive : 0 < limit) {c : Core}
    (booted : boot program.code presets limit = .ok c) :
    ∃ made e, c.Ends made e ∧ made ≤ limit + 1 ∧ e.cycles ≤ limit ∧
      ((∀ n, e.fault ≠ some (.cycleLimit n)) → ∀ other, limit < other ∨ other ≤ 0 →
        ∃ d, boot program.code presets other = .ok d ∧ d.Ends made (e.limited other)) ∧
      ∀ n, e.fault = some (.cycleLimit n) → n = limit ∧ e.cycles = limit ∧
        ∀ other ≤ 0, ∃ d, boot program.code presets other = .ok d ∧
          d.run limit.toNat = (.running, { e with limit := other, fault := none }) := by
  -- Both runs are compared with the one whose limit is zero, which is none.
  obtain ⟨base, free⟩ : ∃ base, boot program.code presets 0 = .ok base := ⟨_, (boot_limited loaded booted).1 0⟩
  obtain ⟨limits, started, -, begun⟩ := boot_limited loaded free
  have begun := begun (Int.le_refl 0)
  obtain rfl := Except.ok.inj ((limits limit).symm.trans booted)
  rcases begun.onward limit.toNat with ⟨d, way⟩ | ⟨k, d, e, early, way, last⟩
  · -- Still underway when the limit is spent.
    have counted := way.cycles
    refine ⟨_, _, begun.ends_spent way positive (by omega), by omega, ?_, ?_, ?_⟩
    · show (d.cycles : Int) ≤ limit
      omega
    · intro unspent
      exact absurd rfl (unspent d.cycles)
    · intro n spent
      obtain rfl : d.cycles = n := Fault.cycleLimit.inj (Option.some.inj spent)
      refine ⟨by omega, (by show (d.cycles : Int) = limit; omega), ?_⟩
      intro other unlimited
      have ran := @run_limited base other limit.toNat begun.free.unlimited (.inl unlimited)
      rw [way.ran] at ran
      refine ⟨_, limits other, ran.trans ?_⟩
      show (Tick.running, d.limited other) = (.running, { d with limit := other, fault := none })
      rw [← way.free.sound]
      rfl
  · -- Stopped before that, by something else.
    have counted := way.cycles
    obtain ⟨-, few, unspent⟩ := (way.last last).stopped way.free.sound
    refine ⟨_, _, begun.ends_limited way last (.inr (by omega)), by omega, ?_, ?_, ?_⟩
    · show (e.cycles : Int) ≤ limit
      omega
    · intro _ other room
      refine ⟨_, limits other, ?_⟩
      show (base.limited other).Ends (k + 1) (e.limited other)
      exact begun.ends_limited way last (by omega)
    · intro n spent
      exact absurd spent (unspent n)

/-- Two instructions spend a limit of two: what is cut short is what goes on without a limit. -/
theorem limit_cuts_short_last :
    ∃ program c e, Program.load "@7\nD=A\n" = .ok program ∧ boot program.code [] 2 = .ok c ∧ c.Ends 3 e ∧
      e.fault = some (.cycleLimit 2) ∧ e.cycles = 2 ∧
      ∃ d, boot program.code [] 0 = .ok d ∧ d.run 2 = (.running, { e with limit := 0, fault := none }) := by
  let code : List Instruction := [⟨.address "7" 7, 1, "@7"⟩, ⟨.compute "D" "A" [], 2, "D=A"⟩]
  have loaded : Program.load "@7\nD=A\n" = .ok { code, labels := [], storage := [] } := by rfl
  have booted : boot code [] 2 = .ok ((fresh 2).map code) := rfl
  have stops : ((fresh 2).map code).Ends 3
      { (fresh 2).map code with pc := 2, a := 7, d := 7, cycles := 2, fault := some (.cycleLimit 2) } :=
    ends_of_run (k := 2) rfl rfl
  obtain ⟨made, e, ends, -, -, -, spent⟩ := limit_cuts_short loaded (show (0 : Int) < 2 by decide) booted
  obtain ⟨rfl, rfl⟩ := stops.unique ends
  obtain ⟨-, -, further⟩ := spent 2 rfl
  exact ⟨_, _, _, loaded, booted, ends, rfl, rfl, further 0 (Int.le_refl 0)⟩

/-- Where a loaded program halts without a limit, having executed at most as many instructions as a limit says, it
halts under that limit too and in the same state, with one exception: a program that has run off its end with the last
cycle is told that its limit is spent. -/
theorem limit_overrun_iff {source : Text} {program : Program} (loaded : Program.load source = .ok program)
    {presets : List (Int × Word)} {free limit : Int} (unlimited : free ≤ 0) (positive : 0 < limit) {c e : Core} {made : Nat}
    (booted : boot program.code presets free = .ok c) (ends : c.Ends made e) (halted : e.halted = true)
    (within : e.cycles ≤ limit) (traced : Bool) :
    ∃ f log, simulate program.code presets limit traced = .ok (f, log) ∧
      ((∃ n, f.fault = some (.cycleLimit n)) ↔ e.cycles = limit ∧ program.code.length ≤ e.pc) ∧
      (f = e.limited limit ∨ f = { e with limit, halted := false, fault := some (.cycleLimit e.cycles) }) := by
  obtain ⟨limits, -, rom, begun⟩ := boot_limited loaded booted
  have begun := begun unlimited
  obtain ⟨k, d, rfl, way, last⟩ := begun.ends ends
  have counted := way.cycles
  have size : c.rom.size = program.code.length := by rw [rom, List.size_toArray]
  obtain ⟨sound, outcome⟩ := begun.halts_within way last halted positive within
  rw [size] at outcome
  have followed : k + 1 ≤ horizon limit := by
    obtain ⟨few, -⟩ := (way.last last).stopped way.free.sound
    unfold horizon
    rw [if_pos positive]
    omega
  rcases outcome with ⟨spent, beyond, cut⟩ | ⟨other, same⟩
  · obtain ⟨log, simulated⟩ := simulate_ends (limits limit) cut followed traced
    exact ⟨_, log, simulated, ⟨fun _ => ⟨spent, beyond⟩, fun _ => ⟨e.cycles, rfl⟩⟩, .inr rfl⟩
  · obtain ⟨log, simulated⟩ := simulate_ends (limits limit) same followed traced
    refine ⟨_, log, simulated, ⟨?_, fun both => absurd both other⟩, .inl rfl⟩
    rintro ⟨n, spent⟩
    rw [show (e.limited limit).fault = e.fault from rfl, sound] at spent
    cases spent

/-- Two instructions need a limit of three if the program ends behind them, and of two if they are a halt loop. -/
theorem limit_overrun_iff_two :
    (∃ program, Program.load "@7\nD=A\n" = .ok program ∧
      ∃ f log, simulate program.code [] 2 false = .ok (f, log) ∧ f.fault = some (.cycleLimit 2)) ∧
    ∃ program, Program.load "(END)\n@END\n0;JMP\n" = .ok program ∧
      ∃ f log, simulate program.code [] 2 false = .ok (f, log) ∧ f.halted = true ∧ ¬ ∃ n, f.fault = some (.cycleLimit n) := by
  constructor
  · let code : List Instruction := [⟨.address "7" 7, 1, "@7"⟩, ⟨.compute "D" "A" [], 2, "D=A"⟩]
    have loaded : Program.load "@7\nD=A\n" = .ok { code, labels := [], storage := [] } := by rfl
    have ends : ((fresh 0).map code).Ends 3
        { (fresh 0).map code with pc := 2, a := 7, d := 7, cycles := 2, halted := true } :=
      ends_of_run (k := 2) rfl rfl
    obtain ⟨f, log, simulated, spent, state⟩ := limit_overrun_iff loaded (Int.le_refl 0) (show (0 : Int) < 2 by decide)
      (show boot code [] 0 = .ok ((fresh 0).map code) from rfl) ends rfl (by decide) false
    obtain ⟨n, overrun⟩ := spent.mpr ⟨rfl, by decide⟩
    refine ⟨_, loaded, f, log, simulated, ?_⟩
    rcases state with rfl | rfl
    · cases overrun
    · rfl
  · have loaded : Program.load "(END)\n@END\n0;JMP\n" = .ok { code := idiom, labels := [("END", 0)], storage := [] } := by rfl
    have ends : ((fresh 0).map idiom).Ends 2 { (fresh 0).map idiom with cycles := 2, halted := true } :=
      ends_of_run (k := 1) rfl rfl
    obtain ⟨f, log, simulated, spent, state⟩ := limit_overrun_iff loaded (Int.le_refl 0) (show (0 : Int) < 2 by decide)
      (show boot idiom [] 0 = .ok ((fresh 0).map idiom) from rfl) ends rfl (by decide) false
    have inside : ¬ ∃ n, f.fault = some (.cycleLimit n) := by
      rw [spent]
      decide
    refine ⟨_, loaded, f, log, simulated, ?_, inside⟩
    rcases state with rfl | rfl
    · rfl
    · exact absurd ⟨_, rfl⟩ inside

end HackToolchain.Core
