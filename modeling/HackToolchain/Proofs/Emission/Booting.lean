import HackToolchain.Proofs.Emission.Calling
import HackToolchain.Proofs.Emission.EntryPoint
import HackToolchain.Settings

/-!
Booting. The bootstrap sets the stack pointer and calls the entry point, which is reached with an intact frame if the
stack has room for it above the pointers and the entry point is no number of another address.
-/

namespace HackToolchain.Emission

open Memory Session

/-- The lines of a bootstrap in front of its jump. -/
def bootstrapBody (base : Int) (entryPoint : Text) : List Line :=
  .comment "bootstrap" :: setStackPointer base ++
    .comment (Command.call entryPoint 0).render :: callBody entryPoint (0 : Nat) (returnLabel entryPoint 0)

theorem bootstrapLines_eq (base : Int) (entryPoint : Text) :
    bootstrapLines base entryPoint = bootstrapBody base entryPoint ++ [Line.jump, .label (returnLabel entryPoint 0)] := by
  rw [bootstrapLines, callCode_eq]
  simp [bootstrapBody]

/-- The memory of a core that has booted from zeroed memory. -/
def booted (base back : Nat) : Memory :=
  ((framed (Memory.zero.set 0 (Word.ofNat base)) base back).set 2 (Word.ofNat base)).set 1 (Word.ofNat (base + 5))

theorem exec_bootstrapBody {value : Text → Int} (pointers : Pointers value) {base back target : Nat} {entryPoint : Text}
    {a d : Word} (low : 0 < base) (high : base + 4 < 32768) (returns : value (returnLabel entryPoint 0) = back)
    (calls : value entryPoint = target) :
    exec value (bootstrapBody base entryPoint) ⟨a, d, Memory.zero⟩ =
      some ⟨Word.ofNat target, Word.ofNat (base + 5), booted base back⟩ := by
  have sp : (Memory.zero.set 0 (Word.ofNat base)).get 0 = Word.ofNat base := get_set_self _ _ (by omega)
  rw [bootstrapBody, exec_append, exec_comment, exec_setStackPointer pointers (by omega), exec_bind, exec_comment,
    exec_callBody_framed pointers sp low high (Nat.zero_le _) (by omega) returns calls, Nat.sub_zero, booted]

/-- A program that starts with the bootstrap for a stack base and an entry point. -/
structure Opens (p : Program) (base : Nat) (entryPoint : Text) : Prop where
  pointers : Pointers p.value
  stands : Stands p.code.toArray p.value 0 (bootstrapLines base entryPoint)
  back : p.labels.lookup (returnLabel entryPoint 0) = some 51
  outside : ∀ {symbol target}, p.labels.lookup symbol = some target → target ≠ 49

theorem opens_of_loaded {p : Program} {base : Nat} {entryPoint : Text} {rest : List Operation}
    (loaded : p.LoadedFrom (operations (bootstrapLines base entryPoint) ++ rest))
    (free : ∀ symbol ∈ Assembly.predefined.map Prod.fst, p.labels.lookup symbol = none) : Opens p base entryPoint := by
  have shape : operations (bootstrapLines base entryPoint) = operations (setStackPointer base) ++
      operations (callCode entryPoint (0 : Nat) (returnLabel entryPoint 0)) := by
    rw [bootstrapLines, operations_append]
    rfl
  have size : Assembly.size (operations (setStackPointer base)) = 4 := size_operations (named_of_declared List.not_mem_nil)
  have named : ∀ l ∈ bootstrapLines base entryPoint, l.Named := by
    apply named_of_declared
    have label : declared (bootstrapLines base entryPoint) = [returnLabel entryPoint 0] := rfl
    rw [label, List.mem_singleton]
    exact (List.ne_nil_of_mem (dollar_mem_returnLabel entryPoint 0)).symm
  -- Its call starts behind the four instructions that set the stack pointer.
  have calls := loaded
  rw [shape] at calls
  obtain ⟨back, outside⟩ := call_labels calls
  rw [size] at back outside
  exact ⟨pointers_of_free free, @stands_block p [] rest _ loaded named, back, outside⟩

theorem free_fresh (code : List Instruction) : ((Core.fresh 0).map code).Free := ⟨rfl, Int.le_refl 0⟩

section Run

variable {p : Program} {base target : Nat} {entryPoint : Text} (opens : Opens p base entryPoint) (low : 0 < base)
  (high : base + 4 < 32768) (calls : p.value entryPoint = target)
include opens low high calls

theorem exec_opening (limit : Int) :
    exec p.value (bootstrapBody base entryPoint) ((Core.fresh limit).map p.code).registers =
      some ⟨Word.ofNat target, Word.ofNat (base + 5), booted base 51⟩ :=
  exec_bootstrapBody opens.pointers low high (value_label (symbolic_returnLabel entryPoint 0) opens.back) calls

theorem run_bootstrap (fits : target < 32768) (elsewhere : target ≠ 49) {limit : Int} (room : 0 < limit → 51 ≤ limit) :
    ((Core.fresh limit).map p.code).run 51 = (.running, ((Core.fresh limit).map p.code).moved 51 target
      ⟨Word.ofNat target, Word.ofNat (base + 5), booted base 51⟩) := by
  have stands := opens.stands
  rw [bootstrapLines_eq] at stands
  have ready : ((Core.fresh limit).map p.code).Ready 51 := ⟨rfl, rfl, by simpa [Core.fresh, Core.map] using room⟩
  have onward : Core.isHaltLoop p.code.toArray (0 + 50 : Nat) target = false := isHaltLoop_of_ne (by omega)
  exact @run_taken ((Core.fresh limit).map p.code) _ 0 _ _ _ .always _ _ stands rfl ready
    (exec_opening opens low high calls limit) (Word.toInt_ofNat fits) rfl onward

/-- Where the entry point lies beyond the program, the core goes through the bootstrap and halts there. -/
theorem run_beyond (fits : target < 32768) (beyond : p.code.length ≤ target) (elsewhere : target ≠ 49) (n : Nat) :
    (n < 51 ∧ (((Core.fresh 0).map p.code).run n).2.pc = n) ∨ ((((Core.fresh 0).map p.code).run n).2.pc = target ∧
      (((Core.fresh 0).map p.code).run n).2.memory = booted base 51) := by
  have ran := @run_bootstrap p base target entryPoint opens low high calls fits elsewhere 0
    (fun limited => absurd limited (Int.lt_irrefl 0))
  rcases Nat.lt_trichotomy n 51 with before | rfl | after
  · have stands := opens.stands
    rw [bootstrapLines_eq] at stands
    obtain ⟨r, within⟩ := @run_within ((Core.fresh 0).map p.code) _ 0 n _ _ (stands_append.mp stands).1 rfl
      ((free_fresh p.code).ready rfl _) (exec_opening opens low high calls 0) (Nat.le_of_lt_succ before)
    rw [within]
    exact .inl ⟨before, by simp [Core.moved]⟩
  · rw [ran]
    exact .inr ⟨rfl, rfl⟩
  · rw [Core.run_stopped ran (Core.tick_beyond (n := 0) (((free_fresh p.code).moved ..).ready rfl _) (Int.natCast_nonneg _) beyond) after]
    exact .inr ⟨rfl, rfl⟩

end Run

/-! ### A stack at the end of the memory -/

/-- The lines of a bootstrap in front of the store that saves the last pointer. -/
def bootstrapFront (base : Int) (entryPoint : Text) : List Line :=
  .comment "bootstrap" :: setStackPointer base ++ .comment (Command.call entryPoint 0).render ::
    callFront (returnLabel entryPoint 0) ++ [.address "THAT", Line.setM [.D] .x, .address "SP", Line.setM [.A] .x]

theorem bootstrapLines_front (base : Int) (entryPoint : Text) :
    ∃ rest, bootstrapLines base entryPoint = bootstrapFront base entryPoint ++ Line.set [.M] .d :: rest := ⟨_, rfl⟩

theorem exec_bootstrapFront {value : Text → Int} (pointers : Pointers value) {base back : Nat} {entryPoint : Text}
    {a d : Word} (low : 0 < base) (high : base + 3 < 32768) (returns : value (returnLabel entryPoint 0) = back) :
    ∃ d' m', exec value (bootstrapFront base entryPoint) ⟨a, d, Memory.zero⟩ = some ⟨Word.ofNat (base + 4), d', m'⟩ := by
  have sp : (Memory.zero.set 0 (Word.ofNat base)).get 0 = Word.ofNat base := get_set_self _ _ (by omega)
  obtain ⟨d', front⟩ := @exec_callFront _ pointers (Word.ofNat 0) (Word.ofNat base) _ _ _ _ sp low high returns
  have top : (framedFront (Memory.zero.set 0 (Word.ofNat base)) base back).get 0 = Word.ofNat (base + 4) := get_push_zero ..
  rw [bootstrapFront, exec_append, exec_append, exec_comment, exec_setStackPointer pointers (by omega), exec_bind, exec_comment,
    front, exec_bind]
  simp (disch := omega) only [exec_address, pointers.that, pointers.sp, Word.ofInt_natCast, exec_loadD, exec_loadA, top, exec_nil]
  exact ⟨_, _, rfl⟩

/-- With the stack four words in front of the end of the memory the core never gets behind the fifth push. -/
theorem run_overflow {p : Program} {entryPoint : Text} (opens : Opens p 32764 entryPoint) (n : Nat) :
    (((Core.fresh 0).map p.code).run n).2.pc ≤ 36 := by
  obtain ⟨rest, split⟩ := bootstrapLines_front (32764 : Nat) entryPoint
  have stands := split ▸ opens.stands
  obtain ⟨d, m, done⟩ := @exec_bootstrapFront _ opens.pointers 32764 51 entryPoint 0 0 (by omega) (by omega)
    (value_label (symbolic_returnLabel entryPoint 0) opens.back)
  have front := (stands_append.mp stands).1
  rcases Nat.lt_or_ge 36 n with after | before
  · obtain ⟨i, found, same⟩ := stands_at stands rfl
    have beyond : isAddress (Word.ofNat 32768).toInt = false := by decide
    have ran := @run_exec ((Core.fresh 0).map p.code) _ 0 _ _ front rfl ((free_fresh p.code).ready rfl _) done
    have refused := @tick_refused (((Core.fresh 0).map p.code).moved 36 (36 : Nat) ⟨Word.ofNat 32768, d, m⟩) p.value 36 0 [.M] .d i
      (((free_fresh p.code).moved ..).ready rfl _) rfl found (by rw [same]; rfl) rfl beyond
    rw [Core.run_stopped ran refused after]
    exact Int.le_refl 36
  · obtain ⟨r, within⟩ := @run_within ((Core.fresh 0).map p.code) _ 0 n _ _ front rfl ((free_fresh p.code).ready rfl _) done before
    rw [within]
    show ((0 + n : Nat) : Int) ≤ 36
    omega

/-! ### Bootable programs -/

/-- A program loaded from the output for commands that declare the entry point of valid settings, with a bootstrap and
with the pointers in their places. -/
structure Bootable (settings : Settings) (cs : List Command) (p : Program) : Prop where
  valid : settings.invalid? = none
  bootstrap : settings.bootstrap = true
  declares : ∃ locals, .function settings.entryPoint locals ∈ cs
  loaded : ∃ device session, generate settings.bootstrap cs (start settings.stackBase settings.entryPoint device) = .ok () session ∧
    Program.load session.sink.delivered.toList = .ok p
  size : p.code.length ≤ 32767
  free : ∀ symbol ∈ Assembly.predefined.map Prod.fst, p.labels.lookup symbol = none

/-- A core at the entry point, with the frame of the first call on the stack. -/
structure Booted (p : Program) (base : Nat) (entryPoint : Text) (c : Core) : Prop where
  sound : c.fault = none
  entry : ∃ entry, p.labels.lookup entryPoint = some entry ∧ c.pc = entry
  sp : c.word 0 = Word.ofNat (base + 5)
  lcl : c.word 1 = Word.ofNat (base + 5)
  arg : c.word 2 = Word.ofNat base
  back : ∃ back, p.labels.lookup (returnLabel entryPoint 0) = some back ∧ c.word base = Word.ofNat back
  saved : ∀ i < 4, c.word (base + 1 + i) = 0

theorem Booted.pc {p : Program} {base entry : Nat} {entryPoint : Text} {c : Core} (booted : Booted p base entryPoint c)
    (known : p.labels.lookup entryPoint = some entry) : c.pc = entry := by
  obtain ⟨_, here, there⟩ := booted.entry
  rwa [Option.some.inj (known.symm.trans here)]

theorem range_of_valid {settings : Settings} (valid : settings.invalid? = none) :
    settings.entryPoint.trim ≠ [] ∧ 0 < settings.stackBase ∧ settings.stackBase ≤ 32767 := by
  unfold Settings.invalid? Operation.maxLiteral at valid
  split at valid
  · cases valid
  · rename_i named
    split at valid
    · cases valid
    · exact ⟨named, by omega, by omega⟩

theorem start_valid {settings : Settings} (valid : settings.invalid? = none) (device : Option Device) :
    (start settings.stackBase settings.entryPoint device).stackBase = (settings.stackBase.toNat : Int) ∧
      (start settings.stackBase settings.entryPoint device).entryPoint = settings.entryPoint := by
  obtain ⟨named, positive, -⟩ := range_of_valid valid
  have nonempty : settings.entryPoint ≠ [] := by
    intro empty
    rw [empty] at named
    exact named rfl
  constructor
  · simp only [start]
    rw [if_neg (by omega)]
    omega
  · simp only [start]
    rw [if_neg nonempty]

theorem Bootable.opens {settings : Settings} {cs : List Command} {p : Program} (bootable : Bootable settings cs p) :
    Opens p settings.stackBase.toNat settings.entryPoint.squeeze ∧
      ∃ entry, p.labels.lookup settings.entryPoint.squeeze = some entry ∧ entry < 32768 := by
  obtain ⟨locals, declared⟩ := bootable.declares
  obtain ⟨device, session, accepted, loaded⟩ := bootable.loaded
  rw [bootable.bootstrap] at accepted
  obtain ⟨program, coded, delivered⟩ := generate_ok accepted
  obtain ⟨base, entryPoint⟩ := start_valid bootable.valid device
  rw [delivered, if_pos rfl, base, entryPoint] at loaded
  have named := Text.squeeze_ne_nil (range_of_valid bootable.valid).1
  obtain ⟨rest, entry, origin, known⟩ := loaded_opening loaded named (function_declared declared coded)
  refine ⟨opens_of_loaded origin bootable.free, entry, known, ?_⟩
  have bound := origin.lookup_le known
  have size := bootable.size
  omega

theorem value_entryPoint {p : Program} {entryPoint : Text} {entry : Nat} (known : p.labels.lookup entryPoint = some entry)
    (fits : entry < 32768) (own : ∀ n ∈ Text.toInt? entryPoint, n = entry) : p.value entryPoint = entry := by
  cases number : Text.toInt? entryPoint with
  | none => exact value_label number known
  | some n =>
    obtain rfl := own n number
    exact value_number number fits

section Frame

variable {base : Nat} (back : Nat) (low : 4 < base)
include low

theorem booted_eq : booted base back = called (Memory.zero.set 0 (Word.ofNat base)) base 0 back := by
  rw [booted, framed_eq _ _ low]
  rfl

theorem get_booted_pointers :
    (booted base back).get 0 = Word.ofNat (base + 5) ∧ (booted base back).get 1 = Word.ofNat (base + 5) ∧
      (booted base back).get 2 = Word.ofNat base := by
  rw [booted_eq back low]
  exact get_called_pointers (get_set_self _ _ (by omega))

theorem get_booted_frame {i : Nat} (high : base + 4 < 32768) (inside : i < 5) :
    (booted base back).get (base + i) = [Word.ofNat back, 0, 0, 0, 0][i] := by
  have zero : ∀ k ≠ 0, (Memory.zero.set 0 (Word.ofNat base)).get k = 0 := by
    intro k other
    rw [get_set_ne _ _ other, get_zero]
  rw [booted, framed_eq _ _ low, get_set_ne _ _ (by omega), get_set_ne _ _ (by omega),
    get_pushes_inside _ (by omega) (by simp; omega) (by simpa using inside)]
  simp only [zero 1 (by omega), zero 2 (by omega), zero 3 (by omega), zero 4 (by omega)]

end Frame

theorem get_booted_low (back : Nat) : (booted 4 back).get 8 = Word.ofNat back := by
  -- The return address lies on the last pointer, and is saved in its place.
  simp (disch := omega) only [booted, framed, framedFront, get_set_ne, get_push_ne, get_push_self]

/-- A bootable program boots if the stack base leaves room for a frame between the pointers and the end of the memory and
the entry point is no number, or that of its own address. -/
theorem boots {settings : Settings} {cs : List Command} {p : Program} (bootable : Bootable settings cs p)
    (low : 5 ≤ settings.stackBase) (high : settings.stackBase ≤ 32763)
    (own : ∀ n ∈ Text.toInt? settings.entryPoint.squeeze, ∀ entry ∈ p.labels.lookup settings.entryPoint.squeeze, n = entry)
    {limit : Int} (room : 0 < limit → 51 ≤ limit) :
    ∃ c, ((Core.fresh limit).map p.code).run 51 = (.running, c) ∧
      Booted p settings.stackBase.toNat settings.entryPoint.squeeze c := by
  obtain ⟨opens, entry, known, fits⟩ := bootable.opens
  have calls := value_entryPoint known fits fun n number => own n number entry known
  have above : 4 < settings.stackBase.toNat := by omega
  have below : settings.stackBase.toNat + 4 < 32768 := by omega
  have ran := run_bootstrap opens (by omega) below calls fits (opens.outside known) room
  obtain ⟨sp, lcl, arg⟩ := get_booted_pointers 51 above
  refine ⟨_, ran, rfl, ⟨entry, known, rfl⟩, sp, lcl, arg, ⟨51, opens.back, ?_⟩, ?_⟩
  · exact @get_booted_frame _ 51 above 0 below (by omega)
  · intro i small
    rw [Nat.add_assoc]
    refine (@get_booted_frame _ 51 above (1 + i) below (by omega)).trans ?_
    match i, small with
    | 0, _ | 1, _ | 2, _ | 3, _ => rfl

theorem bootable_only {settings : Settings} {labels : List (Text × Nat)} (valid : settings.invalid? = none)
    (bootstrap : settings.bootstrap = true)
    (read : (Program.load (written (bootstrapLines settings.stackBase settings.entryPoint ++
      [.comment (Command.function settings.entryPoint 0).render, .label settings.entryPoint]))).toOption.map
        (fun p => (p.labels, p.code.length)) = some (labels, 51))
    (free : ∀ symbol ∈ Assembly.predefined.map Prod.fst, labels.lookup symbol = none) :
    ∃ p, Bootable settings [.function settings.entryPoint 0] p ∧ p.labels = labels ∧ p.code.length = 51 := by
  have coded : Naming.program { calls := 1 } [.function settings.entryPoint 0] =
      .ok [.comment (Command.function settings.entryPoint 0).render, .label settings.entryPoint] := rfl
  obtain ⟨session, accepted, delivered⟩ := @generate_free true _ _ settings.stackBase settings.entryPoint coded
  obtain ⟨base, entryPoint⟩ := start_valid valid none
  have positive := (range_of_valid valid).2.1
  rw [if_pos rfl, base, entryPoint, Int.toNat_of_nonneg (by omega)] at delivered
  rw [← delivered] at read
  cases loaded : Program.load session.sink.delivered.toList with
  | error e =>
    rw [loaded] at read
    cases read
  | ok p =>
    rw [loaded] at read
    obtain ⟨known, length⟩ := Prod.mk.inj (Option.some.inj read)
    refine ⟨p, ⟨valid, bootstrap, ⟨0, List.mem_singleton_self _⟩, ⟨none, session, ?_, loaded⟩, by omega, known ▸ free⟩, known, length⟩
    rw [bootstrap]
    exact accepted

/-- The highest stack base, and a function whose name is the number of its own address once the white space is left out. -/
theorem boots_highest :
    ∃ p, Bootable { Settings.default with entryPoint := " 5 1", stackBase := 32763 } [.function " 5 1" 0] p ∧
      ∃ c, ((Core.fresh 51).map p.code).run 51 = (.running, c) ∧ Booted p 32763 "51" c := by
  obtain ⟨p, bootable, labels, -⟩ := @bootable_only { Settings.default with entryPoint := " 5 1", stackBase := 32763 }
    [(Text.ofString "51$ret.0", 51), (Text.ofString "51", 51)] (by decide) rfl (by decide +kernel) (by decide)
  have squeezed : Text.squeeze " 5 1" = "51" := by decide
  have booted := @boots _ _ p bootable (by decide) (by decide) (by rw [labels]; decide) 51 (by decide)
  exact ⟨p, bootable, squeezed ▸ booted⟩

/-- Valid settings with which a program never boots: the frame does not fit into the memory, a pointer is overwritten
before it is saved, and a number is taken for an address. -/
theorem not_boots :
    (∃ p, Bootable { Settings.default with entryPoint := "Main", stackBase := 32764 } [.function "Main" 0] p ∧
      ∀ n, ¬ Booted p 32764 "Main" (((Core.fresh 0).map p.code).run n).2) ∧
    (∃ p, Bootable { Settings.default with entryPoint := "Main", stackBase := 4 } [.function "Main" 0] p ∧
      ∀ n, ¬ Booted p 4 "Main" (((Core.fresh 0).map p.code).run n).2) ∧
    ∃ p, Bootable { Settings.default with entryPoint := "100", stackBase := 256 } [.function "100" 0] p ∧
      ∀ n, ¬ Booted p 256 "100" (((Core.fresh 0).map p.code).run n).2 := by
  refine ⟨?_, ?_, ?_⟩
  · obtain ⟨p, bootable, labels, -⟩ := @bootable_only { Settings.default with entryPoint := "Main", stackBase := 32764 }
      [(Text.ofString "Main$ret.0", 51), (Text.ofString "Main", 51)] (by decide) rfl (by decide +kernel) (by decide)
    refine ⟨p, bootable, ?_⟩
    intro n booted
    have early := @run_overflow p "Main" bootable.opens.1 n
    have there := @Booted.pc _ _ 51 _ _ booted (by rw [labels]; rfl)
    omega
  · obtain ⟨p, bootable, labels, length⟩ := @bootable_only { Settings.default with entryPoint := "Main", stackBase := 4 }
      [(Text.ofString "Main$ret.0", 51), (Text.ofString "Main", 51)] (by decide) rfl (by decide +kernel) (by decide)
    refine ⟨p, bootable, ?_⟩
    intro n booted
    have known : p.labels.lookup (Text.ofString "Main") = some 51 := by rw [labels]; rfl
    rcases @run_beyond p 4 51 "Main" bootable.opens.1 (by omega) (by omega) (value_label (by decide) known) (by omega) (by omega)
      (by omega) n with ⟨before, early⟩ | ⟨-, memory⟩
    · have there := booted.pc known
      omega
    · have lost := booted.saved 3 (by omega)
      rw [Core.word, memory, get_booted_low] at lost
      cases lost
  · obtain ⟨p, bootable, labels, length⟩ := @bootable_only { Settings.default with entryPoint := "100", stackBase := 256 }
      [(Text.ofString "100$ret.0", 51), (Text.ofString "100", 51)] (by decide) rfl (by decide +kernel) (by decide)
    refine ⟨p, bootable, ?_⟩
    intro n booted
    have there := @Booted.pc _ _ 51 _ _ booted (by rw [labels]; rfl)
    rcases @run_beyond p 256 100 "100" bootable.opens.1 (by omega) (by omega) (value_number (by decide) (by omega)) (by omega)
      (by omega) (by omega) n with ⟨before, early⟩ | ⟨astray, -⟩
    · omega
    · omega

end HackToolchain.Emission
