import HackToolchain.Machine.Core
import HackToolchain.Proofs.Machine.Grammar
import HackToolchain.Proofs.Machine.Memory
import HackToolchain.Proofs.Machine.Symbols
import HackToolchain.Proofs.Text.Numeral

/-!
What becomes of the operands of address instructions. A number that is read is in range; but digits that denote
too large a number to be read are a symbol like any other, and nothing bounds the addresses of labels and variables.
-/

namespace HackToolchain

/-- A value that a word can address, and that is the number denoted by its operand if that consists of digits. -/
def Survives (symbol : Text) (value : Int) : Prop :=
  (0 ≤ value ∧ value ≤ 32767) ∧ (symbol.all Text.isDigit = true → value = Text.value symbol)

/-- The operand of an instruction that is read is not empty, and a number in it is the value. -/
theorem Operation.ofText_address {text symbol : Text} {value : Int} (fine : malformed? text = none)
    (loads : ofText text = .address symbol value) :
    symbol ≠ [] ∧ ∀ n, Text.toInt? symbol = some n → value = n ∧ 0 ≤ n ∧ n ≤ 32767 := by
  obtain ⟨form, valid, rfl⟩ := Form.exists_form fine
  rw [valid.ofText] at loads
  cases form with
  | address name =>
    obtain ⟨rfl, rfl⟩ := Operation.address.inj loads
    refine ⟨valid.1, ?_⟩
    intro n number
    rw [number]
    exact ⟨rfl, valid.2 n number⟩
  | label name => cases loads
  | compute dest comp jump => cases loads

theorem Core.execute_address {c : Core} {i : Instruction} {symbol : Text} {value : Int}
    (loads : i.operation = .address symbol value) (natural : 0 ≤ value) :
    (c.execute i).2.a.toInt = value ↔ value ≤ 32767 := by
  rw [execute, loads]
  obtain ⟨n, rfl⟩ := Int.eq_ofNat_of_zero_le natural
  dsimp only
  constructor
  · intro same
    have range := Word.toInt_range (Int16.ofInt n)
    omega
  · intro small
    rw [Word.ofInt_natCast, Word.toInt_ofNat (by omega)]

namespace Assembly

theorem bound_cases {labels storage : Bindings Nat} {symbol : Text} {address : Nat}
    (bound : (labels.lookup symbol <|> predefined.lookup symbol <|> storage.lookup symbol) = some address) :
    labels.lookup symbol = some address ∨ predefined.lookup symbol = some address ∨ storage.lookup symbol = some address := by
  cases labelled : labels.lookup symbol with
  | some value =>
    rw [labelled] at bound
    exact .inl bound
  | none =>
    cases named : predefined.lookup symbol with
    | some value =>
      rw [labelled, named] at bound
      exact .inr (.inl bound)
    | none =>
      rw [labelled, named] at bound
      exact .inr (.inr bound)

theorem predefined_range : ∀ binding ∈ predefined, binding.2 ≤ 32767 := by decide

end Assembly

namespace Program

open Assembly

variable {source : Text} {p : Program}

/-- The ways on which an operand gets its value. -/
theorem load_operand (loaded : load source = .ok p) {i : Instruction} (member : i ∈ p.code) {symbol : Text} {value : Int}
    (loads : i.operation = .address symbol value) :
    symbol ≠ [] ∧
      (Text.toInt? symbol = some value ∧ 0 ≤ value ∧ value ≤ 32767 ∨
        Text.toInt? symbol = none ∧ ∃ address : Nat, value = address ∧
          (p.labels.lookup symbol <|> predefined.lookup symbol <|> p.storage.lookup symbol) = some address) := by
  obtain ⟨fine, -, operation⟩ := mem_code loaded member
  obtain ⟨m, read, bound⟩ := Operation.bind_eq_address.mp (operation.symm.trans loads)
  obtain ⟨nonempty, literal⟩ := Operation.ofText_address fine read
  refine ⟨nonempty, ?_⟩
  cases number : Text.toInt? symbol with
  | some n =>
    obtain ⟨rfl, low, high⟩ := literal n number
    rw [number, Option.isSome_some, if_pos rfl] at bound
    rw [bound]
    exact .inl ⟨rfl, low, high⟩
  | none =>
    rw [number] at bound
    refine .inr ⟨rfl, p.address symbol, bound, ?_⟩
    obtain ⟨instructions, -, -, rfl⟩ := load_layOut loaded
    rw [layOut_code] at member
    obtain ⟨j, kept, rfl⟩ := List.mem_map.mp member
    obtain ⟨n, named, -⟩ := Operation.bind_eq_address.mp loads
    exact layOut_bound ⟨j, List.mem_of_mem_filter kept, n, named⟩ number

/-- An operand is lost only if it is digits that denote too large a number to be read, or if its address is too large. -/
theorem survives_iff (loaded : load source = .ok p) {i : Instruction} (member : i ∈ p.code) {symbol : Text} {value : Int}
    (loads : i.operation = .address symbol value) :
    Survives symbol value ↔
      (symbol.all Text.isDigit = true → Text.value symbol < 0x8000000000000000) ∧ value ≤ 32767 := by
  obtain ⟨nonempty, path⟩ := load_operand loaded member loads
  constructor
  · rintro ⟨⟨-, high⟩, denotes⟩
    refine ⟨?_, high⟩
    intro digits
    have same := denotes digits
    omega
  · rintro ⟨small, high⟩
    have number (digits : symbol.all Text.isDigit = true) : Text.toInt? symbol = some (Text.value symbol : Int) := by
      rw [Text.toInt?_numeral nonempty digits, if_pos (small digits)]
    obtain ⟨read, range⟩ | ⟨symbolic, address, rfl, -⟩ := path
    · refine ⟨range, ?_⟩
      intro digits
      rw [number digits] at read
      exact (Option.some.inj read).symm
    · refine ⟨⟨Int.natCast_nonneg address, high⟩, ?_⟩
      intro digits
      rw [number digits] at symbolic
      cases symbolic

/-- Every variable is the operand of an instruction, with its address as the value. -/
theorem load_stored (loaded : load source = .ok p) {binding : Text × Nat} (stored : binding ∈ p.storage) :
    ∃ i ∈ p.code, i.operation = .address binding.1 binding.2 := by
  obtain ⟨instructions, -, -, rfl⟩ := load_layOut loaded
  obtain ⟨⟨i, member, value, loads⟩, unknown⟩ := layOut_storage.mp (List.mem_map_of_mem (f := Prod.fst) stored)
  rw [← layOut_names, not_known_iff] at unknown
  obtain ⟨symbolic, unlabelled, unnamed⟩ := unknown
  have code : i ∈ instructions.filter (·.operation.label?.isNone) := List.mem_filter.mpr ⟨member, by rw [loads]; rfl⟩
  have bound : (layOut instructions).address binding.1 = binding.2 := by
    rw [address, addressOf, unlabelled, unnamed, lookup_of_mem (layOut_distinct instructions) stored]
    rfl
  rw [layOut_code]
  refine ⟨_, List.mem_map_of_mem code, ?_⟩
  rw [loads, Operation.bind_symbol symbolic, bound]

theorem load_natural (loaded : load source = .ok p) {i : Instruction} (member : i ∈ p.code) {symbol : Text} {value : Int}
    (loads : i.operation = .address symbol value) : 0 ≤ value := by
  obtain ⟨-, ⟨-, low, -⟩ | ⟨-, address, rfl, -⟩⟩ := load_operand loaded member loads
  · exact low
  · exact Int.natCast_nonneg address

/-- The values of all operands fit exactly if the labels in use and the variables do. -/
theorem load_fits_iff (loaded : load source = .ok p) :
    (∀ i ∈ p.code, ∀ symbol value, i.operation = .address symbol value → value ≤ 32767) ↔
      (∀ symbol ∈ p.code.filterMap (·.operation.operand?), Text.toInt? symbol = none →
        ∀ address, p.labels.lookup symbol = some address → address ≤ 32767) ∧
      p.storage.length ≤ 32752 := by
  have addresses : p.storage.map Prod.snd = List.range' 16 p.storage.length := by
    obtain ⟨instructions, -, -, rfl⟩ := load_layOut loaded
    exact layOut_addresses instructions
  constructor
  · intro fits
    constructor
    · intro symbol used symbolic address declared
      obtain ⟨i, member, operand⟩ := List.mem_filterMap.mp used
      obtain ⟨value, loads⟩ := Operation.operand?_eq_some.mp operand
      obtain ⟨-, ⟨number, -⟩ | ⟨-, bound, rfl, known⟩⟩ := load_operand loaded member loads
      · rw [symbolic] at number
        cases number
      · rw [declared] at known
        obtain rfl : address = bound := Option.some.inj known
        have := fits i member symbol address loads
        omega
    · -- The addresses of the variables have no gap, so that one of too many has the first address that does not fit.
      by_contra many
      have taken : 32768 ∈ p.storage.map Prod.snd := by
        rw [addresses, List.mem_range'_1]
        omega
      obtain ⟨binding, stored, high⟩ := List.mem_map.mp taken
      obtain ⟨i, member, loads⟩ := load_stored loaded stored
      have := fits i member binding.1 binding.2 loads
      omega
  · rintro ⟨labels, few⟩ i member symbol value loads
    obtain ⟨-, ⟨-, -, high⟩ | ⟨symbolic, address, rfl, known⟩⟩ := load_operand loaded member loads
    · exact high
    · have used : symbol ∈ p.code.filterMap (·.operation.operand?) :=
        List.mem_filterMap.mpr ⟨i, member, Operation.operand?_eq_some.mpr ⟨address, loads⟩⟩
      rcases bound_cases known with label | reserved | stored
      · have := labels symbol used symbolic address label
        omega
      · have := predefined_range _ (mem_of_lookup reserved)
        omega
      · have taken : address ∈ p.storage.map Prod.snd := List.mem_map_of_mem (f := Prod.snd) (mem_of_lookup stored)
        rw [addresses, List.mem_range'_1] at taken
        omega

/-- The operands of a loaded program all survive exactly if none is digits that denote 2^63 or more, no label in
use lies behind more than 32767 instructions, and there are at most 32752 variables. Executing an instruction
changes the value of its operand only if that does not fit. -/
theorem operands_survive_iff (loaded : load source = .ok p) :
    ((∀ i ∈ p.code, ∀ symbol value, i.operation = .address symbol value → Survives symbol value) ↔
      (∀ symbol ∈ p.code.filterMap (·.operation.operand?),
        symbol.all Text.isDigit = true → Text.value symbol < 0x8000000000000000) ∧
      (∀ symbol ∈ p.code.filterMap (·.operation.operand?), Text.toInt? symbol = none →
        ∀ address, p.labels.lookup symbol = some address → address ≤ 32767) ∧
      p.storage.length ≤ 32752) ∧
    ∀ i ∈ p.code, ∀ symbol value, i.operation = .address symbol value →
      (Survives symbol value ↔
        (symbol.all Text.isDigit = true → Text.value symbol < 0x8000000000000000) ∧ value ≤ 32767) ∧
      ∀ c : Core, (c.execute i).2.a.toInt = value ↔ value ≤ 32767 := by
  refine ⟨?_, ?_⟩
  · rw [← load_fits_iff loaded]
    constructor
    · intro survive
      constructor
      · intro symbol used
        obtain ⟨i, member, operand⟩ := List.mem_filterMap.mp used
        obtain ⟨value, loads⟩ := Operation.operand?_eq_some.mp operand
        exact ((survives_iff loaded member loads).mp (survive i member symbol value loads)).1
      · intro i member symbol value loads
        exact (survive i member symbol value loads).1.2
    · rintro ⟨small, fits⟩ i member symbol value loads
      apply (survives_iff loaded member loads).mpr
      refine ⟨?_, fits i member symbol value loads⟩
      exact small symbol (List.mem_filterMap.mpr ⟨i, member, Operation.operand?_eq_some.mpr ⟨value, loads⟩⟩)
  · intro i member symbol value loads
    refine ⟨survives_iff loaded member loads, ?_⟩
    intro c
    exact Core.execute_address loads (load_natural loaded member loads)

/-- Digits that are too many to be read become a variable, whereas leading zeros do no harm. -/
theorem operands_survive_iff_digits :
    (∃ p, load "@99999999999999999999\nD=A\n" = .ok p ∧ p.storage = ([("99999999999999999999", 16)] : Bindings Nat) ∧
      ¬ ∀ i ∈ p.code, ∀ symbol value, i.operation = .address symbol value → Survives symbol value) ∧
    ∃ p, load "@00000000000000032767\nD=A\n@x\nM=D\n" = .ok p ∧ p.storage = ([("x", 16)] : Bindings Nat) ∧
      ∀ i ∈ p.code, ∀ symbol value, i.operation = .address symbol value → Survives symbol value := by
  constructor
  · let p : Program :=
      { code := [⟨.address "99999999999999999999" 16, 1, "@99999999999999999999"⟩, ⟨.compute "D" "A" [], 2, "D=A"⟩]
        labels := [], storage := [("99999999999999999999", 16)] }
    have loaded : load "@99999999999999999999\nD=A\n" = .ok p := by decide +kernel
    refine ⟨p, loaded, rfl, ?_⟩
    intro survive
    obtain ⟨small, -⟩ := (operands_survive_iff loaded).1.mp survive
    have large := small "99999999999999999999" (by decide +kernel) (by decide +kernel)
    exact absurd large (by decide +kernel)
  · let p : Program :=
      { code := [⟨.address "00000000000000032767" 32767, 1, "@00000000000000032767"⟩, ⟨.compute "D" "A" [], 2, "D=A"⟩,
          ⟨.address "x" 16, 3, "@x"⟩, ⟨.compute "M" "D" [], 4, "M=D"⟩]
        labels := [], storage := [("x", 16)] }
    have loaded : load "@00000000000000032767\nD=A\n@x\nM=D\n" = .ok p := by decide +kernel
    refine ⟨p, loaded, rfl, (operands_survive_iff loaded).1.mpr ⟨?_, ?_, ?_⟩⟩
    · decide +kernel
    · intro symbol used symbolic address declared
      cases declared
    · decide +kernel

end Program

end HackToolchain
