import HackToolchain.Proofs.Machine.Load
import Mathlib.Data.List.Forall2
import Mathlib.Data.List.Induction
import Mathlib.Data.List.Nodup

/-!
What the symbols of a program stand for. A label counts from anywhere in the text and before a predefined symbol,
and only a symbol that is neither gets a word of memory, in the order in which such symbols are first used.
-/

namespace HackToolchain

namespace Operation

theorem bind_plain {operation : Operation} (plain : ∀ symbol, operation.operand? = some symbol → Text.toInt? symbol ≠ none)
    (value : Text → Nat) : operation.bind value = operation := by
  cases operation with
  | address symbol n =>
    have number := plain symbol rfl
    rw [bind, if_pos (Option.isSome_iff_ne_none.mpr number)]
  | _ => rfl

theorem bind_symbol {symbol : Text} (symbolic : Text.toInt? symbol = none) (n : Int) (value : Text → Nat) :
    (address symbol n).bind value = .address symbol (value symbol) := by
  rw [bind, symbolic]
  rfl

end Operation

namespace Assembly

theorem eraseDups_nodup (used : List Text) : used.eraseDups.Nodup := by
  induction used using List.reverseRecOn with
  | nil => exact .nil
  | append_singleton used symbol ih =>
    rw [eraseDups_concat]
    split
    · exact ih
    · rename_i fresh
      rw [← List.mem_eraseDups] at fresh
      rw [← List.concat_eq_append]
      exact .concat fresh ih

end Assembly

namespace Program

open Assembly

/-- An instruction beside the one it becomes in a program. Only the value of a symbol that is no number is
filled in: that of the label, else of the predefined symbol, else of the variable. -/
inductive Resolved (p : Program) : Instruction → Instruction → Prop
  | kept {i : Instruction} (plain : ∀ symbol, i.operation.operand? = some symbol → Text.toInt? symbol ≠ none) : Resolved p i i
  | bound {i : Instruction} {symbol : Text} {value : Int} {address : Nat} (loads : i.operation = .address symbol value)
    (symbolic : Text.toInt? symbol = none)
    (known : (p.labels.lookup symbol <|> predefined.lookup symbol <|> p.storage.lookup symbol) = some address) :
    Resolved p i { i with operation := .address symbol address }

theorem Resolved.label {p : Program} {i j : Instruction} {symbol : Text} {value : Int} {address : Nat}
    (resolved : p.Resolved i j) (loads : i.operation = .address symbol value) (symbolic : Text.toInt? symbol = none)
    (declared : p.labels.lookup symbol = some address) : j = { i with operation := .address symbol address } := by
  cases resolved with
  | kept plain =>
    exact absurd symbolic (plain symbol (Operation.operand?_eq_some.mpr ⟨value, loads⟩))
  | bound loads' _ known =>
    obtain ⟨rfl, -⟩ := Operation.address.inj (loads.symm.trans loads')
    rw [declared] at known
    rw [Option.some.inj known]

variable {instructions : List Instruction}

/-- A symbol in use that is no number has an address. -/
theorem layOut_bound {symbol : Text} (used : ∃ i ∈ instructions, ∃ value, i.operation = .address symbol value)
    (symbolic : Text.toInt? symbol = none) :
    ((layOut instructions).labels.lookup symbol <|> predefined.lookup symbol <|> (layOut instructions).storage.lookup symbol) =
      some ((layOut instructions).address symbol) := by
  have known : ((layOut instructions).labels.lookup symbol <|> predefined.lookup symbol <|>
      (layOut instructions).storage.lookup symbol) ≠ none := by
    intro missing
    obtain ⟨unknown, fresh⟩ := (unbound_iff symbolic).mp missing
    rw [layOut_names] at unknown
    exact fresh (layOut_storage.mpr ⟨used, unknown⟩)
  obtain ⟨value, bound⟩ := Option.ne_none_iff_exists'.mp known
  rw [address, addressOf, bound]
  rfl

theorem layOut_resolved {i : Instruction} (member : i ∈ instructions) :
    (layOut instructions).Resolved i { i with operation := i.operation.bind (layOut instructions).address } := by
  by_cases plain : ∀ symbol, i.operation.operand? = some symbol → Text.toInt? symbol ≠ none
  · rw [Operation.bind_plain plain]
    exact .kept plain
  · push Not at plain
    obtain ⟨symbol, operand, symbolic⟩ := plain
    obtain ⟨value, loads⟩ := Operation.operand?_eq_some.mp operand
    rw [loads, Operation.bind_symbol symbolic]
    exact .bound loads symbolic (layOut_bound ⟨i, member, value, loads⟩ symbolic)

theorem layOut_distinct (instructions : List Instruction) : ((layOut instructions).storage.map Prod.fst).Nodup := by
  rw [layOut_variables, List.zipIdx_map_fst]
  exact eraseDups_nodup _

theorem layOut_addresses (instructions : List Instruction) :
    (layOut instructions).storage.map Prod.snd = List.range' 16 (layOut instructions).storage.length := by
  rw [layOut_variables, List.zipIdx_map_snd, List.length_zipIdx]

/-- A label stands for the number of instructions in front of its declaration. -/
theorem layOut_label (distinct : (instructions.filterMap (·.operation.label?)).Nodup) {name : Text} {address : Nat} :
    (layOut instructions).labels.lookup name = some address ↔
      ∃ front i back, instructions = front ++ i :: back ∧ i.operation = .label name ∧
        (front.filter (·.operation.label?.isNone)).length = address := by
  have loaded := ofInstructions_ok (ofInstructions_iff.mpr ⟨distinct, rfl⟩)
  have found {front back : List Instruction} {i : Instruction} (split : instructions = front ++ i :: back)
      (label : i.operation = .label name) :
      (layOut instructions).labels.lookup name = some (front.filter (·.operation.label?.isNone)).length := by
    have parts : instructions.map (·.operation) = front.map (·.operation) ++ .label name :: back.map (·.operation) := by
      rw [split, List.map_append, List.map_cons, label]
    rw [loaded.lookup_label parts, size_operations]
  constructor
  · intro bound
    have declared : name ∈ instructions.filterMap (·.operation.label?) := by
      rw [← layOut_names, ← lookup_isSome, bound]
      rfl
    obtain ⟨i, member, named⟩ := List.mem_filterMap.mp declared
    obtain ⟨front, back, split⟩ := List.append_of_mem member
    have label : i.operation = .label name := Operation.label?_eq_some.mp named
    exact ⟨front, i, back, split, label, Option.some.inj ((found split label).symm.trans bound)⟩
  · rintro ⟨front, i, back, split, label, rfl⟩
    exact found split label

/-- A text that is read is loaded exactly if no label is declared twice, and then every symbol has its right meaning. -/
theorem load_resolves {source : Text} {parsed : List Instruction} (read : parse source = .ok parsed) :
    ((∃ p, load source = .ok p) ↔ (parsed.filterMap (·.operation.label?)).Nodup) ∧
    ∀ p, load source = .ok p →
      List.Forall₂ p.Resolved (parsed.filter (·.operation.label?.isNone)) p.code ∧
      (∀ name address, p.labels.lookup name = some address ↔
        ∃ front i back, parsed = front ++ i :: back ∧ i.operation = .label name ∧
          (front.filter (·.operation.label?.isNone)).length = address) ∧
      p.storage = (remaining (parsed.filterMap (·.operation.label?)) parsed).eraseDups.zipIdx 16 ∧
      (p.storage.map Prod.fst).Nodup ∧ (p.storage.map Prod.snd).Nodup ∧
      ∀ name ∈ p.storage.map Prod.fst, p.labels.lookup name = none ∧ predefined.lookup name = none := by
  rw [load_of_parse read]
  refine ⟨by simp only [ofInstructions_iff, exists_and_left, exists_eq, and_true], ?_⟩
  intro p loaded
  obtain ⟨distinct, rfl⟩ := ofInstructions_iff.mp loaded
  refine ⟨?_, fun name address => layOut_label distinct, layOut_variables parsed, layOut_distinct parsed, ?_, ?_⟩
  · rw [layOut_code, List.forall₂_map_right_iff, List.forall₂_same]
    intro i member
    exact layOut_resolved (List.mem_of_mem_filter member)
  · rw [layOut_addresses]
    exact List.nodup_range' 1
  · intro name stored
    obtain ⟨-, unknown⟩ := layOut_storage.mp stored
    rw [← layOut_names, not_known_iff] at unknown
    exact unknown.2

/-- A label that is used before its declaration, at the end, and one with the name of a predefined symbol. -/
def tangled : Text := "@END\n@SP\n@x\nD=M\n@y\n(SP)\n@x\nM=D\n(END)\n"

theorem load_resolves_tangled :
    (∃ p, load tangled = .ok p ∧
      p.code.take 2 = [⟨.address "END" 7, 1, "@END"⟩, ⟨.address "SP" 5, 2, "@SP"⟩] ∧ p.storage = ([("x", 16), ("y", 17)] : Bindings Nat)) ∧
    ¬ ∃ p, load (tangled ++ "(SP)\n") = .ok p := by
  let parsed : List Instruction :=
    [⟨.address "END" 0, 1, "@END"⟩, ⟨.address "SP" 0, 2, "@SP"⟩, ⟨.address "x" 0, 3, "@x"⟩, ⟨.compute "D" "M" [], 4, "D=M"⟩,
      ⟨.address "y" 0, 5, "@y"⟩, ⟨.label "SP", 6, "(SP)"⟩, ⟨.address "x" 0, 7, "@x"⟩, ⟨.compute "M" "D" [], 8, "M=D"⟩,
      ⟨.label "END", 9, "(END)"⟩]
  have read : parse tangled = .ok parsed := by decide +kernel
  have again : parse (tangled ++ "(SP)\n") = .ok (parsed ++ [⟨.label "SP", 10, "(SP)"⟩]) := by decide +kernel
  constructor
  · obtain ⟨loads, resolved⟩ := load_resolves read
    obtain ⟨p, loaded⟩ := loads.mpr (by decide +kernel)
    obtain ⟨code, labels, storage, -⟩ := resolved p loaded
    have last : p.labels.lookup (Text.ofString "END") = some 7 :=
      (labels _ _).mpr ⟨parsed.take 8, _, [], rfl, rfl, rfl⟩
    have shadowing : p.labels.lookup (Text.ofString "SP") = some 5 :=
      (labels _ _).mpr ⟨parsed.take 5, _, parsed.drop 6, rfl, rfl, rfl⟩
    refine ⟨p, loaded, ?_, storage.trans (by decide +kernel)⟩
    generalize p.code = found at code
    obtain _ | ⟨first, _ | ⟨second, -⟩⟩ := code
    rw [first.label rfl (by decide +kernel) last, second.label rfl (by decide +kernel) shadowing]
    rfl
  · rw [(load_resolves again).1]
    decide +kernel

end Program

end HackToolchain
